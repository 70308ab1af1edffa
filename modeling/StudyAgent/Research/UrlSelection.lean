import StudyAgent.Base.FirstWins
import StudyAgent.Base.Json
import StudyAgent.Research.AttachMedia

/-!
# Choosing the urls of a search

The urls of a search are chosen in two passes, first those that are not demoted and then those
that are, one for each domain until there are enough of them.  When too few are found, a second
search is merged behind the first.

Main results:

* `isDemotedUrl_eq`, `isDemotedUrl_mono` — when a url is demoted, and that more candidates never
  lift a demotion.
* `selectUrls_eq` — **what is selected**: the first url of each domain, demoted ones last.
* `selectUrls_raises_iff` — when the choice raises.
* `fairChoice_of_select`, `length_le_of_merge` — **the choice is maximal and fair**, and more
  results never shorten it.
* `searchExternalUrls_spec` — what a search returns, repeated or not.
-/

namespace StudyAgent.Research

open Py Dedup

/-! ## Urls -/

/-- What is read of a parsed url. -/
structure ParseResult where
  netloc : String
  path : String
  query : String

/-- The functions of the language that the choice rests on. -/
structure UrlLibrary where
  /-- `urlparse`, which raises on some texts. -/
  urlparse : String → Option ParseResult
  /-- `parse_qs(query).get(key, [])`. -/
  parseQs : String → String → List String
  lower : String → String

/-- `_LOW_SIGNAL_PATH_FRAGMENTS`. -/
def lowSignalPathFragments : List String := ["/learn/", "/course/", "/courses/"]

namespace UrlLibrary

variable (U : UrlLibrary)

/-- `urlparse(url).netloc.replace("www.", "").lower()`. -/
def host (url : String) : Option String :=
  (U.urlparse url).map fun parsed => U.lower (String.ofList (withoutWww parsed.netloc.toList))

/-- `extract_domain`. -/
def extractDomain (url : String) : Option String := U.host url

/-- `_is_low_signal_path`. -/
def isLowSignalPath (url : String) : Option Bool :=
  (U.urlparse url).map fun parsed =>
    lowSignalPathFragments.any fun fragment =>
      fragment.toList <:+: (U.lower parsed.path).toList

/-- `_is_pdf_url`: by the end of the path, a directory, or a flag of the query. -/
def isPdfUrl (url : String) : Option Bool :=
  (U.urlparse url).map fun parsed =>
    let path := U.lower parsed.path
    endsWith path ".pdf" || "/pdf/".toList <:+: path.toList ||
      ["filetype", "format", "type", "download"].any fun key =>
        ((U.parseQs parsed.query key).map U.lower).any fun v => v = "pdf" || endsWith v ".pdf"

/-- `is_excluded_url`. -/
def isExcludedUrl (url : String) : Option Bool := U.isPdfUrl url

/-- `_is_legacy_host`. -/
def isLegacyHost (url : String) : Option Bool :=
  (U.host url).map fun host => startsWith host "legacy."

/-- `_legacy_host_suffix`. -/
def legacyHostSuffix (url : String) : Option (Option String) :=
  (U.host url).map fun host =>
    if startsWith host "legacy." then some (String.ofList (host.toList.drop "legacy.".length))
    else none

/-- The loop of `has_non_legacy_alternate`. -/
def alternateAmong (legacyUrl : String) (suffix : Option String) : List String → Option Bool
  | [] => some false
  | url :: urls =>
    if url = legacyUrl then alternateAmong legacyUrl suffix urls
    else
      (U.host url).bind fun host =>
        if startsWith host "legacy." then alternateAmong legacyUrl suffix urls
        -- the same registrable domain, or any other: both are alternatives
        else if (filled suffix).any fun s => s.toList <:+: host.toList || endsWith host s then
          some true
        else some true

/-- `has_non_legacy_alternate`. -/
def hasNonLegacyAlternate (legacyUrl : String) (candidateUrls : List String) : Option Bool := do
  if ← U.isLegacyHost legacyUrl then
    let suffix ← U.legacyHostSuffix legacyUrl
    U.alternateAmong legacyUrl suffix candidateUrls
  else return false

/-- `is_demoted_url`. -/
def isDemotedUrl (url : String) (candidateUrls : List String) : Option Bool := do
  if ← U.isExcludedUrl url then return false
  else if ← U.isLowSignalPath url then return true
  else if ← U.isLegacyHost url then U.hasNonLegacyAlternate url candidateUrls
  else return false

/-! ## The choice -/

/-- `[url for url in urls if not is_excluded_url(url)]`. -/
def eligibleUrls : List String → Option (List String)
  | [] => some []
  | url :: urls => do
    let excluded ← U.isExcludedUrl url
    let eligible ← eligibleUrls urls
    return if excluded then eligible else url :: eligible

/-- Where a pass ends: with the result, or behind the last url. -/
inductive Pass where
  | returned (selected : List String)
  | finished (seenDomains selected : List String)

/-- One pass over the urls and their flags. -/
def selectPass (target : ℕ) (preferDemoted : Bool) :
    List (String × Bool) → List String → List String → Option Pass
  | [], seenDomains, selected => some (.finished seenDomains selected)
  | (url, isDemoted) :: rest, seenDomains, selected =>
    if isDemoted != preferDemoted then selectPass target preferDemoted rest seenDomains selected
    else
      (U.extractDomain url).bind fun domain =>
        if domain = "" || domain ∈ seenDomains then
          selectPass target preferDemoted rest seenDomains selected
        else if target ≤ (selected ++ [url]).length then some (.returned (selected ++ [url]))
        else selectPass target preferDemoted rest (seenDomains ++ [domain]) (selected ++ [url])

/-- The passes over the urls that are not demoted and over those that are. -/
def selectPasses (target : ℕ) (flagged : List (String × Bool)) : Option (List String) :=
  (U.selectPass target false flagged [] []).bind fun
    | .returned selected => some selected
    | .finished seenDomains selected =>
      (U.selectPass target true flagged seenDomains selected).map fun
        | .returned selected => selected
        | .finished _ selected => selected

/-- `select_urls_with_domain_dedupe`. -/
def selectUrlsWithDomainDedupe (urls : List String) (target : ℕ) : Option (List String) :=
  if urls = [] then some []
  else
    (U.eligibleUrls urls).bind fun eligible =>
      if eligible = [] then some []
      else
        (eligible.mapM fun url => U.isDemotedUrl url eligible).bind fun demotedFlags =>
          U.selectPasses target (eligible.zip demotedFlags)

/-- `_merge_unique_urls`: the first occurrences. -/
def mergeUniqueUrls (batches : List (List String)) : List String :=
  batches.foldl (collect id fun _ => true) []

/-! ## The search -/

/-- `_with_pdf_query_exclusion`. -/
def withPdfQueryExclusion (query : String) : String :=
  if (U.lower "-filetype:pdf").toList <:+: (U.lower query).toList then query
  else strip (query ++ " " ++ "-filetype:pdf")

/-- The url of a result. -/
def urlOfResult : Json → Option String
  | .obj result =>
    match Json.get result "url" with
    | some (.str url) => if url = "" then none else some url
    | _ => none
  | _ => none

/-- `_urls_from_tavily_response`. -/
def urlsFromTavilyResponse : Json → List String
  | .obj response =>
    match Json.get response "results" with
    | some (.arr results) => results.filterMap urlOfResult
    | _ => []
  | _ => []

/-- What the search reads of the settings. -/
structure SearchSettings where
  tavilyApiKey : String := ""
  maxSearchResults : ℕ := 5
  targetResults : ℕ := 3

/-- `_tavily_search`, given what the client answers, if it does not raise. -/
def tavilySearch (client : String → ℕ → Option Json) (query : String) (maxResults : ℕ) :
    List String :=
  (client query maxResults).elim [] urlsFromTavilyResponse

/-- `search_external_urls`.  Without a client one is made, which may fail. -/
def searchExternalUrls (S : SearchSettings) (newClient client : Option (String → ℕ → Option Json))
    (query : String) : Option (List String) :=
  if strip query = "" then some []
  else if strip S.tavilyApiKey = "" && client.isNone then some []
  else
    match client.or newClient with
    | none => some []
    | some client => do
      let poolTarget := max S.maxSearchResults S.targetResults
      let firstUrls := tavilySearch client (strip query) S.maxSearchResults
      let selected ← U.selectUrlsWithDomainDedupe firstUrls poolTarget
      if S.targetResults ≤ selected.length then return selected
      else
        let retryUrls := tavilySearch client (U.withPdfQueryExclusion (strip query))
          (max (S.maxSearchResults + 3) (S.targetResults * 2))
        U.selectUrlsWithDomainDedupe (mergeUniqueUrls [firstUrls, retryUrls]) poolTarget

/-! ## What is chosen -/

/-- The urls that are not excluded. -/
def eligible (urls : List String) : List String :=
  urls.filter fun url => U.isExcludedUrl url = some false

/-- The flag of a url among the eligible ones. -/
def isDemoted (urls : List String) (url : String) : Bool :=
  U.isDemotedUrl url (U.eligible urls) = some true

/-- The eligible urls, the demoted ones last. -/
def ranked (urls : List String) : List String :=
  (U.eligible urls).filter (fun url => !U.isDemoted urls url) ++
    (U.eligible urls).filter (U.isDemoted urls)

/-- The eligible urls with their flags. -/
def flagged (urls : List String) : List (String × Bool) :=
  (U.eligible urls).zip ((U.eligible urls).map (U.isDemoted urls))

/-- The domain of a url that is accepted. -/
def domain (url : String) : String := (U.extractDomain url).getD ""

/-- The first url of each domain that is named and not seen. -/
def firstOfDomains (seenDomains urls : List String) : List String :=
  firstWins U.domain (fun domain => domain ≠ "") seenDomains urls

/-- The domains that are seen behind some urls. -/
def domainsBehind (seenDomains urls : List String) : List String :=
  collect U.domain (fun domain => domain ≠ "") seenDomains urls

/-- Where a pass ends that comes to have seen and selected so much. -/
def passEnd (target : ℕ) (seenDomains selected : List String) : Pass :=
  if target ≤ selected.length then .returned (selected.take target)
  else .finished seenDomains selected

/-- The different domains of the eligible urls. -/
def eligibleDomains (urls : List String) : List String :=
  (((U.eligible urls).filterMap U.extractDomain).filter (· ≠ "")).dedup

variable {U}

/-! ### Accepted urls -/

theorem extractDomain_of_accepted {url : String} (h : U.urlparse url ≠ none) :
    U.extractDomain url = some (U.domain url) := by
  obtain ⟨parsed, hparsed⟩ := Option.ne_none_iff_exists'.1 h
  unfold domain extractDomain host
  rw [hparsed]
  rfl

theorem host_of_accepted {url : String} (h : U.urlparse url ≠ none) :
    U.host url = some (U.domain url) := extractDomain_of_accepted h

theorem isExcludedUrl_eq_none_iff {url : String} :
    U.isExcludedUrl url = none ↔ U.urlparse url = none := Option.map_eq_none_iff

/-- Any other url without a legacy host is an alternative, whatever the suffix. -/
theorem alternateAmong_eq {legacyUrl : String} {suffix : Option String} {urls : List String}
    (h : ∀ url ∈ urls, U.urlparse url ≠ none) :
    U.alternateAmong legacyUrl suffix urls =
      some (urls.any fun url => url ≠ legacyUrl && !startsWith (U.domain url) "legacy.") := by
  induction urls with
  | nil => rfl
  | cons url urls ih =>
    obtain ⟨hurl, hurls⟩ := List.forall_mem_cons.1 h
    rw [alternateAmong, host_of_accepted hurl, Option.bind_some, List.any_cons]
    split_ifs with hsame hlegacy
    · rw [ih hurls]
      simp [hsame]
    · rw [ih hurls]
      simp [hlegacy]
    · simp [hsame, hlegacy]
    · simp [hsame, hlegacy]

theorem hasNonLegacyAlternate_eq {url : String} {urls : List String}
    (hurl : U.urlparse url ≠ none) (hurls : ∀ other ∈ urls, U.urlparse other ≠ none) :
    U.hasNonLegacyAlternate url urls =
      some (startsWith (U.domain url) "legacy." &&
        urls.any fun other => other ≠ url && !startsWith (U.domain other) "legacy.") := by
  unfold hasNonLegacyAlternate isLegacyHost legacyHostSuffix
  rw [host_of_accepted hurl, Option.map_some, Option.map_some, Option.bind_eq_bind,
    Option.bind_some]
  split_ifs with hlegacy
  · rw [Option.bind_eq_bind, Option.bind_some, alternateAmong_eq hurls, hlegacy, Bool.true_and]
  · rw [Bool.eq_false_iff.2 hlegacy]
    rfl

/-- **The flag of an accepted url**: apart from its own path, it depends on the other candidates
that have no legacy host. -/
theorem isDemotedUrl_eq {url : String} {urls : List String} {excluded lowSignal : Bool}
    (hexcluded : U.isExcludedUrl url = some excluded)
    (hlow : U.isLowSignalPath url = some lowSignal)
    (hurls : ∀ other ∈ urls, U.urlparse other ≠ none) :
    U.isDemotedUrl url urls =
      some (!excluded && (lowSignal || startsWith (U.domain url) "legacy." &&
        urls.any fun other => other ≠ url && !startsWith (U.domain other) "legacy.")) := by
  have hurl : U.urlparse url ≠ none := by
    rw [Ne, ← isExcludedUrl_eq_none_iff, hexcluded]
    exact Option.some_ne_none _
  unfold isDemotedUrl
  rw [hexcluded, hlow, isLegacyHost, host_of_accepted hurl, Option.map_some,
    hasNonLegacyAlternate_eq hurl hurls]
  cases excluded with
  | true => rfl
  | false =>
    cases lowSignal with
    | true => rfl
    | false => cases startsWith (U.domain url) "legacy." <;> rfl

/-- The functions of one url raise together. -/
theorem exists_of_accepted {url : String} (h : U.urlparse url ≠ none) :
    ∃ excluded lowSignal, U.isExcludedUrl url = some excluded ∧
      U.isLowSignalPath url = some lowSignal := by
  obtain ⟨parsed, hparsed⟩ := Option.ne_none_iff_exists'.1 h
  unfold isExcludedUrl isPdfUrl isLowSignalPath
  rw [hparsed]
  exact ⟨_, _, rfl, rfl⟩

/-- **More candidates never lift a demotion.** -/
theorem isDemotedUrl_mono {url : String} {urls more : List String}
    (hmore : ∀ other ∈ more, U.urlparse other ≠ none) (hsub : urls ⊆ more)
    (hurl : U.urlparse url ≠ none) (h : U.isDemotedUrl url urls = some true) :
    U.isDemotedUrl url more = some true := by
  obtain ⟨excluded, lowSignal, hexcluded, hlow⟩ := exists_of_accepted hurl
  rw [isDemotedUrl_eq hexcluded hlow fun other hother => hmore other (hsub hother),
    Option.some_inj] at h
  rw [isDemotedUrl_eq hexcluded hlow hmore, Option.some_inj]
  simp only [Bool.and_eq_true, Bool.or_eq_true, List.any_eq_true] at h ⊢
  refine ⟨h.1, h.2.imp_right fun hlegacy => ⟨hlegacy.1, ?_⟩⟩
  obtain ⟨other, hother, halternate⟩ := hlegacy.2
  exact ⟨other, hsub hother, halternate⟩

theorem accepted_of_mem_eligible {urls : List String} {url : String} (h : url ∈ U.eligible urls) :
    U.urlparse url ≠ none := by
  intro hnone
  have hexcluded : U.isExcludedUrl url = some false := by simpa using (List.mem_filter.1 h).2
  rw [isExcludedUrl_eq_none_iff.2 hnone] at hexcluded
  cases hexcluded

theorem isDemotedUrl_of_eligible {urls : List String} {url : String} (h : url ∈ U.eligible urls) :
    U.isDemotedUrl url (U.eligible urls) = some (U.isDemoted urls url) := by
  obtain ⟨excluded, lowSignal, hexcluded, hlow⟩ :=
    exists_of_accepted (accepted_of_mem_eligible h)
  obtain ⟨flag, hflag⟩ : ∃ flag, U.isDemotedUrl url (U.eligible urls) = some flag :=
    ⟨_, isDemotedUrl_eq hexcluded hlow fun other hother => accepted_of_mem_eligible hother⟩
  rw [isDemoted, hflag]
  cases flag <;> rfl

/-- The exclusion raises where a url is not accepted, and keeps the others in order. -/
theorem eligibleUrls_eq (urls : List String) :
    U.eligibleUrls urls =
      if ∃ url ∈ urls, U.urlparse url = none then none else some (U.eligible urls) := by
  induction urls with
  | nil => simp [eligibleUrls, eligible]
  | cons url urls ih =>
    rw [eligibleUrls, ih]
    cases hexcluded : U.isExcludedUrl url with
    | none =>
      have hnone := isExcludedUrl_eq_none_iff.1 hexcluded
      have hexists : ∃ other ∈ url :: urls, U.urlparse other = none :=
        ⟨url, List.mem_cons_self, hnone⟩
      rw [if_pos hexists]
      rfl
    | some excluded =>
      have hsome : U.urlparse url ≠ none := by
        rw [Ne, ← isExcludedUrl_eq_none_iff, hexcluded]
        exact Option.some_ne_none _
      simp only [List.exists_mem_cons_iff, hsome, false_or]
      split_ifs
      · rfl
      · cases excluded
        · simp [eligible, hexcluded]
        · simp [eligible, hexcluded]

/-! ### The passes -/

/-- The urls of one pass. -/
def flaggedUrls (preferDemoted : Bool) (flagged : List (String × Bool)) : List String :=
  (flagged.filter fun p => p.2 == preferDemoted).map Prod.fst

theorem firstOfDomains_cons_of_known {seen : List String} {url : String}
    (h : U.domain url = "" ∨ U.domain url ∈ seen) (urls : List String) :
    U.firstOfDomains seen (url :: urls) = U.firstOfDomains seen urls ∧
      U.domainsBehind seen (url :: urls) = U.domainsBehind seen urls := by
  have hskip : ¬ (decide (U.domain url ≠ "") && decide (U.domain url ∉ seen)) = true := by
    rw [Bool.and_eq_true, decide_eq_true_eq, decide_eq_true_eq]
    rintro ⟨hne, hnew⟩
    exact h.elim hne hnew
  unfold firstOfDomains domainsBehind
  rw [firstWins, collect_cons, if_neg hskip, if_neg hskip]
  exact ⟨rfl, rfl⟩

theorem firstOfDomains_cons_of_new {seen : List String} {url : String}
    (h : ¬ (U.domain url = "" ∨ U.domain url ∈ seen)) (urls : List String) :
    U.firstOfDomains seen (url :: urls) =
        url :: U.firstOfDomains (seen ++ [U.domain url]) urls ∧
      U.domainsBehind seen (url :: urls) = U.domainsBehind (seen ++ [U.domain url]) urls := by
  have hkeep : (decide (U.domain url ≠ "") && decide (U.domain url ∉ seen)) = true := by
    rw [Bool.and_eq_true, decide_eq_true_eq, decide_eq_true_eq]
    exact not_or.1 h
  unfold firstOfDomains domainsBehind
  rw [firstWins, collect_cons, if_pos hkeep, if_pos hkeep]
  exact ⟨rfl, rfl⟩

theorem firstOfDomains_append (seen urls more : List String) :
    U.firstOfDomains seen (urls ++ more) =
      U.firstOfDomains seen urls ++ U.firstOfDomains (U.domainsBehind seen urls) more :=
  firstWins_append ..

/-- **One pass** adds the first url of each domain that is not seen, until there are enough. -/
theorem selectPass_eq {target : ℕ} {preferDemoted : Bool} {flagged : List (String × Bool)}
    {seen selected : List String} (haccepted : ∀ p ∈ flagged, U.urlparse p.1 ≠ none)
    (hshort : selected.length < target) :
    U.selectPass target preferDemoted flagged seen selected =
      some (passEnd target (U.domainsBehind seen (flaggedUrls preferDemoted flagged))
        (selected ++ U.firstOfDomains seen (flaggedUrls preferDemoted flagged))) := by
  induction flagged generalizing seen selected with
  | nil =>
    have hnil : selected ++ U.firstOfDomains seen (flaggedUrls preferDemoted []) = selected :=
      List.append_nil selected
    rw [hnil, passEnd, if_neg (Nat.not_le.2 hshort)]
    rfl
  | cons p flagged ih =>
    obtain ⟨url, isDemoted⟩ := p
    obtain ⟨hurl, hrest⟩ := List.forall_mem_cons.1 haccepted
    rw [selectPass]
    by_cases hother : (isDemoted != preferDemoted) = true
    · have hskip : flaggedUrls preferDemoted ((url, isDemoted) :: flagged) =
          flaggedUrls preferDemoted flagged := by
        unfold flaggedUrls
        rw [List.filter_cons_of_neg (by simpa using hother)]
      rw [if_pos hother, hskip]
      exact ih hrest hshort
    · have hthis : flaggedUrls preferDemoted ((url, isDemoted) :: flagged) =
          url :: flaggedUrls preferDemoted flagged := by
        unfold flaggedUrls
        rw [List.filter_cons_of_pos (by simpa using hother), List.map_cons]
      rw [if_neg hother, hthis, extractDomain_of_accepted hurl, Option.bind_some]
      by_cases hknown : U.domain url = "" ∨ U.domain url ∈ seen
      · obtain ⟨hfirst, hbehind⟩ :=
          firstOfDomains_cons_of_known hknown (flaggedUrls preferDemoted flagged)
        rw [if_pos (by simpa using hknown), hfirst, hbehind]
        exact ih hrest hshort
      · obtain ⟨hfirst, hbehind⟩ :=
          firstOfDomains_cons_of_new hknown (flaggedUrls preferDemoted flagged)
        rw [if_neg (by simpa using hknown), hfirst, hbehind,
          List.append_cons selected url (U.firstOfDomains _ _)]
        by_cases henough : target ≤ (selected ++ [url]).length
        · -- the pass returns at once, and what would have followed is cut off
          have hlen : (selected ++ [url]).length = target := by
            rw [List.length_append, List.length_singleton] at henough ⊢
            omega
          rw [if_pos henough, passEnd, if_pos (by rw [List.length_append]; omega),
            List.take_left' hlen]
        · rw [if_neg henough]
          exact ih hrest (Nat.not_le.1 henough)

/-! ### The choice -/

theorem mapM_eq_some {α β : Type} {f : α → Option β} {g : α → β} {l : List α}
    (h : ∀ a ∈ l, f a = some (g a)) : l.mapM f = some (l.map g) := by
  induction l with
  | nil => rfl
  | cons a l ih =>
    obtain ⟨ha, hl⟩ := List.forall_mem_cons.1 h
    rw [List.mapM_cons, ha, ih hl]
    rfl

theorem flaggedUrls_zip (preferDemoted : Bool) (flag : String → Bool) (urls : List String) :
    flaggedUrls preferDemoted (urls.zip (urls.map flag)) =
      urls.filter fun url => flag url == preferDemoted := by
  induction urls with
  | nil => rfl
  | cons url urls ih =>
    unfold flaggedUrls at ih ⊢
    rw [List.map_cons, List.zip_cons_cons, List.filter_cons, List.filter_cons]
    split_ifs
    · rw [List.map_cons, ih]
    · exact ih

/-- **The two passes take the first url of each domain**, those that are not demoted first. -/
theorem selectPasses_eq {target : ℕ} (htarget : 0 < target) {flagged : List (String × Bool)}
    (haccepted : ∀ p ∈ flagged, U.urlparse p.1 ≠ none) :
    U.selectPasses target flagged =
      some ((U.firstOfDomains [] (flaggedUrls false flagged ++ flaggedUrls true flagged)).take
        target) := by
  have hempty : ([] : List String).length < target := htarget
  rw [selectPasses, selectPass_eq haccepted hempty, Option.bind_some, List.nil_append,
    firstOfDomains_append]
  unfold passEnd
  split_ifs with henough
  · rw [List.take_append_of_le_length henough]
  · dsimp only
    rw [selectPass_eq haccepted (Nat.not_le.1 henough), Option.map_some, passEnd]
    split_ifs with hfull
    · rfl
    · exact congrArg some (List.take_of_length_le (Nat.le_of_not_le hfull)).symm

theorem firstOfDomains_ranked_nil {urls : List String} (h : U.eligible urls = []) :
    U.firstOfDomains [] (U.ranked urls) = [] := by
  rw [ranked, h]
  rfl

/-- **What is selected**, where every url is accepted: the first ranked url of each domain. -/
theorem selectUrls_eq {urls : List String} {target : ℕ} (htarget : 0 < target)
    (haccepted : ∀ url ∈ urls, U.urlparse url ≠ none) :
    U.selectUrlsWithDomainDedupe urls target =
      some ((U.firstOfDomains [] (U.ranked urls)).take target) := by
  have heligible : U.eligibleUrls urls = some (U.eligible urls) := by
    rw [eligibleUrls_eq, if_neg]
    rintro ⟨url, hurl, hnone⟩
    exact haccepted url hurl hnone
  have hflags : ((U.eligible urls).mapM fun url => U.isDemotedUrl url (U.eligible urls)) =
      some ((U.eligible urls).map (U.isDemoted urls)) :=
    mapM_eq_some fun url hurl => isDemotedUrl_of_eligible hurl
  have hzip : ∀ p ∈ U.flagged urls, U.urlparse p.1 ≠ none := fun p hp =>
    accepted_of_mem_eligible (List.of_mem_zip hp).1
  have hranked : flaggedUrls false (U.flagged urls) ++ flaggedUrls true (U.flagged urls) =
      U.ranked urls := by
    rw [flagged, flaggedUrls_zip, flaggedUrls_zip, ranked]
    simp only [beq_false, beq_true]
  unfold selectUrlsWithDomainDedupe
  split_ifs with hnil
  · subst hnil
    rw [firstOfDomains_ranked_nil rfl, List.take_nil]
  · rw [heligible, Option.bind_some]
    split_ifs with hempty
    · rw [firstOfDomains_ranked_nil hempty, List.take_nil]
    · rw [hflags, Option.bind_some, ← hranked]
      exact selectPasses_eq htarget hzip

/-- **When the choice raises**: where a url is not accepted. -/
theorem selectUrls_raises_iff {urls : List String} {target : ℕ} (htarget : 0 < target) :
    U.selectUrlsWithDomainDedupe urls target = none ↔ ∃ url ∈ urls, U.urlparse url = none := by
  constructor
  · intro hraises
    by_contra hall
    push Not at hall
    rw [selectUrls_eq htarget hall] at hraises
    cases hraises
  · intro hexists
    have hne : urls ≠ [] := by
      rintro rfl
      simp at hexists
    rw [selectUrlsWithDomainDedupe, if_neg hne, eligibleUrls_eq, if_pos hexists, Option.bind_none]

/-! ## Maximal and fair -/

variable (U) in
/-- What a choice among the urls should be. -/
structure FairChoice (urls : List String) (target : ℕ) (selected : List String) : Prop where
  /-- The chosen urls that are not demoted come first, and both kinds in their order. -/
  ordered : ∃ plain demoted, selected = plain ++ demoted ∧
    plain.Sublist urls ∧ demoted.Sublist urls ∧
    (∀ url ∈ plain, U.isDemotedUrl url (U.eligible urls) = some false) ∧
    ∀ url ∈ demoted, U.isDemotedUrl url (U.eligible urls) = some true
  notExcluded : ∀ url ∈ selected, U.isExcludedUrl url = some false
  named : ∀ url ∈ selected, ∃ domain, U.extractDomain url = some domain ∧ domain ≠ ""
  distinct : (selected.map U.extractDomain).Nodup
  maximal : selected.length = min target (U.eligibleDomains urls).length
  /-- A demoted url is chosen where its domain has no eligible url that is not. -/
  fair : ∀ url ∈ selected, U.isDemotedUrl url (U.eligible urls) = some true →
    ∀ other ∈ U.eligible urls, U.isDemotedUrl other (U.eligible urls) = some false →
      U.extractDomain other ≠ U.extractDomain url

variable {urls : List String}

theorem mem_ranked {url : String} : url ∈ U.ranked urls ↔ url ∈ U.eligible urls := by
  rw [ranked, List.mem_append, List.mem_filter, List.mem_filter, ← and_or_left]
  cases U.isDemoted urls url <;> simp

theorem map_extractDomain {l : List String} (h : ∀ url ∈ l, url ∈ U.eligible urls) :
    l.map U.extractDomain = (l.map U.domain).map some := by
  rw [List.map_map]
  exact List.map_congr_left fun url hurl =>
    extractDomain_of_accepted (accepted_of_mem_eligible (h url hurl))

/-- As many urls are found as there are domains. -/
theorem length_firstOfDomains (urls : List String) :
    (U.firstOfDomains [] (U.ranked urls)).length = (U.eligibleDomains urls).length := by
  have hdomains : (U.eligible urls).filterMap U.extractDomain = (U.eligible urls).map U.domain := by
    rw [← List.filterMap_eq_map]
    exact List.filterMap_congr fun url hurl =>
      extractDomain_of_accepted (accepted_of_mem_eligible hurl)
  have hperm : (U.ranked urls).Perm (U.eligible urls) := by
    refine List.perm_append_comm.trans ?_
    simpa using List.filter_append_perm (U.isDemoted urls) (U.eligible urls)
  rw [firstOfDomains, length_firstWins, eligibleDomains, hdomains]
  exact (((hperm.map U.domain).filter _).dedup).length_eq

theorem isDemotedUrl_of_mem_plain {url : String}
    (h : url ∈ (U.eligible urls).filter fun url => !U.isDemoted urls url) :
    U.isDemotedUrl url (U.eligible urls) = some false := by
  obtain ⟨heligible, hplain⟩ := List.mem_filter.1 h
  rw [isDemotedUrl_of_eligible heligible]
  simpa using hplain

theorem isDemotedUrl_of_mem_demoted {url : String}
    (h : url ∈ (U.eligible urls).filter (U.isDemoted urls)) :
    U.isDemotedUrl url (U.eligible urls) = some true := by
  obtain ⟨heligible, hdemoted⟩ := List.mem_filter.1 h
  rw [isDemotedUrl_of_eligible heligible, hdemoted]

/-- A demoted url is the first of its domain where no other eligible url has the domain. -/
theorem domain_ne_of_demoted {url other : String}
    (hurl : url ∈ U.firstOfDomains [] (U.ranked urls))
    (hdemoted : U.isDemotedUrl url (U.eligible urls) = some true)
    (hother : other ∈ (U.eligible urls).filter fun url => !U.isDemoted urls url) :
    U.domain other ≠ U.domain url := by
  rw [ranked, firstOfDomains_append, List.mem_append] at hurl
  rcases hurl with hplain | hlast
  · have hflag := isDemotedUrl_of_mem_plain ((firstWins_sublist _ _).subset hplain)
    rw [hdemoted] at hflag
    cases hflag
  · obtain ⟨hnamed, hnew⟩ := key_of_mem_firstWins hlast
    intro hsame
    exact hnew (mem_collect.2 (Or.inr ⟨hnamed, other, hother, hsame⟩))

/-- **The first ranked urls of the domains**, cut off anywhere, are a fair choice. -/
theorem fairChoice_take (urls : List String) (target : ℕ) :
    U.FairChoice urls target ((U.firstOfDomains [] (U.ranked urls)).take target) := by
  have hmem : ∀ url ∈ (U.firstOfDomains [] (U.ranked urls)).take target,
      url ∈ U.firstOfDomains [] (U.ranked urls) := fun url hurl => List.mem_of_mem_take hurl
  have heligible : ∀ url ∈ (U.firstOfDomains [] (U.ranked urls)).take target,
      url ∈ U.eligible urls := fun url hurl =>
    mem_ranked.1 ((firstWins_sublist _ _).subset (hmem url hurl))
  have hsub : (U.eligible urls).Sublist urls := List.filter_sublist
  refine
    { ordered := ?_
      notExcluded := fun url hurl => by simpa using (List.mem_filter.1 (heligible url hurl)).2
      named := fun url hurl => ?_
      distinct := ?_
      maximal := by rw [List.length_take, length_firstOfDomains]
      fair := fun url hurl hdemoted other hother hplain hsame => ?_ }
  · refine ⟨(U.firstOfDomains [] ((U.eligible urls).filter fun url => !U.isDemoted urls url)).take
      target, _, by rw [ranked, firstOfDomains_append, List.take_append], ?_, ?_, ?_, ?_⟩
    · exact (List.take_sublist ..).trans
        ((firstWins_sublist ..).trans (List.filter_sublist.trans hsub))
    · exact (List.take_sublist ..).trans
        ((firstWins_sublist ..).trans (List.filter_sublist.trans hsub))
    · exact fun url hurl => isDemotedUrl_of_mem_plain
        ((firstWins_sublist ..).subset (List.mem_of_mem_take hurl))
    · exact fun url hurl => isDemotedUrl_of_mem_demoted
        ((firstWins_sublist ..).subset (List.mem_of_mem_take hurl))
  · refine ⟨U.domain url,
      extractDomain_of_accepted (accepted_of_mem_eligible (heligible url hurl)), ?_⟩
    simpa using (key_of_mem_firstWins (hmem url hurl)).1
  · rw [map_extractDomain heligible, List.nodup_map_iff (Option.some_injective _)]
    exact (nodup_map_firstWins _).sublist ((List.take_sublist ..).map U.domain)
  · rw [extractDomain_of_accepted (accepted_of_mem_eligible hother),
      extractDomain_of_accepted (accepted_of_mem_eligible (heligible url hurl)),
      Option.some_inj] at hsame
    refine domain_ne_of_demoted (hmem url hurl) hdemoted (List.mem_filter.2 ⟨hother, ?_⟩) hsame
    rw [isDemotedUrl_of_eligible hother, Option.some_inj] at hplain
    rw [hplain]
    rfl

/-! ## More results -/

/-- Merging keeps the first occurrences. -/
theorem mergeUniqueUrls_eq (batches : List (List String)) :
    mergeUniqueUrls batches = firsts batches.flatten := List.foldl_flatten.symm

theorem eligibleDomains_length_le {more : List String} (h : urls ⊆ more) :
    (U.eligibleDomains urls).length ≤ (U.eligibleDomains more).length := by
  refine length_dedup_le (List.filter_subset _ (List.filterMap_subset _ ?_))
  exact List.filter_subset _ h

/-- What is chosen is a fair choice. -/
theorem fairChoice_of_select {target : ℕ} {selected : List String} (htarget : 0 < target)
    (h : U.selectUrlsWithDomainDedupe urls target = some selected) :
    U.FairChoice urls target selected := by
  have haccepted : ∀ url ∈ urls, U.urlparse url ≠ none := by
    intro url hurl hnone
    rw [(selectUrls_raises_iff htarget).2 ⟨url, hurl, hnone⟩] at h
    cases h
  rw [selectUrls_eq htarget haccepted, Option.some_inj] at h
  rw [← h]
  exact fairChoice_take urls target

/-- **More results never shorten the choice.** -/
theorem length_le_of_merge {target : ℕ} {selected more merged : List String} (htarget : 0 < target)
    (hselected : U.selectUrlsWithDomainDedupe urls target = some selected)
    (hmerged : U.selectUrlsWithDomainDedupe (mergeUniqueUrls [urls, more]) target = some merged) :
    selected.length ≤ merged.length := by
  have hsub : urls ⊆ mergeUniqueUrls [urls, more] := by
    intro url hurl
    rw [mergeUniqueUrls_eq, mem_firsts, List.flatten_cons]
    exact List.mem_append_left _ hurl
  have hmore := eligibleDomains_length_le (U := U) hsub
  rw [(fairChoice_of_select htarget hselected).maximal,
    (fairChoice_of_select htarget hmerged).maximal]
  omega

/-- **What a search returns**: its first results if they are enough, and else a fair choice among
the results of both searches that is no shorter. -/
theorem searchExternalUrls_spec {S : SearchSettings}
    {newClient client : Option (String → ℕ → Option Json)} {tavily : String → ℕ → Option Json}
    {query : String} {urls : List String}
    (hquery : strip query ≠ "") (hkey : strip S.tavilyApiKey ≠ "" ∨ client ≠ none)
    (hclient : client.or newClient = some tavily)
    (hpool : 0 < max S.maxSearchResults S.targetResults)
    (h : U.searchExternalUrls S newClient client query = some urls) :
    ∃ found more selected, found = tavilySearch tavily (strip query) S.maxSearchResults ∧
      U.FairChoice found (max S.maxSearchResults S.targetResults) selected ∧
      (S.targetResults ≤ selected.length ∧ urls = selected ∨
        selected.length < S.targetResults ∧ selected.length ≤ urls.length ∧
          U.FairChoice (mergeUniqueUrls [found, more])
            (max S.maxSearchResults S.targetResults) urls) := by
  have hhas : ¬ (decide (strip S.tavilyApiKey = "") && client.isNone) = true := by
    rw [Bool.and_eq_true, decide_eq_true_eq, Option.isNone_iff_eq_none]
    rintro ⟨hnokey, hnone⟩
    exact hkey.elim (fun hkey => hkey hnokey) fun hclient => hclient hnone
  rw [searchExternalUrls, if_neg hquery, if_neg hhas, hclient] at h
  obtain ⟨selected, hselected, hrest⟩ := Option.bind_eq_some_iff.1 h
  refine ⟨_, tavilySearch tavily (U.withPdfQueryExclusion (strip query))
    (max (S.maxSearchResults + 3) (S.targetResults * 2)), selected, rfl,
    fairChoice_of_select hpool hselected, ?_⟩
  dsimp only at hrest
  split_ifs at hrest with henough
  · exact Or.inl ⟨henough, (Option.some_inj.1 hrest).symm⟩
  · exact Or.inr ⟨Nat.not_le.1 henough, length_le_of_merge hpool hselected hrest,
      fairChoice_of_select hpool hrest⟩

/-- **The choice is maximal and fair.**  It raises just where a url is not accepted; otherwise it
meets `FairChoice`, and is no longer than what is chosen after a merge with more results. -/
theorem selectUrls_maximal {urls : List String} {target : ℕ} (htarget : 0 < target) :
    (U.selectUrlsWithDomainDedupe urls target = none ↔ ∃ url ∈ urls, U.urlparse url = none) ∧
      ∀ selected, U.selectUrlsWithDomainDedupe urls target = some selected →
        U.FairChoice urls target selected ∧
          ∀ more merged, U.selectUrlsWithDomainDedupe (mergeUniqueUrls [urls, more]) target =
            some merged → selected.length ≤ merged.length :=
  ⟨selectUrls_raises_iff htarget, fun _ hselected => ⟨fairChoice_of_select htarget hselected,
    fun _ _ hmerged => length_le_of_merge htarget hselected hmerged⟩⟩

end UrlLibrary

/-! ## Plain urls -/

/-- The library on urls `scheme://netloc/path?query` in ASCII without escapes, fragments and
parameters. -/
def plainUrls : UrlLibrary where
  urlparse url :=
    let rest := (url.toList.dropWhile (· ≠ ':')).drop 3
    let netloc := rest.takeWhile fun c => c ∉ ['/', '?']
    let behind := rest.drop netloc.length
    -- a bracket of an address in the network location lacks the other one
    if decide ('[' ∈ netloc) != decide (']' ∈ netloc) then none
    else
      some {
        netloc := String.ofList netloc
        path := String.ofList (behind.takeWhile (· ≠ '?'))
        query := String.ofList ((behind.dropWhile (· ≠ '?')).drop 1) }
  parseQs query key :=
    (query.toList.splitOn '&').filterMap fun field =>
      let value := (field.dropWhile (· ≠ '=')).drop 1
      if field.takeWhile (· ≠ '=') = key.toList ∧ value ≠ [] then some (String.ofList value)
      else none
  lower := lower

example : plainUrls.selectUrlsWithDomainDedupe
    ["https://www.codecademy.com/learn/react-hooks", "https://react.dev/reference/useState",
      "https://legacy.reactjs.org/docs/", "https://arxiv.org/pdf/1234", "https://react.dev/learn",
      "https://web.dev/doc?format=pdf"] 2 =
    some ["https://react.dev/reference/useState", "https://www.codecademy.com/learn/react-hooks"] :=
  by decide +kernel

/-- A choice that is filled up with a demoted url, and with another one after a merge. -/
theorem course_fills_up :
    plainUrls.FairChoice ["https://b.org/course/1", "https://a.org/x.pdf", "https://a.org/y"] 2
        ["https://a.org/y", "https://b.org/course/1"] ∧
      2 ≤ ["https://a.org/y", "https://b.org/2"].length := by
  have hchosen := (@UrlLibrary.selectUrls_maximal plainUrls
    ["https://b.org/course/1", "https://a.org/x.pdf", "https://a.org/y"] 2 Nat.zero_lt_two).2
      ["https://a.org/y", "https://b.org/course/1"] (by decide +kernel)
  exact ⟨hchosen.1, hchosen.2 ["https://b.org/2", "https://a.org/y"] _ (by decide +kernel)⟩

/-- **A url that is not accepted** makes the choice raise, though another url could be chosen. -/
theorem open_bracket_raises :
    plainUrls.selectUrlsWithDomainDedupe ["https://react.dev/", "http://[::1/docs"] 1 = none := by
  decide +kernel

end StudyAgent.Research
