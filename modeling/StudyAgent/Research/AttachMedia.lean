import Mathlib.Order.Lattice
import StudyAgent.Research.Graph

/-!
# Media that research attaches to a node

A generation attaches the sources and the videos it has found twice: in the research graph and
after the checklist has been realigned.  Both functions skip what is there already.

Main results:

* `newSources_known`, `newVideos_known` — what a second call with the same list finds.
* `attached_of_clean` — what the rows of clean rounds have in common.
* `attach_lawful_iff` — **the rows that are created repeat no url and a round made again creates
  none, exactly where every round is clean.**
-/

namespace StudyAgent.Research

open Py

/-! ## Rows -/

inductive MediaType where
  | image
  | pdf
  | videoUrl
  | articleLink
  deriving DecidableEq

/-- A row of `nodemedia`. -/
structure NodeMedia where
  mediaType : MediaType
  title : Option String
  url : Option String
  orderIndex : ℤ
  deriving DecidableEq

/-- An item of the ranked videos; an entry that is missing is read as the empty text. -/
structure Video where
  url : String := ""
  title : String := ""

/-- `urlparse`, of which the network location and the path are read; it raises on some texts. -/
abbrev UrlParser := String → Option (String × String)

/-- `host.replace("www.", "")`. -/
def withoutWww : List Char → List Char
  | 'w' :: 'w' :: 'w' :: '.' :: rest => withoutWww rest
  | c :: rest => c :: withoutWww rest
  | [] => []

/-- `path.strip("/").split("/")[-1]`. -/
def leafOf (path : List Char) : List Char :=
  ((path.reverse.dropWhile (· == '/')).takeWhile (· != '/')).reverse

/-- The first 200 characters. -/
def shortened (text : String) : String := String.ofList (text.toList.take 200)

/-- `_title_from_url`. -/
def titleFromUrl (urlparse : UrlParser) (url : String) : Option String :=
  (urlparse url).map fun (netloc, path) =>
    let host := String.ofList (withoutWww netloc.toList)
    let leaf := String.ofList (leafOf path.toList)
    if leaf ≠ "" then
      if host ≠ "" then shortened (host ++ " — " ++ leaf) else shortened leaf
    else orText (shortened host) (shortened url)

/-- The title of a video. -/
def videoTitle (urlparse : UrlParser) (video : Video) : Option String :=
  if strip video.title ≠ "" then some (shortened (strip video.title))
  else (titleFromUrl urlparse video.url).map shortened

/-- `existing_urls`. -/
def existingUrls (types : List MediaType) (media : List NodeMedia) : List String :=
  media.filterMap fun item => if item.mediaType ∈ types then filled item.url else none

/-- `next_order`. -/
def nextOrder (media : List NodeMedia) : ℤ :=
  ((media.map NodeMedia.orderIndex).max?).elim 0 (· + 1)

/-! ## The two functions -/

section

variable (urlparse : UrlParser)

/-- The rows that the loop over the sources creates.  It ends early where `urlparse` raises. -/
def sourceRows (known : List String) : ℤ → List String → List NodeMedia
  | _, [] => []
  | order, url :: urls =>
    if url ∈ known then sourceRows known (order + 1) urls
    else
      match titleFromUrl urlparse url with
      | none => []
      | some title =>
        { mediaType := .articleLink, title := some title, url := some url, orderIndex := order } ::
          sourceRows known (order + 1) urls

/-- `attach_source_urls_to_node_media`: the media afterwards. -/
def attachSourceUrls (media : List NodeMedia) (status : Option Status)
    (sourceUrls : List String) : List NodeMedia :=
  if status = some .success then
    media ++ sourceRows urlparse (existingUrls [.articleLink] media) (nextOrder media)
      (sourceUrls.filter (· ≠ ""))
  else media

/-- The rows that the loop over the videos creates. -/
def videoRows (cap next : ℤ) : List String → ℕ → List Video → List NodeMedia
  | _, _, [] => []
  | known, attached, video :: videos =>
    if cap ≤ attached then []
    else if video.url ∈ known then videoRows cap next known attached videos
    else
      match videoTitle urlparse video with
      | none => []
      | some title =>
        { mediaType := .videoUrl, title := some title, url := some video.url,
          orderIndex := next + attached } ::
          videoRows cap next (known ++ [video.url]) (attached + 1) videos

/-- `attach_video_urls_to_node_media`: the media afterwards. -/
def attachVideoUrls (media : List NodeMedia) (videoUrls : List Video) (cap : ℤ) :
    List NodeMedia :=
  if cap ≤ 0 then media
  else
    media ++ videoRows urlparse cap (nextOrder media)
      (existingUrls [.videoUrl, .articleLink] media) 0 (videoUrls.filter (·.url ≠ ""))

/-- What one attachment of both lists is given. -/
structure Round where
  status : Option Status
  sourceUrls : List String
  videoUrls : List Video
  /-- `max_videos`, or `external_research_max_youtube_videos`. -/
  cap : ℤ := 3

/-- Attach both lists, as the research graph and the realignment do. -/
def attachRound (media : List NodeMedia) (round : Round) : List NodeMedia :=
  attachVideoUrls urlparse (attachSourceUrls urlparse media round.status round.sourceUrls)
    round.videoUrls round.cap

/-- Any number of rounds. -/
def attachAll (media : List NodeMedia) (rounds : List Round) : List NodeMedia :=
  rounds.foldl (attachRound urlparse) media

/-! ## What is new -/

/-- The urls that are not known, up to the first that has no title. -/
def newSources (known urls : List String) : List String :=
  (urls.filter (· ∉ known)).takeWhile fun url => (titleFromUrl urlparse url).isSome

/-- The videos whose urls are not known and have not come before, up to the first that has no
title. -/
def newVideos : List String → List Video → List Video
  | _, [] => []
  | known, video :: videos =>
    if video.url ∈ known then newVideos known videos
    else if (videoTitle urlparse video).isSome then
      video :: newVideos (known ++ [video.url]) videos
    else []

end

variable {urlparse : UrlParser} {known urls : List String} {media : List NodeMedia}

theorem newSources_cons (url : String) : newSources urlparse known (url :: urls) =
    if url ∈ known then newSources urlparse known urls
    else if (titleFromUrl urlparse url).isSome then url :: newSources urlparse known urls
    else [] := by
  unfold newSources
  split_ifs with hknown htitle
  · simp [hknown]
  · simp [hknown, htitle]
  · simp [hknown, htitle]

theorem mem_newSources {url : String} (h : url ∈ newSources urlparse known urls) :
    url ∈ urls ∧ url ∉ known ∧ (titleFromUrl urlparse url).isSome := by
  induction urls with
  | nil => cases h
  | cons first urls ih =>
    rw [newSources_cons] at h
    split_ifs at h with hknown htitle
    · exact (ih h).imp_left (List.mem_cons_of_mem first)
    · rcases List.mem_cons.1 h with rfl | h
      · exact ⟨List.mem_cons_self, hknown, htitle⟩
      · exact (ih h).imp_left (List.mem_cons_of_mem first)
    · cases h

/-- **A second call finds no new source**: what the first has attached is known, and at a url that
has no title both end. -/
theorem newSources_known {added : List String} (hadded : newSources urlparse known urls ⊆ added)
    (htitled : ∀ url ∈ added, (titleFromUrl urlparse url).isSome) :
    newSources urlparse (known ++ added) urls = [] := by
  induction urls with
  | nil => rfl
  | cons url urls ih =>
    rw [newSources_cons] at hadded ⊢
    by_cases hknown : url ∈ known
    · rw [if_pos hknown] at hadded
      rw [if_pos (List.mem_append_left _ hknown), ih hadded]
    · rw [if_neg hknown] at hadded
      by_cases htitle : (titleFromUrl urlparse url).isSome = true
      · rw [if_pos htitle, List.cons_subset] at hadded
        rw [if_pos (List.mem_append_right _ hadded.1), ih hadded.2]
      · have hnew : url ∉ known ++ added := by
          rw [List.mem_append, not_or]
          exact ⟨hknown, fun hmem => htitle (htitled url hmem)⟩
        rw [if_neg hnew, if_neg htitle]

/-- **A second call finds the new videos that the first has not attached.** -/
theorem newVideos_known (known : List String) (videos : List Video) (n : ℕ) :
    newVideos urlparse (known ++ ((newVideos urlparse known videos).take n).map Video.url) videos =
      (newVideos urlparse known videos).drop n := by
  induction videos generalizing known n with
  | nil => simp [newVideos]
  | cons video videos ih =>
    by_cases hknown : video.url ∈ known
    · simp only [newVideos, hknown, if_true, List.mem_append, true_or]
      exact ih known n
    · by_cases htitle : (videoTitle urlparse video).isSome = true
      · have hnew : newVideos urlparse known (video :: videos) =
            video :: newVideos urlparse (known ++ [video.url]) videos := by
          rw [newVideos, if_neg hknown, if_pos htitle]
        cases n with
        | zero => simp
        | succ n =>
          have hlater := ih (known ++ [video.url]) n
          rw [List.append_assoc, List.singleton_append] at hlater
          rw [hnew, List.take_succ_cons, List.map_cons, List.drop_succ_cons, newVideos,
            if_pos (by simp), hlater]
      · have hnew : newVideos urlparse known (video :: videos) = [] := by
          rw [newVideos, if_neg hknown, if_neg htitle]
        rw [hnew, List.take_nil, List.map_nil, List.append_nil, hnew, List.drop_nil]

theorem newVideos_urls (urlparse : UrlParser) (known : List String) (videos : List Video) :
    ((newVideos urlparse known videos).map Video.url).Nodup ∧
      (∀ video ∈ newVideos urlparse known videos, video.url ∉ known) ∧
      newVideos urlparse known videos ⊆ videos := by
  induction videos generalizing known with
  | nil => simp [newVideos]
  | cons video videos ih =>
    rw [newVideos]
    split_ifs with hknown
    · obtain ⟨hnodup, hnew, hsub⟩ := ih known
      exact ⟨hnodup, hnew, List.Subset.trans hsub (List.subset_cons_self ..)⟩
    · obtain ⟨hnodup, hnew, hsub⟩ := ih (known ++ [video.url])
      refine ⟨?_, ?_, List.cons_subset_cons _ hsub⟩
      · rw [List.map_cons, List.nodup_cons]
        refine ⟨?_, hnodup⟩
        intro hmem
        obtain ⟨later, hlater, hurl⟩ := List.mem_map.1 hmem
        exact hnew later hlater (by simp [hurl])
      · intro v hv
        rcases List.mem_cons.1 hv with rfl | hv
        · exact hknown
        · exact fun hmem => hnew v hv (List.mem_append_left _ hmem)
    · simp

/-! ## The rows -/

/-- The rows that a call creates: of one type, with these urls, and behind all others. -/
structure CreatedBy (type : MediaType) (urls : List String) (order : ℤ) (rows : List NodeMedia) :
    Prop where
  type : ∀ row ∈ rows, row.mediaType = type
  urls : rows.map NodeMedia.url = urls.map some
  above : ∀ row ∈ rows, order ≤ row.orderIndex
  increasing : rows.Pairwise (·.orderIndex < ·.orderIndex)

theorem CreatedBy.nil {type : MediaType} {order : ℤ} : CreatedBy type [] order [] :=
  ⟨by simp, rfl, by simp, List.Pairwise.nil⟩

theorem CreatedBy.cons {type : MediaType} {order next : ℤ} {row : NodeMedia}
    {rows : List NodeMedia} {url : String} (h : CreatedBy type urls next rows)
    (htype : row.mediaType = type) (hurl : row.url = some url) (horder : order ≤ row.orderIndex)
    (hnext : row.orderIndex < next) : CreatedBy type (url :: urls) order (row :: rows) where
  type := List.forall_mem_cons.2 ⟨htype, h.type⟩
  urls := by rw [List.map_cons, List.map_cons, hurl, h.urls]
  above := by
    refine List.forall_mem_cons.2 ⟨horder, fun later hlater => ?_⟩
    have := h.above later hlater
    omega
  increasing := by
    refine List.pairwise_cons.2 ⟨fun later hlater => ?_, h.increasing⟩
    have := h.above later hlater
    omega

theorem CreatedBy.weaken {type : MediaType} {order next : ℤ} {rows : List NodeMedia}
    (h : CreatedBy type urls next rows) (hle : order ≤ next) : CreatedBy type urls order rows :=
  ⟨h.type, h.urls, fun row hrow => hle.trans (h.above row hrow), h.increasing⟩

theorem createdBy_sourceRows (order : ℤ) :
    CreatedBy .articleLink (newSources urlparse known urls) order
      (sourceRows urlparse known order urls) := by
  induction urls generalizing order with
  | nil => exact CreatedBy.nil
  | cons url urls ih =>
    rw [sourceRows, newSources_cons]
    split_ifs with hknown htitle
    · exact (ih (order + 1)).weaken (by omega)
    · obtain ⟨title, htitle⟩ := Option.isSome_iff_exists.1 htitle
      rw [htitle]
      exact (ih (order + 1)).cons rfl rfl (Int.le_refl order) (Int.lt_succ order)
    · rw [Option.not_isSome_iff_eq_none.1 htitle]
      exact CreatedBy.nil

theorem createdBy_videoRows (urlparse : UrlParser) (cap next : ℤ) (known : List String)
    (videos : List Video) (attached : ℕ) :
    CreatedBy .videoUrl
      (((newVideos urlparse known videos).take (cap - attached).toNat).map Video.url)
      (next + attached) (videoRows urlparse cap next known attached videos) := by
  induction videos generalizing known attached with
  | nil => simpa [newVideos, videoRows] using CreatedBy.nil
  | cons video videos ih =>
    rw [videoRows]
    split_ifs with hcap hknown
    · have hnone : (cap - attached).toNat = 0 := by omega
      simpa [hnone] using CreatedBy.nil
    · simp only [newVideos, hknown, if_true]
      exact ih known attached
    · cases htitle : videoTitle urlparse video with
      | none => simpa [newVideos, hknown, htitle] using CreatedBy.nil
      | some title =>
        have hone : (cap - attached).toNat = (cap - (attached + 1 : ℕ)).toNat + 1 := by omega
        have hlater := ih (known ++ [video.url]) (attached + 1)
        simp only [newVideos, hknown, htitle, if_false, Option.isSome_some, if_true, hone,
          List.take_succ_cons, List.map_cons]
        refine hlater.cons rfl rfl (Int.le_refl _) ?_
        dsimp only
        omega

/-! ## Rounds -/

/-- The urls of the rows of a type, in the order of the rows. -/
def urlsOf (type : MediaType) (media : List NodeMedia) : List (Option String) :=
  (media.filter (·.mediaType = type)).map NodeMedia.url

/-- The rows that the rounds have created. -/
def created (urlparse : UrlParser) (media : List NodeMedia) (rounds : List Round) :
    List NodeMedia :=
  (attachAll urlparse media rounds).drop media.length

/-- The source urls of a round that are not on an article link. -/
def Round.newSources (urlparse : UrlParser) (media : List NodeMedia) (round : Round) :
    List String :=
  Research.newSources urlparse (existingUrls [.articleLink] media)
    (round.sourceUrls.filter (· ≠ ""))

/-- The videos of a round that are neither on a video nor, its sources included, on an article
link. -/
def Round.newVideos (urlparse : UrlParser) (media : List NodeMedia) (round : Round) : List Video :=
  Research.newVideos urlparse
    (existingUrls [.videoUrl, .articleLink]
      (attachSourceUrls urlparse media round.status round.sourceUrls))
    (round.videoUrls.filter (·.url ≠ ""))

/-- The new sources of a round are different and its new videos are not too many. -/
structure Round.Clean (urlparse : UrlParser) (media : List NodeMedia) (round : Round) : Prop where
  sources : round.status = some .success → (round.newSources urlparse media).Nodup
  videos : 0 < round.cap → ((round.newVideos urlparse media).length : ℤ) ≤ round.cap

/-- What is so of the rows after some rounds. -/
structure Lawful (urlparse : UrlParser) (media : List NodeMedia) (rounds : List Round) :
    Prop where
  /-- The last round, made again, creates nothing. -/
  again : ∀ round ∈ rounds.getLast?, attachRound urlparse (attachAll urlparse media rounds) round =
    attachAll urlparse media rounds
  articles : (urlsOf .articleLink (created urlparse media rounds)).Nodup
  videos : (urlsOf .videoUrl (created urlparse media rounds)).Nodup
  increasing : (created urlparse media rounds).Pairwise (·.orderIndex < ·.orderIndex)
  above : ∀ old ∈ media, ∀ row ∈ created urlparse media rounds, old.orderIndex < row.orderIndex

/-! ### What a round adds -/

theorem lt_nextOrder {item : NodeMedia} (h : item ∈ media) : item.orderIndex < nextOrder media := by
  unfold nextOrder
  cases hmax : (media.map NodeMedia.orderIndex).max? with
  | none =>
    rw [List.max?_eq_none_iff, List.map_eq_nil_iff] at hmax
    simp [hmax] at h
  | some m =>
    have hle := (List.max?_eq_some_iff.1 hmax).2 _ (List.mem_map_of_mem h)
    simp only [Option.elim_some]
    omega

theorem existingUrls_append (types : List MediaType) (media rows : List NodeMedia) :
    existingUrls types (media ++ rows) = existingUrls types media ++ existingUrls types rows :=
  List.filterMap_append

theorem urlsOf_append (type : MediaType) (media rows : List NodeMedia) :
    urlsOf type (media ++ rows) = urlsOf type media ++ urlsOf type rows := by
  simp [urlsOf]

theorem CreatedBy.urlsOf_self {type : MediaType} {order : ℤ} {rows : List NodeMedia}
    (h : CreatedBy type urls order rows) : urlsOf type rows = urls.map some := by
  rw [urlsOf, List.filter_eq_self.2 fun row hrow => decide_eq_true (h.type row hrow), h.urls]

theorem CreatedBy.urlsOf_other {type other : MediaType} {order : ℤ} {rows : List NodeMedia}
    (h : CreatedBy type urls order rows) (hne : type ≠ other) : urlsOf other rows = [] := by
  rw [urlsOf, List.filter_eq_nil_iff.2, List.map_nil]
  intro row hrow
  simp [h.type row hrow, hne]

theorem CreatedBy.existingUrls_self {type : MediaType} {types : List MediaType} {order : ℤ}
    {rows : List NodeMedia} (h : CreatedBy type urls order rows) (hne : ∀ url ∈ urls, url ≠ "")
    (htype : type ∈ types) : existingUrls types rows = urls := by
  have hread : ∀ row ∈ rows, (if row.mediaType ∈ types then filled row.url else none) =
      filled row.url := by
    intro row hrow
    rw [h.type row hrow, if_pos htype]
  have hmap : rows.filterMap (fun row => filled row.url) =
      (rows.map NodeMedia.url).filterMap filled := by
    rw [List.filterMap_map]
    rfl
  have hall : urls.filterMap (filled ∘ some) = urls.filterMap some := by
    refine List.filterMap_congr fun url hurl => ?_
    simp [filled, Option.filter, hne url hurl]
  rw [existingUrls, List.filterMap_congr hread, hmap, h.urls, List.filterMap_map, hall,
    List.filterMap_some]

theorem CreatedBy.existingUrls_other {type : MediaType} {types : List MediaType} {order : ℤ}
    {rows : List NodeMedia} (h : CreatedBy type urls order rows) (htype : type ∉ types) :
    existingUrls types rows = [] := by
  rw [existingUrls, List.filterMap_eq_nil_iff]
  intro row hrow
  rw [h.type row hrow, if_neg htype]

theorem CreatedBy.rows_eq_nil {type : MediaType} {order : ℤ} {rows : List NodeMedia}
    (h : CreatedBy type urls order rows) : rows = [] ↔ urls = [] := by
  rw [← List.map_eq_nil_iff (f := NodeMedia.url), h.urls, List.map_eq_nil_iff]

/-- The sources that a round attaches. -/
def Round.attachedSources (urlparse : UrlParser) (media : List NodeMedia) (round : Round) :
    List String :=
  if round.status = some .success then round.newSources urlparse media else []

/-- The videos that a round attaches. -/
def Round.attachedVideos (urlparse : UrlParser) (media : List NodeMedia) (round : Round) :
    List Video :=
  (round.newVideos urlparse media).take round.cap.toNat

theorem attachSourceUrls_eq (urlparse : UrlParser) (media : List NodeMedia) (round : Round) :
    ∃ rows, attachSourceUrls urlparse media round.status round.sourceUrls = media ++ rows ∧
      CreatedBy .articleLink (round.attachedSources urlparse media) (nextOrder media) rows := by
  unfold attachSourceUrls Round.attachedSources
  split_ifs
  · exact ⟨_, rfl, createdBy_sourceRows _⟩
  · exact ⟨[], (List.append_nil _).symm, CreatedBy.nil⟩

theorem attachVideoUrls_eq (urlparse : UrlParser) (media : List NodeMedia) (videos : List Video)
    (cap : ℤ) :
    ∃ rows, attachVideoUrls urlparse media videos cap = media ++ rows ∧
      CreatedBy .videoUrl
        (((newVideos urlparse (existingUrls [.videoUrl, .articleLink] media)
          (videos.filter (·.url ≠ ""))).take cap.toNat).map Video.url) (nextOrder media) rows := by
  unfold attachVideoUrls
  split_ifs with hcap
  · have hnone : cap.toNat = 0 := by omega
    exact ⟨[], (List.append_nil _).symm, by simpa [hnone] using CreatedBy.nil⟩
  · exact ⟨_, rfl, by simpa using createdBy_videoRows urlparse cap _ _ _ 0⟩

/-- **What a round does**: it adds rows for the sources and then for the videos. -/
theorem attachRound_eq (urlparse : UrlParser) (media : List NodeMedia) (round : Round) :
    ∃ sources videos, attachRound urlparse media round = media ++ sources ++ videos ∧
      attachSourceUrls urlparse media round.status round.sourceUrls = media ++ sources ∧
      CreatedBy .articleLink (round.attachedSources urlparse media) (nextOrder media) sources ∧
      CreatedBy .videoUrl ((round.attachedVideos urlparse media).map Video.url)
        (nextOrder (media ++ sources)) videos := by
  obtain ⟨sources, hsources, hcreated⟩ := attachSourceUrls_eq urlparse media round
  obtain ⟨videos, hvideos, hcreated'⟩ := attachVideoUrls_eq urlparse
    (media ++ sources) round.videoUrls round.cap
  refine ⟨sources, videos, ?_, hsources, hcreated, ?_⟩
  · rw [attachRound, hsources, hvideos]
  · unfold Round.attachedVideos Round.newVideos
    rwa [hsources]

theorem attachedSources_ne_empty {round : Round} {url : String}
    (h : url ∈ round.attachedSources urlparse media) :
    url ≠ "" ∧ url ∉ existingUrls [.articleLink] media ∧
      (titleFromUrl urlparse url).isSome := by
  unfold Round.attachedSources at h
  split_ifs at h
  · obtain ⟨hmem, hnew, htitle⟩ := mem_newSources h
    rw [List.mem_filter, decide_eq_true_eq] at hmem
    exact ⟨hmem.2, hnew, htitle⟩
  · cases h

theorem attachedVideos_ne_empty {round : Round} {video : Video}
    (h : video ∈ round.attachedVideos urlparse media) : video.url ≠ "" := by
  have hmem := (newVideos_urls urlparse _ _).2.2 (List.mem_of_mem_take h)
  rw [List.mem_filter, decide_eq_true_eq] at hmem
  exact hmem.2

/-- **A round made again creates nothing** iff it has no videos left. -/
theorem attachRound_again (urlparse : UrlParser) (media : List NodeMedia) (round : Round) :
    attachRound urlparse (attachRound urlparse media round) round =
      attachRound urlparse media round ↔
        (0 < round.cap → ((round.newVideos urlparse media).length : ℤ) ≤ round.cap) := by
  obtain ⟨sources, videos, hround, hattached, hsources, hvideos⟩ :=
    attachRound_eq urlparse media round
  obtain ⟨sources', videos', hround', hattached', hsources', hvideos'⟩ :=
    attachRound_eq urlparse (media ++ sources ++ videos) round
  rw [hround, hround']
  -- the sources are all there
  have hknown : existingUrls [.articleLink] (media ++ sources ++ videos) =
      existingUrls [.articleLink] media ++ round.attachedSources urlparse media := by
    rw [existingUrls_append, existingUrls_append, hvideos.existingUrls_other (by decide),
      hsources.existingUrls_self (fun url hurl => (attachedSources_ne_empty hurl).1) (by decide),
      List.append_nil]
  have hnone : round.attachedSources urlparse (media ++ sources ++ videos) = [] := by
    have htitled : ∀ url ∈ round.attachedSources urlparse media,
        (titleFromUrl urlparse url).isSome := fun url hurl => (attachedSources_ne_empty hurl).2.2
    unfold Round.attachedSources Round.newSources at htitled hknown ⊢
    rw [hknown]
    split_ifs at htitled ⊢
    · exact newSources_known (List.Subset.refl _) htitled
    · rfl
  obtain rfl : sources' = [] := hsources'.rows_eq_nil.2 hnone
  rw [List.append_nil] at hattached' hvideos' ⊢
  -- and of the videos those that were attached
  have hleft : round.newVideos urlparse (media ++ sources ++ videos) =
      (round.newVideos urlparse media).drop round.cap.toNat := by
    have hself : existingUrls [.videoUrl, .articleLink] videos =
        (round.attachedVideos urlparse media).map Video.url :=
      hvideos.existingUrls_self (by simpa using fun _ => attachedVideos_ne_empty) (by decide)
    unfold Round.attachedVideos at hself
    unfold Round.newVideos at hself ⊢
    rw [hattached', existingUrls_append, hself, ← hattached, newVideos_known]
  rw [List.append_right_eq_self, hvideos'.rows_eq_nil, List.map_eq_nil_iff,
    Round.attachedVideos, hleft]
  constructor
  · intro h hcap
    have hlen := congrArg List.length h
    simp only [List.length_take, List.length_drop, List.length_nil] at hlen
    omega
  · intro h
    refine List.eq_nil_of_length_eq_zero ?_
    simp only [List.length_take, List.length_drop]
    omega

/-! ### Any number of rounds -/

theorem attachAll_concat (media : List NodeMedia) (rounds : List Round) (round : Round) :
    attachAll urlparse media (rounds ++ [round]) =
      attachRound urlparse (attachAll urlparse media rounds) round := by
  simp [attachAll]

/-- Rows are only added. -/
theorem attachAll_eq (urlparse : UrlParser) (media : List NodeMedia) (rounds : List Round) :
    attachAll urlparse media rounds = media ++ created urlparse media rounds := by
  have hprefix : media <+: attachAll urlparse media rounds := by
    induction rounds using List.reverseRecOn with
    | nil => exact List.prefix_rfl
    | append_singleton rounds round ih =>
      obtain ⟨sources, videos, hround, -⟩ := attachRound_eq urlparse
        (attachAll urlparse media rounds) round
      rw [attachAll_concat, hround, List.append_assoc]
      exact ih.trans (List.prefix_append _ _)
  obtain ⟨rows, hrows⟩ := hprefix
  rw [created, ← hrows, List.drop_left]

/-- What a round adds to the rows that are created. -/
theorem created_concat {rounds : List Round} {round : Round} {sources videos : List NodeMedia}
    (h : attachRound urlparse (attachAll urlparse media rounds) round =
      attachAll urlparse media rounds ++ sources ++ videos) :
    created urlparse media (rounds ++ [round]) =
      created urlparse media rounds ++ (sources ++ videos) := by
  have hall := attachAll_eq urlparse media (rounds ++ [round])
  rw [attachAll_concat, h, attachAll_eq urlparse media rounds, List.append_assoc,
    List.append_assoc] at hall
  exact (List.append_cancel_left hall).symm

/-- A url that is attached is known later. -/
theorem mem_existingUrls {type : MediaType} {types : List MediaType} {url : String}
    (htype : type ∈ types) (hne : url ≠ "") (h : some url ∈ urlsOf type media) :
    url ∈ existingUrls types media := by
  obtain ⟨row, hrow, hurl⟩ := List.mem_map.1 h
  rw [List.mem_filter, decide_eq_true_eq] at hrow
  refine List.mem_filterMap.2 ⟨row, hrow.1, ?_⟩
  simp [hrow.2, htype, hurl, filled, Option.filter, hne]

/-- New urls repeat none of those that are there. -/
theorem nodup_append_new (media : List NodeMedia) {type : MediaType} (types : List MediaType)
    {news : List String} {rows : List NodeMedia} (htype : type ∈ types)
    (hne : ∀ url ∈ news, url ≠ "")
    (hnew : ∀ url ∈ news, url ∉ existingUrls types (media ++ rows))
    (hrows : (urlsOf type rows).Nodup) :
    (urlsOf type rows ++ news.map some).Nodup ↔ news.Nodup := by
  rw [List.nodup_append, List.nodup_map_iff (Option.some_injective String)]
  refine ⟨fun h => h.2.1, fun h => ⟨hrows, h, ?_⟩⟩
  rintro url hurl _ hmap rfl
  obtain ⟨new, hmem, rfl⟩ := List.mem_map.1 hmap
  refine hnew new hmem ?_
  rw [existingUrls_append]
  exact List.mem_append_right _ (mem_existingUrls htype (hne new hmem) hurl)

theorem lawful_nil (media : List NodeMedia) : Lawful urlparse media [] := by
  have hnone : created urlparse media [] = [] := by simp [created, attachAll]
  exact ⟨by simp, by simp [hnone, urlsOf], by simp [hnone, urlsOf], by simp [hnone],
    by simp [hnone]⟩

/-- **The step lemma**: after one more round the rows are as they should be iff it is clean. -/
theorem lawful_concat {rounds : List Round} (h : Lawful urlparse media rounds) (round : Round) :
    Lawful urlparse media (rounds ++ [round]) ↔
      round.Clean urlparse (attachAll urlparse media rounds) := by
  obtain ⟨sources, videos, hround, hattached, hsources, hvideos⟩ :=
    attachRound_eq urlparse (attachAll urlparse media rounds) round
  have hcreated := created_concat hround
  have hagain := attachRound_again urlparse (attachAll urlparse media rounds) round
  have hall := attachAll_eq urlparse media rounds
  -- the urls of the two types
  have harticles : (urlsOf .articleLink (created urlparse media (rounds ++ [round]))).Nodup ↔
      (round.attachedSources urlparse (attachAll urlparse media rounds)).Nodup := by
    rw [hcreated, urlsOf_append, urlsOf_append, hsources.urlsOf_self,
      hvideos.urlsOf_other (by decide), List.append_nil]
    refine nodup_append_new media [.articleLink] (by decide)
      (fun url hurl => (attachedSources_ne_empty hurl).1) (fun url hurl => ?_) h.articles
    rw [← hall]
    exact (attachedSources_ne_empty hurl).2.1
  have hvideoUrls : (urlsOf .videoUrl (created urlparse media (rounds ++ [round]))).Nodup := by
    obtain ⟨hnodup, hnew, -⟩ := newVideos_urls urlparse
      (existingUrls [.videoUrl, .articleLink] (attachAll urlparse media rounds ++ sources))
      (round.videoUrls.filter (·.url ≠ ""))
    rw [hcreated, ← List.append_assoc, urlsOf_append, hvideos.urlsOf_self]
    refine (nodup_append_new media [.videoUrl, .articleLink] (by decide)
      (by simpa using fun _ => attachedVideos_ne_empty) (fun url hurl => ?_) ?_).2 ?_
    · obtain ⟨video, hvideo, rfl⟩ := List.mem_map.1 hurl
      rw [← List.append_assoc, ← hall]
      unfold Round.attachedVideos Round.newVideos at hvideo
      rw [hattached] at hvideo
      exact hnew video (List.mem_of_mem_take hvideo)
    · rw [urlsOf_append, hsources.urlsOf_other (by decide), List.append_nil]
      exact h.videos
    · unfold Round.attachedVideos Round.newVideos
      rw [hattached, List.map_take]
      exact hnodup.sublist (List.take_sublist _ _)
  -- the numbers, which are always right
  have habove : ∀ row ∈ sources ++ videos, ∀ old ∈ attachAll urlparse media rounds,
      old.orderIndex < row.orderIndex := by
    intro row hrow old hold
    rcases List.mem_append.1 hrow with hrow | hrow
    · exact (lt_nextOrder hold).trans_le (hsources.above row hrow)
    · exact (lt_nextOrder (List.mem_append_left sources hold)).trans_le (hvideos.above row hrow)
  constructor
  · intro hlawful
    refine ⟨fun hstatus => ?_, ?_⟩
    · have hnodup := harticles.1 hlawful.articles
      rwa [Round.attachedSources, if_pos hstatus] at hnodup
    · rw [← hagain, ← attachAll_concat]
      exact hlawful.again round (by simp)
  · intro hclean
    refine ⟨?_, harticles.2 ?_, hvideoUrls, ?_, ?_⟩
    · intro last hlast
      obtain rfl : round = last := by simpa using hlast
      rw [attachAll_concat]
      exact hagain.2 hclean.videos
    · unfold Round.attachedSources
      split_ifs with hstatus
      · exact hclean.sources hstatus
      · exact List.nodup_nil
    · rw [hcreated, List.pairwise_append, List.pairwise_append]
      refine ⟨h.increasing, ⟨hsources.increasing, hvideos.increasing, ?_⟩, ?_⟩
      · intro old hold row hrow
        exact (lt_nextOrder (List.mem_append_right _ hold)).trans_le (hvideos.above row hrow)
      · intro old hold row hrow
        refine habove row hrow old ?_
        rw [hall]
        exact List.mem_append_right media hold
    · intro old hold row hrow
      rw [hcreated, List.mem_append] at hrow
      rcases hrow with hrow | hrow
      · exact h.above old hold row hrow
      · refine habove row hrow old ?_
        rw [hall]
        exact List.mem_append_left _ hold

/-- The rows of clean rounds are as they should be. -/
theorem attached_of_clean {rounds : List Round}
    (h : ∀ done round, done ++ [round] <+: rounds →
      round.Clean urlparse (attachAll urlparse media done)) : Lawful urlparse media rounds := by
  induction rounds using List.reverseRecOn with
  | nil => exact lawful_nil media
  | append_singleton rounds round ih =>
    have hbefore : Lawful urlparse media rounds := by
      refine ih fun done round' hprefix => h done round' ?_
      exact hprefix.trans (List.prefix_append rounds [round])
    exact (lawful_concat hbefore round).2 (h rounds round List.prefix_rfl)

/-- **Attaching is idempotent and repeats no url, at every point of a series of rounds, exactly
where every round is clean** when it is made. -/
theorem attach_lawful_iff (urlparse : UrlParser) (media : List NodeMedia) (rounds : List Round) :
    (∀ done, done <+: rounds → Lawful urlparse media done) ↔
      ∀ done round, done ++ [round] <+: rounds →
        round.Clean urlparse (attachAll urlparse media done) := by
  constructor
  · intro h done round hprefix
    have hbefore : done <+: rounds := (List.prefix_append done [round]).trans hprefix
    exact (lawful_concat (h done hbefore) round).1 (h _ hprefix)
  · intro h done hprefix
    exact attached_of_clean fun before round hbefore => h before round (hbefore.trans hprefix)

/-- A source that is given twice is attached twice, and of two videos under a cap of one the second
is attached by the second call. -/
theorem attached_twice :
    let urlparse : UrlParser := fun url => some ("", url)
    let sources : Round :=
      { status := some .success, sourceUrls := ["a.org", "a.org"], videoUrls := [] }
    let videos : Round :=
      { status := none, sourceUrls := [], videoUrls := [{ url := "v1" }, { url := "v2" }],
        cap := 1 }
    urlsOf .articleLink (attachRound urlparse [] sources) = [some "a.org", some "a.org"] ∧
      attachRound urlparse (attachRound urlparse [] videos) videos ≠
        attachRound urlparse [] videos := by
  decide

end StudyAgent.Research
