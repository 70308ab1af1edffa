import StudyAgent.Base.Brackets
import StudyAgent.Base.Dedup
import StudyAgent.Base.FirstOccurrences
import StudyAgent.Base.FirstWins
import StudyAgent.Base.Flows
import StudyAgent.Base.Forest
import StudyAgent.Base.GivenNames
import StudyAgent.Base.GroupNumbering
import StudyAgent.Base.InsertBehind
import StudyAgent.Base.Json
import StudyAgent.Base.KeyedRows
import StudyAgent.Base.MarkedRows
import StudyAgent.Base.OrderedDict
import StudyAgent.Base.PaddedNumbers
import StudyAgent.Base.PointerChase
import StudyAgent.Base.PyRepr
import StudyAgent.Base.ReadCommitted
import StudyAgent.Base.RecursiveQuery
import StudyAgent.Base.Runs
import StudyAgent.Base.Simulation
import StudyAgent.Base.StaleIndex
import StudyAgent.Base.Text
import StudyAgent.Base.TextEdits
import StudyAgent.Base.TextSplit
import StudyAgent.Base.Unwinding
import StudyAgent.Batch.CancelFinal
import StudyAgent.Batch.CancelReading
import StudyAgent.Batch.CancelTables
import StudyAgent.Batch.Cancelling
import StudyAgent.Batch.Counters
import StudyAgent.Batch.Memory
import StudyAgent.Batch.OneClaim
import StudyAgent.Batch.Steps
import StudyAgent.Generation.Abandoning
import StudyAgent.Generation.AdvisoryLocks
import StudyAgent.Generation.CurrentAttempt
import StudyAgent.Generation.InsertPhase
import StudyAgent.Generation.OneOutput
import StudyAgent.Generation.OneRunning
import StudyAgent.Generation.ResumeBudget
import StudyAgent.Generation.RunRequests
import StudyAgent.Generation.Workers
import StudyAgent.Hints.Graph
import StudyAgent.Hints.GraphRuns
import StudyAgent.Hints.StoredAnswer
import StudyAgent.Hints.Validation
import StudyAgent.Lifecycle.HintWrites
import StudyAgent.Lifecycle.Locks
import StudyAgent.Lifecycle.OneDraft
import StudyAgent.Lifecycle.Publishing
import StudyAgent.Lifecycle.QuestionCount
import StudyAgent.Lifecycle.Quizzes
import StudyAgent.Lifecycle.Sessions
import StudyAgent.Llm.KeyPool
import StudyAgent.Llm.KeyRotation
import StudyAgent.Material.ClearDrafts
import StudyAgent.Material.Desk
import StudyAgent.Material.Lineage
import StudyAgent.Material.Offers
import StudyAgent.Material.OneActive
import StudyAgent.Material.PublishRequests
import StudyAgent.Material.Versions
import StudyAgent.Merge.Frame
import StudyAgent.Merge.FullRegeneration
import StudyAgent.Merge.InsertSections
import StudyAgent.Merge.SectionPatches
import StudyAgent.Merge.Targets
import StudyAgent.Model.Check
import StudyAgent.Model.ChecklistIds
import StudyAgent.Model.ConceptPlan
import StudyAgent.Model.Document
import StudyAgent.Node.Coverage
import StudyAgent.Node.Graph
import StudyAgent.Node.GraphLaws
import StudyAgent.Node.InfraFailure
import StudyAgent.Node.Lineage
import StudyAgent.Node.QualityCheck
import StudyAgent.Node.RawReplies
import StudyAgent.Node.Termination
import StudyAgent.Parsing.Canonical
import StudyAgent.Parsing.JsonExtraction
import StudyAgent.Placement.Apply
import StudyAgent.Placement.Checks
import StudyAgent.Placement.Conservation
import StudyAgent.Placement.EquationSpans
import StudyAgent.Placement.Equations
import StudyAgent.Placement.Exactness
import StudyAgent.Placement.Location
import StudyAgent.Placement.Phases
import StudyAgent.Placement.Places
import StudyAgent.Placement.Plan
import StudyAgent.Placement.SentenceStart
import StudyAgent.Placement.SpanCover
import StudyAgent.Progress.AnswerKey
import StudyAgent.Progress.AttemptLifecycle
import StudyAgent.Progress.AttemptOrder
import StudyAgent.Progress.AttemptRequests
import StudyAgent.Progress.Attempts
import StudyAgent.Progress.HintsEarned
import StudyAgent.Progress.KeyConfined
import StudyAgent.Progress.NextUp
import StudyAgent.Progress.NodeLaws
import StudyAgent.Progress.NodeProgress
import StudyAgent.Progress.ReadingCredit
import StudyAgent.Progress.Rollups
import StudyAgent.Progress.ScrollUpdates
import StudyAgent.Progress.Unlocking
import StudyAgent.Progress.Unlocks
import StudyAgent.Qc.CarryForward
import StudyAgent.Qc.EscalationGrowth
import StudyAgent.Qc.FailureClass
import StudyAgent.Qc.FailureConservation
import StudyAgent.Qc.Freshness
import StudyAgent.Qc.FrozenSets
import StudyAgent.Qc.ResultBuilder
import StudyAgent.Qc.RetryRouting
import StudyAgent.Qc.RoutingLaws
import StudyAgent.Qc.RoutingTargets
import StudyAgent.Qc.SanitizeLaws
import StudyAgent.Qc.Scoring
import StudyAgent.Qc.Strategy
import StudyAgent.Qc.TargetedMerge
import StudyAgent.Quiz.Checks
import StudyAgent.Quiz.Delivered
import StudyAgent.Quiz.Graph
import StudyAgent.Quiz.GraphLaws
import StudyAgent.Quiz.GraphRuns
import StudyAgent.Quiz.PassingKept
import StudyAgent.Quiz.PatchFrame
import StudyAgent.Quiz.Patches
import StudyAgent.Quiz.ProviderFailure
import StudyAgent.Quiz.PruneExact
import StudyAgent.Quiz.Pruning
import StudyAgent.Quiz.Question
import StudyAgent.Quiz.Regeneration
import StudyAgent.Quiz.Results
import StudyAgent.Quiz.ResumeRouting
import StudyAgent.Quiz.RetryTargets
import StudyAgent.Quiz.Routing
import StudyAgent.Quiz.Termination
import StudyAgent.Quiz.Verification
import StudyAgent.Quiz.Verified
import StudyAgent.Reference.CacheLaws
import StudyAgent.Reference.Extraction
import StudyAgent.Reference.ParseCache
import StudyAgent.Reference.Reread
import StudyAgent.Rendering.Delimiters
import StudyAgent.Rendering.Lines
import StudyAgent.Rendering.Markdown
import StudyAgent.Rendering.NothingLost
import StudyAgent.Research.AttachMedia
import StudyAgent.Research.Chunking
import StudyAgent.Research.Graph
import StudyAgent.Research.Stages
import StudyAgent.Research.UrlSelection
import StudyAgent.Topics.BatchPlan
import StudyAgent.Topics.Instructions
import StudyAgent.Topics.Preorder
import StudyAgent.Topics.Tree
