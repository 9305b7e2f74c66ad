import Agentrail.Lib.Base64
import Agentrail.Lib.Interleaving
import Agentrail.Lib.Merkle
import Agentrail.Lib.MerkleStorage
import Agentrail.Lib.Regex
import Agentrail.Lib.RegexRules
import Agentrail.Lib.Table
import Agentrail.Lib.Text
import Agentrail.Py.Basic
import Agentrail.Py.Re
import Agentrail.Js.Basic
import Agentrail.Js.RegExp
import Agentrail.Dependencies.GoModules
import Agentrail.Dependencies.GoSumdb
import Agentrail.Dependencies.GoSumdbInclusion
import Agentrail.Dependencies.GoSumdbTimeline
import Agentrail.Dependencies.GoSumdbTransport
import Agentrail.Dependencies.GoSumdbPlanner
import Agentrail.Dependencies.GoSumdbTiles
import Agentrail.Dependencies.GoSumdbCompleteness
import Agentrail.Queue.IntakeGate
import Agentrail.Queue.Schema
import Agentrail.Queue.Statements
import Agentrail.Queue.GithubIntake
import Agentrail.Queue.Runner
import Agentrail.Queue.Operations
import Agentrail.Queue.TerminalStates
import Agentrail.Queue.StalenessWindow
import Agentrail.Queue.AlignmentGate
import Agentrail.Queue.DurableDenial
import Agentrail.Queue.GuardrailPark
import Agentrail.Queue.WakeUp
import Agentrail.Queue.PriceCheck
import Agentrail.Billing.Wallet
import Agentrail.Inbox.ChannelInbox
import Agentrail.Inbox.TurnIntegrity
import Agentrail.Inbox.ConversationOrder
import Agentrail.Review.ReviewJobs
import Agentrail.Review.NewestHead
import Agentrail.Review.DailyBudget
import Agentrail.Goals.GoalRules
import Agentrail.Goals.GoalLedger
import Agentrail.Goals.LedgerIntegrity
import Agentrail.Py.Dict
import Agentrail.Py.Json
import Agentrail.Py.Lines
import Agentrail.Afk.State
import Agentrail.Afk.Store
import Agentrail.Afk.Journal
import Agentrail.Afk.Replay
import Agentrail.Lib.Digits
import Agentrail.Lib.Cover
import Agentrail.Dependencies.Pep440
import Agentrail.Dependencies.Pep440Intervals
import Agentrail.Dependencies.Pep440Containment
import Agentrail.Guardrails.InputContract
import Agentrail.Guardrails.Dialects
import Agentrail.Guardrails.AcceptanceParity
import Agentrail.Guardrails.AdmissionParity
import Agentrail.Afk.Scheduling
import Agentrail.Afk.TerminalIssues
import Agentrail.Lib.Runs
import Agentrail.Afk.Counters
import Agentrail.Afk.Slots
import Agentrail.Afk.Workers
import Agentrail.Afk.QueueState
import Agentrail.Afk.GateParks
import Agentrail.Afk.QueueTermination
import Agentrail.Afk.QueueStore
import Agentrail.Afk.RowIdentity
import Agentrail.Guardrails.AdmissionHistory
import Agentrail.Preview.PreviewBoots
import Agentrail.Preview.BootLifecycle
import Agentrail.Goals.GoalStops
import Agentrail.Context.BuildIndex
import Agentrail.Context.Pictures
import Agentrail.Context.IncrementalIndex
import Agentrail.Review.OverlappingClaims
import Agentrail.Records.ChangeRecords
import Agentrail.Records.Convergence
import Agentrail.Records.PullRequestHead
import Agentrail.Records.HeadEffects
import Agentrail.Records.HeadAuthority
import Agentrail.Records.HeadRevocation
import Agentrail.Records.LiveWork
import Agentrail.Lib.Occurrences
import Agentrail.Context.Redaction
import Agentrail.Context.MemoryLane
import Agentrail.Lib.GitTree
import Agentrail.Js.Bytes
import Agentrail.Records.ExactGitTree
import Agentrail.Records.GitTreeSoundness
import Agentrail.Context.WikiPages
import Agentrail.Context.WikiFreshness
import Agentrail.Lib.InvertedIndex
import Agentrail.Context.RetrievalCorpus
import Agentrail.Context.RetrievalQuery
import Agentrail.Context.RetrievalFastPath
import Agentrail.Records.TurnDispatch
import Agentrail.Dependencies.GoSumdbNoteCustody
import Agentrail.Dependencies.GoSumdbNoteChain
import Agentrail.Connectors.OauthRefresh
import Agentrail.Lib.ReadCommitted
import Agentrail.Briefs.InvestigationItems
import Agentrail.Briefs.BriefItems
import Agentrail.Records.ExactHeadContext
import Agentrail.Records.ExactHeadStages
import Agentrail.Js.Pretty
import Agentrail.Records.ContextPack
import Agentrail.Records.CorrectionPatterns
import Agentrail.Records.CorrectionPackets
import Agentrail.Records.CorrectionGuards
import Agentrail.Records.CorrectionAgreement
import Agentrail.Records.PrDecision
import Agentrail.Records.PrDecisionCalls
import Agentrail.Records.PrDecisionRuns
import Agentrail.Lib.SemVer
import Agentrail.Dependencies.Versions
import Agentrail.Dependencies.NpmSemver
import Agentrail.Dependencies.Observation
import Agentrail.Dependencies.ObservationEntries
import Agentrail.Dependencies.ObservationLegal
import Agentrail.Heartbeat.Dispatcher
import Agentrail.Heartbeat.Runtime
import Agentrail.Dependencies.Publication
import Agentrail.Dependencies.Evidence
import Agentrail.Dependencies.EvidenceGate
import Agentrail.Records.ContextPackBudget
import Agentrail.Records.AcceptanceContracts
import Agentrail.Dependencies.GoSumdbCanonical
import Agentrail.Dependencies.GoVersions
import Agentrail.Dependencies.PoetryOperators
import Agentrail.Afk.Snapshots
import Agentrail.Py.JsonScan
import Agentrail.Afk.TornJournals
import Agentrail.Billing.Seats
import Agentrail.Queue.RetryBudget
import Agentrail.Watches.WatchTable
import Agentrail.Watches.ObservationRetries
import Agentrail.Watches.WatchClaims
import Agentrail.Lib.JsonText
import Agentrail.Watches.UpgradeCandidates
import Agentrail.Watches.UpgradeContracts
import Agentrail.Context.BudgetFill
import Agentrail.Context.ListwiseRerank
import Agentrail.Lib.HopSearch
import Agentrail.Context.CodeGraph
import Agentrail.Context.SymbolMap
import Agentrail.Lib.Numbered
import Agentrail.Context.Chunks
import Agentrail.Context.ChunkRanges
import Agentrail.Context.ChunkIds
import Agentrail.Context.Snippets
import Agentrail.Context.Citations
import Agentrail.Lib.LexicalPath
import Agentrail.Py.PurePath
import Agentrail.Context.ImportResolution
import Agentrail.Lib.FirstByKey
import Agentrail.Context.RecallLayer
import Agentrail.Context.ModulePages
import Agentrail.Py.CanonicalJson
import Agentrail.Dependencies.SourceInventory
import Agentrail.Watches.SourceReceipts
import Agentrail.Watches.CanonicalAgreement
import Agentrail.Watches.ReceiptAgreement
import Agentrail.Shared.Globs
import Agentrail.Records.ContextPackChanges
