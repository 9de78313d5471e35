import Toss.Foundation.Run
import Toss.Foundation.CompactedLog
import Toss.Foundation.Table
import Toss.Foundation.Fallible
import Toss.Basic
import Toss.Collaboration.YjsState
import Toss.Workspace.CollaborationProjection
import Toss.Access.AccessEpoch
import Toss.Collaboration.Persistence
import Toss.Collaboration.Operations
import Toss.Collaboration.StoredLog
import Toss.Collaboration.Compaction
import Toss.Foundation.Broadcast
import Toss.Collaboration.Rooms
import Toss.Collaboration.Delivery
import Toss.Collaboration.DeliverySteps
import Toss.Foundation.Fairness
import Toss.Collaboration.DeliveryRuns
import Toss.Foundation.Feed
import Toss.Workspace.Documents
import Toss.Workspace.DocumentTransactions
import Toss.Workspace.DocumentFeed
import Toss.Workspace.FeedCompleteness
import Toss.Workspace.FilePolicy
import Toss.Web.WorkspaceSync
import Toss.Workspace.ProjectPaths
import Toss.Workspace.DocumentPaths
import Toss.Foundation.Mirror
import Toss.Web.WorkspaceSession
import Toss.Web.WorkspaceLoads
import Toss.Web.SessionInvariant
import Toss.Web.Convergence
import Toss.Processing.WorkerIdempotency
import Toss.Processing.WorkerReplay
import Toss.Web.WorkspaceDelta
import Toss.Web.DeltaTickets
import Toss.Web.RealtimeBinding
import Toss.Web.RealtimeDelivery
import Toss.Processing.Model
import Toss.Processing.Database
import Toss.Processing.Jobs
import Toss.Processing.Worker
import Toss.Processing.Lifecycle
import Toss.Processing.WorkspaceBundle
import Toss.Processing.Finalization
import Toss.Processing.System
import Toss.Processing.JobMoves
import Toss.Processing.JobStatements
import Toss.Processing.JobInvariant
import Toss.Processing.JobFencing
import Toss.Processing.Admission
import Toss.Processing.Transfers
import Toss.Processing.Effects
import Toss.Processing.Finalizers
import Toss.Processing.Results
import Toss.Processing.Publications
import Toss.Processing.StagedArtifacts
import Toss.Processing.DeliveredResult
import Toss.Processing.AcceptedWorkspace
import Toss.Processing.FinalizationEnds
import Toss.Workspace.ProjectContent
import Toss.ExternalRepositories.InboundJobs
import Toss.ExternalRepositories.InboundWorker
import Toss.ExternalRepositories.InboundApply
import Toss.Versioning.TextEncoding
import Toss.Foundation.Entries
import Toss.Versioning.GitRepository
import Toss.Versioning.Materialization
import Toss.Versioning.Sessions
import Toss.Versioning.Mirroring
import Toss.Versioning.HeadInvariant
import Toss.Versioning.HeadMirrors
import Toss.Versioning.InboundSync
import Toss.Versioning.Merging
import Toss.Versioning.AcceptedPush
import Toss.Versioning.RejectedPush
import Toss.Versioning.LocalHistory
import Toss.Versioning.AcceptedUpdates
import Toss.ExternalRepositories.Checkpoints
import Toss.ExternalRepositories.CheckpointInvariant
import Toss.ExternalRepositories.CheckpointRetry
import Toss.ExternalRepositories.CheckpointSoundness
import Toss.Versioning.RevisionTransfer
import Toss.Versioning.RevisionContents
import Toss.ExternalRepositories.CredentialInvariant
import Toss.ExternalRepositories.CredentialRefresh
import Toss.ExternalRepositories.OperationExclusion
import Toss.Access.EffectiveAccess
import Toss.Access.StrongestSource
import Toss.Foundation.Transactions
import Toss.Access.AccessTransactions
import Toss.Access.EpochAdvance
import Toss.Access.GuestSessions
import Toss.Access.LoginInvariant
import Toss.Access.LoginRuns
import Toss.Foundation.Splicing
import Toss.Web.EditorSync
import Toss.Web.EditorPane
import Toss.BrowserBackend.BrowserPaths
import Toss.BrowserBackend.BrowserWorkspaceStore
import Toss.Versioning.ThreeWayMerge
import Toss.BrowserBackend.BrowserTree
import Toss.BrowserBackend.BrowserStoreSteps
import Toss.BrowserBackend.BrowserMoves
import Toss.BrowserBackend.BrowserSeeds
import Toss.BrowserBackend.BrowserHistory
import Toss.BrowserBackend.ContentEpoch
import Toss.Web.Uploads
import Toss.BrowserBackend.DocumentLineages
import Toss.BrowserBackend.CollaborationTabs
import Toss.BrowserBackend.CollaborationInvariant
import Toss.Foundation.Lines
import Toss.Workspace.CanonicalPaths
import Toss.Collaboration.ProjectBroadcasts
import Toss.Web.SessionSettings
import Toss.Access.GroupRoles
import Toss.Access.GroupSynchronization
import Toss.Access.ConcurrentSynchronizations
import Toss.Foundation.FileTree
import Toss.ProcessingSdk.Input
import Toss.ProcessingSdk.Extraction
import Toss.ProcessingSdk.VerifiedInputs
import Toss.Processing.BundleArchives
import Toss.Processing.PublicJobs
import Toss.Processing.RunningAttempts
import Toss.Processing.WorkerSessions
import Toss.Processing.SlotSteps
import Toss.Processing.SlotInvariant
import Toss.Processing.SlotCeiling
import Toss.Processing.TransferRequests
import Toss.Processing.TransferRows
import Toss.Processing.TransferSteps
import Toss.Processing.TransferInvariant
import Toss.Processing.TransferCapabilities
import Toss.Web.AgentContext
import Toss.Web.ContextReduction
import Toss.Foundation.Offsets
import Toss.Foundation.Utf8
import Toss.Web.SourceOffsets
import Toss.Foundation.EditScripts
import Toss.Web.PatchText
import Toss.Web.AssistantDiff
import Toss.Web.AssistantPatch
import Toss.Web.WorkspaceTools
import Toss.Web.WorkspacePort
import Toss.Web.CandidateRuntime
import Toss.Workspace.FileNamespace
import Toss.Workspace.FileRuns
