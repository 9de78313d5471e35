import Toss.Foundation.Table
import Toss.Workspace.ProjectContent

/-!
# Inbound repository jobs

`job.rs`, `job_lifecycle.rs` and `persistence.rs` of `inbound/`: the row of
`external_git_inbound_jobs`, the statements that move it, and the failure policies
that decide where a failed attempt resumes.

* `claimDueJob`, `markJobApplied`, `updateJobPhase`, `completeJob`, `failJob`,
  `resumeReauthorizedJobs` — the statements, over the jobs of one project;
* `InboundJobError.failure`, `InboundFailure.transition` — from an error to the
  row it is recorded in.
-/

namespace Toss.ExternalRepositories

open Toss.Foundation Toss.Workspace

/-- `timestamptz`, in seconds. -/
abbrev Timestamp := Int

inductive ExternalGitFailureCode
  | checkpointBranchMoved
  | gitAuthorizationRequired
  | gitPermissionDenied
  | gitProviderUnavailable
  | gitCommandTimeout
  | gitPushVerificationFailed
  | gitCheckpointFailed
  | gitCommandFailed
  | gitRepositoryNotFound
  | gitFetchFailed
  | repositoryContentUnreadable
  | repositorySymlinksNotSupported
  | repositorySubmodulesNotSupported
  | repositorySpecialFilesNotSupported
  | repositoryFileLimitExceeded
  | repositoryFileSizeLimitExceeded
  | repositoryTotalSizeLimitExceeded
  | repositoryPathInvalid
  | repositoryLfsObjectMissing
  | repositoryTextEncodingInvalid
  | repositoryMissingEntryFile
  | repositoryIsEmpty
  | repositoryRevisionInvalid
  | repositoryImportStateFailed
  | repositoryAssetStoreFailed
  | repositoryApplyFailed
  | repositoryRevisionFailed
  | projectNotFound
  | externalGitLinkMissing
deriving DecidableEq, Repr

inductive ExternalGitInboundOperation
  | importRepository
  | sync
deriving DecidableEq, Repr

inductive ExternalGitJobState
  | pending
  | processing
  | retryWait
  | paused
  | failed
  | succeeded
deriving DecidableEq, Repr

/-- The states of `active_job_exists` and of the unique index
`external_git_inbound_jobs_one_active_project`. -/
def ExternalGitJobState.isActive : ExternalGitJobState → Bool
  | .pending | .processing | .retryWait | .paused => true
  | .failed | .succeeded => false

inductive ExternalGitInboundPhase
  | queued
  | fetch
  | lfs
  | validate
  | assets
  | apply
  | revision
  | complete
deriving DecidableEq, Repr

/-- A row of `external_git_inbound_jobs`. -/
structure InboundJobRow where
  id : Uuid
  operation : ExternalGitInboundOperation
  sourceBranch : Text
  requestedByUserId : Uuid
  state : ExternalGitJobState
  phase : ExternalGitInboundPhase
  attemptCount : Int
  nextAttemptAt : Timestamp
  lockedAt : Option Timestamp
  remoteSha : Option Text
  lastError : Option ExternalGitFailureCode
  appliedWorkspaceVersion : Option Int
deriving DecidableEq, Repr

/-- `external_git_inbound_jobs_revision_recovery_check`. -/
def InboundJobRow.meetsRevisionRecoveryCheck (job : InboundJobRow) : Bool :=
  job.phase ≠ .revision || job.remoteSha.isSome && job.appliedWorkspaceVersion.isSome

/-- An `update` of the jobs as the table's check lets it through; `none` stands for
a violation. -/
def updateJobs (cond : InboundJobRow → Bool) (set : InboundJobRow → InboundJobRow)
    (jobs : List InboundJobRow) : Option (List InboundJobRow) :=
  let jobs' := updateWhere cond set jobs
  if jobs'.all InboundJobRow.meetsRevisionRecoveryCheck then some jobs' else none

/-! ## Statements -/

structure AppliedInboundJob where
  remoteSha : Text
  workspaceVersion : Int
deriving DecidableEq, Repr

structure ClaimedInboundJob where
  id : Uuid
  attemptCount : Int
  phase : ExternalGitInboundPhase
  remoteSha : Option Text
  appliedWorkspaceVersion : Option Int
deriving DecidableEq, Repr

def ClaimedInboundJob.appliedState (job : ClaimedInboundJob) : Option AppliedInboundJob :=
  if job.phase ≠ .revision then none
  else do
    let remoteSha ← job.remoteSha
    let workspaceVersion ← job.appliedWorkspaceVersion
    some ⟨remoteSha, workspaceVersion⟩

/-- The condition of the `candidate` subquery of `claim_due_job`. -/
def InboundJobRow.isDue (now staleBefore : Timestamp) (job : InboundJobRow) : Bool :=
  match job.state with
  | .pending | .retryWait => job.nextAttemptAt ≤ now
  | .processing => job.lockedAt.any (· ≤ staleBefore)
  | .paused | .failed | .succeeded => false

/-- The job was applied: its `phase`, `remote_sha` and `applied_workspace_version`
say so. -/
def InboundJobRow.isApplied (job : InboundJobRow) : Bool :=
  job.phase = .revision && job.remoteSha.isSome && job.appliedWorkspaceVersion.isSome

/-- The `set` list of `claim_due_job`. -/
def InboundJobRow.claim (now : Timestamp) (job : InboundJobRow) : InboundJobRow :=
  { job with
    state := .processing
    phase := if job.isApplied then .revision else .fetch
    remoteSha := if job.isApplied then job.remoteSha else none
    appliedWorkspaceVersion := if job.isApplied then job.appliedWorkspaceVersion else none
    attemptCount := job.attemptCount + 1
    lockedAt := some now }

def InboundJobRow.claimed (job : InboundJobRow) : ClaimedInboundJob :=
  ⟨job.id, job.attemptCount, job.phase, job.remoteSha, job.appliedWorkspaceVersion⟩

/-- `claim_due_job`: the candidate is the due job with the given id, since the
order of the candidates is that of all projects. -/
def claimDueJob (jobs : List InboundJobRow) (jobId : Uuid) (now staleBefore : Timestamp) :
    Option (List InboundJobRow × ClaimedInboundJob) := do
  let job ← jobs.find? fun job => job.id = jobId && job.isDue now staleBefore
  let jobs ← updateJobs (·.id = jobId) (InboundJobRow.claim now) jobs
  some (jobs, (job.claim now).claimed)

/-- `mark_job_applied`; `none` also stands for `RowNotFound`. -/
def markJobApplied (jobs : List InboundJobRow) (jobId : Uuid) (remoteSha : Text)
    (workspaceVersion : Int) (now : Timestamp) : Option (List InboundJobRow) :=
  if jobs.any fun job => job.id = jobId && job.state = .processing then
    updateJobs (fun job => job.id = jobId && job.state = .processing)
      (fun job =>
        { job with
          phase := .revision
          remoteSha := some remoteSha
          appliedWorkspaceVersion := some workspaceVersion
          lockedAt := some now }) jobs
  else none

def updateJobPhase (jobs : List InboundJobRow) (jobId : Uuid) (phase : ExternalGitInboundPhase)
    (now : Timestamp) : Option (List InboundJobRow) :=
  updateJobs (fun job => job.id = jobId && job.state = .processing)
    (fun job => { job with phase, lockedAt := some now }) jobs

/-- `complete_job` of `persistence.rs`, with whether it found the job. -/
def completeJob (jobs : List InboundJobRow) (jobId : Uuid) : Option (List InboundJobRow × Bool) :=
  let cond := fun job : InboundJobRow =>
    job.id = jobId && job.state = .processing && job.isApplied
  (updateJobs cond
    (fun job => { job with state := .succeeded, phase := .complete, lastError := none,
                           lockedAt := none }) jobs).map fun jobs' => (jobs', jobs.any cond)

/-- `fail_job`, with whether it found the job. -/
def failJob (jobs : List InboundJobRow) (jobId : Uuid) (state : ExternalGitJobState)
    (retryPhase : ExternalGitInboundPhase) (nextAttemptAt : Timestamp)
    (errorCode : ExternalGitFailureCode) : Option (List InboundJobRow × Bool) :=
  let cond := fun job : InboundJobRow => job.id = jobId && job.state = .processing
  (updateJobs cond
    (fun job =>
      { job with
        state
        phase := retryPhase
        nextAttemptAt
        remoteSha := if retryPhase = .revision then job.remoteSha else none
        appliedWorkspaceVersion :=
          if retryPhase = .revision then job.appliedWorkspaceVersion else none
        lockedAt := none
        lastError := some errorCode }) jobs).map fun jobs' => (jobs', jobs.any cond)

/-- `resume_reauthorized_jobs` for a project whose link is the user's. -/
def resumeReauthorizedJobs (jobs : List InboundJobRow) (now : Timestamp) :
    Option (List InboundJobRow) :=
  updateJobs
    (fun job => job.state = .paused && job.lastError = some .gitAuthorizationRequired)
    (fun job => { job with state := .pending, phase := .queued, nextAttemptAt := now,
                           lockedAt := none, lastError := none }) jobs

/-- `insert_inbound_job`; `none` stands for a violated key or index. -/
def insertInboundJob (jobs : List InboundJobRow) (jobId : Uuid)
    (operation : ExternalGitInboundOperation) (sourceBranch : Text) (requestedByUserId : Uuid)
    (now : Timestamp) : Option (List InboundJobRow) :=
  if jobs.any fun job => job.id = jobId || job.state.isActive then none
  else
    some <| jobs ++
      [{ id := jobId, operation, sourceBranch, requestedByUserId, state := .pending
         phase := .queued, attemptCount := 0, nextAttemptAt := now, lockedAt := none
         remoteSha := none, lastError := none, appliedWorkspaceVersion := none }]

/-! ## Failures -/

inductive ExternalGitCommandFailureKind
  | reauthRequired
  | forbidden
  | conflict
  | retryable
deriving DecidableEq, Repr

inductive InboundPersistenceStage
  | loadLink
  | recordLfsPhase
  | recordValidationPhase
  | recordAssetsPhase
  | recordApplyPhase
deriving DecidableEq, Repr

inductive ApplyExternalGitInboundError
  | projectNotFound
  | workspaceChanged
  | invalidEntryFile
  | workspaceFlush
  | persistence
  | commitAmbiguous
deriving DecidableEq, Repr

inductive InboundJobError
  | provider (kind : ExternalGitCommandFailureKind) (code : ExternalGitFailureCode)
  | linkMissing
  | entryPointProjectNotFound
  | entryPointPersistence
  | checkout
  | invalidRemoteRevision
  | importFailed (code : ExternalGitFailureCode)
  | contentRead
  | assetStorage
  | apply (source : ApplyExternalGitInboundError)
  | revision
  | completion
  | persistence (stage : InboundPersistenceStage)
deriving DecidableEq, Repr

inductive InboundFailurePolicy
  | preserveProcessingLease
  | pauseForReauthorization
  | retry (phase : ExternalGitInboundPhase)
  | fail (phase : ExternalGitInboundPhase)
deriving DecidableEq, Repr

structure InboundFailure where
  policy : InboundFailurePolicy
  errorCode : ExternalGitFailureCode
deriving DecidableEq, Repr

def InboundFailure.fromCommand (kind : ExternalGitCommandFailureKind)
    (errorCode : ExternalGitFailureCode) : InboundFailure :=
  match kind with
  | .reauthRequired => ⟨.pauseForReauthorization, errorCode⟩
  | .retryable => ⟨.retry .queued, errorCode⟩
  | .forbidden | .conflict => ⟨.fail .queued, errorCode⟩

def InboundFailure.retryable (errorCode : ExternalGitFailureCode) : InboundFailure :=
  ⟨.retry .queued, errorCode⟩

def InboundFailure.terminal (errorCode : ExternalGitFailureCode) : InboundFailure :=
  ⟨.fail .queued, errorCode⟩

def InboundFailure.retryableFromRevision (errorCode : ExternalGitFailureCode) : InboundFailure :=
  ⟨.retry .revision, errorCode⟩

def InboundFailure.ambiguousApply : InboundFailure :=
  ⟨.preserveProcessingLease, .repositoryApplyFailed⟩

def InboundJobError.failure : InboundJobError → InboundFailure
  | .provider kind code => .fromCommand kind code
  | .linkMissing => .terminal .externalGitLinkMissing
  | .entryPointProjectNotFound => .terminal .projectNotFound
  | .entryPointPersistence => .retryable .repositoryImportStateFailed
  | .checkout => .retryable .gitFetchFailed
  | .invalidRemoteRevision => .retryable .repositoryRevisionInvalid
  | .importFailed code => .terminal code
  | .contentRead => .terminal .repositoryContentUnreadable
  | .assetStorage => .retryable .repositoryAssetStoreFailed
  | .apply .projectNotFound => .terminal .projectNotFound
  | .apply .invalidEntryFile => .terminal .repositoryMissingEntryFile
  | .apply .commitAmbiguous => .ambiguousApply
  | .apply .workspaceChanged | .apply .workspaceFlush | .apply .persistence =>
    .retryable .repositoryApplyFailed
  | .revision => .retryableFromRevision .repositoryRevisionFailed
  | .completion => .retryableFromRevision .repositoryImportStateFailed
  | .persistence _ => .retryable .repositoryImportStateFailed

def retryDelaySeconds (attemptCount : Int) : Int :=
  if attemptCount ≤ 1 then 10
  else if attemptCount = 2 then 60
  else if attemptCount = 3 then 300
  else if attemptCount = 4 then 1800
  else 3600

inductive InboundFailureTransition
  | preserveProcessingLease
  | record (state : ExternalGitJobState) (retryPhase : ExternalGitInboundPhase)
      (nextAttemptAt : Timestamp)
deriving DecidableEq, Repr

def InboundFailure.transition (failure : InboundFailure) (attemptCount : Int) (now : Timestamp) :
    InboundFailureTransition :=
  match failure.policy with
  | .preserveProcessingLease => .preserveProcessingLease
  | .pauseForReauthorization => .record .paused .queued now
  | .retry phase => .record .retryWait phase (now + retryDelaySeconds attemptCount)
  | .fail phase => .record .failed phase now

end Toss.ExternalRepositories
