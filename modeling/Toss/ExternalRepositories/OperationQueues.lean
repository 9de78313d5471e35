import Toss.ExternalRepositories.Checkpoints

/-!
# The queues of external repository operations

`inbound/sync_enqueue.rs`, `checkpoint/enqueue.rs`, `linking.rs` and the statements of both
workers, as far as they change which operations a project has. `enqueue_sync`,
`enqueue_checkpoint` and `unlink_repository_link` hold the row lock of the project from their
first statement to their end and see what is committed at each statement; all others commit
between any two of them.

* `OperationLink`, `CheckpointQueueRow`, `InboundJobRow` — the rows of one project;
* `LockedStep` — where the transaction that holds the project stands;
* `OperationQueues.step` — its statements, and the transactions of everyone else.
-/

namespace Toss.ExternalRepositories

open Toss.Workspace

/-! ## Rows -/

inductive ExternalGitLinkStatus
  | linking
  | active
  | reauthRequired
  | conflict
  | error
deriving DecidableEq, Repr

/-- The columns of `external_git_project_links` that decide about operations. -/
structure OperationLink where
  providerInstanceId : Text
  repositoryId : Text
  linkedByUserId : Uuid
  status : ExternalGitLinkStatus
  syncedWorkspaceVersion : Int
  lastRemoteSha : Option Text
  lastError : Option ExternalGitFailureCode
  lastImportError : Option ExternalGitFailureCode
deriving DecidableEq, Repr

/-- `insert_repository_link`. -/
def OperationLink.insert (provider repositoryId : Text) (actorUserId : Uuid) : OperationLink :=
  ⟨provider, repositoryId, actorUserId, .linking, 0, none, none, none⟩

inductive ExternalGitCheckpointPhase
  | queued
  | snapshot
  | commitLocal
  | pushGit
deriving DecidableEq, Repr

/-- A row of `external_git_checkpoint_queue`. -/
structure CheckpointQueueRow where
  targetWorkspaceVersion : Int
  capturedWorkspaceVersion : Option Int
  checkpointSha : Option Text
  capturedAt : Option Timestamp
  nextAttemptAt : Timestamp
  state : ExternalGitCheckpointState
  phase : ExternalGitCheckpointPhase
  attemptCount : Int
  lockedAt : Option Timestamp
  lastError : Option ExternalGitFailureCode
deriving DecidableEq, Repr

/-- `resume_reauthorized_links`. -/
def OperationLink.resume (link : OperationLink) : OperationLink :=
  if link.status = .reauthRequired then
    { link with
      status := if link.syncedWorkspaceVersion > 0 then .active else .linking
      lastError := none }
  else link

/-- `resume_reauthorized_checkpoints`. -/
def CheckpointQueueRow.resume (now : Timestamp) (row : CheckpointQueueRow) : CheckpointQueueRow :=
  if row.state = .paused && row.lastError = some .gitAuthorizationRequired then
    { row with state := .pending, phase := .queued, nextAttemptAt := now, lockedAt := none,
               lastError := none }
  else row

/-- The `candidate` condition of `claim_due`. -/
def CheckpointQueueRow.isDue (now staleBefore : Timestamp) (row : CheckpointQueueRow) : Bool :=
  match row.state with
  | .pending | .retryWait => row.nextAttemptAt ≤ now
  | .processing => row.lockedAt.any (· ≤ staleBefore)
  | .paused => false

/-- `CheckpointFailure::transition`. -/
def checkpointFailureTransition (attemptCount : Int) (now : Timestamp) :
    ExternalGitCommandFailureKind → ExternalGitCheckpointState × ExternalGitLinkStatus × Timestamp
  | .reauthRequired => (.paused, .reauthRequired, now)
  | .forbidden => (.paused, .error, now)
  | .conflict => (.paused, .conflict, now)
  | .retryable => (.retryWait, .error, now + retryDelaySeconds attemptCount)

/-- What `target_for_update` returns. -/
structure CheckpointTarget where
  syncedWorkspaceVersion : Int
  lastRemoteSha : Option Text
  inboundActive : Bool
  queuedVersion : Option Int
deriving DecidableEq, Repr

/-- `EnqueueInboundSync`, with the id and the time that `enqueue_sync` draws. -/
structure EnqueueInboundSync where
  jobId : Uuid
  actorUserId : Uuid
  sourceBranch : Text
  now : Timestamp
deriving DecidableEq, Repr

def EnqueueInboundSync.row (command : EnqueueInboundSync)
    (operation : ExternalGitInboundOperation) : InboundJobRow :=
  { id := command.jobId
    operation
    sourceBranch := command.sourceBranch
    requestedByUserId := command.actorUserId
    state := .pending
    phase := .queued
    attemptCount := 0
    nextAttemptAt := command.now
    lockedAt := none
    remoteSha := none
    lastError := none
    appliedWorkspaceVersion := none }

/-- The statements that write the queue in `enqueue_checkpoint`. -/
inductive QueueWrite
  | resume
  | insert (targetWorkspaceVersion : Int)
deriving DecidableEq, Repr

/-- The next statement of the transaction that holds the project. -/
inductive LockedStep
  /-- `enqueue_sync`. -/
  | checkCheckpoint (command : EnqueueInboundSync)
  | insertJob (command : EnqueueInboundSync)
  | clearImportError (command : EnqueueInboundSync)
  | commitSync (command : EnqueueInboundSync)
  /-- `enqueue_checkpoint`. -/
  | selectTarget (workspaceVersion : Int) (now : Timestamp)
  | writeQueue (workspaceVersion : Int) (target : CheckpointTarget) (now : Timestamp)
  | commitCheckpoint (write : Option QueueWrite) (now : Timestamp)
  /-- `unlink_repository_link`. -/
  | checkOperation
  | checkInbound (checkpointActive : Bool)
  | deleteLink
  | commitUnlink
deriving DecidableEq, Repr

structure OperationQueues where
  /-- `projects.workspace_version`, while the project exists. -/
  project : Option Int
  link : Option OperationLink
  jobs : List InboundJobRow
  queue : Option CheckpointQueueRow
  /-- The transaction that has locked the project. -/
  locked : Option LockedStep
deriving DecidableEq, Repr

inductive OperationAction
  | createProject
  | createImport (command : EnqueueInboundSync) (provider repositoryId : Text)
  | deleteProject
  | edit
  /-- `upsert_repository_link`. -/
  | linkRepository (provider repositoryId : Text) (actorUserId : Uuid)
  /-- A transaction locks the project, goes to its next statement, or is rolled back. -/
  | enqueueSync (command : EnqueueInboundSync)
  | enqueueCheckpoint (now : Timestamp)
  | unlinkRepository
  | advance
  | rollback
  /-- `resume_work`. -/
  | reauthorize (userId : Uuid) (provider : Text) (now : Timestamp)
  /-- The inbound worker. -/
  | claimJob (jobId : Uuid) (now staleBefore : Timestamp)
  | updateJobPhase (jobId : Uuid) (phase : ExternalGitInboundPhase) (now : Timestamp)
  | markJobApplied (jobId : Uuid) (remoteSha : Text) (workspaceVersion : Int) (now : Timestamp)
  | completeJob (jobId : Uuid)
  | failJob (jobId : Uuid) (attemptCount : Int) (failure : InboundFailure) (now : Timestamp)
  /-- The checkpoint worker. -/
  | claimCheckpoint (now staleBefore : Timestamp)
  | updateQueuePhase (phase : ExternalGitCheckpointPhase)
  | captureCheckpoint (workspaceVersion : Int) (checkpointSha : Text) (now : Timestamp)
  | completeCheckpoint (workspaceVersion : Int) (remoteSha : Text)
  | failCheckpoint (attemptCount : Int) (kind : ExternalGitCommandFailureKind)
      (errorCode : ExternalGitFailureCode) (now : Timestamp)
deriving DecidableEq, Repr

namespace OperationQueues

/-- `active_job_exists`. -/
def activeJobExists (s : OperationQueues) : Bool :=
  s.jobs.any fun job => job.state.isActive

/-! ## Statements -/

/-- `target_for_update`. -/
def targetForUpdate (s : OperationQueues) : Option CheckpointTarget :=
  s.link.map fun link =>
    ⟨link.syncedWorkspaceVersion, link.lastRemoteSha, s.activeJobExists,
      s.queue.map CheckpointQueueRow.targetWorkspaceVersion⟩

/-- `resume_queue`. -/
def resumeQueue (s : OperationQueues) (now : Timestamp) : OperationQueues :=
  { s with
    queue := s.queue.map fun row =>
      { row with
        state := .pending
        phase := if row.checkpointSha.isNone then .queued else .pushGit
        nextAttemptAt := now
        lockedAt := none
        lastError := none }
    link := s.link.map fun link => { link with lastError := none } }

/-- `insert_queue`. -/
def insertQueue (s : OperationQueues) (targetWorkspaceVersion : Int) (now : Timestamp) :
    OperationQueues :=
  if s.link.isNone then s
  else
    { s with
      queue := some <|
        match s.queue with
        | none =>
          { targetWorkspaceVersion
            capturedWorkspaceVersion := none
            checkpointSha := none
            capturedAt := none
            nextAttemptAt := now
            state := .pending
            phase := .queued
            attemptCount := 0
            lockedAt := none
            lastError := none }
        | some row =>
          { row with state := .pending, nextAttemptAt := now, lockedAt := none,
                     lastError := none } }

/-- `enqueue_checkpoint`, from the target on: the statement that is executed, if any. -/
def queueWrite (workspaceVersion : Int) (target : CheckpointTarget) : Option QueueWrite :=
  if target.inboundActive then none
  else
    match target.queuedVersion with
    | some _ => some .resume
    | none =>
      if target.lastRemoteSha.isSome && target.syncedWorkspaceVersion ≥ workspaceVersion then none
      else some (.insert workspaceVersion)

/-! ## Transactions -/

def goto (s : OperationQueues) (next : LockedStep) : OperationQueues :=
  { s with locked := some next }

/-- The next statement of the transaction that holds the project. What it writes is seen by
the others when it commits. -/
def advance (s : OperationQueues) : LockedStep → OperationQueues
  | .checkCheckpoint command =>
    -- `checkpoint_operation_exists_for_update`
    if s.queue.isSome then { s with locked := none } else s.goto (.insertJob command)
  | .insertJob command =>
    -- the foreign key wants the link, the unique index no other active job
    if s.link.isSome
        && (insertInboundJob s.jobs command.jobId .sync command.sourceBranch command.actorUserId
          command.now).isSome then
      s.goto (.clearImportError command)
    else { s with locked := none }
  | .clearImportError command => s.goto (.commitSync command)
  | .commitSync command =>
    { s with
      jobs := s.jobs ++ [command.row .sync]
      link := s.link.map fun link => { link with lastImportError := none }
      locked := none }
  | .selectTarget workspaceVersion now =>
    match s.targetForUpdate with
    | none => { s with locked := none }
    | some target => s.goto (.writeQueue workspaceVersion target now)
  | .writeQueue workspaceVersion target now =>
    s.goto (.commitCheckpoint (queueWrite workspaceVersion target) now)
  | .commitCheckpoint write now =>
    match write with
    | none => { s with locked := none }
    | some .resume => { s.resumeQueue now with locked := none }
    | some (.insert version) => { s.insertQueue version now with locked := none }
  | .checkOperation => s.goto (.checkInbound s.queue.isSome)
  | .checkInbound checkpointActive =>
    if checkpointActive || s.activeJobExists then { s with locked := none } else s.goto .deleteLink
  | .deleteLink => s.goto .commitUnlink
  | .commitUnlink =>
    -- `on delete cascade`
    { s with link := none, jobs := [], queue := none, locked := none }

def step (s : OperationQueues) : OperationAction → Option OperationQueues
  | .createProject => if s.project.isNone then some { s with project := some 0 } else none
  | .createImport command provider repositoryId =>
    if s.project.isNone then
      some
        { s with
          project := some 0
          link := some (.insert provider repositoryId command.actorUserId)
          jobs := [command.row .importRepository] }
    else none
  | .deleteProject => if s.locked.isNone then some ⟨none, none, [], none, none⟩ else none
  | .edit =>
    if s.locked.isNone then some { s with project := s.project.map (· + 1) } else none
  | .linkRepository provider repositoryId actorUserId =>
    if s.project.isNone then none
    else
      match s.link with
      | none => some { s with link := some (.insert provider repositoryId actorUserId) }
      | some link =>
        if link.providerInstanceId = provider ∧ link.repositoryId = repositoryId then
          some
            { s with
              link := some
                { link with status := .linking, lastError := none
                            linkedByUserId := actorUserId } }
        else none
  | .enqueueSync command =>
    if s.locked.isNone && s.project.isSome then some (s.goto (.checkCheckpoint command)) else none
  | .enqueueCheckpoint now =>
    if s.locked.isNone then
      s.project.map fun workspaceVersion => s.goto (.selectTarget workspaceVersion now)
    else none
  | .unlinkRepository =>
    if s.locked.isNone && s.project.isSome then some (s.goto .checkOperation) else none
  | .advance => s.locked.map s.advance
  | .rollback => s.locked.map fun _ => { s with locked := none }
  | .reauthorize userId provider now => do
    let link ← s.link
    guard (link.linkedByUserId = userId ∧ link.providerInstanceId = provider)
    let jobs ← resumeReauthorizedJobs s.jobs now
    some
      { s with
        link := some link.resume
        queue := s.queue.map (CheckpointQueueRow.resume now)
        jobs }
  | .claimJob jobId now staleBefore =>
    (claimDueJob s.jobs jobId now staleBefore).map fun claim => { s with jobs := claim.1 }
  | .updateJobPhase jobId phase now =>
    (ExternalRepositories.updateJobPhase s.jobs jobId phase now).map fun jobs => { s with jobs }
  | .markJobApplied jobId remoteSha workspaceVersion now =>
    (ExternalRepositories.markJobApplied s.jobs jobId remoteSha workspaceVersion now).map
      fun jobs => { s with jobs }
  | .completeJob jobId => do
    let (jobs, completed) ← ExternalRepositories.completeJob s.jobs jobId
    guard completed
    some
      { s with jobs, link := s.link.map fun link => { link with lastImportError := none } }
  | .failJob jobId attemptCount failure now =>
    match failure.transition attemptCount now with
    | .preserveProcessingLease => some s
    | .record state retryPhase nextAttemptAt => do
      let (jobs, updated) ← ExternalRepositories.failJob s.jobs jobId state retryPhase
        nextAttemptAt failure.errorCode
      some
        { s with
          jobs
          link :=
            if updated then
              s.link.map fun link => { link with lastImportError := some failure.errorCode }
            else s.link }
  | .claimCheckpoint now staleBefore => do
    let row ← s.queue
    guard (s.link.isSome && row.isDue now staleBefore)
    some
      { s with
        queue := some
          { row with state := .processing, phase := .snapshot, attemptCount := row.attemptCount + 1
                     lockedAt := some now } }
  | .updateQueuePhase phase =>
    some { s with queue := s.queue.map fun row => { row with phase } }
  | .captureCheckpoint workspaceVersion checkpointSha now =>
    some
      { s with
        queue := s.queue.map fun row =>
          { row with phase := .pushGit, capturedWorkspaceVersion := some workspaceVersion
                     checkpointSha := some checkpointSha, capturedAt := some now } }
  | .completeCheckpoint workspaceVersion remoteSha =>
    some
      { s with
        link := s.link.map fun link =>
          { link with
            status := .active
            syncedWorkspaceVersion := max link.syncedWorkspaceVersion workspaceVersion
            lastRemoteSha := some remoteSha
            lastError := none }
        queue := none }
  | .failCheckpoint attemptCount kind errorCode now =>
    let (state, status, nextAttemptAt) := checkpointFailureTransition attemptCount now kind
    some
      { s with
        link := s.link.map fun link => { link with status, lastError := some errorCode }
        queue := s.queue.map fun row =>
          { row with state, phase := .queued, nextAttemptAt, lockedAt := none
                     lastError := some errorCode } }

/-- No project yet. -/
def initial : OperationQueues := ⟨none, none, [], none, none⟩

end OperationQueues

end Toss.ExternalRepositories
