import Toss.ExternalRepositories.InboundJobs
import Toss.Versioning.Sessions

/-!
# Outbound checkpoints

`checkpoint/worker.rs`, `persistence.rs`, `enqueue.rs` and `lifecycle.rs`, with
`create_checkpoint_commit` and the links of `linking.rs`: the workspace is flushed to the
local branch, a commit of it is made on the local checkpoint branch, captured in the queue
row, and pushed to the checkpoint branch of the linked repository. One worker at a time
attempts it under the project's Git lock; it can fail or stop between any two statements.

* `createCheckpointCommit`, `CheckpointSystem.enqueueCheckpoint`;
* `CheckpointSystem.advance` — `process_checkpoint` with `complete_checkpoint`;
* `CheckpointSystem.step` — the steps of the worker and of everyone else.

The flush of the collaboration, with which an attempt begins, is among the steps of others.
-/

namespace Toss.ExternalRepositories

open Toss.Foundation Toss.Workspace Toss.Versioning

/-! ## The checkpoint commit -/

structure CheckpointCommit where
  repository : Repository
  branch : Option Oid
  oid : Oid
deriving DecidableEq, Repr

/-- `repository.commit` with a reference to update: it must not exist, or point to the
first parent. -/
def commitOn (repository : Repository) (branch parent : Option Oid) (tree : Tree) :
    Option CheckpointCommit :=
  if branch.isSome && branch ≠ parent then none
  else
    some
      { repository :=
          { repository with objects := repository.objects ++ [⟨tree, parent.toList⟩] }
        branch := some repository.objects.length
        oid := repository.objects.length }

/-- `create_checkpoint_commit` of what HEAD shows. -/
def createCheckpointCommit (repository : Repository) (branch parentSha : Option Oid) :
    Option CheckpointCommit := do
  let source ← repository.headCommit
  match parentSha with
  | none => commitOn repository branch none source.tree
  | some sha =>
    let parent ← repository.find sha
    if SameEntries parent.tree source.tree then some ⟨repository, branch, sha⟩
    else commitOn repository branch (some sha) source.tree

/-! ## Rows -/

/-- The columns of `external_git_project_links` that checkpoints use. -/
structure RepositoryLink where
  repositoryId : Text
  syncedWorkspaceVersion : Int
  lastRemoteSha : Option Oid
deriving DecidableEq, Repr

inductive ExternalGitCheckpointState
  | pending
  | processing
  | retryWait
  | paused
deriving DecidableEq, Repr

/-- A row of `external_git_checkpoint_queue`. `captured_workspace_version` and
`checkpoint_sha` are set together. -/
structure QueuedCheckpoint where
  targetWorkspaceVersion : Int
  captured : Option (Int × Oid)
  state : ExternalGitCheckpointState
deriving DecidableEq, Repr

/-- What `checkpoint_link` returns. -/
structure CheckpointLink where
  repositoryId : Text
  lastRemoteSha : Option Oid
  captured : Option (Int × Oid)
deriving DecidableEq, Repr

structure CheckpointContext where
  link : CheckpointLink
  workspaceVersion : Int
deriving DecidableEq, Repr

/-- The tip of a branch of an external repository: a commit of the local repository, or one
that others have made. -/
inductive RemoteCommit
  | ours (oid : Oid)
  | foreign (commit : Nat)
deriving DecidableEq, Repr

/-- The state that `CheckpointFailure::transition` chooses. -/
def ExternalGitCommandFailureKind.queueState :
    ExternalGitCommandFailureKind → ExternalGitCheckpointState
  | .reauthRequired | .forbidden | .conflict => .paused
  | .retryable => .retryWait

/-! ## The system -/

inductive CheckpointStep
  | loadLink
  | loadVersion (link : CheckpointLink)
  | ensureRepository (context : CheckpointContext)
  | markPending (context : CheckpointContext)
  /-- `flush_pending_server_commit`, which is the session of the local repository. -/
  | flush (context : CheckpointContext)
  | commit (context : CheckpointContext)
  | capture (context : CheckpointContext) (sha : Oid)
  /-- `push_checkpoint_ref`. -/
  | inspectRemote (link : CheckpointLink) (captured : Int × Oid)
  | push (link : CheckpointLink) (captured : Int × Oid)
  | verify (link : CheckpointLink) (captured : Int × Oid)
  | complete (captured : Int × Oid)
deriving DecidableEq, Repr

structure CheckpointSystem where
  world : World
  /-- The checkpoint branch in the local repository. -/
  branch : Option Oid
  link : Option RepositoryLink
  queue : Option QueuedCheckpoint
  /-- The tip of the project's checkpoint branch in each external repository. -/
  remotes : Text → Option RemoteCommit
  /-- The commits that the worker has pushed, with where they went. -/
  pushed : List (Text × Oid)
  /-- What the flushes of the worker have read. -/
  snapshots : List Snapshot
  worker : Option CheckpointStep

inductive EnqueueCheckpointResult
  | notLinked
  | inboundActive
  | upToDate (workspaceVersion : Int)
  | queued (targetWorkspaceVersion : Int)
deriving DecidableEq, Repr

inductive CheckpointAction
  /-- A step of the workspace or of another operation on the local repository. -/
  | world (action : Versioning.Action)
  | linkRepository (repositoryId : Text)
  | unlinkRepository
  | enqueue (inboundActive : Bool)
  | claim
  /-- The worker takes its next step, or stops there with or without effect: its process
  ends, or it records a failure. -/
  | advance
  | stop (effective : Bool) (failure : Option ExternalGitCommandFailureKind)
  /-- Others move the checkpoint branch of an external repository. They have only those
  commits of the local repository that were pushed. -/
  | moveRemote (repositoryId : Text) (tip : Option RemoteCommit)
deriving DecidableEq, Repr

namespace CheckpointSystem

def goto (s : CheckpointSystem) (step : CheckpointStep) : CheckpointSystem :=
  { s with worker := some step }

/-- `enqueue_checkpoint`. -/
def enqueueCheckpoint (s : CheckpointSystem) (inboundActive : Bool) :
    EnqueueCheckpointResult × CheckpointSystem :=
  match s.link with
  | none => (.notLinked, s)
  | some link =>
    if inboundActive then (.inboundActive, s)
    else
      match s.queue with
      | some row =>
        (.queued row.targetWorkspaceVersion,
          { s with queue := some { row with state := .pending } })
      | none =>
        let version := s.world.project.workspaceVersion
        if link.lastRemoteSha.isSome && version ≤ link.syncedWorkspaceVersion then
          (.upToDate version, s)
        else (.queued version, { s with queue := some ⟨version, none, .pending⟩ })

/-- `complete_checkpoint`. -/
def completeCheckpoint (s : CheckpointSystem) (captured : Int × Oid) : CheckpointSystem :=
  { s with
    link := s.link.map fun link =>
      { link with
        syncedWorkspaceVersion := max link.syncedWorkspaceVersion captured.1
        lastRemoteSha := some captured.2 }
    queue := none
    worker := none }

/-- The external repository takes a push that is no force push. -/
def acceptsPush (s : CheckpointSystem) (repositoryId : Text) (sha : Oid) : Bool :=
  match s.remotes repositoryId with
  | none => true
  | some (.ours tip) => tip = sha || s.world.repository.isAncestor tip sha
  | some (.foreign _) => false

/-- The next step of an attempt goes through; `none` when it can only fail. -/
def advance (git : GitLibrary) (s : CheckpointSystem) : CheckpointStep → Option CheckpointSystem
  | .loadLink => do
    let link ← s.link
    let row ← s.queue
    some (s.goto (.loadVersion ⟨link.repositoryId, link.lastRemoteSha, row.captured⟩))
  | .loadVersion link =>
    some (s.goto (.ensureRepository ⟨link, s.world.project.workspaceVersion⟩))
  | .ensureRepository context =>
    (s.world.step git .ensureRepository).map fun world =>
      { s with world }.goto <|
        match context.link.captured with
        | some captured => .inspectRemote context.link captured
        | none => .markPending context
  | .markPending context =>
    ((s.world.step git .markPending).bind (World.step git · .startFlush)).map fun world =>
      { s with world }.goto (.flush context)
  | .flush context =>
    (s.world.step git .advance).map fun world =>
      { s with
        world
        snapshots :=
          if s.world.session = some (Session.flush .sync .release) then
            s.snapshots ++ [s.world.snapshot]
          else s.snapshots }.goto
        (if world.session.isNone then .commit context else .flush context)
  | .commit context =>
    (createCheckpointCommit s.world.repository s.branch context.link.lastRemoteSha).map
      fun commit =>
        { s with
          world := { s.world with repository := commit.repository }
          branch := commit.branch }.goto (.capture context commit.oid)
  | .capture context sha =>
    let captured := (context.workspaceVersion, sha)
    let queue := s.queue.map fun row => { row with captured := some captured }
    some <| { s with queue }.goto (.inspectRemote context.link captured)
  | .inspectRemote link captured =>
    if s.remotes link.repositoryId = some (.ours captured.2) then some (s.goto (.complete captured))
    else if s.remotes link.repositoryId = link.lastRemoteSha.map .ours then
      some (s.goto (.push link captured))
    else none
  | .push link captured =>
    if s.acceptsPush link.repositoryId captured.2 then
      some <| { s with
        remotes := Function.update s.remotes link.repositoryId (some (.ours captured.2))
        pushed := s.pushed ++ [(link.repositoryId, captured.2)] }.goto (.verify link captured)
    else none
  | .verify link captured =>
    if s.remotes link.repositoryId = some (.ours captured.2) then some (s.goto (.complete captured))
    else none
  | .complete captured => some (s.completeCheckpoint captured)

/-- The worker stops, and may record why. -/
def stopped (s : CheckpointSystem) (failure : Option ExternalGitCommandFailureKind) :
    CheckpointSystem :=
  { s with
    world := s.world.release
    queue := s.queue.map fun row =>
      { row with state := (failure.map ExternalGitCommandFailureKind.queueState).getD row.state }
    worker := none }

def step (git : GitLibrary) (s : CheckpointSystem) : CheckpointAction → Option CheckpointSystem
  | .world action =>
    if s.worker.isNone || action.isOthers then
      (s.world.step git action).map fun world => { s with world }
    else none
  | .linkRepository repositoryId =>
    match s.link with
    | none => some { s with link := some ⟨repositoryId, 0, none⟩ }
    | some link => if link.repositoryId = repositoryId then some s else none
  | .unlinkRepository => if s.queue.isNone then some { s with link := none } else none
  | .enqueue inboundActive => some (s.enqueueCheckpoint inboundActive).2
  | .claim =>
    match s.queue with
    | none => none
    | some row =>
      if s.worker.isNone && s.world.session.isNone && s.link.isSome && row.state ≠ .paused then
        some ({ s with queue := some { row with state := .processing } }.goto .loadLink)
      else none
  | .advance => do s.advance git (← s.worker)
  | .stop effective failure => do
    let worker ← s.worker
    (if effective then s.advance git worker else some s).map fun s' => s'.stopped failure
  | .moveRemote repositoryId tip =>
    if tip.all fun commit =>
        match commit with
        | .ours oid => (repositoryId, oid) ∈ s.pushed
        | .foreign _ => true then
      some { s with remotes := Function.update s.remotes repositoryId tip }
    else none

def initial (project : Project) : CheckpointSystem :=
  ⟨World.initial project, none, none, none, fun _ => none, [], [], none⟩

end CheckpointSystem

end Toss.ExternalRepositories
