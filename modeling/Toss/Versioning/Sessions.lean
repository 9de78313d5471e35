import Toss.Versioning.Materialization

/-!
# Operations on one project's repository

`flush.rs`, `state.rs`, `revision_history.rs`, `http.rs` with `http/receive_pack.rs`, and
the apply of an inbound job, as steps: every statement, Git command and exchange of the
worktree is one. The project's Git lock lets one operation run at a time. Edits do not
take it and are committed between any two steps.

* `Session` — where the operation that holds the lock stands;
* `World.advance`, `World.fail` — its next step, done or failed;
* `World.step` — the steps of everyone.

The updates of collaborative documents are counted along: those accepted and those that a
document has absorbed; and so are the contents that have been replaced.
-/

namespace Toss.Versioning

open Toss.Foundation Toss.Workspace

/-- What `load_project_content_snapshot` read, with the updates it has absorbed. -/
structure Snapshot where
  version : Int
  content : ProjectContent
  absorbed : List Nat
deriving DecidableEq, Repr

/-- `ReceivePackSession`, with the repository's `pending_sync` as the request read it.
`latest` is what the users left: the snapshot, or their last change since. -/
structure PushSession where
  pendingSync : Bool
  headBefore : Option Oid
  before : Snapshot
  latest : ProjectContent
deriving DecidableEq, Repr

inductive FlushStep
  | load
  | sync
  | commit (snapshot : Snapshot)
  | complete (snapshot : Snapshot)
deriving DecidableEq, Repr

/-- What a flush is part of. -/
inductive AfterFlush
  | release
  | replaceInbound (prepared : PreparedRepoImport)
  | rejected (push : PushSession)
deriving DecidableEq, Repr

inductive Session
  | flush (next : FlushStep) (after : AfterFlush)
  | revision (next : FlushStep)
  /-- `apply_external_git_inbound_content` behind its flush; `synced` for a sync. -/
  | replaceInbound (prepared : PreparedRepoImport) (synced : Bool)
  | pushLoad
  | pushCapture (pendingSync : Bool)
  | pushBackend (push : PushSession)
  | pushReconcile (push : PushSession) (success : Bool)
  | pushImport (push : PushSession) (prepared : PreparedRepoImport)
  | pushImportRecord (push : PushSession) (version : Int)
  | pushMerge (push : PushSession) (prepared : PreparedRepoImport)
  | pushMergeSync (push : PushSession)
  | pushMergeRecord (push : PushSession) (snapshot : Snapshot) (isClean : Bool)
  /-- `restore_rejected_push`. -/
  | restoreHead (push : PushSession) (restoreWorkspace : Bool)
  | restoreCompare (push : PushSession)
  | restoreApply (push : PushSession) (version : Int) (prepared : PreparedRepoImport)
  | restoreLoad (push : PushSession)
  | restoreSync (push : PushSession)
  | restoreRecord (push : PushSession) (snapshot : Snapshot)
deriving DecidableEq, Repr

/-- A push has moved HEAD, and the workspace and HEAD do not yet belong together again. -/
def Session.isReconciling : Session → Bool
  | .pushReconcile _ _ | .pushImport _ _ | .restoreHead _ _ | .restoreCompare _
  | .restoreApply _ _ _ => true
  | _ => false

/-- A push that was not accepted: what its users left, and what they found. -/
structure PushOutcome where
  latest : ProjectContent
  content : ProjectContent
deriving DecidableEq, Repr

structure World where
  project : Project
  /-- `git_repositories.pending_sync`, once the row exists. -/
  pendingSync : Option Bool
  repository : Repository
  session : Option Session
  /-- The persisted updates that no document has absorbed. -/
  updates : List Nat
  /-- The updates that the documents have absorbed. -/
  absorbed : List Nat
  /-- What replacements have found, with the updates that it had absorbed. -/
  replaced : List Snapshot
  /-- The updates whose `persist_update` returned `Accepted`. -/
  accepted : List Nat
  outcomes : List PushOutcome
deriving DecidableEq, Repr

/-- The rows that the statements of the workspace leave behind: sanitized paths, no path
twice in a table, and text that can be stored. -/
def isStored (content : ProjectContent) : Bool :=
  content.documents.all (fun document => decide (IsProjectPath document.path))
    && content.assets.all (fun asset => decide (IsProjectPath asset.path))
    && content.directories.all (fun directory => decide (IsProjectPath directory))
    && decide (content.documents.map WorkspaceDocument.path).Nodup
    && decide (content.assets.map WorkspaceAsset.path).Nodup
    && decide content.directories.Nodup

namespace World

def snapshot (w : World) : Snapshot :=
  ⟨w.project.workspaceVersion, w.project.content, w.absorbed⟩

def checkoutBranch (git : GitLibrary) (w : World) : World :=
  { w with repository := w.repository.checkoutBranch git }

/-- `sync_project_documents_to_repo`. -/
def syncToRepo (w : World) : Option World :=
  (materialize w.project.content).map fun tree =>
    { w with repository := { w.repository with worktree := tree } }

/-- `complete_materialized_workspace_sync` and `record_receive_pack_sync`. -/
def recordSync (w : World) (version : Int) (pendingSync : Bool) : World :=
  if w.project.workspaceVersion = version then
    { w with pendingSync := w.pendingSync.map fun _ => pendingSync }
  else w

/-- A committed change of the content by someone who does not hold the lock:
`mark_project_dirty` in its transaction. -/
def change (w : World) (content : ProjectContent) : World :=
  { w with
    project :=
      { w.project with content, workspaceVersion := w.project.workspaceVersion + 1 }
    pendingSync := some true }

/-- A replacement with `clear_persisted_project`. -/
def replace (w : World) (project : Project) (absorbed : List Nat) : World :=
  { w with project, absorbed, updates := [], replaced := w.replaced ++ [w.snapshot] }

def goto (w : World) (session : Session) : World :=
  { w with session := some session }

def release (w : World) : World :=
  { w with session := none }

/-- The request ends without having accepted the push. -/
def endPush (w : World) (push : PushSession) : World :=
  { w with
    session := none
    outcomes := w.outcomes ++ [⟨push.latest, w.project.content⟩] }

/-- The caller goes on behind its flush. -/
def afterFlush (w : World) : AfterFlush → World
  | .release => w.release
  | .replaceInbound prepared => w.goto (.replaceInbound prepared true)
  | .rejected push => w.endPush push

/-- `flush_pending_server_commit`, step by step. -/
def advanceFlush (git : GitLibrary) (w : World) (after : AfterFlush) : FlushStep → Option World
  | .load =>
    some <|
      if w.pendingSync = some true then (w.checkoutBranch git).goto (.flush .sync after)
      else w.afterFlush after
  | .sync => w.syncToRepo.map fun w' => w'.goto (.flush (.commit w.snapshot) after)
  | .commit snapshot =>
    let repository :=
      if w.repository.worktreeIsClean git then w.repository
      else w.repository.commitStagedIfChanged git
    some <| { w with repository }.goto (.flush (.complete snapshot) after)
  | .complete snapshot => some ((w.recordSync snapshot.version false).afterFlush after)

/-- `create_revision`, step by step. -/
def advanceRevision (git : GitLibrary) (w : World) : FlushStep → Option World
  | .load =>
    if w.pendingSync.isNone then none else some ((w.checkoutBranch git).goto (.revision .sync))
  | .sync => w.syncToRepo.map fun w' => w'.goto (.revision (.commit w.snapshot))
  | .commit snapshot =>
    let staged := w.repository.commitStagedIfChanged git
    let repository :=
      if staged.head = w.repository.head then staged.commitAllowEmpty git else staged
    some <| { w with repository }.goto (.revision (.complete snapshot))
  | .complete snapshot => some (w.recordSync snapshot.version false).release

/-- `validate_default_ref_update`. -/
def isAllowedUpdate (w : World) (headBefore headAfter : Option Oid) : Bool :=
  match headBefore, headAfter with
  | some _, none => false
  | some old, some new => w.repository.isAncestor old new
  | none, _ => true

/-- `build_merged_workspace`; `none` stands for every error. -/
def mergedWorkspace (git : GitLibrary) (w : World) (push : PushSession) :
    Option (List (Text × MergeFileValue)) := do
  let old ← push.headBefore.bind w.repository.find
  let new ← w.repository.head.bind w.repository.find
  let base ← loadGitState git old.tree
  let pushed ← loadGitState git new.tree
  mergeOnlineOverPushed git base pushed (mergeMap push.before.content)

/-- How an import that failed is rejected: whether the workspace may have changed. -/
def mayHaveChanged : RepositoryImportError → Bool
  | .workspaceChanged | .missingEntryFile => false
  | _ => true

/-- `reconcile` up to the transaction of the import or the merge. -/
def reconcile (git : GitLibrary) (w : World) (push : PushSession) (success : Bool) : World :=
  let prepare := fun files => prepareRepoImport git w.project.projectType w.project.entryFilePath files
  if w.repository.head = push.headBefore then w.release
  else if !success || !w.isAllowedUpdate push.headBefore w.repository.head then
    w.goto (.restoreHead push false)
  else if push.pendingSync then
    match (w.mergedWorkspace git push).bind materializeMergeMapToDir with
    | none => w.goto (.restoreHead push false)
    | some files =>
      match prepare files with
      | .error error => w.goto (.restoreHead push (mayHaveChanged error))
      | .ok prepared => w.goto (.pushMerge push prepared)
  else
    match prepare (collectRepositoryFiles w.repository.worktree) with
    | .error error => w.goto (.restoreHead push (mayHaveChanged error))
    | .ok prepared => w.goto (.pushImport push prepared)

/-- The next step of an operation goes through; `none` when it can only fail. -/
def advance (git : GitLibrary) (w : World) : Session → Option World
  | .flush next after => w.advanceFlush git after next
  | .revision next => w.advanceRevision git next
  | .replaceInbound prepared _ =>
    match applyRepoImport w.project none prepared with
    | .error _ => some w.release
    | .ok project =>
      -- `record_workspace_change` marks the repository; the revision follows
      some <| { w.replace project [] with pendingSync := some true }.goto (.flush .load .release)
  | .pushLoad =>
    match w.pendingSync with
    | none => some w.release
    | some pendingSync => some ((w.checkoutBranch git).goto (.pushCapture pendingSync))
  | .pushCapture pendingSync =>
    some <| w.goto <| .pushBackend
      ⟨pendingSync, w.repository.head, w.snapshot, w.project.content⟩
  | .pushBackend _ => none
  | .pushReconcile push success => some (w.reconcile git push success)
  | .pushImport push prepared =>
    match applyRepoImport w.project (some push.before.version) prepared with
    | .error error => some (w.goto (.restoreHead push (mayHaveChanged error)))
    | .ok project =>
      some <| (w.replace project []).goto (.pushImportRecord push project.workspaceVersion)
  | .pushImportRecord _ version => some (w.recordSync version false).release
  | .pushMerge push prepared =>
    match applyRepoImport w.project (some push.before.version) prepared with
    | .error error => some (w.goto (.restoreHead push (mayHaveChanged error)))
    | .ok project => some <| (w.replace project push.before.absorbed).goto (.pushMergeSync push)
  | .pushMergeSync push =>
    w.syncToRepo.map fun w' =>
      w'.goto (.pushMergeRecord push w.snapshot (w'.repository.worktreeIsClean git))
  | .pushMergeRecord _ snapshot isClean =>
    some (w.recordSync snapshot.version !isClean).release
  | .restoreHead push restoreWorkspace =>
    let w := { w with repository := w.repository.restoreHead git push.headBefore }
    some (w.goto (if restoreWorkspace then .restoreCompare push else .restoreLoad push))
  | .restoreCompare push =>
    if w.project.workspaceVersion = push.before.version + 1 then
      match (materializeMergeMapToDir (mergeMap push.before.content)).map
        (prepareRepoImport git w.project.projectType w.project.entryFilePath) with
      | some (.ok prepared) => some (w.goto (.restoreApply push w.project.workspaceVersion prepared))
      | _ => none
    else some (w.goto (.restoreLoad push))
  | .restoreApply push version prepared =>
    match applyRepoImport w.project (some version) prepared with
    | .error _ => none
    | .ok project => some <| (w.replace project push.before.absorbed).goto (.restoreLoad push)
  | .restoreLoad push =>
    some <| w.goto <|
      if w.pendingSync = some true then .flush .load (.rejected push) else .restoreSync push
  | .restoreSync push => w.syncToRepo.map fun w' => w'.goto (.restoreRecord push w.snapshot)
  | .restoreRecord push snapshot => some ((w.recordSync snapshot.version false).endPush push)

/-- Where an operation goes on when its next step fails. -/
def failed (w : World) : Session → World
  | .flush _ (.rejected push) => w.endPush push
  | .flush _ _ | .revision _ | .replaceInbound _ _ | .pushLoad | .pushCapture _ => w.release
  | .pushBackend push => w.goto (.pushReconcile push false)
  | .pushReconcile push _ => w.goto (.restoreHead push true)
  | .pushImport push _ | .pushMerge push _ => w.goto (.restoreHead push true)
  | .pushImportRecord push _ | .pushMergeSync push | .pushMergeRecord push _ _ =>
    w.goto (.restoreHead push true)
  | .restoreHead push _ | .restoreCompare push | .restoreApply push _ _ | .restoreLoad push
  | .restoreSync push | .restoreRecord push _ => w.endPush push

end World

/-- How the Git backend of a push ends. -/
inductive BackendOutcome
  | responded (success : Bool)
  | interrupted (index worktree : Tree)
deriving DecidableEq, Repr

inductive Action
  /-- A user commits a change, or has the collaboration persist or project updates. -/
  | edit (content : ProjectContent)
  | persistUpdate (update : Nat)
  | project (updates : List Nat) (content : ProjectContent)
  /-- `mark_repository_pending` and `ensure_repository` of a checkpoint. -/
  | markPending
  | ensureRepository
  /-- An operation takes the lock. -/
  | startFlush
  | startRevision
  | startPush
  | startInbound (prepared : PreparedRepoImport) (synced : Bool)
  /-- The operation that holds it takes a step, or fails in it with or without effect. -/
  | advance
  | backend (commits : List CommitObject) (head : Option Oid) (outcome : BackendOutcome)
  | fail (effective : Bool)
deriving DecidableEq, Repr

/-- The actions of those who do not take the lock. -/
def Action.isOthers : Action → Bool
  | .edit _ | .persistUpdate _ | .project _ _ | .markPending | .ensureRepository => true
  | _ => false

/-- Where an operation starts. -/
def Action.startedSession : Action → Option Session
  | .startFlush => some (.flush .load .release)
  | .startRevision => some (.revision .load)
  | .startPush => some .pushLoad
  | .startInbound prepared synced =>
    some <|
      if synced then .flush .load (.replaceInbound prepared) else .replaceInbound prepared false
  | _ => none

/-- What the users left is what the last of them left. -/
def Session.noteChange (content : ProjectContent) : Session → Session
  | .flush next (.rejected push) => .flush next (.rejected { push with latest := content })
  | .pushBackend push => .pushBackend { push with latest := content }
  | .pushReconcile push success => .pushReconcile { push with latest := content } success
  | .pushImport push prepared => .pushImport { push with latest := content } prepared
  | .pushImportRecord push version => .pushImportRecord { push with latest := content } version
  | .pushMerge push prepared => .pushMerge { push with latest := content } prepared
  | .pushMergeSync push => .pushMergeSync { push with latest := content }
  | .pushMergeRecord push snapshot isClean =>
    .pushMergeRecord { push with latest := content } snapshot isClean
  | .restoreHead push restoreWorkspace =>
    .restoreHead { push with latest := content } restoreWorkspace
  | .restoreCompare push => .restoreCompare { push with latest := content }
  | .restoreApply push version prepared =>
    .restoreApply { push with latest := content } version prepared
  | .restoreLoad push => .restoreLoad { push with latest := content }
  | .restoreSync push => .restoreSync { push with latest := content }
  | .restoreRecord push snapshot => .restoreRecord { push with latest := content } snapshot
  | session => session

namespace World

/-- A change by someone else, as the operation under way is to leave it. -/
def changeBy (w : World) (content : ProjectContent) : World :=
  { w.change content with session := w.session.map (Session.noteChange content) }

/-- The Git backend: it can move the branch to any commit, old or pushed. -/
def runBackend (git : GitLibrary) (w : World) (push : PushSession) (commits : List CommitObject)
    (head : Option Oid) : BackendOutcome → World
  | .responded success =>
    let moved := { w.repository with objects := w.repository.objects ++ commits, head }
    let repository :=
      if head = w.repository.head then { moved with head }
      else
        { moved with
          index := moved.headTree
          worktree := git.checkout w.repository.headTree moved.headTree w.repository.worktree }
    { w with repository }.goto (.pushReconcile push success)
  | .interrupted index worktree =>
    -- `recover_backend_failure`
    let repository :=
      { w.repository with objects := w.repository.objects ++ commits, head, index, worktree }
    let w' := { w with repository }
    if head = push.headBefore then w'.endPush push else w'.goto (.restoreHead push false)

def step (git : GitLibrary) (w : World) : Action → Option World
  | .edit content => if isStored content then some (w.changeBy content) else none
  | .persistUpdate update =>
    if update ∈ w.accepted then none
    else some { w with updates := w.updates ++ [update], accepted := w.accepted ++ [update] }
  | .project updates content =>
    if isStored content then
      let w' := w.changeBy content
      some { w' with
        updates := w.updates.filter (· ∉ updates)
        absorbed := w.absorbed ++ w.updates.filter (· ∈ updates) }
    else none
  | .markPending => some { w with pendingSync := w.pendingSync.map fun _ => true }
  | .ensureRepository => some { w with pendingSync := some (w.pendingSync.getD true) }
  | .startFlush =>
    if w.session.isNone then some (w.goto (.flush .load .release)) else none
  | .startRevision => if w.session.isNone then some (w.goto (.revision .load)) else none
  | .startPush => if w.session.isNone then some (w.goto .pushLoad) else none
  | .startInbound prepared synced =>
    if w.session.isNone && isStored prepared.content then
      some <| w.goto <|
        if synced then .flush .load (.replaceInbound prepared) else .replaceInbound prepared false
    else none
  | .advance => do w.advance git (← w.session)
  | .backend commits head outcome =>
    match w.session with
    | some (.pushBackend push) =>
      if head.all (· < w.repository.objects.length + commits.length) then
        some (w.runBackend git push commits head outcome)
      else none
    | _ => none
  | .fail effective => do
    let session ← w.session
    (if effective then w.advance git session else some w).map fun w' => w'.failed session

/-- A project whose repository nobody has asked for yet. -/
def initial (project : Project) : World :=
  ⟨project, none, .initialized, none, [], [], [], [], []⟩

end World

end Toss.Versioning
