import Toss.Versioning.Mirroring
import Toss.Versioning.SessionSteps

/-!
# What an operation knows of HEAD and the workspace

HEAD mirrors the workspace while nothing is pending. Between the steps of the operation
that holds the lock this takes a fact for every place it can stand at: what it has written
into the worktree, what it has committed, and which of the two a push has exchanged.

* `World.Settled`, `World.Sound` — the facts;
* `HeadGuard` — the steps that keep them;
* `Sound.drift` — what others do while an operation is under way keeps them as well.
-/

namespace Toss.Versioning

open Toss.Foundation Toss.Workspace

/-! ## Heads -/

namespace Repository

/-- The tree that a head shows. -/
def treeAt (repository : Repository) (head : Option Oid) : Tree :=
  ((head.bind repository.find).map CommitObject.tree).getD []

/-- The commit of a head is among the objects. -/
def Knows (repository : Repository) (head : Option Oid) : Prop :=
  ∀ oid ∈ head, oid < repository.objects.length

theorem headTree_eq (repository : Repository) :
    repository.headTree = repository.treeAt repository.head := rfl

variable {repository repository' : Repository} {head : Option Oid}

/-- New objects leave the tree of a known head alone. -/
theorem treeAt_append {commits : List CommitObject} (hknown : repository.Knows head)
    (hobjects : repository'.objects = repository.objects ++ commits) :
    repository'.treeAt head = repository.treeAt head := by
  cases head with
  | none => rfl
  | some oid =>
    have hoid := hknown oid rfl
    simp [treeAt, find, hobjects, List.getElem?_append_left hoid]

theorem Knows.append {commits : List CommitObject} (hknown : repository.Knows head)
    (hobjects : repository'.objects = repository.objects ++ commits) :
    repository'.Knows head := by
  intro oid hoid
  rw [hobjects, List.length_append]
  exact Nat.lt_add_right _ (hknown oid hoid)

theorem knows_commit (repository : Repository) (tree : Tree) :
    (repository.commit tree).Knows (repository.commit tree).head := by
  intro oid hoid
  simp only [commit, Option.mem_some_iff] at hoid
  simp [commit, ← hoid]

theorem knows_commitStagedIfChanged {git : GitLibrary} {repository : Repository}
    (h : repository.Knows repository.head) :
    (repository.commitStagedIfChanged git).Knows
      (repository.commitStagedIfChanged git).head := by
  unfold commitStagedIfChanged
  dsimp only
  split
  · exact h
  · exact knows_commit _ _

section

variable (git : GitLibrary) (repository : Repository)

@[simp] theorem head_restoreHead (target : Option Oid)
    : (repository.restoreHead git target).head = target := by
  cases target <;> rfl

@[simp] theorem objects_restoreHead (target : Option Oid) :
    (repository.restoreHead git target).objects = repository.objects := by
  cases target <;> rfl

@[simp] theorem head_checkoutBranch : (repository.checkoutBranch git).head = repository.head := by
  unfold checkoutBranch
  split <;> rfl

@[simp] theorem objects_checkoutBranch :
    (repository.checkoutBranch git).objects = repository.objects := by
  unfold checkoutBranch
  split <;> rfl

end

/-- The tree of a head depends on the objects alone. -/
theorem treeAt_congr (hobjects : repository'.objects = repository.objects) :
    repository'.treeAt head = repository.treeAt head := by
  cases head <;> simp [treeAt, find, hobjects]

end Repository

/-! ## The facts -/

/-- While nothing is pending, HEAD mirrors the workspace. -/
def World.Settled (w : World) : Prop :=
  w.pendingSync = some false → Mirrors w.repository.headTree w.project.content

/-- A content was read at a version, and nothing that counts has happened since. -/
structure World.Current (w : World) (version : Int) (content : ProjectContent) : Prop where
  le : version ≤ w.project.workspaceVersion
  content_eq : version = w.project.workspaceVersion → content = w.project.content
  settled : w.pendingSync = some false → version = w.project.workspaceVersion

/-- The worktree is what a snapshot was written as. -/
def World.Written (w : World) (snapshot : Snapshot) : Prop :=
  w.repository.worktree = fileTree (contentFiles snapshot.content)
    ∧ w.Current snapshot.version snapshot.content

/-- HEAD mirrors what was read at a version. -/
def World.Committed (w : World) (version : Int) (content : ProjectContent) : Prop :=
  Mirrors w.repository.headTree content ∧ w.Current version content

theorem World.Committed.isSettled {w : World} {version : Int} {content : ProjectContent}
    (h : w.Committed version content) : w.Settled := by
  intro hpending
  have hcontent := h.2.content_eq (h.2.settled hpending)
  exact hcontent ▸ h.1

/-- What a push relies on: while nothing is pending, the HEAD that it found mirrors the
workspace that it found. -/
structure World.PushSound (w : World) (push : PushSession) : Prop where
  merges : push.pendingSync = true → w.pendingSync = some true
  mirrored : w.pendingSync = some false →
    Mirrors (w.repository.treeAt push.headBefore) push.before.content
  stored : isStored push.before.content = true
  known : w.repository.Knows push.headBefore

/-- While nothing is pending, the workspace is the one that the push found. -/
def World.Unreplaced (w : World) (push : PushSession) : Prop :=
  w.pendingSync = some false →
    w.project.workspaceVersion = push.before.version ∧ w.project.content = push.before.content

/-- While nothing is pending, the workspace is one version ahead of what the push found. -/
def World.Replaced (w : World) (push : PushSession) : Prop :=
  w.pendingSync = some false → w.project.workspaceVersion = push.before.version + 1

def World.SoundFlush (w : World) : FlushStep → Prop
  | .load | .sync => w.Settled
  | .commit snapshot => w.Settled ∧ w.Written snapshot
  | .complete snapshot => w.Committed snapshot.version snapshot.content

/-- What an inbound job will insert can be stored. -/
def AfterFlush.IsStored : AfterFlush → Prop
  | .replaceInbound prepared => isStored prepared.content = true
  | .release | .rejected _ => True

/-- The facts, by where the operation under way stands. -/
def World.Sound (git : GitLibrary) (w : World) : Session → Prop
  | .flush next after => w.SoundFlush next ∧ after.IsStored
  | .revision next => w.SoundFlush next
  | .replaceInbound prepared _ => w.Settled ∧ isStored prepared.content = true
  | .pushLoad => w.Settled
  | .pushCapture pendingSync => w.Settled ∧ (pendingSync = true → w.pendingSync = some true)
  | .pushBackend push =>
    w.PushSound push ∧ w.Unreplaced push ∧ push.headBefore = w.repository.head
  | .pushReconcile push _ => w.PushSound push ∧ w.Unreplaced push
  | .pushImport push prepared =>
    w.PushSound push ∧ w.Unreplaced push ∧ ∃ projectType entryFilePath,
      prepareRepoImport git projectType entryFilePath
        (collectRepositoryFiles w.repository.worktree) = .ok prepared
  | .pushImportRecord push version =>
    w.PushSound push ∧ w.Replaced push ∧ ∃ content, w.Committed version content
  | .pushMerge push prepared =>
    w.PushSound push ∧ w.Unreplaced push ∧ push.pendingSync = true
      ∧ ∃ projectType entryFilePath files,
        prepareRepoImport git projectType entryFilePath files = .ok prepared
  | .pushMergeSync push => w.PushSound push ∧ push.pendingSync = true
  | .pushMergeRecord push snapshot isClean =>
    w.PushSound push ∧ push.pendingSync = true ∧ w.Written snapshot
      ∧ isClean = w.repository.worktreeIsClean git
  | .restoreHead push restoreWorkspace =>
    w.PushSound push ∧ (w.Unreplaced push ∨ (restoreWorkspace = true ∧ w.Replaced push))
  | .restoreCompare push =>
    w.PushSound push ∧ w.repository.head = push.headBefore
      ∧ (w.Unreplaced push ∨ w.Replaced push)
  | .restoreApply push _ prepared =>
    w.PushSound push ∧ w.repository.head = push.headBefore ∧ ∃ projectType entryFilePath files,
      materializeMergeMapToDir (mergeMap push.before.content) = some files
        ∧ prepareRepoImport git projectType entryFilePath files = .ok prepared
  | .restoreLoad _ | .restoreSync _ => w.Settled
  | .restoreRecord _ snapshot => w.Settled ∧ w.Written snapshot

/-- The invariant of every world. -/
structure World.Mirrored (git : GitLibrary) (w : World) : Prop where
  known : w.repository.Knows w.repository.head
  stored : isStored w.project.content = true
  idle : w.session = none → w.Settled
  session : ∀ session ∈ w.session, w.Sound git session

/-- Where a failure only ends the operation: no push stands between HEAD and the
workspace. -/
def Session.isCalm : Session → Bool
  | .flush _ _ | .revision _ | .replaceInbound _ _ | .pushLoad | .pushCapture _
  | .restoreLoad _ | .restoreSync _ | .restoreRecord _ _ => true
  | _ => false

/-- The snapshot whose commit has been made, and is to be recorded next. -/
def Session.committedSnapshot : Session → Option Snapshot
  | .flush (.complete snapshot) _ | .revision (.complete snapshot) => some snapshot
  | _ => none

/-! ## The guard -/

/-- Staging keeps every file of the worktree as it is, and none was written over another
on the way there. -/
def World.StagesWhole (git : GitLibrary) (w : World) (content : ProjectContent) : Prop :=
  HasDistinctPaths content
    ∧ SameEntries (git.stage w.repository.index w.repository.worktree) w.repository.worktree

instance (git : GitLibrary) (w : World) (content : ProjectContent) :
    Decidable (w.StagesWhole git content) :=
  inferInstanceAs (Decidable (_ ∧ _))

/-- What a step of an operation has to find for its effect to keep HEAD and the workspace
together. -/
def Session.Meets (git : GitLibrary) (w : World) : Session → Prop
  | .flush (.commit snapshot) _ => w.StagesWhole git snapshot.content
  | .revision (.commit snapshot) =>
    -- a commit that is allowed to be empty stages once more
    w.StagesWhole git snapshot.content
      ∧ World.StagesWhole git { w with repository := w.repository.commitStagedIfChanged git }
        snapshot.content
  | .pushMergeRecord _ snapshot isClean =>
    isClean = true → snapshot.version = w.project.workspaceVersion →
      w.StagesWhole git snapshot.content
  | .pushImport push _ =>
    push.before.version = w.project.workspaceVersion →
      IsPlain w.repository.worktree
        ∧ SameEntries w.repository.worktree w.repository.headTree
  | .restoreRecord _ snapshot =>
    -- an edit has set the flag since it was read
    w.pendingSync = some true → snapshot.version = w.project.workspaceVersion →
      HasDistinctPaths snapshot.content
        ∧ SameEntries w.repository.worktree w.repository.headTree
  | _ => True

/-- Where a step of an operation may fail: not in a recovery that finds nothing pending,
and not behind the transaction that cleared the flag. -/
def Session.MayFail (w : World) (effective : Bool) : Session → Prop
  | .pushImportRecord _ version =>
    effective = true → w.pendingSync = some true → version ≠ w.project.workspaceVersion
  | .pushMergeRecord _ snapshot isClean =>
    effective = true → isClean = true → snapshot.version ≠ w.project.workspaceVersion
  | .restoreHead _ _ | .restoreCompare _ | .restoreApply _ _ _ => w.pendingSync = some true
  | _ => True

instance (git : GitLibrary) (w : World) (session : Session) :
    Decidable (session.Meets git w) := by
  unfold Session.Meets
  split <;> infer_instance

instance (w : World) (effective : Bool) (session : Session) :
    Decidable (session.MayFail w effective) := by
  unfold Session.MayFail
  split <;> infer_instance

/-- The steps that keep HEAD and the workspace together. -/
def HeadGuard (git : GitLibrary) (w : World) : Action → Prop
  | .advance => ∀ session ∈ w.session, session.Meets git w
  | .fail effective =>
    ∀ session ∈ w.session,
      (effective = true → session.Meets git w) ∧ session.MayFail w effective
  | _ => True

instance (git : GitLibrary) (w : World) (action : Action) :
    Decidable (HeadGuard git w action) := by
  unfold HeadGuard
  split <;> infer_instance

/-! ## What others do -/

namespace World

variable {git : GitLibrary} {w w' : World} {push : PushSession}

theorem Settled.drift (hw : w.Settled) (h : w.Drifts w') : w'.Settled := by
  intro hpending
  rcases h.unchanged hpending with ⟨hbefore, hproject⟩
  rw [h.repository, hproject]
  exact hw hbefore

variable {content : ProjectContent}

theorem Current.drift {version : Int} (hw : w.Current version content)
    (h : w.Drifts w') : w'.Current version content := by
  constructor
  · rcases h.moved with ⟨hproject, -⟩ | ⟨-, hle, -⟩
    · rw [hproject]
      exact hw.le
    · exact hw.le.trans hle
  · intro hversion
    rcases h.moved with ⟨hproject, -⟩ | ⟨-, hle, heq⟩
    · rw [hproject] at hversion ⊢
      exact hw.content_eq hversion
    -- the version has not moved, so neither has the content
    have hsame := heq (le_antisymm (hversion ▸ hw.le) hle)
    rw [hsame] at hversion ⊢
    exact hw.content_eq hversion
  · intro hpending
    rcases h.unchanged hpending with ⟨hbefore, hproject⟩
    rw [hproject]
    exact hw.settled hbefore

theorem Written.drift {snapshot : Snapshot} (hw : w.Written snapshot) (h : w.Drifts w') :
    w'.Written snapshot :=
  ⟨by rw [h.repository]; exact hw.1, hw.2.drift h⟩

theorem Committed.drift {version : Int}
    (hw : w.Committed version content) (h : w.Drifts w') : w'.Committed version content :=
  ⟨by rw [h.repository]; exact hw.1, hw.2.drift h⟩

theorem SoundFlush.drift {next : FlushStep} (hw : w.SoundFlush next) (h : w.Drifts w') :
    w'.SoundFlush next := by
  cases next with
  | load | sync => exact Settled.drift hw h
  | commit snapshot => exact ⟨Settled.drift hw.1 h, Written.drift hw.2 h⟩
  | complete snapshot => exact Committed.drift hw h

theorem PushSound.drift (hw : w.PushSound push) (h : w.Drifts w') : w'.PushSound push := by
  constructor
  · exact fun hmerges => h.pending (hw.merges hmerges)
  · intro hpending
    rw [h.repository]
    exact hw.mirrored (h.unchanged hpending).1
  · exact hw.stored
  · rw [h.repository]
    exact hw.known

theorem Unreplaced.drift (hw : w.Unreplaced push) (h : w.Drifts w') : w'.Unreplaced push := by
  intro hpending
  rcases h.unchanged hpending with ⟨hbefore, hproject⟩
  rw [hproject]
  exact hw hbefore

theorem Replaced.drift (hw : w.Replaced push) (h : w.Drifts w') : w'.Replaced push := by
  intro hpending
  rcases h.unchanged hpending with ⟨hbefore, hproject⟩
  rw [hproject]
  exact hw hbefore

/-- What an operation relies on survives what others do. -/
theorem Sound.drift {session : Session} (hw : w.Sound git session) (h : w.Drifts w') :
    w'.Sound git session := by
  cases session with
  | flush next after => exact ⟨SoundFlush.drift hw.1 h, hw.2⟩
  | revision next => exact SoundFlush.drift hw h
  | replaceInbound prepared synced => exact ⟨Settled.drift hw.1 h, hw.2⟩
  | pushLoad | restoreLoad push | restoreSync push => exact Settled.drift hw h
  | pushCapture pendingSync =>
    exact ⟨Settled.drift hw.1 h, fun hcaptured => h.pending (hw.2 hcaptured)⟩
  | pushBackend push | pushImport push prepared =>
    refine ⟨hw.1.drift h, Unreplaced.drift hw.2.1 h, ?_⟩
    rw [h.repository]
    exact hw.2.2
  | pushReconcile push success => exact ⟨hw.1.drift h, Unreplaced.drift hw.2 h⟩
  | pushImportRecord push version =>
    rcases hw with ⟨hpush, hreplaced, content, hcommitted⟩
    exact ⟨hpush.drift h, Replaced.drift hreplaced h, content, Committed.drift hcommitted h⟩
  | pushMerge push prepared =>
    exact ⟨hw.1.drift h, Unreplaced.drift hw.2.1 h, hw.2.2⟩
  | pushMergeSync push => exact ⟨hw.1.drift h, hw.2⟩
  | pushMergeRecord push snapshot isClean =>
    rcases hw with ⟨hpush, hmerges, hwritten, hclean⟩
    exact ⟨hpush.drift h, hmerges, Written.drift hwritten h, by rw [h.repository]; exact hclean⟩
  | restoreHead push restoreWorkspace =>
    refine ⟨hw.1.drift h, ?_⟩
    rcases hw.2 with hunreplaced | ⟨hrestore, hreplaced⟩
    · exact .inl (Unreplaced.drift hunreplaced h)
    · exact .inr ⟨hrestore, Replaced.drift hreplaced h⟩
  | restoreCompare push =>
    refine ⟨hw.1.drift h, by rw [h.repository]; exact hw.2.1, ?_⟩
    rcases hw.2.2 with hunreplaced | hreplaced
    · exact .inl (Unreplaced.drift hunreplaced h)
    · exact .inr (Replaced.drift hreplaced h)
  | restoreApply push version prepared =>
    exact ⟨hw.1.drift h, by rw [h.repository]; exact hw.2.1, hw.2.2⟩
  | restoreRecord push snapshot => exact ⟨Settled.drift hw.1 h, Written.drift hw.2 h⟩

theorem PushSound.withLatest (hw : w.PushSound push) (content : ProjectContent) :
    w.PushSound { push with latest := content } :=
  ⟨hw.merges, hw.mirrored, hw.stored, hw.known⟩

/-- What the users left last is not among the facts. -/
theorem Sound.noteChange {session : Session}
    (hw : w.Sound git session) : w.Sound git (session.noteChange content) := by
  cases session with
  | flush next after => cases after <;> exact hw
  | pushBackend push | pushReconcile push success | pushImport push prepared
  | pushImportRecord push version | pushMerge push prepared | pushMergeSync push
  | pushMergeRecord push snapshot isClean | restoreHead push restoreWorkspace
  | restoreCompare push | restoreApply push version prepared =>
    exact ⟨hw.1.withLatest content, hw.2⟩
  | _ => exact hw

end World

end Toss.Versioning
