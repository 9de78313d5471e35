import Toss.Foundation.Run
import Toss.Versioning.HeadSteps

/-!
# HEAD mirrors the workspace

Whenever nothing is pending and no push stands between HEAD and the workspace, HEAD holds
the documents and assets.

* `Mirrored.step` — every step under the guard keeps the invariant;
* `head_mirrors` — every run under the guard;
* `ignored_file_is_not_committed` — a run that is not.
-/

namespace Toss.Versioning

open Toss.Foundation Toss.Workspace

namespace World

variable {git : GitLibrary} {w w' : World} {push : PushSession} {session : Session}

/-! ## The Git backend -/

theorem Mirrored.backend {commits : List CommitObject} {head : Option Oid}
    {outcome : BackendOutcome} (h : w.Mirrored git) (hsession : w.session = some (.pushBackend push))
    (hhead : ∀ oid ∈ head, oid < w.repository.objects.length + commits.length) :
    (w.runBackend git push commits head outcome).Mirrored git := by
  rcases h.session _ hsession with ⟨hpush, hunreplaced, -⟩
  -- whatever the backend did, the objects have only grown
  have hmoved : ∀ w' : World, w'.repository.objects = w.repository.objects ++ commits →
      w'.pendingSync = w.pendingSync → w'.PushSound push := by
    intro w' hobjects hpending
    constructor
    · intro hmerges
      rw [hpending]
      exact hpush.merges hmerges
    · intro hnone
      rw [Repository.treeAt_append hpush.known hobjects]
      exact hpush.mirrored (hpending ▸ hnone)
    · exact hpush.stored
    · exact hpush.known.append hobjects
  have hknown : ∀ repository : Repository,
      repository.objects = w.repository.objects ++ commits → repository.Knows head := by
    intro repository hobjects oid hoid
    rw [hobjects, List.length_append]
    exact hhead oid hoid
  cases outcome with
  | responded success =>
    simp only [runBackend]
    split
    · exact Mirrored.goto (hknown _ rfl) h.stored ⟨hmoved _ rfl rfl, hunreplaced⟩
    · exact Mirrored.goto (hknown _ rfl) h.stored ⟨hmoved _ rfl rfl, hunreplaced⟩
  | interrupted index worktree =>
    let objects := w.repository.objects ++ commits
    let moved : World :=
      { w with repository := { w.repository with objects, head, index, worktree } }
    show (if head = push.headBefore then moved.endPush push
      else moved.goto (.restoreHead push false)).Mirrored git
    have hpush' : moved.PushSound push := hmoved moved rfl rfl
    split
    · next hsame =>
      refine Mirrored.endPush (w := moved) (hknown _ rfl) h.stored ?_ push
      refine hpush'.settled_of_head hunreplaced ?_
      rw [Repository.headTree_eq, ← hsame]
    · exact Mirrored.goto (hknown _ rfl) h.stored ⟨hpush', .inl hunreplaced⟩

/-! ## Every step -/

/-- Someone who does not hold the lock takes a step. -/
theorem Mirrored.drift (h : w.Mirrored git) (hdrift : w.Drifts w')
    (hstored : isStored w'.project.content = true)
    (hsession : w'.session = w.session
      ∨ ∃ content, w'.session = w.session.map (Session.noteChange content)) :
    w'.Mirrored git := by
  constructor
  · rw [hdrift.repository]
    exact h.known
  · exact hstored
  · intro hidle
    refine Settled.drift (h.idle ?_) hdrift
    rcases hsession with hsame | ⟨content, hmap⟩
    · rw [← hsame]
      exact hidle
    · rw [hmap, Option.map_eq_none_iff] at hidle
      exact hidle
  · intro session hmem
    rcases hsession with hsame | ⟨content, hmap⟩
    · exact (h.session session (hsame ▸ hmem)).drift hdrift
    · rw [hmap, Option.mem_def, Option.map_eq_some_iff] at hmem
      rcases hmem with ⟨before, hbefore, rfl⟩
      exact (h.session before hbefore).noteChange.drift hdrift

theorem Mirrored.start {action : Action} (h : w.Mirrored git)
    (hstart : action.startedSession = some session) (hstep : w.step git action = some w') :
    w'.Mirrored git := by
  rcases step_start hstart hstep with ⟨hidle, rfl⟩
  have hsettled := h.idle hidle
  cases action with
  | startFlush =>
    cases hstart
    exact Mirrored.goto h.known h.stored ⟨hsettled, trivial⟩
  | startRevision | startPush =>
    cases hstart
    exact Mirrored.goto h.known h.stored hsettled
  | startInbound prepared synced =>
    have hstored : isStored prepared.content = true := by
      simp only [World.step] at hstep
      split at hstep
      · next hfree =>
        simp only [Bool.and_eq_true] at hfree
        exact hfree.2
      · simp at hstep
    cases hstart
    refine Mirrored.goto h.known h.stored ?_
    split
    · exact ⟨hsettled, hstored⟩
    · exact ⟨hsettled, hstored⟩
  | _ => simp [Action.startedSession] at hstart

theorem Mirrored.step {action : Action} (h : w.Mirrored git) (hguard : HeadGuard git w action)
    (hstep : w.step git action = some w') : w'.Mirrored git := by
  rcases isOthers_or_starts action with hothers | ⟨session, hstart⟩ | rfl | ⟨effective, rfl⟩
    | ⟨commits, head, outcome, rfl⟩
  · rcases step_others hothers hstep with ⟨hdrift, hstored, hsession⟩
    exact h.drift hdrift (hstored h.stored) hsession
  · exact h.start hstart hstep
  · rcases Option.bind_eq_some_iff.mp hstep with ⟨session, hsession, hadvance⟩
    exact Mirrored.advance h.known h.stored (h.session session hsession)
      (hguard session hsession) hadvance
  · rcases Option.bind_eq_some_iff.mp hstep with ⟨session, hsession, hfail⟩
    rcases Option.map_eq_some_iff.mp hfail with ⟨failed, hadvance, rfl⟩
    rcases hguard session hsession with ⟨hmeets, hmay⟩
    exact h.raise hsession hmeets hmay hadvance
  · rcases step_backend hstep with ⟨push, hsession, hhead, rfl⟩
    exact h.backend hsession hhead

theorem mirrored_initial {project : Project} (hproject : isStored project.content = true) :
    (World.initial project).Mirrored git := by
  refine ⟨?_, hproject, ?_, ?_⟩
  · simp [World.initial, Repository.initialized, Repository.Knows]
  · intro _ hpending
    simp [World.initial] at hpending
  · simp [World.initial]

/-! ## Where the flag is cleared -/

/-- A statement sets the flag, leaves it, or records the version of the workspace. -/
def FlagStep (w w' : World) (session : Session) : Prop :=
  w'.pendingSync = w.pendingSync ∨ w'.pendingSync = some true
    ∨ session.recordedVersion = some w.project.workspaceVersion

theorem FlagStep.recordSync {version : Int} {pendingSync : Bool}
    (hrecorded : session.recordedVersion = some version)
    (h : w'.pendingSync = (w.recordSync version pendingSync).pendingSync) :
    FlagStep w w' session := by
  rcases w.recordSync_cases version pendingSync with hsame | ⟨hversion, -⟩
  · exact .inl (by rw [h, hsame])
  · exact .inr (.inr (by rw [hrecorded, hversion]))

theorem pendingSync_syncToRepo (h : w.syncToRepo = some w') : w'.pendingSync = w.pendingSync :=
  (syncToRepo_some h).1.pendingSync

theorem flagStep_advance (h : w.advance git session = some w') : FlagStep w w' session := by
  rcases advance_cases h with ⟨moved, hmoved, hleads⟩
  have hflag : w'.pendingSync = moved.pendingSync := by cases hleads <;> rfl
  cases hmoved with
  | same | checkout | flushed | revised | reset => exact .inl hflag
  | synced _ hsync => exact .inl (hflag.trans (pendingSync_syncToRepo hsync))
  | recorded _ hrecorded => exact FlagStep.recordSync hrecorded hflag
  | replaced _ _ hpending =>
    rcases hpending with rfl | rfl
    · exact .inl hflag
    · exact .inr (.inl hflag)

theorem pendingSync_failed (w : World) (session : Session) :
    (w.failed session).pendingSync = w.pendingSync := by
  cases session with
  | flush next after => cases after <;> rfl
  | _ => rfl

theorem pendingSync_runBackend (git : GitLibrary) (w : World) (push : PushSession)
    (commits : List CommitObject) (head : Option Oid) (outcome : BackendOutcome) :
    (w.runBackend git push commits head outcome).pendingSync = w.pendingSync := by
  cases outcome with
  | responded success => rfl
  | interrupted index worktree =>
    simp only [runBackend]
    split <;> rfl

/-- The flag is cleared for the version of the workspace alone. -/
theorem pendingSync_cleared {action : Action} (hstep : w.step git action = some w')
    (hpending : w.pendingSync = some true) (hcleared : w'.pendingSync = some false) :
    ∃ session ∈ w.session, session.recordedVersion = some w.project.workspaceVersion := by
  have hkept : w'.pendingSync = w.pendingSync → False := by
    intro hsame
    rw [hsame, hpending] at hcleared
    exact absurd hcleared (by decide)
  have hflag : ∀ session, session ∈ w.session → FlagStep w w' session →
      ∃ session ∈ w.session, session.recordedVersion = some w.project.workspaceVersion := by
    intro session hsession hstep
    rcases hstep with hsame | hset | hrecorded
    · exact (hkept hsame).elim
    · rw [hset] at hcleared
      exact absurd hcleared (by decide)
    · exact ⟨session, hsession, hrecorded⟩
  rcases isOthers_or_starts action with hothers | ⟨session, hstart⟩ | rfl | ⟨effective, rfl⟩
    | ⟨commits, head, outcome, rfl⟩
  · exact (hkept (((step_others hothers hstep).1.pending hpending).trans hpending.symm)).elim
  · rcases step_start hstart hstep with ⟨-, rfl⟩
    exact (hkept rfl).elim
  · rcases Option.bind_eq_some_iff.mp hstep with ⟨session, hsession, hadvance⟩
    exact hflag session hsession (flagStep_advance hadvance)
  · rcases Option.bind_eq_some_iff.mp hstep with ⟨session, hsession, hfail⟩
    rcases Option.map_eq_some_iff.mp hfail with ⟨failed, hadvance, rfl⟩
    refine hflag session hsession ?_
    unfold FlagStep
    rw [pendingSync_failed]
    cases effective with
    | false =>
      cases hadvance
      exact .inl rfl
    | true => exact flagStep_advance hadvance
  · rcases step_backend hstep with ⟨push, -, -, rfl⟩
    exact (hkept (pendingSync_runBackend _ _ _ _ _ _)).elim

end World

/-! ## Whole runs -/

/-- In a run that keeps HEAD and the workspace together, HEAD mirrors the workspace whenever
nothing is pending and no push is being reconciled. A commit of the workspace holds what was
materialized, and the flag is cleared for the version that was. -/
theorem head_mirrors {git : GitLibrary} {project : Project} {w : World} {actions : List Action}
    (hproject : isStored project.content = true)
    (hrun : Run (Guarded (HeadGuard git) fun w action w' => w.step git action = some w')
      (World.initial project) actions w) :
    ((∀ session ∈ w.session, session.isReconciling = false) → w.pendingSync = some false →
        Mirrors w.repository.headTree w.project.content)
      ∧ (∀ session ∈ w.session, ∀ snapshot ∈ session.committedSnapshot,
        Mirrors w.repository.headTree snapshot.content)
      ∧ ∀ action w', w.step git action = some w' →
        w.pendingSync = some true → w'.pendingSync = some false →
        ∃ session ∈ w.session, session.recordedVersion = some w.project.workspaceVersion := by
  have hinv : w.Mirrored git :=
    hrun.invariant_of_guard (fun s a t hs hguard hstep => hs.step hguard hstep)
      (World.mirrored_initial hproject)
  refine ⟨hinv.isSettled, ?_, fun action w' => World.pendingSync_cleared⟩
  intro session hsession snapshot hsnapshot
  have hsound := hinv.session session hsession
  unfold Session.committedSnapshot at hsnapshot
  split at hsnapshot
  · cases hsnapshot
    exact hsound.1.1
  · cases hsnapshot
    exact hsound.1
  · simp at hsnapshot

/-! ### A file that Git ignores -/

/-- The names that the ignore file of a worktree lists, one in a line. -/
def ignoredNames (worktree : Tree) : List Bytes :=
  match worktree.lookup (encodeUtf8 ['.', 'g', 'i', 't', 'i', 'g', 'n', 'o', 'r', 'e']) with
  | some file => file.bytes.splitOn 0x0A
  | none => []

/-- Git over files at the top of the repository, ignore files of plain names, clean
worktrees, and texts that do not merge. -/
def plainGit : GitLibrary where
  stage index worktree :=
    let ignored := ignoredNames worktree
    worktree.filter fun entry => (index.lookup entry.1).isSome || entry.1 ∉ ignored
  checkoutHead _ index worktree := (index, worktree)
  checkout _ tree _ := tree
  reset tree _ := tree
  mergeFile _ _ _ := none
  contentType _ := ['a', 'p', 'p']

def mainFile : Text := ['m', 'a', 'i', 'n', '.', 't', 'y', 'p']

/-- A project with one document. -/
def oneDocument : Project := ⟨.typst, 0, 0, ⟨[⟨mainFile, ['x']⟩], [], [], none⟩⟩

/-- The same with a document that the document `.gitignore` names. -/
def withIgnored : ProjectContent :=
  ⟨[⟨mainFile, ['x']⟩,
    ⟨['.', 'g', 'i', 't', 'i', 'g', 'n', 'o', 'r', 'e'], ['a', '.', 'l', 'o', 'g']⟩,
    ⟨['a', '.', 'l', 'o', 'g'], ['y']⟩], [], [], none⟩

/-- A change is flushed. -/
def editAndFlush (content : ProjectContent) : List Action :=
  [.edit content, .startFlush] ++ List.replicate 4 .advance

theorem ignored_file_is_not_committed :
    ¬ ∀ (git : GitLibrary) (project : Project) (w : World) (actions : List Action),
      isStored project.content = true →
      Run (fun w action w' => w.step git action = some w') (World.initial project) actions w →
        w.session = none → w.pendingSync = some false →
          Mirrors w.repository.headTree w.project.content := by
  intro hclaim
  let w := (exec (World.step plainGit) (World.initial oneDocument)
    (editAndFlush withIgnored)).getD (World.initial oneDocument)
  have hexec : exec (World.step plainGit) (World.initial oneDocument) (editAndFlush withIgnored)
      = some w := eq_some_getD (by decide +kernel) _
  have hidle : w.session = none := by decide +kernel
  have hpending : w.pendingSync = some false := by decide +kernel
  have hmirrors := hclaim _ _ _ _ (by decide +kernel) (exec_run hexec) hidle hpending
  have hmissing : ¬ Mirrors w.repository.headTree w.project.content := by decide +kernel
  exact hmissing hmirrors

/-- An edit is flushed, and a push of another text is imported. -/
def flushAndPush : List Action :=
  editAndFlush oneDocument.content
    ++ [.startPush, .advance, .advance,
      .backend [⟨fileTree [(mainFile, encodeUtf8 ['z'])], [0]⟩] (some 1) (.responded true),
      .advance, .advance, .advance]

theorem pushed_text_is_mirrored :
    ∃ w : World, w.session = none ∧ w.pendingSync = some false
      ∧ w.project.content.documents = [⟨mainFile, ['z']⟩]
      ∧ Mirrors w.repository.headTree w.project.content := by
  have hexec : exec (fun w action => if HeadGuard plainGit w action then w.step plainGit action
      else none) (World.initial oneDocument) flushAndPush = some _ :=
    eq_some_getD (by decide +kernel) (World.initial oneDocument)
  have hrun := head_mirrors (by decide +kernel) (exec_guarded_run hexec)
  refine ⟨_, ?_, ?_, ?_, hrun.1 ?_ ?_⟩
  · decide +kernel
  · decide +kernel
  · decide +kernel
  · decide +kernel
  · decide +kernel

end Toss.Versioning
