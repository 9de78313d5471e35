import Toss.Versioning.Sessions

/-!
# What a step can do

The shape of every step, said once: what those who do not hold the lock leave, where an
operation starts, and where each of its steps leads.

* `World.Drifts`, `step_others` — the steps of others;
* `step_start`, `step_backend` — starts, and the Git backend;
* `World.Moved`, `Session.leadsTo`, `advance_cases` — what a step of an operation does, and where
  it leads;
* `forall_session_step` — the rule for what holds of the operation under way.
-/

namespace Toss.Versioning

open Toss.Foundation Toss.Workspace

/-! ## Statements -/

namespace World

variable {git : GitLibrary} {w w' : World} {push : PushSession} {session : Session}

/-- The statement that records a synchronization leaves all but the flag alone. -/
theorem recordSync_cases (w : World) (version : Int) (pendingSync : Bool) :
    w.recordSync version pendingSync = w
      ∨ (version = w.project.workspaceVersion
        ∧ w.recordSync version pendingSync
          = { w with pendingSync := w.pendingSync.map fun _ => pendingSync }) := by
  unfold recordSync
  split
  · next h => exact .inr ⟨h.symm, rfl⟩
  · exact .inl rfl

@[simp] theorem repository_recordSync (w : World) (version : Int) (pendingSync : Bool) :
    (w.recordSync version pendingSync).repository = w.repository := by
  unfold recordSync
  split <;> rfl

@[simp] theorem project_recordSync (w : World) (version : Int) (pendingSync : Bool) :
    (w.recordSync version pendingSync).project = w.project := by
  unfold recordSync
  split <;> rfl

/-- What is reconciled is read, not written. -/
theorem reconcile_eq (git : GitLibrary) (w : World) (push : PushSession) (success : Bool) :
    ∃ session, w.reconcile git push success = { w with session } := by
  unfold World.reconcile
  dsimp only
  split
  · exact ⟨none, rfl⟩
  split
  · exact ⟨_, rfl⟩
  split
  · split
    · exact ⟨_, rfl⟩
    split <;> exact ⟨_, rfl⟩
  · split <;> exact ⟨_, rfl⟩

end World

/-! ## What others do -/

/-- Others have changed nothing, or the flag is set. -/
structure World.Drifts (w w' : World) : Prop where
  repository : w'.repository = w.repository
  moved : (w'.project = w.project ∧ w'.pendingSync = w.pendingSync)
    ∨ (w'.pendingSync = some true ∧ w.project.workspaceVersion ≤ w'.project.workspaceVersion
      ∧ (w'.project.workspaceVersion = w.project.workspaceVersion → w'.project = w.project))

namespace World

variable {git : GitLibrary} {w w' : World} {push : PushSession} {session : Session}

/-- A set flag is kept. -/
theorem Drifts.pending (h : w.Drifts w') (hpending : w.pendingSync = some true) :
    w'.pendingSync = some true := by
  rcases h.moved with ⟨-, hsame⟩ | ⟨hset, -⟩
  · rwa [hsame]
  · exact hset

/-- While nothing is pending, nothing has changed. -/
theorem Drifts.unchanged (h : w.Drifts w') (hpending : w'.pendingSync = some false) :
    w.pendingSync = some false ∧ w'.project = w.project := by
  rcases h.moved with ⟨hproject, hsame⟩ | ⟨hset, -⟩
  · exact ⟨hsame ▸ hpending, hproject⟩
  · rw [hset] at hpending
    exact absurd hpending (by decide)

/-- The version does not go back. -/
theorem Drifts.version_le (h : w.Drifts w') :
    w.project.workspaceVersion ≤ w'.project.workspaceVersion := by
  rcases h.moved with ⟨hproject, -⟩ | ⟨-, hforward, -⟩
  · rw [hproject]
  · exact hforward

/-- A world that differs in where its operation stands. -/
theorem drifts_goto (w : World) (session : Option Session) :
    w.Drifts { w with session } :=
  ⟨rfl, .inl ⟨rfl, rfl⟩⟩

theorem drifts_changeBy (w : World) (content : ProjectContent) : w.Drifts (w.changeBy content) := by
  refine ⟨rfl, .inr ⟨rfl, ?_, ?_⟩⟩
  · show w.project.workspaceVersion ≤ w.project.workspaceVersion + 1
    omega
  · intro hversion
    have hsame : w.project.workspaceVersion + 1 = w.project.workspaceVersion := hversion
    omega

variable {action : Action}

section

variable (hothers : action.isOthers = true) (hstep : w.step git action = some w')
include hothers hstep

/-- What those who do not take the lock leave. -/
theorem step_others :
    w.Drifts w' ∧ (isStored w.project.content = true → isStored w'.project.content = true)
      ∧ (w'.session = w.session
        ∨ ∃ content, w'.session = w.session.map (Session.noteChange content)) := by
  cases action with
  | edit content =>
    simp only [World.step] at hstep
    split at hstep
    · next hstored =>
      cases hstep
      exact ⟨w.drifts_changeBy content, fun _ => hstored, .inr ⟨content, rfl⟩⟩
    · simp at hstep
  | persistUpdate update =>
    simp only [World.step] at hstep
    split at hstep
    · simp at hstep
    · cases hstep
      exact ⟨⟨rfl, .inl ⟨rfl, rfl⟩⟩, id, .inl rfl⟩
  | project updates content =>
    simp only [World.step] at hstep
    split at hstep
    · next hstored =>
      cases hstep
      have hdrift := w.drifts_changeBy content
      exact ⟨⟨hdrift.repository, hdrift.moved⟩, fun _ => hstored, .inr ⟨content, rfl⟩⟩
    · simp at hstep
  | markPending =>
    cases hstep
    refine ⟨⟨rfl, ?_⟩, id, .inl rfl⟩
    rcases hpending : w.pendingSync with _ | pending
    · exact .inl ⟨rfl, by simp⟩
    · exact .inr ⟨by simp, le_refl _, fun _ => rfl⟩
  | ensureRepository =>
    cases hstep
    refine ⟨⟨rfl, ?_⟩, id, .inl rfl⟩
    rcases hpending : w.pendingSync with _ | pending
    · exact .inr ⟨by simp, le_refl _, fun _ => rfl⟩
    · exact .inl ⟨rfl, by simp⟩
  | _ => simp [Action.isOthers] at hothers

/-- Others leave the project and the operation alone, or commit a change of the content. -/
theorem others_cases : w'.outcomes = w.outcomes ∧ ((w'.project = w.project ∧ w'.session = w.session)
        ∨ ∃ content, w'.project = (w.changeBy content).project
          ∧ w'.session = (w.changeBy content).session
          ∧ (action = .edit content ∨ ∃ updates, action = .project updates content)) := by
  cases action with
  | edit content =>
    simp only [World.step] at hstep
    split at hstep
    · cases hstep
      exact ⟨rfl, .inr ⟨content, rfl, rfl, .inl rfl⟩⟩
    · simp at hstep
  | project updates content =>
    simp only [World.step] at hstep
    split at hstep
    · cases hstep
      exact ⟨rfl, .inr ⟨content, rfl, rfl, .inr ⟨updates, rfl⟩⟩⟩
    · simp at hstep
  | persistUpdate update =>
    simp only [World.step] at hstep
    split at hstep
    · simp at hstep
    · cases hstep
      exact ⟨rfl, .inl ⟨rfl, rfl⟩⟩
  | markPending | ensureRepository =>
    cases hstep
    exact ⟨rfl, .inl ⟨rfl, rfl⟩⟩
  | _ => simp [Action.isOthers] at hothers

/-- Others leave the content alone, or commit a change of it. -/
theorem content_others : w'.project = w.project ∨ ∃ content, w'.project.content = content
        ∧ (action = .edit content ∨ ∃ updates, action = .project updates content) := by
  rcases (others_cases hothers hstep).2 with ⟨hproject, -⟩ | ⟨content, hproject, -, haction⟩
  · exact .inl hproject
  · exact .inr ⟨content, congrArg Project.content hproject, haction⟩

end

/-- An operation starts when none is under way. -/
theorem step_start (hstart : action.startedSession = some session)
    (hstep : w.step git action = some w') : w.session = none ∧ w' = w.goto session := by
  cases action with
  | startFlush | startRevision | startPush =>
    simp only [World.step] at hstep
    split at hstep
    · next hfree =>
      cases hstart
      exact ⟨Option.isNone_iff_eq_none.mp hfree, (Option.some.inj hstep).symm⟩
    · simp at hstep
  | startInbound prepared synced =>
    simp only [World.step] at hstep
    split at hstep
    · next hfree =>
      simp only [Bool.and_eq_true, Option.isNone_iff_eq_none] at hfree
      cases hstart
      exact ⟨hfree.1, (Option.some.inj hstep).symm⟩
    · simp at hstep
  | _ => simp [Action.startedSession] at hstart

/-- The Git backend runs for a push. -/
theorem step_backend {commits : List CommitObject} {head : Option Oid} {outcome : BackendOutcome}
    (hstep : w.step git (.backend commits head outcome) = some w') :
    ∃ push, w.session = some (.pushBackend push)
      ∧ (∀ oid ∈ head, oid < w.repository.objects.length + commits.length)
      ∧ w' = w.runBackend git push commits head outcome := by
  simp only [World.step] at hstep
  split at hstep
  · next push hsession =>
    split at hstep
    · next hhead =>
      refine ⟨push, hsession, ?_, (Option.some.inj hstep).symm⟩
      rintro oid rfl
      simpa using hhead
    · simp at hstep
  · simp at hstep

/-- An action is one of others, starts an operation, or is a step of the one under way. -/
theorem isOthers_or_starts (action : Action) :
    action.isOthers = true ∨ (∃ session, action.startedSession = some session)
      ∨ action = .advance ∨ (∃ effective, action = .fail effective)
      ∨ ∃ commits head outcome, action = .backend commits head outcome := by
  cases action with
  | edit | persistUpdate | project | markPending | ensureRepository => exact .inl rfl
  | startFlush | startRevision | startPush | startInbound => exact .inr (.inl ⟨_, rfl⟩)
  | advance => exact .inr (.inr (.inl rfl))
  | fail effective => exact .inr (.inr (.inr (.inl ⟨effective, rfl⟩)))
  | backend commits head outcome => exact .inr (.inr (.inr (.inr ⟨commits, head, outcome, rfl⟩)))

end World

/-! ## The order of the steps -/

/-- Where a step that goes through can lead. -/
def Session.leadsTo : Session → Session → Bool
  | .flush _ after, .flush _ after' => after = after'
  | .flush _ (.replaceInbound prepared), .replaceInbound prepared' synced =>
    prepared = prepared' && synced
  | .revision _, .revision _ => true
  | .replaceInbound _ _, .flush .load .release => true
  | .pushLoad, .pushCapture _ => true
  | .pushCapture pendingSync, .pushBackend push => pendingSync = push.pendingSync
  | .pushReconcile push _, .restoreHead push' _ => push = push'
  | .pushReconcile push _, .pushImport push' _ => push = push'
  | .pushReconcile push _, .pushMerge push' _ => push = push'
  | .pushImport push _, .restoreHead push' _ => push = push'
  | .pushImport push _, .pushImportRecord push' _ => push = push'
  | .pushMerge push _, .restoreHead push' _ => push = push'
  | .pushMerge push _, .pushMergeSync push' => push = push'
  | .pushMergeSync push, .pushMergeRecord push' _ _ => push = push'
  | .restoreHead push _, .restoreCompare push' => push = push'
  | .restoreHead push _, .restoreLoad push' => push = push'
  | .restoreCompare push, .restoreApply push' _ _ => push = push'
  | .restoreCompare push, .restoreLoad push' => push = push'
  | .restoreApply push _ _, .restoreLoad push' => push = push'
  | .restoreLoad push, .flush .load (.rejected push') => push = push'
  | .restoreLoad push, .restoreSync push' => push = push'
  | .restoreSync push, .restoreRecord push' _ => push = push'
  | _, _ => false

/-- The replacement that a step runs, with the version that it expects. -/
def Session.replacement : Session → Option (Option Int × PreparedRepoImport)
  | .replaceInbound prepared _ => some (none, prepared)
  | .pushImport push prepared | .pushMerge push prepared =>
    some (some push.before.version, prepared)
  | .restoreApply _ version prepared => some (some version, prepared)
  | _ => none

/-- The version that the next statement records as synchronized. -/
def Session.recordedVersion : Session → Option Int
  | .flush (.complete snapshot) _ | .revision (.complete snapshot) | .restoreRecord _ snapshot
  | .pushMergeRecord _ snapshot _ => some snapshot.version
  | .pushImportRecord _ version => some version
  | _ => none

/-- The updates that the content behind a replacement has absorbed. -/
def Session.carried : Session → List Nat
  | .pushMerge push _ | .restoreApply push _ _ => push.before.absorbed
  | _ => []

namespace World

variable {git : GitLibrary} {w w' : World} {push : PushSession} {session : Session}

/-- What a step that goes through does to the rows and the repository. -/
inductive Moved (git : GitLibrary) (w : World) : Session → World → Prop
  | same (session : Session) : Moved git w session w
  | checkout (session : Session) : Moved git w session (w.checkoutBranch git)
  | synced {written : World} (session : Session) (hsync : w.syncToRepo = some written) :
      Moved git w session written
  | flushed (snapshot : Snapshot) (after : AfterFlush) :
      Moved git w (.flush (.commit snapshot) after)
        { w with
          repository :=
            if w.repository.worktreeIsClean git then w.repository
            else w.repository.commitStagedIfChanged git }
  | revised (snapshot : Snapshot) :
      Moved git w (.revision (.commit snapshot))
        { w with
          repository :=
            let staged := w.repository.commitStagedIfChanged git
            if staged.head = w.repository.head then staged.commitAllowEmpty git else staged }
  | recorded {session : Session} {version : Int} (pendingSync : Bool)
      (hrecorded : session.recordedVersion = some version) :
      Moved git w session (w.recordSync version pendingSync)
  | replaced {session : Session} {expected : Option Int} {prepared : PreparedRepoImport}
      {project : Project} {pendingSync : Option Bool}
      (hreplacement : session.replacement = some (expected, prepared))
      (happlied : applyRepoImport w.project expected prepared = .ok project)
      (hpending : pendingSync = w.pendingSync ∨ pendingSync = some true) :
      Moved git w session { w.replace project session.carried with pendingSync }
  | reset (push : PushSession) (restoreWorkspace : Bool) :
      Moved git w (.restoreHead push restoreWorkspace)
        { w with repository := w.repository.restoreHead git push.headBefore }

/-- Where the operation goes on. -/
inductive Leads (session : Session) (w : World) : World → Prop
  | goto {next : Session} (hleads : session.leadsTo next = true) : Leads session w (w.goto next)
  | release : Leads session w w.release
  | endPush (push : PushSession) : Leads session w (w.endPush push)

theorem leads_reconcile (git : GitLibrary) (w : World) (push : PushSession) (success : Bool) :
    Leads (.pushReconcile push success) w (w.reconcile git push success) := by
  unfold World.reconcile
  dsimp only
  split
  · exact .release
  split
  · exact .goto (by simp [Session.leadsTo])
  split
  · split
    · exact .goto (by simp [Session.leadsTo])
    split <;> exact .goto (by simp [Session.leadsTo])
  · split <;> exact .goto (by simp [Session.leadsTo])

/-- A step of the operation under way, once for every session. -/
theorem advance_cases (h : w.advance git session = some w') :
    ∃ moved, Moved git w session moved ∧ Leads session moved w' := by
  cases session with
  | flush next after =>
    -- a flush ends as its caller asked
    have hafter : ∀ moved : World, Leads (.flush next after) moved (moved.afterFlush after) := by
      intro moved
      cases after with
      | release => exact .release
      | replaceInbound prepared => exact .goto (by simp [Session.leadsTo])
      | rejected push => exact .endPush push
    cases next with
    | load =>
      cases h
      split
      · exact ⟨_, .checkout _, .goto (by simp [Session.leadsTo])⟩
      · exact ⟨w, .same _, hafter w⟩
    | sync =>
      rcases Option.map_eq_some_iff.mp h with ⟨written, hsync, rfl⟩
      exact ⟨written, .synced _ hsync, .goto (by simp [Session.leadsTo])⟩
    | commit snapshot =>
      cases h
      exact ⟨_, .flushed snapshot after, .goto (by simp [Session.leadsTo])⟩
    | complete snapshot =>
      cases h
      exact ⟨_, .recorded false rfl, hafter _⟩
  | revision next =>
    cases next with
    | load =>
      simp only [World.advance, World.advanceRevision] at h
      split at h
      · cases h
      · cases h
        exact ⟨_, .checkout _, .goto rfl⟩
    | sync =>
      rcases Option.map_eq_some_iff.mp h with ⟨written, hsync, rfl⟩
      exact ⟨written, .synced _ hsync, .goto rfl⟩
    | commit snapshot =>
      cases h
      exact ⟨_, .revised snapshot, .goto rfl⟩
    | complete snapshot =>
      cases h
      exact ⟨_, .recorded false rfl, .release⟩
  | replaceInbound prepared synced =>
    simp only [World.advance] at h
    split at h
    · cases h
      exact ⟨w, .same _, .release⟩
    · next happlied =>
      cases h
      -- an inbound synchronization carries its own content in
      exact ⟨_, .replaced rfl happlied (.inr rfl), .goto rfl⟩
  | pushLoad =>
    simp only [World.advance] at h
    split at h <;> cases h
    · exact ⟨w, .same _, .release⟩
    · exact ⟨_, .checkout _, .goto rfl⟩
  | pushCapture pendingSync =>
    cases h
    exact ⟨w, .same _, .goto (by simp [Session.leadsTo])⟩
  | pushBackend push => cases h
  | pushReconcile push success =>
    cases h
    exact ⟨w, .same _, leads_reconcile git w push success⟩
  | pushImport push prepared | pushMerge push prepared =>
    simp only [World.advance] at h
    split at h
    · cases h
      exact ⟨w, .same _, .goto (by simp [Session.leadsTo])⟩
    · next happlied =>
      cases h
      exact ⟨_, .replaced rfl happlied (.inl rfl), .goto (by simp [Session.leadsTo])⟩
  | pushImportRecord push version | pushMergeRecord push snapshot isClean =>
    cases h
    exact ⟨_, .recorded _ rfl, .release⟩
  | pushMergeSync push | restoreSync push =>
    rcases Option.map_eq_some_iff.mp h with ⟨written, hsync, rfl⟩
    exact ⟨written, .synced _ hsync, .goto (by simp [Session.leadsTo])⟩
  | restoreHead push restoreWorkspace =>
    cases h
    refine ⟨_, .reset push restoreWorkspace, .goto ?_⟩
    split <;> simp [Session.leadsTo]
  | restoreCompare push =>
    simp only [World.advance] at h
    split at h
    · split at h <;> cases h
      exact ⟨w, .same _, .goto (by simp [Session.leadsTo])⟩
    · cases h
      exact ⟨w, .same _, .goto (by simp [Session.leadsTo])⟩
  | restoreApply push version prepared =>
    simp only [World.advance] at h
    split at h
    · cases h
    · next happlied =>
      cases h
      exact ⟨_, .replaced rfl happlied (.inl rfl), .goto (by simp [Session.leadsTo])⟩
  | restoreLoad push =>
    cases h
    refine ⟨w, .same _, .goto ?_⟩
    split <;> simp [Session.leadsTo]
  | restoreRecord push snapshot =>
    cases h
    exact ⟨_, .recorded false rfl, .endPush push⟩

/-- A step of the operation under way leads where it can. -/
theorem advance_leadsTo (h : w.advance git session = some w') :
    ∀ next ∈ w'.session, session.leadsTo next = true := by
  rcases advance_cases h with ⟨moved, -, hleads⟩
  intro next hnext
  cases hleads with
  | goto hleads =>
    cases hnext
    exact hleads
  | release | endPush => cases hnext

/-- The rows of the project are left alone, and so is what is counted along. -/
structure SameRows (w w' : World) : Prop where
  project : w'.project = w.project
  updates : w'.updates = w.updates
  absorbed : w'.absorbed = w.absorbed
  accepted : w'.accepted = w.accepted
  replaced : w'.replaced = w.replaced

theorem SameRows.refl (w : World) : w.SameRows w := ⟨rfl, rfl, rfl, rfl, rfl⟩

theorem sameRows_recordSync (w : World) (version : Int) (pendingSync : Bool) :
    w.SameRows (w.recordSync version pendingSync) := by
  rcases w.recordSync_cases version pendingSync with hsame | ⟨-, hset⟩
  · rw [hsame]
    exact SameRows.refl w
  · rw [hset]
    exact ⟨rfl, rfl, rfl, rfl, rfl⟩

theorem sameRows_syncToRepo (h : w.syncToRepo = some w') : w.SameRows w' := by
  rcases Option.map_eq_some_iff.mp h with ⟨tree, -, rfl⟩
  exact ⟨rfl, rfl, rfl, rfl, rfl⟩

theorem SameRows.goto (h : w.SameRows w') (session : Session) : w.SameRows (w'.goto session) :=
  ⟨h.project, h.updates, h.absorbed, h.accepted, h.replaced⟩

theorem SameRows.release (h : w.SameRows w') : w.SameRows w'.release :=
  ⟨h.project, h.updates, h.absorbed, h.accepted, h.replaced⟩

theorem SameRows.endPush (h : w.SameRows w') (push : PushSession) : w.SameRows (w'.endPush push) :=
  ⟨h.project, h.updates, h.absorbed, h.accepted, h.replaced⟩

theorem SameRows.failed (h : w.SameRows w') (session : Session) :
    w.SameRows (w'.failed session) := by
  cases session with
  | flush next after =>
    cases after with
    | rejected push => exact h.endPush push
    | release | replaceInbound => exact h.release
  | revision | replaceInbound | pushLoad | pushCapture => exact h.release
  | restoreHead push | restoreCompare push | restoreApply push | restoreLoad push
  | restoreSync push | restoreRecord push => exact h.endPush push
  | _ => exact h.goto _

theorem sameRows_runBackend (git : GitLibrary) (w : World) (push : PushSession)
    (commits : List CommitObject) (head : Option Oid) (outcome : BackendOutcome) :
    w.SameRows (w.runBackend git push commits head outcome) := by
  cases outcome with
  | responded success => exact ⟨rfl, rfl, rfl, rfl, rfl⟩
  | interrupted index worktree =>
    simp only [runBackend]
    split <;> exact ⟨rfl, rfl, rfl, rfl, rfl⟩

/-- What a replacement leaves. -/
structure Exchanged (w w' : World) (session : Session) : Prop where
  applied : ∃ expected prepared, session.replacement = some (expected, prepared)
    ∧ applyRepoImport w.project expected prepared = .ok w'.project
  updates : w'.updates = []
  absorbed : w'.absorbed = session.carried
  accepted : w'.accepted = w.accepted
  replaced : w'.replaced = w.replaced ++ [w.snapshot]

/-- A step of the operation under way changes the rows by a replacement alone. -/
theorem advance_rows (h : w.advance git session = some w') :
    w.SameRows w' ∨ w.Exchanged w' session := by
  rcases advance_cases h with ⟨moved, hmoved, hleads⟩
  have hkept : w.SameRows moved → w.SameRows w' := by
    intro hsame
    cases hleads with
    | goto => exact hsame.goto _
    | release => exact hsame.release
    | endPush push => exact hsame.endPush push
  cases hmoved with
  | same | checkout | flushed | revised | reset => exact .inl (hkept ⟨rfl, rfl, rfl, rfl, rfl⟩)
  | synced _ hsync => exact .inl (hkept (sameRows_syncToRepo hsync))
  | recorded => exact .inl (hkept (w.sameRows_recordSync _ _))
  | replaced hreplacement happlied =>
    refine .inr ?_
    cases hleads <;> exact ⟨⟨_, _, hreplacement, happlied⟩, rfl, rfl, rfl, rfl⟩

/-- A step of the operation under way changes the project by a replacement alone. -/
theorem project_advance (h : w.advance git session = some w') :
    w'.project = w.project
      ∨ ∃ expected prepared, session.replacement = some (expected, prepared)
        ∧ applyRepoImport w.project expected prepared = .ok w'.project := by
  rcases advance_rows h with hsame | hexchanged
  · exact .inl hsame.project
  · exact .inr hexchanged.applied

/-- Where a failed step leads: to the end, to the reconciliation of what the backend did, or
to the restoration of the head. -/
theorem failed_session (w : World) (session : Session) :
    (w.failed session).session = none
      ∨ (∃ push, session = .pushBackend push
        ∧ (w.failed session).session = some (.pushReconcile push false))
      ∨ ∃ push, (w.failed session).session = some (.restoreHead push true) := by
  cases session with
  | flush next after => cases after <;> exact .inl rfl
  | pushBackend push => exact .inr (.inl ⟨push, rfl, rfl⟩)
  | pushReconcile push success | pushImport push prepared | pushMerge push prepared
  | pushImportRecord push version | pushMergeSync push | pushMergeRecord push snapshot isClean =>
    exact .inr (.inr ⟨push, rfl⟩)
  | _ => exact .inl rfl

/-- The rule for what holds of the operation under way: others keep it, and so does each way on
that an operation can take. Of a head that is being restored nothing is asked. -/
theorem forall_session_step {P : World → Session → Prop} {action : Action}
    (hrestoring : ∀ w push restoreWorkspace, P w (.restoreHead push restoreWorkspace))
    (hothers : action.isOthers = true → w.Drifts w' → ∀ session ∈ w.session,
      P w' session ∧ ∀ content, P w' (session.noteChange content))
    (hstart : ∀ session, action.startedSession = some session → P (w.goto session) session)
    (hadvance : action = .advance → ∀ session ∈ w.session, w.advance git session = some w' →
      ∀ next ∈ w'.session, P w' next)
    (hfail : ∀ push, w.session = some (.pushBackend push) →
      P (w.failed (.pushBackend push)) (.pushReconcile push false))
    (hbackend : ∀ push commits head success, w.session = some (.pushBackend push) →
      P (w.runBackend git push commits head (.responded success)) (.pushReconcile push success))
    (hstep : w.step git action = some w') : ∀ session ∈ w'.session, P w' session := by
  rcases isOthers_or_starts action with hother | ⟨started, hstarts⟩ | rfl | ⟨effective, rfl⟩
    | ⟨commits, head, outcome, rfl⟩
  · intro session hsession
    rcases step_others hother hstep with ⟨hdrift, -, hsame | ⟨content, hnoted⟩⟩
    · rw [hsame] at hsession
      exact (hothers hother hdrift session hsession).1
    · rw [hnoted, Option.mem_def, Option.map_eq_some_iff] at hsession
      rcases hsession with ⟨before, hbefore, rfl⟩
      exact (hothers hother hdrift before hbefore).2 content
  · rcases step_start hstarts hstep with ⟨-, rfl⟩
    intro session hsession
    cases hsession
    exact hstart started hstarts
  · rcases Option.bind_eq_some_iff.mp hstep with ⟨session, hsession, hadvanced⟩
    exact hadvance rfl session hsession hadvanced
  · rcases Option.bind_eq_some_iff.mp hstep with ⟨session, hsession, hfailed⟩
    rcases Option.map_eq_some_iff.mp hfailed with ⟨w₁, heffect, rfl⟩
    intro next hnext
    rcases failed_session w₁ session with hnone | ⟨push, rfl, hreconcile⟩ | ⟨push, hrestore⟩
    · simp [hnone] at hnext
    · -- the backend failed, and nothing has been done yet
      have hsame : w₁ = w := by
        cases effective with
        | false => exact (Option.some.inj heffect).symm
        | true => simp [World.advance] at heffect
      subst hsame
      rw [hreconcile, Option.mem_some_iff] at hnext
      rw [← hnext]
      exact hfail push hsession
    · rw [hrestore, Option.mem_some_iff] at hnext
      rw [← hnext]
      exact hrestoring _ push true
  · rcases step_backend hstep with ⟨push, hsession, -, rfl⟩
    intro next hnext
    cases outcome with
    | responded success =>
      cases hnext
      exact hbackend push commits head success hsession
    | interrupted index worktree =>
      -- the push ends here, or the head is restored
      simp only [runBackend] at hnext
      split at hnext
      · simp [endPush] at hnext
      · cases hnext
        exact hrestoring _ push false

end World

end Toss.Versioning
