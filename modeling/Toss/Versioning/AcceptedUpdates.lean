import Toss.Versioning.AcceptedPush
import Toss.Versioning.InboundSync
import Toss.Versioning.LocalHistory

/-!
# Accepted updates behind a replacement

`clear_persisted_project` deletes the log of every document that a replacement exchanges.
The replacing operations read the documents and not the log, so that an update survives only
if a document has absorbed it by then.

* `World.Reflects` — an update is in the documents, or in a commit of what they were;
* `ProjectionGuard` — a replacement finds every update absorbed;
* `accepted_updates_are_reflected` — whole runs;
* `unprojected_update_is_lost` — a Sync that deletes an update.
-/

namespace Toss.Versioning

open Toss.Foundation Toss.Workspace

/-- A commit of the local history holds a content. -/
def World.InHistory (w : World) (content : ProjectContent) : Prop :=
  ∃ target, w.repository.Follows w.keptHead target ∧ w.repository.Knows target
    ∧ Mirrors (w.repository.treeAt target) content

/-- The documents have absorbed an update, or those have that were replaced, and a commit of
the local history holds them. -/
def World.Reflects (w : World) (update : Nat) : Prop :=
  update ∈ w.absorbed
    ∨ ∃ snapshot ∈ w.replaced, update ∈ snapshot.absorbed ∧ w.InHistory snapshot.content

/-- The next step replaces the content. -/
def World.exchanges (w : World) (session : Session) : Bool :=
  session.replacement.any fun replacement =>
    (applyRepoImport w.project replacement.1 replacement.2).isOk

/-- A replacement finds no update that the documents have not absorbed. A restoration finds
none that was absorbed since the snapshot, and an import of a new project none at all. -/
def Session.FindsProjected (w : World) (session : Session) : Prop :=
  w.exchanges session = true → w.updates = []
    ∧ match session with
      | .restoreApply push _ _ => ∀ update ∈ w.absorbed, update ∈ push.before.absorbed
      | .replaceInbound _ false => w.absorbed = []
      | _ => True

instance (w : World) : (session : Session) → Decidable (session.FindsProjected w)
  | .restoreApply .. | .replaceInbound _ false => inferInstanceAs (Decidable (_ → _ ∧ _))
  | .flush .. | .revision .. | .replaceInbound _ true | .pushLoad | .pushCapture .. | .pushBackend ..
  | .pushReconcile .. | .pushImport .. | .pushImportRecord .. | .pushMerge .. | .pushMergeSync ..
  | .pushMergeRecord .. | .restoreHead .. | .restoreCompare .. | .restoreLoad .. | .restoreSync ..
  | .restoreRecord .. =>
    inferInstanceAs (Decidable (_ → _ ∧ True))

def ProjectionGuard (w : World) : Action → Prop
  | .advance | .fail true => ∀ session ∈ w.session, session.FindsProjected w
  | _ => True

instance (w : World) (action : Action) : Decidable (ProjectionGuard w action) := by
  unfold ProjectionGuard
  split <;> infer_instance

/-- A snapshot that is current has absorbed what the documents have. -/
def World.CapturesAbsorbed (w : World) : Session → Prop
  | .pushBackend push | .pushReconcile push _ | .pushImport push _ | .pushMerge push _ =>
    push.before.version = w.project.workspaceVersion → push.before.absorbed = w.absorbed
  | _ => True

/-- The steps of others keep every update, or have a document absorb it. -/
structure World.Carries (w w' : World) : Prop where
  accepted : ∀ update ∈ w'.accepted, update ∈ w.accepted ∨ update ∈ w'.updates
  updates : ∀ update ∈ w.updates, update ∈ w'.updates ∨ update ∈ w'.absorbed
  absorbed : ∀ update ∈ w.absorbed, update ∈ w'.absorbed
  replaced : w'.replaced = w.replaced
  version : w'.absorbed = w.absorbed
    ∨ w'.project.workspaceVersion = w.project.workspaceVersion + 1

variable {action : Action}

namespace World

variable {git : GitLibrary} {w w' w₁ : World} {push : PushSession} {session : Session}

/-! ## What keeps the facts -/

theorem InHistory.extend {content : ProjectContent} (h : w.InHistory content)
    (hextends : w.Extends w') : w'.InHistory content := by
  rcases h with ⟨target, hfollows, hknown, hmirrors⟩
  rcases hextends.objects with ⟨commits, hobjects⟩
  refine ⟨target, hextends.follows.trans (hfollows.append hobjects), hknown.append hobjects, ?_⟩
  rw [Repository.treeAt_append hknown hobjects]
  exact hmirrors

theorem carries_others (hothers : action.isOthers = true) (hstep : w.step git action = some w') :
    w.Carries w' := by
  cases action with
  | edit content =>
    simp only [World.step] at hstep
    split at hstep
    · cases hstep
      exact ⟨fun _ => .inl, fun _ => .inl, fun _ => id, rfl, .inr rfl⟩
    · simp at hstep
  | project updates content =>
    simp only [World.step] at hstep
    split at hstep
    · cases hstep
      refine ⟨fun _ => .inl, ?_, ?_, rfl, .inr rfl⟩
      · intro update hupdate
        by_cases hprojected : update ∈ updates
        · exact .inr (List.mem_append_right _ (by simp [hupdate, hprojected]))
        · exact .inl (by simp [hupdate, hprojected])
      · exact fun update hupdate => List.mem_append_left _ hupdate
    · simp at hstep
  | persistUpdate update =>
    simp only [World.step] at hstep
    split at hstep
    · simp at hstep
    cases hstep
    refine ⟨?_, fun _ hupdate => .inl (List.mem_append_left _ hupdate), fun _ => id, rfl, .inl rfl⟩
    intro update' hupdate
    exact (List.mem_append.mp hupdate).imp_right fun hnew => List.mem_append_right _ hnew
  | markPending | ensureRepository =>
    cases hstep
    exact ⟨fun _ => .inl, fun _ => .inl, fun _ => id, rfl, .inl rfl⟩
  | _ => simp [Action.isOthers] at hothers

theorem SameRows.carries (h : w.SameRows w') : w.Carries w' := by
  refine ⟨?_, ?_, ?_, h.replaced, .inl h.absorbed⟩
  · exact fun update hupdate => .inl (h.accepted ▸ hupdate)
  · exact fun update hupdate => .inl (h.updates ▸ hupdate)
  · exact fun update hupdate => h.absorbed ▸ hupdate

/-- Every accepted update is in the log or reflected. -/
def Accounts (w : World) : Prop :=
  ∀ update ∈ w.accepted, update ∈ w.updates ∨ w.Reflects update

theorem Accounts.carry (hw : w.Accounts) (hcarries : w.Carries w') (hextends : w.Extends w') :
    w'.Accounts := by
  intro update hupdate
  rcases hcarries.accepted update hupdate with hbefore | hnew
  · rcases hw update hbefore with hlog | habsorbed | ⟨snapshot, hsnapshot, hmem, hhistory⟩
    · exact (hcarries.updates update hlog).imp_right .inl
    · exact .inr (.inl (hcarries.absorbed update habsorbed))
    · refine .inr (.inr ⟨snapshot, ?_, hmem, hhistory.extend hextends⟩)
      rw [hcarries.replaced]
      exact hsnapshot
  · exact .inl hnew

/-- A replacement keeps what it carries over, and what is in the history. -/
theorem Accounts.exchange (hw : w.Accounts) (hexchanged : w.Exchanged w₁ session)
    (hrows : w₁.SameRows w') (hextends : w.Extends w') (hupdates : w.updates = [])
    (hkept : (∀ update ∈ w.absorbed, update ∈ session.carried)
      ∨ w.InHistory w.project.content) : w'.Accounts := by
  intro update hupdate
  refine .inr ?_
  rw [hrows.accepted, hexchanged.accepted] at hupdate
  have hsnapshots : ∀ snapshot ∈ w.replaced ++ [w.snapshot], snapshot ∈ w'.replaced := by
    intro snapshot hsnapshot
    rw [hrows.replaced, hexchanged.replaced]
    exact hsnapshot
  rcases hw update hupdate with hlog | habsorbed | ⟨snapshot, hsnapshot, hmem, hhistory⟩
  · rw [hupdates] at hlog
    simp at hlog
  · rcases hkept with hcarried | hhistory
    · refine .inl ?_
      rw [hrows.absorbed, hexchanged.absorbed]
      exact hcarried update habsorbed
    · exact .inr ⟨w.snapshot, hsnapshots _ (by simp), habsorbed, hhistory.extend hextends⟩
  · exact .inr ⟨snapshot, hsnapshots _ (List.mem_append_left _ hsnapshot), hmem,
      hhistory.extend hextends⟩

/-! ## What a snapshot has absorbed -/

theorem CapturesAbsorbed.keep (hw : w.CapturesAbsorbed session) (hrows : w.SameRows w') :
    w'.CapturesAbsorbed session := by
  unfold CapturesAbsorbed at hw ⊢
  rw [hrows.project, hrows.absorbed]
  exact hw

/-- What others absorb moves the version on. -/
theorem CapturesAbsorbed.carry (hw : w.CapturesAbsorbed session) (hpush : w.PushFacts git session)
    (hcarries : w.Carries w') (hdrift : w.Drifts w') : w'.CapturesAbsorbed session := by
  have hkeep : ∀ push : PushSession, push.before.version ≤ w.project.workspaceVersion →
      (push.before.version = w.project.workspaceVersion → push.before.absorbed = w.absorbed) →
        push.before.version = w'.project.workspaceVersion → push.before.absorbed = w'.absorbed := by
    intro push hle habsorbed hversion
    have hforward := hdrift.version_le
    have hsame : push.before.version = w.project.workspaceVersion := by omega
    rcases hcarries.version with hrows | hmoved
    · rw [hrows]
      exact habsorbed hsame
    · omega
  cases session with
  | pushBackend push | pushReconcile push success => exact hkeep push hpush.le hw
  | pushImport push prepared | pushMerge push prepared => exact hkeep push hpush.1.le hw
  | _ => trivial

theorem capturesAbsorbed_noteChange {content : ProjectContent} (hw : w.CapturesAbsorbed session) :
    w.CapturesAbsorbed (session.noteChange content) := by
  cases session with
  | flush next after => cases after <;> trivial
  | _ => exact hw

theorem capturesAbsorbed_advance (hw : w.CapturesAbsorbed session)
    (h : w.advance git session = some w') : ∀ next ∈ w'.session, w'.CapturesAbsorbed next := by
  intro next hnext
  have hleads := advance_leadsTo h next hnext
  cases session with
  | pushCapture pendingSync =>
    rw [← Option.some.inj h, World.goto, Option.mem_some_iff] at hnext
    rw [← Option.some.inj h, ← hnext]
    exact fun _ => rfl
  | pushReconcile push success =>
    rcases advance_rows h with hrows | hexchanged
    · cases next with
      | pushImport push' prepared | pushMerge push' prepared =>
        rcases of_decide_eq_true hleads with rfl
        exact hw.keep hrows
      | _ => trivial
    · rcases hexchanged.applied with ⟨_, _, hnone, -⟩
      simp [Session.replacement] at hnone
  | _ => cases next <;> trivial

theorem capturesAbsorbed_step (hmirrored : w.PushMirrored git)
    (hw : ∀ session ∈ w.session, w.CapturesAbsorbed session)
    (hstep : w.step git action = some w') :
    ∀ session ∈ w'.session, w'.CapturesAbsorbed session := by
  refine forall_session_step (fun _ _ _ => trivial) ?_ ?_ ?_ ?_ ?_ hstep
  · intro hothers hdrift session hsession
    have hcarries := carries_others hothers hstep
    have hpush := hmirrored.push session hsession
    have hbefore := hw session hsession
    exact ⟨hbefore.carry hpush hcarries hdrift,
      fun _ => (capturesAbsorbed_noteChange hbefore).carry hpush.noteChange hcarries hdrift⟩
  · intro started hstart
    -- an operation that starts has captured nothing
    have hcalm := headBefore_of_start hstart
    cases started <;> trivial
  · intro _ session hsession hadvance
    exact capturesAbsorbed_advance (hw session hsession) hadvance
  · intro push hsession
    have hbackend : w.CapturesAbsorbed (.pushReconcile push false) := hw (.pushBackend push) hsession
    exact hbackend.keep ((SameRows.refl w).failed _)
  · intro push commits head success hsession
    have hbackend : w.CapturesAbsorbed (.pushReconcile push success) := hw (.pushBackend push) hsession
    exact hbackend.keep (w.sameRows_runBackend git push commits head _)

/-! ## Every step -/

/-- What a replacement does not carry over is in the history. -/
theorem carried_or_inHistory {git : GitLibrary} (hsync : w.SyncMirrored git)
    (hpush : w.PushMirrored git) (habsorbed : w.CapturesAbsorbed session)
    (hsession : w.session = some session) (hguard : session.FindsProjected w)
    (hexchanged : w.Exchanged w₁ session) :
    w.updates = [] ∧ ((∀ update ∈ w.absorbed, update ∈ session.carried)
      ∨ w.InHistory w.project.content) := by
  have hkept := keptHead_of_some hsession
  rcases hexchanged.applied with ⟨expected, prepared, hreplacement, happlied⟩
  have hgoes : w.exchanges session = true := by
    unfold World.exchanges
    rw [hreplacement]
    simp [happlied, Except.isOk, Except.toBool]
  rcases hguard hgoes with ⟨hupdates, hprojected⟩
  refine ⟨hupdates, ?_⟩
  cases session with
  | pushImport push prepared' =>
    -- nothing was pending, so the HEAD that the push found holds what it captured
    rw [Session.replacement, Option.some.injEq, Prod.mk.injEq] at hreplacement
    rcases hreplacement with ⟨rfl, rfl⟩
    have hversion := (applyRepoImport_ok happlied).1 _ rfl
    rcases hpush.push _ hsession with ⟨hcaptured, hclear⟩
    refine .inr ⟨push.headBefore, ?_, hcaptured.known, ?_⟩
    · rw [hkept]
      exact Repository.Follows.refl _ _
    · rw [← hcaptured.content_eq hversion]
      exact hcaptured.mirrored hclear
  | pushMerge push prepared' =>
    rw [Session.replacement, Option.some.injEq, Prod.mk.injEq] at hreplacement
    rcases hreplacement with ⟨rfl, rfl⟩
    have hversion := (applyRepoImport_ok happlied).1 _ rfl
    refine .inl ?_
    intro update hupdate
    show update ∈ push.before.absorbed
    rw [habsorbed hversion]
    exact hupdate
  | restoreApply push version prepared' => exact .inl hprojected
  | replaceInbound prepared' synced =>
    cases synced with
    | true =>
      refine .inr ⟨w.repository.head, ?_, hsync.known, hsync.sync _ hsession⟩
      rw [hkept]
      exact Repository.Follows.refl _ _
    | false =>
      refine .inl ?_
      rw [show w.absorbed = [] from hprojected]
      simp
  | _ => simp [Session.replacement] at hreplacement

theorem accounts_step (hw : w.Accounts) (hsync : w.SyncMirrored git) (hpush : w.PushMirrored git)
    (habsorbed : ∀ session ∈ w.session, w.CapturesAbsorbed session) (hextends : w.Extends w')
    (hguard : ProjectionGuard w action) (hstep : w.step git action = some w') : w'.Accounts := by
  rcases isOthers_or_starts action with hothers | ⟨started, hstart⟩ | rfl | ⟨effective, rfl⟩
    | ⟨commits, head, outcome, rfl⟩
  · exact hw.carry (carries_others hothers hstep) hextends
  · rcases step_start hstart hstep with ⟨-, rfl⟩
    exact hw.carry ((SameRows.refl w).goto started).carries hextends
  · rcases Option.bind_eq_some_iff.mp hstep with ⟨session, hsession, hadvance⟩
    rcases advance_rows hadvance with hrows | hexchanged
    · exact hw.carry hrows.carries hextends
    · rcases carried_or_inHistory hsync hpush (habsorbed session hsession) hsession
        (hguard session hsession) hexchanged with ⟨hupdates, hkept⟩
      exact hw.exchange hexchanged (SameRows.refl w') hextends hupdates hkept
  · rcases Option.bind_eq_some_iff.mp hstep with ⟨session, hsession, hfail⟩
    rcases Option.map_eq_some_iff.mp hfail with ⟨w₁, hadvance, rfl⟩
    cases effective with
    | false =>
      cases hadvance
      exact hw.carry ((SameRows.refl w).failed session).carries hextends
    | true =>
      rcases advance_rows hadvance with hrows | hexchanged
      · exact hw.carry (hrows.failed session).carries hextends
      · rcases carried_or_inHistory hsync hpush (habsorbed session hsession) hsession
          (hguard session hsession) hexchanged with ⟨hupdates, hkept⟩
        exact hw.exchange hexchanged ((SameRows.refl w₁).failed session) hextends hupdates hkept
  · rcases step_backend hstep with ⟨push, -, -, rfl⟩
    exact hw.carry (w.sameRows_runBackend git push commits head outcome).carries hextends

end World

/-! ## Whole runs -/

/-- The steps that keep every accepted update. -/
def UpdateGuard (git : GitLibrary) (w : World) (action : Action) : Prop :=
  (HeadGuard git w action ∧ SyncGuard w action ∧ PushGuard w action)
    ∧ HistoryGuard w action ∧ ProjectionGuard w action

instance (git : GitLibrary) (w : World) (action : Action) : Decidable (UpdateGuard git w action) :=
  inferInstanceAs (Decidable (_ ∧ _))

/-- The invariant of every world. -/
structure World.Accounted (git : GitLibrary) (w : World) : Prop where
  sync : w.SyncMirrored git
  push : w.PushMirrored git
  descends : ∀ session ∈ w.session, w.Descends session
  absorbed : ∀ session ∈ w.session, w.CapturesAbsorbed session
  accounts : w.Accounts

theorem World.Accounted.step {git : GitLibrary} {w w' : World} (h : w.Accounted git)
    (hguard : UpdateGuard git w action) (hstep : w.step git action = some w') :
    w'.Accounted git := by
  rcases hguard with ⟨⟨hhead, hsync, hpush⟩, hhistory, hprojection⟩
  have hmirrored := h.sync.toMirrored.step hhead hstep
  have hextends := extends_step h.descends hhistory hstep
  exact ⟨⟨hmirrored, syncSound_step h.sync.toMirrored h.sync.sync hhead hsync hstep⟩,
    ⟨hmirrored, pushFacts_step h.sync.toMirrored h.push.push hpush hstep⟩,
    descends_step h.descends hstep, capturesAbsorbed_step h.push h.absorbed hstep,
    accounts_step h.accounts h.sync h.push h.absorbed hextends hprojection hstep⟩

/-- A step that exchanges the content leaves an empty log. -/
theorem updates_of_replaced {git : GitLibrary} {w w' : World}
    (hstep : w.step git action = some w') (hreplaced : w'.replaced ≠ w.replaced) :
    w'.updates = [] ∧ w'.accepted = w.accepted := by
  have hrows : ¬ w.SameRows w' := fun hrows => hreplaced hrows.replaced
  rcases World.isOthers_or_starts action with hothers | ⟨started, hstart⟩ | rfl | ⟨effective, rfl⟩
    | ⟨commits, head, outcome, rfl⟩
  · exact absurd (World.carries_others hothers hstep).replaced hreplaced
  · rcases World.step_start hstart hstep with ⟨-, rfl⟩
    exact absurd ((World.SameRows.refl w).goto started) hrows
  · rcases Option.bind_eq_some_iff.mp hstep with ⟨session, -, hadvance⟩
    rcases World.advance_rows hadvance with hsame | hexchanged
    · exact absurd hsame hrows
    · exact ⟨hexchanged.updates, hexchanged.accepted⟩
  · rcases Option.bind_eq_some_iff.mp hstep with ⟨session, -, hfail⟩
    rcases Option.map_eq_some_iff.mp hfail with ⟨w₁, hadvance, rfl⟩
    have hfailed := (World.SameRows.refl w₁).failed session
    cases effective with
    | false =>
      cases hadvance
      exact absurd hfailed hrows
    | true =>
      rcases World.advance_rows hadvance with hsame | hexchanged
      · exact absurd (hsame.failed session) hrows
      · exact ⟨hfailed.updates.trans hexchanged.updates,
          hfailed.accepted.trans hexchanged.accepted⟩
  · rcases World.step_backend hstep with ⟨push, -, -, rfl⟩
    exact absurd (w.sameRows_runBackend git push commits head outcome) hrows

/-- In a run in which every replacement finds the log projected, and which keeps HEAD and the
workspace together, every accepted update is in the log, in the documents, or in a commit of the
local history. Behind a replacement it is in the new documents or in a commit. -/
theorem accepted_updates_are_reflected {git : GitLibrary} {project : Project} {w : World}
    {actions : List Action} (hproject : isStored project.content = true)
    (hrun : Run (Guarded (UpdateGuard git) fun w action w' => w.step git action = some w')
      (World.initial project) actions w) :
    (∀ update ∈ w.accepted, update ∈ w.updates ∨ w.Reflects update)
      ∧ ∀ action w', Guarded (UpdateGuard git) (fun w action w' => w.step git action = some w')
        w action w' → w'.replaced ≠ w.replaced → ∀ update ∈ w.accepted, w'.Reflects update := by
  have hmirrored : (World.initial project).Mirrored git := World.mirrored_initial hproject
  have hinitial : (World.initial project).Accounted git :=
    ⟨⟨hmirrored, by simp [World.initial]⟩, ⟨hmirrored, by simp [World.initial]⟩,
      by simp [World.initial], by simp [World.initial], by simp [World.Accounts, World.initial]⟩
  have hinv : w.Accounted git := by
    refine hrun.invariant_of_guard ?_ hinitial
    intro s a t hs hguard hstep
    exact hs.step hguard hstep
  refine ⟨hinv.accounts, ?_⟩
  rintro action w' ⟨hguard, hstep⟩ hreplaced update hupdate
  rcases updates_of_replaced hstep hreplaced with ⟨hempty, haccepted⟩
  rcases (hinv.step hguard hstep).accounts update (haccepted ▸ hupdate) with hlog | hreflects
  · rw [hempty] at hlog
    simp at hlog
  · exact hreflects

/-! ### An update that no document has absorbed -/

/-- An update is accepted, and a Sync replaces the content. -/
def syncOverTheLog : List Action :=
  [.edit oneDocument.content, .persistUpdate 7, .startInbound fetched true]
    ++ List.replicate 5 .advance

theorem unprojected_update_is_lost :
    ¬ ∀ (git : GitLibrary) (project : Project) (w : World) (actions : List Action),
      isStored project.content = true →
      Run (fun w action w' => w.step git action = some w') (World.initial project) actions w →
        ∀ update ∈ w.accepted, update ∈ w.updates ∨ w.Reflects update := by
  intro hclaim
  let w := (exec (World.step plainGit) (World.initial oneDocument) syncOverTheLog).getD
    (World.initial oneDocument)
  have hexec : exec (World.step plainGit) (World.initial oneDocument) syncOverTheLog = some w :=
    eq_some_getD (by decide +kernel) _
  have haccepted : 7 ∈ w.accepted := by decide +kernel
  have hlog : 7 ∉ w.updates := by decide +kernel
  have habsorbed : 7 ∉ w.absorbed := by decide +kernel
  have hreplaced : ∀ snapshot ∈ w.replaced, 7 ∉ snapshot.absorbed := by decide +kernel
  rcases hclaim _ _ _ _ (by decide +kernel) (exec_run hexec) 7 haccepted with hmem | hmem
    | ⟨snapshot, hsnapshot, hmem, -⟩
  · exact hlog hmem
  · exact habsorbed hmem
  · exact hreplaced snapshot hsnapshot hmem

/-- An update that a document has absorbed is in the commit that the Sync makes. -/
theorem projected_update_is_committed :
    ∃ w : World, 7 ∉ w.updates ∧ 7 ∉ w.absorbed ∧ w.project.content = fetched.content
      ∧ w.Reflects 7 := by
  let actions : List Action :=
    [.edit oneDocument.content, .persistUpdate 7, .project [7] editedOnline,
      .startInbound fetched true] ++ List.replicate 5 .advance
  let start := World.initial oneDocument
  let guarded := fun w action =>
    if UpdateGuard plainGit w action then World.step plainGit w action else none
  let w := (exec guarded start actions).getD start
  have hexec : exec guarded start actions = some w := eq_some_getD (by decide +kernel) _
  have hlog : 7 ∉ w.updates := by decide +kernel
  have hreflects := (accepted_updates_are_reflected (by decide +kernel)
    (exec_guarded_run hexec)).1 7 (by decide +kernel)
  exact ⟨w, hlog, by decide +kernel, by decide +kernel, hreflects.resolve_left hlog⟩

end Toss.Versioning
