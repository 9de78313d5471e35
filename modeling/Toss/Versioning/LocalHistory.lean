import Mathlib.Logic.Relation
import Toss.Versioning.HeadMirrors

/-!
# The history of the local branch

Commits are made on top of HEAD, and a push is accepted when it descends from the HEAD that
it found. Between the two ends of a push the branch to come back to is that HEAD.

* `Repository.Follows` — a head descends from another, or is it;
* `World.keptHead` — the head to which a push that is not accepted returns;
* `World.Extends`, `extends_step` — no step takes a commit out of the history.
-/

namespace Toss.Versioning

open Toss.Foundation Toss.Workspace

/-! ## Descent -/

variable {commits : List CommitObject}

namespace Repository

variable {repository repository' : Repository} {head before earlier : Option Oid}

def IsParent (repository : Repository) (child parent : Oid) : Prop :=
  ∃ object, repository.find child = some object ∧ parent ∈ object.parents

/-- The branch at `before` is part of the branch at `head`; an unborn branch is part of
every one. -/
def Follows (repository : Repository) (head before : Option Oid) : Prop :=
  ∀ oid ∈ before, ∃ tip ∈ head, Relation.ReflTransGen repository.IsParent tip oid

theorem Follows.refl (repository : Repository) (head : Option Oid) :
    repository.Follows head head :=
  fun oid hoid => ⟨oid, hoid, .refl⟩

theorem Follows.trans (h : repository.Follows head before)
    (h' : repository.Follows before earlier) : repository.Follows head earlier := by
  intro oid hoid
  rcases h' oid hoid with ⟨middle, hmiddle, hearlier⟩
  rcases h middle hmiddle with ⟨tip, htip, hbefore⟩
  exact ⟨tip, htip, hbefore.trans hearlier⟩

/-- New objects leave every parent in place. -/
theorem Follows.append (h : repository.Follows head before)
    (hobjects : repository'.objects = repository.objects ++ commits) :
    repository'.Follows head before := by
  intro oid hoid
  rcases h oid hoid with ⟨tip, htip, hreaches⟩
  refine ⟨tip, htip, Relation.ReflTransGen.mono ?_ _ _ hreaches⟩
  rintro child parent ⟨object, hfind, hparent⟩
  refine ⟨object, ?_, hparent⟩
  rw [find, hobjects, List.getElem?_append_left]
  · exact hfind
  · exact (List.getElem?_eq_some_iff.mp hfind).1

theorem follows_of_descends {fuel : Nat} {tip ancestor : Oid}
    (h : repository.descends fuel tip ancestor = true) :
    Relation.ReflTransGen repository.IsParent tip ancestor := by
  induction fuel generalizing tip with
  | zero => simp [descends] at h
  | succ fuel ih =>
    rw [descends] at h
    split at h
    · simp at h
    rename_i object hfind
    rcases List.any_eq_true.mp h with ⟨parent, hparent, hreaches⟩
    have hstep : repository.IsParent tip parent := ⟨object, hfind, hparent⟩
    rcases Bool.or_eq_true_iff.mp hreaches with hsame | hdescends
    · rw [← of_decide_eq_true hsame]
      exact .single hstep
    · exact (ih hdescends).head hstep

/-- What `validate_default_ref_update` lets through. -/
theorem follows_of_isAllowedUpdate {w : World}
    (h : w.isAllowedUpdate before head = true) : w.repository.Follows head before := by
  intro oid hoid
  rcases Option.mem_def.mp hoid with rfl
  unfold World.isAllowedUpdate at h
  split at h
  · simp at h
  · next old new hold =>
    cases hold
    exact ⟨new, rfl, follows_of_descends h⟩
  · next hnone => simp at hnone

theorem follows_commit (repository : Repository) (tree : Tree) :
    (repository.commit tree).Follows (repository.commit tree).head repository.head := by
  intro oid hoid
  refine ⟨repository.objects.length, rfl, .single ⟨⟨tree, repository.head.toList⟩, ?_, ?_⟩⟩
  · simp [commit, find]
  · simpa using hoid

/-- A repository with new commits on top of its branch. -/
structure Extends (repository repository' : Repository) : Prop where
  objects : ∃ commits, repository'.objects = repository.objects ++ commits
  follows : repository'.Follows repository'.head repository.head
  known : repository.Knows repository.head → repository'.Knows repository'.head

theorem extends_of_eq (hobjects : repository'.objects = repository.objects)
    (hhead : repository'.head = repository.head) : repository.Extends repository' := by
  refine ⟨⟨[], by simpa using hobjects⟩, hhead ▸ Follows.refl _ _, ?_⟩
  intro hknown oid hoid
  rw [hhead] at hoid
  rw [hobjects]
  exact hknown oid hoid

theorem extends_commitStagedIfChanged (git : GitLibrary) (repository : Repository) :
    repository.Extends (repository.commitStagedIfChanged git) := by
  unfold commitStagedIfChanged
  dsimp only
  split
  · exact extends_of_eq rfl rfl
  · exact ⟨⟨_, rfl⟩, follows_commit { repository with index := _ } _, fun _ => knows_commit _ _⟩

theorem extends_commitAllowEmpty (git : GitLibrary) (repository : Repository) :
    repository.Extends (repository.commitAllowEmpty git) :=
  ⟨⟨_, rfl⟩, follows_commit { repository with index := _ } _, fun _ => knows_commit _ _⟩

theorem Extends.trans {repository'' : Repository} (h : repository.Extends repository')
    (h' : repository'.Extends repository'') : repository.Extends repository'' := by
  rcases h.objects with ⟨commits, hcommits⟩
  rcases h'.objects with ⟨commits', hcommits'⟩
  refine ⟨⟨commits ++ commits', ?_⟩, h'.follows.trans (h.follows.append hcommits'),
    fun hknown => h'.known (h.known hknown)⟩
  rw [hcommits', hcommits, List.append_assoc]

end Repository

/-! ## The head to come back to -/

/-- The HEAD that a push found, while the push may still be rejected. -/
def Session.headBefore : Session → Option (Option Oid)
  | .pushBackend push | .pushReconcile push _ | .pushImport push _ | .pushImportRecord push _
  | .pushMerge push _ | .pushMergeSync push | .pushMergeRecord push _ _ | .restoreHead push _ =>
    some push.headBefore
  | _ => none

/-- The head of the branch, as it was before a push that has not been accepted. -/
def World.keptHead (w : World) : Option Oid :=
  (w.session.bind Session.headBefore).getD w.repository.head

/-- No commit has left the history. -/
structure World.Extends (w w' : World) : Prop where
  objects : ∃ commits, w'.repository.objects = w.repository.objects ++ commits
  follows : w'.repository.Follows w'.keptHead w.keptHead

/-- The accepted head descends from the one that the push found. -/
def World.Descends (w : World) : Session → Prop
  | .pushBackend push => push.headBefore = w.repository.head
  | .pushImport push _ | .pushImportRecord push _ | .pushMerge push _ | .pushMergeSync push
  | .pushMergeRecord push _ _ => w.repository.Follows w.repository.head push.headBefore
  | _ => True

/-- Where the reset of HEAD fails, HEAD descends from the one before the push. -/
def HistoryGuard (w : World) : Action → Prop
  | .fail false =>
    match w.session with
    | some (.restoreHead push _) =>
      w.repository.head = push.headBefore
        ∨ w.isAllowedUpdate push.headBefore w.repository.head = true
    | _ => True
  | _ => True

instance (w : World) : (action : Action) → Decidable (HistoryGuard w action)
  | .fail false => by
    dsimp only [HistoryGuard]
    generalize w.session = session
    exact match session with
      | some (.restoreHead ..) => inferInstanceAs (Decidable (_ ∨ _))
      | none | some (.flush ..) | some (.revision ..) | some (.replaceInbound ..)
      | some .pushLoad | some (.pushCapture ..) | some (.pushBackend ..)
      | some (.pushReconcile ..) | some (.pushImport ..) | some (.pushImportRecord ..)
      | some (.pushMerge ..) | some (.pushMergeSync ..) | some (.pushMergeRecord ..)
      | some (.restoreCompare ..) | some (.restoreApply ..) | some (.restoreLoad ..)
      | some (.restoreSync ..) | some (.restoreRecord ..) => instDecidableTrue
  | .edit _ | .persistUpdate _ | .project _ _ | .markPending | .ensureRepository | .startFlush
  | .startRevision | .startPush | .startInbound _ _ | .advance | .backend _ _ _
  | .fail true => instDecidableTrue

namespace World

variable {git : GitLibrary} {w w' : World} {push : PushSession} {session : Session}

theorem keptHead_goto (w : World) (session : Session) :
    (w.goto session).keptHead = session.headBefore.getD w.repository.head := rfl

theorem keptHead_of_none (h : w.session = none) : w.keptHead = w.repository.head := by
  simp [keptHead, h]

theorem keptHead_of_some (h : w.session = some session) :
    w.keptHead = session.headBefore.getD w.repository.head := by
  simp [keptHead, h]

theorem extends_of_repository (hrepository : w'.repository = w.repository)
    (hkept : w'.keptHead = w.keptHead) : w.Extends w' := by
  refine ⟨⟨[], by rw [hrepository, List.append_nil]⟩, ?_⟩
  rw [hkept]
  exact Repository.Follows.refl _ _

/-- Commits on top of the branch while no push is under way. -/
theorem extends_of_branch (hsession : w.session = some session)
    (hcalm : session.headBefore = none) (hrepository : w.repository.Extends w'.repository)
    (hnext : ∀ next ∈ w'.session, next.headBefore = none) : w.Extends w' := by
  refine ⟨hrepository.objects, ?_⟩
  have hbefore : w.keptHead = w.repository.head := by rw [keptHead_of_some hsession, hcalm]; rfl
  have hafter : w'.keptHead = w'.repository.head := by
    cases hsession' : w'.session with
    | none => exact keptHead_of_none hsession'
    | some next => rw [keptHead_of_some hsession', hnext next hsession']; rfl
  rw [hbefore, hafter]
  exact hrepository.follows

/-! ## Steps of the branch -/

variable {next : Session}

/-- Only what captures the workspace for a push begins one. -/
theorem headBefore_of_leadsTo (hleads : session.leadsTo next = true)
    (hcalm : session.headBefore = none) :
    next.headBefore = none ∨ ∃ pendingSync push, session = .pushCapture pendingSync
      ∧ next = .pushBackend push := by
  cases next with
  | pushBackend push =>
    cases session with
    | pushCapture pendingSync => exact .inr ⟨pendingSync, push, rfl, rfl⟩
    | _ => simp [Session.leadsTo] at hleads
  | pushReconcile | pushImport | pushImportRecord | pushMerge | pushMergeSync | pushMergeRecord
  | restoreHead =>
    cases session <;> simp [Session.leadsTo, Session.headBefore] at hleads hcalm
  | _ => exact .inl rfl

/-- While no push is under way, commits are made on top of the branch. -/
theorem extends_advance_calm (hcalm : session.headBefore = none)
    (h : w.advance git session = some w') : w.repository.Extends w'.repository := by
  rcases advance_cases h with ⟨moved, hmoved, hleads⟩
  have hrepository : w'.repository = moved.repository := by cases hleads <;> rfl
  rw [hrepository]
  cases hmoved with
  | same | replaced => exact Repository.extends_of_eq rfl rfl
  | checkout => exact Repository.extends_of_eq (by simp [checkoutBranch]) (by simp [checkoutBranch])
  | synced _ hsync =>
    rcases Option.map_eq_some_iff.mp hsync with ⟨tree, -, rfl⟩
    exact Repository.extends_of_eq rfl rfl
  | flushed =>
    dsimp only
    split
    · exact Repository.extends_of_eq rfl rfl
    · exact Repository.extends_commitStagedIfChanged git w.repository
  | revised =>
    have hstaged := Repository.extends_commitStagedIfChanged git w.repository
    dsimp only
    split
    · exact hstaged.trans (Repository.extends_commitAllowEmpty git _)
    · exact hstaged
  | recorded =>
    rw [repository_recordSync]
    exact Repository.extends_of_eq rfl rfl
  | reset => cases hcalm

/-- A push makes no commits, and moves the branch back alone. -/
theorem repository_advance_push {before : Option Oid} (hpush : session.headBefore = some before)
    (h : w.advance git session = some w') :
    w'.repository.objects = w.repository.objects
      ∧ (w'.repository.head = w.repository.head
        ∨ ((∃ push restoreWorkspace, session = .restoreHead push restoreWorkspace)
          ∧ w'.repository.head = before)) := by
  rcases advance_cases h with ⟨moved, hmoved, hleads⟩
  have hrepository : w'.repository = moved.repository := by cases hleads <;> rfl
  rw [hrepository]
  cases hmoved with
  | same | replaced => exact ⟨rfl, .inl rfl⟩
  | checkout => exact ⟨by simp [checkoutBranch], .inl (by simp [checkoutBranch])⟩
  | synced _ hsync =>
    rcases Option.map_eq_some_iff.mp hsync with ⟨tree, -, rfl⟩
    exact ⟨rfl, .inl rfl⟩
  | flushed | revised => cases hpush
  | recorded => exact ⟨by rw [repository_recordSync], .inl (by rw [repository_recordSync])⟩
  | reset push restoreWorkspace =>
    cases hpush
    exact ⟨by simp, .inr ⟨⟨push, restoreWorkspace, rfl⟩, by simp⟩⟩

/-- A push keeps the head that it found, up to its end. -/
theorem headBefore_of_push {before : Option Oid} (hleads : session.leadsTo next = true)
    (hpush : session.headBefore = some before) :
    next.headBefore = some before ∨ ∃ push restoreWorkspace,
      session = .restoreHead push restoreWorkspace ∧ next.headBefore = none := by
  cases session with
  | restoreHead push restoreWorkspace =>
    refine .inr ⟨push, restoreWorkspace, rfl, ?_⟩
    cases next <;> first | rfl | simp [Session.leadsTo] at hleads
  | pushReconcile push | pushImport push | pushMerge push | pushMergeSync push =>
    cases next with
    | restoreHead | pushImport | pushMerge | pushImportRecord | pushMergeSync | pushMergeRecord =>
      simp only [Session.leadsTo, decide_eq_true_eq, Bool.false_eq_true] at hleads
      try
        subst hleads
        exact .inl hpush
    | _ => simp [Session.leadsTo] at hleads
  | pushBackend | pushImportRecord | pushMergeRecord =>
    cases next <;> simp [Session.leadsTo] at hleads
  | _ => simp [Session.headBefore] at hpush

variable {success : Bool}

/-- A push that found nothing to reconcile leaves the branch where it was. -/
theorem head_of_reconcile (h : (w.reconcile git push success).session = none) :
    w.repository.head = push.headBefore := by
  unfold World.reconcile at h
  dsimp only at h
  split at h
  · next hsame => exact hsame
  split at h
  · simp [goto] at h
  split at h
  · split at h
    · simp [goto] at h
    split at h <;> simp [goto] at h
  · split at h <;> simp [goto] at h

/-- The operation under way makes its commits on top of the branch. -/
theorem extends_advance (hsession : w.session = some session) (hw : w.Descends session)
    (h : w.advance git session = some w') : w.Extends w' := by
  have hkept := keptHead_of_some hsession
  have hleads := advance_leadsTo h
  cases hbefore : session.headBefore with
  | none =>
    have hrepository := extends_advance_calm hbefore h
    by_cases hcapture : ∃ pendingSync, session = .pushCapture pendingSync
    · rcases hcapture with ⟨pendingSync, rfl⟩
      cases h
      exact extends_of_repository rfl hkept.symm
    refine extends_of_branch hsession hbefore hrepository ?_
    intro next hnext
    rcases headBefore_of_leadsTo (hleads next hnext) hbefore with hnone
      | ⟨pendingSync, push, hpush, -⟩
    · exact hnone
    · exact absurd ⟨pendingSync, hpush⟩ hcapture
  | some before =>
    rcases repository_advance_push hbefore h with ⟨hobjects, hhead⟩
    refine ⟨⟨[], by simpa using hobjects⟩, ?_⟩
    rw [hkept, hbefore]
    cases hnext : w'.session with
    | some next =>
      rw [keptHead_of_some hnext]
      rcases headBefore_of_push (hleads next hnext) hbefore with hsame
        | ⟨push, restoreWorkspace, rfl, hnone⟩
      · rw [hsame]
        exact Repository.Follows.refl _ _
      -- the branch is where the push found it
      rw [hnone]
      have hmoved : w'.repository.head = before := by
        rw [← Option.some.inj h, ← Option.some.inj hbefore]
        simp [goto]
      show w'.repository.Follows w'.repository.head before
      rw [hmoved]
      exact Repository.Follows.refl _ _
    | none =>
      rw [keptHead_of_none hnext]
      show w'.repository.Follows w'.repository.head before
      rcases hhead with hsame | ⟨-, hmoved⟩
      · have hdescends : w.repository.Follows w.repository.head before := by
          cases session with
          | pushReconcile push success =>
            rw [← Option.some.inj h] at hnext
            rw [head_of_reconcile hnext, Option.some.inj hbefore]
            exact Repository.Follows.refl _ _
          | pushImport | pushMerge | pushImportRecord | pushMergeSync | pushMergeRecord =>
            cases hbefore
            exact hw
          | pushBackend push => simp [World.advance] at h
          | restoreHead push restoreWorkspace =>
            rw [← Option.some.inj h] at hnext
            simp [goto] at hnext
          | _ => simp [Session.headBefore] at hbefore
        rw [hsame]
        refine hdescends.append (show w'.repository.objects = w.repository.objects ++ [] from ?_)
        rw [hobjects, List.append_nil]
      · rw [hmoved]
        exact Repository.Follows.refl _ _

/-- What is left of an operation that fails. -/
theorem repository_failed (w : World) (session : Session) :
    (w.failed session).repository = w.repository := by
  cases session with
  | flush next after => cases after <;> rfl
  | _ => rfl

theorem headBefore_failed (w : World) (session : Session) :
    (((w.failed session).session).bind Session.headBefore = session.headBefore
      ∨ (((w.failed session).session).bind Session.headBefore = none
        ∧ ∃ push restoreWorkspace, session = .restoreHead push restoreWorkspace)) := by
  cases session with
  | flush next after => cases after <;> exact .inl rfl
  | restoreHead push restoreWorkspace => exact .inr ⟨rfl, push, restoreWorkspace, rfl⟩
  | _ => exact .inl rfl

variable {effective : Bool}

/-- The operation under way fails in a step. -/
theorem extends_fail (hsession : w.session = some session)
    (hguard : HistoryGuard w (.fail effective))
    (h : (if effective then w.advance git session else some w) = some w') :
    w.Extends (w'.failed session) := by
  have hkept := keptHead_of_some hsession
  have hrepository := w'.repository_failed session
  cases hbefore : session.headBefore with
  | none =>
    have hextends : w.repository.Extends w'.repository := by
      cases effective with
      | true => exact extends_advance_calm hbefore h
      | false =>
        cases h
        exact Repository.extends_of_eq rfl rfl
    refine ⟨by rw [hrepository]; exact hextends.objects, ?_⟩
    have hnone : ((w'.failed session).session).bind Session.headBefore = none := by
      rcases headBefore_failed w' session with hsame | ⟨hnone, -⟩
      · rw [hsame, hbefore]
      · exact hnone
    rw [keptHead, hnone, hkept, hbefore, hrepository]
    exact hextends.follows
  | some before =>
    have hobjects : w'.repository.objects = w.repository.objects := by
      cases effective with
      | true => exact (repository_advance_push hbefore h).1
      | false => rw [← Option.some.inj h]
    refine ⟨⟨[], by rw [hrepository, hobjects, List.append_nil]⟩, ?_⟩
    rw [keptHead, hkept, hbefore, hrepository]
    rcases headBefore_failed w' session with hsame | ⟨hnone, push, restoreWorkspace, rfl⟩
    · rw [hsame, hbefore]
      exact Repository.Follows.refl _ _
    -- the branch has been moved back, or descends from where it was
    rw [hnone, ← Option.some.inj hbefore]
    show w'.repository.Follows w'.repository.head push.headBefore
    cases effective with
    | true =>
      have hmoved : w'.repository.head = push.headBefore := by
        cases h
        simp [goto]
      rw [hmoved]
      exact Repository.Follows.refl _ _
    | false =>
      cases h
      simp only [HistoryGuard, hsession] at hguard
      rcases hguard with hsame | hallowed
      · rw [hsame]
        exact Repository.Follows.refl _ _
      · exact Repository.follows_of_isAllowedUpdate hallowed

theorem extends_backend {head : Option Oid} {outcome : BackendOutcome}
    (hsession : w.session = some (.pushBackend push)) :
    w.Extends (w.runBackend git push commits head outcome) := by
  have hkept := keptHead_of_some hsession
  cases outcome with
  | responded success =>
    refine ⟨⟨commits, ?_⟩, ?_⟩
    · simp only [runBackend, goto]
      split <;> rfl
    · rw [hkept]
      exact Repository.Follows.refl _ _
  | interrupted index worktree =>
    simp only [runBackend]
    split
    · next hsame =>
      refine ⟨⟨commits, rfl⟩, ?_⟩
      rw [hkept, keptHead_of_none rfl]
      show Repository.Follows _ head push.headBefore
      rw [hsame]
      exact Repository.Follows.refl _ _
    · refine ⟨⟨commits, rfl⟩, ?_⟩
      rw [hkept]
      exact Repository.Follows.refl _ _

theorem headBefore_noteChange (content : ProjectContent) (session : Session) :
    (session.noteChange content).headBefore = session.headBefore := by
  cases session with
  | flush next after => cases after <;> rfl
  | _ => rfl

variable {action : Action}

theorem extends_others (hothers : action.isOthers = true)
    (hstep : w.step git action = some w') : w.Extends w' := by
  rcases step_others hothers hstep with ⟨hdrift, -, hsession⟩
  refine extends_of_repository hdrift.repository ?_
  rw [keptHead, keptHead, hdrift.repository]
  rcases hsession with hsame | ⟨content, hnoted⟩
  · rw [hsame]
  rw [hnoted]
  cases w.session with
  | none => rfl
  | some session =>
    show (session.noteChange content).headBefore.getD _ = session.headBefore.getD _
    rw [headBefore_noteChange]

theorem headBefore_of_start (hstart : action.startedSession = some session) :
    session.headBefore = none := by
  cases action with
  | startInbound prepared synced =>
    cases hstart
    cases synced <;> rfl
  | startFlush | startRevision | startPush =>
    cases hstart
    rfl
  | _ => simp [Action.startedSession] at hstart

/-- No step takes a commit out of the history. -/
theorem extends_step (hw : ∀ session ∈ w.session, w.Descends session)
    (hguard : HistoryGuard w action) (hstep : w.step git action = some w') : w.Extends w' := by
  rcases isOthers_or_starts action with hothers | ⟨session, hstart⟩ | rfl | ⟨effective, rfl⟩
    | ⟨commits, head, outcome, rfl⟩
  · exact extends_others hothers hstep
  · rcases step_start hstart hstep with ⟨hidle, rfl⟩
    refine extends_of_repository rfl ?_
    rw [keptHead_goto, headBefore_of_start hstart, keptHead_of_none hidle]
    rfl
  · rcases Option.bind_eq_some_iff.mp hstep with ⟨session, hsession, hadvance⟩
    exact extends_advance hsession (hw session hsession) hadvance
  · rcases Option.bind_eq_some_iff.mp hstep with ⟨session, hsession, hfail⟩
    rcases Option.map_eq_some_iff.mp hfail with ⟨w₁, hadvance, rfl⟩
    exact extends_fail hsession hguard hadvance
  · rcases step_backend hstep with ⟨push, hsession, -, rfl⟩
    exact extends_backend hsession

/-- New objects come behind the old ones. -/
theorem objects_step (hstep : w.step git action = some w') :
    ∃ commits, w'.repository.objects = w.repository.objects ++ commits := by
  have hadvance : ∀ {w₁ : World} {session : Session}, w.advance git session = some w₁ →
      ∃ commits, w₁.repository.objects = w.repository.objects ++ commits := by
    intro w₁ session h
    cases hbefore : session.headBefore with
    | none => exact (extends_advance_calm hbefore h).objects
    | some before => exact ⟨[], by simpa using (repository_advance_push hbefore h).1⟩
  rcases isOthers_or_starts action with hothers | ⟨session, hstart⟩ | rfl | ⟨effective, rfl⟩
    | ⟨commits, head, outcome, rfl⟩
  · exact (extends_others hothers hstep).objects
  · rcases step_start hstart hstep with ⟨-, rfl⟩
    exact ⟨[], by simp [goto]⟩
  · rcases Option.bind_eq_some_iff.mp hstep with ⟨session, -, h⟩
    exact hadvance h
  · rcases Option.bind_eq_some_iff.mp hstep with ⟨session, -, hfail⟩
    rcases Option.map_eq_some_iff.mp hfail with ⟨w₁, h, rfl⟩
    rw [repository_failed]
    cases effective with
    | true => exact hadvance h
    | false =>
      cases h
      exact ⟨[], by simp⟩
  · rcases step_backend hstep with ⟨push, hsession, -, rfl⟩
    exact (extends_backend hsession).objects

/-- The version of the workspace does not go back. -/
theorem version_step (hstep : w.step git action = some w') :
    w.project.workspaceVersion ≤ w'.project.workspaceVersion := by
  have hadvance : ∀ {w₁ : World} {session : Session}, w.advance git session = some w₁ →
      w.project.workspaceVersion ≤ w₁.project.workspaceVersion := by
    intro w₁ session h
    rcases project_advance h with hsame | ⟨expected, prepared, -, happlied⟩
    · rw [hsame]
    · have hversion := (applyRepoImport_ok happlied).2.2.2.2.1
      omega
  rcases isOthers_or_starts action with hothers | ⟨session, hstart⟩ | rfl | ⟨effective, rfl⟩
    | ⟨commits, head, outcome, rfl⟩
  · exact (step_others hothers hstep).1.version_le
  · rcases step_start hstart hstep with ⟨-, rfl⟩
    exact le_refl _
  · rcases Option.bind_eq_some_iff.mp hstep with ⟨session, -, h⟩
    exact hadvance h
  · rcases Option.bind_eq_some_iff.mp hstep with ⟨session, -, hfail⟩
    rcases Option.map_eq_some_iff.mp hfail with ⟨w₁, h, rfl⟩
    rw [((SameRows.refl w₁).failed session).project]
    cases effective with
    | true => exact hadvance h
    | false =>
      cases h
      exact le_refl _
  · rcases step_backend hstep with ⟨push, -, -, rfl⟩
    rw [(sameRows_runBackend git w push commits head outcome).project]

/-! ## Known heads -/

/-- HEAD is among the commits, and so is the HEAD that a push found. -/
structure KnowsHeads (w : World) : Prop where
  head : w.repository.Knows w.repository.head
  before : ∀ session ∈ w.session, ∀ before ∈ session.headBefore, w.repository.Knows before

theorem KnowsHeads.advance (h : w.KnowsHeads) (hsession : w.session = some session)
    (hadvance : w.advance git session = some w') : w'.KnowsHeads := by
  have hleads := advance_leadsTo hadvance
  cases hbefore : session.headBefore with
  | none =>
    have hextends := extends_advance_calm hbefore hadvance
    refine ⟨hextends.known h.head, ?_⟩
    intro next hnext before hmem
    rcases headBefore_of_leadsTo (hleads next hnext) hbefore with hnone
      | ⟨pendingSync, push, rfl, rfl⟩
    · simp [hnone] at hmem
    -- the HEAD that is captured
    rw [← Option.some.inj hadvance, World.goto, Option.mem_some_iff] at hnext
    rw [Session.headBefore, Option.mem_some_iff] at hmem
    rw [← Option.some.inj hadvance, ← hmem, ← Session.pushBackend.inj hnext]
    exact h.head
  | some before =>
    rcases repository_advance_push hbefore hadvance with ⟨hobjects, hhead⟩
    have hknown : ∀ head, w.repository.Knows head → w'.repository.Knows head := by
      intro head hhead oid hoid
      rw [hobjects]
      exact hhead oid hoid
    have hfound := hknown before (h.before session hsession before hbefore)
    constructor
    · rcases hhead with hsame | ⟨-, hmoved⟩
      · rw [hsame]
        exact hknown _ h.head
      · rw [hmoved]
        exact hfound
    · intro next hnext before' hmem
      rcases headBefore_of_push (hleads next hnext) hbefore with hsame | ⟨-, -, -, hnone⟩
      · rw [hsame, Option.mem_some_iff] at hmem
        rw [← hmem]
        exact hfound
      · simp [hnone] at hmem

theorem KnowsHeads.fail (h : w.KnowsHeads) (hsession : w.session = some session)
    (hfail : (if effective then w.advance git session else some w) = some w') :
    (w'.failed session).KnowsHeads := by
  have hnext : w'.KnowsHeads := by
    cases effective with
    | true => exact h.advance hsession hfail
    | false => exact Option.some.inj hfail ▸ h
  have hknown : ∀ before ∈ session.headBefore, w'.repository.Knows before := by
    intro before hbefore
    have hfound := h.before session hsession before hbefore
    cases effective with
    | true =>
      have hobjects := (repository_advance_push hbefore hfail).1
      intro oid hoid
      rw [hobjects]
      exact hfound oid hoid
    | false => exact Option.some.inj hfail ▸ hfound
  refine ⟨by rw [repository_failed]; exact hnext.head, ?_⟩
  intro next hnext before hbefore
  rw [repository_failed]
  have hbind : before ∈ ((w'.failed session).session).bind Session.headBefore :=
    Option.mem_def.mpr (Option.bind_eq_some_iff.mpr ⟨next, hnext, hbefore⟩)
  rcases headBefore_failed w' session with hsame | ⟨hnone, -⟩
  · rw [hsame] at hbind
    exact hknown before hbind
  · simp [hnone] at hbind

theorem KnowsHeads.backend {head : Option Oid} {outcome : BackendOutcome} (h : w.KnowsHeads)
    (hsession : w.session = some (.pushBackend push))
    (hhead : ∀ oid ∈ head, oid < w.repository.objects.length + commits.length) :
    (w.runBackend git push commits head outcome).KnowsHeads := by
  have hfound : w.repository.Knows push.headBefore := h.before _ hsession _ rfl
  have hmoved : ∀ repository : Repository,
      repository.objects = w.repository.objects ++ commits → repository.head = head →
        repository.Knows repository.head ∧ repository.Knows push.headBefore := by
    intro repository hobjects hsame
    refine ⟨?_, hfound.append hobjects⟩
    intro oid hoid
    rw [hsame] at hoid
    rw [hobjects, List.length_append]
    exact hhead oid hoid
  cases outcome with
  | responded success =>
    have hrepository := hmoved
      (w.runBackend git push commits head (.responded success)).repository
      (by simp only [runBackend, goto]; split <;> rfl) (by simp only [runBackend, goto]; split <;> rfl)
    refine ⟨hrepository.1, ?_⟩
    intro next hnext before hbefore
    cases hnext
    cases hbefore
    exact hrepository.2
  | interrupted index worktree =>
    simp only [runBackend]
    split
    · exact ⟨(hmoved _ rfl rfl).1, by simp [endPush]⟩
    refine ⟨(hmoved _ rfl rfl).1, ?_⟩
    intro next hnext before hbefore
    cases hnext
    cases hbefore
    exact (hmoved _ rfl rfl).2

theorem KnowsHeads.step (h : w.KnowsHeads)
    (hstep : w.step git action = some w') : w'.KnowsHeads := by
  rcases isOthers_or_starts action with hothers | ⟨started, hstart⟩ | rfl | ⟨effective, rfl⟩
    | ⟨commits, head, outcome, rfl⟩
  · rcases step_others hothers hstep with ⟨hdrift, -, hsession⟩
    refine ⟨by rw [hdrift.repository]; exact h.head, ?_⟩
    intro session hmem before hbefore
    rw [hdrift.repository]
    rcases hsession with hsame | ⟨content, hnoted⟩
    · exact h.before session (hsame ▸ hmem) before hbefore
    rw [hnoted, Option.mem_def, Option.map_eq_some_iff] at hmem
    rcases hmem with ⟨session', hsession', rfl⟩
    rw [headBefore_noteChange] at hbefore
    exact h.before session' hsession' before hbefore
  · rcases step_start hstart hstep with ⟨-, rfl⟩
    refine ⟨h.head, ?_⟩
    intro session hmem before hbefore
    cases hmem
    simp [headBefore_of_start hstart] at hbefore
  · rcases Option.bind_eq_some_iff.mp hstep with ⟨session, hsession, hadvance⟩
    exact h.advance hsession hadvance
  · rcases Option.bind_eq_some_iff.mp hstep with ⟨session, hsession, hfail⟩
    rcases Option.map_eq_some_iff.mp hfail with ⟨w₁, hadvance, rfl⟩
    exact h.fail hsession hadvance
  · rcases step_backend hstep with ⟨push, hsession, hhead, rfl⟩
    exact h.backend hsession hhead

/-! ## Accepted heads -/

theorem descends_goto (h : w.Descends next) :
    ∀ session ∈ (w.goto next).session, (w.goto next).Descends session := by
  intro session hsession
  cases hsession
  exact h

theorem descends_reconcile :
    ∀ session ∈ (w.reconcile git push success).session,
      (w.reconcile git push success).Descends session := by
  unfold World.reconcile
  dsimp only
  split
  · simp [release]
  split
  · exact descends_goto trivial
  next haccepted =>
  have hdescends : w.repository.Follows w.repository.head push.headBefore := by
    simp only [Bool.or_eq_true, Bool.not_eq_true', not_or, Bool.not_eq_false] at haccepted
    exact Repository.follows_of_isAllowedUpdate haccepted.2
  split
  · split
    · exact descends_goto trivial
    split
    · exact descends_goto trivial
    · exact descends_goto hdescends
  · split
    · exact descends_goto trivial
    · exact descends_goto hdescends

theorem descends_advance (hw : w.Descends session) (h : w.advance git session = some w') :
    ∀ next ∈ w'.session, w'.Descends next := by
  cases session with
  | pushCapture pendingSync =>
    cases h
    exact descends_goto rfl
  | pushReconcile push success =>
    cases h
    exact descends_reconcile
  | pushImport push prepared | pushMerge push prepared =>
    simp only [World.advance] at h
    split at h <;> cases h
    · exact descends_goto trivial
    · exact descends_goto hw
  | pushMergeSync push =>
    rcases Option.map_eq_some_iff.mp h with ⟨written, hsync, rfl⟩
    rcases Option.map_eq_some_iff.mp hsync with ⟨tree, -, rfl⟩
    exact descends_goto hw
  | _ =>
    intro next hnext
    have hleads := advance_leadsTo h next hnext
    cases next <;> trivial

theorem descends_noteChange {content : ProjectContent} (hw : w.Descends session) :
    w.Descends (session.noteChange content) := by
  cases session with
  | flush next after => cases after <;> trivial
  | _ => exact hw

theorem Descends.congr (hw : w.Descends session) (h : w'.repository = w.repository) :
    w'.Descends session := by
  unfold Descends at hw ⊢
  rw [h]
  exact hw

theorem descends_step (hw : ∀ session ∈ w.session, w.Descends session)
    (hstep : w.step git action = some w') : ∀ session ∈ w'.session, w'.Descends session := by
  refine forall_session_step (fun _ _ _ => trivial) ?_ ?_ ?_ (fun _ _ => trivial)
    (fun _ _ _ _ _ => trivial) hstep
  · intro _ hdrift session hsession
    have hbefore := hw session hsession
    exact ⟨hbefore.congr hdrift.repository,
      fun _ => (descends_noteChange hbefore).congr hdrift.repository⟩
  · intro started hstart
    -- an operation that starts has read no head
    have hcalm := headBefore_of_start hstart
    cases started <;> trivial
  · intro _ session hsession hadvance
    exact descends_advance (hw session hsession) hadvance

end World

end Toss.Versioning
