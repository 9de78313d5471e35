import Toss.Workspace.DocumentFeed
import Toss.Workspace.ProjectPaths

/-!
# The paths of committed documents

The unique index on the path and the row locks, over every interleaving of
transactions: what a transaction sees has no path twice, and neither has what is
committed. With the paths of the requests sanitized, so are those of the rows.

* `PathInv` — identifiers and paths, committed and in flight;
* `PathInv.commit` — two transactions that wrote no path in common;
* `pathInv_step` — kept by every step that brings sanitized paths.
-/

namespace Toss.Workspace

open Toss.Foundation

variable {rows : List DocumentRow}

theorem mem_numbered {set : Int → DocumentRow → DocumentRow} {next : Int}
    {row : DocumentRow} (h : row ∈ (numbered set next rows).1) :
    ∃ old ∈ rows, ∃ number, row = set number old := by
  induction rows generalizing next with
  | nil => simp [numbered, updateDrawing] at h
  | cons first rows ih =>
    have hcons : row ∈ set next first :: (numbered set (next + 1) rows).1 := h
    rcases List.mem_cons.mp hcons with rfl | hrest
    · exact ⟨first, List.mem_cons_self, next, rfl⟩
    · rcases ih hrest with ⟨old, hold, number, heq⟩
      exact ⟨old, List.mem_cons_of_mem _ hold, number, heq⟩

/-- The path that a request names went through `sanitize_project_path`. -/
def DocumentWrite.IsSanitized : DocumentWrite → Prop
  | .insert _ path _ | .upsertByPath _ path _ => IsProjectPath path
  | .moveSubtree _ toPath => IsProjectPath toPath
  | .updateContent .. | .updateProjectedContent .. => True

instance : (statement : DocumentWrite) → Decidable statement.IsSanitized
  | .insert _ path _ | .upsertByPath _ path _ => inferInstanceAs (Decidable (IsProjectPath path))
  | .moveSubtree _ toPath => inferInstanceAs (Decidable (IsProjectPath toPath))
  | .updateContent .. | .updateProjectedContent .. => .isTrue trivial

theorem DocumentWrite.changed_isProjectPath {statement : DocumentWrite}
    (hsanitized : statement.IsSanitized) (projectId : Uuid) (drawn next : Int)
    (hrows : ∀ row ∈ rows, IsProjectPath row.path) :
    ∀ row ∈ (statement.changed projectId drawn next rows).1, IsProjectPath row.path := by
  -- a row that keeps its path had it before
  have hkept : ∀ (set : Int → DocumentRow → DocumentRow) (cond : DocumentRow → Bool),
      (∀ number row, (set number row).path = row.path) →
      ∀ row ∈ (numbered set next (rows.filter cond)).1, IsProjectPath row.path := by
    intro set cond hset row hrow
    rcases mem_numbered hrow with ⟨old, hold, number, rfl⟩
    rw [hset]
    exact hrows old (List.mem_of_mem_filter hold)
  cases statement with
  | insert id path content =>
    intro row hrow
    rcases List.mem_singleton.mp hrow with rfl
    exact hsanitized
  | upsertByPath id path content =>
    intro row hrow
    simp only [DocumentWrite.changed] at hrow
    split at hrow
    · rcases List.mem_singleton.mp hrow with rfl
      exact hsanitized
    · exact hkept (.replaced content) _ (fun _ _ => rfl) row hrow
  | updateContent documentId pathRevision collaborationRevision content =>
    exact hkept (.replaced content) _ fun _ _ => rfl
  | updateProjectedContent documentId collaborationRevision content =>
    exact hkept (.projected content) _ fun _ _ => rfl
  | moveSubtree fromPath toPath =>
    intro row hrow
    rcases mem_numbered hrow with ⟨old, hold, number, rfl⟩
    simp only [List.mem_filter, decide_eq_true_eq] at hold
    exact isProjectPath_pathMovedTo (hrows old hold.1) hsanitized hold.2.2

theorem DocumentWrite.changed_ids_nodup (statement : DocumentWrite) (projectId : Uuid)
    (drawn next : Int) (hrows : (rows.map DocumentRow.id).Nodup) :
    ((statement.changed projectId drawn next rows).1.map DocumentRow.id).Nodup := by
  have hkept : ∀ (set : Int → DocumentRow → DocumentRow) (cond : DocumentRow → Bool),
      (∀ number row, (set number row).id = row.id) →
      ((numbered set next (rows.filter cond)).1.map DocumentRow.id).Nodup := by
    intro set cond hset
    rw [numbered, map_updateDrawing hset]
    exact hrows.sublist (List.filter_sublist.map _)
  cases statement with
  | insert id path content => simp [DocumentWrite.changed]
  | upsertByPath id path content =>
    simp only [DocumentWrite.changed]
    split
    · simp
    · exact hkept (.replaced content) _ fun _ _ => rfl
  | updateContent documentId pathRevision collaborationRevision content =>
    exact hkept (.replaced content) _ fun _ _ => rfl
  | updateProjectedContent documentId collaborationRevision content =>
    exact hkept (.projected content) _ fun _ _ => rfl
  | moveSubtree fromPath toPath => exact hkept (.moved fromPath toPath) _ fun _ _ => rfl

namespace Feed

/-! ## Rows and views -/

theorem pathsUnique_iff {rows : List DocumentRow} :
    pathsUnique rows = true ↔ ∀ row ∈ rows, ∀ other ∈ rows,
      row.projectId = other.projectId → row.path = other.path → row.id = other.id := by
  simp only [pathsUnique, List.all_eq_true, Bool.or_eq_true, Bool.not_eq_true',
    Bool.and_eq_false_iff, decide_eq_false_iff_not, decide_eq_true_eq]
  refine forall₂_congr fun row _ => forall₂_congr fun other _ => ?_
  constructor
  · rintro ((hproject | hpath) | hid) hproject' hpath'
    · exact absurd hproject' hproject
    · exact absurd hpath' hpath
    · exact hid
  · intro h
    by_cases hproject : row.projectId = other.projectId
    · by_cases hpath : row.path = other.path
      · exact .inr (h hproject hpath)
      · exact .inl (.inr hpath)
    · exact .inl (.inl hproject)

theorem pathsUnique_mono {rows rows' : List DocumentRow} (h : pathsUnique rows = true)
    (hsub : ∀ row ∈ rows', row ∈ rows) : pathsUnique rows' = true := by
  rw [pathsUnique_iff] at h ⊢
  intro row hrow other hother
  exact h row (hsub row hrow) other (hsub other hother)

variable {documents : List DocumentRow} {row : DocumentRow}

theorem Transaction.mem_view {txn : Transaction}
    :
    row ∈ txn.view documents ↔ (row ∈ documents ∧ txn.touches row.id = false) ∨ row ∈ txn.written := by
  simp [Transaction.view]

theorem Transaction.touches_of_written {txn : Transaction}
    (h : row ∈ txn.written) : txn.touches row.id = true := by
  simp only [Transaction.touches, Bool.or_eq_true, List.any_eq_true, decide_eq_true_eq]
  exact .inr ⟨row, h, rfl⟩

/-- A view has no identifier twice: a written row stands in for the committed one. -/
theorem Transaction.view_ids_nodup {txn : Transaction}
    (hdocuments : (documents.map DocumentRow.id).Nodup)
    (hwritten : (txn.written.map DocumentRow.id).Nodup) :
    ((txn.view documents).map DocumentRow.id).Nodup := by
  rw [Transaction.view, List.map_append, List.nodup_append']
  refine ⟨hdocuments.sublist (List.filter_sublist.map _), hwritten, ?_⟩
  intro id hid hid'
  rcases List.mem_map.mp hid with ⟨row, hrow, rfl⟩
  rcases List.mem_map.mp hid' with ⟨other, hother, heq⟩
  have htouched := Transaction.touches_of_written hother
  rw [heq] at htouched
  simp [htouched] at hrow

theorem Transaction.mem_write {txn : Transaction} {changed : List DocumentRow}
    (h : row ∈ (txn.write changed).written) :
    row ∈ txn.written ∨ row ∈ changed := by
  rcases List.mem_append.mp h with hold | hnew
  · exact .inl (List.mem_of_mem_filter hold)
  · exact .inr hnew

theorem Transaction.write_ids_nodup {txn : Transaction} {changed : List DocumentRow}
    (hwritten : (txn.written.map DocumentRow.id).Nodup)
    (hchanged : (changed.map DocumentRow.id).Nodup) :
    ((txn.write changed).written.map DocumentRow.id).Nodup := by
  simp only [Transaction.write]
  rw [List.map_append, List.nodup_append']
  refine ⟨hwritten.sublist (List.filter_sublist.map _), hchanged, ?_⟩
  intro id hid hid'
  rcases List.mem_map.mp hid with ⟨row, hrow, rfl⟩
  rcases List.mem_map.mp hid' with ⟨new, hnew, heq⟩
  have hkept := (List.mem_filter.mp hrow).2
  simp only [Bool.not_eq_true', List.any_eq_false, decide_eq_true_eq] at hkept
  exact hkept new hnew heq

/-- A delete shows less. -/
theorem Transaction.mem_view_delete {txn : Transaction}
    {removed : List Uuid} (h : row ∈ (txn.delete removed).view documents) :
    row ∈ txn.view documents := by
  rw [Transaction.mem_view] at h ⊢
  rcases h with ⟨hrow, huntouched⟩ | hwritten
  · left
    refine ⟨hrow, ?_⟩
    -- what was written and is now deleted is still touched
    simp only [Transaction.touches, Transaction.delete, Bool.or_eq_false_iff, List.any_eq_false,
      decide_eq_true_eq, List.mem_filter, Bool.not_eq_true', List.contains_eq_mem,
      decide_eq_false_iff_not, List.mem_append, not_or] at huntouched ⊢
    refine ⟨huntouched.1.1, ?_⟩
    intro w hw heq
    exact huntouched.2 w ⟨hw, heq ▸ huntouched.1.2⟩ heq
  · exact .inr (List.mem_of_mem_filter hwritten)

theorem Store.not_isLocked {store : Store} {id : TransactionId} {rows : List DocumentRow}
    (h : store.isLocked id rows = false) {i : TransactionId} {other : Transaction}
    (hother : store.transactions[i]? = some other) (hne : i ≠ id) (hactive : other.active = true)
    {row w : DocumentRow} (hrow : row ∈ rows) (hw : w ∈ other.written)
    (hproject : w.projectId = row.projectId) : w.path ≠ row.path := by
  intro hpath
  simp only [Store.isLocked, Store.anyOther, List.any_eq_false, Bool.and_eq_true,
    decide_eq_true_eq, not_and] at h
  have hin : (other, i) ∈ store.transactions.zipIdx := by
    rw [List.mk_mem_zipIdx_iff_getElem?]
    exact hother
  have hlocked := h (other, i) hin ⟨hne, hactive⟩
  simp only [Bool.not_eq_true, Bool.or_eq_true, List.any_eq_true, decide_eq_true_eq,
    Bool.and_eq_true, not_or, not_exists, not_and] at hlocked
  exact (hlocked row hrow).2 w hw hproject hpath

/-! ## The invariant -/

structure PathInv (store : Store) : Prop where
  ids : (store.documents.map DocumentRow.id).Nodup
  writtenIds : ∀ txn ∈ store.transactions, (txn.written.map DocumentRow.id).Nodup
  committed : pathsUnique store.documents = true
  views : ∀ txn ∈ store.transactions, txn.active = true →
    pathsUnique (txn.view store.documents) = true
  /-- The entries of the unique index that a transaction wrote are locked. -/
  apart : ∀ (i j : TransactionId) (txn other : Transaction), store.transactions[i]? = some txn →
    store.transactions[j]? = some other → i ≠ j → txn.active = true → other.active = true →
    ∀ row ∈ txn.written, ∀ w ∈ other.written, w.projectId = row.projectId → w.path ≠ row.path
  sanitized : ∀ row ∈ store.documents, IsProjectPath row.path
  writtenSanitized : ∀ txn ∈ store.transactions, ∀ row ∈ txn.written, IsProjectPath row.path

theorem init_pathInv : PathInv Store.empty := by
  constructor <;> simp [Store.empty, pathsUnique]

namespace PathInv

variable {store : Store} {id : TransactionId} {txn txn' : Transaction}

section

variable (hinv : PathInv store)
include hinv

/-- Two committed rows of a project at one path are one row. -/
theorem row_eq {row other : DocumentRow} (hrow : row ∈ store.documents)
    (hother : other ∈ store.documents) (hproject : row.projectId = other.projectId)
    (hpath : row.path = other.path) : row = other := by
  have hid := pathsUnique_iff.mp hinv.committed row hrow other hother hproject hpath
  exact List.inj_on_of_nodup_map hinv.ids hrow hother hid

theorem viewSanitized (hmem : txn ∈ store.transactions) :
    ∀ row ∈ txn.view store.documents, IsProjectPath row.path := by
  intro row hrow
  rcases Transaction.mem_view.mp hrow with ⟨hold, -⟩ | hwritten
  · exact hinv.sanitized row hold
  · exact hinv.writtenSanitized txn hmem row hwritten

/-- A transaction goes on with rows of its own, whose paths no other wrote. -/
theorem replace (htxn : store.transactions[id]? = some txn)
    (next' : Int) (hids : (txn'.written.map DocumentRow.id).Nodup)
    (hview : txn'.active = true → pathsUnique (txn'.view store.documents) = true)
    (hapart : txn'.active = true → ∀ i other, store.transactions[i]? = some other → i ≠ id →
      other.active = true → ∀ row ∈ txn'.written, ∀ w ∈ other.written,
        w.projectId = row.projectId → w.path ≠ row.path)
    (hsanitized : ∀ row ∈ txn'.written, IsProjectPath row.path) :
    PathInv { store.setTransaction id txn' with nextChangeSequence := next' } := by
  refine
    { ids := hinv.ids, writtenIds := ?_, committed := hinv.committed, views := ?_, apart := ?_,
      sanitized := hinv.sanitized, writtenSanitized := ?_ }
  · intro other hother
    rcases Inv.mem_setTransaction hother with hold | rfl
    · exact hinv.writtenIds other hold
    · exact hids
  · intro other hother hactive
    rcases Inv.mem_setTransaction hother with hold | rfl
    · exact hinv.views other hold hactive
    · exact hview hactive
  · intro i j fst snd hfst hsnd hne hfstActive hsndActive row hrow w hw hproject
    rcases Inv.getElem?_setTransaction hfst with ⟨rfl, rfl⟩ | ⟨hi, hfstOld⟩
    · rcases Inv.getElem?_setTransaction hsnd with ⟨rfl, -⟩ | ⟨hj, hsndOld⟩
      · exact absurd rfl hne
      · exact hapart hfstActive j snd hsndOld hj hsndActive row hrow w hw hproject
    rcases Inv.getElem?_setTransaction hsnd with ⟨rfl, rfl⟩ | ⟨-, hsndOld⟩
    · exact (hapart hsndActive i fst hfstOld hi hfstActive w hw row hrow hproject.symm).symm
    · exact hinv.apart i j fst snd hfstOld hsndOld hne hfstActive hsndActive row hrow w hw
        hproject
  · intro other hother
    rcases Inv.mem_setTransaction hother with hold | rfl
    · exact hinv.writtenSanitized other hold
    · exact hsanitized

/-- A transaction whose rows are among those it had. -/
theorem keep (htxn : store.transactions[id]? = some txn)
    (hactive : txn.active = true) (next' : Int) (hwritten : txn'.written.Sublist txn.written)
    (hview : ∀ row ∈ txn'.view store.documents, row ∈ txn.view store.documents) :
    PathInv { store.setTransaction id txn' with nextChangeSequence := next' } := by
  have hmem : txn ∈ store.transactions := List.mem_of_getElem? htxn
  refine hinv.replace htxn next' ((hinv.writtenIds txn hmem).sublist (hwritten.map _)) ?_ ?_ ?_
  · intro _
    exact pathsUnique_mono (hinv.views txn hmem hactive) hview
  · intro _ i other hother hne hotherActive row hrow w hw hproject
    exact hinv.apart id i txn other htxn hother hne.symm hactive hotherActive row
      (hwritten.subset hrow) w hw hproject
  · intro row hrow
    exact hinv.writtenSanitized txn hmem row (hwritten.subset hrow)

theorem write (htxn : store.transactions[id]? = some txn)
    (hactive : txn.active = true) (next' : Int) {changed : List DocumentRow}
    (hids : (changed.map DocumentRow.id).Nodup) (hunlocked : store.isLocked id changed = false)
    (hunique : pathsUnique ((txn.write changed).view store.documents) = true)
    (hsanitized : ∀ row ∈ changed, IsProjectPath row.path) :
    PathInv { store.setTransaction id (txn.write changed) with nextChangeSequence := next' } := by
  have hmem : txn ∈ store.transactions := List.mem_of_getElem? htxn
  refine hinv.replace htxn next' (Transaction.write_ids_nodup (hinv.writtenIds txn hmem) hids)
    (fun _ => hunique) ?_ ?_
  · intro _ i other hother hne hotherActive row hrow w hw hproject
    rcases Transaction.mem_write hrow with hold | hnew
    · exact hinv.apart id i txn other htxn hother hne.symm hactive hotherActive row hold w hw
        hproject
    · exact Store.not_isLocked hunlocked hother hne hotherActive hnew hw hproject
  · intro row hrow
    rcases Transaction.mem_write hrow with hold | hnew
    · exact hinv.writtenSanitized txn hmem row hold
    · exact hsanitized row hnew

theorem commit (htxn : store.transactions[id]? = some txn) (hactive : txn.active = true) : PathInv
      { store.setTransaction id txn.finish with documents := txn.view store.documents } := by
  have hmem : txn ∈ store.transactions := List.mem_of_getElem? htxn
  have hview := pathsUnique_iff.mp (hinv.views txn hmem hactive)
  refine
    { ids := ?_, writtenIds := ?_, committed := hinv.views txn hmem hactive, views := ?_,
      apart := ?_, sanitized := hinv.viewSanitized hmem, writtenSanitized := ?_ }
  · exact Transaction.view_ids_nodup hinv.ids (hinv.writtenIds txn hmem)
  · intro other hother
    rcases Inv.mem_setTransaction hother with hold | rfl
    · exact hinv.writtenIds other hold
    · exact hinv.writtenIds txn hmem
  · intro other hother hotherActive
    rcases List.mem_iff_getElem?.mp hother with ⟨i, hi⟩
    rcases Inv.getElem?_setTransaction hi with ⟨rfl, rfl⟩ | ⟨hne, hi⟩
    · simp [Transaction.finish] at hotherActive
    have hotherMem : other ∈ store.transactions := List.mem_of_getElem? hi
    have hotherView := pathsUnique_iff.mp (hinv.views other hotherMem hotherActive)
    -- a committed row and a row written by the other transaction
    have hmixed : ∀ row ∈ txn.view store.documents, other.touches row.id = false →
        ∀ w ∈ other.written, w.projectId = row.projectId → w.path ≠ row.path ∨ w.id = row.id := by
      intro row hrow huntouched w hw hproject
      rcases Transaction.mem_view.mp hrow with ⟨hold, -⟩ | hwritten
      · by_cases hpath : w.path = row.path
        · right
          exact hotherView w (Transaction.mem_view.mpr (.inr hw)) row
            (Transaction.mem_view.mpr (.inl ⟨hold, huntouched⟩)) hproject hpath
        · exact .inl hpath
      · left
        exact hinv.apart id i txn other htxn hi (Ne.symm hne) hactive hotherActive row hwritten w
          hw hproject
    rw [pathsUnique_iff]
    intro row hrow w hw hproject hpath
    rcases Transaction.mem_view.mp hrow with ⟨hrow, hrowUntouched⟩ | hrow
    · rcases Transaction.mem_view.mp hw with ⟨hw, -⟩ | hw
      · exact hview row hrow w hw hproject hpath
      · rcases hmixed row hrow hrowUntouched w hw hproject.symm with hne | heq
        · exact absurd hpath.symm hne
        · exact heq.symm
    · rcases Transaction.mem_view.mp hw with ⟨hw, hwUntouched⟩ | hw
      · rcases hmixed w hw hwUntouched row hrow hproject with hne | heq
        · exact absurd hpath hne
        · exact heq
      · exact hotherView row (Transaction.mem_view.mpr (.inr hrow)) w
          (Transaction.mem_view.mpr (.inr hw)) hproject hpath
  · intro i j fst snd hfst hsnd hne hfstActive hsndActive
    rcases Inv.getElem?_setTransaction hfst with ⟨-, rfl⟩ | ⟨-, hfstOld⟩
    · simp [Transaction.finish] at hfstActive
    · rcases Inv.getElem?_setTransaction hsnd with ⟨-, rfl⟩ | ⟨-, hsndOld⟩
      · simp [Transaction.finish] at hsndActive
      · exact hinv.apart i j fst snd hfstOld hsndOld hne hfstActive hsndActive
  · intro other hother
    rcases Inv.mem_setTransaction hother with hold | rfl
    · exact hinv.writtenSanitized other hold
    · exact hinv.writtenSanitized txn hmem

theorem begin (projectId : Uuid) (exclusive : Bool) : PathInv { store with
        transactions := store.transactions ++
          [{ projectId, exclusive, drawn := none, written := [], deleted := [], dirty := false,
             active := true }] } := by
  have hcases : ∀ other ∈ store.transactions ++
      [({ projectId, exclusive, drawn := none, written := [], deleted := [], dirty := false,
          active := true } : Transaction)],
      other ∈ store.transactions ∨ (other.written = [] ∧ other.deleted = []) := by
    intro other hother
    rcases List.mem_append.mp hother with hold | hnew
    · exact .inl hold
    · right
      rw [List.mem_singleton.mp hnew]
      exact ⟨rfl, rfl⟩
  refine
    { ids := hinv.ids, writtenIds := ?_, committed := hinv.committed, views := ?_, apart := ?_,
      sanitized := hinv.sanitized, writtenSanitized := ?_ }
  · intro other hother
    rcases hcases other hother with hold | ⟨hnone, -⟩
    · exact hinv.writtenIds other hold
    · simp [hnone]
  · intro other hother hactive
    rcases hcases other hother with hold | ⟨hnone, hnone'⟩
    · exact hinv.views other hold hactive
    refine pathsUnique_mono hinv.committed ?_
    intro row hrow
    rcases Transaction.mem_view.mp hrow with ⟨hrow, -⟩ | hwritten
    · exact hrow
    · simp [hnone] at hwritten
  · intro i j fst snd hfst hsnd hne hfstActive hsndActive row hrow w hw
    have hcase : ∀ (k : TransactionId) (other : Transaction) (r : DocumentRow),
        (store.transactions ++
          [({ projectId, exclusive, drawn := none, written := [], deleted := [], dirty := false,
              active := true } : Transaction)])[k]? = some other →
        r ∈ other.written → store.transactions[k]? = some other := by
      intro k other r hk hr
      rw [List.getElem?_append] at hk
      split at hk
      · exact hk
      · rcases List.mem_singleton.mp (List.mem_of_getElem? hk) with rfl
        simp at hr
    exact hinv.apart i j fst snd (hcase i fst row hfst hrow) (hcase j snd w hsnd hw) hne hfstActive
      hsndActive row hrow w hw
  · intro other hother
    rcases hcases other hother with hold | ⟨hnone, -⟩
    · exact hinv.writtenSanitized other hold
    · simp [hnone]

end

end PathInv

/-! ## Steps -/

/-- The requests of the action name sanitized paths. -/
def IsSanitized : Action → Prop
  | .write _ statement => statement.IsSanitized
  | _ => True

instance : (action : Action) → Decidable (IsSanitized action)
  | .write _ statement => inferInstanceAs (Decidable statement.IsSanitized)
  | .begin .. | .draw _ | .delete .. | .markDirty _ | .commit _ | .abort _ | .openReader _
  | .read _ => .isTrue trivial

theorem transactionStep_pathInv {store store' : Store} {id : TransactionId} {txn : Transaction}
    {action : Action} (hinv : PathInv store) (htxn : store.transactions[id]? = some txn)
    (hactive : txn.active = true) (hsanitized : IsSanitized action)
    (hstep : TransactionStep store id txn action store') : PathInv store' := by
  have hmem : txn ∈ store.transactions := List.mem_of_getElem? htxn
  cases hstep with
  | draw _ hnone =>
    exact hinv.keep htxn hactive _ (List.Sublist.refl _) fun row hrow => hrow
  | write _ statement _ _ _ hunlocked _ hunique =>
    refine hinv.write htxn hactive _ ?_ hunlocked hunique ?_
    · exact statement.changed_ids_nodup _ _ _
        (Transaction.view_ids_nodup hinv.ids (hinv.writtenIds txn hmem))
    · exact DocumentWrite.changed_isProjectPath hsanitized _ _ _ (hinv.viewSanitized hmem)
  | delete _ statement =>
    exact hinv.keep htxn hactive store.nextChangeSequence List.filter_sublist
      fun row hrow => Transaction.mem_view_delete hrow
  | markDirty | abort =>
    exact hinv.keep htxn hactive store.nextChangeSequence (List.Sublist.refl _)
      fun row hrow => hrow
  | commit => exact hinv.commit htxn hactive

theorem pathInv_step {store store' : Store} {action : Action} (hinv : PathInv store)
    (hsanitized : IsSanitized action) (hstep : step store action = some store') :
    PathInv store' := by
  rcases step_cases hstep with ⟨id, txn, -, htxn, hactive, htransaction⟩
    | ⟨projectId, exclusive, rfl, rfl⟩ | ⟨projectId, rfl, rfl⟩ | ⟨id, reader, rfl, hreader, rfl⟩
  · exact transactionStep_pathInv hinv htxn hactive hsanitized htransaction
  · exact hinv.begin projectId exclusive
  · exact { hinv with }
  · exact { hinv with }

end Feed

end Toss.Workspace
