import Mathlib.Data.List.Sort

/-!
# Tables as lists of rows

The fragment of SQL the models use, over any row type: an update with a filter,
the same update drawing a value from a sequence for every row it touches, and
`order by`. The lemmas are frame facts: what a statement leaves alone.
-/

namespace Toss.Foundation

variable {ρ κ : Type*}

/-- `update … set … where cond`. -/
def updateWhere (cond : ρ → Bool) (set : ρ → ρ) (rows : List ρ) : List ρ :=
  rows.map fun row => if cond row then set row else row

/-- `update … set column = nextval(sequence) where cond`: each row the update
touches takes the next value of the sequence, which is returned as it stands
after the statement. -/
def updateDrawing (cond : ρ → Bool) (set : Int → ρ → ρ) : Int → List ρ → List ρ × Int
  | next, [] => ([], next)
  | next, row :: rows =>
    if cond row then
      let (rest, next') := updateDrawing cond set (next + 1) rows
      (set next row :: rest, next')
    else
      let (rest, next') := updateDrawing cond set next rows
      (row :: rest, next')

/-- `order by key asc`; rows with equal keys keep their order. -/
def orderBy [LinearOrder κ] (key : ρ → κ) (rows : List ρ) : List ρ :=
  rows.insertionSort fun a b => key a ≤ key b

/-- `insert … on conflict (key) do update`: the row takes the place of the one with its key,
if there is one. -/
def upsertRow [DecidableEq κ] (key : ρ → κ) (row : ρ) (rows : List ρ) : List ρ :=
  if rows.any (key · = key row) then updateWhere (key · = key row) (fun _ => row) rows
  else rows ++ [row]

/-! ## Frame facts -/

variable {set : ρ → ρ} {cond : ρ → Bool} {rows : List ρ}

/-- A column that an update does not set keeps all its values. -/
theorem map_updateWhere {column : ρ → κ}
    (hset : ∀ row, cond row = true → column (set row) = column row) (rows : List ρ) :
    (updateWhere cond set rows).map column = rows.map column := by
  simp only [updateWhere, List.map_map]
  refine List.map_congr_left fun row _ => ?_
  simp only [Function.comp_apply]
  split
  · rename_i hcond
    exact hset row hcond
  · rfl

/-- Looking a row up by columns an update does not set finds the row it found
before, updated if the update touches it. -/
theorem find?_updateWhere {cond lookup : ρ → Bool}
    (hset : ∀ row, lookup (set row) = lookup row) (rows : List ρ) :
    (updateWhere cond set rows).find? lookup
      = (rows.find? lookup).map fun row => if cond row then set row else row := by
  have hlookup : (lookup ∘ fun row => if cond row then set row else row) = lookup := by
    funext row
    simp only [Function.comp_apply]
    split
    · exact hset row
    · rfl
  rw [updateWhere, List.find?_map, hlookup]

/-- An update that neither touches nor makes a row being looked up is not seen. -/
theorem find?_updateWhere_of_frame {cond lookup : ρ → Bool}
    (hframe : ∀ row, cond row = true → lookup row = false ∧ lookup (set row) = false)
    (rows : List ρ) : (updateWhere cond set rows).find? lookup = rows.find? lookup := by
  induction rows with
  | nil => rfl
  | cons row rows ih =>
    simp only [updateWhere, List.map_cons, List.find?_cons] at ih ⊢
    by_cases hcond : cond row = true
    · simp only [hcond, if_true, (hframe row hcond).1, (hframe row hcond).2, ih]
    · simp only [hcond, if_false, ih, Bool.false_eq_true]

theorem mem_updateWhere {row : ρ} :
    row ∈ updateWhere cond set rows ↔
      ∃ old ∈ rows, (cond old = true ∧ row = set old) ∨ (cond old = false ∧ row = old) := by
  simp only [updateWhere, List.mem_map]
  refine exists_congr fun old => and_congr_right fun _ => ?_
  cases cond old <;> simp [eq_comm]

/-- An update whose filter no row meets changes nothing. -/
theorem updateWhere_eq_self
    (hcond : ∀ row ∈ rows, cond row = false) : updateWhere cond set rows = rows := by
  have hkept : ∀ row ∈ rows, (if cond row then set row else row) = row := by
    intro row hrow
    rw [hcond row hrow]
    rfl
  rw [updateWhere, List.map_congr_left hkept, List.map_id']

theorem mem_upsertRow [DecidableEq κ] {key : ρ → κ} {row other : ρ} :
    other ∈ upsertRow key row rows ↔ other = row ∨ (other ∈ rows ∧ key other ≠ key row) := by
  unfold upsertRow
  split
  · next hknown =>
    rcases List.any_eq_true.mp hknown with ⟨known, hmem, hkey⟩
    simp only [mem_updateWhere, decide_eq_true_eq, decide_eq_false_iff_not]
    constructor
    · rintro ⟨old, hold, ⟨-, rfl⟩ | ⟨hne, rfl⟩⟩
      · exact .inl rfl
      · exact .inr ⟨hold, hne⟩
    · rintro (rfl | ⟨hother, hne⟩)
      · exact ⟨known, hmem, .inl ⟨of_decide_eq_true hkey, rfl⟩⟩
      · exact ⟨other, hother, .inr ⟨hne, rfl⟩⟩
  · next hunknown =>
    rw [List.mem_append, List.mem_singleton, or_comm]
    refine or_congr_right ?_
    constructor
    · intro hother
      refine ⟨hother, fun hkey => ?_⟩
      exact hunknown (List.any_eq_true.mpr ⟨other, hother, decide_eq_true hkey⟩)
    · exact fun h => h.1

/-- An upsert leaves every other row whose key it does not have. -/
theorem mem_upsertRow_of_ne [DecidableEq κ] {key : ρ → κ} {row other : ρ} (hne : other ≠ row)
    (hkey : other ∈ rows → key other ≠ key row) :
    other ∈ upsertRow key row rows ↔ other ∈ rows := by
  rw [mem_upsertRow]
  exact ⟨fun h => (h.resolve_left hne).1, fun h => .inr ⟨h, hkey h⟩⟩

/-- An upsert is not seen by a query that finds no row with its key. -/
theorem find?_upsertRow_of_not [DecidableEq κ] {key : ρ → κ} {lookup : ρ → Bool} {row : ρ}
    (hlookup : ∀ other, key other = key row → lookup other = false) (rows : List ρ) :
    (upsertRow key row rows).find? lookup = rows.find? lookup := by
  unfold upsertRow
  split
  · refine find?_updateWhere_of_frame ?_ rows
    intro other hother
    exact ⟨hlookup other (of_decide_eq_true hother), hlookup row rfl⟩
  · rw [List.find?_append, List.find?_cons, hlookup row rfl, List.find?_nil, Option.or_none]

/-- An upserted row is the one with its key. -/
theorem find?_upsertRow_self [DecidableEq κ] (key : ρ → κ) (row : ρ) (rows : List ρ) :
    (upsertRow key row rows).find? (key · = key row) = some row := by
  cases hfound : (upsertRow key row rows).find? (key · = key row) with
  | none =>
    have hnot := List.find?_eq_none.mp hfound row (mem_upsertRow.mpr (.inl rfl))
    simp at hnot
  | some found =>
    rcases mem_upsertRow.mp (List.mem_of_find?_eq_some hfound) with rfl | ⟨-, hne⟩
    · rfl
    · have hkey := List.find?_some hfound
      rw [decide_eq_true_eq] at hkey
      exact absurd hkey hne

/-- A filter that an update keeps may be applied before it. -/
theorem filter_updateWhere {cond keep : ρ → Bool}
    (hset : ∀ row, keep (set row) = keep row) (rows : List ρ) :
    (updateWhere cond set rows).filter keep = updateWhere cond set (rows.filter keep) := by
  simp only [updateWhere, List.filter_map]
  congr 1
  refine List.filter_congr fun row _ => ?_
  simp only [Function.comp_apply]
  split
  · exact hset row
  · rfl

/-- A query that finds neither the rows of an update nor what it makes of them. -/
theorem filter_updateWhere_of_not {cond keep : ρ → Bool}
    (h : ∀ row ∈ rows, cond row = true → keep row = false ∧ keep (set row) = false) :
    (updateWhere cond set rows).filter keep = rows.filter keep := by
  induction rows with
  | nil => rfl
  | cons row rows ih =>
    have hrest : (updateWhere cond set rows).filter keep = rows.filter keep :=
      ih fun other hother => h other (List.mem_cons_of_mem _ hother)
    have hcons : updateWhere cond set (row :: rows)
        = (if cond row then set row else row) :: updateWhere cond set rows := rfl
    rw [hcons, List.filter_cons, List.filter_cons, hrest]
    by_cases hcond : cond row = true
    · rcases h row List.mem_cons_self hcond with ⟨hbefore, hafter⟩
      rw [if_pos hcond, hbefore, hafter, if_neg Bool.false_ne_true, if_neg Bool.false_ne_true]
    · rw [if_neg hcond]

/-- The one row that a query on a key finds. -/
theorem filter_eq_singleton {keep : ρ → Bool} {column : ρ → κ} {row : ρ}
    (hkeys : (rows.map column).Nodup) (hrow : row ∈ rows) (hkeep : keep row = true)
    (hcolumn : ∀ other ∈ rows, keep other = true → column other = column row) :
    rows.filter keep = [row] := by
  have hnodup : (rows.filter keep).Nodup := (List.Nodup.of_map column hkeys).filter keep
  have hperm : (rows.filter keep).Perm [row] := by
    refine (List.perm_ext_iff_of_nodup hnodup (List.nodup_singleton row)).mpr fun other => ?_
    rw [List.mem_filter, List.mem_singleton]
    constructor
    · rintro ⟨hother, hkept⟩
      exact List.inj_on_of_nodup_map hkeys hother hrow (hcolumn other hother hkept)
    · rintro rfl
      exact ⟨hrow, hkeep⟩
  exact List.perm_singleton.mp hperm

theorem map_updateDrawing {set : Int → ρ → ρ} {column : ρ → κ}
    (hset : ∀ next row, column (set next row) = column row) (next : Int) (rows : List ρ) :
    (updateDrawing cond set next rows).1.map column = rows.map column := by
  induction rows generalizing next with
  | nil => rfl
  | cons row rows ih =>
    simp only [updateDrawing]
    split
    · simp [hset, ih]
    · simp [ih]

section OrderBy

variable [LinearOrder κ] (key : ρ → κ)

theorem orderBy_perm (rows : List ρ) : (orderBy key rows).Perm rows :=
  List.perm_insertionSort _ rows

theorem mem_orderBy {row : ρ} {rows : List ρ} : row ∈ orderBy key rows ↔ row ∈ rows :=
  (orderBy_perm key rows).mem_iff

theorem orderBy_sorted (rows : List ρ) :
    (orderBy key rows).Pairwise fun a b => key a ≤ key b := by
  exact List.pairwise_insertionSort _ rows

end OrderBy

end Toss.Foundation
