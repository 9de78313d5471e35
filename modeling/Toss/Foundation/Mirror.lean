import Mathlib.Data.List.AList
import Mathlib.Data.List.Induction
import Toss.Foundation.Feed

/-!
# Following a table in a map

A reader pages through a table that changes meanwhile, and keeps the last row it
was given under each name. The table has a name once at a time, a changed row
gets a key above every cursor handed out, and the reader may leave out rows that
it has no use for.

* `byName` — the map made of the rows received;
* `Delivered` — what a reader that started at one cursor has been given by the
  time it reached another;
* `Delivered.page`, `Delivered.change` — kept by a page and by a change;
* `Delivered.lookup_new`, `Delivered.lookup_old` — the map holds the rows between
  the cursors as they are, and none from before.
-/

namespace Toss.Foundation

variable {ρ ν β : Type*}

section ByName

variable [DecidableEq ν]

/-- The rows under their names, a later row in the place of an earlier one. -/
def byName (name : ρ → ν) (value : ρ → β) (rows : List ρ) : AList fun _ : ν => β :=
  rows.foldl (fun map row => map.insert (name row) (value row)) ∅

theorem byName_append_singleton (name : ρ → ν) (value : ρ → β) (rows : List ρ) (row : ρ) :
    byName name value (rows ++ [row]) = (byName name value rows).insert (name row) (value row) := by
  simp [byName]

/-- The last row of a name is the one found under it. -/
theorem lookup_byName (name : ρ → ν) (value : ρ → β) (rows : List ρ) (n : ν) :
    (byName name value rows).lookup n
      = ((rows.filter fun row => name row = n).getLast?).map value := by
  induction rows using List.reverseRec with
  | nil => rfl
  | append_singleton rows row ih =>
    rw [byName_append_singleton, List.filter_append]
    by_cases hname : name row = n
    · rw [hname, AList.lookup_insert]
      simp [hname]
    · have hne : n ≠ name row := fun heq => hname heq.symm
      rw [AList.lookup_insert_ne hne, ih]
      simp [hname]

/-- The one row of a name is found under it. -/
theorem lookup_byName_of_mem {name : ρ → ν} (value : ρ → β) {rows : List ρ} {row : ρ}
    (hrow : row ∈ rows) (hone : ∀ other ∈ rows, name other = name row → other = row) :
    (byName name value rows).lookup (name row) = some (value row) := by
  rw [lookup_byName]
  have hmem : row ∈ rows.filter fun other => name other = name row := by simp [hrow]
  rcases Option.isSome_iff_exists.mp (List.getLast?_isSome.mpr (List.ne_nil_of_mem hmem)) with
    ⟨last, hlast⟩
  have hin := List.mem_of_getLast? hlast
  rw [List.mem_filter, decide_eq_true_eq] at hin
  rw [hlast, hone last hin.1 hin.2]
  rfl

theorem lookup_byName_eq_none {name : ρ → ν} {value : ρ → β} {rows : List ρ} {n : ν} :
    (byName name value rows).lookup n = none ↔ ∀ row ∈ rows, name row ≠ n := by
  rw [lookup_byName, Option.map_eq_none_iff, List.getLast?_eq_none_iff, List.filter_eq_nil_iff]
  simp

end ByName

/-! ## What has been delivered -/

/-- From the cursor `after` on, up to `cursor`, the reader was given the rows it
wants, and of one name nothing later than the row the table has. -/
structure Delivered (key : ρ → Int) (name : ρ → ν) (wanted : ρ → Bool) (after cursor : Int)
    (received rows : List ρ) : Prop where
  le : after ≤ cursor
  sorted : received.Pairwise fun a b => key a ≤ key b
  range : ∀ r ∈ received, after < key r ∧ key r ≤ cursor
  covers : ∀ row ∈ rows, wanted row = true → after < key row → key row ≤ cursor → row ∈ received
  latest : ∀ row ∈ rows, key row ≤ cursor → ∀ r ∈ received, name r = name row →
    r = row ∨ key r < key row

namespace Delivered

variable {key : ρ → Int} {name : ρ → ν} {wanted : ρ → Bool} {after cursor : Int}
  {received rows rows' : List ρ} {limit : Nat}

theorem start (key : ρ → Int) (name : ρ → ν) (wanted : ρ → Bool) (after : Int) (rows : List ρ) :
    Delivered key name wanted after after [] rows := by
  refine { le := le_rfl, sorted := .nil, range := by simp, covers := ?_, latest := by simp }
  intro row _ _ hlt hle
  omega

/-- A page, less the rows that are not wanted, adds the rows up to its cursor. -/
theorem page (h : Delivered key name wanted after cursor received rows)
    (hkeys : KeyDistinct key rows)
    (hnames : ∀ row ∈ rows, ∀ other ∈ rows, name row = name other → row = other) :
    Delivered key name wanted after
      ((pageCursor key (Foundation.page key cursor limit rows)).getD cursor)
      (received ++ (Foundation.page key cursor limit rows).filter wanted) rows := by
  have hle := h.le
  rcases hcursor : pageCursor key (Foundation.page key cursor limit rows) with _ | cursor'
  · -- an empty page
    simp only [pageCursor, Option.map_eq_none_iff, List.getLast?_eq_none_iff] at hcursor
    simpa [hcursor] using h
  rw [Option.getD_some]
  have hlt := lt_pageCursor hcursor
  -- a page lies between the two cursors
  have hpage : ∀ r ∈ (Foundation.page key cursor limit rows).filter wanted,
      r ∈ rows ∧ cursor < key r ∧ key r ≤ cursor' := by
    intro r hr
    have hmem := List.mem_of_mem_filter hr
    exact ⟨(mem_of_mem_page hmem).1, (mem_of_mem_page hmem).2, le_pageCursor hcursor hmem⟩
  refine { le := by omega, sorted := ?_, range := ?_, covers := ?_, latest := ?_ }
  · rw [List.pairwise_append]
    refine ⟨h.sorted, ((rowsAfter_sorted key cursor rows).take).filter _, ?_⟩
    intro r hr next hnext
    have := (h.range r hr).2
    have := (hpage next hnext).2.1
    omega
  · intro r hr
    rcases List.mem_append.mp hr with hbefore | hnew
    · have := h.range r hbefore
      omega
    · have := (hpage r hnew).2
      omega
  · intro row hrow hwanted hafter hrange
    rcases lt_or_ge cursor (key row) with hbeyond | hbefore
    · refine List.mem_append_right _ (List.mem_filter.mpr ⟨?_, hwanted⟩)
      exact mem_page_of_le hkeys hcursor hrow hbeyond hrange
    · exact List.mem_append_left _ (h.covers row hrow hwanted hafter hbefore)
  · intro row hrow hrange r hr hname
    rcases List.mem_append.mp hr with hbefore | hnew
    · rcases lt_or_ge cursor (key row) with hbeyond | hwithin
      · have := (h.range r hbefore).2
        exact .inr (by omega)
      · exact h.latest row hrow hwithin r hbefore hname
    · -- the rows of a page are those of the table
      exact .inl (hnames r (hpage r hnew).1 row hrow hname)

/-- Changed rows lie above the cursor. -/
theorem change (h : Delivered key name wanted after cursor received rows)
    (hchange : ∀ row ∈ rows', row ∈ rows ∨ cursor < key row) :
    Delivered key name wanted after cursor received rows' := by
  refine { h with covers := ?_, latest := ?_ }
  · intro row hrow hwanted hafter hle
    rcases hchange row hrow with hold | hnew
    · exact h.covers row hold hwanted hafter hle
    · omega
  · intro row hrow hle
    rcases hchange row hrow with hold | hnew
    · exact h.latest row hold hle
    · omega

section Lookup

variable [DecidableEq ν] {value : ρ → β}

theorem lookup_new (h : Delivered key name wanted after cursor received rows) {row : ρ}
    (hrow : row ∈ rows) (hwanted : wanted row = true) (hafter : after < key row)
    (hle : key row ≤ cursor) :
    (byName name value received).lookup (name row) = some (value row) := by
  have hmem : row ∈ received.filter fun r => name r = name row := by
    simpa using h.covers row hrow hwanted hafter hle
  have hsorted : (received.filter fun r => name r = name row).Pairwise fun a b => key a ≤ key b :=
    h.sorted.filter _
  rw [lookup_byName]
  rcases hlast : (received.filter fun r => name r = name row).getLast? with _ | last
  · rw [List.getLast?_eq_none_iff] at hlast
    simp [hlast] at hmem
  -- the last row of the name has the greatest key, and none is later than `row`
  have hin := List.mem_of_getLast? hlast
  rcases List.getLast?_eq_some_iff.mp hlast with ⟨init, hinit⟩
  have hge : key row ≤ key last := by
    rw [hinit] at hmem hsorted
    rcases List.mem_append.mp hmem with hbefore | hend
    · exact (List.pairwise_append.mp hsorted).2.2 row hbefore last (List.mem_singleton.mpr rfl)
    · rw [List.mem_singleton.mp hend]
  simp only [List.mem_filter, decide_eq_true_eq] at hin
  rcases h.latest row hrow hle last hin.1 hin.2 with heq | hlt
  · rw [Option.map_some, heq]
  · omega

theorem lookup_old (h : Delivered key name wanted after cursor received rows) {row : ρ}
    (hrow : row ∈ rows) (hbefore : key row ≤ after) :
    (byName name value received).lookup (name row) = none := by
  have hle := h.le
  rw [lookup_byName, Option.map_eq_none_iff, List.getLast?_eq_none_iff, List.filter_eq_nil_iff]
  intro r hr
  rw [decide_eq_true_eq]
  intro hname
  have hrange := (h.range r hr).1
  rcases h.latest row hrow (by omega) r hr hname with rfl | hlt
  · omega
  · omega

/-- A name that the map has is one of a row received. -/
theorem exists_of_lookup {n : ν} {b : β} (hlookup : (byName name value received).lookup n = some b) :
    ∃ r ∈ received, name r = n ∧ value r = b := by
  rw [lookup_byName, Option.map_eq_some_iff] at hlookup
  rcases hlookup with ⟨r, hlast, rfl⟩
  have hin := List.mem_of_getLast? hlast
  simp only [List.mem_filter, decide_eq_true_eq] at hin
  exact ⟨r, hin.1, hin.2, rfl⟩

end Lookup

end Delivered

/-- After a page that is not cut off no row lies beyond the cursor. -/
theorem le_of_short_page {key : ρ → Int} {cursor : Int} {limit : Nat} {rows : List ρ}
    (hshort : (rowsAfter key cursor rows).length ≤ limit) :
    ∀ row ∈ rows,
      key row ≤ (pageCursor key (Foundation.page key cursor limit rows)).getD cursor := by
  intro row hrow
  rcases lt_or_ge cursor (key row) with hafter | hbefore
  · have hmem := mem_page_of_short hshort hrow hafter
    rcases hcursor : pageCursor key (Foundation.page key cursor limit rows) with _ | cursor'
    · simp only [pageCursor, Option.map_eq_none_iff, List.getLast?_eq_none_iff] at hcursor
      simp [hcursor] at hmem
    · exact le_pageCursor hcursor hmem
  · rcases hcursor : pageCursor key (Foundation.page key cursor limit rows) with _ | cursor'
    · exact hbefore
    · have := lt_pageCursor hcursor
      rw [Option.getD_some]
      omega

end Toss.Foundation
