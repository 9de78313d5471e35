import Toss.Foundation.Table

/-!
# Reading a table page by page along an increasing key

Rows are read in the order of a key, a bounded number of them after a cursor at
a time. What a reader has received covers a cursor when it holds every row at or
below it; a page extends the cover to its last key, and a page that is not full
extends it to the whole table.

* `page` — the first rows after a cursor;
* `Covers` — what a reader holds, up to its cursor;
* `Covers.page`, `Covers.complete` — what one page adds;
* `Covers.change` — changes above the cursor keep the cover.
-/

namespace Toss.Foundation

variable {ρ : Type*}

/-- The rows after the cursor, in order. -/
def rowsAfter (key : ρ → Int) (after : Int) (rows : List ρ) : List ρ :=
  orderBy key (rows.filter fun row => after < key row)

def page (key : ρ → Int) (after : Int) (limit : Nat) (rows : List ρ) : List ρ :=
  (rowsAfter key after rows).take limit

/-- The cursor a page hands out: the key of its last row. -/
def pageCursor (key : ρ → Int) (rows : List ρ) : Option Int :=
  rows.getLast?.map key

/-- The rows held contain every row of the table at or below the cursor. -/
def Covers (key : ρ → Int) (held : List ρ) (cursor : Int) (rows : List ρ) : Prop :=
  ∀ row ∈ rows, key row ≤ cursor → row ∈ held

/-- The key identifies a row of the table. -/
def KeyDistinct (key : ρ → Int) (rows : List ρ) : Prop :=
  ∀ row ∈ rows, ∀ other ∈ rows, key row = key other → row = other

section Page

variable {key : ρ → Int} {after : Int} {limit : Nat} {rows : List ρ} {row : ρ}

theorem mem_rowsAfter : row ∈ rowsAfter key after rows ↔ row ∈ rows ∧ after < key row := by
  simp [rowsAfter, mem_orderBy]

theorem rowsAfter_sorted (key : ρ → Int) (after : Int) (rows : List ρ) :
    (rowsAfter key after rows).Pairwise fun a b => key a ≤ key b :=
  orderBy_sorted key _

theorem mem_of_mem_page (h : row ∈ page key after limit rows) : row ∈ rows ∧ after < key row :=
  mem_rowsAfter.mp (List.mem_of_mem_take h)

/-- A row of a sorted list is in what is taken, or lies beyond all of it. -/
theorem mem_take_or_le (h : row ∈ rowsAfter key after rows) (limit : Nat) :
    row ∈ page key after limit rows
      ∨ ∀ taken ∈ page key after limit rows, key taken ≤ key row := by
  have hsplit := List.take_append_drop limit (rowsAfter key after rows)
  have hsorted := rowsAfter_sorted key after rows
  rw [← hsplit] at h hsorted
  rcases List.mem_append.mp h with htaken | hrest
  · exact .inl htaken
  · right
    intro taken htaken
    exact (List.pairwise_append.mp hsorted).2.2 taken htaken row hrest

/-- The last row of a page has its greatest key. -/
theorem le_pageCursor {cursor : Int} (h : pageCursor key (page key after limit rows) = some cursor)
    (hrow : row ∈ page key after limit rows) : key row ≤ cursor := by
  rcases Option.map_eq_some_iff.mp h with ⟨last, hlast, rfl⟩
  have hsorted : (page key after limit rows).Pairwise fun a b => key a ≤ key b :=
    (rowsAfter_sorted key after rows).take
  rcases List.getLast?_eq_some_iff.mp hlast with ⟨init, hinit⟩
  rw [hinit] at hrow hsorted
  rcases List.mem_append.mp hrow with hbefore | hend
  · exact (List.pairwise_append.mp hsorted).2.2 row hbefore last (List.mem_singleton.mpr rfl)
  · rw [List.mem_singleton.mp hend]

/-- A page hands out the key of one of its rows. -/
theorem pageCursor_mem {cursor : Int}
    (h : pageCursor key (page key after limit rows) = some cursor) :
    ∃ last ∈ page key after limit rows, key last = cursor := by
  rcases Option.map_eq_some_iff.mp h with ⟨last, hlast, hkey⟩
  exact ⟨last, List.mem_of_getLast? hlast, hkey⟩

theorem lt_pageCursor {cursor : Int}
    (h : pageCursor key (page key after limit rows) = some cursor) : after < cursor := by
  rcases pageCursor_mem h with ⟨last, hlast, rfl⟩
  exact (mem_of_mem_page hlast).2

/-- Up to the cursor it hands out, a page leaves no row out. -/
theorem mem_page_of_le {cursor : Int} (hdistinct : KeyDistinct key rows)
    (h : pageCursor key (page key after limit rows) = some cursor)
    (hrow : row ∈ rows) (hafter : after < key row) (hle : key row ≤ cursor) :
    row ∈ page key after limit rows := by
  rcases mem_take_or_le (mem_rowsAfter.mpr ⟨hrow, hafter⟩) limit with htaken | hbeyond
  · exact htaken
  rcases pageCursor_mem h with ⟨last, hlast, rfl⟩
  have heq : key row = key last := le_antisymm hle (hbeyond last hlast)
  rw [hdistinct row hrow last (mem_of_mem_page hlast).1 heq]
  exact hlast

/-- A page that could be longer holds every row after the cursor. -/
theorem mem_page_of_short (h : (rowsAfter key after rows).length ≤ limit) (hrow : row ∈ rows)
    (hafter : after < key row) : row ∈ page key after limit rows := by
  rw [page, List.take_of_length_le h]
  exact mem_rowsAfter.mpr ⟨hrow, hafter⟩

/-- After the cursor that a page hands out fewer rows are left. -/
theorem rowsAfter_length_lt {cursor : Int}
    (h : pageCursor key (page key after limit rows) = some cursor) :
    (rowsAfter key cursor rows).length < (rowsAfter key after rows).length := by
  rcases pageCursor_mem h with ⟨last, hlast, hkey⟩
  have hafter := lt_pageCursor h
  have hlength : ∀ after, (rowsAfter key after rows).length
      = (rows.filter fun row => after < key row).length :=
    fun after => (orderBy_perm key _).length_eq
  have hfilter : rows.filter (fun row => cursor < key row)
      = (rows.filter fun row => after < key row).filter fun row => cursor < key row := by
    rw [List.filter_filter]
    refine List.filter_congr fun row _ => ?_
    by_cases hrow : cursor < key row
    · have hrow' : after < key row := by omega
      simp [hrow, hrow']
    · simp [hrow]
  rw [hlength, hlength, hfilter, List.length_filter_lt_length_iff_exists]
  refine ⟨last, ?_, by simp [hkey]⟩
  have := mem_of_mem_page hlast
  simp [this]

theorem countBelow_eq : (rows.filter fun other => after < key other ∧ key other < key row).length
    = ((rowsAfter key after rows).filter fun other => key other < key row).length := by
  rw [rowsAfter, ((orderBy_perm key _).filter _).length_eq, List.filter_filter]
  congr 1
  refine List.filter_congr fun other _ => ?_
  by_cases h1 : after < key other <;> by_cases h2 : key other < key row <;> simp [h1, h2]

/-- Before a row of a page there are fewer rows than the page may hold. -/
theorem countBelow_lt_of_mem_page (h : row ∈ page key after limit rows) :
    (rows.filter fun other => after < key other ∧ key other < key row).length < limit := by
  rcases List.mem_iff_getElem?.mp h with ⟨i, hi⟩
  rw [page, List.getElem?_take] at hi
  split at hi
  · next hlt =>
    have hsorted := rowsAfter_sorted key after rows
    have hsplit := List.take_append_drop i (rowsAfter key after rows)
    -- the rows with a smaller key come before the place of the row
    have hdrop : ((rowsAfter key after rows).drop i).filter (fun other => key other < key row)
        = [] := by
      rw [List.filter_eq_nil_iff]
      intro other hother
      have hhead : ((rowsAfter key after rows).drop i)[0]? = some row := by simpa using hi
      rw [← hsplit] at hsorted
      have hrest := (List.pairwise_append.mp hsorted).2.1
      cases hcons : (rowsAfter key after rows).drop i with
      | nil => simp [hcons] at hother
      | cons first rest =>
        rw [hcons] at hhead hrest hother
        have hfirst : first = row := by simpa using hhead
        rcases List.mem_cons.mp hother with heq | hmem
        · simp [heq, hfirst]
        · have := (List.pairwise_cons.mp hrest).1 other hmem
          rw [hfirst] at this
          simpa using this
    rw [countBelow_eq, ← hsplit, List.filter_append, hdrop, List.append_nil]
    have hle := List.length_filter_le (fun other => decide (key other < key row))
      ((rowsAfter key after rows).take i)
    rw [List.length_take] at hle
    omega
  · simp at hi

/-- A row with fewer rows before it than the page may hold is in the page. -/
theorem mem_page_of_countBelow_lt (hdistinct : KeyDistinct key rows) (hrow : row ∈ rows)
    (hafter : after < key row)
    (h : (rows.filter fun other => after < key other ∧ key other < key row).length < limit) :
    row ∈ page key after limit rows := by
  rcases mem_take_or_le (mem_rowsAfter.mpr ⟨hrow, hafter⟩) limit with htaken | hbeyond
  · exact htaken
  by_contra hout
  -- a full page of smaller keys, more than there are
  have hsmaller : ∀ taken ∈ page key after limit rows, key taken < key row := by
    intro taken htaken
    refine lt_of_le_of_ne (hbeyond taken htaken) ?_
    intro heq
    rw [hdistinct taken (mem_of_mem_page htaken).1 row hrow heq] at htaken
    exact hout htaken
  have hfull : (page key after limit rows).length = limit := by
    rw [page, List.length_take]
    rcases Nat.lt_or_ge (rowsAfter key after rows).length limit with hshort | hlong
    · exact absurd (mem_page_of_short hshort.le hrow hafter) hout
    · omega
  have hsub : (page key after limit rows).Sublist
      ((rowsAfter key after rows).filter fun other => key other < key row) := by
    have htake := (List.take_sublist limit (rowsAfter key after rows)).filter
      fun other => decide (key other < key row)
    have hself : ((rowsAfter key after rows).take limit).filter
        (fun other => decide (key other < key row)) = page key after limit rows := by
      refine List.filter_eq_self.mpr ?_
      intro taken htaken
      simpa using hsmaller taken htaken
    rwa [hself] at htake
  have := hsub.length_le
  rw [← countBelow_eq] at this
  omega

end Page

namespace Covers

variable {key : ρ → Int} {held rows rows' : List ρ} {cursor : Int} {limit : Nat}

/-- A page extends what is covered up to the cursor it hands out. -/
theorem page {cursor' : Int} (h : Covers key held cursor rows) (hdistinct : KeyDistinct key rows)
    (hcursor : pageCursor key (Foundation.page key cursor limit rows) = some cursor') :
    Covers key (held ++ Foundation.page key cursor limit rows) cursor' rows := by
  intro row hrow hle
  rcases lt_or_ge cursor (key row) with hafter | hbefore
  · exact List.mem_append_right _ (mem_page_of_le hdistinct hcursor hrow hafter hle)
  · exact List.mem_append_left _ (h row hrow hbefore)

/-- A page that is not cut off completes the cover. -/
theorem complete (h : Covers key held cursor rows)
    (hshort : (rowsAfter key cursor rows).length ≤ limit) :
    ∀ row ∈ rows, row ∈ held ++ Foundation.page key cursor limit rows := by
  intro row hrow
  rcases lt_or_ge cursor (key row) with hafter | hbefore
  · exact List.mem_append_right _ (mem_page_of_short hshort hrow hafter)
  · exact List.mem_append_left _ (h row hrow hbefore)

/-- Rows that change above the cursor need not be held yet. -/
theorem change (h : Covers key held cursor rows)
    (hchange : ∀ row ∈ rows', row ∈ rows ∨ cursor < key row) : Covers key held cursor rows' := by
  intro row hrow hle
  rcases hchange row hrow with hold | hnew
  · exact h row hold hle
  · omega

end Covers

end Toss.Foundation
