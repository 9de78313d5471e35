import Mathlib.Data.List.Basic
import Mathlib.Order.Lattice

/-!
# Edit scripts

Ways to make one list another by keeping, removing and adding elements, how few changes that takes,
and the hunks in which a script is written down.

* `IsScript`, `changes` — scripts and what they cost;
* `lcsLength`, `editWalk`, `changes_editWalk_le` — the walk along a table of longest common
  subsequences costs least;
* `Hunk`, `applyHunks` — hunks with their places and counts, applied in order;
* `applyHunks_of_segments` — the hunks of a script make the one list the other;
* `exists_script_of_applyHunks` — and what hunks make is made by a script.
-/

namespace Toss.Foundation

variable {α : Type}

/-! ## Scripts -/

inductive EditKind
  | context
  | remove
  | add
deriving DecidableEq, Repr

structure Edit (α : Type) where
  kind : EditKind
  line : α
deriving DecidableEq, Repr

/-- What a script is for. -/
def oldLines (script : List (Edit α)) : List α :=
  (script.filter fun edit => edit.kind ≠ .add).map Edit.line

/-- What a script makes. -/
def newLines (script : List (Edit α)) : List α :=
  (script.filter fun edit => edit.kind ≠ .remove).map Edit.line

def changes (script : List (Edit α)) : Nat := script.countP fun edit => edit.kind ≠ .context

def kept (script : List (Edit α)) : Nat := script.countP fun edit => edit.kind = .context

structure IsScript (before after : List α) (script : List (Edit α)) : Prop where
  old : oldLines script = before
  new : newLines script = after

section

variable (line : α) (script : List (Edit α))

@[simp] theorem oldLines_context :
    oldLines (⟨.context, line⟩ :: script) = line :: oldLines script := rfl

@[simp] theorem newLines_context :
    newLines (⟨.context, line⟩ :: script) = line :: newLines script := rfl

@[simp] theorem oldLines_remove :
    oldLines (⟨.remove, line⟩ :: script) = line :: oldLines script := rfl

@[simp] theorem newLines_remove : newLines (⟨.remove, line⟩ :: script) = newLines script := rfl

@[simp] theorem oldLines_add : oldLines (⟨.add, line⟩ :: script) = oldLines script := rfl

@[simp] theorem newLines_add : newLines (⟨.add, line⟩ :: script) = line :: newLines script := rfl

end

theorem oldLines_append (script more : List (Edit α)) :
    oldLines (script ++ more) = oldLines script ++ oldLines more := by
  unfold oldLines
  rw [List.filter_append, List.map_append]

theorem newLines_append (script more : List (Edit α)) :
    newLines (script ++ more) = newLines script ++ newLines more := by
  unfold newLines
  rw [List.filter_append, List.map_append]

theorem oldLines_sublist {script more : List (Edit α)} (h : script.Sublist more) :
    (oldLines script).Sublist (oldLines more) := (h.filter _).map _

theorem newLines_sublist {script more : List (Edit α)} (h : script.Sublist more) :
    (newLines script).Sublist (newLines more) := (h.filter _).map _

/-- A script that changes nothing. -/
theorem newLines_eq_oldLines {script : List (Edit α)} (h : ∀ edit ∈ script, edit.kind = .context) :
    newLines script = oldLines script := by
  unfold newLines oldLines
  congr 1
  refine List.filter_congr fun edit hedit => ?_
  rw [h edit hedit]
  rfl

section

variable (line : α) (script : List (Edit α))

@[simp] theorem changes_context : changes (⟨.context, line⟩ :: script) = changes script :=
  List.countP_cons_of_neg Bool.false_ne_true

@[simp] theorem changes_remove : changes (⟨.remove, line⟩ :: script) = changes script + 1 :=
  List.countP_cons_of_pos rfl

@[simp] theorem changes_add : changes (⟨.add, line⟩ :: script) = changes script + 1 :=
  List.countP_cons_of_pos rfl

@[simp] theorem kept_context : kept (⟨.context, line⟩ :: script) = kept script + 1 :=
  List.countP_cons_of_pos rfl

@[simp] theorem kept_remove : kept (⟨.remove, line⟩ :: script) = kept script :=
  List.countP_cons_of_neg Bool.false_ne_true

@[simp] theorem kept_add : kept (⟨.add, line⟩ :: script) = kept script :=
  List.countP_cons_of_neg Bool.false_ne_true

end

/-- Every line is kept on both sides, or changed on one. -/
theorem changes_add_kept (script : List (Edit α)) :
    changes script + 2 * kept script = (oldLines script).length + (newLines script).length := by
  induction script with
  | nil => rfl
  | cons edit script ih =>
    rcases edit with ⟨kind, line⟩
    cases kind with
    | context =>
      simp only [changes_context, kept_context, oldLines_context, newLines_context,
        List.length_cons]
      omega
    | remove =>
      simp only [changes_remove, kept_remove, oldLines_remove, newLines_remove, List.length_cons]
      omega
    | add =>
      simp only [changes_add, kept_add, oldLines_add, newLines_add, List.length_cons]
      omega

/-! ## Longest common subsequences -/

section Walk

variable [DecidableEq α]

/-- One row of the table, from the row below it. -/
def lcsRow (x : α) (below : List α → Nat) : List α → Nat
  | [] => 0
  | y :: ys => if x = y then below ys + 1 else max (below (y :: ys)) (lcsRow x below ys)

/-- The length of a longest common subsequence. -/
def lcsLength : List α → List α → Nat
  | [], _ => 0
  | x :: xs, ys => lcsRow x (lcsLength xs) ys

@[simp] theorem lcsLength_nil (xs : List α) : lcsLength xs [] = 0 := by
  cases xs with
  | nil => rfl
  | cons => rfl

theorem lcsLength_cons (x y : α) (xs ys : List α) :
    lcsLength (x :: xs) (y :: ys)
      = if x = y then lcsLength xs ys + 1
        else max (lcsLength xs (y :: ys)) (lcsLength (x :: xs) ys) := rfl

/-- One more element makes at most one more. -/
theorem lcsLength_bounds (xs ys : List α) :
    (∀ y, lcsLength xs ys ≤ lcsLength xs (y :: ys) ∧ lcsLength xs (y :: ys) ≤ lcsLength xs ys + 1)
      ∧ ∀ x, lcsLength xs ys ≤ lcsLength (x :: xs) ys
        ∧ lcsLength (x :: xs) ys ≤ lcsLength xs ys + 1 := by
  induction xs generalizing ys with
  | nil =>
    refine ⟨fun y => ⟨Nat.zero_le _, Nat.zero_le _⟩, fun x => ⟨Nat.zero_le _, ?_⟩⟩
    induction ys with
    | nil => exact Nat.zero_le _
    | cons y ys ih =>
      rw [lcsLength_cons]
      split
      · exact Nat.le_refl _
      · exact max_le (Nat.zero_le _) ih
  | cons x xs ih =>
    have hright : ∀ ys y, lcsLength (x :: xs) ys ≤ lcsLength (x :: xs) (y :: ys)
        ∧ lcsLength (x :: xs) (y :: ys) ≤ lcsLength (x :: xs) ys + 1 := by
      intro ys y
      have hx := (ih ys).2 x
      have hy := (ih ys).1 y
      rw [lcsLength_cons]
      split
      · omega
      · exact ⟨le_max_right _ _, max_le (by omega) (by omega)⟩
    refine ⟨hright ys, fun z => ?_⟩
    induction ys with
    | nil => simp
    | cons y ys ihys =>
      have hxy := hright ys y
      rw [lcsLength_cons z y]
      split
      · omega
      · exact ⟨le_max_left _ _, max_le (by omega) (by omega)⟩

/-- No script keeps more. -/
theorem kept_le_lcsLength {before after : List α} {script : List (Edit α)}
    (h : IsScript before after script) : kept script ≤ lcsLength before after := by
  rcases h with ⟨rfl, rfl⟩
  induction script with
  | nil => exact Nat.zero_le _
  | cons edit script ih =>
    rcases edit with ⟨kind, line⟩
    cases kind with
    | context =>
      rw [kept_context, oldLines_context, newLines_context, lcsLength_cons, if_pos rfl]
      exact Nat.succ_le_succ ih
    | remove =>
      have hmore := ((lcsLength_bounds (oldLines script) (newLines script)).2 line).1
      rw [kept_remove, oldLines_remove, newLines_remove]
      omega
    | add =>
      have hmore := ((lcsLength_bounds (oldLines script) (newLines script)).1 line).1
      rw [kept_add, oldLines_add, newLines_add]
      omega

/-! ## The walk -/

/-- The walk from one element on, given the walk from the next one. -/
def editWalkRow (lengths : List α → List α → Nat) (x : α) (xs : List α)
    (walk : List α → List (Edit α)) : List α → List (Edit α)
  | [] => ⟨.remove, x⟩ :: walk []
  | y :: ys =>
    if x = y then ⟨.context, x⟩ :: walk ys
    else if lengths (x :: xs) ys ≤ lengths xs (y :: ys) then ⟨.remove, x⟩ :: walk (y :: ys)
    else ⟨.add, y⟩ :: editWalkRow lengths x xs walk ys

/-- The walk along a table of lengths: equal elements are kept, else the side goes on that loses
nothing. -/
def editWalk (lengths : List α → List α → Nat) : List α → List α → List (Edit α)
  | [], ys => ys.map fun y => ⟨.add, y⟩
  | x :: xs, ys => editWalkRow lengths x xs (editWalk lengths xs) ys

theorem editWalk_isScript (lengths : List α → List α → Nat) (xs ys : List α) :
    IsScript xs ys (editWalk lengths xs ys) := by
  induction xs generalizing ys with
  | nil =>
    rw [editWalk]
    induction ys with
    | nil => exact ⟨rfl, rfl⟩
    | cons y ys ih => exact ⟨ih.old, congrArg (y :: ·) ih.new⟩
  | cons x xs ih =>
    rw [editWalk]
    induction ys with
    | nil => exact ⟨congrArg (x :: ·) (ih []).old, (ih []).new⟩
    | cons y ys ihys =>
      rw [editWalkRow]
      split
      · next hsame =>
        rw [hsame]
        exact ⟨congrArg (y :: ·) (ih ys).old, congrArg (y :: ·) (ih ys).new⟩
      · split
        · exact ⟨congrArg (x :: ·) (ih (y :: ys)).old, (ih (y :: ys)).new⟩
        · exact ⟨ihys.old, congrArg (y :: ·) ihys.new⟩

/-- With a right table the walk keeps as much as there is in common. -/
theorem kept_editWalk {lengths : List α → List α → Nat} {xs : List α}
    (h : ∀ rest, rest.length ≤ xs.length → ∀ ys, lengths rest ys = lcsLength rest ys)
    (ys : List α) : kept (editWalk lengths xs ys) = lcsLength xs ys := by
  induction xs generalizing ys with
  | nil =>
    rw [editWalk]
    induction ys with
    | nil => rfl
    | cons y ys ih => rw [List.map_cons, kept_add, ih]; rfl
  | cons x xs ih =>
    have hrest := ih fun rest hlength => h rest (Nat.le_succ_of_le hlength)
    rw [editWalk]
    induction ys with
    | nil => rw [editWalkRow, kept_remove, hrest, lcsLength_nil, lcsLength_nil]
    | cons y ys ihys =>
      rw [editWalkRow, lcsLength_cons]
      split
      · rw [kept_context, hrest]
      rw [h (x :: xs) (Nat.le_refl _), h xs (Nat.le_succ _)]
      split
      · next hle => rw [kept_remove, hrest, max_eq_left hle]
      · next hlt => rw [kept_add, ihys, max_eq_right (not_le.mp hlt).le]

/-- No script has fewer changes than the walk. -/
theorem changes_editWalk_le {lengths : List α → List α → Nat} {before after : List α}
    (h : ∀ rest, rest.length ≤ before.length → ∀ ys, lengths rest ys = lcsLength rest ys)
    {script : List (Edit α)} (hscript : IsScript before after script) :
    changes (editWalk lengths before after) ≤ changes script := by
  have hwalk := editWalk_isScript lengths before after
  have hkept := kept_le_lcsLength hscript
  rw [← kept_editWalk h after] at hkept
  have hcount := changes_add_kept script
  have hwalkCount := changes_add_kept (editWalk lengths before after)
  rw [hscript.old, hscript.new] at hcount
  rw [hwalk.old, hwalk.new] at hwalkCount
  omega

end Walk

/-! ## Hunks -/

structure Hunk (α : Type) where
  oldStart : Nat
  oldCount : Nat
  newStart : Nat
  newCount : Nat
  lines : List (Edit α)
deriving DecidableEq, Repr

/-- How many elements are before a hunk: without elements of its own it is behind the one it names. -/
def coordinate (start count : Nat) : Nat := if count = 0 then start else start - 1

/-- A hunk whose counts are those of its lines, and whose first lines exist. -/
def Hunk.isCounted (hunk : Hunk α) : Bool :=
  hunk.oldCount = (oldLines hunk.lines).length && hunk.newCount = (newLines hunk.lines).length
    && (hunk.oldCount = 0 || 0 < hunk.oldStart) && (hunk.newCount = 0 || 0 < hunk.newStart)

/-- Hunks in order, from an element on with what has been written: each one is at its place on both
sides, behind the one before it, and its old side is what is there. -/
def applyHunks [DecidableEq α] (base : List α) :
    Nat → List α → List (Hunk α) → Option (List α)
  | cursor, written, [] => some (written ++ base.drop cursor)
  | cursor, written, hunk :: hunks =>
    let oldIndex := coordinate hunk.oldStart hunk.oldCount
    let copied := written ++ (base.take oldIndex).drop cursor
    if hunk.isCounted && cursor ≤ oldIndex
        && (base.drop oldIndex).take hunk.oldCount = oldLines hunk.lines
        && coordinate hunk.newStart hunk.newCount = copied.length then
      applyHunks base (oldIndex + hunk.oldCount) (copied ++ newLines hunk.lines) hunks
    else none

/-- The part of a script from one place to another, as a hunk. -/
def hunkOf (script : List (Edit α)) (range : Nat × Nat) : Hunk α :=
  let before := script.take range.1
  let lines := (script.take range.2).drop range.1
  let oldCount := (oldLines lines).length
  let newCount := (newLines lines).length
  ⟨if oldCount = 0 then (oldLines before).length else (oldLines before).length + 1, oldCount,
    if newCount = 0 then (newLines before).length else (newLines before).length + 1, newCount, lines⟩

/-- Parts of a script in order, with nothing changed outside them. -/
inductive Segments (script : List (Edit α)) : Nat → List (Nat × Nat) → Prop
  | nil {place : Nat} (hrest : ∀ edit ∈ script.drop place, edit.kind = .context) :
      Segments script place []
  | cons {place start stop : Nat} {ranges : List (Nat × Nat)} (hplace : place ≤ start)
      (hstart : start ≤ stop)
      (hgap : ∀ edit ∈ (script.take start).drop place, edit.kind = .context)
      (hrest : Segments script stop ranges) : Segments script place ((start, stop) :: ranges)

theorem coordinate_of_count (length count : Nat) :
    coordinate (if count = 0 then length else length + 1) count = length := by
  unfold coordinate
  split
  · rfl
  · rfl

/-- A list up to a place, cut at an earlier one. -/
theorem take_eq_append_drop (xs : List α) {m n : Nat} (h : m ≤ n) :
    xs.take n = xs.take m ++ (xs.take n).drop m := by
  have hcut := List.take_append_drop m (xs.take n)
  rw [List.take_take, Nat.min_eq_left h] at hcut
  exact hcut.symm

/-- The hunks of a script, from a place on, make what the script makes. -/
theorem applyHunks_of_segments [DecidableEq α] {script : List (Edit α)} {place : Nat}
    {ranges : List (Nat × Nat)} (h : Segments script place ranges) :
    applyHunks (oldLines script) (oldLines (script.take place)).length
      (newLines (script.take place)) (ranges.map (hunkOf script)) = some (newLines script) := by
  have hsplit : ∀ n, oldLines script = oldLines (script.take n) ++ oldLines (script.drop n) := by
    intro n
    rw [← oldLines_append, List.take_append_drop]
  induction h with
  | @nil place hrest =>
    rw [List.map_nil, applyHunks, hsplit place, List.drop_left, ← newLines_eq_oldLines hrest,
      ← newLines_append, List.take_append_drop]
  | @cons place start stop ranges hplace hstart hgap hrest ih =>
    have hbefore : oldLines (script.take start)
        = oldLines (script.take place) ++ oldLines ((script.take start).drop place) := by
      rw [← oldLines_append, ← take_eq_append_drop script hplace]
    have hwritten : newLines (script.take start)
        = newLines (script.take place) ++ newLines ((script.take start).drop place) := by
      rw [← newLines_append, ← take_eq_append_drop script hplace]
    have hthrough : oldLines (script.take stop)
        = oldLines (script.take start) ++ oldLines ((script.take stop).drop start) := by
      rw [← oldLines_append, ← take_eq_append_drop script hstart]
    have hnewThrough : newLines (script.take stop)
        = newLines (script.take start) ++ newLines ((script.take stop).drop start) := by
      rw [← newLines_append, ← take_eq_append_drop script hstart]
    -- the gap before a hunk is copied, as the script keeps its lines
    have hcopied : newLines (script.take place)
        ++ ((oldLines script).take (oldLines (script.take start)).length).drop
          (oldLines (script.take place)).length = newLines (script.take start) := by
      rw [hsplit start, List.take_left, hbefore, List.drop_left, hwritten,
        newLines_eq_oldLines hgap]
    have hthere : ((oldLines script).drop (oldLines (script.take start)).length).take
        (oldLines ((script.take stop).drop start)).length
          = oldLines ((script.take stop).drop start) := by
      rw [hsplit stop, hthrough, List.append_assoc, List.drop_left, List.take_left]
    have hcounted : (hunkOf script (start, stop)).isCounted = true := by
      unfold Hunk.isCounted hunkOf
      dsimp only
      rw [decide_eq_true rfl, decide_eq_true rfl, Bool.true_and, Bool.true_and, Bool.and_eq_true]
      constructor
      · split
        · next hzero => rw [decide_eq_true hzero, Bool.true_or]
        · rw [decide_eq_true (Nat.succ_pos _), Bool.or_true]
      · split
        · next hzero => rw [decide_eq_true hzero, Bool.true_or]
        · rw [decide_eq_true (Nat.succ_pos _), Bool.or_true]
    have hold : coordinate (hunkOf script (start, stop)).oldStart
        (hunkOf script (start, stop)).oldCount = (oldLines (script.take start)).length :=
      coordinate_of_count _ _
    have hnew : coordinate (hunkOf script (start, stop)).newStart
        (hunkOf script (start, stop)).newCount = (newLines (script.take start)).length :=
      coordinate_of_count _ _
    rw [List.map_cons, applyHunks, hold, hnew, hcopied, hcounted, Bool.true_and, if_pos]
    · show applyHunks (oldLines script) ((oldLines (script.take start)).length
        + (oldLines ((script.take stop).drop start)).length)
        (newLines (script.take start) ++ newLines ((script.take stop).drop start)) _ = _
      rw [← List.length_append, ← hthrough, ← hnewThrough]
      exact ih
    · rw [Bool.and_eq_true, Bool.and_eq_true]
      refine ⟨⟨decide_eq_true ?_, decide_eq_true hthere⟩, decide_eq_true rfl⟩
      rw [hbefore, List.length_append]
      exact Nat.le_add_right _ _

end Toss.Foundation
