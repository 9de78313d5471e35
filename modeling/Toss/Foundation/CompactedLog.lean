import Mathlib.Order.Lattice
import Mathlib.Data.Finset.Lattice.Fold

/-!
# A compacted log of joins

A log of numbered entries, each an element of a join-semilattice, with an
optional snapshot that stands for every entry up to its watermark.

* `value` — the join of the snapshot and of the entries above the watermark;
* `Step` — the moves a log may make: append a fresh entry, compact everything
  pending into the snapshot, drop entries the snapshot covers;
* `Evolves` — a sequence of moves, with the entries it appended;
* `Evolves.value_eq` — the value after any sequence is the value before joined
  with what was appended, whatever was compacted or dropped in between.
-/

namespace Toss.Foundation

/-- A snapshot with its watermark, and the numbered entries still stored. -/
structure CompactedLog (P : Type*) where
  snapshot : Option (Int × P)
  entries : List (Int × P)

namespace CompactedLog

variable {P : Type*}

/-- Entries with a number at or below the watermark are covered by the
snapshot. -/
def watermark (log : CompactedLog P) : Int :=
  match log.snapshot with
  | some (upto, _) => upto
  | none => 0

/-- The entries the snapshot does not cover. -/
def pending (log : CompactedLog P) : List (Int × P) :=
  log.entries.filter fun entry => log.watermark < entry.1

variable [SemilatticeSup P] [OrderBot P]

/-- Join of a list of elements. -/
def joinAll (ps : List P) : P :=
  ps.foldr (· ⊔ ·) ⊥

@[simp] theorem joinAll_nil : joinAll ([] : List P) = ⊥ := rfl

@[simp] theorem joinAll_cons (p : P) (ps : List P) : joinAll (p :: ps) = p ⊔ joinAll ps := rfl

@[simp] theorem joinAll_append (ps qs : List P) :
    joinAll (ps ++ qs) = joinAll ps ⊔ joinAll qs := by
  induction ps with
  | nil => simp
  | cons p ps ih => simp [ih, sup_assoc]

/-- The join does not depend on the order of the list. -/
theorem joinAll_perm {ps qs : List P} (hperm : ps.Perm qs) : joinAll ps = joinAll qs := by
  induction hperm with
  | nil => rfl
  | cons p _ ih => simp [ih]
  | swap p q ps => simp [← sup_assoc, sup_comm]
  | trans _ _ ih₁ ih₂ => exact ih₁.trans ih₂

/-- What the snapshot contributes to the value. -/
def base (log : CompactedLog P) : P :=
  match log.snapshot with
  | some (_, p) => p
  | none => ⊥

/-- What a reader of the log sees. -/
def value (log : CompactedLog P) : P :=
  log.base ⊔ joinAll (log.pending.map Prod.snd)

/-! ## Moves of a log -/

/-- One move of a log, with the entries it appends. -/
inductive Step : CompactedLog P → List P → CompactedLog P → Prop
  /-- A new entry is numbered above the watermark. -/
  | append {log log' : CompactedLog P} (id : Int) (p : P) :
      log.watermark < id → log'.snapshot = log.snapshot →
      log'.entries = log.entries ++ [(id, p)] → Step log [p] log'
  /-- The snapshot takes over the whole value; its watermark covers every entry. -/
  | compact {log log' : CompactedLog P} (upto : Int) :
      log.watermark ≤ upto → (∀ entry ∈ log.entries, entry.1 ≤ upto) →
      log'.snapshot = some (upto, log.value) → log'.entries = log.entries → Step log [] log'
  /-- Entries are dropped, each of them covered by the snapshot. -/
  | prune {log log' : CompactedLog P} (keep : Int × P → Bool) :
      (∀ entry ∈ log.entries, keep entry = false → entry.1 ≤ log.watermark) →
      log'.snapshot = log.snapshot → log'.entries = log.entries.filter keep → Step log [] log'

theorem value_of_append {log log' : CompactedLog P} {id : Int} {p : P}
    (hid : log.watermark < id) (hsnap : log'.snapshot = log.snapshot)
    (hentries : log'.entries = log.entries ++ [(id, p)]) : log'.value = log.value ⊔ p := by
  have hmark : log'.watermark = log.watermark := by simp only [watermark, hsnap]
  have hbase : log'.base = log.base := by simp only [base, hsnap]
  simp [value, pending, hmark, hbase, hentries, hid, sup_assoc]

theorem value_of_compact {log log' : CompactedLog P} {upto : Int}
    (hall : ∀ entry ∈ log.entries, entry.1 ≤ upto)
    (hsnap : log'.snapshot = some (upto, log.value)) (hentries : log'.entries = log.entries) :
    log'.value = log.value := by
  have hmark : log'.watermark = upto := by simp only [watermark, hsnap]
  have hbase : log'.base = log.value := by simp only [base, hsnap]
  have hpending : log'.pending = [] := by
    simp only [pending, hmark, hentries, List.filter_eq_nil_iff, decide_eq_true_eq, not_lt]
    exact hall
  rw [value, hbase, hpending]
  simp

theorem value_of_prune {log log' : CompactedLog P} {keep : Int × P → Bool}
    (hcovered : ∀ entry ∈ log.entries, keep entry = false → entry.1 ≤ log.watermark)
    (hsnap : log'.snapshot = log.snapshot) (hentries : log'.entries = log.entries.filter keep) :
    log'.value = log.value := by
  have hmark : log'.watermark = log.watermark := by simp only [watermark, hsnap]
  have hbase : log'.base = log.base := by simp only [base, hsnap]
  have hpending : log'.pending = log.pending := by
    simp only [pending, hmark, hentries, List.filter_filter]
    refine List.filter_congr fun entry hmem => ?_
    cases hkeep : keep entry with
    | true => simp
    | false => simpa using hcovered entry hmem hkeep
  rw [value, value, hbase, hpending]

namespace Step

variable {log log' : CompactedLog P} {ps : List P}

/-- A move changes the value by what it appends, and by nothing else. -/
theorem value_eq (hstep : Step log ps log') : log'.value = log.value ⊔ joinAll ps := by
  cases hstep with
  | append id p hid hsnap hentries => simpa using value_of_append hid hsnap hentries
  | compact upto _ hall hsnap hentries => simpa using value_of_compact hall hsnap hentries
  | prune keep hcovered hsnap hentries => simpa using value_of_prune hcovered hsnap hentries

theorem watermark_le (hstep : Step log ps log') : log.watermark ≤ log'.watermark := by
  cases hstep with
  | append id p _ hsnap _ | prune keep _ hsnap _ => simp only [watermark, hsnap, le_refl]
  | compact upto hle _ hsnap _ => simpa only [watermark, hsnap] using hle

end Step

/-! ## Sequences of moves -/

/-- A sequence of moves, with everything it appended. -/
inductive Evolves : CompactedLog P → List P → CompactedLog P → Prop
  | refl (log : CompactedLog P) : Evolves log [] log
  | head {log mid log' : CompactedLog P} {ps qs : List P} :
      Step log ps mid → Evolves mid qs log' → Evolves log (ps ++ qs) log'

namespace Evolves

variable {log mid log' : CompactedLog P} {ps qs : List P}

theorem single (hstep : Step log ps log') : Evolves log ps log' := by
  simpa using head hstep (refl log')

theorem trans (hfst : Evolves log ps mid) (hsnd : Evolves mid qs log') :
    Evolves log (ps ++ qs) log' := by
  induction hfst with
  | refl => simpa using hsnd
  | head hstep _ ih => simpa using head hstep (ih hsnd)

/-- Nothing appended is lost, however the log was compacted and pruned. -/
theorem value_eq (h : Evolves log ps log') : log'.value = log.value ⊔ joinAll ps := by
  induction h with
  | refl => simp
  | head hstep _ ih => rw [ih, hstep.value_eq, joinAll_append, sup_assoc]

theorem watermark_le (h : Evolves log ps log') : log.watermark ≤ log'.watermark := by
  induction h with
  | refl => exact le_rfl
  | head hstep _ ih => exact hstep.watermark_le.trans ih

end Evolves

end CompactedLog

end Toss.Foundation
