import Mathlib.Data.List.Basic

/-!
# Maps as lists of entries

`List.lookup` reads a list of key-value pairs as a map in which the first entry of
a key counts. Two lists are the same map when every lookup agrees; nothing else of
their order matters.

* `SameEntries` — equality of the maps, decidable;
* `lookup_map`, `lookup_of_mem` — lookups under a renaming of the keys, and in a list
  without double keys;
* `dedupKeys` — the same map without double keys.
-/

namespace Toss.Foundation

variable {κ κ' ν ν' : Type*} [BEq κ] [LawfulBEq κ] [BEq κ'] [LawfulBEq κ']

/-- The same map. -/
def SameEntries (a b : List (κ × ν)) : Prop :=
  ∀ key, a.lookup key = b.lookup key

variable {entries : List (κ × ν)} {key : κ} {value : ν}

theorem lookup_eq_none_of_not_mem
    (h : key ∉ entries.map Prod.fst) : entries.lookup key = none := by
  rw [List.lookup_eq_none_iff]
  intro entry hentry
  simp only [bne_iff_ne, ne_eq]
  rintro rfl
  exact h (List.mem_map_of_mem hentry)

/-- A lookup finds an entry of the list. -/
theorem mem_of_lookup (h : entries.lookup key = some value) : (key, value) ∈ entries := by
  rcases List.lookup_eq_some_iff.mp h with ⟨front, rest, rfl, -⟩
  simp

/-- Without double keys every entry is found. -/
theorem lookup_of_mem (hkeys : (entries.map Prod.fst).Nodup) (h : (key, value) ∈ entries) :
    entries.lookup key = some value := by
  induction entries with
  | nil => exact absurd h List.not_mem_nil
  | cons entry entries ih =>
    rw [List.map_cons, List.nodup_cons] at hkeys
    rcases List.mem_cons.mp h with heq | hrest
    · rw [← heq, List.lookup_cons_self]
    have hne : (key == entry.1) = false := by
      rw [beq_eq_false_iff_ne]
      rintro rfl
      exact hkeys.1 (List.mem_map.mpr ⟨_, hrest, rfl⟩)
    rw [List.lookup_cons, hne]
    exact ih hkeys.2 hrest

theorem lookup_eq_some_iff (hkeys : (entries.map Prod.fst).Nodup)
    : entries.lookup key = some value ↔ (key, value) ∈ entries :=
  ⟨mem_of_lookup, lookup_of_mem hkeys⟩

/-- What is left of distinct entries. -/
theorem lookup_filter (hkeys : (entries.map Prod.fst).Nodup) (keep : κ × ν → Bool) (key : κ) :
    (entries.filter keep).lookup key
      = (entries.lookup key).filter fun value => keep (key, value) := by
  have hkept : ((entries.filter keep).map Prod.fst).Nodup :=
    hkeys.sublist (List.filter_sublist.map _)
  refine Option.ext fun value => ?_
  rw [lookup_eq_some_iff hkept, List.mem_filter, Option.filter_eq_some_iff,
    lookup_eq_some_iff hkeys]

/-- A lookup under keys renamed without clashes. -/
theorem lookup_map {f : κ → κ'} (hf : Function.Injective f) (g : ν → ν')
    (entries : List (κ × ν)) (key : κ) :
    (entries.map fun entry => (f entry.1, g entry.2)).lookup (f key)
      = (entries.lookup key).map g := by
  induction entries with
  | nil => rfl
  | cons entry entries ih =>
    rw [List.map_cons, List.lookup_cons, List.lookup_cons]
    by_cases h : key = entry.1
    · simp [h]
    · have hne : f key ≠ f entry.1 := fun heq => h (hf heq)
      rw [beq_eq_false_iff_ne.mpr h, beq_eq_false_iff_ne.mpr hne]
      exact ih

namespace SameEntries

variable {a b c : List (κ × ν)}

omit [LawfulBEq κ] in
theorem refl (a : List (κ × ν)) : SameEntries a a := fun _ => rfl

omit [LawfulBEq κ] in
theorem symm (h : SameEntries a b) : SameEntries b a := fun key => (h key).symm

omit [LawfulBEq κ] in
theorem trans (h : SameEntries a b) (h' : SameEntries b c) : SameEntries a c :=
  fun key => (h key).trans (h' key)

/-- Without double keys the order does not matter. -/
theorem of_perm (hkeys : (a.map Prod.fst).Nodup) (h : a.Perm b) : SameEntries a b := by
  intro key
  have hkeys' : (b.map Prod.fst).Nodup := (h.map Prod.fst).nodup_iff.mp hkeys
  ext value
  rw [lookup_eq_some_iff hkeys, lookup_eq_some_iff hkeys', h.mem_iff]

/-- The same map under renamed keys and values. -/
theorem map {f : κ → κ'} (hf : Function.Injective f) (g : ν → ν') (h : SameEntries a b) :
    SameEntries (a.map fun entry => (f entry.1, g entry.2))
      (b.map fun entry => (f entry.1, g entry.2)) := by
  intro key
  by_cases hkey : ∃ original, f original = key
  · rcases hkey with ⟨original, rfl⟩
    rw [lookup_map hf, lookup_map hf, h]
  have hnone : ∀ entries : List (κ × ν),
      (entries.map fun entry => (f entry.1, g entry.2)).lookup key = none := by
    intro entries
    refine lookup_eq_none_of_not_mem ?_
    simp only [List.map_map, List.mem_map, Function.comp_apply, not_exists, not_and]
    exact fun entry _ heq => hkey ⟨entry.1, heq⟩
  rw [hnone, hnone]

/-- The maps agree if they do on the keys of either. -/
theorem iff_forall_mem : SameEntries a b ↔
    ∀ key ∈ a.map Prod.fst ++ b.map Prod.fst, a.lookup key = b.lookup key := by
  constructor
  · intro h key _
    exact h key
  · intro h key
    by_cases hmem : key ∈ a.map Prod.fst ++ b.map Prod.fst
    · exact h key hmem
    · rw [List.mem_append, not_or] at hmem
      rw [lookup_eq_none_of_not_mem hmem.1, lookup_eq_none_of_not_mem hmem.2]

instance [DecidableEq ν] : Decidable (SameEntries a b) :=
  decidable_of_iff _ iff_forall_mem.symm

end SameEntries

/-- Keep the first entry of every key. -/
def dedupKeys : List (κ × ν) → List (κ × ν)
  | [] => []
  | entry :: entries => entry :: (dedupKeys entries).filter fun other => other.1 != entry.1

theorem lookup_filter_ne {key removed : κ} (h : key ≠ removed) :
    (entries.filter fun entry => entry.1 != removed).lookup key = entries.lookup key := by
  induction entries with
  | nil => rfl
  | cons entry entries ih =>
    rcases entry with ⟨other, value⟩
    rw [List.filter_cons]
    by_cases hother : other = removed
    · have hne : (key == other) = false := by
        rw [beq_eq_false_iff_ne, hother]
        exact h
      rw [List.lookup_cons, hne, if_neg (by simp [hother])]
      exact ih
    · rw [if_pos (by simpa using hother), List.lookup_cons, List.lookup_cons, ih]

theorem lookup_dedupKeys (entries : List (κ × ν)) (key : κ) :
    (dedupKeys entries).lookup key = entries.lookup key := by
  induction entries with
  | nil => rfl
  | cons entry entries ih =>
    rw [dedupKeys, List.lookup_cons, List.lookup_cons]
    cases hkey : key == entry.1 with
    | true => rfl
    | false =>
      rw [beq_eq_false_iff_ne] at hkey
      rw [lookup_filter_ne hkey, ih]

theorem nodup_dedupKeys (entries : List (κ × ν)) :
    ((dedupKeys entries).map Prod.fst).Nodup := by
  induction entries with
  | nil => exact List.nodup_nil
  | cons entry entries ih =>
    rw [dedupKeys, List.map_cons, List.nodup_cons]
    constructor
    · intro hmem
      rcases List.mem_map.mp hmem with ⟨other, hother, heq⟩
      simp [heq] at hother
    · exact ih.sublist (List.Sublist.map Prod.fst List.filter_sublist)

/-- A map without double keys is its entries. -/
theorem mem_dedupKeys :
    (key, value) ∈ dedupKeys entries ↔ entries.lookup key = some value := by
  rw [← lookup_dedupKeys]
  exact ⟨fun h => lookup_of_mem (nodup_dedupKeys entries) h, mem_of_lookup⟩

theorem dedupKeys_eq_self (h : (entries.map Prod.fst).Nodup) :
    dedupKeys entries = entries := by
  induction entries with
  | nil => rfl
  | cons entry entries ih =>
    rw [List.map_cons, List.nodup_cons] at h
    rw [dedupKeys, ih h.2, List.filter_eq_self.mpr]
    intro other hother
    have hne : other.1 ≠ entry.1 := by
      intro heq
      exact h.1 (heq ▸ List.mem_map_of_mem hother)
    simpa using hne

/-- A map that is split in two and put together is the same map. -/
theorem lookup_partition (hkeys : (entries.map Prod.fst).Nodup) (p : κ × ν → Bool) (key : κ) :
    (dedupKeys (entries.filter (fun entry => !p entry) ++ entries.filter p)).lookup key
      = entries.lookup key := by
  rw [lookup_dedupKeys]
  have hperm : (entries.filter (fun entry => !p entry) ++ entries.filter p).Perm entries :=
    List.perm_append_comm.trans (List.filter_append_perm p entries)
  refine SameEntries.of_perm ?_ hperm key
  exact (hperm.map Prod.fst).nodup_iff.mpr hkeys

end Toss.Foundation
