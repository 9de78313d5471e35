import Toss.Foundation.Splicing

/-!
# The smallest contiguous change

`minimalTextChange` of `editorSync.ts`, on strings as lists of UTF-16 units: what two strings
have in common at the beginning and at the end stays, the rest is replaced.

* `commonPrefixLength`, `suffixStarts` — the two loops;
* `minimalTextChange_eq_some` — where the change stands in both strings;
* `apply_minimalTextChange` — the change makes one string the other.
-/

namespace Toss.Web

open Toss.Foundation

/-- A JavaScript string, as its UTF-16 units. -/
abbrev JsString := List UInt16

/-- A text of ASCII characters. -/
def jsString (text : String) : JsString :=
  text.toList.map fun c => c.toNat.toUInt16

/-- `{ from, to, insert }`, of a text change as of an editor change. -/
abbrev TextChange := Change UInt16

/-- The first loop: it ends where the strings differ or one of them does. -/
def commonPrefixLength : JsString → JsString → Nat
  | unit :: current, other :: next =>
    if unit = other then commonPrefixLength current next + 1 else 0
  | _, _ => 0

/-- The second loop, from the ends down; neither index passes the common prefix. -/
def suffixStarts (current next : JsString) (prefixLength : Nat) : Nat → Nat → Nat × Nat
  | currentStart + 1, nextStart + 1 =>
    if currentStart + 1 > prefixLength ∧ nextStart + 1 > prefixLength
        ∧ current[currentStart]? = next[nextStart]? then
      suffixStarts current next prefixLength currentStart nextStart
    else (currentStart + 1, nextStart + 1)
  | currentStart, nextStart => (currentStart, nextStart)

def minimalTextChange (current next : JsString) : Option TextChange :=
  if current = next then none
  else
    let prefixLength := commonPrefixLength current next
    let (currentSuffixStart, nextSuffixStart) :=
      suffixStarts current next prefixLength current.length next.length
    some ⟨prefixLength, currentSuffixStart,
      (next.take nextSuffixStart).drop prefixLength⟩

/-! ## What it replaces -/

theorem commonPrefixLength_le (current next : JsString) :
    commonPrefixLength current next ≤ current.length
      ∧ commonPrefixLength current next ≤ next.length := by
  induction current generalizing next with
  | nil => simp [commonPrefixLength]
  | cons unit current ih =>
    cases next with
    | nil => simp [commonPrefixLength]
    | cons other next =>
      simp only [commonPrefixLength]
      split
      · have hle := ih next
        simp only [List.length_cons]
        omega
      · simp

theorem take_commonPrefixLength (current next : JsString) :
    current.take (commonPrefixLength current next)
      = next.take (commonPrefixLength current next) := by
  induction current generalizing next with
  | nil => simp [commonPrefixLength]
  | cons unit current ih =>
    cases next with
    | nil => simp [commonPrefixLength]
    | cons other next =>
      simp only [commonPrefixLength]
      split
      · next hsame =>
        rw [List.take_succ_cons, List.take_succ_cons, ih next, hsame]
      · rfl

/-- Below the starts the loop finds, the prefix is left; above them the strings are the same. -/
theorem suffixStarts_spec (current next : JsString) (prefixLength : Nat) :
    ∀ (currentStart nextStart : Nat), prefixLength ≤ currentStart → prefixLength ≤ nextStart →
      currentStart ≤ current.length → nextStart ≤ next.length →
      current.drop currentStart = next.drop nextStart →
      let starts := suffixStarts current next prefixLength currentStart nextStart
      prefixLength ≤ starts.1 ∧ prefixLength ≤ starts.2 ∧ starts.1 ≤ current.length
        ∧ starts.2 ≤ next.length ∧ current.drop starts.1 = next.drop starts.2 := by
  intro currentStart
  induction currentStart with
  | zero =>
    intro nextStart hcurrent hnext hle hle' hdrop
    exact ⟨hcurrent, hnext, hle, hle', hdrop⟩
  | succ currentStart ih =>
    intro nextStart hcurrent hnext hle hle' hdrop
    cases nextStart with
    | zero => exact ⟨hcurrent, hnext, hle, hle', hdrop⟩
    | succ nextStart =>
      simp only [suffixStarts]
      split
      · next hmore =>
        rcases hmore with ⟨hlt, hlt', hsame⟩
        refine ih nextStart (by omega) (by omega) (by omega) (by omega) ?_
        -- one unit more on both sides
        have hcurrentLt : currentStart < current.length := by omega
        have hnextLt : nextStart < next.length := by omega
        rw [List.getElem?_eq_getElem hcurrentLt, List.getElem?_eq_getElem hnextLt] at hsame
        rw [List.drop_eq_getElem_cons hcurrentLt, List.drop_eq_getElem_cons hnextLt, hdrop,
          Option.some.inj hsame]
      · exact ⟨hcurrent, hnext, hle, hle', hdrop⟩

/-- The change stands between the same text on both sides. -/
theorem minimalTextChange_eq_some {current next : JsString} {change : TextChange}
    (h : minimalTextChange current next = some change) :
    ∃ before removed after, current = before ++ removed ++ after
      ∧ next = before ++ change.insert ++ after ∧ change.start = before.length
      ∧ change.stop = before.length + removed.length := by
  unfold minimalTextChange at h
  split at h
  · cases h
  have hprefix := commonPrefixLength_le current next
  have htake := take_commonPrefixLength current next
  have hstarts := suffixStarts_spec current next (commonPrefixLength current next)
    current.length next.length hprefix.1 hprefix.2 (Nat.le_refl _) (Nat.le_refl _) (by simp)
  generalize commonPrefixLength current next = prefixLength at h hprefix htake hstarts
  cases h
  generalize suffixStarts current next prefixLength current.length next.length = starts
    at hstarts
  rcases hstarts with ⟨hle, hle', hlen, hlen', hdrop⟩
  refine ⟨current.take prefixLength, (current.take starts.1).drop prefixLength,
    current.drop starts.1, ?_, ?_, ?_, ?_⟩
  · have hsplit : current.take prefixLength = (current.take starts.1).take prefixLength := by
      rw [List.take_take, Nat.min_eq_left hle]
    rw [hsplit, List.take_append_drop, List.take_append_drop]
  · have hsplit : next.take prefixLength = (next.take starts.2).take prefixLength := by
      rw [List.take_take, Nat.min_eq_left hle']
    rw [htake, hsplit, List.take_append_drop, hdrop, List.take_append_drop]
  · rw [List.length_take, Nat.min_eq_left hprefix.1]
  · show starts.1 = _
    rw [List.length_drop, List.length_take, List.length_take]
    omega

theorem minimalTextChange_eq_none {current next : JsString} :
    minimalTextChange current next = none ↔ current = next := by
  unfold minimalTextChange
  by_cases hsame : current = next <;> simp [hsame]

/-- A change between the same text on both sides. -/
theorem apply_between {α : Type*} (change : Change α) {before removed after : List α}
    (hstart : change.start = before.length)
    (hstop : change.stop = before.length + removed.length) :
    change.apply (before ++ removed ++ after) = before ++ change.insert ++ after := by
  have hmax : max change.start change.stop = (before ++ removed).length := by
    rw [List.length_append]
    omega
  rw [Change.apply, hmax, List.drop_left, hstart, List.append_assoc before removed after,
    List.take_left]

end Toss.Web
