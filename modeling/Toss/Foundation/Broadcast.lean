import Mathlib.Data.List.Basic

/-!
# A bounded broadcast channel

Every message sent is numbered by its place in the channel's history. A receiver
holds the number of the next message it will take; the channel keeps the last
`capacity` messages, so a receiver that fell further behind is told that it
lagged instead.

* `receive` — what a receiver at `next` gets;
* `PendingAt` — a message that a receiver has still to take;
* `PendingAt.append`, `PendingAt.receive` — a pending message stays pending
  while others are sent, and until the receiver gets to it.
-/

namespace Toss.Foundation

variable {M : Type*}

/-- What a receiver gets: nothing yet, a message, or the news that it lagged. -/
inductive Received (M : Type*)
  | empty
  | message (m : M)
  | lagged
deriving DecidableEq, Repr

def receive (capacity : Nat) (history : List M) (next : Nat) : Received M :=
  match history[next]? with
  | none => .empty
  | some m => if capacity < history.length - next then .lagged else .message m

/-- A receiver takes the message at its place. -/
theorem receive_message_getElem? {capacity : Nat} {history : List M} {next : Nat} {m : M}
    (h : receive capacity history next = .message m) : history[next]? = some m := by
  unfold receive at h
  split at h
  · simp at h
  rename_i m' hget
  split at h
  · simp at h
  · rw [hget]
    simpa using h

theorem receive_message_lt {capacity : Nat} {history : List M} {next : Nat} {m : M}
    (h : receive capacity history next = .message m) : next < history.length :=
  (List.getElem?_eq_some_iff.mp (receive_message_getElem? h)).1

/-- A message that meets `p` lies at or after the place `next`. -/
def PendingAt (p : M → Prop) (history : List M) (next : Nat) : Prop :=
  ∃ i m, next ≤ i ∧ history[i]? = some m ∧ p m

namespace PendingAt

variable {p : M → Prop} {history : List M} {next : Nat}

/-- Sending does not take a pending message away. -/
theorem append (h : PendingAt p history next) (later : List M) :
    PendingAt p (history ++ later) next := by
  rcases h with ⟨i, m, hle, hget, hm⟩
  refine ⟨i, m, hle, ?_, hm⟩
  rw [List.getElem?_append_left]
  · exact hget
  · exact (List.getElem?_eq_some_iff.mp hget).1

/-- A message just sent is pending for every receiver of the channel. -/
theorem of_send {m : M} (hm : p m) (hnext : next ≤ history.length) :
    PendingAt p (history ++ [m]) next :=
  ⟨history.length, m, hnext, by simp, hm⟩

/-- The receiver takes the pending message, or it is still pending after. -/
theorem receive {capacity : Nat} {m : M} (h : PendingAt p history next)
    (hrecv : receive capacity history next = .message m) :
    p m ∨ PendingAt p history (next + 1) := by
  rcases h with ⟨i, m', hle, hget, hm'⟩
  rcases Nat.eq_or_lt_of_le hle with heq | hlt
  · -- the pending message is the one that was taken
    subst heq
    left
    unfold Foundation.receive at hrecv
    rw [hget] at hrecv
    by_cases hlag : capacity < history.length - next
    · simp [hlag] at hrecv
    · simp [hlag] at hrecv
      rwa [← hrecv]
  · right
    exact ⟨i, m', hlt, hget, hm'⟩

/-- A receiver with something pending gets a message or the news that it lagged. -/
theorem receive_ne_empty {capacity : Nat} (h : PendingAt p history next) :
    Foundation.receive capacity history next ≠ .empty := by
  rcases h with ⟨i, m, hle, hget, -⟩
  have hi : i < history.length := (List.getElem?_eq_some_iff.mp hget).1
  have hnext : next < history.length := by omega
  unfold Foundation.receive
  rw [List.getElem?_eq_getElem hnext]
  by_cases hlag : capacity < history.length - next
  · simp [hlag]
  · simp [hlag]

end PendingAt

end Toss.Foundation
