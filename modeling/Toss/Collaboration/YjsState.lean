import Toss.Foundation.CompactedLog
import Toss.Foundation.Fallible
import Toss.Basic

/-!
# Yjs states and updates

`yjs_state.rs` over the CRDT library it calls. The library is a parameter:
document states form a join-semilattice whose bottom is the empty document,
applying an update joins in the state the update carries, and encoding a state
gives an update that carries it.
-/

namespace Toss.Collaboration

open Toss.Foundation

inductive YjsStateError
  | decode
  | apply
deriving DecidableEq, Repr

/-- The CRDT library as the collaboration code uses it. -/
structure YjsLibrary (State : Type) where
  /-- `Update::decode_v1`, then `apply_update` on a new document. -/
  decode : Bytes → Except YjsStateError State
  /-- `encode_state_as_update_v1` against the empty state vector. -/
  encode : State → Bytes
  /-- The string of the shared text `"main"`. -/
  getString : State → Text
  /-- A new document of client 1 with the content inserted at index 0. -/
  insertText : Text → State
  decode_encode : ∀ state, decode (encode state) = .ok state

structure MergedYjsState where
  update : Bytes
  text : Text
deriving DecidableEq, Repr

variable {State : Type} (yjs : YjsLibrary State)

def validateUpdate (payload : Bytes) : Except YjsStateError Unit := do
  let _ ← yjs.decode payload
  return ()

/-- A payload that `validate_update` lets through. -/
def Valid (payload : Bytes) : Prop :=
  ∃ state, yjs.decode payload = .ok state

theorem valid_encode (state : State) : Valid yjs (yjs.encode state) :=
  ⟨state, yjs.decode_encode state⟩

theorem validateUpdate_ok {payload : Bytes} :
    validateUpdate yjs payload = .ok () ↔ Valid yjs payload := by
  unfold validateUpdate Valid
  cases yjs.decode payload with
  | ok state => simp
  | error e => simp

variable [SemilatticeSup State] [OrderBot State]

/-- The canonical state of a document that nobody has edited yet. -/
def seedState (content : Text) : State :=
  if content.isEmpty then ⊥ else yjs.insertText content

def seedText (content : Text) : Bytes :=
  yjs.encode (seedState yjs content)

/-- `apply_update` on a document already in `state`. -/
def applyUpdate (state : State) (payload : Bytes) : Except YjsStateError State := do
  let update ← yjs.decode payload
  return state ⊔ update

/-- The document `merge_updates` builds before it is read out: the snapshot if
there is one, then each update. -/
def mergeStates (snapshot : Option Bytes) (updates : List Bytes) : Except YjsStateError State :=
  (snapshot.toList ++ updates).foldlM (applyUpdate yjs) ⊥

def mergeUpdates (snapshot : Option Bytes) (updates : List Bytes) :
    Except YjsStateError MergedYjsState := do
  let document ← mergeStates yjs snapshot updates
  return { update := yjs.encode document, text := yjs.getString document }

/-! ## What a stored payload means -/

/-- The state a payload carries; the empty document for an invalid one. -/
def denote (payload : Bytes) : State :=
  match yjs.decode payload with
  | .ok state => state
  | .error _ => ⊥

theorem decode_of_valid {payload : Bytes} (h : Valid yjs payload) :
    yjs.decode payload = .ok (denote yjs payload) := by
  obtain ⟨state, hstate⟩ := h
  simp only [denote, hstate]

@[simp] theorem denote_encode (state : State) : denote yjs (yjs.encode state) = state := by
  simp only [denote, yjs.decode_encode]

theorem foldlM_applyUpdate {payloads : List Bytes} (hvalid : ∀ p ∈ payloads, Valid yjs p)
    (state : State) :
    payloads.foldlM (applyUpdate yjs) state
      = .ok (state ⊔ CompactedLog.joinAll (payloads.map (denote yjs))) := by
  induction payloads generalizing state with
  | nil => simp
  | cons p ps ih =>
    have hp : applyUpdate yjs state p = .ok (state ⊔ denote yjs p) := by
      simp [applyUpdate, decode_of_valid yjs (hvalid p (by simp))]
    rw [List.foldlM_cons, hp, ok_bind]
    simpa [sup_assoc] using ih (fun q hq => hvalid q (List.mem_cons_of_mem p hq))
      (state ⊔ denote yjs p)

/-- Merging valid payloads succeeds and joins the states they carry. -/
theorem mergeStates_of_valid {snapshot : Option Bytes} {updates : List Bytes}
    (hsnapshot : ∀ p ∈ snapshot, Valid yjs p) (hupdates : ∀ p ∈ updates, Valid yjs p) :
    mergeStates yjs snapshot updates
      = .ok ((snapshot.elim ⊥ (denote yjs))
          ⊔ CompactedLog.joinAll (updates.map (denote yjs))) := by
  have hall : ∀ p ∈ snapshot.toList ++ updates, Valid yjs p := by
    intro p hp
    rcases List.mem_append.mp hp with hp | hp
    · exact hsnapshot p (by simpa using hp)
    · exact hupdates p hp
  rw [mergeStates, foldlM_applyUpdate yjs hall]
  cases snapshot <;> simp

/-- A canonical seed merges into the state it was made of. -/
theorem mergeUpdates_seedText (content : Text) :
    mergeUpdates yjs (some (seedText yjs content)) []
      = .ok
          { update := yjs.encode (seedState yjs content)
            text := yjs.getString (seedState yjs content) } := by
  have hvalid : ∀ p ∈ some (seedText yjs content), Valid yjs p := by
    simpa [seedText] using valid_encode yjs (seedState yjs content)
  rw [mergeUpdates, mergeStates_of_valid yjs hvalid (by simp)]
  simp [seedText]

end Toss.Collaboration
