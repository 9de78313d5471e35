import Toss.Web.RealtimeBinding

/-!
# Local changes and snapshots of the realtime binding

* `Delivery`, `step_delivery` — the invariant of the local changes;
* `Promises`, `step_promises` — the invariant of the snapshot promises;
* `binding_delivers` — what holds after every sequence of events.

A snapshot that stays unacknowledged is also settled by its timeout, on a socket
that is open all the while: `unacknowledged_timesOut`.
-/

namespace Toss.Web.Realtime

open Toss.Collaboration

variable {State : Type}

/-! ## The promises -/

/-- Every promise has a request identifier of its own. -/
structure Promises (b : Binding State) : Prop where
  settledOnce : SettledOnce b
  issued : ∀ requestId ∈ b.promises, requestId ≤ b.requestSequence
  honest : ∀ settlement ∈ b.settlements, settlement.acknowledged = true →
    settlement.settledBy = .acknowledgement

/-- The promises of the two bindings are the same. -/
structure SamePromises (b b' : Binding State) : Prop where
  promises : b'.promises = b.promises
  pending : b'.pendingSnapshots = b.pendingSnapshots
  settlements : b'.settlements = b.settlements
  sequence : b.requestSequence ≤ b'.requestSequence

theorem SamePromises.refl (b : Binding State) : SamePromises b b :=
  ⟨rfl, rfl, rfl, Nat.le_refl _⟩

theorem SamePromises.trans {b b' b'' : Binding State} (h : SamePromises b b')
    (h' : SamePromises b' b'') : SamePromises b b'' :=
  ⟨h'.promises.trans h.promises, h'.pending.trans h.pending,
    h'.settlements.trans h.settlements, h.sequence.trans h'.sequence⟩

theorem Promises.of_same {b b' : Binding State} (h : Promises b) (hsame : SamePromises b b') :
    Promises b' := by
  refine ⟨?_, ?_, ?_⟩
  · rw [SettledOnce, hsame.promises, hsame.pending, hsame.settlements]
    exact h.settledOnce
  · intro requestId hmem
    rw [hsame.promises] at hmem
    exact (h.issued requestId hmem).trans hsame.sequence
  · rw [hsame.settlements]
    exact h.honest

theorem samePromises_connect (b : Binding State) : SamePromises b b.connect := by
  unfold Binding.connect
  split
  · exact .refl b
  · exact ⟨rfl, rfl, rfl, Nat.le_refl _⟩

theorem samePromises_startReconnectCountdown (b : Binding State) (closeCode : Option Nat) :
    SamePromises b (b.startReconnectCountdown closeCode) := by
  unfold Binding.startReconnectCountdown
  split
  · exact .refl b
  · split
    · exact ⟨rfl, rfl, rfl, Nat.le_refl _⟩
    · exact ⟨rfl, rfl, rfl, Nat.le_refl _⟩

theorem samePromises_reconnectNow (b : Binding State) : SamePromises b b.reconnectNow := by
  unfold Binding.reconnectNow
  split
  · exact .refl b
  split
  · exact samePromises_connect b
  · split
    · exact samePromises_connect b
    · exact .refl b

/-- All pending promises are settled at once. -/
theorem promises_settlePending {b : Binding State} (h : Promises b) (settledBy : SettledBy) :
    Promises (b.settlePendingSnapshots false settledBy) := by
  refine ⟨⟨h.settledOnce.1, ?_⟩, h.issued, ?_⟩
  · have hids : (b.pendingSnapshots.map fun pending =>
          ({ requestId := pending.requestId, acknowledged := false, settledBy } : Settlement)).map
            (·.requestId) = b.pendingSnapshots.map (·.requestId) := by
      rw [List.map_map]
      rfl
    simp only [Binding.settlePendingSnapshots, List.map_nil, List.nil_append, List.map_append,
      hids]
    exact List.perm_append_comm.trans h.settledOnce.2
  · intro settlement hmem hacknowledged
    rcases List.mem_append.mp hmem with hold | hnew
    · exact h.honest settlement hold hacknowledged
    · rcases List.mem_map.mp hnew with ⟨pending, _, heq⟩
      rw [← heq] at hacknowledged
      simp at hacknowledged

/-- One pending promise is settled. -/
theorem promises_settleOne {b b' : Binding State} (h : Promises b) (settlement : Settlement)
    (hpending : settlement.requestId ∈ b.pendingSnapshots.map (·.requestId))
    (hpromises : b'.promises = b.promises)
    (hremoved : b'.pendingSnapshots
      = b.pendingSnapshots.filter fun other => other.requestId ≠ settlement.requestId)
    (hsettled : b'.settlements = b.settlements ++ [settlement])
    (hsequence : b'.requestSequence = b.requestSequence)
    (hhonest : settlement.acknowledged = true → settlement.settledBy = .acknowledgement) :
    Promises b' := by
  refine ⟨⟨?_, ?_⟩, ?_, ?_⟩
  · rw [hpromises]
    exact h.settledOnce.1
  · have hnodup : (b.pendingSnapshots.map (·.requestId)).Nodup :=
      (List.nodup_append.mp (h.settledOnce.2.nodup_iff.mpr h.settledOnce.1)).1
    have hids : (b.pendingSnapshots.filter fun other =>
          other.requestId ≠ settlement.requestId).map (·.requestId)
        = (b.pendingSnapshots.map (·.requestId)).erase settlement.requestId := by
      have hcond : (fun other : PendingSnapshot =>
            decide (other.requestId ≠ settlement.requestId))
          = (fun id => id != settlement.requestId) ∘ fun other => other.requestId := by
        funext other
        by_cases heq : other.requestId = settlement.requestId
        · simp [heq]
        · simp [heq]
      rw [hnodup.erase_eq_filter, List.filter_map, hcond]
    have hperm := List.perm_cons_erase hpending
    rw [hpromises, hremoved, hsettled, hids, List.map_append]
    refine List.Perm.trans ?_ h.settledOnce.2
    refine List.Perm.trans ?_ (hperm.symm.append_right _)
    rw [← List.append_assoc]
    exact (List.perm_append_singleton settlement.requestId _)
  · intro requestId hmem
    rw [hpromises] at hmem
    rw [hsequence]
    exact h.issued requestId hmem
  · intro other hmem
    rw [hsettled] at hmem
    rcases List.mem_append.mp hmem with hold | hnew
    · exact h.honest other hold
    · rw [List.mem_singleton.mp hnew]
      exact hhonest

theorem promises_acknowledge {b : Binding State} (h : Promises b) (requestId : Nat)
    (projected : Bool) : Promises (b.acknowledge requestId projected) := by
  unfold Binding.acknowledge
  split
  · next pending hfound =>
    have hid : pending.requestId = requestId := by simpa using List.find?_some hfound
    have hpending : requestId ∈ b.pendingSnapshots.map (·.requestId) := by
      rw [← hid]
      exact List.mem_map_of_mem (List.mem_of_find?_eq_some hfound)
    exact promises_settleOne h
      { requestId, acknowledged := projected, settledBy := .acknowledgement }
      hpending rfl rfl rfl rfl (fun _ => rfl)
  · exact h

theorem promises_snapshotTimeout {b : Binding State} (h : Promises b) (requestId : Nat) :
    Promises (b.snapshotTimeout requestId) := by
  unfold Binding.snapshotTimeout
  split
  · next hfound =>
    rcases List.any_eq_true.mp hfound with ⟨pending, hmem, hid⟩
    have hpending : requestId ∈ b.pendingSnapshots.map (·.requestId) :=
      List.mem_map.mpr ⟨pending, hmem, by simpa using hid⟩
    exact promises_settleOne h
      { requestId, acknowledged := false, settledBy := .timeout }
      hpending rfl rfl rfl rfl (by simp)
  · exact h

theorem promises_close {b : Binding State} (h : Promises b) : Promises b.close := by
  have hsettled := promises_settlePending h .dispose
  unfold Binding.close
  refine Promises.of_same hsettled ?_
  simp only
  split
  · exact ⟨rfl, rfl, rfl, Nat.le_refl _⟩
  · exact ⟨rfl, rfl, rfl, Nat.le_refl _⟩

theorem promises_bind (canWrite : Bool) (ydoc : State) : Promises (bind canWrite ydoc) := by
  refine Promises.of_same ?_ (samePromises_connect _)
  exact ⟨⟨List.nodup_nil, List.Perm.nil⟩, by simp, by simp⟩

section Document

variable (yjs : YjsLibrary State)

theorem samePromises_onLocalUpdate (b : Binding State) (update : Bytes) :
    SamePromises b (b.onLocalUpdate update) := by
  have harmed : SamePromises b { b with snapshotTimer := true } := ⟨rfl, rfl, rfl, Nat.le_refl _⟩
  unfold Binding.onLocalUpdate
  simp only
  split
  · exact harmed
  split
  · split
    · exact ⟨rfl, rfl, rfl, Nat.le_succ _⟩
    · exact harmed
  · exact harmed

variable {b : Binding State}

/-- A snapshot is sent under a request identifier that is new. -/
theorem promises_sendSnapshotTo (h : Promises b) (id : SocketId) :
    Promises (b.sendSnapshotTo yjs id) := by
  unfold Binding.sendSnapshotTo
  split
  · exact h
  refine ⟨⟨?_, ?_⟩, ?_, h.honest⟩
  · show (b.promises ++ [b.requestSequence + 1]).Nodup
    refine List.nodup_append.mpr ⟨h.settledOnce.1, List.nodup_singleton _, ?_⟩
    intro issued hissued new hnew
    have := h.issued issued hissued
    have := List.mem_singleton.mp hnew
    omega
  · simp only [Binding.send, List.map_append, List.append_assoc, List.map_singleton]
    refine List.Perm.trans ?_ (h.settledOnce.2.append_right [b.requestSequence + 1])
    rw [List.append_assoc]
    exact List.Perm.append_left _ List.perm_append_comm
  · intro issued hissued
    rcases List.mem_append.mp hissued with hold | hnew
    · exact (h.issued issued hold).trans (Nat.le_succ _)
    · exact Nat.le_of_eq (List.mem_singleton.mp hnew)

theorem promises_sendSyncSnapshot (h : Promises b) :
    Promises (b.sendSyncSnapshot yjs) := by
  have hcleared : Promises b.clearSnapshotTimer := ⟨h.settledOnce, h.issued, h.honest⟩
  unfold Binding.sendSyncSnapshot
  split
  · exact h
  split
  · split
    · exact promises_sendSnapshotTo yjs hcleared _
    · exact h
  · exact h

theorem promises_snapshotDebounced (h : Promises b) :
    Promises (b.snapshotDebounced yjs) := by
  have hcleared : Promises b.clearSnapshotTimer := ⟨h.settledOnce, h.issued, h.honest⟩
  unfold Binding.snapshotDebounced
  split
  · exact h
  split
  · split
    · exact promises_sendSnapshotTo yjs hcleared _
    · exact hcleared
  · exact hcleared

variable [SemilatticeSup State]

theorem samePromises_editLocally (b : Binding State) (change : State) :
    SamePromises b (b.editLocally yjs change) := by
  have hchanged : SamePromises b
      { b with ydoc := b.ydoc ⊔ change, localChanges := b.localChanges ++ [change] } :=
    ⟨rfl, rfl, rfl, Nat.le_refl _⟩
  unfold Binding.editLocally
  simp only
  split
  · exact hchanged.trans (samePromises_onLocalUpdate _ _)
  · exact hchanged

theorem samePromises_edits (b : Binding State) (edits : List State) :
    SamePromises b (edits.foldl (Binding.editLocally yjs) b) := by
  induction edits generalizing b with
  | nil => exact .refl b
  | cons change edits ih => exact (samePromises_editLocally yjs b change).trans (ih _)

theorem promises_bootstrapDone (h : Promises b) (id : SocketId)
    (edits : List State) : Promises (b.bootstrapDone yjs id edits) := by
  unfold Binding.bootstrapDone
  split
  · exact h
  · refine promises_sendSnapshotTo yjs (Promises.of_same ?_ (samePromises_edits yjs _ edits)) id
    exact ⟨h.settledOnce, h.issued, h.honest⟩

theorem promises_onMessage (h : Promises b) (id : SocketId)
    (message : ServerMessage State) : Promises (onMessage yjs b id message) := by
  cases message with
  | ack requestId projected => exact promises_acknowledge h requestId projected
  | yjs payload =>
    simp only [onMessage]
    split
    · exact ⟨h.settledOnce, h.issued, h.honest⟩
    · exact h
  | bootstrapDone edits => exact promises_bootstrapDone yjs h id edits
  | superseded => exact ⟨h.settledOnce, h.issued, h.honest⟩
  | resyncRequired =>
    have hclosing : SamePromises b (b.closeSocket id) := ⟨rfl, rfl, rfl, Nat.le_refl _⟩
    exact h.of_same (hclosing.trans (samePromises_startReconnectCountdown _ none))

theorem step_promises (h : Promises b) (action : Action State) :
    Promises (step yjs b action) := by
  cases action with
  | opened id =>
    simp only [step]
    split
    · split
      · exact ⟨h.settledOnce, h.issued, h.honest⟩
      · exact ⟨h.settledOnce, h.issued, h.honest⟩
    · exact h
  | message id message =>
    simp only [step]
    split
    · split
      · exact h
      · exact promises_onMessage yjs h id message
    · exact h
  | closing id =>
    simp only [step]
    split
    · exact ⟨h.settledOnce, h.issued, h.honest⟩
    · exact h
  | closed id closeCode =>
    have hclosed : Promises (setReadyState b id .closed) := ⟨h.settledOnce, h.issued, h.honest⟩
    simp only [step]
    split
    · unfold Binding.handleDisconnect
      split
      · exact hclosed
      · exact (promises_settlePending hclosed .disconnect).of_same
          (samePromises_startReconnectCountdown _ _)
    · exact h
  | snapshotDebounced => exact promises_snapshotDebounced yjs h
  | snapshotTimeout requestId => exact promises_snapshotTimeout h requestId
  | reconnectAttempt =>
    simp only [step]
    split
    · have hstopped : SamePromises b b.stopReconnectCountdown := ⟨rfl, rfl, rfl, Nat.le_refl _⟩
      exact h.of_same (hstopped.trans (samePromises_connect _))
    · exact h
  | edit change => exact h.of_same (samePromises_editLocally yjs b change)
  | sendSyncSnapshot => exact promises_sendSyncSnapshot yjs h
  | reconnectNow => exact h.of_same (samePromises_reconnectNow b)
  | close => exact promises_close h

end Document

/-! ## The local changes -/

/-- The socket that the binding listens to. -/
def Binding.current (b : Binding State) : Option Socket :=
  b.ws.bind fun id => b.sockets[id]?

theorem Binding.current_of_ws {b : Binding State} {id : SocketId} (h : b.ws = some id) :
    b.current = b.sockets[id]? := by
  rw [Binding.current, h]
  rfl

theorem Binding.isOpen_iff {b : Binding State} {id : SocketId} (h : b.ws = some id) :
    b.isOpen id = true ↔ ∃ socket, b.current = some socket ∧ socket.readyState = .opened := by
  rw [b.current_of_ws h, Binding.isOpen, Option.any_eq_true]
  simp only [decide_eq_true_eq]

theorem hasReadyState_iff {b : Binding State} {id : SocketId} {readyStates : List ReadyState} :
    hasReadyState b id readyStates = true ↔
      ∃ socket, b.sockets[id]? = some socket ∧ socket.readyState ∈ readyStates := by
  rw [hasReadyState, Option.any_eq_true]
  simp only [decide_eq_true_eq]

variable {f : Socket → Socket} {socket : Socket}

/-- The current socket after it was changed. -/
theorem current_modify_ws {b b' : Binding State} {id : SocketId} (h : b'.current = some socket)
    (hws' : b'.ws = some id) (hws : b.ws = some id)
    (hsockets : b'.sockets = b.sockets.modify id f) :
    ∃ old, b.current = some old ∧ f old = socket := by
  rw [Binding.current_of_ws hws', hsockets] at h
  rw [b.current_of_ws hws]
  simpa only [List.getElem?_modify, if_true, Option.map_eq_map, Option.map_eq_some_iff] using h

/-- The socket that a binding listens to, before and after its sockets are changed at
one place. -/
theorem current_modify {b b' : Binding State} {id : SocketId} (h : b'.current = some socket)
    (hws : b'.ws = b.ws) (hsockets : b'.sockets = b.sockets.modify id f) :
    ∃ old, b.current = some old ∧ ((socket = f old ∧ b.ws = some id) ∨ socket = old) := by
  unfold Binding.current at h ⊢
  rw [hws] at h
  cases hcurrent : b.ws with
  | none => simp [hcurrent] at h
  | some ws =>
    rw [hcurrent, hsockets] at h
    simp only [Option.bind_some, List.getElem?_modify, Option.map_eq_map,
      Option.map_eq_some_iff] at h ⊢
    rcases h with ⟨old, hold, heq⟩
    refine ⟨old, hold, ?_⟩
    split at heq
    · next hid => exact .inl ⟨heq.symm, by rw [hid]⟩
    · exact .inr heq.symm

/-- A change is sent on the current socket if that is open and has finished its
bootstrap. -/
theorem onLocalUpdate_cases (b : Binding State) (update : Bytes) :
    (∃ id, b.ws = some id
      ∧ b.onLocalUpdate update
        = { b with snapshotTimer := true, requestSequence := b.requestSequence + 1 }.send id
            (.update (b.requestSequence + 1) update))
    ∨ ((b.closed = false → b.bootstrapComplete = true → ∀ id, b.ws = some id →
          b.isOpen id = false)
      ∧ b.onLocalUpdate update = { b with snapshotTimer := true }) := by
  cases hclosed : b.closed with
  | true =>
    right
    refine ⟨by simp, ?_⟩
    simp [Binding.onLocalUpdate, hclosed]
  | false =>
    cases hcomplete : b.bootstrapComplete with
    | false =>
      right
      refine ⟨by simp, ?_⟩
      simp [Binding.onLocalUpdate, hcomplete, hclosed]
    | true =>
      cases hws : b.ws with
      | none =>
        right
        refine ⟨by simp, ?_⟩
        simp [Binding.onLocalUpdate, hcomplete, hclosed, hws]
      | some id =>
        by_cases hopen : b.isOpen id = true
        · left
          refine ⟨id, rfl, ?_⟩
          simp only [Binding.onLocalUpdate, hcomplete, hclosed, hws, Bool.not_true, Bool.or_self,
            Bool.false_eq_true, if_false]
          exact if_pos hopen
        · right
          refine ⟨?_, ?_⟩
          · intro _ _ other hother
            cases hother
            exact Bool.eq_false_iff.mpr hopen
          · simp only [Binding.onLocalUpdate, hcomplete, hclosed, hws, Bool.not_true,
              Bool.or_self, Bool.false_eq_true, if_false]
            exact if_neg hopen

section Delivery

variable (yjs : YjsLibrary State) [SemilatticeSup State]

variable {change : State} {b : Binding State} {id : SocketId}

theorem Socket.Carries.append (h : socket.Carries yjs change) (message : ClientMessage) :
    Socket.Carries yjs { socket with sent := socket.sent ++ [message] } change := by
  rcases h with ⟨requestId, state, hfirst, hle⟩ | ⟨requestId, hsent⟩
  · left
    refine ⟨requestId, state, ?_, hle⟩
    rw [List.find?_append, hfirst]
    rfl
  · exact .inr ⟨requestId, List.mem_append_left _ hsent⟩

/-- What holds at every point of the handling of an event. -/
structure Sound (b : Binding State) : Prop where
  known : ∀ change ∈ b.localChanges, change ≤ b.ydoc
  begun : b.bootstrapComplete = true → ∀ socket, b.current = some socket →
    socket.readyState ≠ .connecting
  shut : b.closed = true → ∀ socket, b.current = some socket →
    socket.readyState = .closing ∨ socket.readyState = .closed
  listens : b.listening = false → b.ws = none ∧ b.closed = true

/-- No snapshot has been sent on the current socket. -/
def Bare (b : Binding State) : Prop :=
  ∀ socket, b.current = some socket → ∀ message ∈ socket.sent, message.isSync = false

/-- The local changes are on the current socket. -/
def OnSocket (b : Binding State) : Prop :=
  ∀ socket, b.current = some socket → socket.readyState = .opened →
    ∀ change ∈ b.localChanges, socket.Carries yjs change

structure Delivery (b : Binding State) : Prop where
  sound : Sound b
  bare : b.bootstrapComplete = false → Bare b
  delivered : b.canWrite = true → b.bootstrapComplete = true → OnSocket yjs b

theorem Delivery.toDelivered (h : Delivery yjs b) : Delivered yjs b := by
  intro id socket hwrite hws hsocket hopened hcomplete
  have hcurrent : b.current = some socket := (b.current_of_ws hws).trans hsocket
  exact h.delivered hwrite hcomplete socket hcurrent hopened

/-- An open socket of a binding: it is neither closed nor disposed of. -/
theorem Sound.live (h : Sound b) (hws : b.ws = some id)
    (hopen : b.isOpen id = true) : b.closed = false ∧ b.listening = true := by
  rcases (Binding.isOpen_iff hws).mp hopen with ⟨socket, hcurrent, hopened⟩
  constructor
  · cases hclosed : b.closed with
    | false => rfl
    | true =>
      rcases h.shut hclosed socket hcurrent with hstate | hstate
      · simp [hopened] at hstate
      · simp [hopened] at hstate
  · cases hlistening : b.listening with
    | true => rfl
    | false =>
      rw [(h.listens hlistening).1] at hws
      simp at hws

/-! ### Edits -/

/-- What a local edit does to the binding. -/
structure Edited (b b' : Binding State) (change : State) : Prop where
  canWrite : b'.canWrite = b.canWrite
  ws : b'.ws = b.ws
  closed : b'.closed = b.closed
  bootstrapComplete : b'.bootstrapComplete = b.bootstrapComplete
  listening : b'.listening = b.listening
  ydoc : b'.ydoc = b.ydoc ⊔ change
  localChanges : b'.localChanges = b.localChanges ++ [change]
  current : ∀ socket', b'.current = some socket' → ∃ socket, b.current = some socket
    ∧ socket'.readyState = socket.readyState
    ∧ ((∃ requestId, socket'.sent = socket.sent ++ [.update requestId (yjs.encode change)])
      ∨ (socket'.sent = socket.sent
        ∧ (b.closed = false → b.listening = true → b.bootstrapComplete = true →
            socket.readyState ≠ .opened)))

theorem edited_editLocally (b : Binding State) (change : State) :
    Edited yjs b (b.editLocally yjs change) change := by
  cases hlistening : b.listening with
  | false =>
    have heq : b.editLocally yjs change
        = { b with ydoc := b.ydoc ⊔ change, localChanges := b.localChanges ++ [change] } := by
      simp [Binding.editLocally, hlistening]
    rw [heq]
    refine ⟨rfl, rfl, rfl, rfl, rfl, rfl, rfl, ?_⟩
    intro socket' hcurrent
    exact ⟨socket', hcurrent, rfl, .inr ⟨rfl, by simp [hlistening]⟩⟩
  | true =>
    have heq : b.editLocally yjs change
        = { b with ydoc := b.ydoc ⊔ change, localChanges := b.localChanges ++ [change] }.onLocalUpdate
            (yjs.encode change) := by
      simp [Binding.editLocally, hlistening]
    rw [heq]
    rcases onLocalUpdate_cases
        { b with ydoc := b.ydoc ⊔ change, localChanges := b.localChanges ++ [change] }
        (yjs.encode change) with ⟨id, hws, hsent⟩ | ⟨hshut, hkept⟩
    · rw [hsent]
      refine ⟨rfl, rfl, rfl, rfl, rfl, rfl, rfl, ?_⟩
      intro socket' hcurrent
      rcases current_modify_ws hcurrent hws hws rfl with ⟨socket, hsocket, hmessage⟩
      rw [← hmessage]
      exact ⟨socket, hsocket, rfl, .inl ⟨b.requestSequence + 1, rfl⟩⟩
    · rw [hkept]
      refine ⟨rfl, rfl, rfl, rfl, rfl, rfl, rfl, ?_⟩
      intro socket' hcurrent
      refine ⟨socket', hcurrent, rfl, .inr ⟨rfl, ?_⟩⟩
      intro hclosed _ hcomplete hopened
      rcases Option.bind_eq_some_iff.mp hcurrent with ⟨id, hws, _⟩
      have hopen : b.isOpen id = true :=
        (Binding.isOpen_iff hws).mpr ⟨socket', hcurrent, hopened⟩
      exact absurd hopen (Bool.eq_false_iff.mp (hshut hclosed hcomplete id hws))

theorem Edited.sound {b b' : Binding State} (h : Edited yjs b b' change)
    (hsound : Sound b) : Sound b' where
  known := by
    intro other hother
    rw [h.localChanges] at hother
    rw [h.ydoc]
    rcases List.mem_append.mp hother with hold | hnew
    · exact (hsound.known other hold).trans le_sup_left
    · rw [List.mem_singleton.mp hnew]
      exact le_sup_right
  begun := by
    intro hcomplete socket' hcurrent
    rw [h.bootstrapComplete] at hcomplete
    rcases h.current socket' hcurrent with ⟨socket, hsocket, hstate, _⟩
    rw [hstate]
    exact hsound.begun hcomplete socket hsocket
  shut := by
    intro hclosed socket' hcurrent
    rw [h.closed] at hclosed
    rcases h.current socket' hcurrent with ⟨socket, hsocket, hstate, _⟩
    rw [hstate]
    exact hsound.shut hclosed socket hsocket
  listens := by
    rw [h.listening, h.ws, h.closed]
    exact hsound.listens

theorem Edited.bare {b b' : Binding State} (h : Edited yjs b b' change)
    (hbare : Bare b) : Bare b' := by
  intro socket' hcurrent message hmessage
  rcases h.current socket' hcurrent with ⟨socket, hsocket, _, ⟨requestId, hsent⟩ | ⟨hsent, _⟩⟩
  · rw [hsent] at hmessage
    rcases List.mem_append.mp hmessage with hold | hnew
    · exact hbare socket hsocket message hold
    · rw [List.mem_singleton.mp hnew]
      rfl
  · rw [hsent] at hmessage
    exact hbare socket hsocket message hmessage

theorem Edited.onSocket {b b' : Binding State} (h : Edited yjs b b' change)
    (hsound : Sound b) (hcomplete : b.bootstrapComplete = true) (honSocket : OnSocket yjs b) :
    OnSocket yjs b' := by
  intro socket' hcurrent hopened other hother
  rcases h.current socket' hcurrent with ⟨socket, hsocket, hstate, hsent⟩
  rw [hstate] at hopened
  rcases Option.bind_eq_some_iff.mp hsocket with ⟨id, hws, _⟩
  have hlive := hsound.live hws ((Binding.isOpen_iff hws).mpr ⟨socket, hsocket, hopened⟩)
  rcases hsent with ⟨requestId, hsent⟩ | ⟨_, hquiet⟩
  · rw [h.localChanges] at hother
    rcases List.mem_append.mp hother with hold | hnew
    · have hcarries := (honSocket socket hsocket hopened other hold).append yjs
        (.update requestId (yjs.encode change))
      unfold Socket.Carries at hcarries ⊢
      rw [hsent]
      exact hcarries
    · rw [List.mem_singleton.mp hnew]
      right
      exact ⟨requestId, by rw [hsent]; simp⟩
  · exact absurd hopened (hquiet hlive.1 hlive.2 hcomplete)

theorem delivery_editLocally (h : Delivery yjs b) (change : State) :
    Delivery yjs (b.editLocally yjs change) := by
  have hedited := edited_editLocally yjs b change
  refine ⟨hedited.sound yjs h.sound, ?_, ?_⟩
  · intro hcomplete
    rw [hedited.bootstrapComplete] at hcomplete
    exact hedited.bare yjs (h.bare hcomplete)
  · intro hwrite hcomplete
    rw [hedited.canWrite] at hwrite
    rw [hedited.bootstrapComplete] at hcomplete
    exact hedited.onSocket yjs h.sound hcomplete (h.delivered hwrite hcomplete)

/-- Edits during the bootstrap of a socket send no snapshot. -/
theorem bare_edits (hsound : Sound b) (hbare : Bare b) (edits : List State) :
    Sound (edits.foldl (Binding.editLocally yjs) b) ∧ Bare (edits.foldl (Binding.editLocally yjs) b)
      ∧ (edits.foldl (Binding.editLocally yjs) b).ws = b.ws
      ∧ (edits.foldl (Binding.editLocally yjs) b).bootstrapComplete = b.bootstrapComplete := by
  induction edits generalizing b with
  | nil => exact ⟨hsound, hbare, rfl, rfl⟩
  | cons change edits ih =>
    have hedited := edited_editLocally yjs b change
    rcases ih (hedited.sound yjs hsound) (hedited.bare yjs hbare) with
      ⟨hsound', hbare', hws, hcomplete⟩
    exact ⟨hsound', hbare', hws.trans hedited.ws, hcomplete.trans hedited.bootstrapComplete⟩

/-! ### Snapshots -/

theorem sound_send (h : Sound b) (hws : b.ws = some id)
    (message : ClientMessage) : Sound (b.send id message) where
  known := h.known
  begun := by
    intro hcomplete socket' hcurrent
    rcases current_modify_ws hcurrent hws hws rfl with ⟨socket, hsocket, hmessage⟩
    rw [← hmessage]
    exact h.begun hcomplete socket hsocket
  shut := by
    intro hclosed socket' hcurrent
    rcases current_modify_ws hcurrent hws hws rfl with ⟨socket, hsocket, hmessage⟩
    rw [← hmessage]
    exact h.shut hclosed socket hsocket
  listens := h.listens

/-- The snapshot that ends a bootstrap carries every local change. -/
theorem delivery_firstSnapshot (hsound : Sound b) (hbare : Bare b)
    (hws : b.ws = some id) (hcomplete : b.bootstrapComplete = true) :
    Delivery yjs (b.sendSnapshotTo yjs id) := by
  unfold Binding.sendSnapshotTo
  split
  · next hidle =>
    refine ⟨hsound, fun _ => hbare, ?_⟩
    intro hwrite _ socket hcurrent hopened
    have hopen := (Binding.isOpen_iff hws).mpr ⟨socket, hcurrent, hopened⟩
    simp [hwrite, hopen] at hidle
  · have hregistered : Sound
        { b with
          requestSequence := b.requestSequence + 1
          pendingSnapshots := b.pendingSnapshots
            ++ [{ requestId := b.requestSequence + 1, content := yjs.getString b.ydoc }]
          promises := b.promises ++ [b.requestSequence + 1] } :=
      ⟨hsound.known, hsound.begun, hsound.shut, hsound.listens⟩
    refine ⟨sound_send hregistered hws _, ?_, ?_⟩
    · intro hincomplete
      have : b.bootstrapComplete = false := hincomplete
      rw [hcomplete] at this
      simp at this
    · intro _ _ socket' hcurrent _ change hchange
      rcases current_modify_ws hcurrent hws hws rfl with ⟨socket, hsocket, hmessage⟩
      rw [← hmessage]
      left
      refine ⟨b.requestSequence + 1, b.ydoc, ?_, hsound.known change hchange⟩
      have hnone : socket.sent.find? ClientMessage.isSync = none := by
        rw [List.find?_eq_none]
        intro message hmessage
        simp [hbare socket hsocket message hmessage]
      rw [List.find?_append, hnone]
      rfl

/-- A later snapshot leaves what the socket carries alone. -/
theorem delivery_sendSnapshotTo (h : Delivery yjs b)
    (hws : b.ws = some id) (hcomplete : b.bootstrapComplete = true) :
    Delivery yjs (b.sendSnapshotTo yjs id) := by
  unfold Binding.sendSnapshotTo
  split
  · exact h
  have hregistered : Sound
      { b with
        requestSequence := b.requestSequence + 1
        pendingSnapshots := b.pendingSnapshots
          ++ [{ requestId := b.requestSequence + 1, content := yjs.getString b.ydoc }]
        promises := b.promises ++ [b.requestSequence + 1] } :=
    ⟨h.sound.known, h.sound.begun, h.sound.shut, h.sound.listens⟩
  refine ⟨sound_send hregistered hws _, ?_, ?_⟩
  · intro hincomplete
    have : b.bootstrapComplete = false := hincomplete
    rw [hcomplete] at this
    simp at this
  · intro hwrite _ socket' hcurrent hopened change hchange
    rcases current_modify_ws hcurrent hws hws rfl with ⟨socket, hsocket, hmessage⟩
    rw [← hmessage] at hopened ⊢
    exact (h.delivered hwrite hcomplete socket hsocket hopened change hchange).append yjs _

/-! ### Sockets -/

/-- What the handling of an event leaves alone apart from the sockets. -/
structure SameDocument (b b' : Binding State) : Prop where
  canWrite : b'.canWrite = b.canWrite
  ydoc : b.ydoc ≤ b'.ydoc
  localChanges : b'.localChanges = b.localChanges
  listening : b'.listening = b.listening

/-- The sockets and the state of the bootstrap are left alone. -/
theorem Delivery.of_same {b b' : Binding State} (h : Delivery yjs b) (hsame : SameDocument b b')
    (hws : b'.ws = b.ws) (hsockets : b'.sockets = b.sockets)
    (hcomplete : b'.bootstrapComplete = b.bootstrapComplete) (hclosed : b'.closed = b.closed) :
    Delivery yjs b' := by
  have hcurrent : b'.current = b.current := by
    rw [Binding.current, Binding.current, hws, hsockets]
  refine ⟨⟨?_, ?_, ?_, ?_⟩, ?_, ?_⟩
  · intro change hchange
    rw [hsame.localChanges] at hchange
    exact (h.sound.known change hchange).trans hsame.ydoc
  · rw [hcomplete, hcurrent]
    exact h.sound.begun
  · rw [hclosed, hcurrent]
    exact h.sound.shut
  · rw [hsame.listening, hws, hclosed]
    exact h.sound.listens
  · rw [hcomplete, Bare, hcurrent]
    exact h.bare
  · rw [hsame.canWrite, hcomplete, OnSocket, hcurrent, hsame.localChanges]
    exact h.delivered

/-- A socket closes; the binding may close with its own. -/
theorem Delivery.shuts {b b' : Binding State} (h : Delivery yjs b) (hsame : SameDocument b b')
    (hws : b'.ws = b.ws) (hsockets : b'.sockets = b.sockets.modify id f)
    (hcomplete : b'.bootstrapComplete = b.bootstrapComplete)
    (hsent : ∀ socket, (f socket).sent = socket.sent)
    (hstate : ∀ socket, (f socket).readyState = .closing ∨ (f socket).readyState = .closed)
    (hclosed : b'.closed = b.closed ∨ (b'.closed = true ∧ b.ws = some id)) : Delivery yjs b' := by
  -- a socket that is not closing is the one it was, and not the one that closes
  have hkept : ∀ socket, b'.current = some socket →
      (socket.readyState = .closing ∨ socket.readyState = .closed)
        ∨ (b.current = some socket ∧ b.ws ≠ some id) := by
    intro socket hcurrent
    rcases current_modify hcurrent hws hsockets with ⟨old, hold, ⟨heq, _⟩ | heq⟩
    · rw [heq]
      exact .inl (hstate old)
    by_cases hid : b.ws = some id
    · rcases current_modify_ws hcurrent (hws.trans hid) hid hsockets with ⟨other, _, hset⟩
      rw [← hset]
      exact .inl (hstate other)
    · rw [heq]
      exact .inr ⟨hold, hid⟩
  refine ⟨⟨?_, ?_, ?_, ?_⟩, ?_, ?_⟩
  · intro change hchange
    rw [hsame.localChanges] at hchange
    exact (h.sound.known change hchange).trans hsame.ydoc
  · intro hdone socket hcurrent
    rw [hcomplete] at hdone
    rcases hkept socket hcurrent with (hshut | hshut) | ⟨hold, _⟩
    · simp [hshut]
    · simp [hshut]
    · exact h.sound.begun hdone socket hold
  · intro hisClosed socket hcurrent
    rcases hkept socket hcurrent with hshut | ⟨hold, hother⟩
    · exact hshut
    · rcases hclosed with hsameClosed | ⟨_, hown⟩
      · exact h.sound.shut (hsameClosed.symm.trans hisClosed) socket hold
      · exact absurd hown hother
  · intro hlistening
    rw [hsame.listening] at hlistening
    rcases h.sound.listens hlistening with ⟨hnone, hisClosed⟩
    refine ⟨hws.trans hnone, ?_⟩
    rcases hclosed with hsameClosed | ⟨hnew, _⟩
    · exact hsameClosed.trans hisClosed
    · exact hnew
  · intro hincomplete socket hcurrent message hmessage
    rw [hcomplete] at hincomplete
    rcases current_modify hcurrent hws hsockets with ⟨old, hold, ⟨heq, _⟩ | heq⟩
    · rw [heq, hsent] at hmessage
      exact h.bare hincomplete old hold message hmessage
    · rw [heq] at hmessage
      exact h.bare hincomplete old hold message hmessage
  · intro hwrite hdone socket hcurrent hopened change hchange
    rw [hsame.canWrite] at hwrite
    rw [hcomplete] at hdone
    rw [hsame.localChanges] at hchange
    rcases hkept socket hcurrent with (hshut | hshut) | ⟨hold, _⟩
    · simp [hopened] at hshut
    · simp [hopened] at hshut
    · exact h.delivered hwrite hdone socket hold hopened change hchange

theorem delivery_closeSocket (h : Delivery yjs b) (id : SocketId) :
    Delivery yjs (b.closeSocket id) := by
  refine h.shuts yjs ⟨rfl, le_rfl, rfl, rfl⟩ rfl rfl rfl ?_ ?_ (.inl rfl)
  · intro socket
    split <;> rfl
  · intro socket
    split
    · exact .inl rfl
    · exact .inl rfl
    · next hstate => exact .inl hstate
    · next hstate => exact .inr hstate

/-- A socket that was connecting opens: its bootstrap is still to come. -/
theorem delivery_opened (h : Delivery yjs b)
    (hconnecting : hasReadyState b id [.connecting] = true) :
    Delivery yjs (setReadyState b id .opened) := by
  rcases hasReadyState_iff.mp hconnecting with ⟨opening, hopening, hstate⟩
  rw [List.mem_singleton] at hstate
  -- the current socket, unless it is this one, is the one it was
  have hkept : ∀ socket, (setReadyState b id .opened).current = some socket →
      (b.current = some opening ∧ socket.sent = opening.sent) ∨ b.current = some socket := by
    intro socket hcurrent
    have hws' : (setReadyState b id .opened).ws = b.ws := rfl
    rcases current_modify hcurrent hws' rfl with ⟨old, hold, ⟨heq, hws⟩ | heq⟩
    · rw [b.current_of_ws hws, hopening] at hold
      rw [heq, ← Option.some.inj hold]
      exact .inl ⟨(b.current_of_ws hws).trans hopening, rfl⟩
    · rw [heq]
      exact .inr hold
  refine ⟨⟨h.sound.known, ?_, ?_, h.sound.listens⟩, ?_, ?_⟩
  · intro hcomplete socket hcurrent
    rcases hkept socket hcurrent with ⟨hold, _⟩ | hold
    · exact absurd hstate (h.sound.begun hcomplete opening hold)
    · exact h.sound.begun hcomplete socket hold
  · intro hclosed socket hcurrent
    rcases hkept socket hcurrent with ⟨hold, _⟩ | hold
    · rcases h.sound.shut hclosed opening hold with hshut | hshut
      · simp [hstate] at hshut
      · simp [hstate] at hshut
    · exact h.sound.shut hclosed socket hold
  · intro hincomplete socket hcurrent message hmessage
    rcases hkept socket hcurrent with ⟨hold, hsent⟩ | hold
    · rw [hsent] at hmessage
      exact h.bare hincomplete opening hold message hmessage
    · exact h.bare hincomplete socket hold message hmessage
  · intro hwrite hcomplete socket hcurrent hopened change hchange
    rcases hkept socket hcurrent with ⟨hold, _⟩ | hold
    · exact absurd hstate (h.sound.begun hcomplete opening hold)
    · exact h.delivered hwrite hcomplete socket hold hopened change hchange

/-- A new socket has its bootstrap to come. -/
theorem delivery_connect (h : Delivery yjs b) : Delivery yjs b.connect := by
  unfold Binding.connect
  split
  · exact h
  rename_i hclosed
  have hcurrent : ∀ socket, Binding.current
      { b.stopReconnectCountdown with
        sockets := b.sockets ++ [{ readyState := .connecting, sent := [] }]
        ws := some b.sockets.length
        bootstrapComplete := false } = some socket → socket = ⟨.connecting, []⟩ := by
    intro socket hsocket
    rw [Binding.current_of_ws rfl] at hsocket
    simp only [List.getElem?_append_right (Nat.le_refl _), Nat.sub_self,
      List.getElem?_cons_zero, Option.some.injEq] at hsocket
    exact hsocket.symm
  refine ⟨⟨h.sound.known, by simp, ?_, ?_⟩, ?_, by simp⟩
  · intro hisClosed
    exact absurd hisClosed hclosed
  · intro hlistening
    exact absurd (h.sound.listens hlistening).2 hclosed
  · intro _ socket hsocket message hmessage
    rw [hcurrent socket hsocket] at hmessage
    simp at hmessage

theorem delivery_startReconnectCountdown (h : Delivery yjs b) (closeCode : Option Nat)
    (hshut : ∀ socket, b.current = some socket →
      closeCode.any isProtocolIncompatibleClose = true →
        socket.readyState = .closing ∨ socket.readyState = .closed) :
    Delivery yjs (b.startReconnectCountdown closeCode) := by
  unfold Binding.startReconnectCountdown
  split
  · exact h
  split
  · next hincompatible =>
    refine ⟨⟨h.sound.known, h.sound.begun, ?_, ?_⟩, h.bare, h.delivered⟩
    · intro _ socket hcurrent
      exact hshut socket hcurrent hincompatible
    · intro hlistening
      exact ⟨(h.sound.listens hlistening).1, rfl⟩
  · exact h.of_same yjs ⟨rfl, le_rfl, rfl, rfl⟩ rfl rfl rfl rfl

theorem delivery_bootstrapDone (h : Delivery yjs b)
    (hws : b.ws = some id) (hopened : b.isOpen id = true) (edits : List State) :
    Delivery yjs (b.bootstrapDone yjs id edits) := by
  unfold Binding.bootstrapDone
  split
  · exact h
  rename_i hincomplete
  have hbare : Bare b := h.bare (Bool.eq_false_iff.mpr hincomplete)
  have hbegun : Sound { b with bootstrapComplete := true } := by
    refine ⟨h.sound.known, ?_, h.sound.shut, h.sound.listens⟩
    intro _ socket hcurrent
    rcases (Binding.isOpen_iff hws).mp hopened with ⟨other, hother, hstate⟩
    have hsame : b.current = some socket := hcurrent
    rw [hother] at hsame
    rw [← Option.some.inj hsame, hstate]
    simp
  rcases bare_edits yjs hbegun hbare edits with ⟨hsound, hstill, hsocket, hcomplete⟩
  exact delivery_firstSnapshot yjs hsound hstill (hsocket.trans hws) hcomplete

theorem delivery_onMessage (h : Delivery yjs b)
    (hws : b.ws = some id) (hopened : b.isOpen id = true) (message : ServerMessage State) :
    Delivery yjs (onMessage yjs b id message) := by
  cases message with
  | ack requestId projected =>
    simp only [onMessage, Binding.acknowledge]
    split
    · exact h.of_same yjs ⟨rfl, le_rfl, rfl, rfl⟩ rfl rfl rfl rfl
    · exact h
  | yjs payload =>
    simp only [onMessage]
    split
    · next ydoc hmerged =>
      -- a remote update adds to the document
      have hle : b.ydoc ≤ ydoc := by
        cases hdecode : yjs.decode payload with
        | error error => simp [applyUpdate, hdecode] at hmerged
        | ok update =>
          simp only [applyUpdate, hdecode, Toss.Foundation.ok_bind, pure, Except.pure,
            Except.ok.injEq] at hmerged
          rw [← hmerged]
          exact le_sup_left
      exact h.of_same yjs ⟨rfl, hle, rfl, rfl⟩ rfl rfl rfl rfl
    · exact h
  | bootstrapDone edits => exact delivery_bootstrapDone yjs h hws hopened edits
  | superseded =>
    refine h.shuts yjs ⟨rfl, le_rfl, rfl, rfl⟩ rfl rfl rfl ?_ ?_ (.inr ⟨rfl, hws⟩)
    · intro socket
      split <;> rfl
    · intro socket
      split
      · exact .inl rfl
      · exact .inl rfl
      · next hstate => exact .inl hstate
      · next hstate => exact .inr hstate
  | resyncRequired =>
    exact delivery_startReconnectCountdown yjs (delivery_closeSocket yjs h id) none (by simp)

theorem delivery_handleDisconnect (h : Delivery yjs b) (closeCode : Nat) :
    Delivery yjs ((setReadyState b id .closed).handleDisconnect id closeCode) := by
  have hshut : Delivery yjs (setReadyState b id .closed) :=
    h.shuts yjs ⟨rfl, le_rfl, rfl, rfl⟩ rfl rfl rfl (fun _ => rfl) (fun _ => .inr rfl) (.inl rfl)
  unfold Binding.handleDisconnect
  split
  · exact hshut
  rename_i hlistened
  have hws : b.ws = some id := by
    by_contra hother
    have hother' : (setReadyState b id .closed).ws ≠ some id := hother
    simp [hother'] at hlistened
  have hsettled : Delivery yjs
      ((setReadyState b id .closed).settlePendingSnapshots false .disconnect) :=
    hshut.of_same yjs ⟨rfl, le_rfl, rfl, rfl⟩ rfl rfl rfl rfl
  refine delivery_startReconnectCountdown yjs hsettled _ ?_
  intro socket hcurrent _
  have hcurrent' : (setReadyState b id .closed).current = some socket := hcurrent
  rcases current_modify_ws hcurrent' hws hws rfl with ⟨old, _, heq⟩
  rw [← heq]
  exact .inr rfl

theorem delivery_close (h : Delivery yjs b) : Delivery yjs b.close := by
  have hydoc : b.close.ydoc = b.ydoc ∧ b.close.localChanges = b.localChanges
      ∧ b.close.closed = true := by
    unfold Binding.close
    simp only
    split
    · exact ⟨rfl, rfl, rfl⟩
    · exact ⟨rfl, rfl, rfl⟩
  have hcurrent : b.close.current = none := rfl
  refine ⟨⟨?_, ?_, ?_, ?_⟩, ?_, ?_⟩
  · rw [hydoc.1, hydoc.2.1]
    exact h.sound.known
  · simp [hcurrent]
  · simp [hcurrent]
  · intro _
    exact ⟨rfl, hydoc.2.2⟩
  · intro _ socket hsocket
    simp [hcurrent] at hsocket
  · intro _ _ socket hsocket
    simp [hcurrent] at hsocket

theorem delivery_snapshotDebounced (h : Delivery yjs b) :
    Delivery yjs (b.snapshotDebounced yjs) := by
  have hcleared : Delivery yjs b.clearSnapshotTimer :=
    h.of_same yjs ⟨rfl, le_rfl, rfl, rfl⟩ rfl rfl rfl rfl
  unfold Binding.snapshotDebounced
  split
  · exact h
  split
  · next id hws =>
    split
    · next hcomplete => exact delivery_sendSnapshotTo yjs hcleared hws hcomplete
    · exact hcleared
  · exact hcleared

theorem delivery_sendSyncSnapshot (h : Delivery yjs b) :
    Delivery yjs (b.sendSyncSnapshot yjs) := by
  have hcleared : Delivery yjs b.clearSnapshotTimer :=
    h.of_same yjs ⟨rfl, le_rfl, rfl, rfl⟩ rfl rfl rfl rfl
  unfold Binding.sendSyncSnapshot
  split
  · exact h
  rename_i hready
  split
  · next id hws =>
    split
    · have hcomplete : b.bootstrapComplete = true := by
        by_contra hnot
        simp [hnot] at hready
      exact delivery_sendSnapshotTo yjs hcleared hws hcomplete
    · exact h
  · exact h

theorem delivery_reconnectNow (h : Delivery yjs b) :
    Delivery yjs b.reconnectNow := by
  unfold Binding.reconnectNow
  split
  · exact h
  split
  · exact delivery_connect yjs h
  · split
    · exact delivery_connect yjs h
    · exact h

theorem step_delivery (h : Delivery yjs b) (action : Action State) :
    Delivery yjs (step yjs b action) := by
  cases action with
  | opened id =>
    simp only [step]
    split
    · next hconnecting =>
      have hopened := delivery_opened yjs h hconnecting
      split
      · exact hopened
      · exact hopened.of_same yjs ⟨rfl, le_rfl, rfl, rfl⟩ rfl rfl rfl rfl
    · exact h
  | message id message =>
    simp only [step]
    split
    · next hopened =>
      split
      · exact h
      rename_i hlistened
      have hws : b.ws = some id := by
        by_contra hother
        simp [hother] at hlistened
      refine delivery_onMessage yjs h hws ?_ message
      rcases hasReadyState_iff.mp hopened with ⟨socket, hsocket, hstate⟩
      rw [List.mem_singleton] at hstate
      exact (Binding.isOpen_iff hws).mpr ⟨socket, (b.current_of_ws hws).trans hsocket, hstate⟩
    · exact h
  | closing id =>
    simp only [step]
    split
    · exact h.shuts yjs ⟨rfl, le_rfl, rfl, rfl⟩ rfl rfl rfl (fun _ => rfl) (fun _ => .inl rfl)
        (.inl rfl)
    · exact h
  | closed id closeCode =>
    simp only [step]
    split
    · exact delivery_handleDisconnect yjs h closeCode
    · exact h
  | snapshotDebounced => exact delivery_snapshotDebounced yjs h
  | snapshotTimeout requestId =>
    simp only [step, Binding.snapshotTimeout]
    split
    · exact h.of_same yjs ⟨rfl, le_rfl, rfl, rfl⟩ rfl rfl rfl rfl
    · exact h
  | reconnectAttempt =>
    simp only [step]
    split
    · exact delivery_connect yjs (h.of_same yjs ⟨rfl, le_rfl, rfl, rfl⟩ rfl rfl rfl rfl)
    · exact h
  | edit change => exact delivery_editLocally yjs h change
  | sendSyncSnapshot => exact delivery_sendSyncSnapshot yjs h
  | reconnectNow => exact delivery_reconnectNow yjs h
  | close => exact delivery_close yjs h

theorem delivery_bind (canWrite : Bool) (ydoc : State) : Delivery yjs (bind canWrite ydoc) := by
  refine delivery_connect yjs ⟨⟨?_, by simp, by simp, by simp⟩, ?_, by simp⟩
  · intro change hchange
    rw [List.mem_singleton.mp hchange]
  · intro _ socket hcurrent
    simp [Binding.current] at hcurrent

/-! ## Sequences of events -/

theorem after_delivery (canWrite : Bool) (ydoc : State) (actions : List (Action State)) :
    Delivery yjs (after yjs canWrite ydoc actions) ∧ Promises (after yjs canWrite ydoc actions) := by
  have hfold : ∀ (actions : List (Action State)) (b : Binding State),
      Delivery yjs b ∧ Promises b →
        Delivery yjs (actions.foldl (step yjs) b) ∧ Promises (actions.foldl (step yjs) b) := by
    intro actions
    induction actions with
    | nil =>
      intro b h
      exact h
    | cons action actions ih =>
      intro b h
      exact ih _ ⟨step_delivery yjs h.1 action, step_promises yjs h.2 action⟩
  exact hfold actions _ ⟨delivery_bind yjs canWrite ydoc, promises_bind canWrite ydoc⟩

theorem timeout_settles (b : Binding State) {pending : PendingSnapshot}
    (hpending : pending ∈ b.pendingSnapshots) :
    ∃ settlement ∈ (step yjs b (.snapshotTimeout pending.requestId)).settlements,
      settlement.requestId = pending.requestId := by
  have hany : (b.pendingSnapshots.any fun other => other.requestId = pending.requestId) = true :=
    List.any_eq_true.mpr ⟨pending, hpending, by simp⟩
  refine ⟨{ requestId := pending.requestId, acknowledged := false, settledBy := .timeout }, ?_,
    rfl⟩
  simp only [step, Binding.snapshotTimeout, hany, if_true]
  exact List.mem_append_right _ (List.mem_singleton.mpr rfl)

theorem close_settles (b : Binding State) : (step yjs b .close).pendingSnapshots = [] := by
  simp only [step, Binding.close]
  split
  · rfl
  · rfl

theorem disconnect_settles {closeCode : Nat} (hclosed : b.closed = false) (hws : b.ws = some id)
    (hcloses : hasReadyState b id [.connecting, .opened, .closing] = true) :
    (step yjs b (.closed id closeCode)).pendingSnapshots = [] := by
  have hlistened : ((setReadyState b id .closed).closed
      || decide ((setReadyState b id .closed).ws ≠ some id)) = false := by
    simp [setReadyState, hclosed, hws]
  simp only [step, hcloses, if_true, Binding.handleDisconnect, hlistened, Bool.false_eq_true,
    if_false]
  exact (samePromises_startReconnectCountdown _ _).pending

/-- After every sequence of events: writable, connected and with its bootstrap complete,
the binding has sent every local change on the current socket; every snapshot promise is
pending or settled once, as acknowledged only by an acknowledgement; and a pending one
is settled by its timeout, by the close of the current socket, or by `close`. -/
theorem binding_delivers (canWrite : Bool) (ydoc : State) (actions : List (Action State)) :
    Delivered yjs (after yjs canWrite ydoc actions)
    ∧ SettledOnce (after yjs canWrite ydoc actions)
    ∧ (∀ settlement ∈ (after yjs canWrite ydoc actions).settlements,
        settlement.acknowledged = true → settlement.settledBy = .acknowledgement)
    ∧ (∀ pending ∈ (after yjs canWrite ydoc actions).pendingSnapshots,
        ∃ settlement ∈ (step yjs (after yjs canWrite ydoc actions)
            (.snapshotTimeout pending.requestId)).settlements,
          settlement.requestId = pending.requestId)
    ∧ (∀ id closeCode, (after yjs canWrite ydoc actions).closed = false →
        (after yjs canWrite ydoc actions).ws = some id →
        hasReadyState (after yjs canWrite ydoc actions) id [.connecting, .opened, .closing] = true →
        (step yjs (after yjs canWrite ydoc actions)
          (.closed id closeCode)).pendingSnapshots = [])
    ∧ (step yjs (after yjs canWrite ydoc actions) .close).pendingSnapshots = [] := by
  have h := after_delivery yjs canWrite ydoc actions
  refine ⟨h.1.toDelivered yjs, h.2.settledOnce, h.2.honest, ?_, ?_, close_settles yjs _⟩
  · intro pending hpending
    exact timeout_settles yjs _ hpending
  · intro id closeCode hclosed hws hcloses
    exact disconnect_settles yjs hclosed hws hcloses

end Delivery

/-- A document library with nothing to write. -/
def blankPage : YjsLibrary Unit where
  decode _ := .ok ()
  encode _ := [0, 0]
  getString _ := []
  insertText _ := ()
  decode_encode _ := rfl

/-- The snapshot of a bootstrap is settled by its timeout: its socket is the current
one and open, no acknowledgement came, and the binding is not closed. -/
theorem unacknowledged_timesOut :
    let b := after blankPage true () [.opened 0, .message 0 (.bootstrapDone []), .snapshotTimeout 1]
    b.promises = [1]
      ∧ b.settlements = [{ requestId := 1, acknowledged := false, settledBy := .timeout }]
      ∧ b.ws = some 0 ∧ b.isOpen 0 = true ∧ b.closed = false := by
  decide

end Toss.Web.Realtime
