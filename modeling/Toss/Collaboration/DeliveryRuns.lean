import Toss.Collaboration.DeliveryProgress

/-!
# Delivery over whole behaviours of a room

* `state_inv` — the invariant holds as long as every step loses nothing;
* `noSilentMiss_iff` — no update is missed in a behaviour exactly when every step
  loses nothing;
* `delivered_of_fair` — then every accepted update is sent to every open socket;
* `Missed` — and an update that was lost is missed for ever.
-/

namespace Toss.Collaboration.Rooms

open Toss.Foundation

variable {b : Behaviour RoomStep}

/-- The step at the place `n`, if there is one, loses nothing. -/
def LosesNothingAt (b : Behaviour RoomStep) (n : Nat) : Prop :=
  ∀ action ∈ b.label n, LosesNothing (b.state n) action

theorem state_inv (hinit : b.state 0 = Room.empty) {n : Nat}
    (hguard : ∀ k, k < n → LosesNothingAt b k) : Inv (b.state n) ∧ Traffic (b.state n) := by
  have hstep : ∀ room action room', Inv room ∧ Traffic room → LosesNothing room action →
      RoomStep room action room' → Inv room' ∧ Traffic room' := by
    intro room action room' hinv hlosesNothing hstep
    exact ⟨step_inv hinv.1 hlosesNothing hstep, step_traffic hinv.1 hinv.2 hstep⟩
  have hempty : Inv (b.state 0) ∧ Traffic (b.state 0) := by
    rw [hinit]
    exact ⟨init_inv, init_traffic⟩
  exact Behaviour.invariant_of_guard hstep hempty hguard

/-- No state of a behaviour misses an update exactly when no step loses one. -/
theorem noSilentMiss_iff (hinit : b.state 0 = Room.empty) :
    (∀ n, (b.state n).NoSilentMiss) ↔ ∀ n, LosesNothingAt b n := by
  constructor
  · intro hdelivered n
    induction n using Nat.strong_induction_on with
    | _ n ih =>
      intro action hlabel
      have hinv := state_inv hinit ih
      exact (noSilentMiss_step_iff hinv.1 hinv.2 (b.step_of_label n action hlabel)).mp
        (hdelivered (n + 1))
  · intro hguard n
    exact (state_inv hinit fun k _ => hguard k).1.delivered

/-! ## Open sockets -/

variable {update : UpdateId} {socket : Socket}

/-- An open socket stays open with its bootstrap state until it is closed, and
accepted updates keep their authors. -/
theorem follows_later {n m : Nat} (hnm : n ≤ m) {id author : SocketId}
    (hsocket : (b.state n).socketAt id = some socket) (hfollowing : socket.isFollowing = true)
    (hauthor : (b.state n).authors[update]? = some author) :
    (b.state m).authors[update]? = some author
      ∧ ∃ socket', (b.state m).socketAt id = some socket'
        ∧ (socket'.isFollowing = true ∨ socket'.closed = true) := by
  induction m, hnm using Nat.le_induction with
  | base => exact ⟨hauthor, socket, hsocket, .inl hfollowing⟩
  | succ m _ ih =>
    rcases ih with ⟨hauthor, found, hfound, hopen⟩
    cases hlabel : b.label m with
    | none =>
      rw [b.rest_of_none m hlabel]
      exact ⟨hauthor, found, hfound, hopen⟩
    | some action =>
      have heffect := step_effect (b.step_of_label m action hlabel)
      rcases heffect.authors with ⟨later, hauthors⟩
      rcases heffect.evolves hfound with ⟨socket', hsocket', hevolves⟩
      refine ⟨?_, socket', hsocket', ?_⟩
      · rw [hauthors, List.getElem?_append_left (List.getElem?_eq_some_iff.mp hauthor).1]
        exact hauthor
      · rcases hopen with hfollowing | hclosed
        · exact hevolves.follows hfollowing
        · exact .inr (hevolves.stays hclosed)

/-- Where no step loses an update, every open socket with a bootstrap state is
sent every accepted update of the others in the end, or is closed. -/
theorem delivered_of_fair (hinv : ∀ n, Inv (b.state n)) {n : Nat} {id author : SocketId}
    (hsocket : (b.state n).socketAt id = some socket)
    (hfollowing : socket.isFollowing = true) (hne : id ≠ author)
    (hauthor : (b.state n).authors[update]? = some author)
    (hfair : FairSocket b id) (hfairAuthor : FairSocket b author) :
    ∃ m, n ≤ m ∧ Delivered (b.state m) id update := by
  -- the author's handler is done with the update at some place
  obtain ⟨m, hnm, hdone⟩ : ∃ m, n ≤ m ∧ ¬ (b.state m).IsPublishing author update := by
    by_cases hpublishing : (b.state n).IsPublishing author update
    · exact leadsTo_published (fun n => (hinv n).wired) hfairAuthor update n hpublishing
    · exact ⟨n, le_rfl, hpublishing⟩
  rcases follows_later hnm hsocket hfollowing hauthor with ⟨hauthor', found, hfound, hopen⟩
  rcases hopen with hfollowing' | hclosed
  · rcases (hinv m).sees_of_not_publishing hauthor' hfound hne hfollowing' hdone
      with hknown | ⟨i, event, hplace, hevent, hupdate⟩
    · exact ⟨m, hnm, found, hfound, .inl hknown⟩
    · -- the update waits in the channel
      have hwaits : Waits (b.state m) id update found (i - found.next) :=
        ⟨hfound, hfollowing', i, event, by omega, hevent, hupdate⟩
      rcases leadsTo_spawned hfair update _ m ⟨found, _, hwaits, rfl⟩
        with ⟨l, hml, hdelivered | ⟨spawned, distance, hwaits', hzero⟩⟩
      · exact ⟨l, hnm.trans hml, hdelivered⟩
      · rcases leadsTo_delivered (fun n => (hinv n).wired) hfair update distance l
          ⟨spawned, hwaits', hzero⟩ with ⟨j, hlj, hdelivered⟩
        exact ⟨j, (hnm.trans hml).trans hlj, hdelivered⟩
  · exact ⟨m, hnm, found, hfound, .inr hclosed⟩

/-! ## Lost updates -/

/-- The socket has its bootstrap state, the update is neither in what it was sent
nor on its way to it, and nobody will broadcast it. -/
structure Missed (room : Room) (id : SocketId) (update : UpdateId) (socket : Socket) : Prop where
  socketAt : room.socketAt id = some socket
  opened : socket.handler.isOpened = true
  unknown : update ∉ socket.known
  queue : ∀ command ∈ socket.commands, command.update ≠ some update
  channel : ∀ event ∈ (room.events socket.channel).drop socket.next, event.update ≠ some update
  accepted : update < room.authors.length
  unpublished : ∀ author, ¬ room.IsPublishing author update

/-- A missed update stays missed. -/
theorem Missed.persists {room room' : Room} {action : Action} {id : SocketId}
    (hmissed : Missed room id update socket) (hstep : step room action = some room') :
    ∃ socket', Missed room' id update socket' := by
  have heffect := step_effect hstep
  rcases heffect.evolves hmissed.socketAt with ⟨socket', hsocket', hevolves⟩
  rcases heffect.authors with ⟨later, hauthors⟩
  refine ⟨socket',
    { socketAt := hsocket', opened := hevolves.opened hmissed.opened, unknown := ?_,
      queue := ?_, channel := ?_, accepted := ?_, unpublished := ?_ }⟩
  · intro hknown
    rcases hevolves.learns hmissed.opened update hknown
      with hold | ⟨command, hmem, hupdate⟩ | ⟨event, hevent, hupdate⟩
    · exact hmissed.unknown hold
    · exact hmissed.queue command hmem hupdate
    · refine hmissed.channel event ?_ hupdate
      rw [List.mem_iff_getElem?]
      exact ⟨0, by simpa using hevent⟩
  · intro command hmem hupdate
    rcases hevolves.queued command hmem with hold | hnone
    · exact hmissed.queue command hold hupdate
    · simp [hnone] at hupdate
  · intro event hmem hupdate
    rcases heffect.events socket.channel with ⟨sent, hevents, hsent⟩
    rw [hevolves.channel, hevents, List.mem_iff_getElem?] at hmem
    rcases hmem with ⟨i, hi⟩
    rw [List.getElem?_drop, List.getElem?_append] at hi
    -- the cursor only moves on, so nothing older comes back
    have hnext : socket.next ≤ socket'.next := by
      rcases hevolves.place with h | ⟨h, -⟩ <;> omega
    split at hi
    · refine hmissed.channel event ?_ hupdate
      rw [List.mem_iff_getElem?]
      refine ⟨socket'.next + i - socket.next, ?_⟩
      rw [List.getElem?_drop]
      have hplace : socket.next + (socket'.next + i - socket.next) = socket'.next + i := by omega
      rw [hplace]
      exact hi
    · rcases (hsent event (List.mem_of_getElem? hi) update hupdate).isPublishing
        with ⟨author, hpublishing, -⟩
      exact hmissed.unpublished author hpublishing
  · rw [hauthors, List.length_append]
    exact Nat.lt_add_right _ hmissed.accepted
  · intro author hpublishing
    rcases heffect.publishing hpublishing with hbefore | hnew
    · exact hmissed.unpublished author hbefore
    · exact absurd hnew (Nat.ne_of_lt hmissed.accepted)

/-- The client of a socket that misses an update is not sent it in any run. -/
theorem Missed.of_run {room room' : Room} {actions : List Action} {id : SocketId}
    (hmissed : Missed room id update socket)
    (hrun : Run RoomStep room actions room') : ∃ socket', Missed room' id update socket' := by
  have hpersists : ∀ room action room', (∃ socket, Missed room id update socket) →
      RoomStep room action room' → ∃ socket, Missed room' id update socket := by
    intro room action room' hmissed hstep
    rcases hmissed with ⟨socket, hmissed⟩
    exact hmissed.persists hstep
  exact hrun.invariant hpersists ⟨socket, hmissed⟩

/-! ## The delivery of accepted updates -/

/-- The steps by which a socket comes to wait for messages. -/
def opening (id : SocketId) : List Action :=
  [.subscribe, .revalidate id true, .loadBootstrap id true, .sendBootstrap id true, .join id]

/-- The forwarder of socket 0 ends before the acknowledgement of its update. -/
def lostAcknowledgement : List Action :=
  opening 0 ++ opening 1 ++
    [.forwardRoomEvent 0 false, .persist 0 .update, .acknowledge 0, .leave 0, .finishForwarder 0,
     .removeIfIdle 0, .forwardRoomEvent 1 true, .forwardRoomEvent 1 true]

/-- Socket 1 as the lost acknowledgement leaves it: it waits for events. -/
def bystander : Socket where
  channel := 0
  next := 3
  handler := .serving
  forwarder := .running
  commands := []
  known := []
  closed := false

/-- The author is gone and its update accepted, and socket 1 stays open without it
whatever happens later. -/
theorem lostAcknowledgement_missed :
    ∃ room, exec step Room.empty lostAcknowledgement = some room
      ∧ room.authors[0]? = some 0
      ∧ (∃ socket, room.socketAt 0 = some socket ∧ socket.handler = .gone)
      ∧ (room.socketAt 1 = some bystander ∧ bystander.isFollowing = true)
      ∧ ¬ room.NoSilentMiss
      ∧ ∀ later room', exec step room later = some room' →
        ∀ socket, room'.socketAt 1 = some socket → 0 ∉ socket.known := by
  rcases hexec : exec step Room.empty lostAcknowledgement with _ | room
  · exact absurd hexec (by decide +kernel)
  have hroom : room = ((exec step Room.empty lostAcknowledgement).getD Room.empty) := by
    rw [hexec]
    rfl
  have hquiet : ∀ socket ∈ room.sockets, socket.handler.isPublishing 0 = false := by
    rw [hroom]
    decide +kernel
  have hmissed : Missed room 1 0 bystander :=
    { socketAt := by rw [hroom]; decide +kernel
      opened := rfl
      unknown := by decide
      queue := by decide
      channel := by rw [hroom]; decide +kernel
      accepted := by rw [hroom]; decide +kernel
      unpublished := by
        intro author hpublishing
        rcases hpublishing with ⟨socket, hsocket, hpublishing⟩
        rw [hquiet socket (List.mem_of_getElem? hsocket)] at hpublishing
        simp at hpublishing }
  have hauthor : room.authors[0]? = some 0 := by
    rw [hroom]
    decide +kernel
  refine ⟨room, rfl, hauthor, ?_, ⟨hmissed.socketAt, rfl⟩, ?_, ?_⟩
  · rw [hroom]
    exact ⟨_, rfl, by decide +kernel⟩
  · intro hdelivered
    rcases hdelivered 0 0 hauthor 1 bystander hmissed.socketAt (by decide) rfl
      with hknown | hpublishing
    · rcases hknown with hknown | ⟨i, event, hplace, hevent, hupdate⟩
      · exact hmissed.unknown hknown
      · refine hmissed.channel event ?_ hupdate
        rw [List.mem_iff_getElem?]
        refine ⟨i - bystander.next, ?_⟩
        rw [List.getElem?_drop, Nat.add_sub_cancel' hplace]
        exact hevent
    · exact hmissed.unpublished 0 hpublishing
  · intro later room' hlater socket hsocket
    rcases hmissed.of_run (exec_run hlater) with ⟨socket', hmissed'⟩
    obtain rfl : socket' = socket := Option.some.inj (hmissed'.socketAt.symm.trans hsocket)
    exact hmissed'.unknown

/-- In a behaviour of a room no open socket silently misses an accepted update
exactly when every failed acknowledgement is of an update that the others have;
and then fair handlers and forwarders send every accepted update to every open
socket, or close it. -/
theorem accepted_updates_reach_open_sockets (b : Behaviour RoomStep)
    (hinit : b.state 0 = Room.empty) :
    ((∀ n, (b.state n).NoSilentMiss) ↔ ∀ n, LosesNothingAt b n)
      ∧ ((∀ n, LosesNothingAt b n) →
        ∀ n id author update socket, (b.state n).authors[update]? = some author →
          (b.state n).socketAt id = some socket → id ≠ author → socket.isFollowing = true →
            FairSocket b id → FairSocket b author →
              ∃ m, n ≤ m ∧ Delivered (b.state m) id update) := by
  refine ⟨noSilentMiss_iff hinit, ?_⟩
  intro hguard n id author update socket hauthor hsocket hne hfollowing hfair hfairAuthor
  have hinv : ∀ n, Inv (b.state n) := fun n => (state_inv hinit fun k _ => hguard k).1
  exact delivered_of_fair hinv hsocket hfollowing hne hauthor hfair hfairAuthor

/-- Socket 0 sends an update and both sockets take what is in the channel. -/
def delivery : List Action :=
  opening 0 ++ opening 1 ++
    [.persist 0 .update, .acknowledge 0, .broadcast 0, .forwardCommand 0 true,
     .forwardRoomEvent 0 true, .forwardRoomEvent 0 true, .forwardRoomEvent 0 true,
     .forwardRoomEvent 1 true, .forwardRoomEvent 1 true]

def deliveryRun : Behaviour RoomStep :=
  .ofExec step Room.empty delivery (by decide +kernel)

theorem deliveryRun_delivered :
    (∀ n, (deliveryRun.state n).NoSilentMiss) ∧ ∃ m, Delivered (deliveryRun.state m) 1 0 := by
  have hsteps : ∀ n < delivery.length, ∀ action ∈ delivery[n]?,
      LosesNothing ((exec step Room.empty (delivery.take n)).getD Room.empty) action := by
    decide +kernel
  have hguard : ∀ n, LosesNothingAt deliveryRun n := by
    intro n action hlabel
    have hlt : n < delivery.length := (List.getElem?_eq_some_iff.mp hlabel).1
    exact hsteps n hlt action hlabel
  rcases hend : exec step Room.empty delivery with _ | room
  · exact absurd hend (by decide +kernel)
  have hroom : room = (exec step Room.empty delivery).getD Room.empty := by
    rw [hend]
    rfl
  -- at the end neither socket has anything left to do
  have hidle : ∀ id < 2, ∀ ok, step room (.sendBootstrap id ok) = none
      ∧ step room (.join id) = none ∧ step room (.acknowledge id) = none
      ∧ step room (.broadcast id) = none ∧ step room (.forwardCommand id ok) = none
      ∧ step room (.forwardRoomEvent id ok) = none := by
    rw [hroom]
    decide +kernel
  have hfair : ∀ id < 2, FairSocket deliveryRun id := by
    intro id hid
    rcases hidle id hid true with ⟨-, hjoin, hacknowledge, hbroadcast, -, -⟩
    refine
      { handler := Behaviour.ofExec_weaklyFair hend ?_
        commands := Behaviour.ofExec_weaklyFair hend ?_
        events := Behaviour.ofExec_weaklyFair hend ?_ }
    · intro action room' hstep
      cases action <;>
        simp only [Action.isHandlerStep, decide_eq_true_eq, Bool.false_eq_true] at hstep <;>
        subst hstep
      case sendBootstrap ok => simp [(hidle _ hid ok).1]
      case join => simp [hjoin]
      case acknowledge => simp [hacknowledge]
      case broadcast => simp [hbroadcast]
    · intro action room' hstep
      cases action <;>
        simp only [Action.isCommandStep, decide_eq_true_eq, Bool.false_eq_true] at hstep
      case forwardCommand other ok =>
        subst hstep
        simp [(hidle _ hid ok).2.2.2.2.1]
    · intro action room' hstep
      cases action <;>
        simp only [Action.isEventStep, decide_eq_true_eq, Bool.false_eq_true] at hstep
      case forwardRoomEvent other ok =>
        subst hstep
        simp [(hidle _ hid ok).2.2.2.2.2]
  have htheorem := accepted_updates_reach_open_sockets deliveryRun rfl
  refine ⟨htheorem.1.mpr hguard, ?_⟩
  rcases htheorem.2 hguard 13 1 0 0 { bystander with next := 1 } (by decide +kernel)
    (by decide +kernel) (by decide) rfl (hfair 1 (by decide)) (hfair 0 (by decide)) with ⟨m, -, hdelivered⟩
  exact ⟨m, hdelivered⟩

end Toss.Collaboration.Rooms
