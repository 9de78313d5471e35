import Toss.Collaboration.DeliverySteps
import Toss.Foundation.Fairness

/-!
# Progress of the deliveries of a room

Under fairness of the handler and of both sources of the forwarder, what is on
its way arrives.

* `leadsTo_published` — an accepted update is broadcast, or let go of;
* `leadsTo_spawned` — a socket with a bootstrap state spawns its forwarder;
* `leadsTo_delivered` — what waits in the channel is sent, or the socket closed.
-/

namespace Toss.Collaboration.Rooms

open Toss.Foundation

/-- The step relation of a room. -/
abbrev RoomStep (room : Room) (action : Action) (room' : Room) : Prop :=
  step room action = some room'

/-! ## Fairness -/

/-- A step of the handler that waits for nobody but its own forwarder. -/
def Action.isHandlerStep (id : SocketId) : Action → Bool
  | .sendBootstrap id' _ | .join id' | .acknowledge id' | .broadcast id' => id' = id
  | _ => false

def Action.isCommandStep (id : SocketId) : Action → Bool
  | .forwardCommand id' _ => id' = id
  | _ => false

def Action.isEventStep (id : SocketId) : Action → Bool
  | .forwardRoomEvent id' _ => id' = id
  | _ => false

/-- The runtime polls the handler of the socket, and its forwarder takes from both
of its sources. -/
structure FairSocket (b : Behaviour RoomStep) (id : SocketId) : Prop where
  handler : b.WeaklyFair fun action => action.isHandlerStep id = true
  commands : b.WeaklyFair fun action => action.isCommandStep id = true
  events : b.WeaklyFair fun action => action.isEventStep id = true

/-! ## Publishing ends -/

/-- The steps that the handler and its forwarder make at most before the broadcast. -/
def Socket.publishingSteps (socket : Socket) : Nat :=
  match socket.handler with
  | .accepted .. => (if socket.forwarder = .ended then 0 else socket.commands.length) + 1
  | _ => 0

section Publishing

variable {room room' : Room} {action : Action} {id : SocketId} {socket socket' : Socket}
variable {update : UpdateId}

/-- A handler that publishes has accepted or acknowledged the update. -/
theorem isPublishing_cases (h : socket.handler.isPublishing update = true) :
    (∃ kind, socket.handler = .accepted update kind)
      ∨ ∃ kind, socket.handler = .acknowledged update kind := by
  cases hhandler : socket.handler with
  | accepted update' kind =>
    simp only [hhandler, Handler.isPublishing, decide_eq_true_eq] at h
    exact .inl ⟨kind, by rw [h]⟩
  | acknowledged update' kind =>
    simp only [hhandler, Handler.isPublishing, decide_eq_true_eq] at h
    exact .inr ⟨kind, by rw [h]⟩
  | _ => simp [hhandler, Handler.isPublishing] at h

/-- Taking an event from the queue or from the channel does not lengthen the queue. -/
theorem publishingSteps_forward {taken : Socket} (event : RoomEvent) (ok : Bool)
    (hhandler : taken.handler = socket.handler) (hrunning : socket.forwarder = .running)
    (hforwarder : taken.forwarder = socket.forwarder)
    (hcommands : taken.commands.length ≤ socket.commands.length) :
    (forward taken event ok).publishingSteps ≤ socket.publishingSteps := by
  unfold Socket.publishingSteps
  rw [forward_handler, hhandler]
  split
  · rw [forward_commands, hrunning]
    rcases forward_cases taken event ok with ⟨hended, -⟩ | hsent
    · simp [hended]
    · rw [hsent]
      simpa [hforwarder, hrunning] using hcommands
  · exact le_rfl

theorem Moved.publishingSteps (hmove : Moved room socket socket') :
    socket'.publishingSteps ≤ socket.publishingSteps := by
  cases hmove with
  | @commanded hrunning event commands h ok =>
    refine publishingSteps_forward event ok rfl hrunning rfl ?_
    simp [h]
  | @received hrunning event h ok =>
    exact publishingSteps_forward event ok rfl hrunning rfl le_rfl
  | restarted hrunning h | lagged hrunning =>
    unfold Socket.publishingSteps
    dsimp only
    split <;> simp
  | _ => exact Nat.zero_le _

/-- A publishing handler comes no further from its broadcast. -/
theorem Effect.publishingSteps (heffect : Effect room action room')
    (hsocket : room.socketAt id = some socket)
    (hpublishing : socket.handler.isPublishing update = true)
    (hafter : room'.socketAt id = some socket') :
    socket'.publishingSteps ≤ socket.publishingSteps := by
  have hset : ∀ {mid : Room} {target : SocketId} {moved moved' : Socket},
      (∀ other, mid.socketAt other = room.socketAt other) →
      room.socketAt target = some moved →
      (mid.setSocket target moved').socketAt id = some socket' →
      (moved.handler.isPublishing update = true →
        moved'.publishingSteps ≤ moved.publishingSteps) →
      socket'.publishingSteps ≤ socket.publishingSteps := by
    intro mid target moved moved' hsockets hmoved hfound hle
    rcases Room.socketAt_setSocket hfound with ⟨rfl, rfl⟩ | ⟨-, hold⟩
    · obtain rfl : moved = socket := Option.some.inj (hmoved.symm.trans hsocket)
      exact hle hpublishing
    · rw [hsockets, hsocket] at hold
      rw [Option.some.inj hold]
  cases heffect with
  | subscribed =>
    rw [subscribe_socketAt hsocket] at hafter
    rw [Option.some.inj hafter]
  | announced channel hevent =>
    rw [Room.send_socketAt, hsocket] at hafter
    rw [Option.some.inj hafter]
  | moved hmoved hmove => exact hset (fun _ => rfl) hmoved hafter fun _ => hmove.publishingSteps
  | announcing hmoved hevent hmove =>
    exact hset (fun _ => rfl) hmoved hafter fun _ => (hmove room).publishingSteps
  | tidied hmoved h hregistered hidle =>
    have hgone : Moved room _ _ := .gone h
    exact hset (fun _ => rfl) hmoved hafter fun _ => hgone.publishingSteps
  | persisted hmoved h kind =>
    refine hset (fun _ => rfl) hmoved hafter ?_
    simp [h, Handler.isPublishing]
  | acknowledged hmoved h hforwarder hqueued | unacknowledged hmoved h hforwarder
  | published hmoved h =>
    exact hset (fun _ => rfl) hmoved hafter fun _ => Nat.zero_le _

/-- A step of the handler brings it closer to the broadcast, or past it. -/
theorem handlerStep_publishingSteps (hstep : step room action = some room')
    (hhandler : action.isHandlerStep id = true) (hsocket : room.socketAt id = some socket)
    (hpublishing : socket.handler.isPublishing update = true)
    (hafter : room'.socketAt id = some socket')
    (hstill : socket'.handler.isPublishing update = true) :
    socket'.publishingSteps < socket.publishingSteps := by
  rcases isPublishing_cases hpublishing with ⟨kind, haccepted⟩ | ⟨kind, hacknowledged⟩
  · -- only the acknowledgement is possible, and it is the last step before the broadcast
    cases action <;>
      simp only [Action.isHandlerStep, decide_eq_true_eq, Bool.false_eq_true] at hhandler <;>
      subst hhandler <;>
      simp only [step, Action.socket, hsocket, stepOpening, stepServing, haccepted, reduceCtorEq,
        if_false] at hstep
    case acknowledge =>
      rcases Option.map_eq_some_iff.mp hstep with ⟨⟨moved, queued⟩, -, rfl⟩
      rw [Room.socketAt_setSocket_self hsocket] at hafter
      cases hafter
      cases queued
      · simp [Handler.isPublishing] at hstill
      · simp [Socket.publishingSteps, haccepted]
  · -- only the broadcast is possible, and it ends the publishing
    cases action <;>
      simp only [Action.isHandlerStep, decide_eq_true_eq, Bool.false_eq_true] at hhandler <;>
      subst hhandler <;>
      simp only [step, Action.socket, hsocket, stepOpening, stepServing, hacknowledged,
        reduceCtorEq, if_false, Option.some.injEq] at hstep
    case broadcast =>
      have hsent : (room.send socket.channel (.yjs kind update)).socketAt _ = some socket :=
        hsocket
      rw [← hstep, Room.socketAt_setSocket_self hsent] at hafter
      cases hafter
      simp [Handler.isPublishing] at hstill

/-- Taking a queued command makes room for the acknowledgement. -/
theorem commandStep_publishingSteps (hstep : step room action = some room')
    (hcommand : action.isCommandStep id = true) (hsocket : room.socketAt id = some socket)
    (hlong : 0 < socket.publishingSteps) (hafter : room'.socketAt id = some socket') :
    socket'.publishingSteps < socket.publishingSteps := by
  cases action <;>
    simp only [Action.isCommandStep, decide_eq_true_eq, Bool.false_eq_true] at hcommand
  case forwardCommand other ok =>
    subst hcommand
    obtain ⟨update, kind, haccepted⟩ : ∃ update kind, socket.handler = .accepted update kind := by
      cases h : socket.handler <;> simp_all [Socket.publishingSteps]
    simp only [step, Action.socket, hsocket, stepForwarding] at hstep
    split at hstep
    · next hrunning =>
      split at hstep
      · simp at hstep
      · next event commands hcommands =>
        cases hstep
        rw [Room.socketAt_setSocket_self hsocket] at hafter
        cases hafter
        simp only [Socket.publishingSteps, forward_handler, haccepted, forward_commands, hrunning,
          hcommands, reduceCtorEq, if_false, List.length_cons]
        split <;> omega
      · next commands hcommands =>
        cases hstep
        rw [Room.socketAt_setSocket_self hsocket] at hafter
        cases hafter
        simp [Socket.publishingSteps, haccepted, hrunning, hcommands]
    · simp at hstep

/-- A publishing handler can go on, or its forwarder can take a command. -/
theorem publishing_enabled (hwired : Wired room) (hsocket : room.socketAt id = some socket)
    (hpublishing : socket.handler.isPublishing update = true) :
    (socketEventBuffer < socket.publishingSteps →
        ∃ action, action.isCommandStep id = true ∧ (step room action).isSome = true)
      ∧ (socket.publishingSteps ≤ socketEventBuffer →
        ∃ action, action.isHandlerStep id = true ∧ (step room action).isSome = true) := by
  rcases isPublishing_cases hpublishing with ⟨kind, haccepted⟩ | ⟨kind, hacknowledged⟩
  · constructor
    · intro hfull
      -- the queue is full, so there is a forwarder to take from it
      have hrunning : socket.forwarder = .running := by
        cases h : socket.forwarder with
        | running => rfl
        | unspawned =>
          have := hwired.spawned id socket hsocket h
          simp [haccepted, Handler.isUnspawned] at this
        | ended => simp [Socket.publishingSteps, haccepted, h, socketEventBuffer] at hfull
      cases hcommands : socket.commands with
      | nil => simp [Socket.publishingSteps, haccepted, hcommands, socketEventBuffer] at hfull
      | cons command commands =>
        refine ⟨.forwardCommand id true, by simp [Action.isCommandStep], ?_⟩
        cases command <;>
          simp only [step, Action.socket, hsocket, stepForwarding, hrunning, hcommands, if_true,
            Option.isSome_some]
    · intro hspace
      refine ⟨.acknowledge id, by simp [Action.isHandlerStep], ?_⟩
      by_cases hended : socket.forwarder = .ended
      · simp only [step, Action.socket, hsocket, stepServing, haccepted, enqueue, hended, if_true,
          Option.map_some, Option.isSome_some]
      have hlt : socket.commands.length < socketEventBuffer := by
        simp only [Socket.publishingSteps, haccepted, hended, if_false] at hspace
        omega
      simp only [step, Action.socket, hsocket, stepServing, haccepted, enqueue, hended, hlt,
        if_true, if_false, Option.map_some, Option.isSome_some]
  · have hzero : socket.publishingSteps = 0 := by simp [Socket.publishingSteps, hacknowledged]
    constructor
    · intro hfull
      simp [hzero] at hfull
    · intro _
      exact ⟨.broadcast id, by simp [Action.isHandlerStep],
        by simp only [step, Action.socket, hsocket, stepServing, hacknowledged,
          Option.isSome_some]⟩

/-- An accepted update is broadcast, or its handler lets go of it. -/
theorem leadsTo_published {b : Behaviour RoomStep} (hinv : ∀ n, Wired (b.state n))
    (hfair : FairSocket b id) (update : UpdateId) :
    b.LeadsTo (fun room => room.IsPublishing id update)
      (fun room => ¬ room.IsPublishing id update) := by
  intro n hpublishing
  rcases hpublishing with ⟨socket, hsocket, hpublishing⟩
  refine Behaviour.leadsTo_of_rank
    (P := fun k room => ∃ socket, room.socketAt id = some socket
      ∧ socket.handler.isPublishing update = true ∧ socket.publishingSteps = k)
    (Q := fun room => ¬ room.IsPublishing id update)
    -- while the queue is full its commands have to go first
    (A := fun k action => if socketEventBuffer < k then action.isCommandStep id = true
      else action.isHandlerStep id = true)
    hinv ?_ ?_ ?_ socket.publishingSteps n ⟨socket, hsocket, hpublishing, rfl⟩
  · intro k
    split
    · exact hfair.commands
    · exact hfair.handler
  · intro k room action room' _ _ hrank hstep
    rcases hrank with ⟨socket, hsocket, hpublishing, rfl⟩
    by_cases hstill : room'.IsPublishing id update
    · right
      rcases hstill with ⟨socket', hsocket', hstill⟩
      refine ⟨socket'.publishingSteps,
        (step_effect hstep).publishingSteps hsocket hpublishing hsocket',
        ⟨socket', hsocket', hstill, rfl⟩, ?_⟩
      intro hfairStep
      split at hfairStep
      · next hfull =>
        exact commandStep_publishingSteps hstep hfairStep hsocket
          (Nat.lt_of_le_of_lt (Nat.zero_le _) hfull) hsocket'
      · exact handlerStep_publishingSteps hstep hfairStep hsocket hpublishing hsocket' hstill
    · exact .inl hstill
  · intro k room hwired hrank
    right
    rcases hrank with ⟨socket, hsocket, hpublishing, rfl⟩
    rcases publishing_enabled hwired hsocket hpublishing with ⟨hcommand, hhandler⟩
    by_cases hfull : socketEventBuffer < socket.publishingSteps
    · rcases hcommand hfull with ⟨action, hcommandStep, henabled⟩
      rcases Option.isSome_iff_exists.mp henabled with ⟨room', hstep⟩
      exact ⟨action, room', by simpa [hfull] using hcommandStep, hstep⟩
    · rcases hhandler (not_lt.mp hfull) with ⟨action, hhandlerStep, henabled⟩
      rcases Option.isSome_iff_exists.mp henabled with ⟨room', hstep⟩
      exact ⟨action, room', by simpa [hfull] using hhandlerStep, hstep⟩

end Publishing

/-! ## Waiting ends -/

/-- The socket's client was sent the update, or the socket is closed. -/
def Delivered (room : Room) (id : SocketId) (update : UpdateId) : Prop :=
  ∃ socket, room.socketAt id = some socket ∧ (update ∈ socket.known ∨ socket.closed = true)

/-- The open socket has the update `distance` events ahead of its receiver. -/
def Waits (room : Room) (id : SocketId) (update : UpdateId) (socket : Socket)
    (distance : Nat) : Prop :=
  room.socketAt id = some socket ∧ socket.isFollowing = true
    ∧ ∃ i event, i = socket.next + distance
      ∧ (room.events socket.channel)[i]? = some event ∧ event.update = some update

section Waiting

variable {room room' : Room} {action : Action} {id : SocketId} {socket socket' : Socket}
variable {update : UpdateId} {distance : Nat}

theorem isOpened_of_isFollowing (h : socket.isFollowing = true) :
    socket.handler.isOpened = true := by
  cases hhandler : socket.handler <;>
    simp_all [Socket.isFollowing, Handler.isBootstrapped, Handler.isOpened]

/-- A socket that waits is sent the update by the step, or closed, or comes no
further from it, and closer by each event that its receiver takes. -/
theorem Waits.advance (hwaits : Waits room id update socket distance)
    (hstep : step room action = some room') (hafter : room'.socketAt id = some socket') :
    Delivered room' id update ∨ ∃ distance', Waits room' id update socket' distance'
      ∧ distance' ≤ distance
      ∧ socket'.handler.openingSteps ≤ socket.handler.openingSteps
      ∧ (socket'.next = socket.next + 1 → distance' < distance) := by
  rcases hwaits with ⟨hsocket, hfollowing, i, event, rfl, hevent, hupdate⟩
  have heffect := step_effect hstep
  rcases heffect.evolves hsocket with ⟨found, hfound, hevolves⟩
  obtain rfl : found = socket' := Option.some.inj (hfound.symm.trans hafter)
  have hopened := isOpened_of_isFollowing hfollowing
  rcases hevolves.follows hfollowing with hfollowing' | hclosed
  · -- the channel still holds the event
    have hevent' : (room'.events found.channel)[socket.next + distance]? = some event := by
      rcases heffect.events socket.channel with ⟨later, hevents, -⟩
      rw [hevolves.channel, hevents,
        List.getElem?_append_left (List.getElem?_eq_some_iff.mp hevent).1]
      exact hevent
    rcases hevolves.place with hsame | ⟨hnext, taken, htaken, hsent⟩
    · right
      refine ⟨distance, ⟨hafter, hfollowing', _, event, ?_, hevent', hupdate⟩, le_rfl,
        hevolves.opening hopened, ?_⟩
      · rw [hsame]
      · intro h
        omega
    · cases distance with
      | zero =>
        -- the event is the one that was taken
        left
        rw [Nat.add_zero, htaken] at hevent
        obtain rfl : taken = event := Option.some.inj hevent
        rcases hsent with hclosed | hknown
        · exact ⟨found, hafter, .inr hclosed⟩
        · exact ⟨found, hafter, .inl (hknown update hupdate)⟩
      | succ distance =>
        right
        refine ⟨distance, ⟨hafter, hfollowing', _, event, ?_, hevent', hupdate⟩,
          Nat.le_succ _, hevolves.opening hopened, fun _ => Nat.lt_succ_self _⟩
        omega
  · exact .inl ⟨found, hafter, .inr hclosed⟩

/-- Before the forwarder is spawned, a step of the handler spawns it or comes
closer to it, or closes the socket. -/
theorem handlerStep_openingSteps (hstep : step room action = some room')
    (hhandler : action.isHandlerStep id = true) (hsocket : room.socketAt id = some socket)
    (hopening : 0 < socket.handler.openingSteps) (hafter : room'.socketAt id = some socket') :
    socket'.closed = true ∨ socket'.handler.openingSteps < socket.handler.openingSteps := by
  have hcases : socket.handler = .loaded ∨ socket.handler = .bootstrapped := by
    cases h : socket.handler <;> simp_all [Handler.openingSteps]
  cases action <;>
    simp only [Action.isHandlerStep, decide_eq_true_eq, Bool.false_eq_true] at hhandler <;>
    subst hhandler
  case sendBootstrap ok =>
    simp only [step, Action.socket, hsocket, stepOpening] at hstep
    split at hstep
    · next hloaded =>
      cases hstep
      rw [Room.socketAt_setSocket_self hsocket] at hafter
      cases hafter
      cases ok
      · exact .inl rfl
      · right
        simp [hloaded, Handler.openingSteps]
    · simp at hstep
  case join =>
    simp only [step, Action.socket, hsocket, stepOpening] at hstep
    split at hstep
    · next hbootstrapped =>
      cases hstep
      have hsent : (room.send socket.channel (.system .presenceJoin)).socketAt _ = some socket :=
        hsocket
      rw [Room.socketAt_setSocket_self hsent] at hafter
      cases hafter
      right
      simp [hbootstrapped, Handler.openingSteps]
    · simp at hstep
  case acknowledge | broadcast =>
    rcases hcases with h | h <;> simp [step, Action.socket, hsocket, stepServing, h] at hstep

/-- The forwarder takes the next event, or closes the socket. -/
theorem eventStep_next (hstep : step room action = some room')
    (hevent : action.isEventStep id = true) (hsocket : room.socketAt id = some socket)
    (hafter : room'.socketAt id = some socket') :
    socket'.closed = true ∨ socket'.next = socket.next + 1 := by
  cases action <;>
    simp only [Action.isEventStep, decide_eq_true_eq, Bool.false_eq_true] at hevent
  case forwardRoomEvent other ok =>
    subst hevent
    simp only [step, Action.socket, hsocket, stepForwarding] at hstep
    split at hstep
    · split at hstep
      · simp at hstep
      · cases hstep
        rw [Room.socketAt_setSocket_self hsocket] at hafter
        cases hafter
        right
        simp
      · cases hstep
        rw [Room.socketAt_setSocket_self hsocket] at hafter
        cases hafter
        exact .inl rfl
    · simp at hstep

/-- While the forwarder is not spawned, the handler can go on. -/
theorem opening_enabled (hsocket : room.socketAt id = some socket)
    (hopening : 0 < socket.handler.openingSteps) :
    ∃ action, action.isHandlerStep id = true ∧ (step room action).isSome = true := by
  have hcases : socket.handler = .loaded ∨ socket.handler = .bootstrapped := by
    cases h : socket.handler <;> simp_all [Handler.openingSteps]
  rcases hcases with h | h
  · exact ⟨.sendBootstrap id true, by simp [Action.isHandlerStep],
      by simp [step, Action.socket, hsocket, stepOpening, h]⟩
  · exact ⟨.join id, by simp [Action.isHandlerStep],
      by simp [step, Action.socket, hsocket, stepOpening, h]⟩

/-- A spawned forwarder with an event ahead can take one. -/
theorem Waits.enabled (hwired : Wired room) (hwaits : Waits room id update socket distance)
    (hopening : socket.handler.openingSteps = 0) :
    ∃ action, action.isEventStep id = true ∧ (step room action).isSome = true := by
  rcases hwaits with ⟨hsocket, hfollowing, i, event, rfl, hevent, hupdate⟩
  have hrunning : socket.forwarder = .running := by
    have hlive := hwired.live id socket hsocket hfollowing
    cases h : socket.handler <;>
      simp_all [Socket.hasReceiver, Socket.isFollowing, Handler.isBootstrapped,
        Handler.openingSteps]
  have hpending : PendingAt (fun _ => True) (room.events socket.channel) socket.next :=
    ⟨_, event, Nat.le_add_right _ _, hevent, trivial⟩
  refine ⟨.forwardRoomEvent id true, by simp [Action.isEventStep], ?_⟩
  simp only [step, Action.socket, hsocket, stepForwarding, hrunning, if_true]
  cases hreceive : receive roomEventBuffer (room.events socket.channel) socket.next with
  | empty => exact absurd hreceive hpending.receive_ne_empty
  | message event => rfl
  | lagged => rfl

end Waiting

/-- A socket that waits for an update spawns its forwarder, unless it is closed. -/
theorem leadsTo_spawned {b : Behaviour RoomStep} {id : SocketId}
    (hfair : FairSocket b id) (update : UpdateId) (k : Nat) :
    b.LeadsTo
      (fun room => ∃ socket distance, Waits room id update socket distance
        ∧ socket.handler.openingSteps = k)
      (fun room => Delivered room id update ∨ ∃ socket distance,
        Waits room id update socket distance ∧ socket.handler.openingSteps = 0) := by
  refine Behaviour.leadsTo_of_rank
    (P := fun k room => ∃ socket distance, Waits room id update socket distance
      ∧ socket.handler.openingSteps = k)
    (A := fun _ (action : Action) => action.isHandlerStep id = true) (I := fun _ => True)
    (fun _ => trivial) (fun _ => hfair.handler) ?_ ?_ k
  · intro k room action room' _ _ hrank hstep
    rcases hrank with ⟨socket, distance, hwaits, rfl⟩
    rcases (step_effect hstep).evolves hwaits.1 with ⟨socket', hafter, -⟩
    rcases hwaits.advance hstep hafter with hdelivered | ⟨distance', hwaits', -, hle, -⟩
    · exact .inl (.inl hdelivered)
    by_cases hzero : socket'.handler.openingSteps = 0
    · exact .inl (.inr ⟨socket', distance', hwaits', hzero⟩)
    by_cases hclosed : socket'.closed = true
    · exact .inl (.inl ⟨socket', hafter, .inr hclosed⟩)
    right
    refine ⟨socket'.handler.openingSteps, hle, ⟨socket', distance', hwaits', rfl⟩, ?_⟩
    intro hhandler
    have hopening : 0 < socket.handler.openingSteps := by omega
    rcases handlerStep_openingSteps hstep hhandler hwaits.1 hopening hafter with h | h
    · exact absurd h hclosed
    · exact h
  · intro k room _ hrank
    rcases hrank with ⟨socket, distance, hwaits, rfl⟩
    rcases Nat.eq_zero_or_pos socket.handler.openingSteps with hzero | hopening
    · exact .inl (.inr ⟨socket, distance, hwaits, hzero⟩)
    right
    rcases opening_enabled hwaits.1 hopening with ⟨action, hhandler, henabled⟩
    rcases Option.isSome_iff_exists.mp henabled with ⟨room', hstep⟩
    exact ⟨action, room', hhandler, hstep⟩

/-- What waits in the channel of a spawned forwarder is sent, or the socket closed. -/
theorem leadsTo_delivered {b : Behaviour RoomStep} {id : SocketId}
    (hwired : ∀ n, Wired (b.state n)) (hfair : FairSocket b id) (update : UpdateId) (k : Nat) :
    b.LeadsTo
      (fun room => ∃ socket, Waits room id update socket k ∧ socket.handler.openingSteps = 0)
      (fun room => Delivered room id update) := by
  refine Behaviour.leadsTo_of_rank
    (P := fun k room => ∃ socket, Waits room id update socket k
      ∧ socket.handler.openingSteps = 0)
    (A := fun _ (action : Action) => action.isEventStep id = true)
    hwired (fun _ => hfair.events) ?_ ?_ k
  · intro k room action room' _ _ hrank hstep
    rcases hrank with ⟨socket, hwaits, hzero⟩
    rcases (step_effect hstep).evolves hwaits.1 with ⟨socket', hafter, -⟩
    rcases hwaits.advance hstep hafter with hdelivered | ⟨distance', hwaits', hle, hopening, hlt⟩
    · exact .inl hdelivered
    by_cases hclosed : socket'.closed = true
    · exact .inl ⟨socket', hafter, .inr hclosed⟩
    right
    refine ⟨distance', hle, ⟨socket', hwaits', by omega⟩, ?_⟩
    intro hevent
    rcases eventStep_next hstep hevent hwaits.1 hafter with h | h
    · exact absurd h hclosed
    · exact hlt h
  · intro k room hwired hrank
    right
    rcases hrank with ⟨socket, hwaits, hzero⟩
    rcases hwaits.enabled hwired hzero with ⟨action, hevent, henabled⟩
    rcases Option.isSome_iff_exists.mp henabled with ⟨room', hstep⟩
    exact ⟨action, room', hevent, hstep⟩

end Toss.Collaboration.Rooms
