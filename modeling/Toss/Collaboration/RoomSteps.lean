import Toss.Collaboration.Rooms

/-!
# What a step of a room can do

The inversion of `step`: one constructor for each thing a step does to a room.
Invariants and progress arguments are case analyses of `Effect` and `Moved`, and
never unfold the handler or the forwarder.

* `Moved` — one socket moves on without an update of its own;
* `Effect` — what a step does to the room;
* `step_effect` — every step does one of these.
-/

namespace Toss.Collaboration.Rooms

open Toss.Foundation

/-- The update that a queued command carries. -/
def SocketCommand.update : SocketCommand → Option UpdateId
  | .event carried => carried.update
  | .serviceRestart => none

@[simp] theorem RoomEvent.system_update (kind : RoomEventKind) :
    (RoomEvent.system kind).update = none := rfl

@[simp] theorem RoomEvent.yjs_update (kind : PersistedUpdateKind) (update : UpdateId) :
    (RoomEvent.yjs kind update).update = some update := rfl

theorem Refusal.event_update (refusal : Refusal) : refusal.event.update = none := by
  cases refusal <;> rfl

/-- The queue holds what it held, but for commands that carry no update. -/
def QueuedFrom (socket : Socket) (commands : List SocketCommand) : Prop :=
  ∀ command ∈ commands, command ∈ socket.commands ∨ command.update = none

/-- A socket that moves on without an update of its own. -/
inductive Moved (room : Room) (socket : Socket) : Socket → Prop
  | revalidated (h : socket.handler = .subscribed) :
      Moved room socket { socket with handler := .revalidated }
  | loaded (h : socket.handler = .revalidated) :
      Moved room socket
        { socket with handler := .loaded, known := List.range room.authors.length }
  | bootstrapped (h : socket.handler = .loaded) :
      Moved room socket { socket with handler := .bootstrapped }
  | dropped (h : socket.handler = .subscribed ∨ socket.handler = .revalidated
        ∨ socket.handler = .loaded) :
      Moved room socket (drop socket)
  | joined (h : socket.handler = .bootstrapped) :
      Moved room socket { socket with handler := .serving, forwarder := .running }
  | stopped (h : socket.handler = .serving) (drainCloseEvent : Bool)
      {commands : List SocketCommand} (hqueued : QueuedFrom socket commands) :
      Moved room socket { socket with handler := .leaving drainCloseEvent, commands }
  | left {drainCloseEvent : Bool} (h : socket.handler = .leaving drainCloseEvent) :
      Moved room socket { socket with handler := .left drainCloseEvent }
  | finished {drainCloseEvent : Bool} (h : socket.handler = .left drainCloseEvent) :
      Moved room socket { socket with handler := .dropped, forwarder := .ended, closed := true }
  | gone (h : socket.handler = .dropped) :
      Moved room socket { socket with handler := .gone }
  | commanded (hrunning : socket.forwarder = .running) {event : RoomEvent}
      {commands : List SocketCommand} (h : socket.commands = .event event :: commands)
      (ok : Bool) :
      Moved room socket (forward { socket with commands } event ok)
  | restarted (hrunning : socket.forwarder = .running) {commands : List SocketCommand}
      (h : socket.commands = .serviceRestart :: commands) :
      Moved room socket { socket with commands, forwarder := .ended, closed := true }
  | received (hrunning : socket.forwarder = .running) {event : RoomEvent}
      (h : receive roomEventBuffer (room.events socket.channel) socket.next = .message event)
      (ok : Bool) :
      Moved room socket (forward { socket with next := socket.next + 1 } event ok)
  | lagged (hrunning : socket.forwarder = .running) :
      Moved room socket { socket with forwarder := .ended, closed := true }

inductive Effect (room : Room) : Action → Room → Prop
  | subscribed : Effect room .subscribe (subscribe room)
  | announced {action : Action} (channel : ChannelId) {event : RoomEvent}
      (hevent : event.update = none) :
      Effect room action (room.send channel event)
  | moved {action : Action} {id : SocketId} {socket socket' : Socket}
      (hsocket : room.socketAt id = some socket) (hmove : Moved room socket socket') :
      Effect room action (room.setSocket id socket')
  | announcing {action : Action} {id : SocketId} {socket socket' : Socket}
      (hsocket : room.socketAt id = some socket) {event : RoomEvent}
      (hevent : event.update = none) (hmove : ∀ room, Moved room socket socket') :
      Effect room action ((room.send socket.channel event).setSocket id socket')
  | tidied {action : Action} {id : SocketId} {socket : Socket}
      (hsocket : room.socketAt id = some socket) (h : socket.handler = .dropped)
      (hregistered : room.registered = some socket.channel)
      (hidle : room.isIdle socket.channel = true) :
      Effect room action
        ({ room with registered := none }.setSocket id { socket with handler := .gone })
  | persisted {action : Action} {id : SocketId} {socket : Socket}
      (hsocket : room.socketAt id = some socket) (h : socket.handler = .serving)
      (kind : PersistedUpdateKind) :
      Effect room action
        ({ room with authors := room.authors ++ [id] }.setSocket id
          { socket with handler := .accepted room.authors.length kind })
  | acknowledged {action : Action} {id : SocketId} {socket : Socket} {update : UpdateId}
      {kind : PersistedUpdateKind} (hsocket : room.socketAt id = some socket)
      (h : socket.handler = .accepted update kind) (hforwarder : socket.forwarder ≠ .ended)
      {commands : List SocketCommand} (hqueued : QueuedFrom socket commands) :
      Effect room action
        (room.setSocket id { socket with handler := .acknowledged update kind, commands })
  /-- The acknowledgement finds the forwarder gone. -/
  | unacknowledged {id : SocketId} {socket : Socket} {update : UpdateId}
      {kind : PersistedUpdateKind} (hsocket : room.socketAt id = some socket)
      (h : socket.handler = .accepted update kind) (hforwarder : socket.forwarder = .ended) :
      Effect room (.acknowledge id)
        (room.setSocket id { socket with handler := .leaving false })
  | published {action : Action} {id : SocketId} {socket : Socket} {update : UpdateId}
      {kind : PersistedUpdateKind} (hsocket : room.socketAt id = some socket)
      (h : socket.handler = .acknowledged update kind) :
      Effect room action
        ((room.send socket.channel (.yjs kind update)).setSocket id
          { socket with handler := .serving })

/-- What `socket_sender.send` leaves of the socket. -/
theorem enqueue_cases {socket socket' : Socket} {command : SocketCommand} {queued : Bool}
    (h : enqueue socket command = some (socket', queued)) (hcommand : command.update = none) :
    (socket.forwarder = .ended ∧ queued = false ∧ socket' = socket)
      ∨ (socket.forwarder ≠ .ended ∧ queued = true ∧ ∃ commands,
          QueuedFrom socket commands ∧ socket' = { socket with commands }) := by
  unfold enqueue at h
  split at h
  · next hended =>
    simp only [Option.some.injEq, Prod.mk.injEq] at h
    exact .inl ⟨hended, h.2.symm, h.1.symm⟩
  rename_i hopen
  split at h
  · simp only [Option.some.injEq, Prod.mk.injEq] at h
    refine .inr ⟨hopen, h.2.symm, socket.commands ++ [command], ?_, h.1.symm⟩
    intro command' hmem
    rcases List.mem_append.mp hmem with hold | hnew
    · exact .inl hold
    · right
      rw [List.mem_singleton.mp hnew]
      exact hcommand
  · simp at h

/-! ## What a forwarder does to its socket -/

section

variable (socket : Socket) (event : RoomEvent) (ok : Bool)

@[simp] theorem forward_channel : (forward socket event ok).channel = socket.channel := by
  unfold forward
  split
  · rfl
  · dsimp only
    split <;> rfl

@[simp] theorem forward_next : (forward socket event ok).next = socket.next := by
  unfold forward
  split
  · rfl
  · dsimp only
    split <;> rfl

@[simp] theorem forward_handler : (forward socket event ok).handler = socket.handler := by
  unfold forward
  split
  · rfl
  · dsimp only
    split <;> rfl

@[simp] theorem forward_commands : (forward socket event ok).commands = socket.commands := by
  unfold forward
  split
  · rfl
  · dsimp only
    split <;> rfl

/-- The forwarder ends and closes the socket, or the event was sent. -/
theorem forward_cases :
    ((forward socket event ok).forwarder = .ended ∧ (forward socket event ok).closed = true)
      ∨ forward socket event ok
          = { socket with known := socket.known ++ event.update.toList } := by
  unfold forward
  split
  · exact .inl ⟨rfl, rfl⟩
  split
  · exact .inl ⟨rfl, rfl⟩
  · exact .inr rfl

end

/-! ## Inversion of the step functions -/

section Inversion

variable {room room' : Room} {id : SocketId} {socket : Socket} {action : Action}

theorem stepOpening_effect (h : stepOpening room id socket action = some room')
    (hsocket : room.socketAt id = some socket) : Effect room action room' := by
  cases action <;> simp only [stepOpening, reduceCtorEq] at h
  case revalidate _ current =>
    split at h
    · next hhandler =>
      cases h
      cases current
      · exact .moved hsocket (.dropped (.inl hhandler))
      · exact .moved hsocket (.revalidated hhandler)
    · simp at h
  case loadBootstrap _ ok =>
    split at h
    · next hhandler =>
      cases h
      cases ok
      · exact .moved hsocket (.dropped (.inr (.inl hhandler)))
      · exact .moved hsocket (.loaded hhandler)
    · simp at h
  case sendBootstrap _ ok =>
    split at h
    · next hhandler =>
      cases h
      cases ok
      · exact .moved hsocket (.dropped (.inr (.inr hhandler)))
      · exact .moved hsocket (.bootstrapped hhandler)
    · simp at h
  case join =>
    split at h
    · next hhandler =>
      cases h
      exact .announcing hsocket rfl fun _ => .joined hhandler
    · simp at h

/-- The loop ends with a command for the forwarder that carries no update. -/
theorem stop_effect {command : SocketCommand} (hcommand : command.update = none)
    (h : (enqueue socket command).map (fun result =>
      room.setSocket id { result.1 with handler := .leaving result.2 }) = some room')
    (hserving : socket.handler = .serving) (hsocket : room.socketAt id = some socket) :
    Effect room action room' := by
  rcases Option.map_eq_some_iff.mp h with ⟨⟨socket', queued⟩, henqueue, rfl⟩
  rcases enqueue_cases henqueue hcommand with ⟨-, -, rfl⟩ | ⟨-, -, commands, hqueued, rfl⟩
  · exact .moved hsocket (.stopped hserving queued fun command hmem => .inl hmem)
  · exact .moved hsocket (.stopped hserving queued hqueued)

theorem stepServing_effect (h : stepServing room id socket action = some room')
    (hid : action.socket = some id) (hsocket : room.socketAt id = some socket) :
    Effect room action room' := by
  cases action <;> simp only [stepServing, reduceCtorEq] at h
  case persist _ kind =>
    split at h
    · next hserving =>
      cases h
      exact .persisted hsocket hserving kind
    · simp at h
  case terminate _ refusal =>
    split at h
    · next hserving =>
      have hcommand : (SocketCommand.event refusal.event).update = none := refusal.event_update
      exact stop_effect hcommand h hserving hsocket
    · simp at h
  case acknowledge _ =>
    obtain rfl := Option.some.inj hid
    split at h
    · next update kind haccepted =>
      rcases Option.map_eq_some_iff.mp h with ⟨⟨socket', queued⟩, henqueue, rfl⟩
      -- the acknowledgement is queued, unless the forwarder has ended
      rcases enqueue_cases henqueue rfl
        with ⟨hended, rfl, rfl⟩ | ⟨hopen, rfl, commands, hqueued, rfl⟩
      · exact .unacknowledged hsocket haccepted hended
      · exact .acknowledged hsocket haccepted hopen hqueued
    · simp at h
  case broadcast _ =>
    split at h
    · next update kind hacknowledged =>
      cases h
      exact .published hsocket hacknowledged
    · simp at h
  case present _ kind =>
    split at h
    · cases h
      exact .announced socket.channel rfl
    · simp at h
  case disconnect _ =>
    split at h
    · next hserving =>
      cases h
      exact .moved hsocket (.stopped hserving false fun command hmem => .inl hmem)
    · simp at h
  case restart _ =>
    split at h
    · next hserving => exact stop_effect rfl h hserving hsocket
    · simp at h

theorem stepLeaving_effect (h : stepLeaving room id socket action = some room')
    (hsocket : room.socketAt id = some socket) : Effect room action room' := by
  cases action <;> simp only [stepLeaving, reduceCtorEq] at h
  case leave _ =>
    split at h
    · next drainCloseEvent hleaving =>
      cases h
      exact .announcing hsocket rfl fun _ => .left hleaving
    · simp at h
  case finishForwarder _ =>
    split at h
    · next drainCloseEvent hleft =>
      split at h
      · simp at h
      · cases h
        exact .moved hsocket (.finished hleft)
    · simp at h
  case removeIfIdle _ =>
    split at h
    · next hdropped =>
      cases h
      split
      · next hidle => exact .tidied hsocket hdropped hidle.1 hidle.2
      · exact .moved hsocket (.gone hdropped)
    · simp at h

theorem stepForwarding_effect (h : stepForwarding room id socket action = some room')
    (hsocket : room.socketAt id = some socket) : Effect room action room' := by
  cases action <;> simp only [stepForwarding, reduceCtorEq] at h
  case forwardCommand _ ok =>
    split at h
    · next hrunning =>
      split at h
      · simp at h
      · next event commands hcommands =>
        cases h
        exact .moved hsocket (.commanded hrunning hcommands ok)
      · next commands hcommands =>
        cases h
        exact .moved hsocket (.restarted hrunning hcommands)
    · simp at h
  case forwardRoomEvent _ ok =>
    split at h
    · next hrunning =>
      split at h
      · simp at h
      · next event hreceive =>
        cases h
        exact .moved hsocket (.received hrunning hreceive ok)
      · cases h
        exact .moved hsocket (.lagged hrunning)
    · simp at h

theorem step_effect (h : step room action = some room') : Effect room action room' := by
  unfold step at h
  split at h
  · cases h
    exact .subscribed
  · split at h
    · split at h
      · cases h
        exact .announced _ rfl
      · simp at h
    · simp at h
  · split at h
    · simp at h
    · next id hid =>
      split at h
      · simp at h
      rename_i socket hsocket
      split at h
      case h_1 | h_2 | h_3 | h_4 => exact stepOpening_effect h hsocket
      case h_5 | h_6 | h_7 => exact stepLeaving_effect h hsocket
      case h_8 | h_9 => exact stepForwarding_effect h hsocket
      · exact stepServing_effect h hid hsocket

end Inversion

/-! ## What a step does to one socket -/

/-- The bootstrap was loaded. -/
def Handler.isOpened : Handler → Bool
  | .subscribed | .revalidated => false
  | _ => true

/-- The steps between the bootstrap and the forwarder. -/
def Handler.openingSteps : Handler → Nat
  | .loaded => 2
  | .bootstrapped => 1
  | _ => 0

/-- How a step changes a socket: its receiver takes at most the next event, it
is sent only what was queued or taken, and it stays open or is closed. -/
structure Evolves (room : Room) (socket socket' : Socket) : Prop where
  channel : socket'.channel = socket.channel
  opened : socket.handler.isOpened = true → socket'.handler.isOpened = true
  follows : socket.isFollowing = true → socket'.isFollowing = true ∨ socket'.closed = true
  stays : socket.closed = true → socket'.closed = true
  opening : socket.handler.isOpened = true →
    socket'.handler.openingSteps ≤ socket.handler.openingSteps
  keeps : socket.handler.isOpened = true → ∀ u ∈ socket.known, u ∈ socket'.known
  learns : socket.handler.isOpened = true → ∀ u ∈ socket'.known, u ∈ socket.known
    ∨ (∃ command ∈ socket.commands, command.update = some u)
    ∨ ∃ event, (room.events socket.channel)[socket.next]? = some event ∧ event.update = some u
  queued : QueuedFrom socket socket'.commands
  place : socket'.next = socket.next ∨ socket'.next = socket.next + 1
    ∧ ∃ event, (room.events socket.channel)[socket.next]? = some event
      ∧ (socket'.closed = true ∨ ∀ u, event.update = some u → u ∈ socket'.known)

section Evolution

variable {room : Room} {id : SocketId} {socket socket' : Socket}

variable {commands : List SocketCommand}

/-- Only the handler, the forwarder and the commands change. -/
theorem Evolves.of_handler {handler : Handler} {forwarder : Forwarder} {closed : Bool}
    (hopened : socket.handler.isOpened = true → handler.isOpened = true)
    (hfollows : socket.isFollowing = true →
      (handler.isBootstrapped = true ∧ closed = socket.closed) ∨ closed = true)
    (hstays : socket.closed = true → closed = true) (hopening : socket.handler.isOpened = true →
      handler.openingSteps ≤ socket.handler.openingSteps)
    (hqueued : QueuedFrom socket commands) :
    Evolves room socket { socket with handler, forwarder, commands, closed } where
  channel := rfl
  opened := hopened
  follows := by
    intro hfollowing
    rcases hfollows hfollowing with ⟨hbootstrapped, hclosed⟩ | hclosed
    · left
      simp only [Socket.isFollowing, Bool.and_eq_true] at hfollowing ⊢
      exact ⟨hbootstrapped, by rw [hclosed]; exact hfollowing.2⟩
    · exact .inr hclosed
  stays := hstays
  opening := hopening
  keeps := fun _ _ h => h
  learns := fun _ _ h => .inl h
  queued := hqueued
  place := .inl rfl

theorem QueuedFrom.refl (socket : Socket) : QueuedFrom socket socket.commands :=
  fun _ hmem => .inl hmem

theorem Evolves.refl (room : Room) (socket : Socket) : Evolves room socket socket :=
  .of_handler id (fun h => .inl ⟨(Bool.and_eq_true_iff.mp h).1, rfl⟩) id (fun _ => le_rfl)
    (.refl socket)

/-- The handler moves on inside its loop. -/
theorem Evolves.relabel {handler : Handler}
    (hopened : handler.isOpened = true) (hbootstrapped : handler.isBootstrapped = true)
    (hopening : handler.openingSteps = 0) (hqueued : QueuedFrom socket commands) :
    Evolves room socket { socket with handler, commands } :=
  .of_handler (fun _ => hopened) (fun _ => .inl ⟨hbootstrapped, rfl⟩) id
    (fun _ => by rw [hopening]; exact Nat.zero_le _) hqueued

/-- The forwarder took an event from its queue or from the channel. -/
theorem Evolves.forward {taken : Socket} {event : RoomEvent} (ok : Bool)
    (hchannel : taken.channel = socket.channel) (hhandler : taken.handler = socket.handler)
    (hknown : taken.known = socket.known) (hclosed : taken.closed = socket.closed)
    (hqueued : QueuedFrom socket taken.commands)
    (hsource : (SocketCommand.event event ∈ socket.commands ∧ taken.next = socket.next)
      ∨ ((room.events socket.channel)[socket.next]? = some event
          ∧ taken.next = socket.next + 1)) :
    Evolves room socket (forward taken event ok) where
  channel := by simp [hchannel]
  opened := by
    intro hopened
    simpa [hhandler] using hopened
  follows := by
    intro hfollowing
    rcases forward_cases taken event ok with ⟨-, hclosed'⟩ | hsent
    · exact .inr hclosed'
    · left
      rw [hsent]
      simpa [Socket.isFollowing, hhandler, hclosed] using hfollowing
  stays := by
    intro hstays
    rcases forward_cases taken event ok with ⟨-, hclosed'⟩ | hsent
    · exact hclosed'
    · rw [hsent]
      exact hclosed.trans hstays
  opening := by
    intro _
    simp [hhandler]
  keeps := by
    intro _ u hu
    unfold Rooms.forward
    split
    · rw [hknown]
      exact hu
    split
    · exact List.mem_append_left _ (by rw [hknown]; exact hu)
    · exact List.mem_append_left _ (by rw [hknown]; exact hu)
  learns := by
    intro _ u hu
    -- only the forwarded event can be news
    have hmem : u ∈ taken.known ++ event.update.toList := by
      unfold Rooms.forward at hu
      split at hu
      · exact List.mem_append_left _ hu
      split at hu
      · exact hu
      · exact hu
    rcases List.mem_append.mp hmem with hold | hnew
    · exact .inl (by rw [← hknown]; exact hold)
    right
    have hupdate : event.update = some u := by simpa using hnew
    rcases hsource with ⟨hcommand, -⟩ | ⟨hevent, -⟩
    · exact .inl ⟨_, hcommand, hupdate⟩
    · exact .inr ⟨event, hevent, hupdate⟩
  queued := by simpa using hqueued
  place := by
    rcases hsource with ⟨-, hnext⟩ | ⟨hevent, hnext⟩
    · left
      simp [hnext]
    right
    refine ⟨by simp [hnext], event, hevent, ?_⟩
    rcases forward_cases taken event ok with ⟨-, hclosed'⟩ | hsent
    · exact .inl hclosed'
    right
    intro u hu
    rw [hsent]
    simp [hu]

theorem QueuedFrom.tail {command : SocketCommand}
    (h : socket.commands = command :: commands) : QueuedFrom socket commands := by
  intro command' hmem
  left
  rw [h]
  exact List.mem_cons_of_mem _ hmem

theorem Moved.evolves (hmove : Moved room socket socket') : Evolves room socket socket' := by
  cases hmove with
  | revalidated h =>
    refine .of_handler ?_ ?_ id ?_ (.refl socket) <;>
      simp [h, Handler.isOpened, Socket.isFollowing, Handler.isBootstrapped]
  | loaded h =>
    exact
      { channel := rfl
        opened := fun _ => rfl
        follows := by simp [h, Socket.isFollowing, Handler.isBootstrapped]
        stays := id
        opening := by simp [h, Handler.isOpened]
        keeps := by simp [h, Handler.isOpened]
        learns := by simp [h, Handler.isOpened]
        queued := .refl socket
        place := .inl rfl }
  | bootstrapped h | joined h =>
    refine .of_handler ?_ ?_ id ?_ (.refl socket) <;>
      simp [h, Handler.isOpened, Handler.isBootstrapped, Handler.openingSteps]
  | dropped h | finished h =>
    exact .of_handler (fun _ => rfl) (fun _ => .inr rfl) (fun _ => rfl) (fun _ => Nat.zero_le _)
      (.refl socket)
  | stopped h drainCloseEvent hqueued => exact .relabel rfl rfl rfl hqueued
  | left h => exact .relabel rfl rfl rfl (.refl socket)
  | gone h =>
    refine .of_handler (fun _ => rfl) ?_ id (fun _ => Nat.zero_le _) (.refl socket)
    simp [Socket.isFollowing, Handler.isBootstrapped, h]
  | commanded hrunning h ok =>
    refine .forward ok rfl rfl rfl rfl (.tail h) (.inl ⟨?_, rfl⟩)
    rw [h]
    exact List.mem_cons_self
  | restarted hrunning h =>
    exact .of_handler id (fun _ => .inr rfl) (fun _ => rfl) (fun _ => le_rfl) (.tail h)
  | received hrunning h ok =>
    exact .forward ok rfl rfl rfl rfl (.refl socket) (.inr ⟨receive_message_getElem? h, rfl⟩)
  | lagged hrunning =>
    exact .of_handler id (fun _ => .inr rfl) (fun _ => rfl) (fun _ => le_rfl) (.refl socket)

/-! ## Frames of a step -/

/-- Subscribing sends nothing. -/
theorem subscribe_events (room : Room) (channel : ChannelId) :
    (subscribe room).events channel = room.events channel := by
  cases hregistered : room.registered with
  | some registered =>
    simp only [subscribe, hregistered]
    rfl
  | none =>
    simp only [subscribe, hregistered]
    show (room.channels ++ [[]])[channel]?.getD [] = room.channels[channel]?.getD []
    rw [List.getElem?_append]
    split
    · rfl
    · next hge =>
      rw [List.getElem?_eq_none (not_lt.mp hge), List.getElem?_singleton]
      split <;> rfl

/-- Subscribing adds one socket, which has no bootstrap state. -/
theorem subscribe_sockets (room : Room) :
    ∃ socket, (subscribe room).sockets = room.sockets ++ [socket]
      ∧ socket.handler = .subscribed := by
  cases hregistered : room.registered with
  | some registered | none =>
    simp only [subscribe, hregistered]
    exact ⟨_, rfl, rfl⟩

theorem subscribe_socketAt {room : Room} {id : SocketId} {socket : Socket}
    (h : room.socketAt id = some socket) : (subscribe room).socketAt id = some socket := by
  rcases subscribe_sockets room with ⟨added, hsockets, -⟩
  rw [Room.socketAt, hsockets, List.getElem?_append_left (List.getElem?_eq_some_iff.mp h).1]
  exact h

theorem subscribe_authors (room : Room) : (subscribe room).authors = room.authors := by
  unfold subscribe
  split <;> rfl

variable {room' : Room} {action : Action}

/-- A socket replaced by one it evolves into; the others stay. -/
theorem evolves_setSocket {mid : Room} (hsockets : ∀ other, mid.socketAt other = room.socketAt other)
    {moved moved' : Socket} {target : SocketId} (hmoved : room.socketAt target = some moved)
    (hevolves : Evolves room moved moved') (hsocket : room.socketAt id = some socket) :
    ∃ socket', (mid.setSocket target moved').socketAt id = some socket'
      ∧ Evolves room socket socket' := by
  by_cases hid : id = target
  · subst hid
    obtain rfl : moved = socket := Option.some.inj (hmoved.symm.trans hsocket)
    exact ⟨moved', Room.socketAt_setSocket_self ((hsockets id).trans hsocket), hevolves⟩
  · refine ⟨socket, ?_, .refl room socket⟩
    rw [Room.socketAt_setSocket_of_ne moved' hid, hsockets]
    exact hsocket

theorem Effect.evolves (heffect : Effect room action room')
    (hsocket : room.socketAt id = some socket) :
    ∃ socket', room'.socketAt id = some socket' ∧ Evolves room socket socket' := by
  cases heffect with
  | subscribed => exact ⟨socket, subscribe_socketAt hsocket, .refl room socket⟩
  | announced channel hevent => exact ⟨socket, hsocket, .refl room socket⟩
  | moved hmoved hmove => exact evolves_setSocket (fun _ => rfl) hmoved hmove.evolves hsocket
  | announcing hmoved hevent hmove =>
    exact evolves_setSocket (fun _ => rfl) hmoved (hmove room).evolves hsocket
  | tidied hmoved h hregistered hidle =>
    exact evolves_setSocket (fun _ => rfl) hmoved (Moved.gone h).evolves hsocket
  | persisted hmoved h kind | unacknowledged hmoved h hforwarder | published hmoved h =>
    exact evolves_setSocket (fun _ => rfl) hmoved (.relabel rfl rfl rfl (.refl _)) hsocket
  | acknowledged hmoved h hforwarder hqueued =>
    exact evolves_setSocket (fun _ => rfl) hmoved (.relabel rfl rfl rfl hqueued) hsocket

/-- The handler of a socket broadcasts an update and waits for the next message. -/
def Publishes (room room' : Room) (update : UpdateId) : Prop :=
  ∃ id socket kind, room.socketAt id = some socket ∧ socket.handler = .acknowledged update kind
    ∧ room'.socketAt id = some { socket with handler := .serving }

/-- A channel only grows, and by an update only when its handler broadcasts it. -/
theorem Effect.events (heffect : Effect room action room') (channel : ChannelId) :
    ∃ later, room'.events channel = room.events channel ++ later
      ∧ ∀ event ∈ later, ∀ update, event.update = some update →
        Publishes room room' update := by
  -- an event without an update may be sent
  have hsent : ∀ (sent : ChannelId) (event : RoomEvent), event.update = none →
      ∃ later, (room.send sent event).events channel = room.events channel ++ later
        ∧ ∀ event ∈ later, ∀ update, event.update = some update →
          Publishes room room' update := by
    intro sent event hevent
    rcases Room.events_send_cases room sent channel event with h | h
    · exact ⟨[], by simpa using h, by simp⟩
    refine ⟨[event], h, ?_⟩
    intro event' hmem update hupdate
    rw [List.mem_singleton.mp hmem, hevent] at hupdate
    simp at hupdate
  cases heffect with
  | subscribed => exact ⟨[], by simp [subscribe_events], by simp⟩
  | announced sent hevent => exact hsent sent _ hevent
  | announcing hmoved hevent hmove => exact hsent _ _ hevent
  | moved hmoved hmove | acknowledged hmoved h hforwarder hqueued
  | unacknowledged hmoved h hforwarder => exact ⟨[], by simp, by simp⟩
  | tidied hmoved h hregistered hidle | persisted hmoved h kind =>
    exact ⟨[], by simp [Room.events], by simp⟩
  | @published _ id moved update kind hmoved h =>
    rcases Room.events_send_cases room moved.channel channel (.yjs kind update) with hsame | hmore
    · exact ⟨[], by simpa using hsame, by simp⟩
    refine ⟨[.yjs kind update], hmore, ?_⟩
    intro event hmem update' hupdate
    rw [List.mem_singleton.mp hmem] at hupdate
    cases hupdate
    exact ⟨id, moved, kind, hmoved, h, Room.socketAt_setSocket_self hmoved⟩

/-- Accepted updates keep their places. -/
theorem Effect.authors (heffect : Effect room action room') :
    ∃ later, room'.authors = room.authors ++ later := by
  cases heffect with
  | subscribed => exact ⟨[], by simp [subscribe_authors]⟩
  | persisted hmoved h kind => exact ⟨_, rfl⟩
  | announced | moved | announcing | tidied | acknowledged | unacknowledged | published =>
    exact ⟨[], by simp⟩

end Evolution

end Toss.Collaboration.Rooms
