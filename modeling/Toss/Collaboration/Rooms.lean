import Toss.Foundation.Broadcast
import Toss.Collaboration.Persistence

/-!
# A collaboration room and its document sockets

`rooms.rs` and the socket loop of `websocket.rs` for the sockets of one
document. Every await of `handle_socket` and of `forward_room_events` is a step
of its own, so the steps of the sockets interleave freely.

* a `Socket` is its handler's place in `handle_socket`, its forwarder task with
  the commands queued for it, and its receiver's place in the broadcast channel;
* a `Room` is the channel registered for the document, every channel there ever
  was, the sockets, and the updates accepted so far with who sent them;
* `step` is one step of one socket or one event broadcast to the project.

An update is named by its place among the accepted ones. `known` is what the
socket's client was sent: the accepted updates inside its bootstrap state, and
every update a room event carried to it.
-/

namespace Toss.Collaboration.Rooms

open Toss.Foundation

/-! ## Events -/

inductive RoomEventKind
  | yjsUpdate
  | yjsSync
  | yjsAck
  | presenceJoin
  | presenceLeave
  | presenceMetadata
  | presenceCursor
  | bootstrapDone
  | workspaceChanged
  | documentChanged
  | projectReplaced
  | accessChanged
  | serverError
deriving DecidableEq, Repr

abbrev SocketId := Nat

abbrev ChannelId := Nat

/-- An accepted update, by its place in the order of commits. -/
abbrev UpdateId := Nat

structure RoomEvent where
  kind : RoomEventKind
  /-- The accepted update in the payload of a Yjs event. -/
  update : Option UpdateId
  /-- `resync_required` in the payload of a server error. -/
  resyncRequired : Bool
deriving DecidableEq, Repr

def RoomEvent.system (kind : RoomEventKind) : RoomEvent where
  kind := kind
  update := none
  resyncRequired := false

/-- The server error that asks the client to resynchronise. -/
def RoomEvent.resync : RoomEvent where
  kind := .serverError
  update := none
  resyncRequired := true

/-- The broadcast of an accepted update. -/
def RoomEvent.yjs (kind : PersistedUpdateKind) (update : UpdateId) : RoomEvent where
  kind := match kind with
    | .update => .yjsUpdate
    | .sync => .yjsSync
  update := some update
  resyncRequired := false

/-- Why the loop of a socket ends with a terminal event: the outcome of a
refused or failed update, or of a periodic revalidation. -/
inductive Refusal
  | staleGeneration
  | accessChanged
  | documentChanged
  | failed
deriving DecidableEq, Repr

def Refusal.event : Refusal → RoomEvent
  | .staleGeneration => .system .projectReplaced
  | .accessChanged => .system .accessChanged
  | .documentChanged => .system .documentChanged
  | .failed => .resync

/-- `closes_stream` in `forward_room_events`. -/
def RoomEvent.closesStream (event : RoomEvent) : Bool :=
  event.kind = .accessChanged ∨ event.kind = .documentChanged ∨ event.kind = .projectReplaced
    ∨ (event.kind = .serverError ∧ event.resyncRequired)

inductive SocketCommand
  | event (event : RoomEvent)
  | serviceRestart
deriving DecidableEq, Repr

/-! ## State -/

/-- Where `handle_socket` is. -/
inductive Handler
  /-- `subscribe` returned; the subscription is still to be revalidated. -/
  | subscribed
  | revalidated
  /-- `prepare_document_bootstrap` returned; the state is still to be sent. -/
  | loaded
  | bootstrapped
  /-- Waiting for a message. -/
  | serving
  /-- `persist_yjs_event` accepted the update; its acknowledgement comes next. -/
  | accepted (update : UpdateId) (kind : PersistedUpdateKind)
  /-- The acknowledgement is queued; the broadcast comes next. -/
  | acknowledged (update : UpdateId) (kind : PersistedUpdateKind)
  /-- Out of the loop, with `drain_close_event`. -/
  | leaving (drainCloseEvent : Bool)
  | left (drainCloseEvent : Bool)
  /-- The receiver is dropped; the room is still to be tidied. -/
  | dropped
  | gone
deriving DecidableEq, Repr

inductive Forwarder
  | unspawned
  | running
  | ended
deriving DecidableEq, Repr

structure Socket where
  channel : ChannelId
  /-- The receiver's place in the channel. -/
  next : Nat
  handler : Handler
  forwarder : Forwarder
  commands : List SocketCommand
  known : List UpdateId
  /-- A close was sent, or the transport is broken. -/
  closed : Bool
deriving DecidableEq, Repr

structure Room where
  /-- The history of every channel there ever was for the document. -/
  channels : List (List RoomEvent)
  /-- The channel that the registry holds for the document. -/
  registered : Option ChannelId
  sockets : List Socket
  /-- The socket that sent each accepted update, in the order of commits. -/
  authors : List SocketId
deriving DecidableEq, Repr

def Room.empty : Room where
  channels := []
  registered := none
  sockets := []
  authors := []

/-- The handler holds the receiver until it hands it to the forwarder. -/
def Socket.hasReceiver (socket : Socket) : Bool :=
  socket.forwarder = .running ∨ socket.handler = .subscribed ∨ socket.handler = .revalidated
    ∨ socket.handler = .loaded ∨ socket.handler = .bootstrapped

/-- The handler has not spawned its forwarder, and will not once it is dropped. -/
def Handler.isUnspawned : Handler → Bool
  | .subscribed | .revalidated | .loaded | .bootstrapped | .dropped | .gone => true
  | _ => false

/-- The handler is past its bootstrap and has not given its receiver up. -/
def Handler.isBootstrapped : Handler → Bool
  | .subscribed | .revalidated | .dropped | .gone => false
  | _ => true

/-- A socket with a bootstrap state that nothing has closed yet. -/
def Socket.isFollowing (socket : Socket) : Bool :=
  socket.handler.isBootstrapped && !socket.closed

/-- The handler accepted the update and has still to broadcast it. -/
def Handler.isPublishing (update : UpdateId) : Handler → Bool
  | .accepted update' _ | .acknowledged update' _ => update' = update
  | _ => false

namespace Room

def socketAt (room : Room) (id : SocketId) : Option Socket :=
  room.sockets[id]?

def events (room : Room) (channel : ChannelId) : List RoomEvent :=
  room.channels[channel]?.getD []

def setSocket (room : Room) (id : SocketId) (socket : Socket) : Room :=
  { room with sockets := room.sockets.set id socket }

/-- `sender.send(event)`; without a receiver nobody sees it. -/
def send (room : Room) (channel : ChannelId) (event : RoomEvent) : Room :=
  { room with channels := room.channels.modify channel (· ++ [event]) }

/-- `receiver_count` is zero. -/
def isIdle (room : Room) (channel : ChannelId) : Bool :=
  room.sockets.all fun socket => !(socket.hasReceiver && socket.channel = channel)

/-! ### Sockets and channels of a changed room -/

@[simp] theorem setSocket_authors (room : Room) (id : SocketId) (socket : Socket) :
    (room.setSocket id socket).authors = room.authors := rfl

@[simp] theorem setSocket_registered (room : Room) (id : SocketId) (socket : Socket) :
    (room.setSocket id socket).registered = room.registered := rfl

@[simp] theorem setSocket_channels (room : Room) (id : SocketId) (socket : Socket) :
    (room.setSocket id socket).channels = room.channels := rfl

@[simp] theorem setSocket_events (room : Room) (id : SocketId) (socket : Socket)
    (channel : ChannelId) : (room.setSocket id socket).events channel = room.events channel := rfl

section

variable (room : Room) (channel : ChannelId) (event : RoomEvent)

@[simp] theorem send_socketAt (id : SocketId)
    : (room.send channel event).socketAt id = room.socketAt id := rfl

@[simp] theorem send_authors : (room.send channel event).authors = room.authors := rfl

@[simp] theorem send_registered : (room.send channel event).registered = room.registered := rfl

@[simp] theorem send_channels_length :
    (room.send channel event).channels.length = room.channels.length := by
  simp [send]

end

variable {room : Room}

/-- A socket of a room with one socket replaced is that one or an old one. -/
theorem socketAt_setSocket {id other : SocketId} {socket found : Socket}
    (h : (room.setSocket id socket).socketAt other = some found) :
    (other = id ∧ found = socket) ∨ (other ≠ id ∧ room.socketAt other = some found) := by
  simp only [socketAt, setSocket, List.getElem?_set] at h
  by_cases hid : id = other
  · left
    simp only [hid, if_true] at h
    split at h
    · exact ⟨hid.symm, (Option.some.inj h).symm⟩
    · simp at h
  · right
    simp only [hid, if_false] at h
    exact ⟨fun heq => hid heq.symm, h⟩

theorem socketAt_setSocket_self {id : SocketId} {old socket : Socket}
    (h : room.socketAt id = some old) :
    (room.setSocket id socket).socketAt id = some socket := by
  have hlt : id < room.sockets.length := (List.getElem?_eq_some_iff.mp h).1
  simp [socketAt, setSocket, hlt]

theorem socketAt_setSocket_of_ne {id other : SocketId} (socket : Socket) (hne : other ≠ id) :
    (room.setSocket id socket).socketAt other = room.socketAt other := by
  simp [socketAt, setSocket, List.getElem?_set_ne hne.symm]

theorem events_send_self {channel : ChannelId} (event : RoomEvent)
    (h : channel < room.channels.length) :
    (room.send channel event).events channel = room.events channel ++ [event] := by
  simp [send, events, List.getElem?_eq_getElem h]

theorem events_send_of_ne {channel other : ChannelId} (event : RoomEvent)
    (hne : other ≠ channel) :
    (room.send channel event).events other = room.events other := by
  simp [send, events, hne.symm]

theorem events_send_cases (room : Room) (channel other : ChannelId) (event : RoomEvent) :
    (room.send channel event).events other = room.events other
      ∨ (room.send channel event).events other = room.events other ++ [event] := by
  by_cases hne : other = channel
  · subst hne
    by_cases hlt : other < room.channels.length
    · exact .inr (events_send_self event hlt)
    · left
      have hnone : room.channels[other]? = none := List.getElem?_eq_none (not_lt.mp hlt)
      simp [send, events, hnone]
  · exact .inl (events_send_of_ne event hne)

/-- Sending lengthens a channel's history and changes nothing that is in it. -/
theorem events_send (room : Room) (channel other : ChannelId) (event : RoomEvent) :
    ∃ later, (room.send channel event).events other = room.events other ++ later := by
  rcases events_send_cases room channel other event with h | h
  · exact ⟨[], by rw [h, List.append_nil]⟩
  · exact ⟨[event], h⟩

/-- A socket of a room with one socket more is that one or an old one. -/
theorem socketAt_append {channels : List (List RoomEvent)}
    {registered : Option ChannelId} {id : SocketId} {socket found : Socket} (h : socketAt
      { room with
        channels := channels
        registered := registered
        sockets := room.sockets ++ [socket] } id = some found) :
    room.socketAt id = some found ∨ found = socket := by
  simp only [socketAt, List.getElem?_append] at h
  split at h
  · exact .inl h
  right
  rw [List.getElem?_singleton] at h
  split at h
  · exact (Option.some.inj h).symm
  · simp at h

end Room

/-! ## Steps -/

/-- `SOCKET_EVENT_BUFFER`. -/
def socketEventBuffer : Nat := 8

/-- The capacity of `broadcast::channel`. -/
def roomEventBuffer : Nat := 512

inductive Action
  | subscribe
  /-- `revalidate_new_subscription`; otherwise a terminal event closes the socket. -/
  | revalidate (id : SocketId) (current : Bool)
  | loadBootstrap (id : SocketId) (ok : Bool)
  | sendBootstrap (id : SocketId) (ok : Bool)
  /-- The join is announced and the forwarder is spawned. -/
  | join (id : SocketId)
  /-- A message arrives whose update `persist_yjs_event` accepts. -/
  | persist (id : SocketId) (kind : PersistedUpdateKind)
  /-- The loop ends with a terminal event for the client. -/
  | terminate (id : SocketId) (refusal : Refusal)
  | acknowledge (id : SocketId)
  | broadcast (id : SocketId)
  /-- A presence message, which is not persisted. -/
  | present (id : SocketId) (kind : RoomEventKind)
  /-- No further message: the client closed, or its transport failed. -/
  | disconnect (id : SocketId)
  /-- The service drains. -/
  | restart (id : SocketId)
  | leave (id : SocketId)
  | finishForwarder (id : SocketId)
  | removeIfIdle (id : SocketId)
  /-- The forwarder takes a queued command; `ok` says whether the send worked. -/
  | forwardCommand (id : SocketId) (ok : Bool)
  /-- The forwarder takes a room event. -/
  | forwardRoomEvent (id : SocketId) (ok : Bool)
  /-- `broadcast_project` reaches the registered channel. -/
  | broadcastProject (kind : RoomEventKind)
deriving DecidableEq, Repr

/-- `socket_sender.send(command).await`: it waits while the queue is full; it
fails once the forwarder has dropped its end, and says so. -/
def enqueue (socket : Socket) (command : SocketCommand) : Option (Socket × Bool) :=
  if socket.forwarder = .ended then some (socket, false)
  else if socket.commands.length < socketEventBuffer then
    some ({ socket with commands := socket.commands ++ [command] }, true)
  else none

/-- What the forwarder does with an event it took: one that closes the stream,
or that cannot be sent, is its last. -/
def forward (socket : Socket) (event : RoomEvent) (ok : Bool) : Socket :=
  if !ok then { socket with forwarder := .ended, closed := true }
  else
    let socket := { socket with known := socket.known ++ event.update.toList }
    if event.closesStream then { socket with forwarder := .ended, closed := true }
    else socket

/-- The socket gave its receiver up and is closed; the room is tidied next. -/
def drop (socket : Socket) : Socket :=
  { socket with handler := .dropped, closed := true }

/-- `CollaborationRooms::subscribe` under the registry's lock. -/
def subscribe (room : Room) : Room :=
  let socket (channel : ChannelId) (next : Nat) : Socket :=
    { channel, next, handler := .subscribed, forwarder := .unspawned, commands := [],
      known := [], closed := false }
  match room.registered with
  | some channel =>
    { room with sockets := room.sockets ++ [socket channel (room.events channel).length] }
  | none =>
    { room with
      channels := room.channels ++ [[]]
      registered := some room.channels.length
      sockets := room.sockets ++ [socket room.channels.length 0] }

/-- The steps of `handle_socket` before its loop. -/
def stepOpening (room : Room) (id : SocketId) (socket : Socket) : Action → Option Room
  | .revalidate _ current =>
    if socket.handler = .subscribed then
      some (room.setSocket id
        (if current then { socket with handler := .revalidated } else drop socket))
    else none
  | .loadBootstrap _ ok =>
    if socket.handler = .revalidated then
      some (room.setSocket id
        (if ok then
          { socket with handler := .loaded, known := List.range room.authors.length }
        else drop socket))
    else none
  | .sendBootstrap _ ok =>
    if socket.handler = .loaded then
      some (room.setSocket id
        (if ok then { socket with handler := .bootstrapped } else drop socket))
    else none
  | .join _ =>
    if socket.handler = .bootstrapped then
      some ((room.send socket.channel (.system .presenceJoin)).setSocket id
        { socket with handler := .serving, forwarder := .running })
    else none
  | _ => none

/-- The steps of the loop of `handle_socket`. -/
def stepServing (room : Room) (id : SocketId) (socket : Socket) : Action → Option Room
  | .persist _ kind =>
    if socket.handler = .serving then
      some ({ room with authors := room.authors ++ [id] }.setSocket id
        { socket with handler := .accepted room.authors.length kind })
    else none
  | .terminate _ refusal =>
    if socket.handler = .serving then
      (enqueue socket (.event refusal.event)).map fun (socket, queued) =>
        room.setSocket id { socket with handler := .leaving queued }
    else none
  | .acknowledge _ =>
    match socket.handler with
    | .accepted update kind =>
      (enqueue socket (.event (.system .yjsAck))).map fun (socket, queued) =>
        room.setSocket id
          { socket with
            handler := if queued then .acknowledged update kind else .leaving false }
    | _ => none
  | .broadcast _ =>
    match socket.handler with
    | .acknowledged update kind =>
      some ((room.send socket.channel (.yjs kind update)).setSocket id
        { socket with handler := .serving })
    | _ => none
  | .present _ kind =>
    if socket.handler = .serving ∧ (kind = .presenceMetadata ∨ kind = .presenceCursor) then
      some (room.send socket.channel (.system kind))
    else none
  | .disconnect _ =>
    if socket.handler = .serving then
      some (room.setSocket id { socket with handler := .leaving false })
    else none
  | .restart _ =>
    if socket.handler = .serving then
      (enqueue socket .serviceRestart).map fun (socket, queued) =>
        room.setSocket id { socket with handler := .leaving queued }
    else none
  | _ => none

/-- The steps of `handle_socket` after its loop. -/
def stepLeaving (room : Room) (id : SocketId) (socket : Socket) : Action → Option Room
  | .leave _ =>
    match socket.handler with
    | .leaving drainCloseEvent =>
      some ((room.send socket.channel (.system .presenceLeave)).setSocket id
        { socket with handler := .left drainCloseEvent })
    | _ => none
  | .finishForwarder _ =>
    match socket.handler with
    | .left drainCloseEvent =>
      -- a close that is still queued is waited for; otherwise the task is aborted
      if drainCloseEvent ∧ socket.forwarder ≠ .ended then none
      else some (room.setSocket id
        { socket with handler := .dropped, forwarder := .ended, closed := true })
    | _ => none
  | .removeIfIdle _ =>
    if socket.handler = .dropped then
      let room := if room.registered = some socket.channel ∧ room.isIdle socket.channel
        then { room with registered := none } else room
      some (room.setSocket id { socket with handler := .gone })
    else none
  | _ => none

/-- The steps of `forward_room_events`. -/
def stepForwarding (room : Room) (id : SocketId) (socket : Socket) : Action → Option Room
  | .forwardCommand _ ok =>
    if socket.forwarder = .running then
      match socket.commands with
      | [] => none
      | .event event :: commands =>
        some (room.setSocket id (forward { socket with commands } event ok))
      | .serviceRestart :: commands =>
        some (room.setSocket id { socket with commands, forwarder := .ended, closed := true })
    else none
  | .forwardRoomEvent _ ok =>
    if socket.forwarder = .running then
      match receive roomEventBuffer (room.events socket.channel) socket.next with
      | .empty => none
      | .message event =>
        some (room.setSocket id (forward { socket with next := socket.next + 1 } event ok))
      | .lagged =>
        -- the resync error is sent, then the close
        some (room.setSocket id { socket with forwarder := .ended, closed := true })
    else none
  | _ => none

def Action.socket : Action → Option SocketId
  | .subscribe | .broadcastProject _ => none
  | .revalidate id _ | .loadBootstrap id _ | .sendBootstrap id _ | .join id | .persist id _
  | .terminate id _ | .acknowledge id | .broadcast id | .present id _ | .disconnect id
  | .restart id | .leave id | .finishForwarder id | .removeIfIdle id | .forwardCommand id _
  | .forwardRoomEvent id _ => some id

def step (room : Room) (action : Action) : Option Room :=
  match action with
  | .subscribe => some (subscribe room)
  | .broadcastProject kind =>
    match room.registered with
    | some channel =>
      if kind = .projectReplaced ∨ kind = .accessChanged then
        some (room.send channel (.system kind))
      else none
    | none => none
  | action =>
    match action.socket with
    | none => none
    | some id =>
      match room.socketAt id with
      | none => none
      | some socket =>
        match action with
        | .revalidate .. | .loadBootstrap .. | .sendBootstrap .. | .join .. =>
          stepOpening room id socket action
        | .leave .. | .finishForwarder .. | .removeIfIdle .. => stepLeaving room id socket action
        | .forwardCommand .. | .forwardRoomEvent .. => stepForwarding room id socket action
        | action => stepServing room id socket action

end Toss.Collaboration.Rooms
