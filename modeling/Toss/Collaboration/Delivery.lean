import Toss.Collaboration.RoomSteps

/-!
# Delivery of persisted updates to the sockets of a room

An accepted update reaches another socket of the room inside its bootstrap
state or as a room event. The invariant says where it is in between: already
sent to the socket, waiting at or after the place of its receiver, or still to
be broadcast by the handler that persisted it.

* `NoSilentMiss` — the property, of one state of a room;
* `Inv` — with the registry facts that carry it;
* `step_inv` — every step keeps it, unless it drops an update whose
  acknowledgement found the sender's own forwarder gone.
-/

namespace Toss.Collaboration.Rooms

open Toss.Foundation

namespace Room

/-- The socket's client was sent the update, or its receiver will come to it. -/
def Sees (room : Room) (socket : Socket) (update : UpdateId) : Prop :=
  update ∈ socket.known
    ∨ PendingAt (fun event : RoomEvent => event.update = some update)
        (room.events socket.channel) socket.next

/-- The handler of the socket has still to broadcast the update. -/
def IsPublishing (room : Room) (id : SocketId) (update : UpdateId) : Prop :=
  ∃ socket, room.socketAt id = some socket ∧ socket.handler.isPublishing update = true

/-- Every open socket with a bootstrap state sees every accepted update of the
others, but for those whose sender is still on its way to broadcast them. -/
def NoSilentMiss (room : Room) : Prop :=
  ∀ update author, room.authors[update]? = some author →
    ∀ id socket, room.socketAt id = some socket → id ≠ author → socket.isFollowing = true →
      room.Sees socket update ∨ room.IsPublishing author update

/-! ## Seeing and publishing -/

theorem isPublishing_self {room : Room} {id : SocketId} {socket : Socket} {update : UpdateId}
    (h : room.socketAt id = some socket) :
    room.IsPublishing id update ↔ socket.handler.isPublishing update = true := by
  constructor
  · rintro ⟨found, hfound, hpublishing⟩
    obtain rfl : found = socket := Option.some.inj (hfound.symm.trans h)
    exact hpublishing
  · intro hpublishing
    exact ⟨socket, h, hpublishing⟩

theorem isPublishing_setSocket_of_ne {room : Room} {id author : SocketId} {socket : Socket}
    {update : UpdateId} (hne : author ≠ id) :
    (room.setSocket id socket).IsPublishing author update ↔ room.IsPublishing author update := by
  simp only [IsPublishing, socketAt_setSocket_of_ne socket hne]

theorem Sees.send {room : Room} {socket : Socket} {update : UpdateId}
    (h : room.Sees socket update) (channel : ChannelId) (event : RoomEvent) :
    (room.send channel event).Sees socket update := by
  rcases h with hknown | hpending
  · exact .inl hknown
  right
  rcases room.events_send channel socket.channel event with ⟨later, hlater⟩
  rw [hlater]
  exact hpending.append later

end Room

/-! ## The inductive invariant -/

/-- How the sockets hang on the channels. -/
structure Wired (room : Room) : Prop where
  /-- Whoever holds a receiver holds one of the registered channel. -/
  registered : ∀ id socket, room.socketAt id = some socket → socket.hasReceiver = true →
    room.registered = some socket.channel
  channels : ∀ id socket, room.socketAt id = some socket → socket.channel < room.channels.length
  registeredChannel : ∀ channel, room.registered = some channel → channel < room.channels.length
  places : ∀ id socket, room.socketAt id = some socket →
    socket.next ≤ (room.events socket.channel).length
  /-- An open socket past its bootstrap has a receiver. -/
  live : ∀ id socket, room.socketAt id = some socket → socket.isFollowing = true →
    socket.hasReceiver = true
  spawned : ∀ id socket, room.socketAt id = some socket → socket.forwarder = .unspawned →
    socket.handler.isUnspawned = true

structure Inv (room : Room) : Prop where
  wired : Wired room
  authored : ∀ id socket update, room.socketAt id = some socket →
    socket.handler.isPublishing update = true → room.authors[update]? = some id
  /-- An acknowledged update is about to go to the channel of whoever needs it. -/
  reaches : ∀ author socket update kind, room.socketAt author = some socket →
    socket.handler = .acknowledged update kind →
      ∀ id other, room.socketAt id = some other → id ≠ author → other.isFollowing = true →
        room.Sees other update ∨ other.channel = socket.channel
  delivered : room.NoSilentMiss

theorem init_inv : Inv Room.empty where
  wired :=
    { registered := by simp [Room.empty, Room.socketAt]
      channels := by simp [Room.empty, Room.socketAt]
      registeredChannel := by simp [Room.empty]
      places := by simp [Room.empty, Room.socketAt]
      live := by simp [Room.empty, Room.socketAt]
      spawned := by simp [Room.empty, Room.socketAt] }
  authored := by simp [Room.empty, Room.socketAt]
  reaches := by simp [Room.empty, Room.socketAt]
  delivered := by simp [Room.NoSilentMiss, Room.empty]

/-- A socket that keeps its channel and takes no receiver it did not have. -/
structure Rewired (room : Room) (socket socket' : Socket) : Prop where
  channel : socket'.channel = socket.channel
  place : socket'.next ≤ (room.events socket.channel).length
  receiver : socket'.hasReceiver = true → socket.hasReceiver = true
  live : socket'.isFollowing = true → socket'.hasReceiver = true
  spawned : socket'.forwarder = .unspawned → socket'.handler.isUnspawned = true

/-- The handler moves on inside the loop; receiver and forwarder stay. -/
theorem Rewired.relabel {room : Room} {id : SocketId} {socket : Socket} (hwired : Wired room)
    (hsocket : room.socketAt id = some socket) (hfrom : socket.handler.isUnspawned = false)
    (handler : Handler) (hto : handler.isUnspawned = false) (commands : List SocketCommand) :
    Rewired room socket { socket with handler := handler, commands := commands } := by
  have hspawned : socket.forwarder ≠ .unspawned := by
    intro h
    have := hwired.spawned id socket hsocket h
    simp [hfrom] at this
  have hbootstrapped : socket.handler.isBootstrapped = true := by
    cases h : socket.handler <;> simp_all [Handler.isUnspawned, Handler.isBootstrapped]
  have hreceiver : ∀ h : Handler, h.isUnspawned = false →
      ({ socket with handler := h, commands := commands } : Socket).hasReceiver
        = decide (socket.forwarder = .running) := by
    intro h hh
    cases h <;> simp_all [Handler.isUnspawned, Socket.hasReceiver]
  refine
    { channel := rfl, place := hwired.places id socket hsocket, receiver := ?_, live := ?_,
      spawned := fun h => absurd h hspawned }
  · intro h
    rw [hreceiver handler hto] at h
    simp [Socket.hasReceiver, of_decide_eq_true h]
  · intro h
    have hlive := hwired.live id socket hsocket
      (by simpa [Socket.isFollowing, hbootstrapped] using (Bool.and_eq_true_iff.mp h).2)
    rw [hreceiver handler hto, ← hreceiver socket.handler hfrom]
    exact hlive

namespace Wired

variable {room : Room} {id : SocketId} {socket socket' : Socket}

theorem send (hwired : Wired room) (channel : ChannelId) (event : RoomEvent) :
    Wired (room.send channel event) where
  registered := hwired.registered
  channels := by simpa using hwired.channels
  registeredChannel := by simpa using hwired.registeredChannel
  places := by
    intro id socket hsocket
    rcases room.events_send channel socket.channel event with ⟨later, hlater⟩
    have hplace := hwired.places id socket hsocket
    rw [hlater, List.length_append]
    omega
  live := hwired.live
  spawned := hwired.spawned

theorem move (hwired : Wired room) (hsocket : room.socketAt id = some socket)
    (hmove : Rewired room socket socket') : Wired (room.setSocket id socket') where
  registered := by
    intro other found hfound hreceiver
    rcases Room.socketAt_setSocket hfound with ⟨rfl, rfl⟩ | ⟨-, hold⟩
    · rw [hmove.channel]
      exact hwired.registered other socket hsocket (hmove.receiver hreceiver)
    · exact hwired.registered other found hold hreceiver
  channels := by
    intro other found hfound
    rcases Room.socketAt_setSocket hfound with ⟨rfl, rfl⟩ | ⟨-, hold⟩
    · rw [hmove.channel]
      exact hwired.channels other socket hsocket
    · exact hwired.channels other found hold
  registeredChannel := hwired.registeredChannel
  places := by
    intro other found hfound
    rcases Room.socketAt_setSocket hfound with ⟨rfl, rfl⟩ | ⟨-, hold⟩
    · rw [hmove.channel]
      exact hmove.place
    · exact hwired.places other found hold
  live := by
    intro other found hfound hfollowing
    rcases Room.socketAt_setSocket hfound with ⟨rfl, rfl⟩ | ⟨-, hold⟩
    · exact hmove.live hfollowing
    · exact hwired.live other found hold hfollowing
  spawned := by
    intro other found hfound hforwarder
    rcases Room.socketAt_setSocket hfound with ⟨rfl, rfl⟩ | ⟨-, hold⟩
    · exact hmove.spawned hforwarder
    · exact hwired.spawned other found hold hforwarder

/-- The registry forgets a channel only when nobody holds a receiver of it. -/
theorem removeIfIdle (hwired : Wired room) {channel : ChannelId}
    (hidle : room.isIdle channel = true) (hregistered : room.registered = some channel) :
    Wired { room with registered := none } :=
  { hwired with
    registered := by
      intro id socket hsocket hreceiver
      exfalso
      have hchannel := hwired.registered id socket hsocket hreceiver
      obtain rfl : channel = socket.channel := Option.some.inj (hregistered.symm.trans hchannel)
      have hmem : socket ∈ room.sockets := List.mem_of_getElem? hsocket
      have hall := List.all_eq_true.mp hidle socket hmem
      simp [hreceiver] at hall
    registeredChannel := by simp }

end Wired

/-- A socket that moves without publishing anything: what it saw it still sees. -/
structure Quiet (room : Room) (socket socket' : Socket) : Prop where
  rewired : Rewired room socket socket'
  sees : ∀ update, update < room.authors.length → socket'.isFollowing = true →
    (socket.isFollowing = true → room.Sees socket update) → room.Sees socket' update
  handler : ∀ update, socket'.handler.isPublishing update = socket.handler.isPublishing update
  acknowledged : ∀ update kind, socket'.handler = .acknowledged update kind →
    socket.handler = .acknowledged update kind

namespace Inv

variable {room : Room} {id : SocketId} {socket socket' : Socket} {update : UpdateId}
variable {kind : PersistedUpdateKind}

/-- A socket that publishes nothing sees every accepted update of the others. -/
theorem sees_of_not_publishing (hinv : Inv room) {author other : SocketId} {found : Socket}
    (hauthor : room.authors[update]? = some author) (hfound : room.socketAt other = some found)
    (hne : other ≠ author) (hfollowing : found.isFollowing = true)
    (hquiet : ¬ room.IsPublishing author update) : room.Sees found update := by
  rcases hinv.delivered update author hauthor other found hfound hne hfollowing with h | h
  · exact h
  · exact absurd h hquiet

/-- Sending an event to a channel keeps the invariant. -/
theorem send (hinv : Inv room) (channel : ChannelId) (event : RoomEvent) :
    Inv (room.send channel event) where
  wired := hinv.wired.send channel event
  authored := hinv.authored
  reaches := by
    intro author socket update kind hsocket hhandler id other hother hne hfollowing
    rcases hinv.reaches author socket update kind hsocket hhandler id other hother hne hfollowing
      with hsees | hchannel
    · exact .inl (hsees.send channel event)
    · exact .inr hchannel
  delivered := by
    intro update author hauthor id socket hsocket hne hfollowing
    rcases hinv.delivered update author hauthor id socket hsocket hne hfollowing
      with hsees | hpublishing
    · exact .inl (hsees.send channel event)
    · exact .inr hpublishing

/-- A quiet move of one socket keeps the invariant. -/
theorem move (hinv : Inv room) (hsocket : room.socketAt id = some socket)
    (hquiet : Quiet room socket socket') : Inv (room.setSocket id socket') where
  wired := hinv.wired.move hsocket hquiet.rewired
  authored := by
    intro other found update hfound hpublishing
    rcases Room.socketAt_setSocket hfound with ⟨rfl, rfl⟩ | ⟨-, hold⟩
    · rw [hquiet.handler] at hpublishing
      exact hinv.authored other socket update hsocket hpublishing
    · exact hinv.authored other found update hold hpublishing
  reaches := by
    intro author sender update kind hsender hhandler other found hfound hne hfollowing
    -- the sender was acknowledged before the move as well
    have hsender' : ∃ sender', room.socketAt author = some sender'
        ∧ sender'.handler = .acknowledged update kind ∧ sender'.channel = sender.channel := by
      rcases Room.socketAt_setSocket hsender with ⟨rfl, rfl⟩ | ⟨-, hold⟩
      · exact ⟨socket, hsocket, hquiet.acknowledged update kind hhandler,
          hquiet.rewired.channel.symm⟩
      · exact ⟨sender, hold, hhandler, rfl⟩
    rcases hsender' with ⟨sender', hold, hhandler', hchannel⟩
    have hauthored : room.authors[update]? = some author :=
      hinv.authored author sender' update hold (by simp [hhandler', Handler.isPublishing])
    have hupdate : update < room.authors.length := (List.getElem?_eq_some_iff.mp hauthored).1
    rcases Room.socketAt_setSocket hfound with ⟨rfl, rfl⟩ | ⟨-, hfoundOld⟩
    · by_cases hbefore : socket.isFollowing = true
      · rcases hinv.reaches author sender' update kind hold hhandler' other socket hsocket hne
          hbefore with hsees | hsame
        · exact .inl (hquiet.sees update hupdate hfollowing fun _ => hsees)
        · right
          rw [hquiet.rewired.channel, hsame, hchannel]
      · exact .inl (hquiet.sees update hupdate hfollowing fun h => absurd h hbefore)
    · rw [← hchannel]
      exact hinv.reaches author sender' update kind hold hhandler' other found hfoundOld hne
        hfollowing
  delivered := by
    intro update author hauthor other found hfound hne hfollowing
    have hupdate : update < room.authors.length := (List.getElem?_eq_some_iff.mp hauthor).1
    have hpublishing : room.IsPublishing author update →
        (room.setSocket id socket').IsPublishing author update := by
      intro hpub
      by_cases hid : author = id
      · subst hid
        rw [Room.isPublishing_self hsocket] at hpub
        exact ⟨socket', Room.socketAt_setSocket_self hsocket, by rw [hquiet.handler, hpub]⟩
      · exact (Room.isPublishing_setSocket_of_ne hid).mpr hpub
    rcases Room.socketAt_setSocket hfound with ⟨rfl, rfl⟩ | ⟨-, hfoundOld⟩
    · by_cases hbefore : socket.isFollowing = true
      · rcases hinv.delivered update author hauthor other socket hsocket hne hbefore
          with hsees | hpub
        · exact .inl (hquiet.sees update hupdate hfollowing fun _ => hsees)
        · exact .inr (hpublishing hpub)
      · exact .inl (hquiet.sees update hupdate hfollowing fun h => absurd h hbefore)
    · rcases hinv.delivered update author hauthor other found hfoundOld hne hfollowing
        with hsees | hpub
      · exact .inl hsees
      · exact .inr (hpublishing hpub)

/-- A new socket: a receiver of the registered channel, no bootstrap state yet. -/
theorem append (hinv : Inv room) {channels : List (List RoomEvent)}
    (hwired : Wired
      { room with
        channels := channels
        registered := some socket.channel
        sockets := room.sockets ++ [socket] })
    (hhandler : socket.handler = .subscribed) (hevents : ∀ c, channels[c]?.getD [] = room.events c) :
    Inv
      { room with
        channels := channels
        registered := some socket.channel
        sockets := room.sockets ++ [socket] } := by
  -- a socket that has just joined follows nobody yet
  have hunfollowed : socket.isFollowing = false := by
    simp [Socket.isFollowing, Handler.isBootstrapped, hhandler]
  have hsees : ∀ found update, room.Sees found update → Room.Sees
      { room with
        channels := channels
        registered := some socket.channel
        sockets := room.sockets ++ [socket] } found update := by
    intro found update h
    rcases h with hknown | hpending
    · exact .inl hknown
    · right
      show PendingAt _ (channels[found.channel]?.getD []) found.next
      rwa [hevents]
  refine { wired := hwired, authored := ?_, reaches := ?_, delivered := ?_ }
  · intro id found update hfound hpublishing
    rcases Room.socketAt_append hfound with h | rfl
    · exact hinv.authored id found update h hpublishing
    · simp [hhandler, Handler.isPublishing] at hpublishing
  · intro author sender update kind hsender hacknowledged id found hfound hne hfollowing
    rcases Room.socketAt_append hsender with hsender | rfl
    · rcases Room.socketAt_append hfound with hfound | rfl
      · rcases hinv.reaches author sender update kind hsender hacknowledged id found hfound hne
          hfollowing with h | hchannel
        · exact .inl (hsees found update h)
        · exact .inr hchannel
      · simp [hunfollowed] at hfollowing
    · simp [hhandler] at hacknowledged
  · intro update author hauthor id found hfound hne hfollowing
    rcases Room.socketAt_append hfound with hfound | rfl
    · rcases hinv.delivered update author hauthor id found hfound hne hfollowing
        with h | ⟨sender, hsender, hpublishing⟩
      · exact .inl (hsees found update h)
      · refine .inr ⟨sender, ?_, hpublishing⟩
        rw [Room.socketAt, List.getElem?_append_left (List.getElem?_eq_some_iff.mp hsender).1]
        exact hsender
    · simp [hunfollowed] at hfollowing

/-- A step by which the handler of one socket takes an update on, passes it on
or lets go of it. `mid` is the room after the commit or the broadcast that goes
with the step. -/
theorem republish (hinv : Inv room) (hsocket : room.socketAt id = some socket) {mid : Room}
    (hmid : ∀ other, mid.socketAt other = room.socketAt other)
    (hwired : Wired (mid.setSocket id socket'))
    (hchannel : socket'.channel = socket.channel)
    (hfollowing : socket'.isFollowing = true → socket.isFollowing = true)
    (hkept : ∀ u, room.Sees socket u → mid.Sees socket' u)
    (hsees : ∀ found u, room.Sees found u → mid.Sees found u)
    (hold : ∀ (u : UpdateId) (a : SocketId), room.authors[u]? = some a → mid.authors[u]? = some a)
    (hothers : ∀ (u : UpdateId) (a : SocketId), a ≠ id → mid.authors[u]? = some a →
      room.authors[u]? = some a)
    (hauthored : ∀ u, socket'.handler.isPublishing u = true → mid.authors[u]? = some id)
    (hreaches : ∀ u k, socket'.handler = .acknowledged u k → ∀ other found, other ≠ id →
      room.socketAt other = some found → found.isFollowing = true →
        mid.Sees found u ∨ found.channel = socket.channel)
    (hdelivered : ∀ u, mid.authors[u]? = some id → socket'.handler.isPublishing u = true
      ∨ ∀ other found, other ≠ id → room.socketAt other = some found →
        found.isFollowing = true → mid.Sees found u) :
    Inv (mid.setSocket id socket') := by
  have hsocketMid : mid.socketAt id = some socket := (hmid id).trans hsocket
  refine { wired := hwired, authored := ?_, reaches := ?_, delivered := ?_ }
  · intro other found u hfound hpublishing
    rcases Room.socketAt_setSocket hfound with ⟨rfl, rfl⟩ | ⟨-, hfound⟩
    · exact hauthored u hpublishing
    · rw [hmid] at hfound
      exact hold u other (hinv.authored other found u hfound hpublishing)
  · intro author sender u k hsender hhandler other found hfound hne hfollows
    rcases Room.socketAt_setSocket hsender with ⟨rfl, rfl⟩ | ⟨-, hsenderOld⟩
    · -- the socket of the step is the sender
      rcases Room.socketAt_setSocket hfound with ⟨rfl, -⟩ | ⟨hother, hfound⟩
      · exact absurd rfl hne
      · rw [hmid] at hfound
        rw [hchannel]
        exact hreaches u k hhandler other found hother hfound hfollows
    · rw [hmid] at hsenderOld
      rcases Room.socketAt_setSocket hfound with ⟨rfl, rfl⟩ | ⟨-, hfound⟩
      · -- the socket of the step is the one to be reached
        rcases hinv.reaches author sender u k hsenderOld hhandler other socket hsocket hne
          (hfollowing hfollows) with h | h
        · exact .inl (hkept u h)
        · exact .inr (hchannel.trans h)
      · rw [hmid] at hfound
        rcases hinv.reaches author sender u k hsenderOld hhandler other found hfound hne hfollows
          with h | h
        · exact .inl (hsees found u h)
        · exact .inr h
  · intro u author hauthor other found hfound hne hfollows
    change mid.authors[u]? = some author at hauthor
    by_cases hid : author = id
    · -- an update of the socket of the step
      subst hid
      rcases Room.socketAt_setSocket hfound with ⟨rfl, -⟩ | ⟨hother, hfound⟩
      · exact absurd rfl hne
      rw [hmid] at hfound
      rcases hdelivered u hauthor with hpublishing | hseen
      · exact .inr ⟨socket', Room.socketAt_setSocket_self hsocketMid, hpublishing⟩
      · exact .inl (hseen other found hother hfound hfollows)
    · -- an update of another socket
      have hpublishing : room.IsPublishing author u →
          (mid.setSocket id socket').IsPublishing author u := by
        rintro ⟨sender, hsender, hhandler⟩
        refine ⟨sender, ?_, hhandler⟩
        rw [Room.socketAt_setSocket_of_ne socket' hid, hmid]
        exact hsender
      have hauthorOld := hothers u author hid hauthor
      rcases Room.socketAt_setSocket hfound with ⟨rfl, rfl⟩ | ⟨-, hfound⟩
      · rcases hinv.delivered u author hauthorOld other socket hsocket hne (hfollowing hfollows)
          with h | h
        · exact .inl (hkept u h)
        · exact .inr (hpublishing h)
      · rw [hmid] at hfound
        rcases hinv.delivered u author hauthorOld other found hfound hne hfollows with h | h
        · exact .inl (hsees found u h)
        · exact .inr (hpublishing h)

/-- The updates a socket is not publishing are seen by everybody else. -/
theorem others_see (hinv : Inv room) (hsocket : room.socketAt id = some socket) {u : UpdateId}
    (hauthor : room.authors[u]? = some id) (hquiet : socket.handler.isPublishing u = false) :
    ∀ other found, other ≠ id → room.socketAt other = some found → found.isFollowing = true →
      room.Sees found u := by
  intro other found hne hfound hfollowing
  rcases hinv.delivered u id hauthor other found hfound hne hfollowing with h | h
  · exact h
  · rw [Room.isPublishing_self hsocket, hquiet] at h
    simp at h

/-- An accepted update waits in its handler for the broadcast. -/
theorem persist (hinv : Inv room) (hsocket : room.socketAt id = some socket)
    (hserving : socket.handler = .serving) (kind : PersistedUpdateKind) :
    Inv ({ room with authors := room.authors ++ [id] }.setSocket id
      { socket with handler := .accepted room.authors.length kind }) := by
  have hmove := Rewired.relabel hinv.wired hsocket (by simp [hserving, Handler.isUnspawned])
    (.accepted room.authors.length kind) rfl socket.commands
  have hgrow : ∀ (u : UpdateId) (a : SocketId), room.authors[u]? = some a →
      (room.authors ++ [id])[u]? = some a := by
    intro u a h
    rw [List.getElem?_append_left (List.getElem?_eq_some_iff.mp h).1, h]
  -- the update that is numbered now has the socket for author
  have hnew : ∀ (u : UpdateId) (a : SocketId), (room.authors ++ [id])[u]? = some a →
      room.authors[u]? = some a ∨ (u = room.authors.length ∧ a = id) := by
    intro u a h
    rcases Nat.lt_trichotomy u room.authors.length with hlt | heq | hgt
    · rw [List.getElem?_append_left hlt] at h
      exact .inl h
    · right
      subst heq
      rw [List.getElem?_concat_length] at h
      exact ⟨rfl, (Option.some.inj h).symm⟩
    · have hnone : (room.authors ++ [id])[u]? = none := by
        apply List.getElem?_eq_none
        simp
        omega
      simp [hnone] at h
  refine hinv.republish hsocket (fun _ => rfl) { hinv.wired.move hsocket hmove with } rfl ?_
    (fun u h => h) (fun found u h => h) hgrow ?_ ?_ ?_ ?_
  · simp [Socket.isFollowing, Handler.isBootstrapped, hserving]
  · intro u a hne h
    rcases hnew u a h with h | ⟨-, h⟩
    · exact h
    · exact absurd h hne
  · intro u h
    obtain rfl : room.authors.length = u := by simpa [Handler.isPublishing] using h
    simp
  · intro u k h
    simp at h
  · intro u h
    rcases hnew u id h with h | ⟨rfl, -⟩
    · right
      exact hinv.others_see hsocket h (by simp [hserving, Handler.isPublishing])
    · left
      simp [Handler.isPublishing]

theorem acknowledge (hinv : Inv room) (hsocket : room.socketAt id = some socket)
    (haccepted : socket.handler = .accepted update kind)
    (hforwarder : socket.forwarder ≠ .ended) (commands : List SocketCommand) :
    Inv (room.setSocket id
      { socket with handler := .acknowledged update kind, commands := commands }) := by
  have hunspawned : socket.handler.isUnspawned = false := by
    simp [haccepted, Handler.isUnspawned]
  have hmove := Rewired.relabel hinv.wired hsocket hunspawned (.acknowledged update kind) rfl
    commands
  -- the forwarder is running, so the socket holds a receiver of the registered channel
  have hrunning : socket.forwarder = .running := by
    cases h : socket.forwarder with
    | unspawned =>
      have := hinv.wired.spawned id socket hsocket h
      simp [hunspawned] at this
    | running => rfl
    | ended => exact absurd h hforwarder
  have hregistered : room.registered = some socket.channel :=
    hinv.wired.registered id socket hsocket (by simp [Socket.hasReceiver, hrunning])
  refine hinv.republish hsocket (fun _ => rfl) (hinv.wired.move hsocket hmove) rfl ?_
    (fun u h => h) (fun found u h => h) (fun u a h => h) (fun u a _ h => h) ?_ ?_ ?_
  · simp [Socket.isFollowing, Handler.isBootstrapped, haccepted]
  · intro u h
    exact hinv.authored id socket u hsocket (by simpa [Handler.isPublishing, haccepted] using h)
  · intro u k _ other found _ hfound hfollowing
    right
    have hlive := hinv.wired.live other found hfound hfollowing
    have hother := hinv.wired.registered other found hfound hlive
    exact Option.some.inj (hother.symm.trans hregistered)
  · intro u h
    by_cases hu : u = update
    · left
      simp [Handler.isPublishing, hu]
    · right
      refine hinv.others_see hsocket h ?_
      simp [haccepted, Handler.isPublishing, Ne.symm hu]

/-- An update whose acknowledgement failed is not broadcast: no harm is done
only where everybody sees it already. -/
theorem unacknowledged (hinv : Inv room) (hsocket : room.socketAt id = some socket)
    (haccepted : socket.handler = .accepted update kind)
    (hseen : ∀ other found, other ≠ id → room.socketAt other = some found →
      found.isFollowing = true → room.Sees found update) :
    Inv (room.setSocket id { socket with handler := .leaving false }) := by
  have hmove := Rewired.relabel hinv.wired hsocket (by simp [haccepted, Handler.isUnspawned])
    (.leaving false) rfl socket.commands
  refine hinv.republish hsocket (fun _ => rfl) (hinv.wired.move hsocket hmove) rfl ?_
    (fun u h => h) (fun found u h => h) (fun u a h => h) (fun u a _ h => h) ?_ ?_ ?_
  · simp [Socket.isFollowing, Handler.isBootstrapped, haccepted]
  · intro u h
    simp [Handler.isPublishing] at h
  · intro u k h
    simp at h
  · intro u h
    right
    by_cases hu : u = update
    · rw [hu]
      exact hseen
    · refine hinv.others_see hsocket h ?_
      simp [haccepted, Handler.isPublishing, Ne.symm hu]

/-- The broadcast reaches the receiver of everybody who does not see the update. -/
theorem broadcast (hinv : Inv room) (hsocket : room.socketAt id = some socket)
    (hacknowledged : socket.handler = .acknowledged update kind) :
    Inv ((room.send socket.channel (.yjs kind update)).setSocket id
      { socket with handler := .serving }) := by
  have hsent := hinv.send socket.channel (.yjs kind update)
  have hsocketSent : (room.send socket.channel (.yjs kind update)).socketAt id = some socket :=
    hsocket
  have hmove := Rewired.relabel hsent.wired hsocketSent
    (by simp [hacknowledged, Handler.isUnspawned]) .serving rfl socket.commands
  have hsees : ∀ found u, room.Sees found u →
      (room.send socket.channel (.yjs kind update)).Sees found u :=
    fun found u h => h.send socket.channel (.yjs kind update)
  refine hinv.republish hsocket (fun _ => rfl) (hsent.wired.move hsocket hmove) rfl ?_
    (fun u h => hsees socket u h) hsees (fun u a h => h) (fun u a _ h => h) ?_ ?_ ?_
  · simp [Socket.isFollowing, Handler.isBootstrapped, hacknowledged]
  · intro u h
    simp [Handler.isPublishing] at h
  · intro u k h
    simp at h
  · intro u h
    right
    by_cases hu : u = update
    · subst hu
      intro other found hne hfound hfollowing
      rcases hinv.reaches id socket u kind hsocket hacknowledged other found hfound hne hfollowing
        with h | hchannel
      · exact hsees found u h
      right
      rw [hchannel, Room.events_send_self _ (hinv.wired.channels id socket hsocket)]
      refine PendingAt.of_send rfl ?_
      rw [← hchannel]
      exact hinv.wired.places other found hfound
    · intro other found hne hfound hfollowing
      refine hsees found u (hinv.others_see hsocket h ?_ other found hne hfound hfollowing)
      simp [hacknowledged, Handler.isPublishing, Ne.symm hu]

end Inv

end Toss.Collaboration.Rooms
