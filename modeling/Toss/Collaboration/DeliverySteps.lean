import Toss.Collaboration.Delivery

/-!
# The delivery invariant at every step of a room

* `step_inv` — every step keeps the invariant of `Delivery`, unless an
  acknowledgement that fails leaves out a broadcast that somebody needs;
* `Traffic` — an update is in no channel before its broadcast;
* `noSilentMiss_step_iff` — a step loses an update exactly when it is such an
  acknowledgement.
-/

namespace Toss.Collaboration.Rooms

open Toss.Foundation

/-! ## Steps of one socket -/

section Moves

variable {room : Room} {id : SocketId} {socket socket' : Socket}

/-- The forwarder took an event: it goes on, or the socket is closed. -/
theorem Rewired.forward (hrunning : socket.forwarder = .running) {taken : Socket}
    (event : RoomEvent) (ok : Bool) (hchannel : taken.channel = socket.channel)
    (hforwarder : taken.forwarder = socket.forwarder)
    (hplace : taken.next ≤ (room.events socket.channel).length) :
    Rewired room socket (forward taken event ok) where
  channel := by simp [hchannel]
  place := by simpa using hplace
  receiver := by
    intro _
    simp [Socket.hasReceiver, hrunning]
  live := by
    intro hfollowing
    rcases forward_cases taken event ok with ⟨-, hclosed⟩ | hsent
    · simp [Socket.isFollowing, hclosed] at hfollowing
    · rw [hsent]
      simp [Socket.hasReceiver, hforwarder, hrunning]
  spawned := by
    intro hunspawned
    rcases forward_cases taken event ok with ⟨hended, -⟩ | hsent
    · simp [hended] at hunspawned
    · rw [hsent] at hunspawned
      simp [hforwarder, hrunning] at hunspawned

/-- A forwarder that ends closes its socket. -/
theorem Rewired.end (hwired : Wired room) (hsocket : room.socketAt id = some socket)
    (hrunning : socket.forwarder = .running) (commands : List SocketCommand) :
    Rewired room socket { socket with commands, forwarder := .ended, closed := true } where
  channel := rfl
  place := hwired.places id socket hsocket
  receiver := by
    intro _
    simp [Socket.hasReceiver, hrunning]
  live := by
    intro hfollowing
    simp [Socket.isFollowing] at hfollowing
  spawned := by
    intro hunspawned
    simp at hunspawned

/-- The handler moves on before the forwarder is spawned. -/
theorem Rewired.open (hwired : Wired room) (hsocket : room.socketAt id = some socket)
    (hreceiver : socket.hasReceiver = true) {handler : Handler}
    (hto : ∀ known, ({ socket with handler, known } : Socket).hasReceiver = true)
    (hunspawned : handler.isUnspawned = true) (known : List UpdateId) :
    Rewired room socket { socket with handler, known } where
  channel := rfl
  place := hwired.places id socket hsocket
  receiver := fun _ => hreceiver
  live := fun _ => hto known
  spawned := fun _ => hunspawned

theorem Moved.rewired (hwired : Wired room) (hsocket : room.socketAt id = some socket)
    (hmove : Moved room socket socket') : Rewired room socket socket' := by
  -- the channel and the place in it change only by receiving and by opening
  have hplace := hwired.places id socket hsocket
  cases hmove with
  | revalidated h | bootstrapped h =>
    exact .open hwired hsocket (by simp [Socket.hasReceiver, h]) (by simp [Socket.hasReceiver])
      rfl socket.known
  | loaded h =>
    exact .open hwired hsocket (by simp [Socket.hasReceiver, h]) (by simp [Socket.hasReceiver])
      rfl _
  | dropped h =>
    refine
      { channel := rfl, place := hplace, receiver := ?_, live := ?_, spawned := fun _ => rfl }
    · intro hreceiver
      rcases h with h | h | h <;> simp [Socket.hasReceiver, h]
    · intro hfollowing
      simp [drop, Socket.isFollowing] at hfollowing
  | joined h =>
    refine
      { channel := rfl, place := hplace, receiver := ?_, live := fun _ => rfl, spawned := ?_ }
    · intro _
      simp [Socket.hasReceiver, h]
    · intro hunspawned
      simp at hunspawned
  | stopped h drainCloseEvent hqueued =>
    exact .relabel hwired hsocket (by simp [h, Handler.isUnspawned]) _ rfl _
  | left h => exact .relabel hwired hsocket (by simp [h, Handler.isUnspawned]) _ rfl _
  | finished h =>
    refine
      { channel := rfl, place := hplace, receiver := ?_, live := ?_, spawned := ?_ }
    · intro hreceiver
      simp [Socket.hasReceiver] at hreceiver
    · intro hfollowing
      simp [Socket.isFollowing] at hfollowing
    · intro hunspawned
      simp at hunspawned
  | gone h =>
    refine
      { channel := rfl, place := hplace, receiver := ?_, live := ?_, spawned := fun _ => rfl }
    · intro hreceiver
      simp [Socket.hasReceiver] at hreceiver
      simp [Socket.hasReceiver, hreceiver]
    · intro hfollowing
      simp [Socket.isFollowing, Handler.isBootstrapped] at hfollowing
  | commanded hrunning h ok => exact .forward hrunning _ ok rfl rfl hplace
  | restarted hrunning h | lagged hrunning => exact .end hwired hsocket hrunning _
  | received hrunning h ok =>
    refine .forward hrunning _ ok rfl rfl ?_
    exact receive_message_lt h

/-- A socket that is not closed sees what it saw, and a bootstrap state holds
every update accepted so far. -/
theorem Moved.sees (hmove : Moved room socket socket') {update : UpdateId}
    (hupdate : update < room.authors.length) (hfollowing : socket'.isFollowing = true)
    (hsees : socket.isFollowing = true → room.Sees socket update) :
    room.Sees socket' update := by
  cases hmove with
  | revalidated h => simp [Socket.isFollowing, Handler.isBootstrapped] at hfollowing
  | loaded h => exact .inl (List.mem_range.mpr hupdate)
  | bootstrapped h | joined h | stopped h | left h =>
    exact hsees (by simpa [Socket.isFollowing, Handler.isBootstrapped, h] using hfollowing)
  | dropped h => simp [drop, Socket.isFollowing] at hfollowing
  | finished h | gone h | restarted hrunning h | lagged hrunning =>
    simp [Socket.isFollowing, Handler.isBootstrapped] at hfollowing
  | @commanded hrunning event commands h ok =>
    rcases forward_cases { socket with commands } event ok with ⟨-, hclosed⟩ | hsent
    · simp [Socket.isFollowing, hclosed] at hfollowing
    rw [hsent] at hfollowing ⊢
    rcases hsees hfollowing with hknown | hpending
    · exact .inl (List.mem_append_left _ hknown)
    · exact .inr hpending
  | @received hrunning event h ok =>
    rcases forward_cases { socket with next := socket.next + 1 } event ok with ⟨-, hclosed⟩ | hsent
    · simp [Socket.isFollowing, hclosed] at hfollowing
    rw [hsent] at hfollowing ⊢
    rcases hsees hfollowing with hknown | hpending
    · exact .inl (List.mem_append_left _ hknown)
    rcases hpending.receive h with htaken | hlater
    · left
      show update ∈ socket.known ++ _
      simp [htaken]
    · exact .inr hlater

/-- No move takes an update on or lets one go. -/
theorem Moved.isPublishing (hmove : Moved room socket socket') (update : UpdateId) :
    socket'.handler.isPublishing update = socket.handler.isPublishing update := by
  cases hmove with
  | revalidated h | loaded h | bootstrapped h | joined h | stopped h | left h | finished h | gone h =>
    simp [Handler.isPublishing, h]
  | dropped h => rcases h with h | h | h <;> simp [drop, Handler.isPublishing, h]
  | commanded hrunning h ok | received hrunning h ok => simp
  | restarted hrunning h | lagged hrunning => rfl

theorem Moved.acknowledged (hmove : Moved room socket socket') {update : UpdateId}
    {kind : PersistedUpdateKind} (h : socket'.handler = .acknowledged update kind) :
    socket.handler = .acknowledged update kind := by
  cases hmove with
  | commanded hrunning _ ok | received hrunning _ ok => simpa using h
  | restarted hrunning _ | lagged hrunning => exact h
  | _ => simp [drop] at h

theorem Moved.quiet (hwired : Wired room) (hsocket : room.socketAt id = some socket)
    (hmove : Moved room socket socket') : Quiet room socket socket' where
  rewired := hmove.rewired hwired hsocket
  sees := fun _ hupdate hfollowing hsees => hmove.sees hupdate hfollowing hsees
  handler := hmove.isPublishing
  acknowledged := fun _ _ h => hmove.acknowledged h

end Moves

/-! ## Steps of the registry -/

/-- Subscribing adds a socket to the registered channel, a new one if there is
none, and no event to any channel. -/
theorem subscribe_cases {room : Room} (hwired : Wired room) :
    ∃ (channels : List (List RoomEvent)) (socket : Socket),
      subscribe room =
          { room with
            channels := channels
            registered := some socket.channel
            sockets := room.sockets ++ [socket] }
        ∧ socket.handler = .subscribed
        ∧ socket.next = (room.events socket.channel).length
        ∧ (∀ channel, channels[channel]?.getD [] = room.events channel)
        ∧ socket.channel < channels.length ∧ room.channels.length ≤ channels.length
        ∧ (room.registered = none ∨ room.registered = some socket.channel) := by
  cases hregistered : room.registered with
  | some channel =>
    refine ⟨room.channels,
      { channel, next := (room.events channel).length, handler := .subscribed,
        forwarder := .unspawned, commands := [], known := [], closed := false },
      ?_, rfl, rfl, fun _ => rfl, hwired.registeredChannel channel hregistered, le_rfl, .inr rfl⟩
    simp only [subscribe, hregistered]
  | none =>
    refine ⟨room.channels ++ [[]],
      { channel := room.channels.length, next := 0, handler := .subscribed,
        forwarder := .unspawned, commands := [], known := [], closed := false },
      ?_, rfl, ?_, ?_, by simp, by simp, .inl rfl⟩
    · simp only [subscribe, hregistered]
    · simp [Room.events]
    · intro channel
      show (room.channels ++ [[]])[channel]?.getD [] = room.channels[channel]?.getD []
      rw [List.getElem?_append]
      split
      · rfl
      · next hge =>
        rw [List.getElem?_eq_none (not_lt.mp hge), List.getElem?_singleton]
        split <;> rfl

theorem Inv.subscribe {room : Room} (hinv : Inv room) : Inv (subscribe room) := by
  have hwired := hinv.wired
  rcases subscribe_cases hwired with
    ⟨channels, socket, heq, hhandler, hplace, hevents, hchannel, hmore, hregistered⟩
  rw [heq]
  refine hinv.append ?_ hhandler hevents
  refine
    { registered := ?_, channels := ?_, registeredChannel := ?_, places := ?_, live := ?_,
      spawned := ?_ }
  · intro id found hfound hreceiver
    rcases Room.socketAt_append hfound with hold | rfl
    · have hfoundChannel := hwired.registered id found hold hreceiver
      rcases hregistered with hnone | hsome
      · simp [hnone] at hfoundChannel
      · rw [← hfoundChannel, hsome]
    · rfl
  · intro id found hfound
    rcases Room.socketAt_append hfound with hold | rfl
    · exact Nat.lt_of_lt_of_le (hwired.channels id found hold) hmore
    · exact hchannel
  · intro channel h
    cases h
    exact hchannel
  · intro id found hfound
    show found.next ≤ (channels[found.channel]?.getD []).length
    rw [hevents]
    rcases Room.socketAt_append hfound with hold | rfl
    · exact hwired.places id found hold
    · exact hplace.le
  · intro id found hfound hfollowing
    rcases Room.socketAt_append hfound with hold | rfl
    · exact hwired.live id found hold hfollowing
    · simp [Socket.isFollowing, Handler.isBootstrapped, hhandler] at hfollowing
  · intro id found hfound hunspawned
    rcases Room.socketAt_append hfound with hold | rfl
    · exact hwired.spawned id found hold hunspawned
    · simp [Handler.isUnspawned, hhandler]

/-- Forgetting an idle channel: nobody with a bootstrap state was left in it. -/
theorem Inv.forget {room : Room} (hinv : Inv room) {channel : ChannelId}
    (hidle : room.isIdle channel = true) (hregistered : room.registered = some channel) :
    Inv { room with registered := none } where
  wired := hinv.wired.removeIfIdle hidle hregistered
  authored := hinv.authored
  reaches := hinv.reaches
  delivered := hinv.delivered

/-! ## Every step -/

/-- The update whose acknowledgement comes next. -/
def Handler.acceptedUpdate : Handler → Option UpdateId
  | .accepted update _ => some update
  | _ => none

/-- The forwarder that will take the acknowledgement is there, or the bootstrap
state of everybody else holds the update. -/
def AcknowledgementIsSafe (room : Room) (id : SocketId) : Prop :=
  ∀ socket ∈ room.socketAt id, socket.forwarder = .ended →
    ∀ update ∈ socket.handler.acceptedUpdate,
      ∀ other < room.sockets.length, other ≠ id → ∀ found ∈ room.socketAt other,
        found.isFollowing = true → update ∈ found.known

instance (room : Room) (id : SocketId) : Decidable (AcknowledgementIsSafe room id) :=
  inferInstanceAs (Decidable (∀ socket ∈ room.socketAt id, _ → _))

/-- Where an acknowledgement fails, the broadcast left out is not needed. -/
def LosesNothing (room : Room) : Action → Prop
  | .acknowledge id => AcknowledgementIsSafe room id
  | _ => True

instance (room : Room) : (action : Action) → Decidable (LosesNothing room action)
  | .acknowledge id => inferInstanceAs (Decidable (AcknowledgementIsSafe room id))
  | .subscribe | .revalidate .. | .loadBootstrap .. | .sendBootstrap .. | .join _ | .persist ..
  | .terminate .. | .broadcast _ | .present .. | .disconnect _ | .restart _ | .leave _
  | .finishForwarder _ | .removeIfIdle _ | .forwardCommand .. | .forwardRoomEvent ..
  | .broadcastProject _ => .isTrue trivial

theorem step_inv {room room' : Room} {action : Action} (hinv : Inv room)
    (hguard : LosesNothing room action) (hstep : step room action = some room') :
    Inv room' := by
  cases step_effect hstep with
  | subscribed => exact hinv.subscribe
  | announced channel hevent => exact hinv.send channel _
  | moved hsocket hmove => exact hinv.move hsocket (hmove.quiet hinv.wired hsocket)
  | @announcing _ _ socket _ hsocket event hevent hmove =>
    have hsent := hinv.send socket.channel event
    exact hsent.move hsocket ((hmove _).quiet hsent.wired hsocket)
  | tidied hsocket h hregistered hidle =>
    have hforgotten := hinv.forget hidle hregistered
    exact hforgotten.move hsocket ((Moved.gone h).quiet hforgotten.wired hsocket)
  | persisted hsocket h kind => exact hinv.persist hsocket h kind
  | acknowledged hsocket h hforwarder hqueued =>
    exact hinv.acknowledge hsocket h hforwarder _
  | unacknowledged hsocket h hforwarder =>
    refine hinv.unacknowledged hsocket h ?_
    intro other found hne hfound hfollowing
    have hlt : other < room.sockets.length := (List.getElem?_eq_some_iff.mp hfound).1
    exact .inl (hguard _ hsocket hforwarder _ (by rw [h]; rfl) other hlt hne found hfound
      hfollowing)
  | published hsocket h => exact hinv.broadcast hsocket h

/-! ## Updates in the channels -/

section Publishing

variable {room room' : Room} {action : Action} {id : SocketId} {update : UpdateId}

/-- A handler that is replaced takes no update on but the next one accepted. -/
theorem isPublishing_of_setSocket {mid : Room} {target : SocketId} {moved moved' : Socket}
    (hsockets : ∀ other, mid.socketAt other = room.socketAt other)
    (hmoved : room.socketAt target = some moved)
    (hkept : moved'.handler.isPublishing update = true →
      moved.handler.isPublishing update = true ∨ update = room.authors.length)
    (h : (mid.setSocket target moved').IsPublishing id update) :
    room.IsPublishing id update ∨ update = room.authors.length := by
  rcases h with ⟨found, hfound, hpublishing⟩
  rcases Room.socketAt_setSocket hfound with ⟨rfl, rfl⟩ | ⟨-, hold⟩
  · rcases hkept hpublishing with hbefore | hnew
    · exact .inl ⟨moved, hmoved, hbefore⟩
    · exact .inr hnew
  · exact .inl ⟨found, (hsockets id).symm.trans hold, hpublishing⟩

theorem Effect.publishing (heffect : Effect room action room')
    (h : room'.IsPublishing id update) :
    room.IsPublishing id update ∨ update = room.authors.length := by
  cases heffect with
  | subscribed =>
    rcases h with ⟨found, hfound, hpublishing⟩
    rcases subscribe_sockets room with ⟨added, hsockets, hhandler⟩
    rw [Room.socketAt, hsockets, List.getElem?_append] at hfound
    split at hfound
    · exact .inl ⟨found, hfound, hpublishing⟩
    rw [List.getElem?_singleton] at hfound
    split at hfound
    · cases hfound
      simp [hhandler, Handler.isPublishing] at hpublishing
    · simp at hfound
  | announced channel hevent => exact .inl h
  | moved hmoved hmove =>
    refine isPublishing_of_setSocket (fun _ => rfl) hmoved ?_ h
    intro hpublishing
    rw [hmove.isPublishing] at hpublishing
    exact .inl hpublishing
  | announcing hmoved hevent hmove =>
    refine isPublishing_of_setSocket (fun _ => rfl) hmoved ?_ h
    intro hpublishing
    rw [(hmove room).isPublishing] at hpublishing
    exact .inl hpublishing
  | tidied hmoved hdropped hregistered hidle | unacknowledged hmoved haccepted hforwarder
  | published hmoved hacknowledged =>
    refine isPublishing_of_setSocket (fun _ => rfl) hmoved ?_ h
    intro hpublishing
    simp [Handler.isPublishing] at hpublishing
  | persisted hmoved hserving kind =>
    refine isPublishing_of_setSocket (fun _ => rfl) hmoved ?_ h
    intro hpublishing
    right
    simpa [Handler.isPublishing, eq_comm] using hpublishing
  | acknowledged hmoved haccepted hforwarder hqueued =>
    refine isPublishing_of_setSocket (fun _ => rfl) hmoved ?_ h
    intro hpublishing
    left
    simpa [Handler.isPublishing, haccepted] using hpublishing

theorem Publishes.isPublishing (h : Publishes room room' update) :
    ∃ id, room.IsPublishing id update ∧ ¬ room'.IsPublishing id update := by
  rcases h with ⟨id, socket, kind, hsocket, hhandler, hafter⟩
  refine ⟨id, ⟨socket, hsocket, by simp [hhandler, Handler.isPublishing]⟩, ?_⟩
  rw [Room.isPublishing_self hafter]
  simp [Handler.isPublishing]

end Publishing

/-- A channel holds accepted updates, and none before its broadcast. -/
structure Traffic (room : Room) : Prop where
  accepted : ∀ channel, ∀ event ∈ room.events channel, ∀ update,
    event.update = some update → update < room.authors.length
  unsent : ∀ id update, room.IsPublishing id update →
    ∀ channel, ∀ event ∈ room.events channel, event.update ≠ some update

theorem init_traffic : Traffic Room.empty where
  accepted := by simp [Room.empty, Room.events]
  unsent := by simp [Room.empty, Room.events]

theorem Inv.author {room : Room} (hinv : Inv room) {id : SocketId} {update : UpdateId}
    (h : room.IsPublishing id update) : room.authors[update]? = some id := by
  rcases h with ⟨socket, hsocket, hpublishing⟩
  exact hinv.authored id socket update hsocket hpublishing

theorem step_traffic {room room' : Room} {action : Action} (hinv : Inv room)
    (htraffic : Traffic room) (hstep : step room action = some room') : Traffic room' := by
  have heffect := step_effect hstep
  rcases heffect.authors with ⟨added, hauthors⟩
  have hlt : ∀ id update, room.IsPublishing id update → update < room.authors.length :=
    fun id update h => (List.getElem?_eq_some_iff.mp (hinv.author h)).1
  have haccepted : ∀ channel, ∀ event ∈ room'.events channel, ∀ update,
      event.update = some update → update < room.authors.length := by
    intro channel event hmem update hupdate
    rcases heffect.events channel with ⟨later, hevents, hlater⟩
    rw [hevents] at hmem
    rcases List.mem_append.mp hmem with hold | hnew
    · exact htraffic.accepted channel event hold update hupdate
    · rcases (hlater event hnew update hupdate).isPublishing with ⟨id, hpublishing, -⟩
      exact hlt id update hpublishing
  refine { accepted := ?_, unsent := ?_ }
  · intro channel event hmem update hupdate
    rw [hauthors, List.length_append]
    exact Nat.lt_add_right _ (haccepted channel event hmem update hupdate)
  · intro id update hpublishing channel event hmem hupdate
    rcases heffect.publishing hpublishing with hbefore | hnew
    · rcases heffect.events channel with ⟨later, hevents, hlater⟩
      rw [hevents] at hmem
      rcases List.mem_append.mp hmem with hold | hsent
      · exact htraffic.unsent id update hbefore channel event hold hupdate
      -- only its author publishes an update, and no longer does
      rcases (hlater event hsent update hupdate).isPublishing with ⟨other, hother, hdone⟩
      have heq : some id = some other := (hinv.author hbefore).symm.trans (hinv.author hother)
      cases heq
      exact hdone hpublishing
    · -- the update was just accepted
      exact absurd hnew (Nat.ne_of_lt (haccepted channel event hmem update hupdate))

/-- From a state that loses nothing, a step loses an update exactly when an
acknowledgement fails that somebody relied on. -/
theorem noSilentMiss_step_iff {room room' : Room} {action : Action} (hinv : Inv room)
    (htraffic : Traffic room) (hstep : step room action = some room') :
    room'.NoSilentMiss ↔ LosesNothing room action := by
  constructor
  · intro hdelivered
    cases action with
    | acknowledge id =>
      intro socket hsocket hended update hupdate other _ hne found hfound hfollowing
      obtain ⟨kind, haccepted⟩ : ∃ kind, socket.handler = .accepted update kind := by
        cases h : socket.handler <;> simp_all [Handler.acceptedUpdate]
      rw [Option.mem_def] at hsocket hfound
      have hpublishing : room.IsPublishing id update :=
        ⟨socket, hsocket, by simp [haccepted, Handler.isPublishing]⟩
      -- the handler leaves, and nothing else changes
      have hroom' : room' = room.setSocket id { socket with handler := .leaving false } := by
        simp only [step, Action.socket, hsocket, stepServing, haccepted, enqueue, hended,
          if_true, Option.map_some, Bool.false_eq_true, if_false, Option.some.injEq] at hstep
        simp only [hended]
        exact hstep.symm
      have hfound' : room'.socketAt other = some found := by
        rw [hroom', Room.socketAt_setSocket_of_ne _ hne]
        exact hfound
      have hauthor : room'.authors[update]? = some id := by
        rw [hroom']
        exact hinv.author hpublishing
      rcases hdelivered update id hauthor other found hfound' hne hfollowing with hsees | hstill
      · rcases hsees with hknown | ⟨i, event, -, hevent, hupdate⟩
        · exact hknown
        · rw [hroom'] at hevent
          exact absurd hupdate
            (htraffic.unsent id update hpublishing found.channel event
              (List.mem_of_getElem? hevent))
      · rw [hroom', Room.isPublishing_self (Room.socketAt_setSocket_self hsocket)] at hstill
        simp [Handler.isPublishing] at hstill
    | _ => trivial
  · intro hguard
    exact (step_inv hinv hguard hstep).delivered

end Toss.Collaboration.Rooms
