import Toss.Collaboration.RoomRegistry

/-!
# Broadcasts to a project

`broadcast_project` lists the rooms of a project and sends to them one after another, while
subscriptions come and go. A subscription that is live when the rooms are listed is on the
channel that was listed for its room, so the broadcast comes to it, once.

* `Delivers` — how far a broadcast has come;
* `rooms_are_shared` — the main result, for every interleaving.
-/

namespace Toss.Collaboration.Registry

open Toss.Foundation Rooms

variable {r r' : Registry}

/-! ## Counting -/

theorem sentCount_append (n : BroadcastId) (messages later : List RoomMessage) :
    sentCount n (messages ++ later) = sentCount n messages + sentCount n later :=
  List.countP_append

theorem sentCount_drop_le (n : BroadcastId) (messages : List RoomMessage) (start : Nat) :
    sentCount n (messages.drop start) ≤ sentCount n messages :=
  (List.drop_sublist start messages).countP_le

theorem sentCount_singleton (n : BroadcastId) (message : RoomMessage) :
    sentCount n [message] = if message.broadcast = some n then 1 else 0 := by
  simp [sentCount, List.countP_singleton]

/-- A message sent to a channel, as a subscription of the channel sees it. -/
theorem sentCount_received_send (n : BroadcastId) {s : RoomSubscription} {channel : ChannelId}
    (message : RoomMessage) (hlt : s.channel < r.channels.length)
    (hstart : s.start ≤ (r.messages s.channel).length) :
    sentCount n ((r.send channel message).received s)
      = sentCount n (r.received s)
        + if s.channel = channel ∧ message.broadcast = some n then 1 else 0 := by
  rw [received, received]
  by_cases heq : s.channel = channel
  · subst heq
    rw [messages_send_self hlt, List.drop_append_of_le_length hstart, sentCount_append,
      sentCount_singleton]
    simp
  · rw [messages_send_of_ne heq, if_neg fun h => heq h.1, Nat.add_zero]

theorem messages_of_le {channel : ChannelId} (h : r.channels.length ≤ channel) :
    r.messages channel = [] := by
  rw [messages, List.getElem?_eq_none h]
  rfl

theorem sentCount_messages_send (n : BroadcastId) (channel other : ChannelId)
    (message : RoomMessage) :
    sentCount n ((r.send channel message).messages other)
      = sentCount n (r.messages other)
        + if other = channel ∧ other < r.channels.length ∧ message.broadcast = some n then 1
          else 0 := by
  by_cases heq : other = channel
  · subst heq
    by_cases hlt : other < r.channels.length
    · rw [messages_send_self hlt, sentCount_append, sentCount_singleton]
      simp [hlt]
    have hlength : (r.send other message).channels.length = r.channels.length := by
      simp [send]
    rw [messages_of_le (by rw [hlength]; exact not_lt.mp hlt), messages_of_le (not_lt.mp hlt)]
    simp [hlt]
  · rw [messages_send_of_ne heq, if_neg fun h => heq h.1, Nat.add_zero]

/-! ## How far a broadcast has come -/

structure Delivers (r : Registry) (n : BroadcastId) (b : ProjectBroadcast) : Prop where
  distinct : (b.pending.map Sigma.snd).Nodup
  unsent : ∀ room ∈ b.pending,
    room.2 < r.channels.length ∧ sentCount n (r.messages room.2) = 0
  once : ∀ channel, sentCount n (r.messages channel) ≤ 1
  reached : ∀ id ∈ b.listeners, ∃ s, r.subscriptions[id]? = some s
    ∧ ((∃ room ∈ b.pending, room.2 = s.channel) ∨ sentCount n (r.received s) = 1)

structure BroadcastInv (r : Registry) : Prop where
  registry : RegistryInv r
  /-- Messages come from broadcasts that there are. -/
  numbered : ∀ n, r.broadcasts.length ≤ n → ∀ channel, sentCount n (r.messages channel) = 0
  delivers : ∀ (n : BroadcastId) (b : ProjectBroadcast), r.broadcasts[n]? = some b → Delivers r n b

/-- Subscriptions stay at their places, for their rooms. -/
def KeepsSubscriptions (r r' : Registry) : Prop :=
  ∀ (id : SubscriptionId) (s : RoomSubscription), r.subscriptions[id]? = some s →
    ∃ s', r'.subscriptions[id]? = some s' ∧ s'.key = s.key ∧ s'.channel = s.channel
      ∧ s'.start = s.start

theorem KeepsSubscriptions.refl (r : Registry) : KeepsSubscriptions r r :=
  fun _ s hs => ⟨s, hs, rfl, rfl, rfl⟩

theorem KeepsSubscriptions.trans {r'' : Registry} (h : KeepsSubscriptions r r')
    (h' : KeepsSubscriptions r' r'') : KeepsSubscriptions r r'' := by
  intro id s hs
  rcases h id s hs with ⟨s', hs', hkey, hchannel, hstart⟩
  rcases h' id s' hs' with ⟨s'', hs'', hkey', hchannel', hstart'⟩
  exact ⟨s'', hs'', hkey'.trans hkey, hchannel'.trans hchannel, hstart'.trans hstart⟩

theorem KeepsSubscriptions.modify (r : Registry) (id : SubscriptionId)
    {f : RoomSubscription → RoomSubscription}
    (hsame : ∀ s, (f s).key = s.key ∧ (f s).channel = s.channel ∧ (f s).start = s.start) :
    KeepsSubscriptions r (r.modifySubscription id f) := by
  intro other s hs
  refine ⟨_, getElem?_modifySubscription_old hs, ?_⟩
  split
  · exact hsame s
  · exact ⟨rfl, rfl, rfl⟩

variable {b : ProjectBroadcast} {n : BroadcastId} {i : Nat} {action : Action}
  {actions : List Action}

/-- A step that sends nothing. -/
theorem Delivers.frame (h : Delivers r n b)
    (hmessages : ∀ channel, r'.messages channel = r.messages channel)
    (hlength : r.channels.length ≤ r'.channels.length) (hkeeps : KeepsSubscriptions r r') :
    Delivers r' n b where
  distinct := h.distinct
  unsent := by
    intro room hroom
    rw [hmessages]
    exact ⟨lt_of_lt_of_le (h.unsent room hroom).1 hlength, (h.unsent room hroom).2⟩
  once := by
    intro channel
    rw [hmessages]
    exact h.once channel
  reached := by
    intro id hid
    rcases h.reached id hid with ⟨s, hs, hreached⟩
    rcases hkeeps id s hs with ⟨s', hs', -, hchannel, hstart⟩
    refine ⟨s', hs', ?_⟩
    rw [received, hchannel, hstart, hmessages]
    exact hreached

theorem BroadcastInv.frame (h : BroadcastInv r) (hregistry : RegistryInv r')
    (hbroadcasts : r'.broadcasts = r.broadcasts)
    (hmessages : ∀ channel, r'.messages channel = r.messages channel)
    (hlength : r.channels.length ≤ r'.channels.length) (hkeeps : KeepsSubscriptions r r') :
    BroadcastInv r' where
  registry := hregistry
  numbered := by
    intro n hn channel
    rw [hbroadcasts] at hn
    rw [hmessages]
    exact h.numbered n hn channel
  delivers := by
    intro n b hb
    rw [hbroadcasts] at hb
    exact (h.delivers n b hb).frame hmessages hlength hkeeps

/-- A message of nothing, or of another broadcast, is sent. -/
theorem Delivers.send_other (h : Delivers r n b)
    (hfits : Fits r) (channel : ChannelId) {message : RoomMessage}
    (hother : message.broadcast ≠ some n) : Delivers (r.send channel message) n b where
  distinct := h.distinct
  unsent := by
    intro room hroom
    rw [sentCount_messages_send, if_neg fun h => hother h.2.2]
    refine ⟨?_, (h.unsent room hroom).2⟩
    rw [send, List.length_modify]
    exact (h.unsent room hroom).1
  once := by
    intro other
    rw [sentCount_messages_send, if_neg fun h => hother h.2.2]
    exact h.once other
  reached := by
    intro id hid
    rcases h.reached id hid with ⟨s, hs, hreached⟩
    refine ⟨s, hs, ?_⟩
    rcases hfits.channel id s hs with ⟨hkey, hstart⟩
    rw [sentCount_received_send n message (hfits.channel_lt hs) hstart,
      if_neg fun h => hother h.2, Nat.add_zero]
    exact hreached

theorem mem_eraseIdx {rooms : List ((_ : RoomKey) × ChannelId)}
    {room other : (_ : RoomKey) × ChannelId} (hi : rooms[i]? = some room) (hmem : other ∈ rooms)
    (hne : other ≠ room) : other ∈ rooms.eraseIdx i := by
  rcases List.mem_iff_getElem?.mp hmem with ⟨j, hj⟩
  refine List.mem_eraseIdx_iff_getElem?.mpr ⟨j, ?_, hj⟩
  rintro rfl
  exact hne (Option.some.inj (hj.symm.trans hi))

/-- The room that is next is not among those that are left. -/
theorem not_mem_eraseIdx {rooms : List ((_ : RoomKey) × ChannelId)}
    {room other : (_ : RoomKey) × ChannelId} (hnodup : (rooms.map Sigma.snd).Nodup)
    (hi : rooms[i]? = some room) (hmem : other ∈ rooms.eraseIdx i) : other.2 ≠ room.2 := by
  rcases List.mem_eraseIdx_iff_getElem?.mp hmem with ⟨j, hne, hj⟩
  intro heq
  have hlt : j < (rooms.map Sigma.snd).length := by
    rw [List.length_map]
    exact (List.getElem?_eq_some_iff.mp hj).1
  refine hne ((List.getElem?_inj hlt hnodup).mp ?_)
  rw [List.getElem?_map, List.getElem?_map, hi, hj, Option.map_some, Option.map_some, heq]

/-- A broadcast sends to its next room. -/
theorem Delivers.send_next (h : Delivers r n b)
    (hfits : Fits r) {room : (_ : RoomKey) × ChannelId} (hroom : b.pending[i]? = some room) :
    Delivers (r.send room.2 ⟨b.kind, some n⟩) n { b with pending := b.pending.eraseIdx i } where
  distinct := ((List.eraseIdx_sublist b.pending i).map Sigma.snd).nodup h.distinct
  unsent := by
    intro other hother
    have hne := not_mem_eraseIdx h.distinct hroom hother
    rcases h.unsent other (List.mem_of_mem_eraseIdx hother) with ⟨hlt, hnone⟩
    rw [sentCount_messages_send, if_neg fun h => hne h.1, Nat.add_zero, send, List.length_modify]
    exact ⟨hlt, hnone⟩
  once := by
    intro channel
    rw [sentCount_messages_send]
    have hold := h.once channel
    split
    · next hsame =>
      rw [hsame.1, (h.unsent room (List.mem_of_getElem? hroom)).2]
    · exact hold
  reached := by
    intro id hid
    rcases h.reached id hid with ⟨s, hs, hreached⟩
    refine ⟨s, hs, ?_⟩
    have hnone := (h.unsent room (List.mem_of_getElem? hroom)).2
    rw [sentCount_received_send n _ (hfits.channel_lt hs) (hfits.channel id s hs).2]
    by_cases hchannel : s.channel = room.2
    · -- nothing of the broadcast was in the channel before
      right
      have hle : sentCount n (r.received s) ≤ sentCount n (r.messages s.channel) :=
        sentCount_drop_le n (r.messages s.channel) s.start
      rw [hchannel, hnone] at hle
      rw [if_pos ⟨hchannel, rfl⟩, Nat.le_zero.mp hle]
    · rw [if_neg fun h => hchannel h.1, Nat.add_zero]
      rcases hreached with ⟨other, hother, hsame⟩ | hone
      · left
        refine ⟨other, mem_eraseIdx hroom hother ?_, hsame⟩
        intro heq
        exact hchannel (by rw [← hsame, heq])
      · exact .inr hone

/-- The rooms of a project are listed: every live subscription is on the channel of one. -/
theorem Delivers.start (h : BroadcastInv r) (projectId : Uuid) (kind : RoomEventKind) :
    Delivers r r.broadcasts.length ⟨kind, r.roomsOf projectId, r.listenersOf projectId⟩ where
  distinct := by
    have hentries : (r.roomsOf projectId).Nodup :=
      r.mapped.nodupKeys.nodup.filter _
    refine hentries.map_on ?_
    intro room hroom other hother hsame
    rcases mem_roomsOf.mp hroom with ⟨hlookup, -⟩
    rcases mem_roomsOf.mp hother with ⟨hlookup', -⟩
    have hkey := h.registry.mapped room.1 room.2 hlookup
    rw [hsame, h.registry.mapped other.1 other.2 hlookup'] at hkey
    rcases room with ⟨key, channel⟩
    rcases other with ⟨key', channel'⟩
    rw [Sigma.mk.injEq]
    exact ⟨(Option.some.inj hkey).symm, heq_of_eq hsame⟩
  unsent := by
    intro room hroom
    rcases mem_roomsOf.mp hroom with ⟨hlookup, -⟩
    refine ⟨?_, h.numbered _ (le_refl _) room.2⟩
    rcases Option.map_eq_some_iff.mp (h.registry.mapped room.1 room.2 hlookup) with ⟨c, hc, -⟩
    exact (List.getElem?_eq_some_iff.mp hc).1
  once := by
    intro channel
    rw [h.numbered _ (le_refl _) channel]
    exact Nat.zero_le 1
  reached := by
    intro id hid
    rcases mem_listenersOf.mp hid with ⟨s, hs, hlive, hproject⟩
    refine ⟨s, hs, .inl ⟨⟨s.key, s.channel⟩, ?_, rfl⟩⟩
    exact mem_roomsOf.mpr ⟨h.registry.live id s hs hlive, hproject⟩

/-! ## Steps -/

theorem messages_subscribe (key : RoomKey) (channel : ChannelId) :
    (r.subscribe key).messages channel = r.messages channel := by
  rw [subscribe]
  split
  · rfl
  show (r.openRoom key).messages channel = r.messages channel
  by_cases hlt : channel < r.channels.length
  · exact messages_openRoom hlt
  · rw [messages_of_le (not_lt.mp hlt), messages, openRoom, List.getElem?_append_right (not_lt.mp hlt),
      List.getElem?_singleton]
    split <;> rfl

theorem length_subscribe (key : RoomKey) :
    r.channels.length ≤ (r.subscribe key).channels.length := by
  rw [subscribe]
  split
  · exact le_refl _
  · show r.channels.length ≤ (r.channels ++ [_]).length
    simp

theorem keeps_subscribe (key : RoomKey) : KeepsSubscriptions r (r.subscribe key) := by
  intro id s hs
  refine ⟨s, ?_, rfl, rfl, rfl⟩
  rw [subscribe]
  split
  · exact getElem?_addSubscription_old hs
  · exact getElem?_addSubscription_old (r := r.openRoom key) hs

theorem keeps_step (hstep : r.step action = some r') :
    KeepsSubscriptions r r' := by
  cases action with
  | subscribe key =>
    cases hstep
    exact keeps_subscribe key
  | drop id =>
    rcases Option.bind_eq_some_iff.mp hstep with ⟨s, -, hdrop⟩
    split at hdrop
    · cases hdrop
      exact .modify r id fun _ => ⟨rfl, rfl, rfl⟩
    · cases hdrop
  | removeIfIdle id =>
    rcases Option.bind_eq_some_iff.mp hstep with ⟨s, -, hremove⟩
    split at hremove
    · cases hremove
      exact .refl r
    · cases hremove
      exact .modify r id fun _ => ⟨rfl, rfl, rfl⟩
  | finishRemove id =>
    rcases Option.bind_eq_some_iff.mp hstep with ⟨s, -, hremove⟩
    split at hremove
    · cases hremove
      -- an entry that is removed leaves its subscriptions
      have hsame : (({ r with calls := r.calls.erase id } : Registry).removeMapped s).subscriptions
          = r.subscriptions := by
        rw [removeMapped]
        split <;> rfl
      intro other t ht
      rw [← hsame] at ht
      exact KeepsSubscriptions.modify _ id (f := cleanUp) (fun _ => ⟨rfl, rfl, rfl⟩) other t ht
    · cases hremove
  | publish channel kind | broadcastProject projectId kind =>
    cases hstep
    exact .refl r
  | sendNext broadcast i =>
    rcases Option.bind_eq_some_iff.mp hstep with ⟨b, -, hsend⟩
    rcases Option.bind_eq_some_iff.mp hsend with ⟨room, -, hsend⟩
    cases hsend
    exact .refl r

/-- What a step can do to the broadcasts and their messages. -/
theorem BroadcastInv.step (h : BroadcastInv r)
    (hstep : r.step action = some r') : BroadcastInv r' := by
  have hregistry := h.registry.step hstep
  have hkeeps := keeps_step hstep
  cases action with
  | subscribe key =>
    cases hstep
    have hbroadcasts : (r.subscribe key).broadcasts = r.broadcasts := by
      rw [subscribe]
      split <;> rfl
    exact h.frame hregistry hbroadcasts (messages_subscribe key) (length_subscribe key) hkeeps
  | drop id =>
    rcases Option.bind_eq_some_iff.mp hstep with ⟨s, -, hdrop⟩
    split at hdrop
    · cases hdrop
      exact h.frame hregistry rfl (fun _ => rfl) (le_refl _) hkeeps
    · cases hdrop
  | removeIfIdle id =>
    rcases Option.bind_eq_some_iff.mp hstep with ⟨s, -, hremove⟩
    split at hremove
    · cases hremove
      exact h.frame hregistry rfl (fun _ => rfl) (le_refl _) hkeeps
    · cases hremove
      exact h.frame hregistry rfl (fun _ => rfl) (le_refl _) hkeeps
  | finishRemove id =>
    rcases Option.bind_eq_some_iff.mp hstep with ⟨s, -, hremove⟩
    split at hremove
    · cases hremove
      -- a removed entry leaves the channel with its messages
      have hchannels : (({ r with calls := r.calls.erase id } : Registry).removeMapped s).channels
            = r.channels
          ∧ (({ r with calls := r.calls.erase id } : Registry).removeMapped s).broadcasts
            = r.broadcasts := by
        rw [removeMapped]
        split
        · exact ⟨rfl, rfl⟩
        · exact ⟨rfl, rfl⟩
      refine h.frame hregistry hchannels.2 ?_
        (le_of_eq (congrArg List.length hchannels.1.symm)) hkeeps
      intro channel
      show ((({ r with calls := r.calls.erase id } : Registry).removeMapped s).channels[channel]?.map
        RoomChannel.messages).getD [] = r.messages channel
      rw [hchannels.1]
      rfl
    · cases hremove
  | publish channel kind =>
    cases hstep
    refine ⟨hregistry, ?_, ?_⟩
    · -- a message of its own has no number
      intro n hn other
      rw [sentCount_messages_send, if_neg (by simp)]
      exact h.numbered n hn other
    · intro n b hb
      exact (h.delivers n b hb).send_other h.registry.toFits channel (by simp)
  | broadcastProject projectId kind =>
    cases hstep
    refine ⟨hregistry, ?_, ?_⟩
    · intro n hn channel
      rw [List.length_append] at hn
      exact h.numbered n (le_trans (Nat.le_add_right _ _) hn) channel
    · intro n b hb
      rw [List.getElem?_append] at hb
      split at hb
      · exact (h.delivers n b hb).frame (fun _ => rfl) (le_refl _) hkeeps
      rename_i hlt
      rw [List.getElem?_singleton] at hb
      split at hb
      · next hzero =>
        cases hb
        -- the new broadcast has sent nothing yet
        have hn : n = r.broadcasts.length :=
          Nat.le_antisymm (Nat.sub_eq_zero_iff_le.mp hzero) (not_lt.mp hlt)
        rw [hn]
        exact (Delivers.start h projectId kind).frame (fun _ => rfl) (le_refl _) hkeeps
      · cases hb
  | sendNext broadcast i =>
    rcases Option.bind_eq_some_iff.mp hstep with ⟨b, hb, hsend⟩
    rcases Option.bind_eq_some_iff.mp hsend with ⟨room, hroom, hsend⟩
    cases hsend
    have hlt := (List.getElem?_eq_some_iff.mp hb).1
    refine ⟨hregistry, ?_, ?_⟩
    · intro n hn channel
      rw [List.length_modify] at hn
      have hne : some broadcast ≠ some n := by
        intro heq
        cases heq
        omega
      have hcount := sentCount_messages_send (r := r) n room.2 channel ⟨b.kind, some broadcast⟩
      rw [if_neg fun h => hne h.2.2, h.numbered n hn channel] at hcount
      exact hcount
    · intro n b' hb'
      rw [List.getElem?_modify] at hb'
      rcases Option.map_eq_some_iff.mp hb' with ⟨old, hold, rfl⟩
      by_cases hsame : broadcast = n
      · -- the broadcast that goes on has one room less to go
        subst hsame
        rw [hb] at hold
        cases hold
        rw [if_pos rfl]
        exact ((h.delivers broadcast b hb).send_next h.registry.toFits hroom).frame (fun _ => rfl)
          (le_refl _) (.refl _)
      · rw [if_neg hsame]
        have hne : some broadcast ≠ some n := fun heq => hsame (Option.some.inj heq)
        exact ((h.delivers n old hold).send_other h.registry.toFits room.2 hne).frame (fun _ => rfl)
          (le_refl _) (.refl _)

theorem BroadcastInv.empty : BroadcastInv empty where
  registry := .empty
  numbered := by
    intro n _ channel
    rw [messages_of_le (Nat.zero_le channel)]
    rfl
  delivers := nofun

/-! ## Every interleaving -/

def Steps (r : Registry) (action : Action) (r' : Registry) : Prop :=
  r.step action = some r'

theorem broadcastInv_run (h : Run Steps r actions r') (hr : BroadcastInv r) : BroadcastInv r' :=
  h.invariant (fun _ _ _ hinv hstep => hinv.step hstep) hr

theorem keeps_run (h : Run Steps r actions r') :
    KeepsSubscriptions r r' :=
  h.rel (fun r => .refl r) (fun _ _ _ => .trans) fun _ _ _ hstep => keeps_step hstep

/-- A broadcast stays at its place with its listeners. -/
def KeepsBroadcasts (r r' : Registry) : Prop :=
  ∀ (n : BroadcastId) (b : ProjectBroadcast), r.broadcasts[n]? = some b →
    ∃ b', r'.broadcasts[n]? = some b' ∧ b'.listeners = b.listeners

theorem KeepsBroadcasts.of_eq (h : r'.broadcasts = r.broadcasts) : KeepsBroadcasts r r' := by
  intro n b hb
  exact ⟨b, by rw [h]; exact hb, rfl⟩

theorem keepsBroadcasts_step (hstep : r.step action = some r') :
    KeepsBroadcasts r r' := by
  cases action with
  | subscribe key =>
    cases hstep
    refine .of_eq ?_
    rw [subscribe]
    split <;> rfl
  | drop id =>
    rcases Option.bind_eq_some_iff.mp hstep with ⟨s, -, hdrop⟩
    split at hdrop
    · cases hdrop
      exact .of_eq rfl
    · cases hdrop
  | removeIfIdle id =>
    rcases Option.bind_eq_some_iff.mp hstep with ⟨s, -, hremove⟩
    split at hremove
    · cases hremove
      exact .of_eq rfl
    · cases hremove
      exact .of_eq rfl
  | finishRemove id =>
    rcases Option.bind_eq_some_iff.mp hstep with ⟨s, -, hremove⟩
    split at hremove
    · cases hremove
      refine .of_eq ?_
      show (({ r with calls := r.calls.erase id } : Registry).removeMapped s).broadcasts
        = r.broadcasts
      rw [removeMapped]
      split <;> rfl
    · cases hremove
  | publish channel kind =>
    cases hstep
    exact .of_eq rfl
  | broadcastProject projectId kind =>
    cases hstep
    intro n b hb
    refine ⟨b, ?_, rfl⟩
    show (r.broadcasts ++ _)[n]? = some b
    rw [List.getElem?_append_left (List.getElem?_eq_some_iff.mp hb).1]
    exact hb
  | sendNext broadcast i =>
    rcases Option.bind_eq_some_iff.mp hstep with ⟨b, -, hsend⟩
    rcases Option.bind_eq_some_iff.mp hsend with ⟨room, -, hsend⟩
    cases hsend
    intro n old hold
    -- the one that sends has a room less to go
    refine ⟨if broadcast = n then { old with pending := old.pending.eraseIdx i } else old, ?_, ?_⟩
    · show (r.broadcasts.modify broadcast _)[n]? = some _
      rw [List.getElem?_modify, hold]
      split <;> rfl
    · split <;> rfl

theorem listeners_run (h : Run Steps r actions r') :
    ∀ (n : BroadcastId) (b : ProjectBroadcast), r.broadcasts[n]? = some b →
      ∃ b', r'.broadcasts[n]? = some b' ∧ b'.listeners = b.listeners := by
  refine h.rel (r := KeepsBroadcasts) (fun r n b hb => ⟨b, hb, rfl⟩) ?_ fun _ _ _ hstep =>
    keepsBroadcasts_step hstep
  intro r r' r'' hfst hsnd n b hb
  rcases hfst n b hb with ⟨b', hb', hsame⟩
  rcases hsnd n b' hb' with ⟨b'', hb'', hsame'⟩
  exact ⟨b'', hb'', hsame'.trans hsame⟩

/-- Every broadcast comes at most once to a subscription, wherever it was sent from. -/
theorem BroadcastInv.at_most_once (h : BroadcastInv r) (n : BroadcastId) (s : RoomSubscription) :
    sentCount n (r.received s) ≤ 1 := by
  refine le_trans (sentCount_drop_le n (r.messages s.channel) s.start) ?_
  by_cases hn : r.broadcasts.length ≤ n
  · rw [h.numbered n hn s.channel]
    exact Nat.zero_le 1
  · exact (h.delivers n r.broadcasts[n] (List.getElem?_eq_getElem (not_le.mp hn))).once s.channel

/-- Nobody is left to hold the room. -/
theorem RegistryInv.unmapped (h : RegistryInv r) {key : RoomKey}
    (hcleaned : ∀ (id : SubscriptionId) (s : RoomSubscription),
      r.subscriptions[id]? = some s → s.key = key → s.cleaned = true) :
    r.mapped.lookup key = none := by
  cases hkey : r.mapped.lookup key with
  | none => rfl
  | some channel =>
    rcases h.held key channel hkey with ⟨id, s, hs, hchannel, hleft⟩
    rw [← hchannel] at hkey
    rw [hcleaned id s hs (h.toFits.key_eq hs hkey)] at hleft
    cases hleft

/-- In every interleaving, the live subscriptions of a room are on the channel that is mapped
for it, and so on one. Those that are live when a broadcast to their project lists its rooms
have it once when it has sent to all of them, and no subscription has it twice. A room whose
subscriptions were all dropped and cleaned up is not in the map. -/
theorem rooms_are_shared {actions : List Action} (h : Run Steps empty actions r) :
    (∀ (id : SubscriptionId) (s : RoomSubscription), r.subscriptions[id]? = some s →
      s.live = true → r.mapped.lookup s.key = some s.channel)
    ∧ (∀ (id id' : SubscriptionId) (s s' : RoomSubscription), r.subscriptions[id]? = some s →
        r.subscriptions[id']? = some s' → s.live = true → s'.live = true → s.key = s'.key →
        s.channel = s'.channel)
    ∧ (∀ (n : BroadcastId) (s : RoomSubscription), sentCount n (r.received s) ≤ 1)
    ∧ (∀ (projectId : Uuid) (kind : RoomEventKind) (later : List Action) (r' : Registry)
        (b : ProjectBroadcast),
        Run Steps r (.broadcastProject projectId kind :: later) r' →
        r'.broadcasts[r.broadcasts.length]? = some b → b.pending = [] →
        ∀ (id : SubscriptionId) (s : RoomSubscription), r.subscriptions[id]? = some s →
          s.live = true → s.key.projectId = projectId →
          ∃ s', r'.subscriptions[id]? = some s' ∧ s'.key = s.key ∧ s'.channel = s.channel
            ∧ s'.start = s.start ∧ sentCount r.broadcasts.length (r'.received s') = 1)
    ∧ ∀ key, (∀ (id : SubscriptionId) (s : RoomSubscription), r.subscriptions[id]? = some s →
        s.key = key → s.live = false ∧ s.cleaned = true) →
        r.mapped.lookup key = none := by
  have hinv := broadcastInv_run h .empty
  refine ⟨hinv.registry.live, ?_, hinv.at_most_once, ?_, ?_⟩
  · intro id id' s s' hs hs' hlive hlive' hkey
    have hmapped := hinv.registry.live id s hs hlive
    have hmapped' := hinv.registry.live id' s' hs' hlive'
    rw [hkey, hmapped'] at hmapped
    exact (Option.some.inj hmapped).symm
  · intro projectId kind later r' b hrun hb hdone id s hs hlive hproject
    rcases keeps_run hrun id s hs with ⟨s', hs', hsame⟩
    have hdelivers := (broadcastInv_run hrun hinv).delivers _ b hb
    -- who was subscribed when the broadcast began is one of its listeners
    have hlistens : id ∈ b.listeners := by
      cases hrun with
      | cons hstep hlater =>
        cases hstep
        have hlisted : (r.broadcasts
            ++ [⟨kind, r.roomsOf projectId, r.listenersOf projectId⟩])[r.broadcasts.length]?
            = some ⟨kind, r.roomsOf projectId, r.listenersOf projectId⟩ :=
          List.getElem?_concat_length
        rcases listeners_run hlater _ _ hlisted with ⟨b', hb', hlisteners⟩
        rw [hb] at hb'
        cases hb'
        rw [hlisteners]
        exact mem_listenersOf.mpr ⟨s, hs, hlive, hproject⟩
    rcases hdelivers.reached id hlistens with ⟨t, ht, hreached⟩
    rw [hs'] at ht
    cases ht
    refine ⟨s', hs', hsame.1, hsame.2.1, hsame.2.2, ?_⟩
    rcases hreached with ⟨room, hroom, -⟩ | hone
    · rw [hdone] at hroom
      cases hroom
    · exact hone
  · intro key hcleaned
    exact hinv.registry.unmapped fun id s hs hkey => (hcleaned id s hs hkey).2

/-- Two subscriptions of one room, one of another; the first is dropped and cleaned up. -/
def visits : List Action :=
  [.subscribe ⟨1, ['a']⟩, .subscribe ⟨1, ['a']⟩, .subscribe ⟨1, ['b']⟩, .drop 2, .removeIfIdle 2,
    .subscribe ⟨1, ['b']⟩, .finishRemove 2]

def news : List Action :=
  [.broadcastProject 1 .presenceLeave, .sendNext 0 1, .sendNext 0 0]

def visited : Registry := (exec step empty visits).getD empty

def informed : Registry := (exec step visited news).getD empty

theorem rooms_are_shared_by_two :
    visited.mapped.lookup ⟨1, ['a']⟩ = some 0
      ∧ ∃ s', informed.subscriptions[1]? = some s' ∧ s'.channel = 0
        ∧ sentCount 0 (informed.received s') = 1 := by
  have hvisits : Run Steps empty visits visited := exec_run (by rfl)
  have hnews : Run Steps visited news informed := exec_run (by rfl)
  have hshared := rooms_are_shared hvisits
  have hsubscription : visited.subscriptions[1]? = some ⟨⟨1, ['a']⟩, 0, 0, true, false⟩ := by rfl
  refine ⟨hshared.1 1 _ hsubscription rfl, ?_⟩
  have hdone : informed.broadcasts[visited.broadcasts.length]?
      = some ⟨.presenceLeave, [], [0, 1, 3]⟩ := by rfl
  rcases hshared.2.2.2.1 1 .presenceLeave _ informed _ hnews hdone rfl 1 _ hsubscription rfl rfl with
    ⟨s', hs', -, hchannel, -, hone⟩
  exact ⟨s', hs', hchannel, hone⟩

end Toss.Collaboration.Registry
