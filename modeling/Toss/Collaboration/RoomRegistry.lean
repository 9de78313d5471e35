import Mathlib.Data.List.AList
import Toss.Collaboration.Rooms
import Toss.Foundation.Run

/-!
# The registry of rooms

`CollaborationRooms` of `rooms.rs`: the map from rooms to broadcast channels under its lock,
with every subscription there ever was. A step is what happens under one hold of the lock,
or between two of them; receivers are dropped and counted without it.

* `Registry.step` — subscribing, dropping, `remove_if_idle`, and broadcasts to a project;
* `Registry.received` — what was sent to a channel since a subscription of it was made;
* `RegistryInv` — a live subscription is on the channel that its room is mapped to.

How far a receiver may fall behind what was sent is a matter of its channel.
-/

namespace Toss.Collaboration

open Toss.Foundation Rooms

/-! ## State -/

structure RoomKey where
  projectId : Uuid
  docId : Text
deriving DecidableEq, Repr

abbrev SubscriptionId := Nat

abbrev BroadcastId := Nat

/-- A message in a channel, with the call of `broadcast_project` that it comes from. -/
structure RoomMessage where
  kind : RoomEventKind
  broadcast : Option BroadcastId
deriving DecidableEq, Repr

/-- `broadcast::channel`, made for the room `key`. -/
structure RoomChannel where
  key : RoomKey
  messages : List RoomMessage
deriving DecidableEq, Repr

/-- `RoomSubscription`, with what its holder has done with it. -/
structure RoomSubscription where
  key : RoomKey
  channel : ChannelId
  /-- The length of the channel when its receiver was made. -/
  start : Nat
  live : Bool
  /-- A call of `remove_if_idle` that began after the drop has returned. -/
  cleaned : Bool
deriving DecidableEq, Repr

/-- A call of `broadcast_project` that has listed its rooms. -/
structure ProjectBroadcast where
  kind : RoomEventKind
  /-- The rooms it has still to send to. -/
  pending : List ((_ : RoomKey) × ChannelId)
  /-- The subscriptions of the project that were live when the rooms were listed. -/
  listeners : List SubscriptionId
deriving DecidableEq

structure Registry where
  channels : List RoomChannel
  mapped : AList fun _ : RoomKey => ChannelId
  subscriptions : List RoomSubscription
  /-- The calls of `remove_if_idle` that found no receiver, each by its subscription. -/
  calls : List SubscriptionId
  broadcasts : List ProjectBroadcast

namespace Registry

def empty : Registry := ⟨[], ∅, [], [], []⟩

/-- `receiver_count() == 0`. -/
def isIdle (r : Registry) (channel : ChannelId) : Bool :=
  r.subscriptions.all fun s => !(s.live && s.channel = channel)

def messages (r : Registry) (channel : ChannelId) : List RoomMessage :=
  (r.channels[channel]?.map RoomChannel.messages).getD []

def send (r : Registry) (channel : ChannelId) (message : RoomMessage) : Registry :=
  { r with
    channels := r.channels.modify channel fun c => { c with messages := c.messages ++ [message] } }

/-- `sender.subscribe()`. -/
def addSubscription (r : Registry) (key : RoomKey) (channel : ChannelId) : Registry :=
  { r with
    subscriptions := r.subscriptions ++ [⟨key, channel, (r.messages channel).length, true, false⟩] }

/-- A channel is made for a room. -/
def openRoom (r : Registry) (key : RoomKey) : Registry :=
  { r with
    channels := r.channels ++ [⟨key, []⟩]
    mapped := r.mapped.insert key r.channels.length }

/-- `CollaborationRooms::subscribe`, in its read section or in its write section, which looks
again. -/
def subscribe (r : Registry) (key : RoomKey) : Registry :=
  match r.mapped.lookup key with
  | some channel => r.addSubscription key channel
  | none => (r.openRoom key).addSubscription key r.channels.length

def modifySubscription (r : Registry) (id : SubscriptionId)
    (f : RoomSubscription → RoomSubscription) : Registry :=
  { r with subscriptions := r.subscriptions.modify id f }

/-- The call ends for a subscription that was dropped before it. -/
def cleanUp (s : RoomSubscription) : RoomSubscription :=
  { s with cleaned := !s.live }

/-- The write section of `remove_if_idle`. -/
def removeMapped (r : Registry) (s : RoomSubscription) : Registry :=
  if r.mapped.lookup s.key = some s.channel ∧ r.isIdle s.channel then
    { r with mapped := r.mapped.erase s.key }
  else r

def roomsOf (r : Registry) (projectId : Uuid) : List ((_ : RoomKey) × ChannelId) :=
  r.mapped.entries.filter fun room => room.1.projectId = projectId

def listenersOf (r : Registry) (projectId : Uuid) : List SubscriptionId :=
  (List.range r.subscriptions.length).filter fun id =>
    r.subscriptions[id]?.any fun s => s.live && s.key.projectId = projectId

inductive Action
  | subscribe (key : RoomKey)
  /-- The receiver is dropped. -/
  | drop (id : SubscriptionId)
  /-- `remove_if_idle` is called with the sender of a subscription. -/
  | removeIfIdle (id : SubscriptionId)
  /-- A call that found no receiver gets the write lock. -/
  | finishRemove (id : SubscriptionId)
  /-- Anything else is sent to a channel. -/
  | publish (channel : ChannelId) (kind : RoomEventKind)
  /-- `broadcast_project` lists the rooms. -/
  | broadcastProject (projectId : Uuid) (kind : RoomEventKind)
  /-- A broadcast sends to one of its rooms. -/
  | sendNext (broadcast : BroadcastId) (i : Nat)
deriving DecidableEq, Repr

def step (r : Registry) : Action → Option Registry
  | .subscribe key => some (r.subscribe key)
  | .drop id => do
    let s ← r.subscriptions[id]?
    if s.live then some (r.modifySubscription id fun s => { s with live := false }) else none
  | .removeIfIdle id => do
    let s ← r.subscriptions[id]?
    if r.isIdle s.channel then some { r with calls := id :: r.calls }
    else some (r.modifySubscription id cleanUp)
  | .finishRemove id => do
    let s ← r.subscriptions[id]?
    if id ∈ r.calls then
      some (({ r with calls := r.calls.erase id }.removeMapped s).modifySubscription id cleanUp)
    else none
  | .publish channel kind => some (r.send channel ⟨kind, none⟩)
  | .broadcastProject projectId kind =>
    some { r with
      broadcasts := r.broadcasts ++ [⟨kind, r.roomsOf projectId, r.listenersOf projectId⟩] }
  | .sendNext broadcast i => do
    let b ← r.broadcasts[broadcast]?
    let room ← b.pending[i]?
    some { r.send room.2 ⟨b.kind, some broadcast⟩ with
      broadcasts := r.broadcasts.modify broadcast fun b =>
        { b with pending := b.pending.eraseIdx i } }

/-- What was sent to the channel of a subscription since it was made. -/
def received (r : Registry) (s : RoomSubscription) : List RoomMessage :=
  (r.messages s.channel).drop s.start

end Registry

def sentCount (broadcast : BroadcastId) (messages : List RoomMessage) : Nat :=
  messages.countP fun message => message.broadcast = some broadcast

/-! ## The parts of a changed registry -/

namespace Registry

variable {r : Registry}

variable {channel : ChannelId} {id : SubscriptionId} {s : RoomSubscription} {key : RoomKey}

theorem messages_send_self (h : channel < r.channels.length) (message : RoomMessage) :
    (r.send channel message).messages channel = r.messages channel ++ [message] := by
  have hget := List.getElem?_eq_getElem h
  simp only [messages, send, List.getElem?_modify, hget, if_true, Option.map_some,
    Option.getD_some]
  rfl

theorem messages_send_of_ne {channel other : ChannelId} (hne : other ≠ channel)
    (message : RoomMessage) : (r.send channel message).messages other = r.messages other := by
  simp only [messages, send, List.getElem?_modify, if_neg (Ne.symm hne), Option.map_eq_map,
    Option.map_id']

theorem channels_send_key {channel other : ChannelId} (message : RoomMessage) :
    ((r.send channel message).channels[other]?).map RoomChannel.key
      = r.channels[other]?.map RoomChannel.key := by
  simp only [send, List.getElem?_modify]
  cases r.channels[other]? with
  | none => rfl
  | some c =>
    simp only [Option.map_eq_map, Option.map_some]
    split <;> rfl

theorem mem_roomsOf {projectId : Uuid} {room : (_ : RoomKey) × ChannelId} :
    room ∈ r.roomsOf projectId
      ↔ r.mapped.lookup room.1 = some room.2 ∧ room.1.projectId = projectId := by
  rw [roomsOf, List.mem_filter, decide_eq_true_eq]
  refine and_congr_left' ?_
  rw [← Option.mem_def, AList.mem_lookup_iff]

theorem mem_listenersOf {projectId : Uuid} :
    id ∈ r.listenersOf projectId
      ↔ ∃ s, r.subscriptions[id]? = some s ∧ s.live = true ∧ s.key.projectId = projectId := by
  rw [listenersOf, List.mem_filter, List.mem_range, Option.any_eq_true]
  constructor
  · rintro ⟨-, s, hs, hlive⟩
    rw [Bool.and_eq_true, decide_eq_true_eq] at hlive
    exact ⟨s, hs, hlive⟩
  · rintro ⟨s, hs, hlive, hproject⟩
    refine ⟨(List.getElem?_eq_some_iff.mp hs).1, s, hs, ?_⟩
    simp [hlive, hproject]

theorem isIdle_iff :
    r.isIdle channel = true
      ↔ ∀ (id : SubscriptionId) (s : RoomSubscription),
        r.subscriptions[id]? = some s → s.channel = channel → s.live = false := by
  rw [isIdle, List.all_eq_true]
  constructor
  · intro h id s hs hchannel
    have hs := h s (List.mem_of_getElem? hs)
    simpa [hchannel] using hs
  · intro h s hs
    rcases List.getElem?_of_mem hs with ⟨id, hid⟩
    by_cases hchannel : s.channel = channel
    · simp [h id s hid hchannel]
    · simp [hchannel]

variable {f : RoomSubscription → RoomSubscription}

/-- A subscription of a changed list is an old one, or the one that was changed. -/
theorem getElem?_modifySubscription {id other : SubscriptionId}
    (h : (r.modifySubscription id f).subscriptions[other]? = some s) :
    ∃ old, r.subscriptions[other]? = some old ∧ s = if id = other then f old else old := by
  rw [modifySubscription, List.getElem?_modify] at h
  rcases Option.map_eq_some_iff.mp h with ⟨old, hold, rfl⟩
  refine ⟨old, hold, ?_⟩
  split <;> rfl

/-! ## The invariant -/

/-- The map, the channels and the subscriptions fit together. -/
structure Fits (r : Registry) : Prop where
  mapped : ∀ key channel, r.mapped.lookup key = some channel →
    r.channels[channel]?.map RoomChannel.key = some key
  channel : ∀ (id : SubscriptionId) (s : RoomSubscription), r.subscriptions[id]? = some s →
    r.channels[s.channel]?.map RoomChannel.key = some s.key
      ∧ s.start ≤ (r.messages s.channel).length
  live : ∀ (id : SubscriptionId) (s : RoomSubscription), r.subscriptions[id]? = some s →
    s.live = true → r.mapped.lookup s.key = some s.channel
  cleaned : ∀ (id : SubscriptionId) (s : RoomSubscription), r.subscriptions[id]? = some s →
    s.cleaned = true → s.live = false

/-- A room stays mapped only for a subscription that has still to clean up. -/
def Held (r : Registry) (channel : ChannelId) : Prop :=
  ∃ (id : SubscriptionId) (s : RoomSubscription),
    r.subscriptions[id]? = some s ∧ s.channel = channel ∧ s.cleaned = false

structure RegistryInv (r : Registry) : Prop extends Fits r where
  held : ∀ key channel, r.mapped.lookup key = some channel → r.Held channel

theorem RegistryInv.empty : RegistryInv empty where
  mapped := nofun
  channel := nofun
  live := nofun
  cleaned := nofun
  held := nofun

/-- Only messages are sent. -/
theorem Fits.send (h : Fits r) (channel : ChannelId) (message : RoomMessage) :
    Fits (r.send channel message) where
  mapped := by
    intro key other hkey
    rw [channels_send_key]
    exact h.mapped key other hkey
  channel := by
    intro id s hs
    rcases h.channel id s hs with ⟨hkey, hstart⟩
    rw [channels_send_key]
    refine ⟨hkey, ?_⟩
    by_cases heq : s.channel = channel
    · have hlt : channel < r.channels.length := by
        rcases Option.map_eq_some_iff.mp hkey with ⟨c, hc, -⟩
        rw [← heq]
        exact (List.getElem?_eq_some_iff.mp hc).1
      rw [heq] at hstart ⊢
      rw [messages_send_self hlt, List.length_append]
      exact Nat.le_add_right_of_le hstart
    · rw [messages_send_of_ne heq]
      exact hstart
  live := h.live
  cleaned := h.cleaned

theorem getElem?_addSubscription
    (h : (r.addSubscription key channel).subscriptions[id]? = some s) :
    r.subscriptions[id]? = some s
      ∨ s = ⟨key, channel, (r.messages channel).length, true, false⟩ := by
  rw [addSubscription, List.getElem?_append] at h
  split at h
  · exact .inl h
  rw [List.getElem?_singleton] at h
  split at h
  · exact .inr (Option.some.inj h).symm
  · cases h

theorem getElem?_addSubscription_old (h : r.subscriptions[id]? = some s) :
    (r.addSubscription key channel).subscriptions[id]? = some s := by
  rw [addSubscription, List.getElem?_append_left (List.getElem?_eq_some_iff.mp h).1]
  exact h

/-- A subscription of the channel that is mapped for its room. -/
theorem Fits.addSubscription (h : Fits r)
    (hmapped : r.mapped.lookup key = some channel) : Fits (r.addSubscription key channel) where
  mapped := h.mapped
  channel := by
    intro id s hs
    rcases getElem?_addSubscription hs with hs | rfl
    · exact h.channel id s hs
    · exact ⟨h.mapped key channel hmapped, le_refl _⟩
  live := by
    intro id s hs hlive
    rcases getElem?_addSubscription hs with hs | rfl
    · exact h.live id s hs hlive
    · exact hmapped
  cleaned := by
    intro id s hs hcleaned
    rcases getElem?_addSubscription hs with hs | rfl
    · exact h.cleaned id s hs hcleaned
    · cases hcleaned

theorem held_addSubscription_self (key : RoomKey) (channel : ChannelId) :
    (r.addSubscription key channel).Held channel :=
  ⟨r.subscriptions.length, ⟨key, channel, (r.messages channel).length, true, false⟩,
    List.getElem?_concat_length, rfl, rfl⟩

theorem Held.addSubscription {channel other : ChannelId} (h : r.Held channel) (key : RoomKey) :
    (r.addSubscription key other).Held channel := by
  rcases h with ⟨id, s, hs, hchannel⟩
  exact ⟨id, s, getElem?_addSubscription_old hs, hchannel⟩

theorem messages_openRoom (h : channel < r.channels.length) :
    (r.openRoom key).messages channel = r.messages channel := by
  rw [messages, messages, openRoom, List.getElem?_append_left h]

theorem channels_openRoom {other : RoomKey}
    (h : r.channels[channel]?.map RoomChannel.key = some other) :
    channel < r.channels.length
      ∧ (r.openRoom key).channels[channel]?.map RoomChannel.key = some other := by
  rcases Option.map_eq_some_iff.mp h with ⟨c, hc, -⟩
  have hlt := (List.getElem?_eq_some_iff.mp hc).1
  refine ⟨hlt, ?_⟩
  rw [openRoom, List.getElem?_append_left hlt]
  exact h

/-- The room had no channel, so no subscription of it is live. -/
theorem Fits.openRoom (h : Fits r) (hnone : r.mapped.lookup key = none) :
    Fits (r.openRoom key) where
  mapped := by
    intro other channel hother
    by_cases heq : other = key
    · subst heq
      have hchannel : r.channels.length = channel := by
        simpa [Registry.openRoom] using hother
      rw [← hchannel]
      simp [Registry.openRoom]
    · have hold : r.mapped.lookup other = some channel := by
        rw [Registry.openRoom, AList.lookup_insert_ne heq] at hother
        exact hother
      exact (channels_openRoom (h.mapped other channel hold)).2
  channel := by
    intro id s hs
    rcases h.channel id s hs with ⟨hkey, hstart⟩
    rcases channels_openRoom hkey with ⟨hlt, hkey'⟩
    rw [messages_openRoom hlt]
    exact ⟨hkey', hstart⟩
  live := by
    intro id s hs hlive
    have hold := h.live id s hs hlive
    have hne : s.key ≠ key := by
      intro heq
      rw [heq, hnone] at hold
      cases hold
    rw [Registry.openRoom, AList.lookup_insert_ne hne]
    exact hold
  cleaned := h.cleaned

theorem RegistryInv.subscribe (h : RegistryInv r) (key : RoomKey) :
    RegistryInv (r.subscribe key) := by
  rw [Registry.subscribe]
  cases hmapped : r.mapped.lookup key with
  | some channel =>
    refine ⟨h.toFits.addSubscription hmapped, ?_⟩
    intro other channel' hother
    exact (h.held other channel' hother).addSubscription key
  | none =>
    have hself : (r.openRoom key).mapped.lookup key = some r.channels.length := by
      rw [openRoom, AList.lookup_insert]
    refine ⟨(h.toFits.openRoom hmapped).addSubscription hself, ?_⟩
    intro other channel' hother
    by_cases heq : other = key
    · have hchannel : r.channels.length = channel' := by
        rw [heq] at hother
        exact Option.some.inj (hself.symm.trans hother)
      rw [← hchannel]
      exact held_addSubscription_self key r.channels.length
    · have hold : r.mapped.lookup other = some channel' := by
        have hother' : (r.openRoom key).mapped.lookup other = some channel' := hother
        rw [openRoom, AList.lookup_insert_ne heq] at hother'
        exact hother'
      rcases h.held other channel' hold with ⟨id, s, hs, hchannel⟩
      have hheld : (r.openRoom key).Held channel' := ⟨id, s, hs, hchannel⟩
      exact hheld.addSubscription key

/-- A subscription goes on to be cleaned up: it is not made live again, and is cleaned up only
once it is not live. -/
theorem Fits.modifySubscription (h : Fits r) (id : SubscriptionId)
    (hsame : ∀ s, (f s).key = s.key ∧ (f s).channel = s.channel ∧ (f s).start = s.start)
    (hlive : ∀ s, (f s).live = true → s.live = true)
    (hcleaned : ∀ s, (s.cleaned = true → s.live = false) → (f s).cleaned = true →
      (f s).live = false) :
    Fits (r.modifySubscription id f) where
  mapped := h.mapped
  channel := by
    intro other s hs
    rcases getElem?_modifySubscription hs with ⟨old, hold, rfl⟩
    have hchannel := h.channel other old hold
    split
    · rcases hsame old with ⟨hkey, hchan, hstart⟩
      rw [hkey, hchan, hstart]
      exact hchannel
    · exact hchannel
  live := by
    intro other s hs hslive
    rcases getElem?_modifySubscription hs with ⟨old, hold, rfl⟩
    split at hslive
    · rename_i hid
      rcases hsame old with ⟨hkey, hchan, -⟩
      rw [if_pos hid, hkey, hchan]
      exact h.live other old hold (hlive old hslive)
    · rename_i hid
      rw [if_neg hid]
      exact h.live other old hold hslive
  cleaned := by
    intro other s hs hscleaned
    rcases getElem?_modifySubscription hs with ⟨old, hold, rfl⟩
    split at hscleaned
    · rename_i hid
      rw [if_pos hid]
      exact hcleaned old (h.cleaned other old hold) hscleaned
    · rename_i hid
      rw [if_neg hid]
      exact h.cleaned other old hold hscleaned

theorem getElem?_modifySubscription_old {id other : SubscriptionId}
    (h : r.subscriptions[other]? = some s) :
    (r.modifySubscription id f).subscriptions[other]? = some (if id = other then f s else s) := by
  rw [modifySubscription, List.getElem?_modify, h]
  split <;> rfl

theorem RegistryInv.drop (h : RegistryInv r) (id : SubscriptionId) :
    RegistryInv (r.modifySubscription id fun s => { s with live := false }) where
  toFits := h.toFits.modifySubscription id (fun _ => ⟨rfl, rfl, rfl⟩) nofun fun _ _ _ => rfl
  held := by
    intro key channel hkey
    rcases h.held key channel hkey with ⟨other, s, hs, hchannel, hcleaned⟩
    refine ⟨other, _, getElem?_modifySubscription_old hs, ?_⟩
    split
    · exact ⟨hchannel, hcleaned⟩
    · exact ⟨hchannel, hcleaned⟩

theorem Fits.cleanUp (h : Fits r) (id : SubscriptionId) :
    Fits (r.modifySubscription id Registry.cleanUp) := by
  refine h.modifySubscription id (fun _ => ⟨rfl, rfl, rfl⟩) (fun _ hlive => hlive) ?_
  intro s _ hcleaned
  simpa [Registry.cleanUp] using hcleaned

/-- The clean-up of one subscription leaves a mapped room to another: one with a receiver, or
one of another channel. -/
theorem Held.cleanUp (hfits : Fits r) (h : r.Held channel) (hs : r.subscriptions[id]? = some s)
    (hother : s.channel = channel → r.isIdle channel = false) :
    (r.modifySubscription id Registry.cleanUp).Held channel := by
  rcases h with ⟨holder, t, ht, hchannel, hcleaned⟩
  by_cases hid : id = holder
  · rw [← hid, hs] at ht
    cases ht
    have hbusy : ¬r.isIdle channel = true := by simp [hother hchannel]
    rw [isIdle_iff] at hbusy
    push Not at hbusy
    rcases hbusy with ⟨other, u, hu, huchannel, hulive⟩
    have hlive : u.live = true := by simpa using hulive
    have hucleaned : u.cleaned = false := by
      cases hc : u.cleaned with
      | false => rfl
      | true => rw [hfits.cleaned other u hu hc] at hlive; cases hlive
    refine ⟨other, _, getElem?_modifySubscription_old hu, ?_⟩
    split
    · exact ⟨huchannel, by simp [Registry.cleanUp, hlive]⟩
    · exact ⟨huchannel, hucleaned⟩
  · refine ⟨holder, _, getElem?_modifySubscription_old ht, ?_⟩
    rw [if_neg hid]
    exact ⟨hchannel, hcleaned⟩

theorem Fits.channel_lt (h : Fits r)
    (hs : r.subscriptions[id]? = some s) : s.channel < r.channels.length := by
  rcases Option.map_eq_some_iff.mp (h.channel id s hs).1 with ⟨c, hc, -⟩
  exact (List.getElem?_eq_some_iff.mp hc).1

/-- A channel is made for one room. -/
theorem Fits.key_eq (h : Fits r) (hs : r.subscriptions[id]? = some s)
    (hkey : r.mapped.lookup key = some s.channel) : s.key = key := by
  have howner := (h.channel id s hs).1
  rw [h.mapped key s.channel hkey] at howner
  exact (Option.some.inj howner).symm

theorem Fits.removeMapped (h : Fits r) : Fits (r.removeMapped s) := by
  rw [Registry.removeMapped]
  split
  · next hremove =>
    refine ⟨?_, h.channel, ?_, h.cleaned⟩
    · intro key channel hkey
      by_cases heq : key = s.key
      · rw [heq, AList.lookup_erase] at hkey
        cases hkey
      · rw [AList.lookup_erase_ne heq] at hkey
        exact h.mapped key channel hkey
    · intro other t ht hlive
      have hmapped := h.live other t ht hlive
      have hne : t.key ≠ s.key := by
        intro heq
        -- it would be on the removed channel, which has no receiver
        have hchannel : t.channel = s.channel := by
          rw [heq, hremove.1] at hmapped
          exact (Option.some.inj hmapped).symm
        have hdead := isIdle_iff.mp hremove.2 other t ht hchannel
        rw [hlive] at hdead
        cases hdead
      rw [AList.lookup_erase_ne hne]
      exact hmapped
  · exact h

theorem RegistryInv.finishRemove (h : RegistryInv r) (hs : r.subscriptions[id]? = some s) :
    RegistryInv ((r.removeMapped s).modifySubscription id Registry.cleanUp) where
  toFits := h.toFits.removeMapped.cleanUp id
  held := by
    intro key channel hkey
    have hfits : Fits (r.removeMapped s) := h.toFits.removeMapped
    have hsubscriptions : (r.removeMapped s).subscriptions = r.subscriptions := by
      rw [Registry.removeMapped]
      split <;> rfl
    have hkey' : (r.removeMapped s).mapped.lookup key = some channel := hkey
    have hmapped : r.mapped.lookup key = some channel
        ∧ (s.channel = channel → r.isIdle channel = false) := by
      rw [Registry.removeMapped] at hkey'
      split at hkey'
      · next hremove =>
        have hne : key ≠ s.key := by
          intro heq
          rw [heq, AList.lookup_erase] at hkey'
          cases hkey'
        rw [AList.lookup_erase_ne hne] at hkey'
        refine ⟨hkey', ?_⟩
        intro heq
        rw [← heq] at hkey'
        exact absurd (h.toFits.key_eq hs hkey').symm hne
      · next hkeep =>
        refine ⟨hkey', ?_⟩
        intro heq
        rw [← heq] at hkey' ⊢
        have hsame := h.toFits.key_eq hs hkey'
        rw [← hsame] at hkey'
        simpa [hkey'] using hkeep
    have hheld : (r.removeMapped s).Held channel := by
      rcases h.held key channel hmapped.1 with ⟨other, t, ht, hrest⟩
      exact ⟨other, t, by rw [hsubscriptions]; exact ht, hrest⟩
    have hidle : (r.removeMapped s).isIdle channel = r.isIdle channel := by
      rw [isIdle, isIdle, hsubscriptions]
    refine hheld.cleanUp hfits (by rw [hsubscriptions]; exact hs) ?_
    intro heq
    rw [hidle]
    exact hmapped.2 heq

theorem RegistryInv.step (h : RegistryInv r) {action : Action} {r' : Registry}
    (hstep : r.step action = some r') : RegistryInv r' := by
  cases action with
  | subscribe key =>
    cases hstep
    exact h.subscribe key
  | drop id =>
    rcases Option.bind_eq_some_iff.mp hstep with ⟨s, -, hdrop⟩
    split at hdrop
    · cases hdrop
      exact h.drop id
    · cases hdrop
  | removeIfIdle id =>
    -- the room is removed only if nobody is subscribed any more
    rcases Option.bind_eq_some_iff.mp hstep with ⟨s, hs, hremove⟩
    split at hremove
    · cases hremove
      exact ⟨⟨h.mapped, h.channel, h.live, h.cleaned⟩, h.held⟩
    rename_i hbusy
    cases hremove
    refine ⟨h.toFits.cleanUp id, ?_⟩
    intro key channel hkey
    refine (h.held key channel hkey).cleanUp h.toFits hs ?_
    intro heq
    rw [← heq]
    simpa using hbusy
  | finishRemove id =>
    rcases Option.bind_eq_some_iff.mp hstep with ⟨s, hget, hremove⟩
    split at hremove
    · cases hremove
      have hcalls : RegistryInv { r with calls := r.calls.erase id } :=
        ⟨⟨h.mapped, h.channel, h.live, h.cleaned⟩, h.held⟩
      exact hcalls.finishRemove hget
    · cases hremove
  | publish channel kind =>
    cases hstep
    exact ⟨h.toFits.send channel ⟨kind, none⟩, h.held⟩
  | broadcastProject projectId kind =>
    cases hstep
    exact ⟨⟨h.mapped, h.channel, h.live, h.cleaned⟩, h.held⟩
  | sendNext broadcast i =>
    rcases Option.bind_eq_some_iff.mp hstep with ⟨b, hb, hsend⟩
    rcases Option.bind_eq_some_iff.mp hsend with ⟨room, hroom, hsend⟩
    cases hsend
    have hsent := h.toFits.send room.2 ⟨b.kind, some broadcast⟩
    exact ⟨⟨hsent.mapped, hsent.channel, hsent.live, hsent.cleaned⟩, h.held⟩

end Registry

end Toss.Collaboration
