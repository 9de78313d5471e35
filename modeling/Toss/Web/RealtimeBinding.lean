import Mathlib.Data.List.Perm.Basic
import Toss.Collaboration.YjsState

/-!
# The realtime binding of a Y.Doc

`bindRealtimeYDoc` of `realtime.ts`: one WebSocket after another carries a Y.Doc to
the server. A local change is sent at once on a socket that has finished its
bootstrap, and the whole document when a bootstrap is done; snapshots are
acknowledged one by one.

* `Binding` — the variables of the binding, its sockets, and a history of the local
  changes and of the promises it settled;
* `Action`, `step` — events of the browser and calls of the editor, each handled to
  its end before the next;
* `Delivered`, `SettledOnce` — what the binding owes the editor.

Presence, the reconnect countdown and the status callbacks are left out.
-/

namespace Toss.Web.Realtime

open Toss.Collaboration

/-- `PROTOCOL_INCOMPATIBLE_CLOSE_CODE`. -/
def protocolIncompatibleCloseCode : Nat := 4406

def isProtocolIncompatibleClose (code : Nat) : Bool :=
  code = protocolIncompatibleCloseCode

inductive ReadyState
  | connecting
  | opened
  | closing
  | closed
deriving DecidableEq, Repr

/-- The messages that carry the document; `requestId` is the number in the request
identifier. -/
inductive ClientMessage
  | sync (requestId : Nat) (payload : Bytes)
  | update (requestId : Nat) (payload : Bytes)
deriving DecidableEq, Repr

def ClientMessage.isSync : ClientMessage → Bool
  | .sync .. => true
  | .update .. => false

structure Socket where
  readyState : ReadyState
  sent : List ClientMessage
deriving DecidableEq, Repr

abbrev SocketId := Nat

/-- An entry of `pendingSnapshots`; its timeout is armed as long as it is there. -/
structure PendingSnapshot where
  requestId : Nat
  content : Text
deriving DecidableEq, Repr

inductive SettledBy
  | acknowledgement
  | timeout
  | disconnect
  | dispose
deriving DecidableEq, Repr

/-- A call of `resolve` of a snapshot's promise. -/
structure Settlement where
  requestId : Nat
  acknowledged : Bool
  settledBy : SettledBy
deriving DecidableEq, Repr

structure Binding (State : Type) where
  canWrite : Bool
  ydoc : State
  sockets : List Socket
  ws : Option SocketId
  closed : Bool
  bootstrapComplete : Bool
  /-- `reconnectAttemptTimer` and `snapshotTimer` are armed. -/
  reconnectAttemptTimer : Bool
  snapshotTimer : Bool
  requestSequence : Nat
  pendingSnapshots : List PendingSnapshot
  /-- The `update` listener is on the Y.Doc. -/
  listening : Bool
  /-- What `onSnapshotAcknowledged` was called with. -/
  saved : List Text
  /-- The local changes of the Y.Doc. -/
  localChanges : List State
  /-- The request identifiers of the snapshot promises, and how each was settled. -/
  promises : List Nat
  settlements : List Settlement

namespace Binding

variable {State : Type}

def stopReconnectCountdown (b : Binding State) : Binding State :=
  { b with reconnectAttemptTimer := false }

def clearSnapshotTimer (b : Binding State) : Binding State :=
  { b with snapshotTimer := false }

def settlePendingSnapshots (b : Binding State) (acknowledged : Bool) (settledBy : SettledBy) :
    Binding State :=
  { b with
    pendingSnapshots := []
    settlements := b.settlements ++ b.pendingSnapshots.map fun pending =>
      { requestId := pending.requestId, acknowledged, settledBy } }

def startReconnectCountdown (b : Binding State) (closeCode : Option Nat) : Binding State :=
  if b.closed then b
  else if closeCode.any isProtocolIncompatibleClose then
    { b with closed := true, reconnectAttemptTimer := false }
  else { b with reconnectAttemptTimer := true }

def isOpen (b : Binding State) (id : SocketId) : Bool :=
  b.sockets[id]?.any fun socket => socket.readyState = .opened

def send (b : Binding State) (id : SocketId) (message : ClientMessage) : Binding State :=
  { b with
    sockets := b.sockets.modify id fun socket => { socket with sent := socket.sent ++ [message] } }

/-- `socket.close()`. -/
def closeSocket (b : Binding State) (id : SocketId) : Binding State :=
  { b with
    sockets := b.sockets.modify id fun socket =>
      match socket.readyState with
      | .connecting | .opened => { socket with readyState := .closing }
      | .closing | .closed => socket }

def connect (b : Binding State) : Binding State :=
  if b.closed then b
  else
    { b.stopReconnectCountdown with
      sockets := b.sockets ++ [{ readyState := .connecting, sent := [] }]
      ws := some b.sockets.length
      bootstrapComplete := false }

def reconnectNow (b : Binding State) : Binding State :=
  if b.closed then b
  else
    match b.ws with
    | none => b.connect
    | some id =>
      if b.sockets[id]?.any fun socket => socket.readyState = .closed then b.connect else b

/-- The function that `bindRealtimeYDoc` returns as `close`. -/
def close (b : Binding State) : Binding State :=
  let stopped : Binding State :=
    { b.clearSnapshotTimer.stopReconnectCountdown with closed := true, listening := false }
  let settled := stopped.settlePendingSnapshots false .dispose
  let shut := match settled.ws with
    | some id => settled.closeSocket id
    | none => settled
  { shut with ws := none }

def handleDisconnect (b : Binding State) (id : SocketId) (closeCode : Nat) : Binding State :=
  if b.closed || b.ws ≠ some id then b
  else (b.settlePendingSnapshots false .disconnect).startReconnectCountdown (some closeCode)

/-- `yjs.ack`. -/
def acknowledge (b : Binding State) (requestId : Nat) (projected : Bool) : Binding State :=
  match b.pendingSnapshots.find? fun pending => pending.requestId = requestId with
  | some pending =>
    { b with
      pendingSnapshots := b.pendingSnapshots.filter fun other => other.requestId ≠ requestId
      saved := if projected then b.saved ++ [pending.content] else b.saved
      settlements := b.settlements ++
        [{ requestId, acknowledged := projected, settledBy := .acknowledgement }] }
  | none => b

/-- The timeout of a snapshot fires. -/
def snapshotTimeout (b : Binding State) (requestId : Nat) : Binding State :=
  if b.pendingSnapshots.any fun pending => pending.requestId = requestId then
    { b with
      pendingSnapshots := b.pendingSnapshots.filter fun other => other.requestId ≠ requestId
      settlements := b.settlements ++
        [{ requestId, acknowledged := false, settledBy := .timeout }] }
  else b

variable (yjs : YjsLibrary State)

def sendSnapshotTo (b : Binding State) (id : SocketId) : Binding State :=
  if !b.canWrite || !b.isOpen id then b
  else
    let requestId := b.requestSequence + 1
    let registered : Binding State :=
      { b with
        requestSequence := requestId
        pendingSnapshots :=
          b.pendingSnapshots ++ [{ requestId, content := yjs.getString b.ydoc }]
        promises := b.promises ++ [requestId] }
    registered.send id (.sync requestId (yjs.encode b.ydoc))

def sendSyncSnapshot (b : Binding State) : Binding State :=
  if !b.canWrite || !b.bootstrapComplete then b
  else
    match b.ws with
    | some id => if b.isOpen id then b.clearSnapshotTimer.sendSnapshotTo yjs id else b
    | none => b

/-- `snapshotTimer` fires. -/
def snapshotDebounced (b : Binding State) : Binding State :=
  if !b.snapshotTimer then b
  else
    match b.ws with
    | some id =>
      if b.bootstrapComplete then b.clearSnapshotTimer.sendSnapshotTo yjs id
      else b.clearSnapshotTimer
    | none => b.clearSnapshotTimer

def onLocalUpdate (b : Binding State) (update : Bytes) : Binding State :=
  let armed : Binding State := { b with snapshotTimer := true }
  if armed.closed || !armed.bootstrapComplete then armed
  else
    match armed.ws with
    | some id =>
      if armed.isOpen id then
        { armed with requestSequence := armed.requestSequence + 1 }.send id
          (.update (armed.requestSequence + 1) update)
      else armed
    | none => armed

variable [SemilatticeSup State]

/-- The editor, or the local persistence of the document, changes the Y.Doc. -/
def editLocally (b : Binding State) (change : State) : Binding State :=
  let changed : Binding State :=
    { b with ydoc := b.ydoc ⊔ change, localChanges := b.localChanges ++ [change] }
  if changed.listening then changed.onLocalUpdate (yjs.encode change) else changed

/-- `bootstrap.done`; `edits` are made by `onBootstrapDone`. -/
def bootstrapDone (b : Binding State) (id : SocketId) (edits : List State) : Binding State :=
  if b.bootstrapComplete then b
  else
    let complete : Binding State := { b with bootstrapComplete := true }
    (edits.foldl (editLocally yjs) complete).sendSnapshotTo yjs id

end Binding

/-! ## Events -/

inductive ServerMessage (State : Type)
  | ack (requestId : Nat) (projected : Bool)
  /-- `yjs.update` and `yjs.sync`. -/
  | yjs (payload : Bytes)
  | bootstrapDone (edits : List State)
  /-- `document.changed`, `project.replaced` and `access.changed`. -/
  | superseded
  /-- `server.error` with `resync_required`. -/
  | resyncRequired

inductive Action (State : Type)
  /-- Events of a WebSocket; `closing` has no listener. -/
  | opened (socket : SocketId)
  | message (socket : SocketId) (message : ServerMessage State)
  | closing (socket : SocketId)
  | closed (socket : SocketId) (closeCode : Nat)
  /-- Timers. -/
  | snapshotDebounced
  | snapshotTimeout (requestId : Nat)
  | reconnectAttempt
  /-- The editor. -/
  | edit (change : State)
  | sendSyncSnapshot
  | reconnectNow
  | close

variable {State : Type} (yjs : YjsLibrary State) [SemilatticeSup State]

/-- The `message` listener of a socket. -/
def onMessage (b : Binding State) (id : SocketId) : ServerMessage State → Binding State
  | .ack requestId projected => b.acknowledge requestId projected
  | .yjs payload =>
    -- `applyUpdate` throws on a malformed payload, and the event is ignored
    match applyUpdate yjs b.ydoc payload with
    | .ok ydoc => { b with ydoc }
    | .error _ => b
  | .bootstrapDone edits => b.bootstrapDone yjs id edits
  | .superseded => { b.stopReconnectCountdown with closed := true }.closeSocket id
  | .resyncRequired => (b.closeSocket id).startReconnectCountdown none

def setReadyState (b : Binding State) (id : SocketId) (readyState : ReadyState) : Binding State :=
  { b with sockets := b.sockets.modify id fun socket => { socket with readyState } }

def hasReadyState (b : Binding State) (id : SocketId) (readyStates : List ReadyState) : Bool :=
  b.sockets[id]?.any fun socket => socket.readyState ∈ readyStates

/-- An event is handled to its end. The browser opens a socket that is connecting,
delivers messages to an open one, and closes each socket once. -/
def step (b : Binding State) : Action State → Binding State
  | .opened id =>
    if hasReadyState b id [.connecting] then
      let opened := setReadyState b id .opened
      if opened.closed || opened.ws ≠ some id then opened else opened.stopReconnectCountdown
    else b
  | .message id message =>
    if hasReadyState b id [.opened] then
      if b.closed || b.ws ≠ some id then b else onMessage yjs b id message
    else b
  | .closing id =>
    if hasReadyState b id [.connecting, .opened] then setReadyState b id .closing else b
  | .closed id closeCode =>
    if hasReadyState b id [.connecting, .opened, .closing] then
      (setReadyState b id .closed).handleDisconnect id closeCode
    else b
  | .snapshotDebounced => b.snapshotDebounced yjs
  | .snapshotTimeout requestId => b.snapshotTimeout requestId
  | .reconnectAttempt =>
    if b.reconnectAttemptTimer && !b.closed then b.stopReconnectCountdown.connect else b
  | .edit change => b.editLocally yjs change
  | .sendSyncSnapshot => b.sendSyncSnapshot yjs
  | .reconnectNow => b.reconnectNow
  | .close => b.close

/-- `bindRealtimeYDoc` on a Y.Doc that is in the state `ydoc`, made by local changes. -/
def bind (canWrite : Bool) (ydoc : State) : Binding State :=
  let unconnected : Binding State :=
    { canWrite
      ydoc
      sockets := []
      ws := none
      closed := false
      bootstrapComplete := false
      reconnectAttemptTimer := false
      snapshotTimer := false
      requestSequence := 0
      pendingSnapshots := []
      listening := true
      saved := []
      localChanges := [ydoc]
      promises := []
      settlements := [] }
  unconnected.connect

/-- The binding after the events. -/
def after (canWrite : Bool) (ydoc : State) (actions : List (Action State)) : Binding State :=
  actions.foldl (step yjs) (bind canWrite ydoc)

/-! ## What the binding owes -/

/-- The change has been sent on the socket: in the document that the first snapshot
carries, or as an update of its own. -/
def Socket.Carries (socket : Socket) (change : State) : Prop :=
  (∃ requestId state, socket.sent.find? ClientMessage.isSync
      = some (.sync requestId (yjs.encode state)) ∧ change ≤ state)
    ∨ ∃ requestId, .update requestId (yjs.encode change) ∈ socket.sent

/-- Writable, connected and with its bootstrap complete, the binding has sent every
local change of the Y.Doc on its socket. -/
def Delivered (b : Binding State) : Prop :=
  ∀ (id : SocketId) (socket : Socket), b.canWrite = true → b.ws = some id →
    b.sockets[id]? = some socket → socket.readyState = .opened → b.bootstrapComplete = true →
      ∀ change ∈ b.localChanges, socket.Carries yjs change

/-- Every snapshot promise is pending with its timeout armed or has been settled, and
only once. -/
def SettledOnce (b : Binding State) : Prop :=
  b.promises.Nodup
    ∧ (b.pendingSnapshots.map (·.requestId) ++ b.settlements.map (·.requestId)).Perm b.promises

end Toss.Web.Realtime
