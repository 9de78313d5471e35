import Toss.BrowserBackend.DocumentLineages
import Toss.Foundation.Run

/-!
# The tabs of a browser

`browserCollaborationBackend.ts`: documents opened in any number of tabs over one store. A tab
persists its updates one after another and tells the others through the broadcast channel of the
document and its collaboration revision. Everything asynchronous is a step of its own.

* `DocumentSession` — what `openDocument` holds;
* `Tabs` — the store and the sessions, with what was merged and what was reported as saved;
* `Tabs.step` — a transaction of the store, or a step of a session;
* `TabGuard` — what nothing in the code sees to.
-/

namespace Toss.BrowserBackend

open Toss.Foundation Toss.Workspace

/-- What a document is opened with. -/
structure DocumentConfig where
  projectId : Uuid
  documentId : Uuid
  collaborationRevision : Int
deriving DecidableEq, Repr

inductive Bootstrap (Y : Type)
  | loading
  /-- The answer of `loadDocumentState`, before its callback. -/
  | answered (update : Y)
  | ready
  | failed

/-- The state of `openDocument`. -/
structure DocumentSession (Y : Type) where
  config : DocumentConfig
  ydoc : Y
  bootstrap : Bootstrap Y
  closed : Bool
  /-- The updates whose transactions are not made, the oldest first. -/
  waiting : List Y
  /-- An update whose transaction is made, with the record of it, before its callback. -/
  merged : Option (Y × StoredBrowserDocument Y)
  persistenceFailed : Bool
  /-- For each `sendSyncSnapshot` how many updates it awaits. -/
  snapshots : List Nat
  /-- The messages of the channel that are not delivered. -/
  inbox : List Y

/-- A merge that was committed, and the revision that the record had. -/
structure CommittedMerge where
  config : DocumentConfig
  storedRevision : Int
deriving DecidableEq, Repr

/-- A call of `onSaved`, and the revision that was stored then. -/
structure SavedReport (Y : Type) where
  config : DocumentConfig
  state : Y
  content : Text
  storedRevision : Option Int

structure Tabs (Y : Type) where
  db : BrowserDatabase Y
  /-- What workspace loads have shown. -/
  shown : List DocumentConfig
  /-- The sessions by their senders. -/
  sessions : Uuid → Option (DocumentSession Y)
  merges : List CommittedMerge
  reports : List (SavedReport Y)

inductive TabAction (Y : Type)
  /-- A transaction of the store that is no merge. -/
  | store (action : BrowserAction Y)
  | showDocument (documentId : Uuid)
  | openDocument (sender : Uuid) (config : DocumentConfig)
  | loadDocumentState (sender : Uuid)
  | becomeReady (sender : Uuid)
  | edit (sender : Uuid) (update : Y)
  | persist (sender : Uuid) (aborts : Bool)
  | announce (sender : Uuid)
  | deliver (sender : Uuid)
  | sendSyncSnapshot (sender : Uuid)
  | answerSnapshot (sender : Uuid) (index : Nat)
  | close (sender : Uuid)

variable {Y : Type}

namespace DocumentSession

/-- All that a session shows or is about to show. -/
def view [Max Y] (session : DocumentSession Y) : Y :=
  match session.bootstrap with
  | .answered update => session.ydoc ⊔ update
  | _ => session.ydoc

/-- The store has answered. -/
def answered (session : DocumentSession Y) : Bool :=
  match session.bootstrap with
  | .answered _ | .ready => true
  | .loading | .failed => false

/-- A transaction of the session is settled. -/
def settled (session : DocumentSession Y) : DocumentSession Y :=
  { session with snapshots := session.snapshots.map (· - 1) }

end DocumentSession

namespace Tabs

def put (world : Tabs Y) (sender : Uuid) (session : DocumentSession Y) : Tabs Y :=
  { world with sessions := Function.update world.sessions sender (some session) }

/-- `channel.postMessage`; the other sessions on the channel receive it. -/
def post (world : Tabs Y) (sender : Uuid) (config : DocumentConfig) (update : Y) : Tabs Y :=
  { world with
    sessions := fun other => (world.sessions other).map fun session =>
      if other ≠ sender && !session.closed && session.config = config then
        { session with inbox := session.inbox ++ [update] }
      else session }

/-- `onSaved`. -/
def report (world : Tabs Y) (config : DocumentConfig) (state : Y) (content : Text) : Tabs Y :=
  { world with
    reports :=
      { config
        state
        content
        storedRevision :=
          (world.db.documents.find? (·.id = config.documentId)).map (·.collaborationRevision) }
        :: world.reports }

variable [SemilatticeSup Y] [OrderBot Y]

def empty : Tabs Y :=
  ⟨⟨0, [], [], []⟩, [], fun _ => none, [], []⟩

/-- A transaction of `mergeDocumentUpdate`; `aborts` stands for a failure of IndexedDB. -/
def mergeTransaction (platform : BrowserPlatform Y) (db : BrowserDatabase Y)
    (config : DocumentConfig) (update : Y) (aborts : Bool) :
    Option (BrowserDatabase Y × StoredBrowserDocument Y) :=
  if aborts then none
  else (mergeDocumentUpdate platform db config.projectId config.documentId update).toOption

def persisted (platform : BrowserPlatform Y) (world : Tabs Y) (sender : Uuid)
    (session : DocumentSession Y) (update : Y) (rest : List Y) (aborts : Bool) : Tabs Y :=
  match mergeTransaction platform world.db session.config update aborts with
  | some (db, document) =>
    { world.put sender { session with waiting := rest, merged := some (update, document) } with
      db
      merges := ⟨session.config, document.collaborationRevision⟩ :: world.merges }
  | none =>
    world.put sender { session.settled with waiting := rest, persistenceFailed := true }

def announced (world : Tabs Y) (sender : Uuid) (session : DocumentSession Y) (update : Y)
    (document : StoredBrowserDocument Y) : Tabs Y :=
  let settled := world.put sender
    { session.settled with merged := none, persistenceFailed := false }
  if session.closed then settled
  else
    (settled.post sender session.config update).report session.config document.yUpdate
      document.content

def step (platform : BrowserPlatform Y) (world : Tabs Y) : TabAction Y → Option (Tabs Y)
  | .store (.mergeDocumentUpdate _ _ _) => none
  | .store action => some { world with db := world.db.transact platform action }
  | .showDocument documentId => do
    let document ← world.db.documents.find? (·.id = documentId)
    return { world with
      shown := ⟨document.projectId, document.id, document.collaborationRevision⟩ :: world.shown }
  | .openDocument sender config =>
    if (world.sessions sender).isNone && config ∈ world.shown then
      some (world.put sender ⟨config, ⊥, .loading, false, [], none, false, [], []⟩)
    else none
  | .loadDocumentState sender => do
    let session ← world.sessions sender
    match session.bootstrap with
    | .loading =>
      match BrowserBackend.loadDocumentState world.db session.config.projectId
          session.config.documentId with
      | .ok document => return world.put sender { session with bootstrap := .answered document.yUpdate }
      | .error _ => return world.put sender { session with bootstrap := .failed }
    | _ => none
  | .becomeReady sender => do
    let session ← world.sessions sender
    match session.bootstrap with
    | .answered update =>
      if session.closed then none
      else some (world.put sender
        { session with ydoc := session.ydoc ⊔ update, bootstrap := .ready })
    | _ => none
  | .edit sender update => do
    let session ← world.sessions sender
    if session.closed then none
    else some (world.put sender
      { session with ydoc := session.ydoc ⊔ update, waiting := session.waiting ++ [update] })
  | .persist sender aborts => do
    let session ← world.sessions sender
    match session.merged, session.waiting with
    | none, update :: rest => return world.persisted platform sender session update rest aborts
    | _, _ => none
  | .announce sender => do
    let session ← world.sessions sender
    let (update, document) ← session.merged
    return world.announced sender session update document
  | .deliver sender => do
    let session ← world.sessions sender
    match session.inbox with
    | update :: rest =>
      if session.closed then none
      else some (world.put sender { session with ydoc := session.ydoc ⊔ update, inbox := rest })
    | [] => none
  | .sendSyncSnapshot sender => do
    let session ← world.sessions sender
    some (world.put sender
      { session with
        snapshots := session.snapshots
          ++ [session.waiting.length + if session.merged.isSome then 1 else 0] })
  | .answerSnapshot sender index => do
    let session ← world.sessions sender
    let awaited ← session.snapshots[index]?
    if awaited ≠ 0 then none
    else
      let answered := world.put sender
        { session with snapshots := session.snapshots.eraseIdx index }
      if session.closed || session.persistenceFailed then return answered
      else return answered.report session.config session.ydoc (platform.textOf session.ydoc)
  | .close sender => do
    let session ← world.sessions sender
    return world.put sender { session with closed := true }

end Tabs

/-! ## What nothing sees to -/

/-- The document is stored under the revision of the configuration, if it is stored. -/
def Current (db : BrowserDatabase Y) (config : DocumentConfig) : Prop :=
  ∀ document ∈ db.documents, document.id = config.documentId →
    document.collaborationRevision = config.collaborationRevision

variable [SemilatticeSup Y] [OrderBot Y]

/-- An update is in what the session shows, or on its way there. -/
def DocumentSession.Covers (session : DocumentSession Y) (update : Y) : Prop :=
  ∀ bound, session.view ≤ bound → (∀ message ∈ session.inbox, message ≤ bound) → update ≤ bound

/-- * No document is reset while a session has an update of it under way, and none is edited
  after it was reset.
* An update of an open session is not lost in a failed transaction.
* A session does not close before it has told the others of an update.
* A snapshot is not answered while an update waits. -/
def TabGuard (platform : BrowserPlatform Y) (world : Tabs Y) : TabAction Y → Prop
  | .store action => ∀ sender session, world.sessions sender = some session →
    session.waiting ≠ [] ∨ session.merged.isSome = true →
    ∀ document ∈ world.db.documents, document.id = session.config.documentId →
      ¬ Resets platform world.db action document
  | .edit sender _ => ∀ session, world.sessions sender = some session →
    Current world.db session.config
  | .persist sender aborts => ∀ session update rest, world.sessions sender = some session →
    session.closed = false → session.waiting = update :: rest →
    ∀ document ∈ world.db.documents, document.id = session.config.documentId →
      (Tabs.mergeTransaction platform world.db session.config update aborts).isSome = true
  | .announce sender => ∀ session update document, world.sessions sender = some session →
    session.merged = some (update, document) → session.closed = true →
    ∀ stored ∈ world.db.documents, stored.id = session.config.documentId →
    ∀ other session', world.sessions other = some session' → session'.config = session.config →
      session'.closed = false → session'.answered = true → session'.Covers update
  | .answerSnapshot sender _ => ∀ session, world.sessions sender = some session →
    session.closed = false → session.persistenceFailed = false →
    ∀ document ∈ world.db.documents, document.id = session.config.documentId →
      session.waiting = [] ∧ document.collaborationRevision = session.config.collaborationRevision
  | _ => True

end Toss.BrowserBackend
