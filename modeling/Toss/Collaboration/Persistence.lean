import Toss.Collaboration.YjsState
import Toss.Workspace.CollaborationProjection

/-!
# Stored collaboration state

`persistence.rs`: the update rows and the latest snapshots of every document
identity, and the statements that read and write them. A row's four identity
columns (`project_id`, `document_id`, `collaboration_revision`,
`content_epoch`) are kept together as one `CollaborationDocument`.
-/

namespace Toss.Collaboration

open Toss.Foundation Toss.Workspace

structure CollaborationDocument where
  projectId : Uuid
  documentId : Uuid
  collaborationRevision : Int
  contentEpoch : Int
deriving DecidableEq, Repr

/-- All but the content epoch: the primary key of the snapshot table. -/
def CollaborationDocument.revision (document : CollaborationDocument) : Uuid × Uuid × Int :=
  (document.projectId, document.documentId, document.collaborationRevision)

/-- The `kind` column; its check constraint admits these two values only. -/
inductive PersistedUpdateKind
  | update
  | sync
deriving DecidableEq, Repr

inductive PersistedUpdateContributor
  | user (id : Uuid)
  | guest (displayName : Text)
deriving DecidableEq, Repr

structure CollaborationUpdateWrite where
  document : CollaborationDocument
  userId : Option Uuid
  kind : PersistedUpdateKind
  payload : Bytes
  guestDisplayName : Option Text
deriving DecidableEq, Repr

/-- A row of `collab_doc_updates`. -/
structure UpdateRow where
  id : Int
  document : CollaborationDocument
  userId : Option Uuid
  kind : PersistedUpdateKind
  payload : Bytes
  guestDisplayName : Option Text
deriving DecidableEq, Repr

/-- A row of `collab_doc_latest_snapshots`. -/
structure SnapshotRow where
  document : CollaborationDocument
  uptoUpdateId : Int
  stateUpdate : Bytes
deriving DecidableEq, Repr

structure CollaborationDb where
  workspace : WorkspaceTables
  updates : List UpdateRow
  snapshots : List SnapshotRow
  /-- The next value of `collab_doc_updates_id_seq`. -/
  nextUpdateId : Int
deriving DecidableEq, Repr

/-- The database after a transaction that reached `inside` did not commit: its
rows are undone, the sequence values it drew are not given back. -/
def CollaborationDb.rollback (db inside : CollaborationDb) : CollaborationDb :=
  { db with
    nextUpdateId := inside.nextUpdateId
    workspace :=
      { db.workspace with nextChangeSequence := inside.workspace.nextChangeSequence } }

/-- What `load_state` returns; also the answer to a bootstrap. -/
structure BootstrapState where
  uptoUpdateId : Int
  snapshotPayload : Option Bytes
  updates : List (PersistedUpdateKind × Bytes)
  contributors : List PersistedUpdateContributor
deriving DecidableEq, Repr

/-! ## Configuration -/

def i64Min : Int := -9223372036854775808

def i64Max : Int := 9223372036854775807

/-- `i64::saturating_sub`. -/
def saturatingSub (a b : Int) : Int :=
  max i64Min (min i64Max (a - b))

def parseDigits : List Char → Option Nat
  | [] => none
  | digits => digits.foldlM (fun value c =>
      if c.isDigit then some (value * 10 + (c.toNat - '0'.toNat)) else none) 0

/-- `str::parse::<i64>`: an optional sign, then digits, within range. -/
def parseI64 (value : Text) : Option Int :=
  let parsed : Option Int := match value with
    | '-' :: digits => (parseDigits digits).map fun n => -(n : Int)
    | '+' :: digits => (parseDigits digits).map fun n => (n : Int)
    | digits => (parseDigits digits).map fun n => (n : Int)
  parsed.filter fun n => i64Min ≤ n ∧ n ≤ i64Max

def parseLimit (value : Option Text) (minimum default : Int) : Int :=
  ((value.bind parseI64).filter fun value => minimum ≤ value).getD default

structure CollaborationPersistence where
  updateRetention : Int
deriving DecidableEq, Repr

/-- `value` is the environment variable `COLLAB_DOC_UPDATE_RETAIN`, if set. -/
def CollaborationPersistence.new (value : Option Text) : CollaborationPersistence where
  updateRetention := parseLimit value 100 4000

/-! ## Statements -/

/-- The identity columns of another revision of the same document. -/
def CollaborationDocument.supersedes (document stored : CollaborationDocument) : Bool :=
  stored.projectId = document.projectId ∧ stored.documentId = document.documentId
    ∧ stored.collaborationRevision ≠ document.collaborationRevision

def clearSupersededDocumentRevisions (db : CollaborationDb) (document : CollaborationDocument) :
    CollaborationDb :=
  { db with
    updates := db.updates.filter fun row => !document.supersedes row.document
    snapshots := db.snapshots.filter fun row => !document.supersedes row.document }

def clearDocumentRevision (db : CollaborationDb) (document : CollaborationDocument) :
    CollaborationDb :=
  { db with
    updates := db.updates.filter fun row => row.document.revision ≠ document.revision
    snapshots := db.snapshots.filter fun row => row.document.revision ≠ document.revision }

def insertUpdate (db : CollaborationDb) (update : CollaborationUpdateWrite) :
    CollaborationDb × Int :=
  ({ db with
      updates := db.updates ++
        [{ id := db.nextUpdateId
           document := update.document
           userId := update.userId
           kind := update.kind
           payload := update.payload
           guestDisplayName := update.guestDisplayName }]
      nextUpdateId := db.nextUpdateId + 1 },
    db.nextUpdateId)

/-- The `where` of the snapshot upsert: a stored snapshot gives way to one of a
later content epoch, or of its own epoch at a watermark that is not lower. -/
def SnapshotRow.givesWayTo (stored excluded : SnapshotRow) : Bool :=
  stored.document.contentEpoch < excluded.document.contentEpoch
    ∨ (stored.document.contentEpoch = excluded.document.contentEpoch
        ∧ stored.uptoUpdateId ≤ excluded.uptoUpdateId)

def upsertSnapshot (db : CollaborationDb) (document : CollaborationDocument)
    (uptoUpdateId : Int) (stateUpdate : Bytes) : CollaborationDb :=
  let excluded : SnapshotRow := { document, uptoUpdateId, stateUpdate }
  if db.snapshots.any (·.document.revision = document.revision) then
    { db with
      snapshots := updateWhere
        (fun stored => stored.document.revision = document.revision && stored.givesWayTo excluded)
        (fun _ => excluded) db.snapshots }
  else
    { db with snapshots := db.snapshots ++ [excluded] }

/-- The `exists` of the pruning: a snapshot of the identity reaches the cutoff. -/
def isCovered (db : CollaborationDb) (document : CollaborationDocument) (cutoff : Int) : Bool :=
  db.snapshots.any fun s => s.document = document ∧ cutoff ≤ s.uptoUpdateId

/-- The rows a pruning at `cutoff` deletes. -/
def isPrunable (db : CollaborationDb) (document : CollaborationDocument) (cutoff : Int)
    (row : UpdateRow) : Bool :=
  row.document = document && row.id < cutoff && isCovered db document cutoff

def pruneUpdates (self : CollaborationPersistence) (db : CollaborationDb)
    (document : CollaborationDocument) (latestUpdateId : Int) : CollaborationDb :=
  let cutoff := saturatingSub latestUpdateId self.updateRetention
  if cutoff ≤ 0 then db
  else { db with updates := db.updates.filter fun row => !isPrunable db document cutoff row }

/-- The author column that is set; a guest's name counts only without a user. -/
def UpdateRow.contributor (row : UpdateRow) : Option PersistedUpdateContributor :=
  (row.userId.map .user).or (row.guestDisplayName.map .guest)

/-- One row of the loop in `load_state`. -/
def loadRow (state : BootstrapState) (row : UpdateRow) : BootstrapState where
  uptoUpdateId := row.id
  snapshotPayload := state.snapshotPayload
  updates := state.updates ++ [(row.kind, row.payload)]
  contributors := match row.contributor with
    | some contributor =>
      if contributor ∈ state.contributors then state.contributors
      else state.contributors ++ [contributor]
    | none => state.contributors

def latestSnapshot (db : CollaborationDb) (document : CollaborationDocument) :
    Option SnapshotRow :=
  db.snapshots.find? (·.document = document)

/-- `upto_update_id` of the stored snapshot, 0 without one. -/
def watermark (db : CollaborationDb) (document : CollaborationDocument) : Int :=
  match latestSnapshot db document with
  | some row => row.uptoUpdateId
  | none => 0

/-- The rows `load_state` selects, in id order. -/
def pendingRows (db : CollaborationDb) (document : CollaborationDocument) : List UpdateRow :=
  orderBy UpdateRow.id
    (db.updates.filter fun row => row.document = document ∧ watermark db document < row.id)

def loadState (db : CollaborationDb) (document : CollaborationDocument) : BootstrapState :=
  (pendingRows db document).foldl loadRow
    { uptoUpdateId := watermark db document
      snapshotPayload := (latestSnapshot db document).map (·.stateUpdate)
      updates := []
      contributors := [] }

/-- `select max(id) from collab_doc_updates where project_id = $1`. -/
def latestProjectUpdateId (db : CollaborationDb) (projectId : Uuid) : Option Int :=
  ((db.updates.filter (·.document.projectId = projectId)).map (·.id)).max?

/-- The identities with a row the snapshot does not cover, by first such row. -/
def pendingProjectDocuments (db : CollaborationDb) (projectId : Uuid) (uptoUpdateId : Int) :
    List CollaborationDocument :=
  let rows := db.updates.filter fun row =>
    row.document.projectId = projectId ∧ row.id ≤ uptoUpdateId
      ∧ watermark db row.document < row.id
  ((orderBy UpdateRow.id rows).map (·.document)).eraseDups

end Toss.Collaboration
