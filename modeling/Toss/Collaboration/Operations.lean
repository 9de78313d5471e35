import Toss.Collaboration.Persistence
import Toss.Access.AccessEpoch

/-!
# Operations on the stored collaboration state

`projection.rs`, `bootstrap.rs` and `updates.rs`: the transactions that append
an update, compact the log of a document into its snapshot and project the
merged text. A function that runs inside a transaction returns the database as
the transaction sees it; the operation that owns the transaction commits it or
rolls it back.
-/

namespace Toss.Collaboration

open Toss.Foundation Toss.Workspace Toss.Access

/-- `WorkspaceChange::Document`, announced after a projection. -/
abbrev WorkspaceChange := ProjectedCollaborationDocument

structure ReconciledCollaborationDocument where
  snapshotPayload : Bytes
  uptoUpdateId : Int
  workspaceChange : Option WorkspaceChange
deriving DecidableEq, Repr

inductive ReconcileCollaborationDocumentOutcome
  | current (compacted : ReconciledCollaborationDocument)
  | contentEpochChanged
  | documentChanged
deriving DecidableEq, Repr

inductive ReconcileCollaborationDocumentError
  | merge (projectId : Uuid) (source : YjsStateError)
  | projection (projectId : Uuid) (source : CollaborationProjectionError)
deriving DecidableEq, Repr

section

variable {State : Type} [SemilatticeSup State] [OrderBot State]
variable (yjs : YjsLibrary State) (self : CollaborationPersistence)

/-! ## projection.rs -/

def contributors (state : BootstrapState) : List CollaborationContributor :=
  state.contributors.map fun
    | .user id => CollaborationContributor.user id
    | .guest displayName => CollaborationContributor.guest displayName

/-- What Workspace is asked to project. -/
def projectionOf (document : CollaborationDocument) (state : BootstrapState) (text : Text) :
    ProjectCollaborationDocument where
  projectId := document.projectId
  documentId := document.documentId
  collaborationRevision := document.collaborationRevision
  contentEpoch := document.contentEpoch
  text := text
  contributors := contributors state

/-- The snapshot takes the merged state at the watermark that was loaded, and
the rows that far behind the watermark are pruned. -/
def compact (db : CollaborationDb) (document : CollaborationDocument) (uptoUpdateId : Int)
    (update : Bytes) : CollaborationDb :=
  pruneUpdates self (upsertSnapshot db document uptoUpdateId update) document uptoUpdateId

def reconcileCollaborationDocument (db : CollaborationDb) (document : CollaborationDocument)
    (state : BootstrapState) (canonicalSeed : Option Bytes) :
    CollaborationDb ×
      Except ReconcileCollaborationDocumentError ReconcileCollaborationDocumentOutcome :=
  match mergeUpdates yjs (state.snapshotPayload.or canonicalSeed)
      (state.updates.map Prod.snd) with
  | .error source => (db, .error (.merge document.projectId source))
  | .ok merged =>
    let (workspace, projection) :=
      projectCollaborationDocument db.workspace (projectionOf document state merged.text)
    let db := { db with workspace }
    let current (workspaceChange : Option WorkspaceChange) :=
      (compact self db document state.uptoUpdateId merged.update,
        .ok (.current
          { snapshotPayload := merged.update
            uptoUpdateId := state.uptoUpdateId
            workspaceChange }))
    match projection with
    | .error source => (db, .error (.projection document.projectId source))
    | .ok (.projected projected) => current (some projected)
    | .ok .unchanged => current none
    | .ok .contentEpochChanged => (db, .ok .contentEpochChanged)
    | .ok .documentChanged => (clearDocumentRevision db document, .ok .documentChanged)

/-- Committed unless the content epoch is stale or an error is raised. -/
def reconcilePendingDocument (db : CollaborationDb) (document : CollaborationDocument) :
    CollaborationDb ×
      Except ReconcileCollaborationDocumentError ReconcileCollaborationDocumentOutcome :=
  if lockProjectContentEpoch db.workspace document.projectId document.contentEpoch ≠ .current then
    (db, .ok .contentEpochChanged)
  else
    match reconcileCollaborationDocument yjs self db document (loadState db document) none with
    | (inside, .error source) => (db.rollback inside, .error source)
    | (inside, .ok outcome) => (inside, .ok outcome)

/-- Each document in its own transaction; the first error ends the flush. -/
def flushDocuments (db : CollaborationDb) :
    List CollaborationDocument →
      CollaborationDb × Except ReconcileCollaborationDocumentError (List WorkspaceChange)
  | [] => (db, .ok [])
  | document :: documents =>
    match reconcilePendingDocument yjs self db document with
    | (db, .error source) => (db, .error source)
    | (db, .ok outcome) =>
      let change := match outcome with
        | .current compacted => compacted.workspaceChange.toList
        | _ => []
      let (db, rest) := flushDocuments db documents
      (db, rest.map (change ++ ·))

def flushProjectCollaboration (db : CollaborationDb) (projectId : Uuid) :
    CollaborationDb × Except ReconcileCollaborationDocumentError (List WorkspaceChange) :=
  match latestProjectUpdateId db projectId with
  | none => (db, .ok [])
  | some targetUpdateId =>
    flushDocuments yjs self db (pendingProjectDocuments db projectId targetUpdateId)

/-- The documents one after another inside the caller's transaction. -/
def flushDocumentsForCapture (db : CollaborationDb) :
    List CollaborationDocument →
      CollaborationDb × Except ReconcileCollaborationDocumentError (List WorkspaceChange)
  | [] => (db, .ok [])
  | document :: documents =>
    match reconcileCollaborationDocument yjs self db document (loadState db document) none with
    | (db, .error source) => (db, .error source)
    | (db, .ok outcome) =>
      let change := match outcome with
        | .current compacted => compacted.workspaceChange.toList
        | _ => []
      let (db, rest) := flushDocumentsForCapture db documents
      (db, rest.map (change ++ ·))

/-- Run in a transaction that its caller commits, or rolls back on an error. -/
def flushProjectCollaborationForCapture (db : CollaborationDb) (projectId : Uuid) :
    CollaborationDb × Except ReconcileCollaborationDocumentError (List WorkspaceChange) :=
  match latestProjectUpdateId db projectId with
  | none => (db, .ok [])
  | some targetUpdateId =>
    match flushDocumentsForCapture yjs self db
        (pendingProjectDocuments db projectId targetUpdateId) with
    | (inside, .error source) => (db.rollback inside, .error source)
    | (inside, .ok changes) => (inside, .ok changes)

/-! ## bootstrap.rs -/

inductive PrepareBootstrapError
  | documentChanged (projectId : Uuid)
  | projection (projectId : Uuid) (source : ReconcileCollaborationDocumentError)
deriving DecidableEq, Repr

def prepareDocumentBootstrap (db : CollaborationDb) (document : CollaborationDocument) :
    CollaborationDb × Except PrepareBootstrapError BootstrapState :=
  match collaborationSeedContent db.workspace document.projectId document.documentId
      document.collaborationRevision with
  | none => (db, .error (.documentChanged document.projectId))
  | some documentContent =>
    let cleared := clearSupersededDocumentRevisions db document
    let state := loadState cleared document
    let hasPersistedState := state.snapshotPayload.isSome || !state.updates.isEmpty
    let canonicalSeed := if hasPersistedState then none else some (seedText yjs documentContent)
    match reconcileCollaborationDocument yjs self cleared document state canonicalSeed with
    | (inside, .error source) =>
      (db.rollback inside, .error (.projection document.projectId source))
    | (inside, .ok (.current compacted)) =>
      (inside, .ok
        { uptoUpdateId := compacted.uptoUpdateId
          snapshotPayload := some compacted.snapshotPayload
          updates := []
          contributors := [] })
    | (inside, .ok _) => (db.rollback inside, .error (.documentChanged document.projectId))

/-! ## updates.rs -/

structure PersistedUpdateAck where
  updateId : Int
  projected : Bool
  workspaceChange : Option WorkspaceChange
deriving DecidableEq, Repr

inductive PersistUpdateOutcome
  | accepted (ack : PersistedUpdateAck)
  | contentEpochChanged
  | accessChanged
  | documentChanged
deriving DecidableEq, Repr

def persistUpdate (db : CollaborationDb) (write : CollaborationUpdateWrite) (accessEpoch : Int) :
    CollaborationDb × Except ReconcileCollaborationDocumentError PersistUpdateOutcome :=
  let document := write.document
  if lockProjectContentEpoch db.workspace document.projectId document.contentEpoch ≠ .current then
    (db, .ok .contentEpochChanged)
  else
    match lockProjectAccessEpoch db.workspace document.projectId accessEpoch with
    | .changed => (db, .ok .accessChanged)
    | .projectNotFound => (db, .ok .contentEpochChanged)
    | .current =>
      if !lockProjectCollaborationDocument db.workspace document.projectId document.documentId
          document.collaborationRevision then
        (db, .ok .documentChanged)
      else
        let inserted := (insertUpdate db write).1
        let updateId := (insertUpdate db write).2
        match write.kind with
        | .update =>
          (pruneUpdates self inserted document updateId,
            .ok (.accepted { updateId, projected := false, workspaceChange := none }))
        | .sync =>
          match reconcileCollaborationDocument yjs self inserted document
              (loadState inserted document) none with
          | (inside, .error source) => (db.rollback inside, .error source)
          | (inside, .ok (.current compacted)) =>
            (inside, .ok (.accepted
              { updateId, projected := true, workspaceChange := compacted.workspaceChange }))
          | (inside, .ok .contentEpochChanged) => (db.rollback inside, .ok .contentEpochChanged)
          | (inside, .ok .documentChanged) => (db.rollback inside, .ok .documentChanged)

end

end Toss.Collaboration
