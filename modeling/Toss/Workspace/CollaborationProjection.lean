import Toss.Workspace.Tables

/-!
# The canonical text projection of a collaborative document

`collaboration_projection.rs` with the statements it runs. A merged document
state is written to `documents.content` under the document's row lock; the
collaboration revision stays, the change sequence moves on.
-/

namespace Toss.Workspace

open Toss.Foundation

inductive CollaborationContributor
  | user (id : Uuid)
  | guest (displayName : Text)
deriving DecidableEq, Repr

structure ProjectCollaborationDocument where
  projectId : Uuid
  documentId : Uuid
  collaborationRevision : Int
  contentEpoch : Int
  text : Text
  contributors : List CollaborationContributor
deriving DecidableEq, Repr

structure ProjectedCollaborationDocument where
  path : Text
  documentId : Uuid
  collaborationRevision : Int
  changeSequence : Int
deriving DecidableEq, Repr

inductive CollaborationProjectionOutcome
  | projected (document : ProjectedCollaborationDocument)
  | unchanged
  | contentEpochChanged
  | documentChanged
deriving DecidableEq, Repr

/-- The stage at which the database refused the projection. -/
inductive CollaborationProjectionStage
  | lockContentEpoch
  | lockDocument
  | updateDocument
  | markProjectDirty
deriving DecidableEq, Repr

structure CollaborationProjectionError where
  stage : CollaborationProjectionStage
  projectId : Uuid
  documentId : Uuid
deriving DecidableEq, Repr

/-! ## Statements -/

/-- The rows `where project_id = $1 and id = $2 and collaboration_revision = $3`. -/
def hasCollaborationIdentity (projectId documentId : Uuid) (collaborationRevision : Int)
    (row : DocumentRow) : Bool :=
  row.projectId = projectId ∧ row.id = documentId
    ∧ row.collaborationRevision = collaborationRevision

def lockByCollaborationIdentity (tables : WorkspaceTables) (projectId documentId : Uuid)
    (collaborationRevision : Int) : Option DocumentRow :=
  tables.documents.find? (hasCollaborationIdentity projectId documentId collaborationRevision)

def collaborationSeedContent (tables : WorkspaceTables) (projectId documentId : Uuid)
    (collaborationRevision : Int) : Option Text :=
  (lockByCollaborationIdentity tables projectId documentId collaborationRevision).map (·.content)

/-- The new content is set with the next change sequence; the revisions stay.
A value that is not storable fails the statement. -/
def updateProjectedContent (tables : WorkspaceTables) (projectId documentId : Uuid)
    (collaborationRevision : Int) (content : Text) :
    WorkspaceTables × Except Unit (Option DocumentRow) :=
  if isStorableText content then
    let cond := hasCollaborationIdentity projectId documentId collaborationRevision
    let updated := updateDrawing cond
      (fun next row => { row with content := content, changeSequence := next })
      tables.nextChangeSequence tables.documents
    ({ tables with documents := updated.1, nextChangeSequence := updated.2 },
      .ok (updated.1.find? cond))
  else
    (tables, .error ())

def CollaborationContributor.credited : CollaborationContributor → WorkspaceContributor
  | .user id => .user id
  | .guest displayName => .guest displayName

/-- The contributors are credited in order; without one the system is. -/
def recordCollaborativeDocumentActivity (tables : WorkspaceTables) (projectId : Uuid)
    (contributors : List CollaborationContributor) : WorkspaceTables :=
  let tables := advanceWorkspaceVersion tables projectId
  let credited := match contributors with
    | [] => [WorkspaceContributor.system]
    | contributors => contributors.map CollaborationContributor.credited
  { tables with changes := tables.changes ++ credited.map (projectId, ·) }

/-! ## Projection -/

def lockProjectCollaborationDocument (tables : WorkspaceTables) (projectId documentId : Uuid)
    (collaborationRevision : Int) : Bool :=
  (lockByCollaborationIdentity tables projectId documentId collaborationRevision).isSome

def projectCollaborationDocument (tables : WorkspaceTables)
    (document : ProjectCollaborationDocument) :
    WorkspaceTables × Except CollaborationProjectionError CollaborationProjectionOutcome :=
  match lockProjectContentEpoch tables document.projectId document.contentEpoch with
  | .changed | .projectNotFound => (tables, .ok .contentEpochChanged)
  | .current =>
    match lockByCollaborationIdentity tables document.projectId document.documentId
        document.collaborationRevision with
    | none => (tables, .ok .documentChanged)
    | some current =>
      if current.content = document.text then (tables, .ok .unchanged)
      else
        match updateProjectedContent tables document.projectId document.documentId
            document.collaborationRevision document.text with
        | (tables, .error _) =>
          (tables, .error ⟨.updateDocument, document.projectId, document.documentId⟩)
        | (tables, .ok none) => (tables, .ok .documentChanged)
        | (tables, .ok (some updated)) =>
          (recordCollaborativeDocumentActivity tables document.projectId document.contributors,
            .ok (.projected
              { path := updated.path
                documentId := updated.id
                collaborationRevision := updated.collaborationRevision
                changeSequence := updated.changeSequence }))

/-! ## What a projection leaves alone -/

/-- The columns that say which document a row is and at which revision. -/
def DocumentRow.identity (row : DocumentRow) : Uuid × Uuid × Int :=
  (row.projectId, row.id, row.collaborationRevision)

/-- Two states of the tables with the same documents at the same revisions, in
the same content generations. -/
structure SameIdentities (tables tables' : WorkspaceTables) : Prop where
  documents : tables'.documents.map DocumentRow.identity
    = tables.documents.map DocumentRow.identity
  epochs : ∀ projectId, projectContentEpoch tables' projectId
    = projectContentEpoch tables projectId

namespace SameIdentities

theorem refl (tables : WorkspaceTables) : SameIdentities tables tables :=
  ⟨rfl, fun _ => rfl⟩

theorem trans {tables tables' tables'' : WorkspaceTables} (hfst : SameIdentities tables tables')
    (hsnd : SameIdentities tables' tables'') : SameIdentities tables tables'' :=
  ⟨hsnd.documents.trans hfst.documents, fun projectId =>
    (hsnd.epochs projectId).trans (hfst.epochs projectId)⟩

end SameIdentities

theorem lockProjectCollaborationDocument_iff {tables : WorkspaceTables}
    {projectId documentId : Uuid} {collaborationRevision : Int} :
    lockProjectCollaborationDocument tables projectId documentId collaborationRevision = true
      ↔ (projectId, documentId, collaborationRevision)
          ∈ tables.documents.map DocumentRow.identity := by
  simp only [lockProjectCollaborationDocument, lockByCollaborationIdentity,
    List.find?_isSome, List.mem_map, hasCollaborationIdentity, DocumentRow.identity,
    Prod.mk.injEq, decide_eq_true_eq]

variable {tables tables' : WorkspaceTables}

theorem SameIdentities.lock_eq (h : SameIdentities tables tables') (projectId documentId : Uuid)
    (collaborationRevision : Int) :
    lockProjectCollaborationDocument tables' projectId documentId collaborationRevision
      = lockProjectCollaborationDocument tables projectId documentId collaborationRevision := by
  rw [Bool.eq_iff_iff, lockProjectCollaborationDocument_iff,
    lockProjectCollaborationDocument_iff, h.documents]

theorem updateProjectedContent_sameIdentities (tables : WorkspaceTables)
    (projectId documentId : Uuid) (collaborationRevision : Int) (content : Text) :
    SameIdentities tables
      (updateProjectedContent tables projectId documentId collaborationRevision content).1 := by
  unfold updateProjectedContent
  split
  · refine ⟨map_updateDrawing ?_ _ _, fun _ => rfl⟩
    intro next row
    rfl
  · exact SameIdentities.refl tables

/-- `returning` reads the row back after the update. -/
theorem updateProjectedContent_returns
    {projectId documentId : Uuid} {collaborationRevision : Int} {content : Text}
    {row : Option DocumentRow}
    (h : updateProjectedContent tables projectId documentId collaborationRevision content
      = (tables', .ok row)) :
    row = lockByCollaborationIdentity tables' projectId documentId collaborationRevision := by
  unfold updateProjectedContent at h
  split at h
  · simp only [Prod.mk.injEq, Except.ok.injEq] at h
    obtain ⟨rfl, rfl⟩ := h
    rfl
  · simp at h

theorem recordCollaborativeDocumentActivity_sameIdentities (tables : WorkspaceTables)
    (projectId : Uuid) (contributors : List CollaborationContributor) :
    SameIdentities tables
      (recordCollaborativeDocumentActivity tables projectId contributors) := by
  refine ⟨rfl, fun other => ?_⟩
  exact projectContentEpoch_advanceWorkspaceVersion tables projectId other

/-- A projection changes no document's identity and no content generation. -/
theorem projectCollaborationDocument_sameIdentities (tables : WorkspaceTables)
    (document : ProjectCollaborationDocument) :
    SameIdentities tables (projectCollaborationDocument tables document).1 := by
  have hupdate := updateProjectedContent_sameIdentities tables document.projectId
    document.documentId document.collaborationRevision document.text
  unfold projectCollaborationDocument
  split
  · exact SameIdentities.refl tables
  · exact SameIdentities.refl tables
  split
  · exact SameIdentities.refl tables
  split
  · exact SameIdentities.refl tables
  split
  · rename_i heq
    simpa only [heq] using hupdate
  · rename_i heq
    simpa only [heq] using hupdate
  · rename_i heq
    rw [heq] at hupdate
    exact hupdate.trans (recordCollaborativeDocumentActivity_sameIdentities _ _ _)

/-- The content epoch is the project's and the document is at that revision. -/
def ProjectCollaborationDocument.IsCurrent (tables : WorkspaceTables)
    (document : ProjectCollaborationDocument) : Prop :=
  projectContentEpoch tables document.projectId = some document.contentEpoch
    ∧ lockProjectCollaborationDocument tables document.projectId document.documentId
        document.collaborationRevision = true

/-- When a projection reports what: the text was written or already there only
for a current document, and `DocumentChanged` says that no such row exists. -/
theorem projectCollaborationDocument_outcome
    {document : ProjectCollaborationDocument} {outcome : CollaborationProjectionOutcome}
    (h : projectCollaborationDocument tables document = (tables', .ok outcome)) :
    (outcome = .contentEpochChanged ∧ ¬ document.IsCurrent tables)
      ∨ (outcome = .documentChanged
          ∧ lockProjectCollaborationDocument tables document.projectId document.documentId
              document.collaborationRevision = false)
      ∨ ((outcome = .unchanged ∨ ∃ projected, outcome = .projected projected)
          ∧ document.IsCurrent tables) := by
  unfold projectCollaborationDocument at h
  have hepoch : lockProjectContentEpoch tables document.projectId document.contentEpoch = .current
      ↔ projectContentEpoch tables document.projectId = some document.contentEpoch :=
    lockProjectContentEpoch_eq_current
  split at h
  · -- another content epoch
    rename_i hlock
    obtain ⟨-, rfl⟩ : tables = tables' ∧ _ = outcome := by simpa using h
    exact .inl ⟨rfl, fun hcurrent => by simp [hlock, hcurrent.1] at hepoch⟩
  · -- no such project
    rename_i hlock
    obtain ⟨-, rfl⟩ : tables = tables' ∧ _ = outcome := by simpa using h
    exact .inl ⟨rfl, fun hcurrent => by simp [hlock, hcurrent.1] at hepoch⟩
  · rename_i hlock
    split at h
    · -- the document row is gone or at another revision
      rename_i hnone
      obtain ⟨-, rfl⟩ : tables = tables' ∧ _ = outcome := by simpa using h
      exact .inr (.inl ⟨rfl, by simp [lockProjectCollaborationDocument, hnone]⟩)
    · rename_i current hsome
      have hcurrent : document.IsCurrent tables :=
        ⟨hepoch.mp hlock, by simp [lockProjectCollaborationDocument, hsome]⟩
      have hfound := (updateProjectedContent_sameIdentities tables document.projectId
        document.documentId document.collaborationRevision document.text).lock_eq
          document.projectId document.documentId document.collaborationRevision
      split at h
      · obtain ⟨-, rfl⟩ : tables = tables' ∧ _ = outcome := by simpa using h
        exact .inr (.inr ⟨.inl rfl, hcurrent⟩)
      split at h
      · simp at h
      · -- the update found no row, though the lock did
        rename_i heq
        exfalso
        rw [heq, hcurrent.2] at hfound
        have hnone := updateProjectedContent_returns heq
        simp [lockProjectCollaborationDocument, ← hnone] at hfound
      · rename_i updated heq
        obtain ⟨-, rfl⟩ : _ = tables' ∧ _ = outcome := by simpa using h
        exact .inr (.inr ⟨.inr ⟨_, rfl⟩, hcurrent⟩)

end Toss.Workspace
