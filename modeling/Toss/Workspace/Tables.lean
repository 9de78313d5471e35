import Toss.Foundation.Table
import Toss.Basic

/-!
# Workspace tables

The rows of `projects` and `documents` with the columns the modelled statements
read or write, the sequence that numbers document changes, and the contributors
recorded with each change. Timestamps and display columns are left out: no
modelled statement reads them.
-/

namespace Toss.Workspace

open Toss.Foundation

/-- A row of `projects`. -/
structure ProjectRow where
  id : Uuid
  workspaceVersion : Int
  contentEpoch : Int
  accessEpoch : Int
deriving DecidableEq, Repr

/-- A row of `documents`; `DocumentRecord` in the queries. -/
structure DocumentRow where
  id : Uuid
  projectId : Uuid
  path : Text
  pathRevision : Int
  collaborationRevision : Int
  changeSequence : Int
  content : Text
deriving DecidableEq, Repr

/-- Whom `record_workspace_change` credits with a change. -/
inductive WorkspaceContributor
  | user (id : Uuid)
  | guest (displayName : Text)
  | system
deriving DecidableEq, Repr

structure WorkspaceTables where
  projects : List ProjectRow
  documents : List DocumentRow
  /-- The next value of `documents_change_sequence_seq`. -/
  nextChangeSequence : Int
  /-- Recorded changes, the latest last. -/
  changes : List (Uuid × WorkspaceContributor)
deriving DecidableEq, Repr

/-! ## Content generation -/

inductive ProjectContentEpochMatch
  | current
  | changed
  | projectNotFound
deriving DecidableEq, Repr

/-- `select content_epoch from projects where id = $1`. -/
def projectContentEpoch (tables : WorkspaceTables) (projectId : Uuid) : Option Int :=
  (tables.projects.find? (·.id = projectId)).map (·.contentEpoch)

def lockProjectContentEpoch (tables : WorkspaceTables) (projectId : Uuid) (expectedEpoch : Int) :
    ProjectContentEpochMatch :=
  match projectContentEpoch tables projectId with
  | some currentEpoch => if currentEpoch = expectedEpoch then .current else .changed
  | none => .projectNotFound

theorem lockProjectContentEpoch_eq_current {tables : WorkspaceTables} {projectId : Uuid}
    {expectedEpoch : Int} :
    lockProjectContentEpoch tables projectId expectedEpoch = .current
      ↔ projectContentEpoch tables projectId = some expectedEpoch := by
  unfold lockProjectContentEpoch
  cases projectContentEpoch tables projectId with
  | none => simp
  | some epoch => by_cases h : epoch = expectedEpoch <;> simp [h]

def advanceWorkspaceVersion (tables : WorkspaceTables) (projectId : Uuid) : WorkspaceTables :=
  { tables with
    projects := updateWhere (·.id = projectId)
      (fun row => { row with workspaceVersion := row.workspaceVersion + 1 }) tables.projects }

/-- A new workspace version leaves every content generation as it is. -/
@[simp] theorem projectContentEpoch_advanceWorkspaceVersion (tables : WorkspaceTables)
    (projectId other : Uuid) :
    projectContentEpoch (advanceWorkspaceVersion tables projectId) other
      = projectContentEpoch tables other := by
  simp only [projectContentEpoch, advanceWorkspaceVersion]
  rw [find?_updateWhere (by intro row; rfl), Option.map_map]
  congr 1
  funext row
  simp only [Function.comp_apply]
  split <;> rfl

end Toss.Workspace
