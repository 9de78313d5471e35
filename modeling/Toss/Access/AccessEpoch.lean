import Toss.Workspace.Tables

/-!
# The access epoch of a project

Every grant change advances `projects.access_epoch` under the project's
exclusive access lock; a durable write compares the epoch it was admitted with
under the shared one.
-/

namespace Toss.Access

open Toss.Workspace

inductive ProjectAccessEpochMatch
  | current
  | changed
  | projectNotFound
deriving DecidableEq, Repr

/-- `select access_epoch from projects where id = $1`. -/
def projectAccessEpoch (tables : WorkspaceTables) (projectId : Uuid) : Option Int :=
  (tables.projects.find? (·.id = projectId)).map (·.accessEpoch)

def lockProjectAccessEpoch (tables : WorkspaceTables) (projectId : Uuid) (expectedEpoch : Int) :
    ProjectAccessEpochMatch :=
  match projectAccessEpoch tables projectId with
  | some currentEpoch => if currentEpoch = expectedEpoch then .current else .changed
  | none => .projectNotFound

end Toss.Access
