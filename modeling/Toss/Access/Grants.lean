import Mathlib.Order.WithBot
import Toss.Access.AccessEpoch

/-!
# Grants

The rows from which project access is computed and the values they carry
(`grant_model.rs`), with the constraints the schema puts on them.

* `AccessTables` — the rows;
* `AccessTables.Constrained` — primary keys and foreign keys;
* `ProjectRole.rank` — the order of the roles.
-/

namespace Toss.Access

open Toss.Foundation

abbrev Timestamp := Int

/-! ## Values -/

inductive ProjectRole
  | owner
  | readWrite
  | readOnly
deriving DecidableEq, Repr

def ProjectRole.rank : ProjectRole → Nat
  | .owner => 3
  | .readWrite => 2
  | .readOnly => 1

inductive ProjectAccessType
  | read
  | write
  | manage
deriving DecidableEq, Repr

def ProjectRole.accessType : ProjectRole → ProjectAccessType
  | .owner => .manage
  | .readWrite => .write
  | .readOnly => .read

inductive ProjectPermission
  | read
  | write
deriving DecidableEq, Repr

def ProjectPermission.projectRole : ProjectPermission → ProjectRole
  | .read => .readOnly
  | .write => .readWrite

def ProjectPermission.canWrite : ProjectPermission → Bool
  | .read => false
  | .write => true

inductive ProjectRoleSource
  | directRole
  | shareLinkInvite
deriving DecidableEq, Repr

inductive OrganizationRole
  | member
  | owner
deriving DecidableEq, Repr

def OrganizationRole.rank : OrganizationRole → Nat
  | .member => 1
  | .owner => 2

theorem ProjectRole.rank_injective : Function.Injective ProjectRole.rank := by
  intro a b h
  cases a <;> cases b <;> first | rfl | cases h

/-- Roles are compared by their rank. -/
instance : LinearOrder ProjectRole := LinearOrder.lift' ProjectRole.rank ProjectRole.rank_injective

/-! ## Rows -/

structure UserRow where
  id : Uuid
  email : Text
  displayName : Text
deriving DecidableEq, Repr

structure OrganizationRow where
  id : Uuid
  name : Text
deriving DecidableEq, Repr

/-- The columns of `projects` that access reads or writes. -/
structure AccessProjectRow where
  id : Uuid
  name : Text
  isTemplate : Bool
  accessEpoch : Int
deriving DecidableEq, Repr

structure ProjectRoleRow where
  projectId : Uuid
  userId : Uuid
  role : ProjectRole
  source : ProjectRoleSource
deriving DecidableEq, Repr

structure ProjectOrganizationAccessRow where
  projectId : Uuid
  organizationId : Uuid
  permission : ProjectPermission
deriving DecidableEq, Repr

structure OrganizationMembershipRow where
  organizationId : Uuid
  userId : Uuid
  role : OrganizationRole
deriving DecidableEq, Repr

structure ProjectGroupRoleRow where
  projectId : Uuid
  groupName : Text
  role : ProjectRole
deriving DecidableEq, Repr

structure UserOidcGroupRow where
  userId : Uuid
  groupName : Text
deriving DecidableEq, Repr

/-- A row of `org_oidc_group_role_mappings`. -/
structure OrganizationGroupMapping where
  organizationId : Uuid
  groupName : Text
  role : OrganizationRole
deriving DecidableEq, Repr

structure ProjectTemplateOrganizationAccessRow where
  projectId : Uuid
  organizationId : Uuid
deriving DecidableEq, Repr

structure ProjectUserArchiveRow where
  projectId : Uuid
  userId : Uuid
deriving DecidableEq, Repr

structure ProjectShareLinkRow where
  id : Uuid
  projectId : Uuid
  tokenValue : Text
  permission : ProjectPermission
  expiresAt : Option Timestamp
  revokedAt : Option Timestamp
deriving DecidableEq, Repr

structure AnonymousShareSessionRow where
  id : Uuid
  projectId : Uuid
  shareLinkId : Uuid
  sessionTokenFingerprint : Bytes
  displayName : Text
  permission : ProjectPermission
  expiresAt : Option Timestamp
deriving DecidableEq, Repr

structure AccessTables where
  users : List UserRow
  organizations : List OrganizationRow
  projects : List AccessProjectRow
  projectRoles : List ProjectRoleRow
  projectOrganizationAccess : List ProjectOrganizationAccessRow
  organizationMemberships : List OrganizationMembershipRow
  projectGroupRoles : List ProjectGroupRoleRow
  userOidcGroups : List UserOidcGroupRow
  organizationGroupMappings : List OrganizationGroupMapping
  projectTemplateOrganizationAccess : List ProjectTemplateOrganizationAccessRow
  projectUserArchives : List ProjectUserArchiveRow
  projectShareLinks : List ProjectShareLinkRow
  anonymousShareSessions : List AnonymousShareSessionRow
deriving DecidableEq, Repr

/-- The primary keys and foreign keys that the queries on access rely on. -/
structure AccessTables.Constrained (tables : AccessTables) : Prop where
  usersKey : (tables.users.map (·.id)).Nodup
  organizationsKey : (tables.organizations.map (·.id)).Nodup
  projectsKey : (tables.projects.map (·.id)).Nodup
  projectRolesKey : (tables.projectRoles.map fun row => (row.projectId, row.userId)).Nodup
  shareLinksKey : (tables.projectShareLinks.map (·.id)).Nodup
  roleUser : ∀ row ∈ tables.projectRoles, ∃ user ∈ tables.users, user.id = row.userId
  roleProject : ∀ row ∈ tables.projectRoles,
    ∃ project ∈ tables.projects, project.id = row.projectId
  accessOrganization : ∀ row ∈ tables.projectOrganizationAccess,
    ∃ organization ∈ tables.organizations, organization.id = row.organizationId
  accessProject : ∀ row ∈ tables.projectOrganizationAccess,
    ∃ project ∈ tables.projects, project.id = row.projectId
  membershipUser : ∀ row ∈ tables.organizationMemberships,
    ∃ user ∈ tables.users, user.id = row.userId

/-- A state of the tables that the schema admits. -/
structure AccessDatabase where
  tables : AccessTables
  constrained : tables.Constrained

end Toss.Access
