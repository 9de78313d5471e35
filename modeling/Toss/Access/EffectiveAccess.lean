import Mathlib.Data.Char
import Mathlib.Data.List.Dedup
import Mathlib.Data.List.Lex
import Mathlib.Data.Prod.Lex
import Toss.Access.Grants
import Toss.Foundation.Fallible
import Toss.Workspace.FilePolicy

/-!
# Effective project access

`resolution_persistence.rs`, `authorization.rs`, the user list of `grant.rs` and the project
catalog: the queries that compute what a user may do in a project, and where their results go.

* `projectUserAccess`, `projectUserAccessAllows` — what authorization asks;
* `listProjectCatalogAccess`, `listProjects` — the catalog;
* `listProjectAccessUsers` — the users of a project, merged in memory.
-/

namespace Toss.Access

open Toss.Foundation
open Toss.Workspace (trim)

/-! ## Resolution -/

structure ProjectUserAccess where
  directRole : Option ProjectRole
  organizationPermission : Option ProjectPermission
deriving DecidableEq, Repr

/-- `select role.role from project_roles role where …`. -/
def directRole (tables : AccessTables) (userId projectId : Uuid) : Option ProjectRole :=
  (tables.projectRoles.find? fun role => role.projectId = projectId ∧ role.userId = userId).map
    (·.role)

/-- `project_organization_access join organization_memberships`, for one user. -/
def userOrganizationAccess (tables : AccessTables) (userId : Uuid) :
    List ProjectOrganizationAccessRow :=
  tables.projectOrganizationAccess.flatMap fun access =>
    (tables.organizationMemberships.filter fun membership =>
      membership.organizationId = access.organizationId ∧ membership.userId = userId).map
        fun _ => access

/-- `case organization_access.permission when 'write' then 2 when 'read' then 1 else 0 end`. -/
def permissionOrder : ProjectPermission → Int
  | .write => 2
  | .read => 1

/-- `order by … desc limit 1`. -/
def organizationPermission (tables : AccessTables) (userId projectId : Uuid) :
    Option ProjectPermission :=
  (orderBy (fun permission => -permissionOrder permission)
    (((userOrganizationAccess tables userId).filter (·.projectId = projectId)).map
      (·.permission))).head?

def projectUserAccess (tables : AccessTables) (userId projectId : Uuid) : ProjectUserAccess where
  directRole := directRole tables userId projectId
  organizationPermission := organizationPermission tables userId projectId

/-- `project_template_organization_access join organization_memberships`, for one user. -/
def templateAccessProjects (tables : AccessTables) (userId : Uuid) : List Uuid :=
  tables.projectTemplateOrganizationAccess.flatMap fun access =>
    (tables.organizationMemberships.filter fun membership =>
      membership.organizationId = access.organizationId ∧ membership.userId = userId).map
        fun _ => access.projectId

/-- `ProjectCatalogAccessRecord`, `ProjectCatalogAccess`. -/
structure ProjectCatalogAccess where
  projectId : Uuid
  directRole : Option ProjectRole
  organizationPermission : Option ProjectPermission
  hasTemplateAccess : Bool
deriving DecidableEq, Repr

/-- `with visible_projects as (… union … union …)`. -/
def visibleProjects (tables : AccessTables) (userId : Uuid) : List Uuid :=
  ((tables.projectRoles.filter (·.userId = userId)).map (·.projectId)
    ++ (userOrganizationAccess tables userId).map (·.projectId)
    ++ templateAccessProjects tables userId).dedup

def listProjectCatalogAccess (tables : AccessTables) (userId : Uuid) :
    List ProjectCatalogAccess :=
  (visibleProjects tables userId).map fun projectId =>
    { projectId
      directRole := directRole tables userId projectId
      organizationPermission := organizationPermission tables userId projectId
      hasTemplateAccess := projectId ∈ templateAccessProjects tables userId }

def projectUserHasCatalogAccess (tables : AccessTables) (userId projectId : Uuid)
    (includeTemplateAccess : Bool) : Bool :=
  (tables.projectRoles.any fun role => role.projectId = projectId ∧ role.userId = userId)
    || (userOrganizationAccess tables userId).any (·.projectId = projectId)
    || (includeTemplateAccess && (templateAccessProjects tables userId).contains projectId)

/-! ## Authorization -/

inductive AccessNeed
  | read
  | write
  | manage
  | gitSync
deriving DecidableEq, Repr

def AccessNeed.allowsRole : AccessNeed → ProjectRole → Bool
  | .read, _ => true
  | .write, role => role = .owner || role = .readWrite
  | .manage, role | .gitSync, role => role = .owner

def AccessNeed.allowsOrganizationPermission : AccessNeed → ProjectPermission → Bool
  | .read, _ => true
  | .write, permission => permission.canWrite
  | .manage, _ | .gitSync, _ => false

def projectUserAccessAllows (directRole : Option ProjectRole)
    (organizationPermission : Option ProjectPermission) (need : AccessNeed) : Bool :=
  directRole.any need.allowsRole || organizationPermission.any need.allowsOrganizationPermission

/-- `PermissionDenied`, the only error here that is not the store's. -/
inductive ProjectAuthorizationError
  | permissionDenied
deriving DecidableEq, Repr

def ensureProjectRoleForUser (tables : AccessTables) (actor projectId : Uuid) (need : AccessNeed) :
    Except ProjectAuthorizationError Unit :=
  let access := projectUserAccess tables actor projectId
  if projectUserAccessAllows access.directRole access.organizationPermission need then .ok ()
  else .error .permissionDenied

/-! ## Catalog -/

namespace ProjectCatalogAccess

def canRead (access : ProjectCatalogAccess) : Bool :=
  access.directRole.isSome || access.organizationPermission.isSome

def permitsCatalogEntry (access : ProjectCatalogAccess) (isTemplate : Bool) : Bool :=
  access.canRead || (isTemplate && access.hasTemplateAccess)

def effectiveRole (access : ProjectCatalogAccess) : ProjectRole :=
  let directRole := access.directRole.getD .readOnly
  let organizationRole := (access.organizationPermission.map (·.projectRole)).getD .readOnly
  if organizationRole.rank > directRole.rank then organizationRole else directRole

end ProjectCatalogAccess

/-- The fields of `Project` that access decides. -/
structure CatalogProject where
  id : Uuid
  name : Text
  myRole : ProjectRole
  canRead : Bool
  isTemplate : Bool
deriving DecidableEq, Repr

inductive ListProjectsError
  | catalogAccessMissing (projectId : Uuid)
deriving DecidableEq, Repr

section Catalog

-- `value ilike pattern` of PostgreSQL
variable (ilike : Text → Text → Bool)

/-- `search.map(str::trim).filter(…).map(|value| format!("%{value}%"))`. -/
def searchPattern (search : Option Text) : Option Text :=
  ((search.map trim).filter fun value => !value.isEmpty).map fun value => '%' :: (value ++ ['%'])

def listForUser (tables : AccessTables) (actorUserId : Uuid) (projectIds : List Uuid)
    (includeArchived : Bool) (pattern : Option Text) : List AccessProjectRow :=
  tables.projects.filter fun project =>
    projectIds.contains project.id
      && (includeArchived
        || !tables.projectUserArchives.any fun archive =>
            archive.projectId = project.id ∧ archive.userId = actorUserId)
      && pattern.all fun value => ilike project.name value

/-- `project_from_record`. -/
def projectFromRecord (record : AccessProjectRow) (access : ProjectCatalogAccess) :
    CatalogProject where
  id := record.id
  name := record.name
  myRole := access.effectiveRole
  canRead := access.canRead
  isTemplate := record.isTemplate

/-- The closure that `list_projects` maps over the records. -/
def catalogEntry (catalogAccess : List ProjectCatalogAccess) (record : AccessProjectRow) :
    Except ListProjectsError (Option CatalogProject) :=
  match catalogAccess.find? (·.projectId = record.id) with
  | none => .error (.catalogAccessMissing record.id)
  | some access =>
    .ok (if access.permitsCatalogEntry record.isTemplate then
      some (projectFromRecord record access) else none)

def listProjects (tables : AccessTables) (actorUserId : Uuid) (includeArchived : Bool)
    (search : Option Text) : Except ListProjectsError (List CatalogProject) := do
  let catalogAccess := listProjectCatalogAccess tables actorUserId
  let records := listForUser ilike tables actorUserId (catalogAccess.map (·.projectId))
    includeArchived (searchPattern search)
  let entries ← records.mapM (catalogEntry catalogAccess)
  pure (entries.filterMap id)

end Catalog

/-! ## The users of a project -/

inductive ProjectAccessSource
  | directRole
  | shareLinkInvite
  | organization (name : Text)
deriving DecidableEq, Repr

def ProjectRoleSource.accessSource : ProjectRoleSource → ProjectAccessSource
  | .directRole => .directRole
  | .shareLinkInvite => .shareLinkInvite

/-- The derived order of `ProjectAccessSource`: by variant, then by name. -/
def ProjectAccessSource.key : ProjectAccessSource → Nat ×ₗ List Char
  | .directRole => toLex (0, [])
  | .shareLinkInvite => toLex (1, [])
  | .organization name => toLex (2, name)

structure ProjectAccessUser where
  userId : Uuid
  email : Text
  displayName : Text
  role : ProjectRole
  accessType : ProjectAccessType
  sources : List ProjectAccessSource
deriving DecidableEq, Repr

/-- A row of either query that `merge_access_user` takes. -/
structure AccessUserRow where
  userId : Uuid
  email : Text
  displayName : Text
  role : ProjectRole
  source : ProjectAccessSource
deriving DecidableEq, Repr

/-- `direct_access_users`. -/
def directAccessUsers (tables : AccessTables) (projectId : Uuid) : List AccessUserRow :=
  (tables.projectRoles.filter (·.projectId = projectId)).flatMap fun role =>
    (tables.users.filter (·.id = role.userId)).map fun user =>
      { userId := user.id, email := user.email, displayName := user.displayName,
        role := role.role, source := role.source.accessSource }

/-- `organization_access_users`, with the permission as the role it stands for. -/
def organizationAccessUsers (tables : AccessTables) (projectId : Uuid) : List AccessUserRow :=
  ((tables.projectOrganizationAccess.filter (·.projectId = projectId)).flatMap fun access =>
    (tables.organizations.filter (·.id = access.organizationId)).flatMap fun organization =>
      (tables.organizationMemberships.filter
        (·.organizationId = access.organizationId)).flatMap fun membership =>
          (tables.users.filter (·.id = membership.userId)).map fun user =>
            ({ userId := user.id, email := user.email, displayName := user.displayName,
               role := access.permission.projectRole,
               source := .organization organization.name } : AccessUserRow)).dedup

/-- `and_modify` of `merge_access_user`. -/
def ProjectAccessUser.merge (entry : ProjectAccessUser) (row : AccessUserRow) :
    ProjectAccessUser :=
  let raised :=
    if row.role.rank > entry.role.rank then
      { entry with role := row.role, accessType := row.role.accessType }
    else entry
  if entry.sources.contains row.source then raised
  else { raised with sources := entry.sources ++ [row.source] }

/-- `or_insert_with` of `merge_access_user`. -/
def AccessUserRow.entry (row : AccessUserRow) : ProjectAccessUser where
  userId := row.userId
  email := row.email
  displayName := row.displayName
  role := row.role
  accessType := row.role.accessType
  sources := [row.source]

/-- `merge_access_user`; the map is kept as the list of its values. -/
def mergeAccessUser (users : List ProjectAccessUser) (row : AccessUserRow) :
    List ProjectAccessUser :=
  if users.any (·.userId = row.userId) then
    updateWhere (·.userId = row.userId) (·.merge row) users
  else users ++ [row.entry]

/-- `list_project_access_users`; `toLowercase` is `str::to_lowercase`. -/
def listProjectAccessUsers (toLowercase : Text → Text) (tables : AccessTables)
    (projectId : Uuid) : List ProjectAccessUser :=
  let users := (directAccessUsers tables projectId
    ++ organizationAccessUsers tables projectId).foldl mergeAccessUser []
  orderBy (fun user : ProjectAccessUser => toLowercase user.displayName)
    (users.map fun user => { user with sources := orderBy ProjectAccessSource.key user.sources })

end Toss.Access
