import Toss.Access.EffectiveAccess
import Toss.Foundation.Transactions

/-!
# Transactions that change access

`grant.rs`, `sharing.rs`, `oidc_group.rs` and `templates/template_status.rs` as clients that
run one transaction each: every function with its statements in order, the rows and advisory
locks each statement takes, and its early returns as rollbacks. No statement reads a row that
its own transaction has written, so each is given what is committed.

* `AccessKey` — what is locked;
* `AccessWrite` — what a statement writes;
* `AccessStep` — the next statement of a transaction;
* `AccessStep.execute` — what it does;
* `accessTransactions` — the system they make.
-/

namespace Toss.Access

open Toss.Foundation
open Toss.Workspace (trim)

/-! ## Locks and writes -/

inductive AccessKey
  /-- `project-access:<id>`, the advisory lock. -/
  | projectAccess (projectId : Uuid)
  /-- The row of `projects`. -/
  | project (projectId : Uuid)
  | role (projectId userId : Uuid)
  | organizationAccess (projectId organizationId : Uuid)
  | groupRole (projectId : Uuid) (groupName : Text)
  | membership (organizationId userId : Uuid)
  | userGroup (userId : Uuid) (groupName : Text)
  | groupMapping (organizationId : Uuid) (groupName : Text)
  | templateAccess (projectId organizationId : Uuid)
  | shareLink (id : Uuid)
  /-- The unique indexes of `project_share_links`. -/
  | activeLink (projectId : Uuid) (permission : ProjectPermission)
  | shareToken (tokenValue : Text)
  | session (id : Uuid)
  | sessionFingerprint (fingerprint : Bytes)
deriving DecidableEq, Repr

inductive AccessWrite
  | setRole (row : ProjectRoleRow)
  | setOrganizationAccess (row : ProjectOrganizationAccessRow)
  | removeOrganizationAccess (projectId organizationId : Uuid)
  | setGroupRole (row : ProjectGroupRoleRow)
  | removeGroupRole (projectId : Uuid) (groupName : Text)
  | setMembership (row : OrganizationMembershipRow)
  | removeMembership (organizationId userId : Uuid)
  | replaceUserGroups (removed inserted : List UserOidcGroupRow)
  | setGroupMapping (row : OrganizationGroupMapping)
  | removeGroupMapping (organizationId : Uuid) (groupName : Text)
  | advanceEpochs (projectIds : List Uuid)
  | setTemplate (projectId : Uuid) (isTemplate : Bool)
  | removeTemplateAccess (rows : List ProjectTemplateOrganizationAccessRow)
  | insertShareLink (row : ProjectShareLinkRow)
  | extendShareLink (id : Uuid) (expiresAt : Option Timestamp)
  | revokeShareLink (id : Uuid) (revokedAt : Timestamp)
  | insertSession (row : AnonymousShareSessionRow)
  | removeSessions (ids : List Uuid)
deriving DecidableEq, Repr

def AccessWrite.apply (tables : AccessTables) : AccessWrite → AccessTables
  | .setRole row =>
    { tables with
      projectRoles := upsertRow (fun role => (role.projectId, role.userId)) row
        tables.projectRoles }
  | .setOrganizationAccess row =>
    { tables with
      projectOrganizationAccess :=
        upsertRow (fun access => (access.projectId, access.organizationId)) row
          tables.projectOrganizationAccess }
  | .removeOrganizationAccess projectId organizationId =>
    { tables with
      projectOrganizationAccess := tables.projectOrganizationAccess.filter fun access =>
        ¬(access.projectId = projectId ∧ access.organizationId = organizationId) }
  | .setGroupRole row =>
    { tables with
      projectGroupRoles := upsertRow (fun role => (role.projectId, role.groupName)) row
        tables.projectGroupRoles }
  | .removeGroupRole projectId groupName =>
    { tables with
      projectGroupRoles := tables.projectGroupRoles.filter fun role =>
        ¬(role.projectId = projectId ∧ role.groupName = groupName) }
  | .setMembership row =>
    { tables with
      organizationMemberships :=
        upsertRow (fun membership => (membership.organizationId, membership.userId)) row
          tables.organizationMemberships }
  | .removeMembership organizationId userId =>
    { tables with
      organizationMemberships := tables.organizationMemberships.filter fun membership =>
        ¬(membership.organizationId = organizationId ∧ membership.userId = userId) }
  | .replaceUserGroups removed inserted =>
    { tables with
      userOidcGroups := tables.userOidcGroups.filter (fun group => !removed.contains group)
        ++ inserted }
  | .setGroupMapping row =>
    { tables with
      organizationGroupMappings :=
        upsertRow (fun mapping => (mapping.organizationId, mapping.groupName)) row
          tables.organizationGroupMappings }
  | .removeGroupMapping organizationId groupName =>
    { tables with
      organizationGroupMappings := tables.organizationGroupMappings.filter fun mapping =>
        ¬(mapping.organizationId = organizationId ∧ mapping.groupName = groupName) }
  | .advanceEpochs projectIds =>
    { tables with
      projects := updateWhere (fun project => projectIds.contains project.id)
        (fun project => { project with accessEpoch := project.accessEpoch + 1 })
        tables.projects }
  | .setTemplate projectId isTemplate =>
    { tables with
      projects := updateWhere (·.id = projectId) (fun project => { project with isTemplate })
        tables.projects }
  | .removeTemplateAccess rows =>
    { tables with
      projectTemplateOrganizationAccess :=
        tables.projectTemplateOrganizationAccess.filter fun row => !rows.contains row }
  | .insertShareLink row =>
    { tables with projectShareLinks := tables.projectShareLinks ++ [row] }
  | .extendShareLink id expiresAt =>
    { tables with
      projectShareLinks := updateWhere (·.id = id) (fun link => { link with expiresAt })
        tables.projectShareLinks }
  | .revokeShareLink id revokedAt =>
    { tables with
      projectShareLinks := updateWhere (·.id = id)
        (fun link => { link with revokedAt := some revokedAt }) tables.projectShareLinks }
  | .insertSession row =>
    { tables with anonymousShareSessions := tables.anonymousShareSessions ++ [row] }
  | .removeSessions ids =>
    { tables with
      anonymousShareSessions := tables.anonymousShareSessions.filter fun session =>
        !ids.contains session.id }

/-! ## Share links -/

/-- `revoked_at is null and (expires_at is null or expires_at > now())`. -/
def ProjectShareLinkRow.isValid (link : ProjectShareLinkRow) (now : Timestamp) : Bool :=
  link.revokedAt.isNone && link.expiresAt.all fun expiresAt => now < expiresAt

structure GuestSessionAccess where
  sessionId : Uuid
  displayName : Text
  permission : ProjectPermission
deriving DecidableEq, Repr

/-- `guest_session_access`. -/
def guestSessionAccess (tables : AccessTables) (now : Timestamp) (projectId : Uuid)
    (sessionTokenFingerprint : Bytes) : Option GuestSessionAccess :=
  (tables.anonymousShareSessions.find? fun session =>
    session.projectId = projectId && session.sessionTokenFingerprint = sessionTokenFingerprint
      && session.expiresAt.all (fun expiresAt => now < expiresAt)
      && tables.projectShareLinks.any fun link =>
          link.id = session.shareLinkId && link.isValid now).map fun session =>
    ⟨session.id, session.displayName, session.permission⟩

/-- The row that `grant_project_share_link_role_at_least` leaves. -/
def roleAtLeast (projectId userId : Uuid) (requestedRole : ProjectRole) :
    Option ProjectRoleRow → ProjectRoleRow
  | none => ⟨projectId, userId, requestedRole, .shareLinkInvite⟩
  | some row =>
    { row with
      role := match row.role, requestedRole with
        | .owner, _ => .owner
        | .readWrite, .readOnly => .readWrite
        | _, requested => requested
      source := match row.role, requestedRole with
        | .owner, _ => row.source
        | .readWrite, .readWrite | .readWrite, .readOnly => row.source
        | .readOnly, .readOnly => row.source
        | _, _ => .shareLinkInvite }

inductive AnonymousMode
  | off
  | readOnly
  | readWriteNamed
deriving DecidableEq, Repr

def AnonymousMode.allowsGuestWrite : AnonymousMode → Bool
  | .readWriteNamed => true
  | .off | .readOnly => false

/-- What `create_temporary_share_login` is given and draws; `now` is the transaction's
`now()`. -/
structure TemporaryShareLogin where
  token : Text
  displayName : Text
  sessionId : Uuid
  sessionTokenFingerprint : Bytes
  createdAt : Timestamp
  now : Timestamp
deriving DecidableEq, Repr

/-- What `enable_project_share_link` is given and draws. -/
structure ShareLinkWrite where
  id : Uuid
  projectId : Uuid
  tokenValue : Text
  permission : ProjectPermission
  createdAt : Timestamp
  expiresAt : Option Timestamp
deriving DecidableEq, Repr

/-! ## Group synchronization -/

/-- `list_organization_membership_roles`. -/
def membershipRoles (tables : AccessTables) (userId : Uuid) : List (Uuid × OrganizationRole) :=
  (tables.organizationMemberships.filter (·.userId = userId)).map fun membership =>
    (membership.organizationId, membership.role)

/-- One round of the loop over the mappings: `and_modify … or_insert`. -/
def addDesiredRole (desired : List (Uuid × OrganizationRole)) (mapping : OrganizationGroupMapping) :
    List (Uuid × OrganizationRole) :=
  match desired.lookup mapping.organizationId with
  | none => desired ++ [(mapping.organizationId, mapping.role)]
  | some current =>
    if mapping.role.rank > current.rank then
      updateWhere (·.1 = mapping.organizationId) (fun entry => (entry.1, mapping.role)) desired
    else desired

def desiredRoles (mappings : List OrganizationGroupMapping) (groups : List Text) :
    List (Uuid × OrganizationRole) :=
  (mappings.filter fun mapping => groups.contains mapping.groupName).foldl addDesiredRole []

def membershipRoleNeedsUpsert (currentRole : Option OrganizationRole)
    (desiredRole : OrganizationRole) : Bool :=
  !currentRole.any fun currentRole => currentRole = desiredRole || currentRole = .owner

/-- The memberships that `sync_oidc_identity_groups` upserts. -/
def membershipUpserts (currentRoles desired : List (Uuid × OrganizationRole)) :
    List (Uuid × OrganizationRole) :=
  desired.filter fun (organizationId, desiredRole) =>
    membershipRoleNeedsUpsert (currentRoles.lookup organizationId) desiredRole

/-- The organizations whose membership it deletes. -/
def membershipRemovals (currentRoles desired : List (Uuid × OrganizationRole))
    (mappedOrganizationIds : List Uuid) : List Uuid :=
  (currentRoles.filter fun (organizationId, currentRole) =>
    !(currentRole = .owner || (desired.lookup organizationId).isSome
      || !mappedOrganizationIds.contains organizationId)).map Prod.fst

/-- The first query of `advance_organization_project_access_epochs`. -/
def organizationProjects (tables : AccessTables) (organizationIds : List Uuid) : List Uuid :=
  orderBy id ((tables.projectOrganizationAccess.filter fun access =>
    organizationIds.contains access.organizationId).map (·.projectId)).dedup

/-! ## Statements -/

/-- The next statement of a transaction. -/
inductive AccessStep
  /-- `upsert_project_role`. -/
  | upsertRole (projectId userId : Uuid) (role : ProjectRole)
  /-- `join_project_share_link`. -/
  | findGrant (token : Text) (userId : Uuid) (now : Timestamp)
  | grantShareLinkRole (projectId userId : Uuid) (requestedRole : ProjectRole)
  /-- `upsert_project_organization_access`. -/
  | checkMember (projectId organizationId : Uuid) (permission : ProjectPermission)
      (actorUserId : Uuid)
  | upsertOrganizationAccess (projectId organizationId : Uuid) (permission : ProjectPermission)
  /-- `delete_project_organization_access`. -/
  | deleteOrganizationAccess (projectId organizationId : Uuid)
  /-- `upsert_project_group_role`, `delete_project_group_role`. -/
  | upsertGroupRole (projectId : Uuid) (groupName : Text) (role : ProjectRole)
  | deleteGroupRole (projectId : Uuid) (groupName : Text)
  /-- `upsert_organization_group_mapping`, `delete_organization_group_mapping`. -/
  | upsertGroupMapping (organizationId : Uuid) (groupName : Text) (role : OrganizationRole)
  | deleteGroupMapping (organizationId : Uuid) (groupName : Text)
  /-- `enable_project_share_link`, `revoke_project_share_link`. -/
  | upsertShareLink (write : ShareLinkWrite)
  | revokeShareLink (projectId shareLinkId : Uuid) (now : Timestamp)
  /-- `create_temporary_share_login`. -/
  | findShareProject (login : TemporaryShareLogin)
  | lockTemplateStatus (login : TemporaryShareLogin) (projectId : Uuid)
  | lockShareTarget (login : TemporaryShareLogin) (projectId : Uuid)
  | insertSession (login : TemporaryShareLogin) (projectId shareLinkId : Uuid)
      (permission : ProjectPermission)
  /-- `update_project_template`. -/
  | lockAccessMutation (projectId : Uuid) (isTemplate : Bool)
  | setTemplateStatus (projectId : Uuid) (isTemplate : Bool)
  | revokeSessions (projectId : Uuid)
  | clearTemplateAccess (projectId : Uuid)
  /-- `sync_oidc_identity_groups`. -/
  | replaceGroups (userId : Uuid) (groups : List Text)
  | listMappings (userId : Uuid) (groups : List Text)
  | listMemberships (userId : Uuid) (groups : List Text) (mappings : List OrganizationGroupMapping)
  | changeMembership (userId : Uuid) (upserts : List (Uuid × OrganizationRole))
      (removals changed : List Uuid)
  | selectProjects (changed : List Uuid)
  | lockProjects (remaining selected : List Uuid)
  | advanceEpochs (selected : List Uuid)
  /-- `advance_project_access_epoch`. -/
  | lockAccess (projectId : Uuid)
  | advanceEpoch (projectId : Uuid)
  | commit
deriving DecidableEq, Repr

namespace AccessStep

abbrev Result := Outcome AccessKey AccessWrite AccessStep

def exclusive (key : AccessKey) : Lock AccessKey := ⟨key, .exclusive⟩

/-- An error: the transaction is dropped, which rolls it back. -/
def fail : Result := .rollback none

def userExists (tables : AccessTables) (userId : Uuid) : Bool :=
  tables.users.any (·.id = userId)

def projectExists (tables : AccessTables) (projectId : Uuid) : Bool :=
  tables.projects.any (·.id = projectId)

def organizationExists (tables : AccessTables) (organizationId : Uuid) : Bool :=
  tables.organizations.any (·.id = organizationId)

/-- Upserts come before removals; when neither is left, the projects are selected. -/
def nextChange (userId : Uuid) (upserts : List (Uuid × OrganizationRole))
    (removals changed : List Uuid) : AccessStep :=
  if upserts.isEmpty && removals.isEmpty then .selectProjects changed
  else .changeMembership userId upserts removals changed

/-- A membership change of the synchronization. The hash maps it iterates over have no order:
`organizationId` is the organization that comes next. -/
def changeMembershipOf (tables : AccessTables) (userId organizationId : Uuid)
    (upserts : List (Uuid × OrganizationRole)) (removals changed : List Uuid) : Result :=
  let current := tables.organizationMemberships.find? fun membership =>
    membership.organizationId = organizationId ∧ membership.userId = userId
  match upserts.lookup organizationId with
  | some role =>
    -- `upsert_organization_membership_role`: an owner stays one
    if organizationExists tables organizationId && userExists tables userId then
      .done [exclusive (.membership organizationId userId)]
        [.setMembership ⟨organizationId, userId,
          if current.any (·.role = .owner) then .owner else role⟩]
        (nextChange userId (upserts.filter (·.1 ≠ organizationId)) removals
          (changed ++ [organizationId]))
    else fail
  | none =>
    if upserts.isEmpty && removals.contains organizationId then
      let next := nextChange userId [] (removals.filter (· ≠ organizationId))
        (changed ++ [organizationId])
      -- `delete_non_owner_organization_membership`
      if current.any (·.role ≠ .owner) then
        .done [exclusive (.membership organizationId userId)]
          [.removeMembership organizationId userId] next
      else .done [] [] next
    else fail

def execute (tables : AccessTables) (choice : Uuid) : AccessStep → Result
  | .upsertRole projectId userId role =>
    if projectExists tables projectId && userExists tables userId then
      .done [exclusive (.role projectId userId)]
        [.setRole ⟨projectId, userId, role, .directRole⟩] (.lockAccess projectId)
    else fail
  | .findGrant token userId now =>
    match tables.projectShareLinks.find? fun link =>
        link.tokenValue = token && link.isValid now with
    | none => fail
    | some link =>
      .done [⟨.shareLink link.id, .shared⟩] []
        (.grantShareLinkRole link.projectId userId link.permission.projectRole)
  | .grantShareLinkRole projectId userId requestedRole =>
    if projectExists tables projectId && userExists tables userId then
      .done [exclusive (.role projectId userId)]
        [.setRole (roleAtLeast projectId userId requestedRole
          (tables.projectRoles.find? fun row =>
            row.projectId = projectId ∧ row.userId = userId))]
        (.lockAccess projectId)
    else fail
  | .checkMember projectId organizationId permission actorUserId =>
    if tables.organizationMemberships.any fun membership =>
        membership.userId = actorUserId ∧ membership.organizationId = organizationId then
      .done [] [] (.upsertOrganizationAccess projectId organizationId permission)
    else fail
  | .upsertOrganizationAccess projectId organizationId permission =>
    if projectExists tables projectId && organizationExists tables organizationId then
      .done [exclusive (.organizationAccess projectId organizationId)]
        [.setOrganizationAccess ⟨projectId, organizationId, permission⟩] (.lockAccess projectId)
    else fail
  | .deleteOrganizationAccess projectId organizationId =>
    if tables.projectOrganizationAccess.any fun access =>
        access.projectId = projectId ∧ access.organizationId = organizationId then
      .done [exclusive (.organizationAccess projectId organizationId)]
        [.removeOrganizationAccess projectId organizationId] (.lockAccess projectId)
    else fail
  | .upsertGroupRole projectId groupName role =>
    if projectExists tables projectId then
      .done [exclusive (.groupRole projectId groupName)]
        [.setGroupRole ⟨projectId, groupName, role⟩] (.lockAccess projectId)
    else fail
  | .deleteGroupRole projectId groupName =>
    if tables.projectGroupRoles.any fun role =>
        role.projectId = projectId ∧ role.groupName = groupName then
      .done [exclusive (.groupRole projectId groupName)] [.removeGroupRole projectId groupName]
        (.lockAccess projectId)
    else fail
  | .upsertGroupMapping organizationId groupName role =>
    if organizationExists tables organizationId then
      .done [exclusive (.groupMapping organizationId groupName)]
        [.setGroupMapping ⟨organizationId, groupName, role⟩] .commit
    else fail
  | .deleteGroupMapping organizationId groupName =>
    if tables.organizationGroupMappings.any fun mapping =>
        mapping.organizationId = organizationId ∧ mapping.groupName = groupName then
      .done [exclusive (.groupMapping organizationId groupName)]
        [.removeGroupMapping organizationId groupName] .commit
    else fail
  | .upsertShareLink write =>
    -- `on conflict (project_id, permission) where revoked_at is null do update`
    match tables.projectShareLinks.find? fun link =>
        link.projectId = write.projectId && link.permission = write.permission
          && link.revokedAt.isNone with
    | some link =>
      .done [exclusive (.shareLink link.id)] [.extendShareLink link.id write.expiresAt]
        (.lockAccess write.projectId)
    | none =>
      if projectExists tables write.projectId && !tables.projectShareLinks.any fun link =>
          link.id = write.id ∨ link.tokenValue = write.tokenValue then
        .done [exclusive (.activeLink write.projectId write.permission),
            exclusive (.shareLink write.id), exclusive (.shareToken write.tokenValue)]
          [.insertShareLink ⟨write.id, write.projectId, write.tokenValue, write.permission,
            write.expiresAt, none⟩]
          (.lockAccess write.projectId)
      else fail
  | .revokeShareLink projectId shareLinkId now =>
    if tables.projectShareLinks.any fun link =>
        link.id = shareLinkId && link.projectId = projectId && link.revokedAt.isNone then
      .done [exclusive (.shareLink shareLinkId)] [.revokeShareLink shareLinkId now]
        (.lockAccess projectId)
    else fail
  | .findShareProject login =>
    match tables.projectShareLinks.find? fun link =>
        link.tokenValue = login.token && link.isValid login.now with
    | none => fail
    | some link => .done [] [] (.lockTemplateStatus login link.projectId)
  | .lockTemplateStatus login projectId =>
    match tables.projects.find? (·.id = projectId) with
    | none => fail
    | some project =>
      if project.isTemplate then fail
      else .done [exclusive (.project projectId)] [] (.lockShareTarget login projectId)
  | .lockShareTarget login projectId =>
    match tables.projectShareLinks.find? fun link =>
        link.tokenValue = login.token && link.projectId = projectId
          && link.isValid login.now with
    | none => fail
    | some link =>
      if link.permission = .write then
        .done [⟨.shareLink link.id, .shared⟩] []
          (.insertSession login projectId link.id link.permission)
      else fail
  | .insertSession login projectId shareLinkId permission =>
    if tables.anonymousShareSessions.any fun session => session.id = login.sessionId
        ∨ session.sessionTokenFingerprint = login.sessionTokenFingerprint then fail
    else
      .done [exclusive (.session login.sessionId),
          exclusive (.sessionFingerprint login.sessionTokenFingerprint)]
        [.insertSession ⟨login.sessionId, projectId, shareLinkId,
          login.sessionTokenFingerprint, trim login.displayName, permission,
          some (login.createdAt + 30 * 24 * 60 * 60)⟩] .commit
  | .lockAccessMutation projectId isTemplate =>
    .done [exclusive (.projectAccess projectId)] [] (.setTemplateStatus projectId isTemplate)
  | .setTemplateStatus projectId isTemplate =>
    if projectExists tables projectId then
      .done [exclusive (.project projectId)] [.setTemplate projectId isTemplate]
        (if isTemplate then .revokeSessions projectId else .clearTemplateAccess projectId)
    else fail
  | .revokeSessions projectId =>
    let ids := (tables.anonymousShareSessions.filter (·.projectId = projectId)).map (·.id)
    .done (ids.map fun id => exclusive (.session id)) [.removeSessions ids]
      (.lockAccess projectId)
  | .clearTemplateAccess projectId =>
    let rows := tables.projectTemplateOrganizationAccess.filter (·.projectId = projectId)
    .done (rows.map fun row => exclusive (.templateAccess row.projectId row.organizationId))
      [.removeTemplateAccess rows] .commit
  | .replaceGroups userId groups =>
    let removed := tables.userOidcGroups.filter (·.userId = userId)
    let inserted := groups.map fun groupName => (⟨userId, groupName⟩ : UserOidcGroupRow)
    if groups.Nodup ∧ (groups = [] ∨ userExists tables userId = true) then
      .done ((removed ++ inserted).map fun group =>
          exclusive (.userGroup group.userId group.groupName))
        [.replaceUserGroups removed inserted] (.listMappings userId groups)
    else fail
  | .listMappings userId groups =>
    .done [] [] (.listMemberships userId groups tables.organizationGroupMappings)
  | .listMemberships userId groups mappings =>
    let currentRoles := membershipRoles tables userId
    let desired := desiredRoles mappings groups
    .done [] [] (nextChange userId (membershipUpserts currentRoles desired)
      (membershipRemovals currentRoles desired (mappings.map (·.organizationId))) [])
  | .changeMembership userId upserts removals changed =>
    changeMembershipOf tables userId choice upserts removals changed
  | .selectProjects changed =>
    if changed.isEmpty then .done [] [] .commit
    else
      let selected := organizationProjects tables changed
      if selected.isEmpty then .done [] [] .commit else .done [] [] (.lockProjects selected selected)
  | .lockProjects [] selected => .done [] [] (.advanceEpochs selected)
  | .lockProjects (projectId :: remaining) selected =>
    .done [exclusive (.projectAccess projectId)] [] (.lockProjects remaining selected)
  | .advanceEpochs selected =>
    .done (selected.map fun projectId => exclusive (.project projectId))
      [.advanceEpochs selected] .commit
  | .lockAccess projectId =>
    .done [exclusive (.projectAccess projectId)] [] (.advanceEpoch projectId)
  | .advanceEpoch projectId =>
    if projectExists tables projectId then
      .done [exclusive (.project projectId)] [.advanceEpochs [projectId]] .commit
    else fail
  | .commit => fail

def afterCommit : AccessStep → Option (Option AccessStep)
  | .commit => some none
  | _ => none

end AccessStep

/-! ## Commands -/

inductive AccessCommand
  | upsertProjectRole (projectId userId : Uuid) (role : ProjectRole)
  | joinProjectShareLink (actorUserId : Uuid) (token : Text) (now : Timestamp)
  | upsertProjectOrganizationAccess (projectId organizationId : Uuid)
      (permission : ProjectPermission) (actorUserId : Uuid)
  | deleteProjectOrganizationAccess (projectId organizationId : Uuid)
  | upsertProjectGroupRole (projectId : Uuid) (groupName : Text) (role : ProjectRole)
  | deleteProjectGroupRole (projectId : Uuid) (groupName : Text)
  | upsertOrganizationGroupMapping (organizationId : Uuid) (groupName : Text)
      (role : OrganizationRole)
  | deleteOrganizationGroupMapping (organizationId : Uuid) (groupName : Text)
  | enableProjectShareLink (write : ShareLinkWrite)
  | revokeProjectShareLink (projectId shareLinkId : Uuid) (now : Timestamp)
  | createTemporaryShareLogin (login : TemporaryShareLogin) (anonymousMode : AnonymousMode)
  | updateProjectTemplate (projectId : Uuid) (isTemplate : Bool)
  | syncOidcIdentityGroups (userId : Uuid) (groups : List Text)
deriving DecidableEq, Repr

def normalizeGroupName (groupName : Text) : Option Text :=
  let groupName := trim groupName
  if groupName.isEmpty then none else some groupName

/-- What a function checks before it begins its transaction, and its first statement. -/
def AccessCommand.start : AccessCommand → Option AccessStep
  | .upsertProjectRole projectId userId role => some (.upsertRole projectId userId role)
  | .joinProjectShareLink actorUserId token now =>
    if (trim token).isEmpty then none else some (.findGrant (trim token) actorUserId now)
  | .upsertProjectOrganizationAccess projectId organizationId permission actorUserId =>
    some (.checkMember projectId organizationId permission actorUserId)
  | .deleteProjectOrganizationAccess projectId organizationId =>
    some (.deleteOrganizationAccess projectId organizationId)
  | .upsertProjectGroupRole projectId groupName role =>
    (normalizeGroupName groupName).map fun groupName => .upsertGroupRole projectId groupName role
  | .deleteProjectGroupRole projectId groupName =>
    (normalizeGroupName groupName).map fun groupName => .deleteGroupRole projectId groupName
  | .upsertOrganizationGroupMapping organizationId groupName role =>
    (normalizeGroupName groupName).map fun groupName =>
      .upsertGroupMapping organizationId groupName role
  | .deleteOrganizationGroupMapping organizationId groupName =>
    some (.deleteGroupMapping organizationId groupName)
  | .enableProjectShareLink write =>
    if write.expiresAt.any (· ≤ write.createdAt) then none else some (.upsertShareLink write)
  | .revokeProjectShareLink projectId shareLinkId now =>
    some (.revokeShareLink projectId shareLinkId now)
  | .createTemporaryShareLogin login anonymousMode =>
    let displayName := trim login.displayName
    if !anonymousMode.allowsGuestWrite || (trim login.token).isEmpty || displayName.isEmpty
        || (displayName.map (·.utf8Size)).sum > 64 then none
    else some (.findShareProject { login with token := trim login.token })
  | .updateProjectTemplate projectId isTemplate =>
    some (.lockAccessMutation projectId isTemplate)
  | .syncOidcIdentityGroups userId groups => some (.replaceGroups userId groups)

def accessTransactions :
    TransactionSystem AccessTables AccessCommand AccessKey AccessWrite AccessStep Uuid where
  start := AccessCommand.start
  execute := AccessStep.execute
  afterCommit := AccessStep.afterCommit
  apply := fun write tables => write.apply tables

/-- No transaction is tried again. -/
theorem AccessStep.not_rollback_some {tables : AccessTables} {choice : Uuid}
    {step next : AccessStep} : ¬execute tables choice step = .rollback (some next) := by
  intro h
  cases step
  case lockProjects remaining selected => cases remaining <;> cases h
  all_goals
    simp only [execute, changeMembershipOf, fail] at h
    repeat' split at h
  all_goals cases h

theorem afterCommit_eq_some {step : AccessStep} {next : Option AccessStep}
    (h : accessTransactions.afterCommit step = some next) : step = .commit ∧ next = none := by
  cases step <;> first | exact ⟨rfl, (Option.some.inj h).symm⟩ | cases h

abbrev AccessWorld := TransactionWorld AccessTables AccessKey AccessWrite AccessStep

abbrev AccessClient := Client AccessKey AccessWrite AccessStep

abbrev AccessAction := TransactionAction AccessCommand Uuid

end Toss.Access
