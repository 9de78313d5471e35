import Mathlib.Data.List.MinMax
import Toss.Access.EffectiveAccess

/-!
# The strongest source of access

What effective access is for: among all the sources that give a user a role in a project, the
strongest decides. The three places that resolve access are compared with it.

* `strongestAccess` — the strongest of the direct role, the organization grants and the group
  roles;
* `strongest_roles` — what `project_user_access` returns leaves the group roles out;
* `foldl_mergeAccessUser` — the merge of `list_project_access_users`;
* `access_is_strongest_iff` — authorization, catalog and user list follow the strongest source
  just where no group role exceeds the others.
-/

namespace Toss.Access

open Toss.Foundation

/-! ## Strongest of a list -/

section Maximum

variable {α : Type*} [LinearOrder α]

/-- Lists each of whose members is bounded by one of the other have the same maximum. -/
theorem maximum_eq_of_bounded {xs ys : List α} (hxs : ∀ x ∈ xs, ∃ y ∈ ys, x ≤ y)
    (hys : ∀ y ∈ ys, ∃ x ∈ xs, y ≤ x) : xs.maximum = ys.maximum := by
  apply le_antisymm
  · apply List.maximum_le_of_forall_le
    intro x hx
    exact List.coe_le_maximum_iff.mpr (hxs x hx)
  · apply List.maximum_le_of_forall_le
    intro y hy
    exact List.coe_le_maximum_iff.mpr (hys y hy)

/-- The maximum of a list ignores what is appended to it just if that exceeds no member. -/
theorem maximum_append_eq_left_iff {xs ys : List α} :
    (xs ++ ys).maximum = xs.maximum ↔ ∀ y ∈ ys, ∃ x ∈ xs, y ≤ x := by
  constructor
  · intro h y hy
    apply List.coe_le_maximum_iff.mp
    rw [← h]
    exact List.le_maximum_of_mem' (List.mem_append_right xs hy)
  · intro h
    apply maximum_eq_of_bounded
    · intro x hx
      rcases List.mem_append.mp hx with hleft | hright
      · exact ⟨x, hleft, le_rfl⟩
      · exact h x hright
    · intro x hx
      exact ⟨x, List.mem_append_left ys hx, le_rfl⟩

end Maximum

/-- The first row in descending order is a greatest one. -/
theorem head?_orderBy_neg {ρ : Type*} {key : ρ → Int} {rows : List ρ} {row : ρ}
    (h : (orderBy (fun row => -key row) rows).head? = some row) :
    row ∈ rows ∧ ∀ other ∈ rows, key other ≤ key row := by
  have hsorted := orderBy_sorted (fun row => -key row) rows
  cases hrows : orderBy (fun row => -key row) rows with
  | nil => simp [hrows] at h
  | cons first rest =>
    rw [hrows] at h hsorted
    rcases Option.some.inj h with rfl
    have hmem : ∀ other, other ∈ rows ↔ other = first ∨ other ∈ rest := by
      intro other
      rw [← mem_orderBy (fun row => -key row), hrows, List.mem_cons]
    constructor
    · exact (hmem first).mpr (.inl rfl)
    · intro other hother
      rcases (hmem other).mp hother with rfl | hlater
      · exact le_rfl
      · have hle := (List.pairwise_cons.mp hsorted).1 other hlater
        omega

theorem head?_orderBy_eq_none {ρ κ : Type*} [LinearOrder κ] {key : ρ → κ} {rows : List ρ} :
    (orderBy key rows).head? = none ↔ rows = [] := by
  rw [List.head?_eq_none_iff]
  constructor
  · intro h
    exact List.Perm.eq_nil (h ▸ (orderBy_perm key rows).symm)
  · rintro rfl
    rfl

/-! ## Sources -/

/-- The roles of the direct grants of the project to the user. -/
def directRoles (tables : AccessTables) (userId projectId : Uuid) : List ProjectRole :=
  (tables.projectRoles.filter fun row => row.projectId = projectId ∧ row.userId = userId).map
    (·.role)

/-- The roles the project grants to organizations the user is a member of. -/
def organizationRoles (tables : AccessTables) (userId projectId : Uuid) : List ProjectRole :=
  (tables.projectOrganizationAccess.filter fun row =>
    row.projectId = projectId ∧ ∃ membership ∈ tables.organizationMemberships,
      membership.organizationId = row.organizationId ∧ membership.userId = userId).map
        (·.permission.projectRole)

/-- The roles the project gives to groups the user is in. -/
def groupRoles (tables : AccessTables) (userId projectId : Uuid) : List ProjectRole :=
  (tables.projectGroupRoles.filter fun row =>
    row.projectId = projectId ∧ ∃ group ∈ tables.userOidcGroups,
      group.groupName = row.groupName ∧ group.userId = userId).map (·.role)

/-- Effective access: the strongest role any source gives, `⊥` where none gives one. -/
def strongestAccess (tables : AccessTables) (userId projectId : Uuid) : WithBot ProjectRole :=
  (directRoles tables userId projectId ++ organizationRoles tables userId projectId
    ++ groupRoles tables userId projectId).maximum

/-! ## Resolution -/

/-- The roles that the result of `project_user_access` stands for. -/
def ProjectUserAccess.roles (access : ProjectUserAccess) : List ProjectRole :=
  access.directRole.toList ++ (access.organizationPermission.map (·.projectRole)).toList

variable {tables : AccessTables} {userId projectId : Uuid} {role : ProjectRole}

theorem mem_userOrganizationAccess {userId : Uuid} {row : ProjectOrganizationAccessRow} :
    row ∈ userOrganizationAccess tables userId ↔
      row ∈ tables.projectOrganizationAccess ∧ ∃ membership ∈ tables.organizationMemberships,
        membership.organizationId = row.organizationId ∧ membership.userId = userId := by
  simp only [userOrganizationAccess, List.mem_flatMap, List.mem_map, List.mem_filter,
    decide_eq_true_eq]
  constructor
  · rintro ⟨access, haccess, membership, ⟨hmember, hmatches⟩, rfl⟩
    exact ⟨haccess, membership, hmember, hmatches⟩
  · rintro ⟨hrow, membership, hmember, hmatches⟩
    exact ⟨row, hrow, membership, ⟨hmember, hmatches⟩, rfl⟩

theorem mem_directRoles :
    role ∈ directRoles tables userId projectId ↔
      ∃ row ∈ tables.projectRoles,
        row.projectId = projectId ∧ row.userId = userId ∧ row.role = role := by
  simp [directRoles, and_assoc]

theorem mem_organizationRoles
    :
    role ∈ organizationRoles tables userId projectId ↔
      ∃ row ∈ userOrganizationAccess tables userId,
        row.projectId = projectId ∧ row.permission.projectRole = role := by
  simp only [organizationRoles, List.mem_map, List.mem_filter, decide_eq_true_eq,
    mem_userOrganizationAccess]
  constructor
  · rintro ⟨row, ⟨hrow, hproject, hmember⟩, hrole⟩
    exact ⟨row, ⟨hrow, hmember⟩, hproject, hrole⟩
  · rintro ⟨row, ⟨hrow, hmember⟩, hproject, hrole⟩
    exact ⟨row, ⟨hrow, hproject, hmember⟩, hrole⟩

/-- The primary key leaves one direct role, which the scalar subquery returns. -/
theorem mem_directRoles_iff (hconstrained : tables.Constrained)
    :
    role ∈ directRoles tables userId projectId ↔ directRole tables userId projectId = some role := by
  rw [mem_directRoles, directRole, Option.map_eq_some_iff]
  constructor
  · rintro ⟨row, hrow, hproject, huser, hrole⟩
    have hkeys := hconstrained.projectRolesKey
    cases hfound : tables.projectRoles.find?
        fun role => role.projectId = projectId ∧ role.userId = userId with
    | none =>
      have hnot := List.find?_eq_none.mp hfound row hrow
      exact absurd (decide_eq_true (show _ ∧ _ from ⟨hproject, huser⟩)) hnot
    | some found =>
      have hmatches := List.find?_some hfound
      simp only [decide_eq_true_eq] at hmatches
      have hsame : found = row := by
        apply List.inj_on_of_nodup_map hkeys (List.mem_of_find?_eq_some hfound) hrow
        rw [hmatches.1, hmatches.2, hproject, huser]
      exact ⟨found, rfl, hsame ▸ hrole⟩
  · rintro ⟨row, hfound, hrole⟩
    have hmatches := List.find?_some hfound
    simp only [decide_eq_true_eq] at hmatches
    exact ⟨row, List.mem_of_find?_eq_some hfound, hmatches.1, hmatches.2, hrole⟩

theorem projectRole_le_of_permissionOrder_le {a b : ProjectPermission}
    (h : permissionOrder a ≤ permissionOrder b) : a.projectRole ≤ b.projectRole := by
  cases a <;> cases b <;> first | decide | (simp [permissionOrder] at h)

/-- `order by … limit 1` returns a strongest organization grant. -/
theorem organizationPermission_spec (tables : AccessTables) (userId projectId : Uuid) :
    (((organizationPermission tables userId projectId).map (·.projectRole)).toList).maximum
      = (organizationRoles tables userId projectId).maximum := by
  cases hpermission : organizationPermission tables userId projectId with
  | none =>
    have hnone := head?_orderBy_eq_none.mp hpermission
    have hempty : organizationRoles tables userId projectId = [] := by
      apply List.eq_nil_iff_forall_not_mem.mpr
      intro role hrole
      rcases mem_organizationRoles.mp hrole with ⟨row, hrow, hproject, -⟩
      have hmem : row.permission ∈ ((userOrganizationAccess tables userId).filter
          (·.projectId = projectId)).map (·.permission) :=
        List.mem_map_of_mem (List.mem_filter.mpr ⟨hrow, decide_eq_true hproject⟩)
      rw [hnone] at hmem
      exact List.not_mem_nil hmem
    rw [hempty]
    rfl
  | some permission =>
    rcases head?_orderBy_neg hpermission with ⟨hmem, hgreatest⟩
    apply maximum_eq_of_bounded
    · intro role hrole
      rcases List.mem_singleton.mp hrole with rfl
      rcases List.mem_map.mp hmem with ⟨row, hrow, rfl⟩
      rcases List.mem_filter.mp hrow with ⟨hjoined, hproject⟩
      have hsource : row.permission.projectRole ∈ organizationRoles tables userId projectId :=
        mem_organizationRoles.mpr ⟨row, hjoined, of_decide_eq_true hproject, rfl⟩
      exact ⟨_, hsource, le_rfl⟩
    · intro role hrole
      rcases mem_organizationRoles.mp hrole with ⟨row, hrow, hproject, rfl⟩
      have hother := hgreatest row.permission
        (List.mem_map_of_mem (List.mem_filter.mpr ⟨hrow, decide_eq_true hproject⟩))
      exact ⟨permission.projectRole, List.mem_singleton_self _,
        projectRole_le_of_permissionOrder_le hother⟩

/-- `project_user_access` finds the strongest of the direct role and the organization grants,
and looks at nothing else. -/
theorem strongest_roles (hconstrained : tables.Constrained) (userId projectId : Uuid) :
    (projectUserAccess tables userId projectId).roles.maximum
      = (directRoles tables userId projectId
          ++ organizationRoles tables userId projectId).maximum := by
  have hspec := organizationPermission_spec tables userId projectId
  have hdirect : ∀ role, role ∈ (directRole tables userId projectId).toList ↔
      role ∈ directRoles tables userId projectId := by
    intro role
    rw [mem_directRoles_iff hconstrained, Option.mem_toList]
  have hbound : ∀ (xs ys : List ProjectRole), xs.maximum = ys.maximum →
      ∀ x ∈ xs, ∃ y ∈ ys, x ≤ y := by
    intro xs ys heq x hx
    rw [← List.coe_le_maximum_iff, ← heq]
    exact List.le_maximum_of_mem' hx
  apply maximum_eq_of_bounded
  · intro role hrole
    rcases List.mem_append.mp hrole with hleft | hright
    · exact ⟨role, List.mem_append_left _ ((hdirect role).mp hleft), le_rfl⟩
    · rcases hbound _ _ hspec role hright with ⟨other, hother, hle⟩
      exact ⟨other, List.mem_append_right _ hother, hle⟩
  · intro role hrole
    rcases List.mem_append.mp hrole with hleft | hright
    · exact ⟨role, List.mem_append_left _ ((hdirect role).mpr hleft), le_rfl⟩
    · rcases hbound _ _ hspec.symm role hright with ⟨other, hother, hle⟩
      exact ⟨other, List.mem_append_right _ hother, hle⟩

/-! ## Authorization -/

variable {need : AccessNeed} {access : ProjectCatalogAccess}

theorem AccessNeed.allowsRole_mono {a b : ProjectRole} (hle : a ≤ b)
    (h : need.allowsRole a = true) : need.allowsRole b = true := by
  revert hle h
  cases need <;> cases a <;> cases b <;> decide

theorem AccessNeed.allowsOrganizationPermission_eq (need : AccessNeed)
    (permission : ProjectPermission) :
    need.allowsOrganizationPermission permission = need.allowsRole permission.projectRole := by
  cases need <;> cases permission <;> rfl

theorem projectUserAccessAllows_eq (access : ProjectUserAccess) (need : AccessNeed) :
    projectUserAccessAllows access.directRole access.organizationPermission need
      = access.roles.any need.allowsRole := by
  rcases access with ⟨direct, permission⟩
  simp only [projectUserAccessAllows, ProjectUserAccess.roles, List.any_append]
  cases direct <;> cases permission <;>
    simp [AccessNeed.allowsOrganizationPermission_eq]

/-- A need that the strongest of several roles allows is one that some of them allows. -/
theorem any_allowsRole_iff {roles : List ProjectRole} :
    roles.any need.allowsRole = true ↔
      ∃ role : ProjectRole, roles.maximum = role ∧ need.allowsRole role = true := by
  rw [List.any_eq_true]
  constructor
  · rintro ⟨role, hrole, hallows⟩
    rcases WithBot.ne_bot_iff_exists.mp
      (List.maximum_ne_bot_of_ne_nil (List.ne_nil_of_mem hrole)) with ⟨strongest, hstrongest⟩
    have hle := List.le_maximum_of_mem hrole hstrongest.symm
    exact ⟨strongest, hstrongest.symm, AccessNeed.allowsRole_mono hle hallows⟩
  · rintro ⟨role, hstrongest, hallows⟩
    exact ⟨role, List.maximum_mem hstrongest, hallows⟩

/-- Authorization allows just what the strongest role that `project_user_access` knows allows. -/
theorem ensureProjectRoleForUser_eq_ok {actor projectId : Uuid} :
    ensureProjectRoleForUser tables actor projectId need = .ok () ↔
      ∃ role : ProjectRole, (projectUserAccess tables actor projectId).roles.maximum = role
        ∧ need.allowsRole role = true := by
  rw [← any_allowsRole_iff, ← projectUserAccessAllows_eq]
  simp only [ensureProjectRoleForUser]
  split
  · next hallows => simp [hallows]
  · next hallows => simp [hallows]

/-- The needs a role allows determine the role. -/
theorem eq_of_allows_same {a b : WithBot ProjectRole}
    (h : ∀ need : AccessNeed, (∃ role : ProjectRole, a = role ∧ need.allowsRole role = true) ↔
      ∃ role : ProjectRole, b = role ∧ need.allowsRole role = true) : a = b := by
  have hread := h .read
  have hwrite := h .write
  have hmanage := h .manage
  induction a using WithBot.recBotCoe with
  | bot =>
    induction b using WithBot.recBotCoe with
    | bot => rfl
    | coe role => simp [AccessNeed.allowsRole] at hread
  | coe role =>
    induction b using WithBot.recBotCoe with
    | bot => simp [AccessNeed.allowsRole] at hread
    | coe other =>
      cases role <;> cases other <;> first | rfl | (simp [AccessNeed.allowsRole] at hwrite hmanage)

/-! ## Catalog -/

/-- What the catalog knows of a project is what authorization knows. -/
theorem effectiveRole_eq (hread : access.canRead = true) :
    (⟨access.directRole, access.organizationPermission⟩ : ProjectUserAccess).roles.maximum
      = access.effectiveRole := by
  rcases access with ⟨projectId, direct, permission, template⟩
  have hcases : ∀ (direct : Option ProjectRole) (permission : Option ProjectPermission),
      (direct.isSome || permission.isSome) = true →
      (⟨direct, permission⟩ : ProjectUserAccess).roles.maximum
        = (ProjectCatalogAccess.effectiveRole ⟨projectId, direct, permission, template⟩ :
            WithBot ProjectRole) := by
    intro direct permission hsome
    rcases direct with _ | role <;> rcases permission with _ | permission
    · simp at hsome
    · cases permission <;> rfl
    · cases role <;> rfl
    · cases role <;> cases permission <;> rfl
  exact hcases direct permission hread

theorem mem_listProjectCatalogAccess {userId : Uuid}
    (h : access ∈ listProjectCatalogAccess tables userId) :
    access.directRole = directRole tables userId access.projectId
      ∧ access.organizationPermission = organizationPermission tables userId access.projectId := by
  rcases List.mem_map.mp h with ⟨projectId, -, rfl⟩
  exact ⟨rfl, rfl⟩

theorem canRead_iff {userId : Uuid} (h : access ∈ listProjectCatalogAccess tables userId) :
    access.canRead = true ↔
      (projectUserAccess tables userId access.projectId).roles.maximum ≠ ⊥ := by
  rcases mem_listProjectCatalogAccess h with ⟨hdirect, hpermission⟩
  rw [ne_eq, List.maximum_eq_bot, ProjectCatalogAccess.canRead, hdirect, hpermission]
  simp only [ProjectUserAccess.roles, projectUserAccess]
  cases directRole tables userId access.projectId <;>
    cases organizationPermission tables userId access.projectId <;> simp

/-- A project the user has a role in is one of the visible projects. -/
theorem mem_visibleProjects (hrole : role ∈ directRoles tables userId projectId
      ++ organizationRoles tables userId projectId) :
    projectId ∈ visibleProjects tables userId := by
  rw [visibleProjects, List.mem_dedup, List.mem_append, List.mem_append]
  left
  rcases List.mem_append.mp hrole with hdirect | horganization
  · left
    rcases mem_directRoles.mp hdirect with ⟨row, hrow, hproject, huser, -⟩
    exact List.mem_map.mpr ⟨row, List.mem_filter.mpr ⟨hrow, decide_eq_true huser⟩, hproject⟩
  · right
    rcases mem_organizationRoles.mp horganization with ⟨row, hrow, hproject, -⟩
    exact List.mem_map.mpr ⟨row, hrow, hproject⟩

/-- Without templates, the catalog check asks whether the user has a role at all. -/
theorem projectUserHasCatalogAccess_iff :
    projectUserHasCatalogAccess tables userId projectId false = true ↔
      (directRoles tables userId projectId
        ++ organizationRoles tables userId projectId).maximum ≠ ⊥ := by
  rw [ne_eq, List.maximum_eq_bot, List.eq_nil_iff_forall_not_mem, not_forall_not]
  simp only [projectUserHasCatalogAccess, Bool.or_eq_true, List.any_eq_true, decide_eq_true_eq,
    Bool.false_and, Bool.false_eq_true, or_false, List.mem_append]
  constructor
  · rintro (⟨row, hrow, hproject, huser⟩ | ⟨row, hrow, hproject⟩)
    · exact ⟨row.role, .inl (mem_directRoles.mpr ⟨row, hrow, hproject, huser, rfl⟩)⟩
    · exact ⟨_, .inr (mem_organizationRoles.mpr ⟨row, hrow, hproject, rfl⟩)⟩
  · rintro ⟨role, hdirect | horganization⟩
    · rcases mem_directRoles.mp hdirect with ⟨row, hrow, hproject, huser, -⟩
      exact .inl ⟨row, hrow, hproject, huser⟩
    · rcases mem_organizationRoles.mp horganization with ⟨row, hrow, hproject, -⟩
      exact .inr ⟨row, hrow, hproject⟩

/-- A request asks for a project: it is not archived by the user, or archived projects are
asked for too, and its name is searched for. -/
def IsRequested (ilike : Text → Text → Bool) (tables : AccessTables) (actorUserId : Uuid)
    (includeArchived : Bool) (search : Option Text) (project : AccessProjectRow) : Prop :=
  (includeArchived = true ∨ ∀ archive ∈ tables.projectUserArchives,
    ¬(archive.projectId = project.id ∧ archive.userId = actorUserId))
  ∧ ∀ pattern, searchPattern search = some pattern → ilike project.name pattern = true

theorem mem_listForUser {ilike : Text → Text → Bool} {actorUserId : Uuid}
    {projectIds : List Uuid} {includeArchived : Bool} {search : Option Text}
    {project : AccessProjectRow} :
    project ∈ listForUser ilike tables actorUserId projectIds includeArchived
        (searchPattern search) ↔
      project ∈ tables.projects ∧ project.id ∈ projectIds
        ∧ IsRequested ilike tables actorUserId includeArchived search project := by
  simp only [listForUser, IsRequested, List.mem_filter, Bool.and_eq_true, Bool.or_eq_true,
    List.contains_iff_mem, Bool.not_eq_true', List.any_eq_false, decide_eq_true_eq]
  constructor
  · rintro ⟨hproject, ⟨hid, harchive⟩, hpattern⟩
    refine ⟨hproject, hid, harchive, ?_⟩
    intro pattern hsome
    rw [hsome] at hpattern
    exact hpattern
  · rintro ⟨hproject, hid, harchive, hpattern⟩
    refine ⟨hproject, ⟨hid, harchive⟩, ?_⟩
    cases hsome : searchPattern search with
    | none => rfl
    | some pattern => exact hpattern pattern hsome

/-- The catalog access of a listed project. -/
theorem find?_catalogAccess (h : projectId ∈ visibleProjects tables userId) :
    ∃ access ∈ listProjectCatalogAccess tables userId, access.projectId = projectId ∧
      (listProjectCatalogAccess tables userId).find? (·.projectId = projectId) = some access := by
  cases hfound : (listProjectCatalogAccess tables userId).find? (·.projectId = projectId) with
  | none =>
    have hnot := List.find?_eq_none.mp hfound _ (List.mem_map_of_mem h)
    simp at hnot
  | some access =>
    have hid := List.find?_some hfound
    simp only [decide_eq_true_eq] at hid
    exact ⟨access, List.mem_of_find?_eq_some hfound, hid, rfl⟩

theorem map_projectId_listProjectCatalogAccess (tables : AccessTables) (userId : Uuid) :
    (listProjectCatalogAccess tables userId).map (·.projectId)
      = visibleProjects tables userId := by
  simp [listProjectCatalogAccess, Function.comp_def]

/-- The catalog never misses the access of a project it found. -/
theorem listProjects_ok (ilike : Text → Text → Bool) (tables : AccessTables) (actorUserId : Uuid)
    (includeArchived : Bool) (search : Option Text) :
    ∃ entries, listProjects ilike tables actorUserId includeArchived search = .ok entries
      ∧ ∀ entry, entry ∈ entries ↔ ∃ project ∈ tables.projects,
          ∃ access ∈ listProjectCatalogAccess tables actorUserId,
            access.projectId = project.id
              ∧ (listProjectCatalogAccess tables actorUserId).find? (·.projectId = project.id)
                  = some access
              ∧ IsRequested ilike tables actorUserId includeArchived search project
              ∧ access.permitsCatalogEntry project.isTemplate = true
              ∧ entry = projectFromRecord project access := by
  simp only [listProjects, map_projectId_listProjectCatalogAccess]
  set records := listForUser ilike tables actorUserId (visibleProjects tables actorUserId)
    includeArchived (searchPattern search) with hrecords
  -- every listed project has its catalog access
  have hmapped : ∀ record ∈ records, ∃ entry,
      catalogEntry (listProjectCatalogAccess tables actorUserId) record = .ok entry := by
    intro record hrecord
    rw [hrecords] at hrecord
    rcases find?_catalogAccess (mem_listForUser.mp hrecord).2.1 with ⟨access, -, -, hfound⟩
    rw [catalogEntry, hfound]
    exact ⟨_, rfl⟩
  rcases exists_mapM_ok hmapped with ⟨entries, hentries⟩
  rw [hentries]
  refine ⟨entries.filterMap id, rfl, ?_⟩
  intro entry
  rw [List.mem_filterMap]
  simp only [id_eq, exists_eq_right, mem_mapM_ok hentries]
  constructor
  · rintro ⟨record, hrecord, hentry⟩
    rw [hrecords] at hrecord
    rcases mem_listForUser.mp hrecord with ⟨hproject, hvisible, hrequested⟩
    rcases find?_catalogAccess hvisible with ⟨access, haccess, hid, hfound⟩
    rw [catalogEntry, hfound] at hentry
    simp only [Except.ok.injEq, Option.ite_none_right_eq_some, Option.some.injEq] at hentry
    exact ⟨record, hproject, access, haccess, hid, hfound, hrequested, hentry.1, hentry.2.symm⟩
  · rintro ⟨project, hproject, access, haccess, hid, hfound, hrequested, hpermits, rfl⟩
    have hvisible : project.id ∈ visibleProjects tables actorUserId := by
      rw [← hid, ← map_projectId_listProjectCatalogAccess]
      exact List.mem_map_of_mem haccess
    refine ⟨project, ?_, ?_⟩
    · rw [hrecords]
      exact mem_listForUser.mpr ⟨hproject, hvisible, hrequested⟩
    · rw [catalogEntry, hfound]
      simp [hpermits]

/-! ## The users of a project -/

@[simp] theorem ProjectAccessUser.merge_userId (entry : ProjectAccessUser) (row : AccessUserRow) :
    (entry.merge row).userId = entry.userId := by
  unfold ProjectAccessUser.merge
  split <;> split <;> rfl

@[simp] theorem ProjectAccessUser.merge_role (entry : ProjectAccessUser) (row : AccessUserRow) :
    (entry.merge row).role = max entry.role row.role := by
  have hrole : (if row.role.rank > entry.role.rank then row.role else entry.role)
      = max entry.role row.role := by
    by_cases hraised : entry.role.rank < row.role.rank
    · rw [if_pos hraised, max_eq_right (show entry.role ≤ row.role from le_of_lt hraised)]
    · rw [if_neg hraised, max_eq_left (show row.role ≤ entry.role from not_lt.mp hraised)]
  rw [← hrole]
  unfold ProjectAccessUser.merge
  split <;> split <;> rfl

/-- The role that the rows of a user give him, the strongest of them. -/
def mergedRole (rows : List AccessUserRow) (userId : Uuid) : WithBot ProjectRole :=
  ((rows.filter (·.userId = userId)).map (·.role)).maximum

theorem mergedRole_concat (rows : List AccessUserRow) (row : AccessUserRow) (userId : Uuid) :
    mergedRole (rows ++ [row]) userId
      = if row.userId = userId then max (mergedRole rows userId) row.role
        else mergedRole rows userId := by
  by_cases huser : row.userId = userId
  · simp [mergedRole, huser, List.filter_append, List.maximum_concat]
  · simp [mergedRole, huser, List.filter_append]

/-- The merge keeps one entry for each user, with the strongest of his roles. -/
theorem foldl_mergeAccessUser (rows : List AccessUserRow) :
    ((rows.foldl mergeAccessUser []).map (·.userId)).Nodup ∧
      ∀ (userId : Uuid) (role : ProjectRole),
        (∃ entry ∈ rows.foldl mergeAccessUser [], entry.userId = userId ∧ entry.role = role) ↔
          mergedRole rows userId = role := by
  induction rows using List.reverseRecOn with
  | nil => simp [mergedRole]
  | append_singleton rows row ih =>
    rcases ih with ⟨hkeys, hroles⟩
    rw [List.foldl_concat]
    set users := rows.foldl mergeAccessUser [] with husers
    by_cases hknown : users.any (·.userId = row.userId) = true
    · -- a user who is listed gets the stronger of both roles
      have hmerged : mergeAccessUser users row
          = updateWhere (·.userId = row.userId) (·.merge row) users := by
        rw [mergeAccessUser, if_pos hknown]
      rw [hmerged]
      refine ⟨?_, ?_⟩
      · rw [map_updateWhere fun entry _ => ProjectAccessUser.merge_userId entry row]
        exact hkeys
      · intro userId role
        rw [mergedRole_concat]
        by_cases huser : row.userId = userId
        · rcases huser with rfl
          rw [if_pos rfl]
          rcases List.any_eq_true.mp hknown with ⟨known, hknownmem, hknownid⟩
          have hknownrole := (hroles row.userId known.role).mp
            ⟨known, hknownmem, of_decide_eq_true hknownid, rfl⟩
          rw [hknownrole]
          constructor
          · rintro ⟨entry, hentry, hid, rfl⟩
            rcases mem_updateWhere.mp hentry with ⟨old, hold, ⟨holdid, rfl⟩ | ⟨holdid, rfl⟩⟩
            · have hsame := (hroles row.userId old.role).mp
                ⟨old, hold, of_decide_eq_true holdid, rfl⟩
              rw [hknownrole] at hsame
              rw [ProjectAccessUser.merge_role, WithBot.coe_inj.mp hsame]
              rfl
            · exact absurd hid (of_decide_eq_false holdid)
          · intro hrole
            refine ⟨known.merge row, mem_updateWhere.mpr
              ⟨known, hknownmem, .inl ⟨hknownid, rfl⟩⟩, ?_, ?_⟩
            · rw [ProjectAccessUser.merge_userId]
              exact of_decide_eq_true hknownid
            · rw [ProjectAccessUser.merge_role]
              exact WithBot.coe_inj.mp hrole
        · rw [if_neg huser, ← hroles]
          constructor
          · rintro ⟨entry, hentry, hid, hrole⟩
            rcases mem_updateWhere.mp hentry with ⟨old, hold, ⟨holdid, rfl⟩ | ⟨-, rfl⟩⟩
            · rw [ProjectAccessUser.merge_userId] at hid
              exact absurd ((of_decide_eq_true holdid).symm.trans hid) huser
            · exact ⟨_, hold, hid, hrole⟩
          · rintro ⟨entry, hentry, hid, hrole⟩
            have hother : decide (entry.userId = row.userId) = false :=
              decide_eq_false fun heq => huser (heq.symm.trans hid)
            exact ⟨entry, mem_updateWhere.mpr ⟨entry, hentry, .inr ⟨hother, rfl⟩⟩, hid, hrole⟩
    · have hunknown : ∀ entry ∈ users, entry.userId ≠ row.userId := by
        intro entry hentry heq
        exact hknown (List.any_eq_true.mpr ⟨entry, hentry, decide_eq_true heq⟩)
      -- a new user is put behind the others
      have hmerged : mergeAccessUser users row = users ++ [row.entry] := by
        rw [mergeAccessUser, if_neg hknown]
      rw [hmerged]
      refine ⟨?_, ?_⟩
      · rw [List.map_append, List.map_singleton, List.nodup_append]
        refine ⟨hkeys, List.nodup_singleton _, ?_⟩
        intro id hid other hother
        rcases List.mem_map.mp hid with ⟨entry, hentry, rfl⟩
        rcases List.mem_singleton.mp hother with rfl
        exact hunknown entry hentry
      · intro userId role
        rw [mergedRole_concat]
        by_cases huser : row.userId = userId
        · rcases huser with rfl
          -- no earlier row is this user's
          have hnone : mergedRole rows row.userId = ⊥ := by
            by_contra hsome
            rcases WithBot.ne_bot_iff_exists.mp hsome with ⟨strongest, hstrongest⟩
            rcases (hroles row.userId strongest).mpr hstrongest.symm with ⟨entry, hentry, hid, -⟩
            exact hunknown entry hentry hid
          rw [if_pos rfl, hnone, max_eq_right bot_le, WithBot.coe_inj]
          constructor
          · rintro ⟨entry, hentry, hid, rfl⟩
            rcases List.mem_append.mp hentry with hold | hnew
            · exact absurd hid (hunknown entry hold)
            · rcases List.mem_singleton.mp hnew with rfl
              rfl
          · rintro rfl
            exact ⟨row.entry, List.mem_append_right _ (List.mem_singleton_self _), rfl, rfl⟩
        · rw [if_neg huser, ← hroles]
          constructor
          · rintro ⟨entry, hentry, hid, hrole⟩
            rcases List.mem_append.mp hentry with hold | hnew
            · exact ⟨entry, hold, hid, hrole⟩
            · rcases List.mem_singleton.mp hnew with rfl
              exact absurd hid huser
          · rintro ⟨entry, hentry, hid, hrole⟩
            exact ⟨entry, List.mem_append_left _ hentry, hid, hrole⟩

theorem mem_directAccessUsers {projectId : Uuid} {row : AccessUserRow} :
    row ∈ directAccessUsers tables projectId ↔
      ∃ grant ∈ tables.projectRoles, grant.projectId = projectId
        ∧ ∃ user ∈ tables.users, user.id = grant.userId
          ∧ row = ⟨user.id, user.email, user.displayName, grant.role,
              grant.source.accessSource⟩ := by
  simp only [directAccessUsers, List.mem_flatMap, List.mem_map, List.mem_filter,
    decide_eq_true_eq]
  constructor
  · rintro ⟨grant, ⟨hgrant, hproject⟩, user, ⟨huser, hid⟩, rfl⟩
    exact ⟨grant, hgrant, hproject, user, huser, hid, rfl⟩
  · rintro ⟨grant, hgrant, hproject, user, huser, hid, rfl⟩
    exact ⟨grant, ⟨hgrant, hproject⟩, user, ⟨huser, hid⟩, rfl⟩

theorem mem_organizationAccessUsers {projectId : Uuid} {row : AccessUserRow} :
    row ∈ organizationAccessUsers tables projectId ↔
      ∃ access ∈ tables.projectOrganizationAccess, access.projectId = projectId
        ∧ ∃ organization ∈ tables.organizations, organization.id = access.organizationId
        ∧ ∃ membership ∈ tables.organizationMemberships,
            membership.organizationId = access.organizationId
        ∧ ∃ user ∈ tables.users, user.id = membership.userId
          ∧ row = ⟨user.id, user.email, user.displayName, access.permission.projectRole,
              .organization organization.name⟩ := by
  simp only [organizationAccessUsers, List.mem_dedup, List.mem_flatMap, List.mem_map,
    List.mem_filter, decide_eq_true_eq]
  constructor
  · rintro ⟨access, ⟨haccess, hproject⟩, organization, ⟨horganization, horganizationid⟩,
      membership, ⟨hmembership, hmember⟩, user, ⟨huser, hid⟩, rfl⟩
    exact ⟨access, haccess, hproject, organization, horganization, horganizationid, membership,
      hmembership, hmember, user, huser, hid, rfl⟩
  · rintro ⟨access, haccess, hproject, organization, horganization, horganizationid, membership,
      hmembership, hmember, user, huser, hid, rfl⟩
    exact ⟨access, ⟨haccess, hproject⟩, organization, ⟨horganization, horganizationid⟩,
      membership, ⟨hmembership, hmember⟩, user, ⟨huser, hid⟩, rfl⟩

/-- The rows that are merged for a user carry the roles of his direct and organization grants. -/
theorem mem_accessUserRoles (hconstrained : tables.Constrained)
    :
    (∃ row ∈ directAccessUsers tables projectId ++ organizationAccessUsers tables projectId,
        row.userId = userId ∧ row.role = role) ↔
      role ∈ directRoles tables userId projectId ++ organizationRoles tables userId projectId := by
  constructor
  · rintro ⟨row, hrow, huserid, hrole⟩
    rcases List.mem_append.mp hrow with hdirect | horganization
    · rcases mem_directAccessUsers.mp hdirect with ⟨grant, hgrant, hproject, user, -, hid, rfl⟩
      apply List.mem_append_left
      exact mem_directRoles.mpr ⟨grant, hgrant, hproject, hid.symm.trans huserid, hrole⟩
    rcases mem_organizationAccessUsers.mp horganization with ⟨access, haccess, hproject,
      organization, -, -, membership, hmembership, hmember, user, -, hid, rfl⟩
    apply List.mem_append_right
    refine mem_organizationRoles.mpr ⟨access, ?_, hproject, hrole⟩
    exact mem_userOrganizationAccess.mpr
      ⟨haccess, membership, hmembership, hmember, hid.symm.trans huserid⟩
  · intro hrole
    rcases List.mem_append.mp hrole with hdirect | horganization
    · rcases mem_directRoles.mp hdirect with ⟨grant, hgrant, hproject, huserid, hgranted⟩
      rcases hconstrained.roleUser grant hgrant with ⟨user, huser, hid⟩
      refine ⟨_, List.mem_append_left _ (mem_directAccessUsers.mpr
        ⟨grant, hgrant, hproject, user, huser, hid, rfl⟩), hid.trans huserid, hgranted⟩
    · rcases mem_organizationRoles.mp horganization with ⟨access, hjoined, hproject, hgranted⟩
      rcases mem_userOrganizationAccess.mp hjoined with ⟨haccess, membership, hmembership,
        hmember, huserid⟩
      rcases hconstrained.accessOrganization access haccess with
        ⟨organization, horganization, horganizationid⟩
      rcases hconstrained.membershipUser membership hmembership with ⟨user, huser, hid⟩
      refine ⟨_, List.mem_append_right _ (mem_organizationAccessUsers.mpr
        ⟨access, haccess, hproject, organization, horganization, horganizationid, membership,
          hmembership, hmember, user, huser, hid, rfl⟩), hid.trans huserid, hgranted⟩

theorem mergedRole_accessUsers (hconstrained : tables.Constrained) (userId projectId : Uuid) :
    mergedRole (directAccessUsers tables projectId ++ organizationAccessUsers tables projectId)
        userId
      = (directRoles tables userId projectId
          ++ organizationRoles tables userId projectId).maximum := by
  have hmem : ∀ role, role ∈ ((directAccessUsers tables projectId
        ++ organizationAccessUsers tables projectId).filter (·.userId = userId)).map (·.role) ↔
      role ∈ directRoles tables userId projectId ++ organizationRoles tables userId projectId := by
    intro role
    rw [← mem_accessUserRoles hconstrained]
    simp only [List.mem_map, List.mem_filter, decide_eq_true_eq, and_assoc]
  apply maximum_eq_of_bounded
  · intro role hrole
    exact ⟨role, (hmem role).mp hrole, le_rfl⟩
  · intro role hrole
    exact ⟨role, (hmem role).mpr hrole, le_rfl⟩

/-- The user list has one entry for each user with a direct or an organization grant, with the
strongest of these. -/
theorem mem_listProjectAccessUsers (toLowercase : Text → Text)
    (hconstrained : tables.Constrained) (projectId : Uuid) :
    ((listProjectAccessUsers toLowercase tables projectId).map (·.userId)).Nodup ∧
      ∀ (userId : Uuid) (role : ProjectRole),
        (∃ entry ∈ listProjectAccessUsers toLowercase tables projectId,
            entry.userId = userId ∧ entry.role = role) ↔
          (directRoles tables userId projectId
            ++ organizationRoles tables userId projectId).maximum = role := by
  rcases foldl_mergeAccessUser
    (directAccessUsers tables projectId ++ organizationAccessUsers tables projectId)
    with ⟨hkeys, hroles⟩
  constructor
  · rw [listProjectAccessUsers, ((orderBy_perm _ _).map _).nodup_iff, List.map_map]
    exact hkeys
  · intro userId role
    rw [← mergedRole_accessUsers hconstrained, ← hroles]
    simp only [listProjectAccessUsers, mem_orderBy, List.mem_map]
    constructor
    · rintro ⟨-, ⟨user, huser, rfl⟩, hid, hrole⟩
      exact ⟨user, huser, hid, hrole⟩
    · rintro ⟨user, huser, hid, hrole⟩
      exact ⟨_, ⟨user, huser, rfl⟩, hid, hrole⟩

/-! ## Effective access is the strongest source -/

/-- Authorization, the catalog and the user list give a user the strongest role that any
source gives him in a project. -/
structure AccessIsStrongest (ilike : Text → Text → Bool) (toLowercase : Text → Text)
    (tables : AccessTables) (userId projectId : Uuid) : Prop where
  authorization : ∀ need : AccessNeed,
    ensureProjectRoleForUser tables userId projectId need = .ok () ↔
      ∃ role : ProjectRole, strongestAccess tables userId projectId = role
        ∧ need.allowsRole role = true
  catalog : ∀ role : ProjectRole, strongestAccess tables userId projectId = role →
    ∃ project ∈ tables.projects, project.id = projectId ∧
      ∀ (includeArchived : Bool) (search : Option Text), ∃ entries,
        listProjects ilike tables userId includeArchived search = .ok entries
          ∧ (IsRequested ilike tables userId includeArchived search project →
              ∃ entry ∈ entries, entry.id = projectId)
          ∧ ∀ entry ∈ entries, entry.id = projectId → entry.myRole = role ∧ entry.canRead = true
  catalogAccess : projectUserHasCatalogAccess tables userId projectId false = true ↔
    strongestAccess tables userId projectId ≠ ⊥
  usersNodup : ((listProjectAccessUsers toLowercase tables projectId).map (·.userId)).Nodup
  users : ∀ role : ProjectRole,
    (∃ entry ∈ listProjectAccessUsers toLowercase tables projectId,
        entry.userId = userId ∧ entry.role = role) ↔
      strongestAccess tables userId projectId = role

/-- No role that the project gives to a group of the user exceeds all his other roles. -/
def GroupRolesBounded (tables : AccessTables) (userId projectId : Uuid) : Prop :=
  ∀ role ∈ groupRoles tables userId projectId,
    ∃ other ∈ directRoles tables userId projectId ++ organizationRoles tables userId projectId,
      role ≤ other

theorem strongestAccess_eq_iff :
    strongestAccess tables userId projectId
        = (directRoles tables userId projectId
            ++ organizationRoles tables userId projectId).maximum ↔
      GroupRolesBounded tables userId projectId :=
  maximum_append_eq_left_iff

/-- A project in which the user has a role exists and is listed with his strongest one. -/
theorem catalog_of_maximum (ilike : Text → Text → Bool) (hconstrained : tables.Constrained)
    (hrole : (directRoles tables userId projectId
      ++ organizationRoles tables userId projectId).maximum = role) :
    ∃ project ∈ tables.projects, project.id = projectId ∧
      ∀ (includeArchived : Bool) (search : Option Text), ∃ entries,
        listProjects ilike tables userId includeArchived search = .ok entries
          ∧ (IsRequested ilike tables userId includeArchived search project →
              ∃ entry ∈ entries, entry.id = projectId)
          ∧ ∀ entry ∈ entries, entry.id = projectId →
              entry.myRole = role ∧ entry.canRead = true := by
  have hmem := List.maximum_mem hrole
  have hknown := (strongest_roles hconstrained userId projectId).trans hrole
  have hproject : ∃ project ∈ tables.projects, project.id = projectId := by
    rcases List.mem_append.mp hmem with hdirect | horganization
    · rcases mem_directRoles.mp hdirect with ⟨row, hrow, hproject, -⟩
      exact hproject ▸ hconstrained.roleProject row hrow
    · rcases mem_organizationRoles.mp horganization with ⟨row, hrow, hproject, -⟩
      exact hproject ▸ hconstrained.accessProject row (mem_userOrganizationAccess.mp hrow).1
  -- every catalog access for the project can read and has the role
  have haccess : ∀ access ∈ listProjectCatalogAccess tables userId,
      access.projectId = projectId → access.effectiveRole = role ∧ access.canRead = true := by
    intro access haccess hid
    have hread : access.canRead = true := by
      rw [canRead_iff haccess, hid, hknown]
      exact WithBot.coe_ne_bot
    have heffective := effectiveRole_eq hread
    rw [(mem_listProjectCatalogAccess haccess).1, (mem_listProjectCatalogAccess haccess).2, hid]
      at heffective
    exact ⟨WithBot.coe_inj.mp (heffective.symm.trans hknown), hread⟩
  rcases hproject with ⟨project, hproject, hid⟩
  refine ⟨project, hproject, hid, ?_⟩
  intro includeArchived search
  rcases listProjects_ok ilike tables userId includeArchived search with
    ⟨entries, hentries, hlisted⟩
  refine ⟨entries, hentries, ?_, ?_⟩
  · intro hrequested
    rcases find?_catalogAccess (mem_visibleProjects hmem) with ⟨access, hrecord, haccessid, hfound⟩
    have hpermits : access.permitsCatalogEntry project.isTemplate = true := by
      rw [ProjectCatalogAccess.permitsCatalogEntry, (haccess access hrecord haccessid).2]
      rfl
    refine ⟨projectFromRecord project access, (hlisted _).mpr ⟨project, hproject, access, hrecord,
      haccessid.trans hid.symm, ?_, hrequested, hpermits, rfl⟩, hid⟩
    rw [hid]
    exact hfound
  · intro entry hentry hentryid
    rcases (hlisted entry).mp hentry with ⟨other, -, access, hrecord, haccessid, -, -, -, rfl⟩
    exact haccess access hrecord (haccessid.trans hentryid)

/-- Effective access is the strongest of all sources, the same everywhere, just where no group
role of the project exceeds the direct role and the organization grants. -/
theorem access_is_strongest_iff (ilike : Text → Text → Bool) (toLowercase : Text → Text)
    (database : AccessDatabase) (userId projectId : Uuid) :
    AccessIsStrongest ilike toLowercase database.tables userId projectId ↔
      GroupRolesBounded database.tables userId projectId := by
  rcases database with ⟨tables, hconstrained⟩
  rw [← strongestAccess_eq_iff]
  constructor
  · intro haccess
    -- the needs that authorization allows tell the role it knows
    rw [← strongest_roles hconstrained]
    apply eq_of_allows_same
    intro need
    rw [← ensureProjectRoleForUser_eq_ok]
    exact (haccess.authorization need).symm
  · intro hstrongest
    rcases mem_listProjectAccessUsers toLowercase hconstrained projectId with ⟨hnodup, hlisted⟩
    constructor
    · intro need
      rw [ensureProjectRoleForUser_eq_ok, hstrongest, strongest_roles hconstrained]
    · intro role hrole
      exact catalog_of_maximum ilike hconstrained (hstrongest.symm.trans hrole)
    · rw [projectUserHasCatalogAccess_iff, hstrongest]
    · exact hnodup
    · intro role
      rw [hstrongest]
      exact hlisted userId role

/-- A user whose only grant is the role of one of his groups. -/
def groupMember : AccessTables where
  users := [⟨1, ['m'], ['M']⟩]
  organizations := []
  projects := [⟨2, ['p'], false, 0⟩]
  projectRoles := []
  projectOrganizationAccess := []
  organizationMemberships := []
  projectGroupRoles := [⟨2, ['d', 'o', 'c', 's'], .readWrite⟩]
  userOidcGroups := [⟨1, ['d', 'o', 'c', 's']⟩]
  organizationGroupMappings := []
  projectTemplateOrganizationAccess := []
  projectUserArchives := []
  projectShareLinks := []
  anonymousShareSessions := []

theorem groupMember_constrained : groupMember.Constrained := by
  constructor <;> simp [groupMember]

/-- A group role opens the project to nobody. -/
theorem group_role_gives_no_access :
    ¬∀ (ilike : Text → Text → Bool) (toLowercase : Text → Text) (database : AccessDatabase)
      (userId projectId : Uuid),
      AccessIsStrongest ilike toLowercase database.tables userId projectId := by
  intro hall
  have haccess := hall (fun _ _ => true) id ⟨groupMember, groupMember_constrained⟩ 1 2
  have hallowed := (haccess.authorization .read).mpr ⟨.readWrite, by decide, by decide⟩
  revert hallowed
  decide

end Toss.Access
