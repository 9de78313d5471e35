import Toss.Access.AccessTransactions

/-!
# The access epoch follows effective access

Every transaction that writes a grant of a project advances the epoch of that project. A group
synchronization changes memberships, and advances the projects it selected for them; a grant
that commits after the selection is not among these.

* `projectUserAccess_applyAll` — what the effective access of a user depends on;
* `accessEpochOf_applyAll` — the epochs a transaction advances;
* `Accounted` — a grant is written together with an advance of its project;
* `epoch_advances_with_access` — while no grant slips in between the selection and the commit
  of a synchronization, every change of access advances the epoch.
-/

namespace Toss.Access

open Toss.Foundation

/-! ## What writes change -/

/-- The committed epoch of a project. -/
def accessEpochOf (tables : AccessTables) (projectId : Uuid) : Option Int :=
  (tables.projects.find? (·.id = projectId)).map (·.accessEpoch)

/-- Organization and user of each membership. -/
def memberKeys (tables : AccessTables) : List (Uuid × Uuid) :=
  tables.organizationMemberships.map fun membership =>
    (membership.organizationId, membership.userId)

/-- The grants of a project to organizations. -/
def organizationGrants (tables : AccessTables) (projectId : Uuid) :
    List ProjectOrganizationAccessRow :=
  tables.projectOrganizationAccess.filter (·.projectId = projectId)

variable {user : Uuid}

namespace AccessWrite

/-- The write sets or removes a grant of the project. -/
def grantsIn (projectId : Uuid) : AccessWrite → Bool
  | .setRole row => row.projectId = projectId
  | .setOrganizationAccess row => row.projectId = projectId
  | .removeOrganizationAccess project _ => project = projectId
  | _ => false

/-- The write is of the membership. -/
def touches (organizationId userId : Uuid) : AccessWrite → Bool
  | .setMembership row => row.organizationId = organizationId && row.userId = userId
  | .removeMembership organization user => organization = organizationId && user = userId
  | _ => false

def advances (projectId : Uuid) : AccessWrite → Bool
  | .advanceEpochs projectIds => projectIds.contains projectId
  | _ => false

/-- The write makes or removes a membership. -/
def changesMembership (tables : AccessTables) (organizationId userId : Uuid) :
    AccessWrite → Bool
  | .setMembership row => row.organizationId = organizationId && row.userId = userId
      && !(memberKeys tables).contains (organizationId, userId)
  | .removeMembership organization user => organization = organizationId && user = userId
      && (memberKeys tables).contains (organizationId, userId)
  | _ => false

variable {organizationId userId : Uuid}

theorem touches_setMembership {row : OrganizationMembershipRow}
    (h : (setMembership row).touches organizationId userId = true) :
    organizationId = row.organizationId ∧ userId = row.userId := by
  rcases Bool.and_eq_true_iff.mp h with ⟨horganization, huser⟩
  exact ⟨(of_decide_eq_true horganization).symm, (of_decide_eq_true huser).symm⟩

theorem touches_removeMembership {organization organizationId userId : Uuid}
    (h : (removeMembership organization user).touches organizationId userId = true) :
    organizationId = organization ∧ userId = user := by
  rcases Bool.and_eq_true_iff.mp h with ⟨horganization, huser⟩
  exact ⟨(of_decide_eq_true horganization).symm, (of_decide_eq_true huser).symm⟩

variable {write : AccessWrite}

theorem touches_of_changesMembership {tables : AccessTables}
    (h : write.changesMembership tables organizationId userId = true) :
    write.touches organizationId userId = true := by
  cases write <;> first | exact (Bool.and_eq_true_iff.mp h).1 | cases h

theorem directRole_apply {projectId : Uuid}
    (hgrants : write.grantsIn projectId = false) (tables : AccessTables) (userId : Uuid) :
    directRole (write.apply tables) userId projectId = directRole tables userId projectId := by
  cases write
  case setRole row =>
    have hother : row.projectId ≠ projectId := of_decide_eq_false hgrants
    simp only [directRole, apply]
    rw [find?_upsertRow_of_not]
    intro other hkey
    simp only [Prod.mk.injEq] at hkey
    simp [hkey.1, hother]
  all_goals rfl

theorem organizationGrants_apply {projectId : Uuid}
    (hgrants : write.grantsIn projectId = false) (tables : AccessTables) :
    organizationGrants (write.apply tables) projectId = organizationGrants tables projectId := by
  cases write
  case setOrganizationAccess row =>
    have hother : row.projectId ≠ projectId := of_decide_eq_false hgrants
    simp only [organizationGrants, apply, upsertRow]
    split
    · apply filter_updateWhere_of_not
      intro other _ hkey
      simp only [decide_eq_true_eq, Prod.mk.injEq] at hkey
      simp [hkey.1, hother]
    · simp [List.filter_append, hother]
  case removeOrganizationAccess project organization =>
    have hother : project ≠ projectId := of_decide_eq_false hgrants
    simp only [organizationGrants, apply, List.filter_filter]
    apply List.filter_congr
    intro access _
    by_cases hproject : access.projectId = projectId
    · simp [hproject, Ne.symm hother]
    · simp [hproject]
  all_goals rfl

/-- A write that neither makes nor removes a membership leaves its rows as many as they were. -/
theorem memberKeys_apply {tables : AccessTables}
    (hchanges : write.changesMembership tables organizationId userId = false) :
    (memberKeys (write.apply tables)).filter (· = (organizationId, userId))
      = (memberKeys tables).filter (· = (organizationId, userId)) := by
  cases write
  case setMembership row =>
    simp only [memberKeys, apply, upsertRow]
    split
    · next hknown =>
      rw [map_updateWhere]
      intro other hkey
      exact (of_decide_eq_true hkey).symm
    · next hunknown =>
      have hother : (row.organizationId, row.userId) ≠ (organizationId, userId) := by
        intro hkey
        simp only [Prod.mk.injEq] at hkey
        simp only [changesMembership, hkey.1, hkey.2, decide_true, Bool.true_and,
          Bool.not_eq_false', List.contains_iff_mem, memberKeys, List.mem_map] at hchanges
        rcases hchanges with ⟨known, hmem, hsame⟩
        exact hunknown (List.any_eq_true.mpr
          ⟨known, hmem, decide_eq_true (hsame.trans (by rw [hkey.1, hkey.2]))⟩)
      simp [List.filter_append, hother]
  case removeMembership organization user =>
    simp only [memberKeys, apply, List.filter_map, List.filter_filter]
    congr 1
    apply List.filter_congr
    intro membership hmembership
    simp only [changesMembership, memberKeys] at hchanges
    by_cases hkey : (membership.organizationId, membership.userId) = (organizationId, userId)
    · have hmember : ((tables.organizationMemberships.map fun membership =>
          (membership.organizationId, membership.userId)).contains
            (organizationId, userId)) = true := by
        rw [List.contains_iff_mem, ← hkey]
        exact List.mem_map_of_mem hmembership
      rw [hmember, Bool.and_true] at hchanges
      simp only [Prod.mk.injEq] at hkey
      have hother : ¬(organizationId = organization ∧ userId = user) := by
        rintro ⟨rfl, rfl⟩
        simp at hchanges
      simp [Function.comp_apply, hkey.1, hkey.2, hother]
    · simp [Function.comp_apply, hkey]
  all_goals rfl

/-- Projects are neither made nor removed. -/
theorem map_projectId_apply (write : AccessWrite) (tables : AccessTables) :
    (write.apply tables).projects.map (·.id) = tables.projects.map (·.id) := by
  cases write
  case advanceEpochs projectIds => exact map_updateWhere (by intro project _; rfl) tables.projects
  case setTemplate project isTemplate =>
    exact map_updateWhere (by intro project _; rfl) tables.projects
  all_goals rfl

theorem accessEpochOf_apply (write : AccessWrite) (tables : AccessTables) (projectId : Uuid) :
    accessEpochOf (write.apply tables) projectId
      = (accessEpochOf tables projectId).map
          (· + if write.advances projectId then 1 else 0) := by
  cases write
  case advanceEpochs projectIds =>
    simp only [accessEpochOf, apply]
    rw [find?_updateWhere (by intro project; rfl)]
    cases hfound : tables.projects.find? (·.id = projectId) with
    | none => rfl
    | some project =>
      have hid := List.find?_some hfound
      simp only [decide_eq_true_eq] at hid
      simp only [Option.map_some, hid, Option.some.injEq]
      by_cases hadvances : projectIds.contains projectId = true
      · have hwrite : (advanceEpochs projectIds).advances projectId = true := hadvances
        rw [if_pos hadvances, if_pos hwrite]
      · have hwrite : ¬(advanceEpochs projectIds).advances projectId = true := hadvances
        rw [if_neg hadvances, if_neg hwrite, Int.add_zero]
  case setTemplate project isTemplate =>
    simp only [accessEpochOf, apply]
    rw [find?_updateWhere (by intro project; rfl)]
    cases tables.projects.find? (·.id = projectId) with
    | none => rfl
    | some project =>
      simp only [Option.map_some, advances, Bool.false_eq_true, if_false, Int.add_zero,
        Option.some.injEq]
      split <;> rfl
  all_goals
    simp only [advances, Bool.false_eq_true, if_false, Int.add_zero]
    exact Option.map_id'.symm

end AccessWrite

/-! ## What effective access depends on -/

/-- The organization grants that reach a user, from those of the project and the memberships in
the organizations granted. -/
theorem filter_userOrganizationAccess (tables : AccessTables) (userId projectId : Uuid) :
    (userOrganizationAccess tables userId).filter (·.projectId = projectId)
      = (organizationGrants tables projectId).flatMap fun access =>
          ((memberKeys tables).filter (· = (access.organizationId, userId))).map fun _ => access := by
  have hmembers : ∀ access : ProjectOrganizationAccessRow,
      ((tables.organizationMemberships.filter fun membership =>
          membership.organizationId = access.organizationId ∧ membership.userId = userId).map
        fun _ => access)
      = ((memberKeys tables).filter (· = (access.organizationId, userId))).map fun _ => access := by
    intro access
    simp only [memberKeys, List.filter_map, List.map_map]
    congr 1
    apply List.filter_congr
    intro membership _
    simp
  simp only [userOrganizationAccess, organizationGrants, hmembers]
  induction tables.projectOrganizationAccess with
  | nil => rfl
  | cons access rows ih =>
    rw [List.flatMap_cons, List.filter_append, ih, List.filter_cons]
    by_cases hproject : access.projectId = projectId
    · have hall : (((memberKeys tables).filter (· = (access.organizationId, userId))).map
          fun _ => access).filter (·.projectId = projectId)
          = ((memberKeys tables).filter (· = (access.organizationId, userId))).map
              fun _ => access := by
        apply List.filter_eq_self.mpr
        intro row hrow
        rcases List.mem_map.mp hrow with ⟨key, -, rfl⟩
        exact decide_eq_true hproject
      rw [hall, if_pos (decide_eq_true hproject), List.flatMap_cons]
    · have hnone : (((memberKeys tables).filter (· = (access.organizationId, userId))).map
          fun _ => access).filter (·.projectId = projectId) = [] := by
        apply List.filter_eq_nil_iff.mpr
        intro row hrow
        rcases List.mem_map.mp hrow with ⟨key, -, rfl⟩
        simp [hproject]
      rw [hnone, List.nil_append, if_neg (by simp [hproject])]

theorem projectUserAccess_eq {tables tables' : AccessTables} {userId projectId : Uuid}
    (hdirect : directRole tables' userId projectId = directRole tables userId projectId)
    (hgrants : organizationGrants tables' projectId = organizationGrants tables projectId)
    (hmembers : ∀ access ∈ organizationGrants tables projectId,
      (memberKeys tables').filter (· = (access.organizationId, userId))
        = (memberKeys tables).filter (· = (access.organizationId, userId))) :
    projectUserAccess tables' userId projectId = projectUserAccess tables userId projectId := by
  have hjoined : (userOrganizationAccess tables' userId).filter (·.projectId = projectId)
      = (userOrganizationAccess tables userId).filter (·.projectId = projectId) := by
    rw [filter_userOrganizationAccess, filter_userOrganizationAccess, hgrants]
    apply List.flatMap_congr
    intro access haccess
    rw [hmembers access haccess]
  simp only [projectUserAccess, organizationPermission, hdirect, hjoined]

/-! ## What transactions change -/

variable {tables : AccessTables} {projectId : Uuid} {writes : List AccessWrite}

theorem projectExists_iff :
    AccessStep.projectExists tables projectId = true ↔
      projectId ∈ tables.projects.map (·.id) := by
  simp [AccessStep.projectExists]

theorem projectExists_applyAll (writes : List AccessWrite) (tables : AccessTables)
    (projectId : Uuid) :
    AccessStep.projectExists (accessTransactions.applyAll writes tables) projectId
      = AccessStep.projectExists tables projectId := by
  have hids : (accessTransactions.applyAll writes tables).projects.map (·.id)
      = tables.projects.map (·.id) :=
    TransactionSystem.applyAll_same (fun tables : AccessTables => tables.projects.map (·.id))
      fun write _ tables => AccessWrite.map_projectId_apply write tables
  rw [Bool.eq_iff_iff, projectExists_iff, projectExists_iff, hids]

theorem contains_memberKeys {organizationId userId : Uuid} :
    (memberKeys tables).contains (organizationId, userId) = true ↔
      (organizationId, userId) ∈ (memberKeys tables).filter (· = (organizationId, userId)) := by
  simp

/-- A membership that no write makes or removes stays what the first write found. -/
theorem filter_memberKeys_applyAll {organizationId userId : Uuid}
    (h : ∀ write ∈ writes, write.changesMembership tables organizationId userId = false) :
    (memberKeys (accessTransactions.applyAll writes tables)).filter (· = (organizationId, userId))
      = (memberKeys tables).filter (· = (organizationId, userId)) := by
  refine TransactionSystem.applyAll_of_apply
    (fun other => (memberKeys other).filter (· = (organizationId, userId))
      = (memberKeys tables).filter (· = (organizationId, userId))) ?_ rfl
  intro write hwrite other hother
  have hsame : (memberKeys other).contains (organizationId, userId)
      = (memberKeys tables).contains (organizationId, userId) := by
    rw [Bool.eq_iff_iff, contains_memberKeys, contains_memberKeys, hother]
  have hchanges : write.changesMembership other organizationId userId = false := by
    have hnot := h write hwrite
    unfold AccessWrite.changesMembership at hnot ⊢
    rw [hsame]
    exact hnot
  exact (AccessWrite.memberKeys_apply hchanges).trans hother

/-- A transaction that writes no grant of a project, and changes no membership in an
organization with a grant of it, leaves the access to the project alone. -/
theorem projectUserAccess_applyAll {userId projectId : Uuid}
    (hgrants : ∀ write ∈ writes, write.grantsIn projectId = false)
    (hmembers : ∀ access ∈ organizationGrants tables projectId, ∀ write ∈ writes,
      write.changesMembership tables access.organizationId userId = false) :
    projectUserAccess (accessTransactions.applyAll writes tables) userId projectId
      = projectUserAccess tables userId projectId := by
  apply projectUserAccess_eq
  · exact TransactionSystem.applyAll_same
      (fun tables => directRole tables userId projectId)
      fun write hwrite tables =>
        AccessWrite.directRole_apply (hgrants write hwrite) tables userId
  · exact TransactionSystem.applyAll_same
      (fun tables => organizationGrants tables projectId)
      fun write hwrite tables =>
        AccessWrite.organizationGrants_apply (hgrants write hwrite) tables
  · exact fun access haccess => filter_memberKeys_applyAll (hmembers access haccess)

theorem accessEpochOf_applyAll (writes : List AccessWrite) (tables : AccessTables)
    (projectId : Uuid) :
    accessEpochOf (accessTransactions.applyAll writes tables) projectId
      = (accessEpochOf tables projectId).map
          (· + ((writes.countP fun write => write.advances projectId : Nat) : Int)) := by
  induction writes generalizing tables with
  | nil => simp [TransactionSystem.applyAll]
  | cons write writes ih =>
    have hcons : accessTransactions.applyAll (write :: writes) tables
        = accessTransactions.applyAll writes (write.apply tables) := rfl
    rw [hcons, ih, write.accessEpochOf_apply, Option.map_map, List.countP_cons]
    congr 1
    funext epoch
    simp only [Function.comp_apply]
    split <;> omega

/-! ## Grants are written with an advance -/

/-- The foreign key of organization grants. -/
def GrantedProjectsExist (tables : AccessTables) : Prop :=
  ∀ access ∈ tables.projectOrganizationAccess,
    AccessStep.projectExists tables access.projectId = true

variable {choice : Uuid} {upserts : List (Uuid × OrganizationRole)} {changed removals : List Uuid}
  {locks : List (Lock AccessKey)} {next step : AccessStep}

namespace AccessStep

/-- A membership change writes the membership it has locked, or nothing. -/
theorem changeMembershipOf_done {tables : AccessTables} {userId organizationId : Uuid}
    {writes : List AccessWrite}
    (h : changeMembershipOf tables userId organizationId upserts removals changed
      = .done locks writes next) :
    (∃ upserts removals, next = nextChange userId upserts removals (changed ++ [organizationId]))
      ∧ ∀ write ∈ writes, exclusive (.membership organizationId userId) ∈ locks
        ∧ ((∃ role, write = .setMembership ⟨organizationId, userId, role⟩)
          ∨ write = .removeMembership organizationId userId) := by
  have hone : ∀ {write new : AccessWrite}, new ∈ [write] → new = write := List.mem_singleton.mp
  simp only [changeMembershipOf] at h
  split at h
  · split at h
    · cases h
      exact ⟨⟨_, _, rfl⟩, fun _ hwrite => ⟨List.mem_singleton_self _, .inl ⟨_, hone hwrite⟩⟩⟩
    · cases h
  · split at h
    · split at h
      · cases h
        exact ⟨⟨_, _, rfl⟩, fun _ hwrite => ⟨List.mem_singleton_self _, .inr (hone hwrite)⟩⟩
      · cases h
        exact ⟨⟨_, _, rfl⟩, fun _ hwrite => absurd hwrite List.not_mem_nil⟩
    · cases h

theorem changeMembershipOf_touches {tables : AccessTables} {userId : Uuid}
    {writes : List AccessWrite}
    (h : changeMembershipOf tables userId choice upserts removals changed
      = .done locks writes next) {write : AccessWrite} (hwrite : write ∈ writes)
    {organizationId : Uuid} (htouches : write.touches organizationId user = true) :
    organizationId = choice ∧ exclusive (.membership organizationId user) ∈ locks := by
  rcases (changeMembershipOf_done h).2 write hwrite with ⟨hlock, ⟨role, rfl⟩ | rfl⟩
  · rcases AccessWrite.touches_setMembership htouches with ⟨rfl, rfl⟩
    exact ⟨rfl, hlock⟩
  · rcases AccessWrite.touches_removeMembership htouches with ⟨rfl, rfl⟩
    exact ⟨rfl, hlock⟩

/-- A statement that writes a grant goes on to advance the epoch of its project. -/
theorem next_of_grantsIn {tables : AccessTables} {writes : List AccessWrite}
    (hforeign : GrantedProjectsExist tables)
    (h : execute tables choice step = .done locks writes next) {write : AccessWrite}
    (hwrite : write ∈ writes) {projectId : Uuid} (hgrants : write.grantsIn projectId = true) :
    projectExists tables projectId = true ∧ next = .lockAccess projectId := by
  cases step
  case upsertRole | upsertOrganizationAccess =>
    simp only [execute] at h
    split at h
    · next hexists =>
      cases h
      rcases List.mem_singleton.mp hwrite with rfl
      rcases of_decide_eq_true hgrants with rfl
      exact ⟨(Bool.and_eq_true_iff.mp hexists).1, rfl⟩
    · cases h
  case grantShareLinkRole project userId role =>
    simp only [execute] at h
    split at h
    · next hexists =>
      cases h
      rcases List.mem_singleton.mp hwrite with rfl
      have hrow : (roleAtLeast project userId role (tables.projectRoles.find? fun row =>
          row.projectId = project ∧ row.userId = userId)).projectId = project := by
        cases hfound : tables.projectRoles.find? fun row =>
            row.projectId = project ∧ row.userId = userId with
        | none => rfl
        | some row =>
          have hmatches := List.find?_some hfound
          simp only [decide_eq_true_eq] at hmatches
          exact hmatches.1
      rcases hrow.symm.trans (of_decide_eq_true hgrants) with rfl
      exact ⟨(Bool.and_eq_true_iff.mp hexists).1, rfl⟩
    · cases h
  case deleteOrganizationAccess project organization =>
    simp only [execute] at h
    split at h
    · next hexists =>
      cases h
      rcases List.mem_singleton.mp hwrite with rfl
      rcases of_decide_eq_true hgrants with rfl
      rcases List.any_eq_true.mp hexists with ⟨access, haccess, hmatches⟩
      simp only [decide_eq_true_eq] at hmatches
      exact ⟨hmatches.1 ▸ hforeign access haccess, rfl⟩
    · cases h
  case changeMembership userId upserts removals changed =>
    rcases ((changeMembershipOf_done h).2 write hwrite).2 with ⟨role, rfl⟩ | rfl <;> cases hgrants
  case lockProjects remaining selected =>
    cases remaining <;>
    · simp only [execute, Outcome.done.injEq] at h
      rw [← h.2.1] at hwrite
      exact absurd hwrite List.not_mem_nil
  -- no other statement writes a grant
  all_goals
    simp only [execute, fail] at h
    repeat' split at h
  all_goals cases h
  all_goals first
    | exact absurd hwrite List.not_mem_nil
    | rcases List.mem_singleton.mp hwrite with rfl
      cases hgrants

end AccessStep

/-! ## Memberships are written with the projects they concern -/

/-- No write is of a membership. -/
def NoneTouches (writes : List AccessWrite) : Prop :=
  ∀ write ∈ writes, ∀ organizationId userId, write.touches organizationId userId = false

/-- Every project with a grant for an organization in which the writes make or remove a
membership is one of the given. -/
def CoveredBy (tables : AccessTables) (writes : List AccessWrite) (covered : Uuid → Prop) : Prop :=
  ∀ write ∈ writes, ∀ organizationId userId,
    write.changesMembership tables organizationId userId = true →
    ∀ access ∈ tables.projectOrganizationAccess, access.organizationId = organizationId →
      covered access.projectId

theorem NoneTouches.coveredBy (h : NoneTouches writes)
    (tables : AccessTables) (covered : Uuid → Prop) : CoveredBy tables writes covered := by
  intro write hwrite organizationId userId hchanges
  have htouches := AccessWrite.touches_of_changesMembership hchanges
  rw [h write hwrite] at htouches
  cases htouches

theorem NoneTouches.append {writes new : List AccessWrite} (h : NoneTouches writes)
    (hnew : NoneTouches new) : NoneTouches (writes ++ new) := by
  intro write hwrite
  rcases List.mem_append.mp hwrite with hold | hlater
  · exact h write hold
  · exact hnew write hlater

theorem NoneTouches.nil : NoneTouches [] := fun _ hwrite => absurd hwrite List.not_mem_nil

variable {access : ProjectOrganizationAccessRow}

namespace AccessStep

/-- What the writes of a transaction have to do with the place it has come to. -/
def Accounts (tables : AccessTables) (writes : List AccessWrite) : AccessStep → Prop
  | .changeMembership _ _ _ changed | .selectProjects changed =>
    ∀ write ∈ writes, ∀ organizationId userId,
      write.touches organizationId userId = true → organizationId ∈ changed
  | .lockProjects _ selected | .advanceEpochs selected => CoveredBy tables writes (· ∈ selected)
  | .commit => CoveredBy tables writes fun projectId =>
      ∃ advance ∈ writes, advance.advances projectId = true
  | _ => NoneTouches writes

theorem accounts_commit {tables : AccessTables} {writes : List AccessWrite}
    (h : NoneTouches writes) : Accounts tables writes .commit :=
  h.coveredBy tables fun projectId => ∃ advance ∈ writes, advance.advances projectId = true

theorem accounts_nextChange {tables : AccessTables} {writes : List AccessWrite} {userId : Uuid}
    (h : ∀ write ∈ writes, ∀ organizationId userId,
      write.touches organizationId userId = true → organizationId ∈ changed) :
    Accounts tables writes (nextChange userId upserts removals changed) := by
  unfold nextChange
  split <;> exact h

/-- A membership is written under its lock, and its organization counts as changed. -/
theorem accounts_changeMembership {tables : AccessTables} {writes new : List AccessWrite}
    {userId : Uuid} (h : ∀ write ∈ writes, ∀ organizationId userId,
      write.touches organizationId userId = true → organizationId ∈ changed)
    (hexecute : changeMembershipOf tables userId choice upserts removals changed
      = .done locks new next) :
    Accounts tables (writes ++ new) next ∧ ∀ write ∈ new, ∀ organizationId user,
      write.touches organizationId user = true →
        exclusive (.membership organizationId user) ∈ locks := by
  rcases (changeMembershipOf_done hexecute).1 with ⟨upserts', removals', rfl⟩
  refine ⟨accounts_nextChange ?_, fun write hwrite organizationId user htouches =>
    (changeMembershipOf_touches hexecute hwrite htouches).2⟩
  intro write hwrite organizationId user htouches
  rcases List.mem_append.mp hwrite with hold | hnew
  · exact List.mem_append_left _ (h write hold organizationId user htouches)
  · rw [(changeMembershipOf_touches hexecute hnew htouches).1]
    exact List.mem_append_right _ (List.mem_singleton_self _)

theorem mem_organizationProjects {tables : AccessTables} {organizationIds : List Uuid}
    (haccess : access ∈ tables.projectOrganizationAccess)
    (horganization : access.organizationId ∈ organizationIds) :
    access.projectId ∈ organizationProjects tables organizationIds := by
  rw [organizationProjects, mem_orderBy, List.mem_dedup]
  apply List.mem_map_of_mem
  rw [List.mem_filter, List.contains_iff_mem]
  exact ⟨haccess, horganization⟩

/-- Each statement keeps the account of the writes. -/
theorem accounts_done {tables : AccessTables} {writes new : List AccessWrite}
    (h : Accounts tables writes step)
    (hexecute : execute tables choice step = .done locks new next) :
    Accounts tables (writes ++ new) next ∧ ∀ write ∈ new, ∀ organizationId user,
      write.touches organizationId user = true →
        exclusive (.membership organizationId user) ∈ locks := by
  cases step
  case changeMembership userId upserts removals changed =>
    exact accounts_changeMembership h hexecute
  case listMemberships userId groups mappings =>
    simp only [execute] at hexecute
    cases hexecute
    refine ⟨accounts_nextChange ?_, fun _ hwrite => absurd hwrite List.not_mem_nil⟩
    intro write hwrite organizationId user htouches
    rw [List.append_nil] at hwrite
    rw [h write hwrite] at htouches
    cases htouches
  case selectProjects changed =>
    simp only [execute] at hexecute
    -- what the writes change is among the changed organizations
    have hcovered : CoveredBy tables writes (· ∈ organizationProjects tables changed) := by
      intro write hwrite organizationId userId hchanges access haccess horganization
      have hmem := h write hwrite organizationId userId
        (AccessWrite.touches_of_changesMembership hchanges)
      exact mem_organizationProjects haccess (horganization ▸ hmem)
    split at hexecute
    · next hempty =>
      cases hexecute
      rw [List.append_nil]
      refine ⟨?_, fun _ hwrite => absurd hwrite List.not_mem_nil⟩
      intro write hwrite organizationId userId hchanges
      have hmem := h write hwrite organizationId userId
        (AccessWrite.touches_of_changesMembership hchanges)
      rw [List.isEmpty_iff.mp hempty] at hmem
      exact absurd hmem List.not_mem_nil
    · split at hexecute
      · next hempty =>
        cases hexecute
        rw [List.append_nil]
        refine ⟨?_, fun _ hwrite => absurd hwrite List.not_mem_nil⟩
        intro write hwrite organizationId userId hchanges access haccess horganization
        have hmem := hcovered write hwrite organizationId userId hchanges access haccess
          horganization
        rw [List.isEmpty_iff.mp hempty] at hmem
        exact absurd hmem List.not_mem_nil
      · cases hexecute
        rw [List.append_nil]
        exact ⟨hcovered, fun _ hwrite => absurd hwrite List.not_mem_nil⟩
  case lockProjects remaining selected =>
    cases remaining <;>
    · cases hexecute
      rw [List.append_nil]
      exact ⟨h, fun _ hwrite => absurd hwrite List.not_mem_nil⟩
  case advanceEpochs selected =>
    cases hexecute
    constructor
    · intro write hwrite organizationId userId hchanges access haccess horganization
      rcases List.mem_append.mp hwrite with hold | hnew
      · have hmem := h write hold organizationId userId hchanges access haccess horganization
        refine ⟨.advanceEpochs selected, List.mem_append_right _ (List.mem_singleton_self _), ?_⟩
        exact List.contains_iff_mem.mpr hmem
      · rcases List.mem_singleton.mp hnew with rfl
        cases hchanges
    · intro write hwrite organizationId userId htouches
      rcases List.mem_singleton.mp hwrite with rfl
      cases htouches
  -- the other statements write no membership
  all_goals
    simp only [execute, fail] at hexecute
    repeat' split at hexecute
  all_goals cases hexecute
  all_goals
    have hnew : ∀ write : AccessWrite, (∀ organizationId user,
        write.touches organizationId user = false) → NoneTouches [write] := by
      intro write hwrite other hother
      rcases List.mem_singleton.mp hother with rfl
      exact hwrite
    first
      | rw [List.append_nil]
        exact ⟨h, fun _ hwrite => absurd hwrite List.not_mem_nil⟩
      | refine ⟨NoneTouches.append h (hnew _ fun _ _ => rfl), ?_⟩
        intro write hwrite organizationId user htouches
        rcases List.mem_singleton.mp hwrite with rfl
        cases htouches
      | refine ⟨accounts_commit ?_, ?_⟩
        · exact NoneTouches.append h (hnew _ fun _ _ => rfl)
        intro write hwrite organizationId user htouches
        rcases List.mem_singleton.mp hwrite with rfl
        cases htouches

end AccessStep

/-! ## The account of every client -/

/-- Each grant that a client has written is of a project that exists, and the client has
advanced its epoch or is about to; each membership it has written is locked, and accounted for
in the projects it selects. -/
structure Accounted (tables : AccessTables) (client : AccessClient) : Prop where
  exist : ∀ write ∈ client.writes, ∀ projectId, write.grantsIn projectId = true →
    AccessStep.projectExists tables projectId = true
  advance : ∀ write ∈ client.writes, ∀ projectId, write.grantsIn projectId = true →
    (∃ advance ∈ client.writes, advance.advances projectId = true)
      ∨ client.next = .lockAccess projectId ∨ client.next = .advanceEpoch projectId
  locked : ∀ write ∈ client.writes, ∀ organizationId userId,
    write.touches organizationId userId = true →
    AccessStep.exclusive (.membership organizationId userId) ∈ client.locks
  accounts : client.next.Accounts tables client.writes

/-- A synchronization that has selected the projects it advances. -/
def AccessStep.hasSelected : AccessStep → Bool
  | .lockProjects _ _ | .advanceEpochs _ | .commit => true
  | _ => false

/-- The commit of a client gives no project its first grant for an organization in which a
synchronization that has already selected its projects makes or removes a membership. -/
def GrantsNotSelectedOver (tables : AccessTables) (client other : AccessClient) : Prop :=
  other.next.hasSelected = true →
    ∀ row : ProjectOrganizationAccessRow, .setOrganizationAccess row ∈ client.writes →
      (∀ access ∈ tables.projectOrganizationAccess,
        ¬(access.projectId = row.projectId ∧ access.organizationId = row.organizationId)) →
      ∀ write ∈ other.writes, ∀ userId,
        write.changesMembership tables row.organizationId userId = false

theorem Accounted.fresh (tables : AccessTables) (id : Nat) {command : AccessCommand}
    (hstart : command.start = some next) :
    Accounted tables (.fresh id next) where
  exist := fun _ hwrite => absurd hwrite List.not_mem_nil
  advance := fun _ hwrite => absurd hwrite List.not_mem_nil
  locked := fun _ hwrite => absurd hwrite List.not_mem_nil
  accounts := by
    cases command <;> simp only [AccessCommand.start] at hstart <;>
      first
        | cases hstart
          exact NoneTouches.nil
        | rcases Option.map_eq_some_iff.mp hstart with ⟨groupName, -, rfl⟩
          exact NoneTouches.nil
        | split at hstart
          · cases hstart
          · cases hstart
            exact NoneTouches.nil

theorem accounted_done {client : AccessClient} (hforeign : GrantedProjectsExist tables)
    (h : Accounted tables client)
    (hexecute : AccessStep.execute tables choice client.next = .done locks writes next) :
    Accounted tables { client with
      locks := client.locks ++ locks, writes := client.writes ++ writes, next } := by
  rcases AccessStep.accounts_done h.accounts hexecute with ⟨haccounts, hlocked⟩
  constructor
  · intro write hwrite projectId hgrants
    rcases List.mem_append.mp hwrite with hold | hnew
    · exact h.exist write hold projectId hgrants
    · exact (AccessStep.next_of_grantsIn hforeign hexecute hnew hgrants).1
  · intro write hwrite projectId hgrants
    rcases List.mem_append.mp hwrite with hold | hnew
    · rcases h.advance write hold projectId hgrants with ⟨advance, hmem, hadvance⟩ | hlock | hnext
      · exact .inl ⟨advance, List.mem_append_left _ hmem, hadvance⟩
      · -- it has the lock and comes to the update
        rw [hlock] at hexecute
        simp only [AccessStep.execute, Outcome.done.injEq] at hexecute
        exact .inr (.inr hexecute.2.2.symm)
      · -- it makes the update
        rw [hnext] at hexecute
        simp only [AccessStep.execute] at hexecute
        split at hexecute
        · simp only [Outcome.done.injEq] at hexecute
          refine .inl ⟨.advanceEpochs [projectId], List.mem_append_right _ ?_, ?_⟩
          · rw [← hexecute.2.1]
            exact List.mem_singleton_self _
          · simp [AccessWrite.advances]
        · cases hexecute
    · exact .inr (.inl (AccessStep.next_of_grantsIn hforeign hexecute hnew hgrants).2)
  · intro write hwrite organizationId userId htouches
    rcases List.mem_append.mp hwrite with hold | hnew
    · exact List.mem_append_left _ (h.locked write hold organizationId userId htouches)
    · exact List.mem_append_right _ (hlocked write hnew organizationId userId htouches)
  · exact haccounts

/-- A grant that a commit leaves was there before for its project and organization, or the
commit has set it. -/
theorem mem_access_applyAll
    (h : access ∈ (accessTransactions.applyAll writes tables).projectOrganizationAccess) :
    access ∈ tables.projectOrganizationAccess ∨ .setOrganizationAccess access ∈ writes := by
  have hall : ∀ access ∈ (accessTransactions.applyAll writes tables).projectOrganizationAccess,
      access ∈ tables.projectOrganizationAccess ∨ .setOrganizationAccess access ∈ writes := by
    refine TransactionSystem.applyAll_of_apply
      (fun other : AccessTables => ∀ access ∈ other.projectOrganizationAccess,
        access ∈ tables.projectOrganizationAccess ∨ .setOrganizationAccess access ∈ writes)
      ?_ fun access haccess => .inl haccess
    intro write hwrite other hother access haccess
    cases write
    case setOrganizationAccess row =>
      rcases mem_upsertRow.mp haccess with rfl | ⟨hold, -⟩
      · exact .inr hwrite
      · exact hother access hold
    case removeOrganizationAccess project organization =>
      exact hother access (List.mem_of_mem_filter haccess)
    all_goals exact hother access haccess
  exact hall access h

/-- Grants keep their foreign key. -/
theorem grantedProjectsExist_applyAll (hforeign : GrantedProjectsExist tables)
    (hexist : ∀ write ∈ writes, ∀ projectId, write.grantsIn projectId = true →
      AccessStep.projectExists tables projectId = true) :
    GrantedProjectsExist (accessTransactions.applyAll writes tables) := by
  intro access haccess
  rw [projectExists_applyAll]
  rcases mem_access_applyAll haccess with hold | hset
  · exact hforeign access hold
  · exact hexist _ hset _ (decide_eq_true rfl)

/-- A membership that no write touches is there after a commit if it was before. -/
theorem memberKeys_applyAll {organizationId userId : Uuid}
    (h : ∀ write ∈ writes, write.touches organizationId userId = false) :
    (memberKeys (accessTransactions.applyAll writes tables)).contains (organizationId, userId)
      = (memberKeys tables).contains (organizationId, userId) := by
  have hnone : ∀ write ∈ writes, write.changesMembership tables organizationId userId = false := by
    intro write hwrite
    rw [Bool.eq_false_iff]
    intro hchanges
    have htouches := AccessWrite.touches_of_changesMembership hchanges
    rw [h write hwrite] at htouches
    cases htouches
  rw [Bool.eq_iff_iff, contains_memberKeys, contains_memberKeys, filter_memberKeys_applyAll hnone]

variable {client other : AccessClient}

/-- Clients that hold their locks do not write one membership both. -/
theorem Accounted.not_touches (h : Accounted tables client) (hother : Accounted tables other)
    (hcompatible : TransactionSystem.Compatible client other) {organizationId userId : Uuid}
    {write : AccessWrite} (hwrite : write ∈ other.writes)
    (htouches : write.touches organizationId userId = true) :
    ∀ write ∈ client.writes, write.touches organizationId userId = false := by
  intro mine hmine
  rw [Bool.eq_false_iff]
  intro htouched
  exact hcompatible.not_exclusive (h.locked mine hmine _ _ htouched)
    (hother.locked write hwrite _ _ htouches)

/-- A commit leaves what others have selected complete, if it may commit beside them. -/
theorem coveredBy_frame
    (covered : Uuid → Prop) (h : Accounted tables client) (hother : Accounted tables other)
    (hcompatible : TransactionSystem.Compatible client other)
    (hallowed : GrantsNotSelectedOver tables client other)
    (hselected : other.next.hasSelected = true)
    (hcovered : CoveredBy tables other.writes covered) :
    CoveredBy (accessTransactions.applyAll client.writes tables) other.writes covered := by
  intro write hwrite organizationId userId hchanges access haccess horganization
  have htouches := AccessWrite.touches_of_changesMembership hchanges
  -- the membership is locked, so it is what it was
  have hbefore : write.changesMembership tables organizationId userId = true := by
    unfold AccessWrite.changesMembership at hchanges ⊢
    rw [← memberKeys_applyAll (h.not_touches hother hcompatible hwrite htouches)]
    exact hchanges
  by_cases hknown : ∃ known ∈ tables.projectOrganizationAccess,
      known.projectId = access.projectId ∧ known.organizationId = access.organizationId
  · rcases hknown with ⟨known, hmem, hproject, hknownorganization⟩
    rw [← hproject]
    exact hcovered write hwrite organizationId userId hbefore known hmem
      (hknownorganization.trans horganization)
  · rcases mem_access_applyAll haccess with hold | hset
    · exact absurd ⟨access, hold, rfl, rfl⟩ hknown
    · have hnot := hallowed hselected access hset
        (fun known hmem hsame => hknown ⟨known, hmem, hsame⟩) write hwrite userId
      rw [horganization, hbefore] at hnot
      cases hnot

theorem accounted_frame (h : Accounted tables client) (hother : Accounted tables other)
    (hcompatible : TransactionSystem.Compatible client other)
    (hallowed : GrantsNotSelectedOver tables client other) :
    Accounted (accessTransactions.applyAll client.writes tables) other := by
  constructor
  · intro write hwrite projectId hgrants
    rw [projectExists_applyAll]
    exact hother.exist write hwrite projectId hgrants
  · exact hother.advance
  · exact hother.locked
  · have haccounts := hother.accounts
    have hselected := fun hselected covered =>
      coveredBy_frame covered h hother hcompatible hallowed hselected
    revert haccounts hselected
    cases other.next
    case lockProjects remaining selected => exact fun hcovered hframe => hframe rfl _ hcovered
    case advanceEpochs selected => exact fun hcovered hframe => hframe rfl _ hcovered
    case commit =>
      exact fun hcovered hframe => hframe rfl (fun projectId =>
        ∃ advance ∈ other.writes, advance.advances projectId = true) hcovered
    all_goals exact fun haccounts _ => haccounts

theorem accounted_inductive :
    accessTransactions.Inductive GrantsNotSelectedOver GrantedProjectsExist Accounted where
  start := fun _ hstart => Accounted.fresh _ _ hstart
  done := fun hforeign hsound _ hexecute => accounted_done hforeign hsound hexecute
  rollback := by
    intro tables client choice next _ _ _ hexecute
    exact absurd hexecute AccessStep.not_rollback_some
  commit := fun hforeign hsound _ => grantedProjectsExist_applyAll hforeign hsound.exist
  restart := by
    intro tables client next _ _ hcommit
    cases (afterCommit_eq_some hcommit).2
  frame := fun _ h hother hcompatible hallowed _ =>
    accounted_frame h hother hcompatible hallowed

/-! ## Every change of access advances the epoch -/

/-- The epoch of the project is larger in the second state. -/
def EpochAdvanced (tables tables' : AccessTables) (projectId : Uuid) : Prop :=
  ∃ epoch epoch', accessEpochOf tables projectId = some epoch
    ∧ accessEpochOf tables' projectId = some epoch' ∧ epoch < epoch'

theorem exists_accessEpochOf (h : AccessStep.projectExists tables projectId = true) :
    ∃ epoch, accessEpochOf tables projectId = some epoch := by
  rcases List.any_eq_true.mp h with ⟨project, hproject, hid⟩
  cases hfound : tables.projects.find? (·.id = projectId) with
  | none => exact absurd hid (List.find?_eq_none.mp hfound project hproject)
  | some found => exact ⟨found.accessEpoch, by rw [accessEpochOf, hfound]; rfl⟩

theorem epochAdvanced_applyAll (hexists : AccessStep.projectExists tables projectId = true)
    (hadvance : ∃ write ∈ writes, write.advances projectId = true) :
    EpochAdvanced tables (accessTransactions.applyAll writes tables) projectId := by
  rcases exists_accessEpochOf hexists with ⟨epoch, hepoch⟩
  have hcount : 0 < writes.countP fun write => write.advances projectId := by
    rw [List.countP_pos_iff]
    exact hadvance
  refine ⟨epoch, epoch + ((writes.countP fun write => write.advances projectId : Nat) : Int),
    hepoch, ?_, ?_⟩
  · rw [accessEpochOf_applyAll, hepoch]
    rfl
  · omega

/-- A commit that changes the access of a user to a project advances its epoch. -/
theorem epochAdvanced_of_access {client : AccessClient}
    (hforeign : GrantedProjectsExist tables) (h : Accounted tables client)
    (hcommit : client.next = .commit) {userId projectId : Uuid}
    (hchanged : projectUserAccess (accessTransactions.applyAll client.writes tables) userId
      projectId ≠ projectUserAccess tables userId projectId) :
    EpochAdvanced tables (accessTransactions.applyAll client.writes tables) projectId := by
  by_cases hgrants : ∃ write ∈ client.writes, write.grantsIn projectId = true
  · rcases hgrants with ⟨write, hwrite, hgrant⟩
    refine epochAdvanced_applyAll (h.exist write hwrite projectId hgrant) ?_
    rcases h.advance write hwrite projectId hgrant with hadvance | hlock | hnext
    · exact hadvance
    · rw [hcommit] at hlock
      cases hlock
    · rw [hcommit] at hnext
      cases hnext
  · -- no grant of the project was written, so a membership made the difference
    by_contra hnot
    apply hchanged
    apply projectUserAccess_applyAll
    · intro write hwrite
      rw [Bool.eq_false_iff]
      exact fun hgrant => hgrants ⟨write, hwrite, hgrant⟩
    · intro access haccess write hwrite
      rw [Bool.eq_false_iff]
      intro hchanges
      rcases List.mem_filter.mp haccess with ⟨hmem, hproject⟩
      have haccounts := h.accounts
      rw [hcommit] at haccounts
      have hadvance := haccounts write hwrite access.organizationId userId hchanges access hmem rfl
      have hsame : access.projectId = projectId := of_decide_eq_true hproject
      rw [hsame] at hadvance
      exact hnot (epochAdvanced_applyAll (hsame ▸ hforeign access hmem) hadvance)

/-- A membership that a commit removes had its projects advanced. -/
theorem epochAdvanced_of_removal {client : AccessClient} (hforeign : GrantedProjectsExist tables)
    (h : Accounted tables client) (hcommit : client.next = .commit) {organizationId userId : Uuid}
    (hbefore : (organizationId, userId) ∈ memberKeys tables) (hafter : (organizationId, userId) ∉
      memberKeys (accessTransactions.applyAll client.writes tables))
    (haccess : access ∈ tables.projectOrganizationAccess)
    (horganization : access.organizationId = organizationId) :
    EpochAdvanced tables (accessTransactions.applyAll client.writes tables)
      access.projectId := by
  by_contra hnot
  apply hafter
  have hsame : (memberKeys (accessTransactions.applyAll client.writes tables)).filter
      (· = (organizationId, userId)) = (memberKeys tables).filter (· = (organizationId, userId)) := by
    -- a write that removes the membership has the project advanced
    refine filter_memberKeys_applyAll fun write hwrite => ?_
    rw [Bool.eq_false_iff]
    intro hchanges
    have haccounts := h.accounts
    rw [hcommit] at haccounts
    exact hnot (epochAdvanced_applyAll (hforeign access haccess)
      (haccounts write hwrite organizationId userId hchanges access haccess horganization))
  rw [← List.contains_iff_mem, contains_memberKeys] at hbefore ⊢
  rw [hsame]
  exact hbefore

/-- No step turns an epoch back. -/
theorem accessEpochOf_since {s t : AccessWorld} {action : AccessAction}
    (hstep : accessTransactions.step s action = some t) {epoch : Int}
    (hepoch : accessEpochOf t.tables projectId = some epoch) :
    ∃ earlier, accessEpochOf s.tables projectId = some earlier ∧ earlier ≤ epoch := by
  rcases TransactionSystem.tables_step hstep with hsame | ⟨client, -, next, -, -, happlied⟩
  · exact ⟨epoch, by rw [← hsame]; exact hepoch, le_refl _⟩
  · rw [happlied, accessEpochOf_applyAll] at hepoch
    rcases Option.map_eq_some_iff.mp hepoch with ⟨earlier, hearlier, hsum⟩
    exact ⟨earlier, hearlier, by omega⟩

/-- What a step from `last` to `next` does to the epochs, where `earlier` came before `last`: a
changed access leaves its epoch larger than wherever the old access was in force, and a removed
membership advances every project granted to the organization. -/
structure EpochsAdvance (earlier last next : AccessTables) : Prop where
  access : ∀ userId projectId,
    projectUserAccess earlier userId projectId = projectUserAccess last userId projectId →
    projectUserAccess next userId projectId ≠ projectUserAccess last userId projectId →
    EpochAdvanced earlier next projectId
  removal : ∀ organizationId userId, (organizationId, userId) ∈ memberKeys last →
    (organizationId, userId) ∉ memberKeys next →
    ∀ access ∈ last.projectOrganizationAccess, access.organizationId = organizationId →
      EpochAdvanced last next access.projectId

/-- A step in which no grant commits over a synchronization that has selected its projects. -/
def AccessStepTaken : AccessWorld → AccessAction → AccessWorld → Prop :=
  Guarded (TransactionSystem.CommitsAllowed GrantsNotSelectedOver)
    fun s action t => accessTransactions.step s action = some t

/-- Epochs advance with access in every run in which no grant commits between the selection and
the commit of a synchronization that it concerns. -/
theorem epoch_advances_with_access {database : AccessDatabase} {earlier last next : AccessWorld}
    {before between : List AccessAction} {action : AccessAction}
    (hbefore : Run AccessStepTaken ⟨database.tables, []⟩ before earlier)
    (hbetween : Run AccessStepTaken earlier between last)
    (hstep : AccessStepTaken last action next) :
    EpochsAdvance earlier.tables last.tables next.tables := by
  have hforeign : GrantedProjectsExist database.tables := by
    intro access haccess
    rcases database.constrained.accessProject access haccess with ⟨project, hproject, hid⟩
    exact List.any_eq_true.mpr ⟨project, hproject, decide_eq_true hid⟩
  have hholds := accounted_inductive.run hforeign (hbefore.append hbetween)
  -- the epoch has not gone down since the earlier state
  have hsince : ∀ projectId epoch, accessEpochOf last.tables projectId = some epoch →
      ∃ old, accessEpochOf earlier.tables projectId = some old ∧ old ≤ epoch := by
    intro projectId
    refine hbetween.rel (r := fun s t : AccessWorld => ∀ epoch,
      accessEpochOf t.tables projectId = some epoch →
      ∃ old, accessEpochOf s.tables projectId = some old ∧ old ≤ epoch) ?_ ?_ ?_
    · exact fun s epoch h => ⟨epoch, h, le_refl _⟩
    · intro s t u hst htu epoch h
      rcases htu epoch h with ⟨middle, hmiddle, hle⟩
      rcases hst middle hmiddle with ⟨old, hold, hle'⟩
      exact ⟨old, hold, le_trans hle' hle⟩
    · intro s a t h epoch hepoch
      exact accessEpochOf_since h.2 hepoch
  rcases TransactionSystem.tables_step hstep.2 with
    hsame | ⟨client, hclient, rest, -, hrest, happlied⟩
  · rw [hsame]
    exact ⟨fun _ _ _ hne => absurd rfl hne, fun _ _ hmem hnot => absurd hmem hnot⟩
  have haccounted := hholds.clients client hclient
  have hcommit := (afterCommit_eq_some hrest).1
  rw [happlied]
  constructor
  · intro userId projectId _ hchanged
    rcases epochAdvanced_of_access hholds.tables haccounted hcommit hchanged with
      ⟨epoch, epoch', hepoch, hepoch', hlt⟩
    rcases hsince projectId epoch hepoch with ⟨old, hold, hle⟩
    exact ⟨old, epoch', hold, hepoch', lt_of_le_of_lt hle hlt⟩
  · intro organizationId userId hmember hremoved access haccess horganization
    exact epochAdvanced_of_removal hholds.tables haccounted hcommit hmember hremoved haccess
      horganization

/-! ## A synchronization and a grant that overlap -/

/-- Users 1 and 3 are members of organization 5, user 1 through a mapping; project 2 is granted
to nobody. -/
def mappedMember : AccessTables where
  users := [⟨1, [], []⟩, ⟨3, [], []⟩]
  organizations := [⟨5, []⟩]
  projects := [⟨2, [], false, 0⟩]
  projectRoles := []
  projectOrganizationAccess := []
  organizationMemberships := [⟨5, 1, .member⟩, ⟨5, 3, .member⟩]
  projectGroupRoles := []
  userOidcGroups := [⟨1, ['g']⟩]
  organizationGroupMappings := [⟨5, ['g'], .member⟩]
  projectTemplateOrganizationAccess := []
  projectUserArchives := []
  projectShareLinks := []
  anonymousShareSessions := []

theorem mappedMember_constrained : mappedMember.Constrained := by
  constructor <;> simp [mappedMember]

/-- User 1 has lost the group: the statements that remove the membership and select projects. -/
def synchronizeGroups : List AccessAction :=
  [.start 10 (.syncOidcIdentityGroups 1 []), .execute 10 0, .execute 10 0, .execute 10 0,
    .execute 10 5, .execute 10 0]

/-- Project 2 is granted to organization 5. -/
def grantProject : List AccessAction :=
  [.start 11 (.upsertProjectOrganizationAccess 2 5 .read 3), .execute 11 0, .execute 11 0,
    .execute 11 0, .execute 11 0, .commit 11]

/-- The grant commits after the synchronization has selected no project. -/
def grantedOver : AccessWorld :=
  (exec accessTransactions.step ⟨mappedMember, []⟩ (synchronizeGroups ++ grantProject)).getD
    ⟨mappedMember, []⟩

def removedAfter : AccessWorld :=
  (accessTransactions.step grantedOver (.commit 10)).getD grantedOver

/-- When the synchronization then commits, user 1 loses the access that the grant gave, and the
epoch stays as it is. -/
theorem overlapping_grant_keeps_the_epoch :
    ¬∀ (database : AccessDatabase) (earlier last next : AccessWorld)
      (before between : List AccessAction) (action : AccessAction),
      Run (fun s action t => accessTransactions.step s action = some t)
        ⟨database.tables, []⟩ before earlier →
      Run (fun s action t => accessTransactions.step s action = some t) earlier between last →
      accessTransactions.step last action = some next →
      EpochsAdvance earlier.tables last.tables next.tables := by
  intro hall
  have hbefore : exec accessTransactions.step ⟨mappedMember, []⟩
      (synchronizeGroups ++ grantProject) = some grantedOver :=
    eq_some_getD (by decide +kernel) _
  have hstep : accessTransactions.step grantedOver (.commit 10) = some removedAfter :=
    eq_some_getD (by decide +kernel) _
  have hadvance := (hall ⟨mappedMember, mappedMember_constrained⟩ grantedOver grantedOver
    removedAfter _ [] _ (exec_run hbefore) (.nil _) hstep).access 1 2 rfl (by decide +kernel)
  rcases hadvance with ⟨epoch, epoch', hepoch, hepoch', hlt⟩
  have hold : accessEpochOf grantedOver.tables 2 = some 1 := by decide +kernel
  have hnew : accessEpochOf removedAfter.tables 2 = some 1 := by decide +kernel
  rcases Option.some.inj (hold.symm.trans hepoch) with rfl
  rcases Option.some.inj (hnew.symm.trans hepoch') with rfl
  exact absurd hlt (by decide)

/-- A client that is alone commits over nobody. -/
theorem commitsAllowed_of_alone {world : AccessWorld} (halone : world.clients.length ≤ 1)
    (action : AccessAction) :
    TransactionSystem.CommitsAllowed GrantsNotSelectedOver world action := by
  cases action with
  | commit id =>
    intro client hclient hid other hother hne
    match world, halone, hclient, hother with
    | ⟨_, [only]⟩, _, hclient, hother =>
      rcases List.mem_singleton.mp hclient with rfl
      rcases List.mem_singleton.mp hother with rfl
      exact absurd hid hne
  | start id command | execute id choice | abort id => trivial

/-- The grant first: the synchronization then advances the project. -/
def grantedBefore : AccessWorld :=
  (exec accessTransactions.step ⟨mappedMember, []⟩ grantProject).getD ⟨mappedMember, []⟩

def removal : List AccessAction :=
  synchronizeGroups ++ [.execute 10 0, .execute 10 0, .execute 10 0]

def removing : AccessWorld :=
  (exec accessTransactions.step grantedBefore removal).getD grantedBefore

def removed : AccessWorld :=
  (accessTransactions.step removing (.commit 10)).getD removing

theorem epoch_advances_with_removal :
    projectUserAccess removed.tables 1 2 ≠ projectUserAccess removing.tables 1 2
    ∧ EpochsAdvance removing.tables removing.tables removed.tables := by
  have hrun : ∀ {s t : AccessWorld} {actions : List AccessAction},
      exec (fun s action => if s.clients.length ≤ 1 then accessTransactions.step s action
        else none) s actions = some t → Run AccessStepTaken s actions t :=
    fun hexec => (exec_guarded_run hexec).mono fun _ action _ hstep =>
      ⟨commitsAllowed_of_alone hstep.1 action, hstep.2⟩
  refine ⟨by decide +kernel, ?_⟩
  have hbefore : Run AccessStepTaken ⟨mappedMember, []⟩ (grantProject ++ removal) removing :=
    hrun (by decide +kernel)
  have hstep : AccessStepTaken removing (.commit 10) removed :=
    ⟨commitsAllowed_of_alone (by decide +kernel) _, eq_some_getD (by decide +kernel) _⟩
  exact @epoch_advances_with_access ⟨mappedMember, mappedMember_constrained⟩ _ _ _ _ _ _
    hbefore (.nil _) hstep

end Toss.Access
