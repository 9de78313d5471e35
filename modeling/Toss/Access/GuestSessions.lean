import Toss.Access.AccessTransactions

/-!
# Guest sessions

A guest session is created under the lock of its project's row, by a transaction that has seen
there that the project is no template; a project is made a template under the same lock, by a
transaction that then removes every session of the project. So a template has no guest session
in any committed state, and a session carries the permission of its share link.

* `templateStatus`, `linkGrants` — what guest sessions depend on;
* `GuestsAdmitted` — the invariant of the tables;
* `Settled` — what a transaction that is about to commit has written;
* `Shared` — what it knows at each of its statements;
* `templates_have_no_guests` — what holds of every committed state.
-/

namespace Toss.Access

open Toss.Foundation

/-! ## What guest sessions depend on -/

def templateStatus (tables : AccessTables) : List (Uuid × Bool) :=
  tables.projects.map fun project => (project.id, project.isTemplate)

/-- The columns of a share link that no statement changes. -/
def linkGrants (tables : AccessTables) : List (Uuid × Uuid × ProjectPermission) :=
  tables.projectShareLinks.map fun link => (link.id, link.projectId, link.permission)

/-- What guest sessions depend on, and they themselves. -/
def sharing (tables : AccessTables) : List (Uuid × Bool)
    × List (Uuid × Uuid × ProjectPermission) × List AnonymousShareSessionRow :=
  (templateStatus tables, linkGrants tables, tables.anonymousShareSessions)

namespace AccessWrite

/-- The writes that change one of these. -/
def shares : AccessWrite → Bool
  | .setTemplate _ _ | .insertShareLink _ | .insertSession _ | .removeSessions _ => true
  | _ => false

theorem sharing_apply {write : AccessWrite} (h : write.shares = false) (tables : AccessTables) :
    sharing (write.apply tables) = sharing tables := by
  cases write with
  | advanceEpochs projectIds =>
    have hstatus : templateStatus ((advanceEpochs projectIds).apply tables)
        = templateStatus tables :=
      map_updateWhere (by intro project _; rfl) _
    rw [sharing, hstatus]
    rfl
  | extendShareLink id expiresAt =>
    have hgrants : linkGrants ((extendShareLink id expiresAt).apply tables) = linkGrants tables :=
      map_updateWhere (by intro link _; rfl) _
    rw [sharing, hgrants]
    rfl
  | revokeShareLink id revokedAt =>
    have hgrants : linkGrants ((revokeShareLink id revokedAt).apply tables) = linkGrants tables :=
      map_updateWhere (by intro link _; rfl) _
    rw [sharing, hgrants]
    rfl
  | setTemplate projectId isTemplate | insertShareLink row | insertSession row
  | removeSessions ids => cases h
  | _ => rfl

@[simp] theorem templateStatus_setTemplate (projectId : Uuid) (isTemplate : Bool)
    (tables : AccessTables) :
    templateStatus ((setTemplate projectId isTemplate).apply tables)
      = (templateStatus tables).map fun status =>
          if status.1 = projectId then (status.1, isTemplate) else status := by
  simp only [templateStatus, apply, updateWhere, List.map_map]
  apply List.map_congr_left
  intro project _
  by_cases hid : project.id = projectId <;> simp [hid]

@[simp] theorem linkGrants_insertShareLink (row : ProjectShareLinkRow) (tables : AccessTables) :
    linkGrants ((insertShareLink row).apply tables)
      = linkGrants tables ++ [(row.id, row.projectId, row.permission)] := by
  simp [linkGrants, apply]

/-- What a write does to them depends on nothing else. -/
theorem sharing_apply_congr (write : AccessWrite) {tables tables' : AccessTables}
    (h : sharing tables = sharing tables') :
    sharing (write.apply tables) = sharing (write.apply tables') := by
  by_cases hshares : write.shares = true
  · simp only [sharing, Prod.mk.injEq] at h ⊢
    rcases h with ⟨hstatus, hgrants, hsessions⟩
    cases write with
    | setTemplate projectId isTemplate =>
      rw [templateStatus_setTemplate, templateStatus_setTemplate, hstatus]
      exact ⟨rfl, hgrants, hsessions⟩
    | insertShareLink row =>
      rw [linkGrants_insertShareLink, linkGrants_insertShareLink, hgrants]
      exact ⟨hstatus, rfl, hsessions⟩
    | insertSession row =>
      refine ⟨hstatus, hgrants, ?_⟩
      show tables.anonymousShareSessions ++ _ = tables'.anonymousShareSessions ++ _
      rw [hsessions]
    | removeSessions ids =>
      refine ⟨hstatus, hgrants, ?_⟩
      show tables.anonymousShareSessions.filter _ = tables'.anonymousShareSessions.filter _
      rw [hsessions]
    | _ => cases hshares
  · rw [sharing_apply (by simpa using hshares), sharing_apply (by simpa using hshares), h]

end AccessWrite

/-- The other writes can be left out. -/
theorem sharing_applyAll (writes : List AccessWrite) (tables : AccessTables) :
    sharing (accessTransactions.applyAll writes tables)
      = sharing (accessTransactions.applyAll (writes.filter AccessWrite.shares) tables) := by
  have hcongr : ∀ (writes : List AccessWrite) {tables tables' : AccessTables},
      sharing tables = sharing tables' →
      sharing (accessTransactions.applyAll writes tables)
        = sharing (accessTransactions.applyAll writes tables') := by
    intro writes
    induction writes with
    | nil => exact id
    | cons write writes ih => exact fun h => ih (write.sharing_apply_congr h)
  induction writes generalizing tables with
  | nil => rfl
  | cons write writes ih =>
    have hcons : accessTransactions.applyAll (write :: writes) tables
        = accessTransactions.applyAll writes (write.apply tables) := rfl
    rw [hcons, ih]
    cases hshares : write.shares with
    | true => rw [List.filter_cons_of_pos hshares]; rfl
    | false =>
      rw [List.filter_cons_of_neg (by simp [hshares])]
      exact hcongr _ (AccessWrite.sharing_apply hshares tables)

/-! ## The invariant -/

/-- Every guest session belongs to a share link of its project, with the link's permission, and
its project is no template. -/
structure GuestsAdmitted (tables : AccessTables) : Prop where
  projectsKey : ((templateStatus tables).map (·.1)).Nodup
  linksKey : ((linkGrants tables).map (·.1)).Nodup
  link : ∀ session ∈ tables.anonymousShareSessions,
    (session.shareLinkId, session.projectId, session.permission) ∈ linkGrants tables
  notTemplate : ∀ session ∈ tables.anonymousShareSessions,
    (session.projectId, true) ∉ templateStatus tables

theorem GuestsAdmitted.congr {tables tables' : AccessTables}
    (h : sharing tables = sharing tables') (hadmitted : GuestsAdmitted tables) :
    GuestsAdmitted tables' := by
  simp only [sharing, Prod.mk.injEq] at h
  rcases h with ⟨hstatus, hgrants, hsessions⟩
  constructor
  · rw [← hstatus]
    exact hadmitted.projectsKey
  · rw [← hgrants]
    exact hadmitted.linksKey
  · rw [← hgrants, ← hsessions]
    exact hadmitted.link
  · rw [← hstatus, ← hsessions]
    exact hadmitted.notTemplate

/-- The row that `lock_project_template_status` finds is the only one of the project. -/
theorem GuestsAdmitted.not_template {tables : AccessTables} (h : GuestsAdmitted tables)
    {projectId : Uuid} {project : AccessProjectRow}
    (hfound : tables.projects.find? (·.id = projectId) = some project)
    (hstatus : project.isTemplate = false) : (projectId, true) ∉ templateStatus tables := by
  intro htemplate
  have hid : project.id = projectId := by simpa using List.find?_some hfound
  have hmem : (projectId, false) ∈ templateStatus tables := by
    rw [← hid, ← hstatus]
    exact List.mem_map_of_mem (List.mem_of_find?_eq_some hfound)
  have hsame := List.inj_on_of_nodup_map h.projectsKey htemplate hmem rfl
  cases hsame

/-! ## What a transaction has written -/

/-- What a transaction has written of these when it is about to commit. -/
inductive Settled (tables : AccessTables) (locks : List (Lock AccessKey)) :
    List AccessWrite → Prop
  | nothing : Settled tables locks []
  | link {row : ProjectShareLinkRow}
      (hlock : AccessStep.exclusive (.shareLink row.id) ∈ locks)
      (hfresh : ∀ grant ∈ linkGrants tables, grant.1 ≠ row.id) :
      Settled tables locks [.insertShareLink row]
  | session {row : AnonymousShareSessionRow}
      (hlock : AccessStep.exclusive (.project row.projectId) ∈ locks)
      (hstatus : (row.projectId, true) ∉ templateStatus tables)
      (hlink : (row.shareLinkId, row.projectId, row.permission) ∈ linkGrants tables) :
      Settled tables locks [.insertSession row]
  | template {projectId : Uuid} {ids : List Uuid}
      (hlock : AccessStep.exclusive (.project projectId) ∈ locks)
      (hremoved : ∀ session ∈ tables.anonymousShareSessions, session.projectId = projectId →
        session.id ∈ ids) :
      Settled tables locks [.setTemplate projectId true, .removeSessions ids]
  | notTemplate {projectId : Uuid} : Settled tables locks [.setTemplate projectId false]

namespace Settled

variable {tables : AccessTables} {locks : List (Lock AccessKey)} {writes : List AccessWrite}

theorem mono (h : Settled tables locks writes) (more : List (Lock AccessKey)) :
    Settled tables (locks ++ more) writes := by
  cases h with
  | nothing => exact .nothing
  | link hlock hfresh => exact .link (List.mem_append_left _ hlock) hfresh
  | session hlock hstatus hlink =>
    exact .session (List.mem_append_left _ hlock) hstatus hlink
  | template hlock hremoved => exact .template (List.mem_append_left _ hlock) hremoved
  | notTemplate => exact .notTemplate

theorem map_fst_setTemplate (projectId : Uuid) (isTemplate : Bool) (tables : AccessTables) :
    (templateStatus ((AccessWrite.setTemplate projectId isTemplate).apply tables)).map (·.1)
      = (templateStatus tables).map (·.1) := by
  rw [AccessWrite.templateStatus_setTemplate, List.map_map]
  apply List.map_congr_left
  intro status _
  simp only [Function.comp_apply]
  split <;> rfl

/-- A project is a template after the write only if it is the one that was made one, or was
one before. -/
theorem mem_setTemplate {projectId other : Uuid} {isTemplate : Bool}
    (h : (other, true) ∈ templateStatus
      ((AccessWrite.setTemplate projectId isTemplate).apply tables)) :
    (other, true) ∈ templateStatus tables ∨ (other = projectId ∧ isTemplate = true) := by
  rw [AccessWrite.templateStatus_setTemplate] at h
  rcases List.mem_map.mp h with ⟨status, hstatus, heq⟩
  split at heq
  · next hid =>
    simp only [Prod.mk.injEq] at heq
    exact .inr ⟨heq.1.symm.trans hid, heq.2⟩
  · rw [← heq]
    exact .inl hstatus

/-- A commit keeps the invariant. -/
theorem admitted (h : Settled tables locks writes) (hadmitted : GuestsAdmitted tables) :
    GuestsAdmitted (accessTransactions.applyAll writes tables) := by
  cases h with
  | nothing => exact hadmitted
  | @link row hlock hfresh =>
    show GuestsAdmitted ((AccessWrite.insertShareLink row).apply tables)
    refine ⟨hadmitted.projectsKey, ?_, ?_, hadmitted.notTemplate⟩
    · rw [AccessWrite.linkGrants_insertShareLink, List.map_append, List.map_singleton,
        List.nodup_append]
      refine ⟨hadmitted.linksKey, List.nodup_singleton _, ?_⟩
      intro id hid new hnew
      rcases List.mem_map.mp hid with ⟨grant, hgrant, rfl⟩
      rcases List.mem_singleton.mp hnew with rfl
      exact hfresh grant hgrant
    · intro session hsession
      rw [AccessWrite.linkGrants_insertShareLink]
      exact List.mem_append_left _ (hadmitted.link session hsession)
  | @session row hlock hstatus hlink =>
    -- a session is inserted under the lock, of a project that is no template
    show GuestsAdmitted ((AccessWrite.insertSession row).apply tables)
    refine ⟨hadmitted.projectsKey, hadmitted.linksKey, ?_, ?_⟩
    · intro session hsession
      rcases List.mem_append.mp hsession with hold | hnew
      · exact hadmitted.link session hold
      · rcases List.mem_singleton.mp hnew with rfl
        exact hlink
    · intro session hsession
      rcases List.mem_append.mp hsession with hold | hnew
      · exact hadmitted.notTemplate session hold
      · rcases List.mem_singleton.mp hnew with rfl
        exact hstatus
  | @template projectId ids hlock hremoved =>
    show GuestsAdmitted ((AccessWrite.removeSessions ids).apply
      ((AccessWrite.setTemplate projectId true).apply tables))
    refine ⟨?_, hadmitted.linksKey, ?_, ?_⟩
    · show ((templateStatus ((AccessWrite.setTemplate projectId true).apply tables)).map
        (·.1)).Nodup
      rw [map_fst_setTemplate]
      exact hadmitted.projectsKey
    · intro session hsession
      exact hadmitted.link session (List.mem_filter.mp hsession).1
    · -- a session of the project would have been removed
      intro session hsession htemplate
      rcases List.mem_filter.mp hsession with ⟨hmem, hkept⟩
      rcases mem_setTemplate htemplate with hold | ⟨hsame, -⟩
      · exact hadmitted.notTemplate session hmem hold
      · rw [List.contains_iff_mem.mpr (hremoved session hmem hsame)] at hkept
        cases hkept
  | @notTemplate projectId =>
    show GuestsAdmitted ((AccessWrite.setTemplate projectId false).apply tables)
    refine ⟨?_, hadmitted.linksKey, hadmitted.link, ?_⟩
    · rw [map_fst_setTemplate]
      exact hadmitted.projectsKey
    · intro session hsession htemplate
      rcases mem_setTemplate htemplate with hold | ⟨-, hfalse⟩
      · exact hadmitted.notTemplate session hsession hold
      · cases hfalse

end Settled

/-- What a commit leaves of what others have seen: the rest is under its locks. -/
structure SharingFrame (locks : List (Lock AccessKey)) (tables tables' : AccessTables) :
    Prop where
  template : ∀ projectId, (projectId, true) ∈ templateStatus tables' →
    (projectId, true) ∈ templateStatus tables ∨ AccessStep.exclusive (.project projectId) ∈ locks
  kept : ∀ grant ∈ linkGrants tables, grant ∈ linkGrants tables'
  link : ∀ grant ∈ linkGrants tables', grant ∈ linkGrants tables
    ∨ AccessStep.exclusive (.shareLink grant.1) ∈ locks
  session : ∀ session ∈ tables'.anonymousShareSessions, session ∈ tables.anonymousShareSessions
    ∨ AccessStep.exclusive (.project session.projectId) ∈ locks

theorem SharingFrame.congr {locks : List (Lock AccessKey)} {tables after after' : AccessTables}
    (h : sharing after = sharing after') (hframe : SharingFrame locks tables after) :
    SharingFrame locks tables after' := by
  simp only [sharing, Prod.mk.injEq] at h
  rcases h with ⟨hstatus, hgrants, hsessions⟩
  constructor
  · rw [← hstatus]
    exact hframe.template
  · rw [← hgrants]
    exact hframe.kept
  · rw [← hgrants]
    exact hframe.link
  · rw [← hsessions]
    exact hframe.session

theorem Settled.frame {tables : AccessTables} {locks : List (Lock AccessKey)}
    {writes : List AccessWrite} (h : Settled tables locks writes) :
    SharingFrame locks tables (accessTransactions.applyAll writes tables) := by
  cases h with
  | nothing =>
    exact ⟨fun _ => .inl, fun _ => id, fun _ => .inl, fun _ => .inl⟩
  | @link row hlock hfresh =>
    refine ⟨fun _ => .inl, ?_, ?_, fun _ => .inl⟩
    · intro grant hgrant
      show grant ∈ linkGrants ((AccessWrite.insertShareLink row).apply tables)
      rw [AccessWrite.linkGrants_insertShareLink]
      exact List.mem_append_left _ hgrant
    · intro grant hgrant
      change grant ∈ linkGrants ((AccessWrite.insertShareLink row).apply tables) at hgrant
      rw [AccessWrite.linkGrants_insertShareLink] at hgrant
      rcases List.mem_append.mp hgrant with hold | hnew
      · exact .inl hold
      · rcases List.mem_singleton.mp hnew with rfl
        exact .inr hlock
  | @session row hlock hstatus hlink =>
    refine ⟨fun _ => .inl, fun _ => id, fun _ => .inl, ?_⟩
    intro session hsession
    rcases List.mem_append.mp hsession with hold | hnew
    · exact .inl hold
    · rcases List.mem_singleton.mp hnew with rfl
      exact .inr hlock
  | @template projectId ids hlock hremoved =>
    refine ⟨?_, fun _ => id, fun _ => .inl, ?_⟩
    · intro other htemplate
      rcases Settled.mem_setTemplate htemplate with hold | ⟨rfl, -⟩
      · exact .inl hold
      · exact .inr hlock
    · intro session hsession
      exact .inl (List.mem_filter.mp hsession).1
  | @notTemplate projectId =>
    refine ⟨?_, fun _ => id, fun _ => .inl, fun _ => .inl⟩
    intro other htemplate
    rcases Settled.mem_setTemplate htemplate with hold | ⟨-, hfalse⟩
    · exact .inl hold
    · cases hfalse

/-! ## What a transaction knows -/

/-- What a transaction knows at a statement: `writes` are those of its writes that share. -/
def Shared (tables : AccessTables) (locks : List (Lock AccessKey)) (writes : List AccessWrite) :
    AccessStep → Prop
  | .lockShareTarget _ projectId =>
    writes = [] ∧ AccessStep.exclusive (.project projectId) ∈ locks
      ∧ (projectId, true) ∉ templateStatus tables
  | .insertSession _ projectId shareLinkId permission =>
    writes = [] ∧ AccessStep.exclusive (.project projectId) ∈ locks
      ∧ (projectId, true) ∉ templateStatus tables
      ∧ (shareLinkId, projectId, permission) ∈ linkGrants tables
  | .revokeSessions projectId =>
    writes = [.setTemplate projectId true]
      ∧ AccessStep.exclusive (.project projectId) ∈ locks
  | .clearTemplateAccess _ | .lockAccess _ | .advanceEpoch _ | .commit =>
    Settled tables locks writes
  | _ => writes = []

def SharingSound (tables : AccessTables) (client : AccessClient) : Prop :=
  Shared tables client.locks (client.writes.filter AccessWrite.shares) client.next

theorem shared_start {tables : AccessTables} {command : AccessCommand} {next : AccessStep}
    (hstart : command.start = some next) : Shared tables [] [] next := by
  cases command <;> simp only [AccessCommand.start] at hstart
  case upsertProjectGroupRole | deleteProjectGroupRole | upsertOrganizationGroupMapping =>
    rcases Option.map_eq_some_iff.mp hstart with ⟨groupName, -, rfl⟩
    rfl
  case joinProjectShareLink | enableProjectShareLink | createTemporaryShareLogin =>
    split at hstart
    · cases hstart
    · cases hstart
      rfl
  all_goals
    cases hstart
    rfl

/-- A statement of the synchronization shares nothing. -/
theorem shared_nextChange (tables : AccessTables) (locks : List (Lock AccessKey)) (userId : Uuid)
    (upserts : List (Uuid × OrganizationRole)) (removals changed : List Uuid) :
    Shared tables locks [] (AccessStep.nextChange userId upserts removals changed) := by
  unfold AccessStep.nextChange
  split <;> rfl

theorem shared_done {tables : AccessTables} {held locks : List (Lock AccessKey)}
    {before writes : List AccessWrite} {choice : Uuid} {step next : AccessStep}
    (hadmitted : GuestsAdmitted tables) (h : Shared tables held before step)
    (hexecute : step.execute tables choice = .done locks writes next) :
    Shared tables (held ++ locks) (before ++ writes.filter AccessWrite.shares) next := by
  cases step
  case upsertShareLink write =>
    -- a new link has an id of its own, which its insert locks
    rcases h with rfl
    simp only [AccessStep.execute, AccessStep.fail] at hexecute
    split at hexecute
    · cases hexecute
      exact .nothing
    split at hexecute
    · next hfresh =>
      cases hexecute
      refine .link ?_ ?_
      · exact List.mem_append_right _ (List.mem_cons_of_mem _ List.mem_cons_self)
      · intro grant hgrant hid
        rcases List.mem_map.mp hgrant with ⟨link, hlink, rfl⟩
        simp only [Bool.and_eq_true, Bool.not_eq_true'] at hfresh
        have hnot := List.any_eq_false.mp hfresh.2 link hlink
        exact hnot (decide_eq_true (.inl hid))
    · cases hexecute
  case lockTemplateStatus login projectId =>
    -- a guest's login: the project is no template while it is locked
    rcases h with rfl
    simp only [AccessStep.execute, AccessStep.fail] at hexecute
    split at hexecute
    · cases hexecute
    rename_i project hfound
    split at hexecute
    · cases hexecute
    rename_i hstatus
    cases hexecute
    exact ⟨rfl, List.mem_append_right _ List.mem_cons_self,
      hadmitted.not_template hfound (by simpa using hstatus)⟩
  case lockShareTarget login projectId =>
    rcases h with ⟨rfl, hlock, hstatus⟩
    simp only [AccessStep.execute, AccessStep.fail] at hexecute
    split at hexecute
    · cases hexecute
    rename_i link hfound
    split at hexecute
    · cases hexecute
      refine ⟨rfl, List.mem_append_left _ hlock, hstatus, ?_⟩
      have hproject := List.find?_some hfound
      simp only [Bool.and_eq_true, decide_eq_true_eq] at hproject
      rw [← hproject.1.2]
      exact List.mem_map_of_mem (List.mem_of_find?_eq_some hfound)
    · cases hexecute
  case insertSession login projectId shareLinkId permission =>
    rcases h with ⟨rfl, hlock, hstatus, hlink⟩
    simp only [AccessStep.execute, AccessStep.fail] at hexecute
    split at hexecute
    · cases hexecute
    · cases hexecute
      exact .session (List.mem_append_left _ hlock) hstatus hlink
  case setTemplateStatus projectId isTemplate =>
    -- a template revokes the sessions under the same lock
    rcases h with rfl
    simp only [AccessStep.execute, AccessStep.fail] at hexecute
    split at hexecute
    · cases isTemplate with
      | true =>
        cases hexecute
        exact ⟨rfl, List.mem_append_right _ List.mem_cons_self⟩
      | false =>
        cases hexecute
        exact .notTemplate
    · cases hexecute
  case revokeSessions projectId =>
    rcases h with ⟨rfl, hlock⟩
    cases hexecute
    refine .template (List.mem_append_left _ hlock) ?_
    intro session hsession hproject
    exact List.mem_map_of_mem (List.mem_filter.mpr ⟨hsession, decide_eq_true hproject⟩)
  case clearTemplateAccess projectId =>
    cases hexecute
    show Settled _ _ (before ++ [])
    rw [List.append_nil]
    exact Settled.mono h _
  case lockAccess projectId =>
    cases hexecute
    show Settled _ _ (before ++ [])
    rw [List.append_nil]
    exact Settled.mono h _
  case advanceEpoch projectId =>
    simp only [AccessStep.execute, AccessStep.fail] at hexecute
    split at hexecute
    · cases hexecute
      show Settled _ _ (before ++ [])
      rw [List.append_nil]
      exact Settled.mono h _
    · cases hexecute
  case commit => cases hexecute
  case listMemberships userId groups mappings =>
    rcases h with rfl
    cases hexecute
    exact shared_nextChange _ _ _ _ _ _
  case changeMembership userId upserts removals changed =>
    rcases h with rfl
    simp only [AccessStep.execute, AccessStep.changeMembershipOf, AccessStep.fail] at hexecute
    repeat' split at hexecute
    all_goals cases hexecute
    all_goals exact shared_nextChange _ _ _ _ _ _
  case lockProjects remaining selected =>
    rcases h with rfl
    cases remaining <;> cases hexecute <;> rfl
  -- the others write nothing that is shared
  all_goals
    rcases h with rfl
    simp only [AccessStep.execute, AccessStep.fail] at hexecute
    repeat' split at hexecute
  all_goals cases hexecute
  all_goals first | rfl | exact .nothing

/-- The commit of another client leaves in place what a transaction knows. -/
theorem shared_frame {tables tables' : AccessTables} {client other : AccessClient}
    {writes : List AccessWrite} {step : AccessStep}
    (hcompatible : TransactionSystem.Compatible client other)
    (hframe : SharingFrame client.locks tables tables')
    (h : Shared tables other.locks writes step) : Shared tables' other.locks writes step := by
  have htemplate : ∀ {projectId}, AccessStep.exclusive (.project projectId) ∈ other.locks →
      (projectId, true) ∉ templateStatus tables → (projectId, true) ∉ templateStatus tables' := by
    intro projectId hlock hstatus hafter
    rcases hframe.template projectId hafter with hold | hheld
    · exact hstatus hold
    · exact hcompatible.not_exclusive hheld hlock
  have hsettled : Settled tables other.locks writes → Settled tables' other.locks writes := by
    intro hsettled
    cases hsettled with
    | nothing => exact .nothing
    | @link row hlock hfresh =>
      refine .link hlock ?_
      intro grant hgrant hid
      rcases hframe.link grant hgrant with hold | hheld
      · exact hfresh grant hold hid
      · rw [hid] at hheld
        exact hcompatible.not_exclusive hheld hlock
    | session hlock hstatus hlink =>
      exact .session hlock (htemplate hlock hstatus) (hframe.kept _ hlink)
    | @template projectId ids hlock hremoved =>
      refine .template hlock ?_
      intro session hsession hproject
      rcases hframe.session session hsession with hold | hheld
      · exact hremoved session hold hproject
      · rw [hproject] at hheld
        exact (hcompatible.not_exclusive hheld hlock).elim
    | notTemplate => exact .notTemplate
  cases step
  case lockShareTarget => exact ⟨h.1, h.2.1, htemplate h.2.1 h.2.2⟩
  case insertSession =>
    exact ⟨h.1, h.2.1, htemplate h.2.1 h.2.2.1, hframe.kept _ h.2.2.2⟩
  case clearTemplateAccess | lockAccess | advanceEpoch | commit => exact hsettled h
  all_goals exact h

theorem sharing_inductive :
    accessTransactions.Inductive (fun _ _ _ => True) GuestsAdmitted SharingSound where
  start := fun _ hstart => shared_start hstart
  done := by
    intro tables client choice locks writes next hadmitted hsound _ hexecute
    show Shared _ _ ((client.writes ++ writes).filter _) _
    rw [List.filter_append]
    exact shared_done hadmitted hsound hexecute
  rollback := by
    intro tables client choice next _ _ _ hexecute
    exact absurd hexecute AccessStep.not_rollback_some
  commit := by
    intro tables client next hadmitted hsound hcommit
    rw [SharingSound, (afterCommit_eq_some hcommit).1] at hsound
    exact (Settled.admitted hsound hadmitted).congr (sharing_applyAll _ _).symm
  restart := by
    intro tables client next _ _ hcommit
    cases (afterCommit_eq_some hcommit).2
  frame := by
    intro tables client other next _ hsound hother hcompatible _ hcommit
    rw [SharingSound, (afterCommit_eq_some hcommit).1] at hsound
    exact shared_frame hcompatible
      ((Settled.frame hsound).congr (sharing_applyAll _ _).symm) hother

/-! ## Every committed state -/

theorem admitted_of_none {database : AccessDatabase}
    (hnone : database.tables.anonymousShareSessions = []) : GuestsAdmitted database.tables where
  projectsKey := by
    rw [templateStatus, List.map_map]
    exact database.constrained.projectsKey
  linksKey := by
    rw [linkGrants, List.map_map]
    exact database.constrained.shareLinksKey
  link := by
    intro session hsession
    rw [hnone] at hsession
    cases hsession
  notTemplate := by
    intro session hsession
    rw [hnone] at hsession
    cases hsession

/-- What a guest session that is let in stands on. -/
theorem guestSessionAccess_eq_some {tables : AccessTables} {now : Timestamp} {projectId : Uuid}
    {fingerprint : Bytes} {access : GuestSessionAccess}
    (h : guestSessionAccess tables now projectId fingerprint = some access) :
    ∃ session ∈ tables.anonymousShareSessions, session.projectId = projectId
      ∧ access = ⟨session.id, session.displayName, session.permission⟩
      ∧ ∃ link ∈ tables.projectShareLinks, link.id = session.shareLinkId
        ∧ link.isValid now = true := by
  rcases Option.map_eq_some_iff.mp h with ⟨session, hfound, rfl⟩
  have hlive := List.find?_some hfound
  simp only [Bool.and_eq_true, decide_eq_true_eq] at hlive
  rcases List.any_eq_true.mp hlive.2 with ⟨link, hlink, hvalid⟩
  simp only [Bool.and_eq_true, decide_eq_true_eq] at hvalid
  exact ⟨session, List.mem_of_find?_eq_some hfound, hlive.1.1.1, rfl, link, hlink, hvalid⟩

/-- In every committed state, a template has no guest session, and a guest session is let in
only while the share link it was created through is valid, with what that link grants. -/
theorem templates_have_no_guests {database : AccessDatabase} {actions : List AccessAction}
    {world : AccessWorld} (hnone : database.tables.anonymousShareSessions = [])
    (hrun : Run (fun s action t => accessTransactions.step s action = some t)
      ⟨database.tables, []⟩ actions world) (now : Timestamp) (fingerprint : Bytes) :
    (∀ project ∈ world.tables.projects, project.isTemplate = true →
      guestSessionAccess world.tables now project.id fingerprint = none
      ∧ ∀ session ∈ world.tables.anonymousShareSessions, session.projectId ≠ project.id)
    ∧ ∀ projectId access, guestSessionAccess world.tables now projectId fingerprint = some access →
      ∃ session ∈ world.tables.anonymousShareSessions, session.id = access.sessionId
        ∧ ∃ link ∈ world.tables.projectShareLinks, link.id = session.shareLinkId
          ∧ link.projectId = projectId ∧ link.isValid now = true
          ∧ access.permission = link.permission := by
  have hadmitted := (sharing_inductive.run_of_always (admitted_of_none hnone) hrun).tables
  constructor
  · intro project hproject htemplate
    have hnosession : ∀ session ∈ world.tables.anonymousShareSessions,
        session.projectId ≠ project.id := by
      intro session hsession hsame
      apply hadmitted.notTemplate session hsession
      rw [hsame, ← htemplate]
      exact List.mem_map_of_mem hproject
    refine ⟨?_, hnosession⟩
    cases hlive : guestSessionAccess world.tables now project.id fingerprint with
    | none => rfl
    | some access =>
      rcases guestSessionAccess_eq_some hlive with ⟨session, hsession, hsame, -⟩
      exact absurd hsame (hnosession session hsession)
  · intro projectId access hlive
    rcases guestSessionAccess_eq_some hlive with
      ⟨session, hsession, rfl, rfl, link, hlink, hid, hvalid⟩
    refine ⟨session, hsession, rfl, link, hlink, hid, ?_⟩
    -- the link with this id is the one whose grant the session has
    have hgrant : (link.id, link.projectId, link.permission) ∈ linkGrants world.tables :=
      List.mem_map_of_mem hlink
    have hsame := List.inj_on_of_nodup_map hadmitted.linksKey hgrant
      (hadmitted.link session hsession) hid
    simp only [Prod.mk.injEq] at hsame
    exact ⟨hsame.2.1, hvalid, hsame.2.2.symm⟩

def sharedProject : AccessTables where
  users := []
  organizations := []
  projects := [⟨2, [], false, 0⟩]
  projectRoles := []
  projectOrganizationAccess := []
  organizationMemberships := []
  projectGroupRoles := []
  userOidcGroups := []
  organizationGroupMappings := []
  projectTemplateOrganizationAccess := []
  projectUserArchives := []
  projectShareLinks := []
  anonymousShareSessions := []

theorem sharedProject_constrained : sharedProject.Constrained := by
  constructor <;> simp [sharedProject]

/-- A share link of project 2, and a guest who logs in through it. -/
def guestLogin : List AccessAction :=
  [.start 10 (.enableProjectShareLink ⟨7, 2, ['t'], .write, 0, none⟩), .execute 10 0,
    .execute 10 0, .execute 10 0, .commit 10,
    .start 11 (.createTemporaryShareLogin ⟨['t'], ['G'], 9, [1], 1, 1⟩ .readWriteNamed),
    .execute 11 0, .execute 11 0, .execute 11 0, .execute 11 0, .commit 11]

def guestWorld : AccessWorld :=
  (exec accessTransactions.step ⟨sharedProject, []⟩ guestLogin).getD ⟨sharedProject, []⟩

theorem guest_stands_on_link :
    guestSessionAccess guestWorld.tables 2 2 [1] = some ⟨9, ['G'], .write⟩
    ∧ ∃ session ∈ guestWorld.tables.anonymousShareSessions, session.id = 9
      ∧ ∃ link ∈ guestWorld.tables.projectShareLinks, link.id = session.shareLinkId
        ∧ link.projectId = 2 ∧ link.isValid 2 = true ∧ .write = link.permission := by
  have hrun : exec accessTransactions.step ⟨sharedProject, []⟩ guestLogin = some guestWorld :=
    eq_some_getD (by decide +kernel) _
  have hlive : guestSessionAccess guestWorld.tables 2 2 [1] = some ⟨9, ['G'], .write⟩ := by
    decide +kernel
  have hstands := @templates_have_no_guests ⟨sharedProject, sharedProject_constrained⟩ _ _ rfl
    (exec_run hrun) 2 [1]
  exact ⟨hlive, hstands.2 2 _ hlive⟩

end Toss.Access
