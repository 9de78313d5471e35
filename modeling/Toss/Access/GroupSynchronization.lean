import Toss.Access.GroupRoles

/-!
# Group synchronization

`sync_oidc_identity_groups` decides from the memberships that it reads without locks, and writes
one membership after another, each under the lock of its row.

* `Synchronizes` — what a synchronization has done so far, from what it read;
* `synchronized_role` — alone it makes every membership what the groups give;
* `synchronized_again` — and a second one finds nothing to change.
-/

namespace Toss.Access

open Toss.Foundation

/-! ## Roles under writes -/

namespace AccessWrite

/-- What a write leaves of a membership. -/
def roleAfter (userId organizationId : Uuid) (write : AccessWrite)
    (before : Option OrganizationRole) : Option OrganizationRole :=
  match write with
  | .setMembership row =>
    if row.organizationId = organizationId ∧ row.userId = userId then some row.role else before
  | .removeMembership organization user =>
    if organization = organizationId ∧ user = userId then none else before
  | _ => before

/-- The writes of a synchronization. -/
def syncs (userId : Uuid) : AccessWrite → Bool
  | .setMembership row => row.userId = userId
  | .removeMembership _ user => user = userId
  | .replaceUserGroups _ _ | .advanceEpochs _ => true
  | _ => false

theorem membershipRole_apply (write : AccessWrite) (tables : AccessTables)
    (userId organizationId : Uuid) :
    membershipRole (write.apply tables) userId organizationId
      = write.roleAfter userId organizationId (membershipRole tables userId organizationId) := by
  cases write
  case setMembership row =>
    simp only [membershipRole, apply, roleAfter]
    split
    · next hsame =>
      have hlookup : (fun membership : OrganizationMembershipRow =>
            decide (membership.organizationId = organizationId ∧ membership.userId = userId))
          = fun membership => decide ((membership.organizationId, membership.userId)
              = (row.organizationId, row.userId)) := by
        funext membership
        simp only [Prod.mk.injEq, hsame.1, hsame.2]
      rw [hlookup, find?_upsertRow_self]
      rfl
    · next hother =>
      rw [find?_upsertRow_of_not]
      intro other hkey
      simp only [Prod.mk.injEq] at hkey
      rw [hkey.1, hkey.2]
      exact decide_eq_false hother
  case removeMembership organization user =>
    simp only [membershipRole, apply, roleAfter]
    split
    · next hsame =>
      rw [List.find?_eq_none.mpr]
      · rfl
      · intro membership hmembership hfound
        have hkept := of_decide_eq_true (List.mem_filter.mp hmembership).2
        rw [hsame.1, hsame.2] at hkept
        exact hkept (of_decide_eq_true hfound)
    · next hother =>
      rw [List.find?_filter]
      congr 2
      funext membership
      rw [decide_eq_decide, decide_eq_true_eq, decide_eq_true_eq]
      refine and_iff_right_of_imp ?_
      rintro ⟨rfl, rfl⟩ ⟨rfl, rfl⟩
      exact hother ⟨rfl, rfl⟩
  all_goals rfl

variable {write : AccessWrite}

theorem roleAfter_of_not_touches {userId organizationId : Uuid}
    (h : write.touches organizationId userId = false) (before : Option OrganizationRole) :
    write.roleAfter userId organizationId before = before := by
  cases write
  case setMembership row =>
    refine if_neg ?_
    rintro ⟨rfl, rfl⟩
    simp [touches] at h
  case removeMembership organization user =>
    refine if_neg ?_
    rintro ⟨rfl, rfl⟩
    simp [touches] at h
  all_goals rfl

theorem mappings_of_syncs {userId : Uuid} (h : write.syncs userId = true)
    (tables : AccessTables) :
    (write.apply tables).organizationGroupMappings = tables.organizationGroupMappings := by
  cases write <;> first | rfl | cases h

end AccessWrite

/-- What writes leave of a membership, the first of them first. -/
def rolesAfter (userId organizationId : Uuid) (writes : List AccessWrite)
    (before : Option OrganizationRole) : Option OrganizationRole :=
  writes.foldl (fun role write => write.roleAfter userId organizationId role) before

theorem membershipRole_applyAll (writes : List AccessWrite) (tables : AccessTables)
    (userId organizationId : Uuid) :
    membershipRole (accessTransactions.applyAll writes tables) userId organizationId
      = rolesAfter userId organizationId writes
          (membershipRole tables userId organizationId) := by
  induction writes generalizing tables with
  | nil => rfl
  | cons write writes ih =>
    rw [rolesAfter, List.foldl_cons, ← AccessWrite.membershipRole_apply]
    exact ih (write.apply tables)

/-- No write is of the membership. -/
def Untouched (userId organizationId : Uuid) (writes : List AccessWrite) : Prop :=
  ∀ write ∈ writes, write.touches organizationId userId = false

theorem Untouched.rolesAfter {userId organizationId : Uuid} {writes : List AccessWrite}
    (h : Untouched userId organizationId writes) (before : Option OrganizationRole) :
    rolesAfter userId organizationId writes before = before := by
  induction writes with
  | nil => rfl
  | cons write writes ih =>
    rw [Access.rolesAfter, List.foldl_cons,
      AccessWrite.roleAfter_of_not_touches (h write List.mem_cons_self)]
    exact ih fun later hlater => h later (List.mem_cons_of_mem _ hlater)

theorem rolesAfter_append (userId organizationId : Uuid) (writes new : List AccessWrite)
    (before : Option OrganizationRole) :
    rolesAfter userId organizationId (writes ++ new) before
      = rolesAfter userId organizationId new (rolesAfter userId organizationId writes before) :=
  List.foldl_append

variable {writes new : List AccessWrite} {groups : List Text} {read tables : AccessTables}
  {userId : Uuid} {organizationId : Uuid} {locks : List (Lock AccessKey)}

theorem Untouched.append {userId organizationId : Uuid}
    (h : Untouched userId organizationId writes) (hnew : Untouched userId organizationId new) :
    Untouched userId organizationId (writes ++ new) := by
  intro write hwrite
  rcases List.mem_append.mp hwrite with hold | hlater
  · exact h write hold
  · exact hnew write hlater

theorem Untouched.nil (userId organizationId : Uuid) : Untouched userId organizationId [] :=
  fun _ hwrite => absurd hwrite List.not_mem_nil

/-! ## How far a synchronization has come -/

/-- The change of a membership, as decided from the tables `read`, is made, or there is none. -/
structure Made (read tables : AccessTables) (userId : Uuid) (groups : List Text)
    (writes : List AccessWrite) (organizationId : Uuid) : Prop where
  role : rolesAfter userId organizationId writes (membershipRole tables userId organizationId)
    = changedRole (decidedUpserts read userId groups) (decidedRemovals read userId groups)
        organizationId (membershipRole tables userId organizationId)
  /-- Over the tables that were read, a change is a write. -/
  written : read = tables → Untouched userId organizationId writes →
    (decidedUpserts read userId groups).lookup organizationId = none
      ∧ organizationId ∉ decidedRemovals read userId groups

/-- The change of a membership is still to be made. -/
structure Pending (read : AccessTables) (userId : Uuid) (groups : List Text)
    (writes : List AccessWrite) (upserts : List (Uuid × OrganizationRole)) (removals : List Uuid)
    (organizationId : Uuid) : Prop where
  upsert : upserts.lookup organizationId = (decidedUpserts read userId groups).lookup organizationId
  removal : organizationId ∈ removals ↔ organizationId ∈ decidedRemovals read userId groups
  untouched : Untouched userId organizationId writes

/-- The change is made, and not to be made again. -/
structure Done (read tables : AccessTables) (userId : Uuid) (groups : List Text)
    (writes : List AccessWrite) (upserts : List (Uuid × OrganizationRole)) (removals : List Uuid)
    (organizationId : Uuid) : Prop where
  upsert : upserts.lookup organizationId = none
  removal : organizationId ∉ removals
  made : Made read tables userId groups writes organizationId

def SyncStage (read tables : AccessTables) (userId : Uuid) (groups : List Text)
    (writes : List AccessWrite) : AccessStep → Prop
  | .replaceGroups user names | .listMappings user names =>
    user = userId ∧ names = groups ∧ read = tables
      ∧ ∀ organizationId, Untouched userId organizationId writes
  | .listMemberships user names mappings =>
    user = userId ∧ names = groups ∧ read = tables ∧ mappings = tables.organizationGroupMappings
      ∧ ∀ organizationId, Untouched userId organizationId writes
  | .changeMembership user upserts removals _ =>
    user = userId ∧ ∀ organizationId,
      Pending read userId groups writes upserts removals organizationId
        ∨ Done read tables userId groups writes upserts removals organizationId
  | .selectProjects _ | .lockProjects _ _ | .advanceEpochs _ | .commit =>
    ∀ organizationId, Made read tables userId groups writes organizationId
  | _ => False

/-- A client that synchronizes the groups of a user, and has read or will read `read`. -/
structure Synchronizes (read tables : AccessTables) (userId : Uuid) (groups : List Text)
    (client : AccessClient) : Prop where
  syncs : ∀ write ∈ client.writes, write.syncs userId = true
  locked : ∀ write ∈ client.writes, ∀ organizationId,
    write.touches organizationId userId = true →
    AccessStep.exclusive (.membership organizationId userId) ∈ client.locks
  stage : SyncStage read tables userId groups client.writes client.next

theorem Synchronizes.fresh (tables : AccessTables) (userId : Uuid) (groups : List Text) (id : Nat) :
    Synchronizes tables tables userId groups (.fresh id (.replaceGroups userId groups)) where
  syncs := fun _ hwrite => absurd hwrite List.not_mem_nil
  locked := fun _ hwrite => absurd hwrite List.not_mem_nil
  stage := ⟨rfl, rfl, rfl, fun organizationId => .nil userId organizationId⟩

theorem Made.append (h : Made read tables userId groups writes organizationId)
    (hnew : Untouched userId organizationId new) :
    Made read tables userId groups (writes ++ new) organizationId where
  role := by
    rw [rolesAfter_append, hnew.rolesAfter]
    exact h.role
  written := fun hread hall =>
    h.written hread fun write hwrite => hall write (List.mem_append_left _ hwrite)

variable {upserts : List (Uuid × OrganizationRole)} {changed removals : List Uuid}

/-- When no change is left, all are made. -/
theorem syncStage_nextChange {writes : List AccessWrite}
    (h : ∀ organizationId, Pending read userId groups writes upserts removals organizationId
      ∨ Done read tables userId groups writes upserts removals organizationId) :
    SyncStage read tables userId groups writes
      (AccessStep.nextChange userId upserts removals changed) := by
  unfold AccessStep.nextChange
  split
  · next hempty =>
    rw [Bool.and_eq_true, List.isEmpty_iff, List.isEmpty_iff] at hempty
    rcases hempty with ⟨rfl, rfl⟩
    intro organizationId
    rcases h organizationId with hpending | hdone
    · have hupsert : (decidedUpserts read userId groups).lookup organizationId = none :=
        hpending.upsert.symm
      have hremoval : organizationId ∉ decidedRemovals read userId groups := by
        rw [← hpending.removal]
        exact List.not_mem_nil
      refine ⟨?_, fun _ _ => ⟨hupsert, hremoval⟩⟩
      rw [hpending.untouched.rolesAfter, changedRole, hupsert]
      simp [hremoval]
    · exact hdone.made
  · exact ⟨rfl, h⟩

/-- A membership is upserted, or removed, once. -/
theorem not_mem_decidedRemovals {read : AccessTables} (hkeyed : MembershipsKeyed read)
    {role : OrganizationRole}
    (h : (decidedUpserts read userId groups).lookup organizationId = some role) :
    organizationId ∉ decidedRemovals read userId groups := by
  intro hremoval
  rw [lookup_decidedUpserts, ((mem_decidedRemovals hkeyed).mp hremoval).2.1] at h
  cases h

theorem untouched_setMembership {userId organizationId choice : Uuid} (hne : organizationId ≠ choice)
    (role : OrganizationRole) :
    Untouched userId organizationId [.setMembership ⟨choice, userId, role⟩] := by
  intro write hwrite
  rcases List.mem_singleton.mp hwrite with rfl
  simp [AccessWrite.touches, Ne.symm hne]

theorem untouched_removeMembership {userId organizationId choice : Uuid}
    (hne : organizationId ≠ choice) :
    Untouched userId organizationId [.removeMembership choice userId] := by
  intro write hwrite
  rcases List.mem_singleton.mp hwrite with rfl
  simp [AccessWrite.touches, Ne.symm hne]

theorem lookup_remaining {organizationId choice : Uuid} (hne : organizationId ≠ choice)
    (upserts : List (Uuid × OrganizationRole)) :
    (upserts.filter (·.1 ≠ choice)).lookup organizationId = upserts.lookup organizationId := by
  have hfilter : (upserts.filter (·.1 ≠ choice)) = upserts.filter fun entry => entry.1 != choice := by
    refine List.filter_congr fun entry _ => ?_
    rw [decide_not]
    rfl
  rw [hfilter]
  exact lookup_filter_ne hne

/-- The memberships of other organizations are as far as they were. -/
theorem pending_or_done_other {upserts' : List (Uuid × OrganizationRole)} {removals' : List Uuid}
    (h : Pending read userId groups writes upserts removals organizationId
      ∨ Done read tables userId groups writes upserts removals organizationId)
    (hupserts : upserts'.lookup organizationId = upserts.lookup organizationId)
    (hremovals : organizationId ∈ removals' ↔ organizationId ∈ removals)
    (hnew : Untouched userId organizationId new) :
    Pending read userId groups (writes ++ new) upserts' removals' organizationId
      ∨ Done read tables userId groups (writes ++ new) upserts' removals' organizationId := by
  rcases h with hpending | hdone
  · exact .inl ⟨hupserts.trans hpending.upsert, hremovals.trans hpending.removal,
      hpending.untouched.append hnew⟩
  · exact .inr ⟨hupserts.trans hdone.upsert, hremovals.not.mpr hdone.removal,
      hdone.made.append hnew⟩

variable {userId choice : Uuid} {next : AccessStep} {client : AccessClient}

/-- The statement on the membership that comes next. -/
theorem stage_changeMembership (hkeyed : MembershipsKeyed read)
    (h : ∀ organizationId, Pending read userId groups writes upserts removals organizationId
      ∨ Done read tables userId groups writes upserts removals organizationId)
    (hexecute : AccessStep.changeMembershipOf tables userId choice upserts removals changed
      = .done locks new next) :
    SyncStage read tables userId groups (writes ++ new) next
      ∧ (∀ write ∈ new, write.syncs userId = true)
      ∧ ∀ write ∈ new, ∀ organizationId, write.touches organizationId userId = true →
        AccessStep.exclusive (.membership organizationId userId) ∈ locks := by
  have hcurrent : (tables.organizationMemberships.find? fun membership =>
      membership.organizationId = choice ∧ membership.userId = userId).map (·.role)
      = membershipRole tables userId choice := rfl
  refine ⟨?_, fun write hwrite => ?_, fun write hwrite organizationId htouches =>
    (AccessStep.changeMembershipOf_touches hexecute hwrite htouches).2⟩
  swap
  · rcases ((AccessStep.changeMembershipOf_done hexecute).2 write hwrite).2 with ⟨role, rfl⟩ | rfl
    · simp [AccessWrite.syncs]
    · simp [AccessWrite.syncs]
  simp only [AccessStep.changeMembershipOf] at hexecute
  generalize (tables.organizationMemberships.find? fun membership =>
    membership.organizationId = choice ∧ membership.userId = userId) = current
    at hexecute hcurrent
  split at hexecute
  · next role hupsert =>
    -- the upsert of this organization is the next change
    split at hexecute
    · cases hexecute
      have hdecided : (decidedUpserts read userId groups).lookup choice = some role := by
        rcases h choice with hpending | hdone
        · rw [← hpending.upsert]
          exact hupsert
        · rw [hdone.upsert] at hupsert
          cases hupsert
      have hremoval := not_mem_decidedRemovals hkeyed hdecided
      refine syncStage_nextChange fun organizationId => ?_
      by_cases hsame : organizationId = choice
      · subst hsame
        refine .inr ⟨?_, ?_, ?_, ?_⟩
        · exact lookup_eq_none_of_not_mem (by simp)
        · rcases h organizationId with hpending | hdone
          · rw [hpending.removal]
            exact hremoval
          · exact hdone.removal
        · rw [rolesAfter_append, changedRole, hdecided, ← hcurrent]
          rcases current with _ | ⟨_, _, _ | _⟩ <;> simp [rolesAfter, AccessWrite.roleAfter]
        · intro _ huntouched
          have hnot := huntouched _ (List.mem_append_right _ (List.mem_singleton_self _))
          simp [AccessWrite.touches] at hnot
      · exact pending_or_done_other (h organizationId) (lookup_remaining hsame _) .rfl
          (untouched_setMembership hsame _)
    · cases hexecute
  · split at hexecute
    · next hnone hnext =>
      -- no upsert is left: a removal is next
      rw [Bool.and_eq_true, List.isEmpty_iff, List.contains_iff_mem] at hnext
      rcases hnext with ⟨rfl, hmem⟩
      have hpending : Pending read userId groups writes [] removals choice := by
        rcases h choice with hpending | hdone
        · exact hpending
        · exact absurd hmem hdone.removal
      have hdecided : (decidedUpserts read userId groups).lookup choice = none :=
        hpending.upsert.symm
      have hremoval := hpending.removal.mp hmem
      have hothers : ∀ {new : List AccessWrite}, (∀ organizationId, organizationId ≠ choice →
            Untouched userId organizationId new) →
          Made read tables userId groups (writes ++ new) choice →
          SyncStage read tables userId groups (writes ++ new) (AccessStep.nextChange userId []
            (removals.filter (· ≠ choice)) (changed ++ [choice])) := by
        intro new hnew hmade
        refine syncStage_nextChange fun organizationId => ?_
        by_cases hsame : organizationId = choice
        · subst hsame
          exact .inr ⟨rfl, by simp, hmade⟩
        · exact pending_or_done_other (h organizationId) rfl (by simp [hsame]) (hnew _ hsame)
      split at hexecute
      · next hmember =>
        -- a member who is no owner is removed
        cases hexecute
        refine hothers (fun _ hne => untouched_removeMembership hne) ⟨?_, ?_⟩
        · rw [rolesAfter_append, changedRole, hdecided, ← hcurrent]
          rcases current with _ | ⟨_, _, _ | _⟩
          · cases hmember
          · simp [rolesAfter, AccessWrite.roleAfter, hremoval]
          · cases hmember
        · intro _ huntouched
          have hnot := huntouched _ (List.mem_append_right _ (List.mem_singleton_self _))
          simp [AccessWrite.touches] at hnot
      · next hnot =>
        -- an owner stays, and so does whoever is no member
        cases hexecute
        refine hothers (fun _ _ => .nil _ _) ⟨?_, ?_⟩
        · rw [List.append_nil, hpending.untouched.rolesAfter, changedRole, hdecided, ← hcurrent]
          rcases current with _ | ⟨_, _, _ | _⟩
          · simp [hremoval]
          · exact absurd rfl hnot
          · simp
        · -- what was read to be removed is there
          intro hread _
          subst hread
          rcases ((mem_decidedRemovals hkeyed).mp hremoval).1 with ⟨role, hrole, howner⟩
          rw [← hcurrent] at hrole
          rcases Option.map_eq_some_iff.mp hrole with ⟨membership, rfl, rfl⟩
          simp [howner] at hnot
    · cases hexecute

/-- What a statement adds to a synchronization. -/
theorem syncStage_done (hkeyed : MembershipsKeyed read)
    {step next : AccessStep} (h : SyncStage read tables userId groups writes step)
    (hexecute : AccessStep.execute tables choice step = .done locks new next) :
    SyncStage read tables userId groups (writes ++ new) next
      ∧ (∀ write ∈ new, write.syncs userId = true)
      ∧ ∀ write ∈ new, ∀ organizationId, write.touches organizationId userId = true →
        AccessStep.exclusive (.membership organizationId userId) ∈ locks := by
  -- statements that write no membership
  have hquiet : ∀ write : AccessWrite, write.syncs userId = true →
      (∀ organizationId, write.touches organizationId userId = false) →
      (∀ organizationId, Untouched userId organizationId [write])
        ∧ (∀ other ∈ [write], other.syncs userId = true)
        ∧ ∀ other ∈ [write], ∀ organizationId, other.touches organizationId userId = true →
          AccessStep.exclusive (.membership organizationId userId) ∈ locks := by
    intro write hsyncs htouches
    refine ⟨?_, ?_, ?_⟩
    · intro organizationId other hother
      rcases List.mem_singleton.mp hother with rfl
      exact htouches organizationId
    · intro other hother
      rcases List.mem_singleton.mp hother with rfl
      exact hsyncs
    · intro other hother organizationId htouched
      rcases List.mem_singleton.mp hother with rfl
      rw [htouches organizationId] at htouched
      cases htouched
  have hnone : (∀ write ∈ ([] : List AccessWrite), write.syncs userId = true)
      ∧ ∀ write ∈ ([] : List AccessWrite), ∀ organizationId,
        write.touches organizationId userId = true →
        AccessStep.exclusive (.membership organizationId userId) ∈ locks :=
    ⟨fun _ hwrite => absurd hwrite List.not_mem_nil, fun _ hwrite => absurd hwrite List.not_mem_nil⟩
  cases step with
  | replaceGroups user names =>
    rcases h with ⟨rfl, rfl, hread, huntouched⟩
    simp only [AccessStep.execute] at hexecute
    split at hexecute
    · cases hexecute
      rcases hquiet (.replaceUserGroups _ _) rfl (fun _ => rfl) with ⟨hnew, hrest⟩
      exact ⟨⟨rfl, rfl, hread, fun organizationId => (huntouched organizationId).append
        (hnew organizationId)⟩, hrest⟩
    · cases hexecute
  | listMappings user names =>
    rcases h with ⟨rfl, rfl, hread, huntouched⟩
    cases hexecute
    rw [List.append_nil]
    exact ⟨⟨rfl, rfl, hread, rfl, huntouched⟩, hnone⟩
  | listMemberships user names mappings =>
    rcases h with ⟨rfl, rfl, rfl, rfl, huntouched⟩
    cases hexecute
    rw [List.append_nil]
    exact ⟨syncStage_nextChange fun organizationId =>
      .inl ⟨rfl, .rfl, huntouched organizationId⟩, hnone⟩
  | changeMembership user upserts removals changed =>
    rcases h with ⟨rfl, hchanges⟩
    exact stage_changeMembership hkeyed hchanges hexecute
  | selectProjects changed =>
    simp only [AccessStep.execute] at hexecute
    split at hexecute
    · cases hexecute
      rw [List.append_nil]
      exact ⟨h, hnone⟩
    split at hexecute
    · cases hexecute
      rw [List.append_nil]
      exact ⟨h, hnone⟩
    · cases hexecute
      rw [List.append_nil]
      exact ⟨h, hnone⟩
  | lockProjects remaining selected =>
    cases remaining with
    | nil | cons projectId remaining =>
      cases hexecute
      rw [List.append_nil]
      exact ⟨h, hnone⟩
  | advanceEpochs selected =>
    cases hexecute
    rcases hquiet (.advanceEpochs selected) rfl (fun _ => rfl) with ⟨hnew, hrest⟩
    exact ⟨fun organizationId => (h organizationId).append (hnew organizationId), hrest⟩
  | commit => cases hexecute
  | _ => exact h.elim

theorem Synchronizes.done (hkeyed : MembershipsKeyed read) {new : List AccessWrite}
    (h : Synchronizes read tables userId groups client)
    (hexecute : AccessStep.execute tables choice client.next = .done locks new next) :
    Synchronizes read tables userId groups { client with
      locks := client.locks ++ locks, writes := client.writes ++ new, next } := by
  rcases syncStage_done hkeyed h.stage hexecute with ⟨hstage, hsyncs, hlocked⟩
  refine ⟨?_, ?_, hstage⟩
  · intro write hwrite
    rcases List.mem_append.mp hwrite with hold | hnew
    · exact h.syncs write hold
    · exact hsyncs write hnew
  · intro write hwrite organizationId htouches
    rcases List.mem_append.mp hwrite with hold | hnew
    · exact List.mem_append_left _ (h.locked write hold organizationId htouches)
    · exact List.mem_append_right _ (hlocked write hnew organizationId htouches)

/-! ## Over the commit of another -/

theorem mappings_applyAll {writes : List AccessWrite} (tables : AccessTables)
    (h : ∀ write ∈ writes, write.syncs userId = true) :
    (accessTransactions.applyAll writes tables).organizationGroupMappings
      = tables.organizationGroupMappings :=
  TransactionSystem.applyAll_same (·.organizationGroupMappings) fun write hwrite tables =>
    AccessWrite.mappings_of_syncs (h write hwrite) tables

/-- The memberships have been read. -/
def AccessStep.hasReadMemberships : AccessStep → Bool
  | .changeMembership _ _ _ _ | .selectProjects _ | .lockProjects _ _ | .advanceEpochs _
  | .commit => true
  | _ => false

/-- A change that is made stays made: its row is locked, or there was no change. -/
theorem Made.frame {tables : AccessTables} {writes others : List AccessWrite}
    (h : Made tables tables userId groups writes organizationId)
    (hlocked : Untouched userId organizationId writes ∨ Untouched userId organizationId others) :
    Made tables (accessTransactions.applyAll others tables) userId groups writes
      organizationId := by
  by_cases huntouched : Untouched userId organizationId writes
  · rcases h.written rfl huntouched with ⟨hupsert, hremoval⟩
    refine ⟨?_, fun _ _ => ⟨hupsert, hremoval⟩⟩
    rw [huntouched.rolesAfter, changedRole, hupsert]
    simp [hremoval]
  · have hothers := hlocked.resolve_left huntouched
    have hsame : membershipRole (accessTransactions.applyAll others tables) userId organizationId
        = membershipRole tables userId organizationId := by
      rw [membershipRole_applyAll, hothers.rolesAfter]
    refine ⟨?_, fun _ hnot => absurd hnot huntouched⟩
    rw [hsame]
    exact h.role

/-- The commit of another synchronization: one that has read the memberships goes on from what
it read, one that has not will read what was committed. -/
theorem Synchronizes.frame {tables : AccessTables} {groups groups' : List Text}
    {client other : AccessClient} (h : Synchronizes tables tables userId groups client)
    (hother : Synchronizes tables tables userId groups' other)
    (hcompatible : TransactionSystem.Compatible client other) :
    Synchronizes (if client.next.hasReadMemberships then tables
        else accessTransactions.applyAll other.writes tables)
      (accessTransactions.applyAll other.writes tables) userId groups client := by
  -- of two that run beside each other one leaves the membership alone
  have hlocked : ∀ organizationId, Untouched userId organizationId client.writes
      ∨ Untouched userId organizationId other.writes := by
    intro organizationId
    by_cases huntouched : Untouched userId organizationId client.writes
    · exact .inl huntouched
    refine .inr fun write hwrite => ?_
    rw [Bool.eq_false_iff]
    intro htouches
    refine huntouched fun mine hmine => ?_
    rw [Bool.eq_false_iff]
    intro htouched
    exact hcompatible.not_exclusive (h.locked mine hmine _ htouched)
      (hother.locked write hwrite _ htouches)
  -- so what the client has made stays made
  have hmade : ∀ organizationId, Made tables tables userId groups client.writes organizationId →
      Made tables (accessTransactions.applyAll other.writes tables) userId groups client.writes
        organizationId :=
    fun organizationId hmade => hmade.frame (hlocked organizationId)
  refine ⟨h.syncs, h.locked, ?_⟩
  have hstage := h.stage
  rcases client with ⟨id, locks, writes, next⟩
  cases next with
  | replaceGroups user names | listMappings user names =>
    exact ⟨hstage.1, hstage.2.1, rfl, hstage.2.2.2⟩
  | listMemberships user names mappings =>
    rcases hstage with ⟨huser, hnames, -, hmappings, huntouched⟩
    exact ⟨huser, hnames, rfl, hmappings.trans (mappings_applyAll tables hother.syncs).symm,
      huntouched⟩
  | changeMembership user upserts removals changed =>
    refine ⟨hstage.1, fun organizationId => ?_⟩
    rcases hstage.2 organizationId with hpending | hdone
    · exact .inl hpending
    · exact .inr ⟨hdone.upsert, hdone.removal, hmade organizationId hdone.made⟩
  | selectProjects | lockProjects | advanceEpochs | commit =>
    exact fun organizationId => hmade organizationId (hstage organizationId)
  | _ => exact hstage.elim

/-! ## Results -/

/-- A synchronization that has nothing to change. -/
structure Idle (tables : AccessTables) (userId : Uuid) (groups : List Text)
    (client : AccessClient) : Prop where
  writes : ∀ write ∈ client.writes, ∃ removed inserted,
    write = .replaceUserGroups removed inserted
  next : client.next = .replaceGroups userId groups ∨ client.next = .listMappings userId groups
    ∨ client.next = .listMemberships userId groups tables.organizationGroupMappings
    ∨ client.next = .selectProjects [] ∨ client.next = .commit

theorem Idle.done {tables : AccessTables}
    (hnothing : decidedUpserts tables userId groups = [] ∧ decidedRemovals tables userId groups = [])
    {new : List AccessWrite} (h : Idle tables userId groups client)
    (hexecute : AccessStep.execute tables choice client.next = .done locks new next) :
    Idle tables userId groups { client with
      locks := client.locks ++ locks, writes := client.writes ++ new, next } := by
  have hkept : ∀ write ∈ client.writes ++ [], ∃ removed inserted,
      write = .replaceUserGroups removed inserted := by
    rw [List.append_nil]
    exact h.writes
  rcases h.next with hnext | hnext | hnext | hnext | hnext
  · rw [hnext] at hexecute
    simp only [AccessStep.execute] at hexecute
    split at hexecute
    · cases hexecute
      refine ⟨fun write hwrite => ?_, .inr (.inl rfl)⟩
      rcases List.mem_append.mp hwrite with hold | hnew
      · exact h.writes write hold
      · exact ⟨_, _, List.mem_singleton.mp hnew⟩
    · cases hexecute
  · rw [hnext] at hexecute
    cases hexecute
    exact ⟨hkept, .inr (.inr (.inl rfl))⟩
  · rw [hnext] at hexecute
    have hupserts : membershipUpserts (membershipRoles tables userId)
        (desiredRoles tables.organizationGroupMappings groups) = [] := hnothing.1
    have hremovals : membershipRemovals (membershipRoles tables userId)
        (desiredRoles tables.organizationGroupMappings groups)
        (tables.organizationGroupMappings.map (·.organizationId)) = [] := hnothing.2
    simp only [AccessStep.execute, hupserts, hremovals] at hexecute
    cases hexecute
    exact ⟨hkept, .inr (.inr (.inr (.inl rfl)))⟩
  · rw [hnext] at hexecute
    cases hexecute
    exact ⟨hkept, .inr (.inr (.inr (.inr rfl)))⟩
  · rw [hnext] at hexecute
    cases hexecute

end Toss.Access
