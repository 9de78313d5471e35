import Mathlib.Data.List.MinMax
import Toss.Access.EpochAdvance
import Toss.Foundation.Entries

/-!
# The roles that groups give

What `sync_oidc_identity_groups` decides from the mappings and the memberships it has read,
organization by organization.

* `syncedRole` — the role that a user should have after a synchronization;
* `changedRole` — what the decided changes make of a membership;
* `changedRole_eq` — the two agree on the memberships that were read.
-/

namespace Toss.Access

open Toss.Foundation

/-- The role in an organization, if there is a membership. -/
def membershipRole (tables : AccessTables) (userId organizationId : Uuid) :
    Option OrganizationRole :=
  (tables.organizationMemberships.find? fun membership =>
    membership.organizationId = organizationId ∧ membership.userId = userId).map (·.role)

/-! ## The law -/

/-- The highest role that an organization gives to one of the groups. -/
def mappedRole (mappings : List OrganizationGroupMapping) (groups : List Text)
    (organizationId : Uuid) : Option OrganizationRole :=
  ((mappings.filter fun mapping =>
    mapping.organizationId = organizationId ∧ mapping.groupName ∈ groups).map
    (·.role)).argmax OrganizationRole.rank

def IsMapped (mappings : List OrganizationGroupMapping) (organizationId : Uuid) : Prop :=
  ∃ mapping ∈ mappings, mapping.organizationId = organizationId

instance (mappings : List OrganizationGroupMapping) (organizationId : Uuid) :
    Decidable (IsMapped mappings organizationId) :=
  inferInstanceAs (Decidable (∃ mapping ∈ mappings, mapping.organizationId = organizationId))

theorem lookup_updateWhere (organizationId target : Uuid) (role : OrganizationRole)
    (desired : List (Uuid × OrganizationRole)) :
    (updateWhere (·.1 = target) (fun entry => (entry.1, role)) desired).lookup organizationId
      = if organizationId = target then (desired.lookup organizationId).map fun _ => role
        else desired.lookup organizationId := by
  induction desired with
  | nil => simp [updateWhere]
  | cons entry desired ih =>
    rcases entry with ⟨other, old⟩
    simp only [updateWhere, List.map_cons] at ih ⊢
    by_cases hsame : organizationId = other
    · subst hsame
      by_cases htarget : organizationId = target
      · simp [htarget]
      · simp [htarget]
    · have hne : (organizationId == other) = false := beq_eq_false_iff_ne.mpr hsame
      by_cases htarget : other = target
      · simp only [htarget, decide_true, if_true, List.lookup_cons]
        rw [← htarget, hne]
        simpa [htarget] using ih
      · simp only [htarget, decide_false, Bool.false_eq_true, if_false, List.lookup_cons, hne]
        exact ih

theorem lookup_append_singleton (organizationId target : Uuid) (role : OrganizationRole)
    (desired : List (Uuid × OrganizationRole)) :
    (desired ++ [(target, role)]).lookup organizationId
      = (desired.lookup organizationId).or (if organizationId = target then some role else none) := by
  rw [List.lookup_append]
  congr 1
  by_cases hsame : organizationId = target
  · simp [hsame]
  · have hne : (organizationId == target) = false := beq_eq_false_iff_ne.mpr hsame
    simp [List.lookup_cons, hne, hsame]

/-- One mapping: its role counts for its organization if it is higher. -/
theorem lookup_addDesiredRole (desired : List (Uuid × OrganizationRole))
    (mapping : OrganizationGroupMapping) (organizationId : Uuid) :
    (addDesiredRole desired mapping).lookup organizationId
      = if organizationId = mapping.organizationId then
          List.argAux (fun b c => OrganizationRole.rank c < OrganizationRole.rank b)
            (desired.lookup organizationId) mapping.role
        else desired.lookup organizationId := by
  rw [addDesiredRole]
  split
  · next hnone =>
    rw [lookup_append_singleton]
    split
    · next hsame =>
      rw [hsame, hnone]
      rfl
    · exact Option.or_none
  · next current hcurrent =>
    split
    · next hhigher =>
      rw [lookup_updateWhere]
      split
      · next hsame =>
        rw [hsame, hcurrent]
        simp [List.argAux, hhigher]
      · rfl
    · next hnot =>
      split
      · next hsame =>
        rw [hsame, hcurrent]
        simp [List.argAux, hnot]
      · rfl

theorem lookup_desiredRoles (mappings : List OrganizationGroupMapping) (groups : List Text)
    (organizationId : Uuid) :
    (desiredRoles mappings groups).lookup organizationId
      = mappedRole mappings groups organizationId := by
  have hsame : ∀ found : List OrganizationGroupMapping,
      (found.foldl addDesiredRole []).lookup organizationId
        = ((found.filter fun mapping => mapping.organizationId = organizationId).map
            (·.role)).argmax OrganizationRole.rank := by
    intro found
    -- the mappings are taken one after another, the last of them last
    induction found using List.reverseRecOn with
    | nil => rfl
    | append_singleton found mapping ih =>
      rw [List.foldl_append, List.foldl_cons, List.foldl_nil, lookup_addDesiredRole, ih,
        List.filter_append]
      by_cases horganization : mapping.organizationId = organizationId
      · rw [if_pos horganization.symm, List.filter_singleton]
        simp only [horganization, decide_true, cond_true, List.map_append, List.map_singleton]
        rw [List.argmax_concat]
        rfl
      · rw [if_neg (Ne.symm horganization), List.filter_singleton]
        simp [horganization]
  rw [desiredRoles, hsame, mappedRole, List.filter_filter]
  simp [List.contains_eq_mem]

theorem nodup_desiredRoles (mappings : List OrganizationGroupMapping) (groups : List Text) :
    ((desiredRoles mappings groups).map Prod.fst).Nodup := by
  have hstep : ∀ (desired : List (Uuid × OrganizationRole)) (mapping : OrganizationGroupMapping),
      (desired.map Prod.fst).Nodup → ((addDesiredRole desired mapping).map Prod.fst).Nodup := by
    intro desired mapping hnodup
    rw [addDesiredRole]
    split
    · next hnone =>
      rw [List.map_append, List.map_singleton]
      refine List.nodup_append.mpr ⟨hnodup, List.nodup_singleton _, ?_⟩
      intro a ha b hb
      rcases List.mem_map.mp ha with ⟨entry, hentry, rfl⟩
      rcases List.mem_singleton.mp hb with rfl
      intro hsame
      have hnot := List.lookup_eq_none_iff.mp hnone entry hentry
      simp [hsame] at hnot
    · split
      · rw [map_updateWhere]
        · exact hnodup
        · intro entry _
          rfl
      · exact hnodup
  rw [desiredRoles]
  generalize mappings.filter _ = found
  induction found using List.reverseRecOn with
  | nil => exact List.nodup_nil
  | append_singleton found mapping ih =>
    rw [List.foldl_append]
    exact hstep _ mapping ih

/-! ## The changes -/

/-- The primary key of `organization_memberships`. -/
def MembershipsKeyed (tables : AccessTables) : Prop :=
  (memberKeys tables).Nodup

theorem lookup_membershipRoles (tables : AccessTables) (userId organizationId : Uuid) :
    (membershipRoles tables userId).lookup organizationId
      = membershipRole tables userId organizationId := by
  rw [membershipRoles, membershipRole]
  induction tables.organizationMemberships with
  | nil => rfl
  | cons membership memberships ih =>
    rw [List.filter_cons, List.find?_cons]
    by_cases huser : membership.userId = userId
    · by_cases horganization : membership.organizationId = organizationId
      · simp [huser, horganization]
      · have hne : (organizationId == membership.organizationId) = false :=
          beq_eq_false_iff_ne.mpr (Ne.symm horganization)
        simp only [huser, horganization, decide_true, if_true, List.map_cons, List.lookup_cons, hne,
          false_and, decide_false]
        exact ih
    · simp only [huser, decide_false, Bool.false_eq_true, if_false, and_false]
      exact ih

variable {tables : AccessTables}

theorem nodup_membershipRoles (h : MembershipsKeyed tables)
    (userId : Uuid) : ((membershipRoles tables userId).map Prod.fst).Nodup := by
  rw [membershipRoles, List.map_map]
  have hrows : tables.organizationMemberships.Nodup := List.Nodup.of_map _ h
  refine (hrows.filter _).map_on ?_
  intro row hrow other hother hsame
  rcases List.mem_filter.mp hrow with ⟨hmem, huser⟩
  rcases List.mem_filter.mp hother with ⟨hmem', huser'⟩
  refine List.inj_on_of_nodup_map h hmem hmem' ?_
  rw [of_decide_eq_true huser, of_decide_eq_true huser']
  exact Prod.ext hsame rfl

/-- What the changes make of a membership, as the statements on it are: neither changes an
owner. -/
def changedRole (upserts : List (Uuid × OrganizationRole)) (removals : List Uuid)
    (organizationId : Uuid) (before : Option OrganizationRole) : Option OrganizationRole :=
  if before = some .owner then before
  else match upserts.lookup organizationId with
    | some role => some role
    | none => if organizationId ∈ removals then none else before

/-- The changes that were decided when `tables` were read. -/
def decidedUpserts (tables : AccessTables) (userId : Uuid) (groups : List Text) :
    List (Uuid × OrganizationRole) :=
  membershipUpserts (membershipRoles tables userId)
    (desiredRoles tables.organizationGroupMappings groups)

def decidedRemovals (tables : AccessTables) (userId : Uuid) (groups : List Text) : List Uuid :=
  membershipRemovals (membershipRoles tables userId)
    (desiredRoles tables.organizationGroupMappings groups)
    (tables.organizationGroupMappings.map (·.organizationId))

theorem lookup_decidedUpserts (tables : AccessTables) (userId : Uuid) (groups : List Text)
    (organizationId : Uuid) :
    (decidedUpserts tables userId groups).lookup organizationId
      = (mappedRole tables.organizationGroupMappings groups organizationId).filter fun role =>
          membershipRoleNeedsUpsert (membershipRole tables userId organizationId) role := by
  rw [decidedUpserts, membershipUpserts, lookup_filter (nodup_desiredRoles _ _),
    lookup_desiredRoles]
  simp only [lookup_membershipRoles]

theorem mem_decidedRemovals (h : MembershipsKeyed tables) {userId : Uuid}
    {groups : List Text} {organizationId : Uuid} :
    organizationId ∈ decidedRemovals tables userId groups
      ↔ (∃ role, membershipRole tables userId organizationId = some role ∧ role ≠ .owner)
        ∧ mappedRole tables.organizationGroupMappings groups organizationId = none
        ∧ IsMapped tables.organizationGroupMappings organizationId := by
  rw [decidedRemovals, membershipRemovals, List.mem_map]
  have hcurrent : ∀ role, (organizationId, role) ∈ membershipRoles tables userId
      ↔ membershipRole tables userId organizationId = some role := by
    intro role
    rw [← lookup_membershipRoles]
    exact (lookup_eq_some_iff (nodup_membershipRoles h userId)).symm
  constructor
  · rintro ⟨⟨other, role⟩, hmem, rfl⟩
    rcases List.mem_filter.mp hmem with ⟨hrole, hkeep⟩
    simp only [lookup_desiredRoles, Bool.not_eq_true', Bool.or_eq_false_iff, decide_eq_false_iff_not,
      Option.isSome_eq_false_iff, Option.isNone_iff_eq_none, Bool.not_eq_false',
      List.contains_iff_mem, List.mem_map] at hkeep
    exact ⟨⟨role, (hcurrent role).mp hrole, hkeep.1.1⟩, hkeep.1.2, hkeep.2⟩
  · rintro ⟨⟨role, hrole, howner⟩, hnone, hmapped⟩
    refine ⟨(organizationId, role), List.mem_filter.mpr ⟨(hcurrent role).mpr hrole, ?_⟩, rfl⟩
    simp only [lookup_desiredRoles, Bool.not_eq_true', Bool.or_eq_false_iff, decide_eq_false_iff_not,
      Option.isSome_eq_false_iff, Option.isNone_iff_eq_none, Bool.not_eq_false',
      List.contains_iff_mem, List.mem_map]
    exact ⟨⟨howner, hnone⟩, hmapped⟩

end Toss.Access
