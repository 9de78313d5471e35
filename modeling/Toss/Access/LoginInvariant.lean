import Toss.Access.LoginMethods

/-!
# Accounts and their login methods

Each identity is of one account, an account has one identity per authority, and the identity
and the grant it has at a provider are of the same subject. Whoever binds or removes an identity
of a user holds the user's row, and whoever stores or removes a grant holds the row of the grant,
so what a client has counted or compared is still there when it commits.

* `LoginsSound` — the invariant of the tables;
* `LoginSettled` — what a transaction that is about to commit has written;
* `LoginFrame` — what its commit leaves to the others;
* `LoginKnown` — what a client knows at each of its statements;
* `loginKnown_frame` — the commits of others do not change it.
-/

namespace Toss.Access

open Toss.Foundation

/-! ## The tables -/

/-- The login identity and the grant of an account and provider belong to the same subject. -/
def SubjectsAgree (tables : LoginTables) : Prop :=
  ∀ identity ∈ tables.identities, identity.authorityKind = .externalGit →
    ∀ grant ∈ tables.oauthGrants, grant.key = (identity.userId, identity.authorityId) →
      grant.providerAccountId = identity.subject

def HasLoginMethod (tables : LoginTables) (userId : Uuid) : Prop :=
  (∃ identity ∈ tables.identities, identity.userId = userId) ∨ userId ∈ tables.localAccounts

structure LoginsSound (loginEnabled : Text → Bool) (tables : LoginTables) : Prop where
  constrained : tables.Constrained
  /-- Only providers that take logins have bound identities. -/
  enabled : ∀ identity ∈ tables.identities, identity.authorityKind = .externalGit →
    loginEnabled identity.authorityId = true
  agree : SubjectsAgree tables

/-- Every identity that the user has at the provider is of the account. -/
def IdentitiesAre (tables : LoginTables) (userId : Uuid) (provider accountId : Text) : Prop :=
  ∀ identity ∈ tables.identities, identity.userAuthority = (userId, .externalGit, provider) →
    identity.subject = accountId

theorem LoginStep.userExists_iff {tables : LoginTables} {userId : Uuid} :
    userExists tables userId = true ↔ ∃ user ∈ tables.users, user.id = userId := by
  simp [userExists]

namespace LoginsSound

variable {loginEnabled : Text → Bool} {tables : LoginTables}

/-- Where a grant is stored, every identity at the provider is of its account. -/
theorem identitiesAre (h : LoginsSound loginEnabled tables) {grant : OAuthGrantRow}
    (hgrant : grant ∈ tables.oauthGrants) :
    IdentitiesAre tables grant.userId grant.providerInstanceId grant.providerAccountId := by
  intro identity hidentity hauthority
  simp only [LoginIdentityRow.userAuthority, Prod.mk.injEq] at hauthority
  rcases hauthority with ⟨huser, hkind, hprovider⟩
  exact (h.agree identity hidentity hkind grant hgrant (by
    rw [OAuthGrantRow.key, huser, hprovider])).symm

/-- One identity at the provider tells them all. -/
theorem identitiesAre_of_mem (h : LoginsSound loginEnabled tables) {userId : Uuid}
    {provider accountId : Text}
    (hmem : ⟨userId, .externalGit, provider, accountId⟩ ∈ tables.identities) :
    IdentitiesAre tables userId provider accountId := by
  intro identity hidentity hauthority
  have hsame := List.inj_on_of_nodup_map h.constrained.identitiesUserAuthority hidentity hmem
    hauthority
  rw [hsame]

/-! ## One write at a time -/

theorem insertUser (h : LoginsSound loginEnabled tables) (user : LoginUserRow) :
    LoginsSound loginEnabled ((LoginWrite.insertUser user).apply tables) where
  constrained :=
    { h.constrained with
      identityUser := by
        intro row hrow
        rcases h.constrained.identityUser row hrow with ⟨other, hother, hid⟩
        exact ⟨other, List.mem_append_left _ hother, hid⟩
      grantUser := by
        intro row hrow
        rcases h.constrained.grantUser row hrow with ⟨other, hother, hid⟩
        exact ⟨other, List.mem_append_left _ hother, hid⟩ }
  enabled := h.enabled
  agree := h.agree

theorem nodup_map_append_singleton {α β : Type*} {f : α → β} {l : List α} {a : α}
    (hnodup : (l.map f).Nodup) (hfresh : ∀ b ∈ l, f b ≠ f a) : ((l ++ [a]).map f).Nodup := by
  rw [List.map_append, List.map_singleton, List.nodup_append]
  refine ⟨hnodup, List.nodup_singleton _, ?_⟩
  intro b hb c hc
  rcases List.mem_map.mp hb with ⟨other, hother, rfl⟩
  rcases List.mem_singleton.mp hc with rfl
  exact hfresh other hother

theorem insertIdentity (h : LoginsSound loginEnabled tables) {row : LoginIdentityRow}
    (huser : ∃ user ∈ tables.users, user.id = row.userId)
    (hkey : ∀ other ∈ tables.identities, other.key ≠ row.key)
    (hauthority : ∀ other ∈ tables.identities, other.userAuthority ≠ row.userAuthority)
    (henabled : row.authorityKind = .externalGit → loginEnabled row.authorityId = true)
    (hagree : row.authorityKind = .externalGit → ∀ grant ∈ tables.oauthGrants,
      grant.key = (row.userId, row.authorityId) → grant.providerAccountId = row.subject) :
    LoginsSound loginEnabled ((LoginWrite.insertIdentity row).apply tables) where
  constrained :=
    { h.constrained with
      identitiesKey := nodup_map_append_singleton h.constrained.identitiesKey hkey
      identitiesUserAuthority :=
        nodup_map_append_singleton h.constrained.identitiesUserAuthority hauthority
      identityUser := by
        intro identity hidentity
        rcases List.mem_append.mp hidentity with hold | hnew
        · exact h.constrained.identityUser identity hold
        · rcases List.mem_singleton.mp hnew with rfl
          exact huser }
  enabled := by
    intro identity hidentity
    rcases List.mem_append.mp hidentity with hold | hnew
    · exact h.enabled identity hold
    · rcases List.mem_singleton.mp hnew with rfl
      exact henabled
  agree := by
    intro identity hidentity
    rcases List.mem_append.mp hidentity with hold | hnew
    · exact h.agree identity hold
    · rcases List.mem_singleton.mp hnew with rfl
      exact hagree

theorem insertGrant (h : LoginsSound loginEnabled tables) {row : OAuthGrantRow}
    (huser : ∃ user ∈ tables.users, user.id = row.userId)
    (hkey : ∀ other ∈ tables.oauthGrants, other.key ≠ row.key)
    (hidentities : IdentitiesAre tables row.userId row.providerInstanceId row.providerAccountId) :
    LoginsSound loginEnabled ((LoginWrite.insertGrant row).apply tables) where
  constrained :=
    { h.constrained with
      grantsKey := nodup_map_append_singleton h.constrained.grantsKey hkey
      grantUser := by
        intro grant hgrant
        rcases List.mem_append.mp hgrant with hold | hnew
        · exact h.constrained.grantUser grant hold
        · rcases List.mem_singleton.mp hnew with rfl
          exact huser }
  enabled := h.enabled
  agree := by
    intro identity hidentity hkind grant hgrant hsame
    rcases List.mem_append.mp hgrant with hold | hnew
    · exact h.agree identity hidentity hkind grant hold hsame
    rcases List.mem_singleton.mp hnew with rfl
    simp only [OAuthGrantRow.key, Prod.mk.injEq] at hsame
    refine (hidentities identity hidentity ?_).symm
    rw [LoginIdentityRow.userAuthority, hkind, hsame.1, hsame.2]

theorem removeIdentity (h : LoginsSound loginEnabled tables) (row : LoginIdentityRow) :
    LoginsSound loginEnabled ((LoginWrite.removeIdentity row).apply tables) where
  constrained :=
    { h.constrained with
      identitiesKey := h.constrained.identitiesKey.sublist (List.filter_sublist.map _)
      identitiesUserAuthority :=
        h.constrained.identitiesUserAuthority.sublist (List.filter_sublist.map _)
      identityUser := fun identity hidentity =>
        h.constrained.identityUser identity (List.mem_of_mem_filter hidentity) }
  enabled := fun identity hidentity => h.enabled identity (List.mem_of_mem_filter hidentity)
  agree := fun identity hidentity => h.agree identity (List.mem_of_mem_filter hidentity)

theorem removeGrant (h : LoginsSound loginEnabled tables) (key : Uuid × Text) :
    LoginsSound loginEnabled ((LoginWrite.removeGrant key).apply tables) where
  constrained :=
    { h.constrained with
      grantsKey := h.constrained.grantsKey.sublist (List.filter_sublist.map _)
      grantUser := fun grant hgrant =>
        h.constrained.grantUser grant (List.mem_of_mem_filter hgrant) }
  enabled := h.enabled
  agree := fun identity hidentity hkind grant hgrant =>
    h.agree identity hidentity hkind grant (List.mem_of_mem_filter hgrant)

end LoginsSound

/-! ## What a transaction has written -/

/-- The client holds the row of the grant, which is stored or is its only write. -/
structure GrantHeld (tables : LoginTables) (locks : List (Lock LoginKey))
    (writes : List LoginWrite) (userId : Uuid) (provider accountId : Text) : Prop where
  lock : LoginStep.exclusive (.grant (userId, provider)) ∈ locks
  user : ∃ user ∈ tables.users, user.id = userId
  stored : (writes = [] ∧ ⟨userId, provider, accountId⟩ ∈ tables.oauthGrants)
    ∨ (writes = [.insertGrant ⟨userId, provider, accountId⟩]
      ∧ ∀ grant ∈ tables.oauthGrants, grant.key ≠ (userId, provider))

/-- The user has a login method beside the identity. -/
def HasOtherMethod (tables : LoginTables) (userId : Uuid)
    (key : LoginAuthorityKind × Text × Text) : Prop :=
  (∃ identity ∈ tables.identities, identity.userId = userId ∧ identity.key ≠ key)
    ∨ userId ∈ tables.localAccounts

/-- A user who is not there yet, and his identity. -/
structure NewAccount (loginEnabled : Text → Bool) (tables : LoginTables)
    (locks : List (Lock LoginKey)) (user : LoginUserRow) (identity : LoginIdentityRow) : Prop where
  lock : LoginStep.exclusive (.user user.id) ∈ locks
  new : ∀ other ∈ tables.users, other.id ≠ user.id
  same : identity.userId = user.id
  keyLock : LoginStep.exclusive (.identity identity.key) ∈ locks
  fresh : ∀ other ∈ tables.identities, other.key ≠ identity.key
  enabled : identity.authorityKind = .externalGit → loginEnabled identity.authorityId = true

/-- An identity that is bound to a user, who is locked. -/
structure NewIdentity (loginEnabled : Text → Bool) (tables : LoginTables)
    (locks : List (Lock LoginKey)) (userId : Uuid) (provider accountId : Text) : Prop where
  lock : LoginStep.exclusive (.user userId) ∈ locks
  keyLock : LoginStep.exclusive (.identity (.externalGit, provider, accountId)) ∈ locks
  fresh : ∀ other ∈ tables.identities, other.key ≠ (.externalGit, provider, accountId)
  first : ∀ other ∈ tables.identities, other.userAuthority ≠ (userId, .externalGit, provider)
  enabled : loginEnabled provider = true

/-- What a transaction has written when it is about to commit. -/
inductive LoginSettled (loginEnabled : Text → Bool) (tables : LoginTables)
    (locks : List (Lock LoginKey)) : List LoginWrite → Prop
  | nothing : LoginSettled loginEnabled tables locks []
  | account {user : LoginUserRow} {identity : LoginIdentityRow}
      (haccount : NewAccount loginEnabled tables locks user identity) :
      LoginSettled loginEnabled tables locks [.insertUser user, .insertIdentity identity]
  | grant {userId : Uuid} {provider accountId : Text}
      (hheld : GrantHeld tables locks [.insertGrant ⟨userId, provider, accountId⟩] userId provider
        accountId)
      (hidentities : IdentitiesAre tables userId provider accountId) :
      LoginSettled loginEnabled tables locks [.insertGrant ⟨userId, provider, accountId⟩]
  | identity {userId : Uuid} {provider accountId : Text} {writes : List LoginWrite}
      (hheld : GrantHeld tables locks writes userId provider accountId)
      (hidentity : NewIdentity loginEnabled tables locks userId provider accountId) :
      LoginSettled loginEnabled tables locks
        (writes ++ [.insertIdentity ⟨userId, .externalGit, provider, accountId⟩])
  | removedGrant {userId : Uuid} {provider : Text}
      (hgrant : LoginStep.exclusive (.grant (userId, provider)) ∈ locks)
      (huser : LoginStep.exclusive (.user userId) ∈ locks)
      (hexists : ∃ user ∈ tables.users, user.id = userId)
      (hnone : ∀ identity ∈ tables.identities,
        identity.userAuthority ≠ (userId, .externalGit, provider)) :
      LoginSettled loginEnabled tables locks [.removeGrant (userId, provider)]
  | removedIdentity {userId : Uuid} {provider accountId : Text}
      (hgrant : LoginStep.exclusive (.grant (userId, provider)) ∈ locks)
      (huser : LoginStep.exclusive (.user userId) ∈ locks)
      (hexists : ∃ user ∈ tables.users, user.id = userId)
      (hidentities : IdentitiesAre tables userId provider accountId)
      (hother : HasOtherMethod tables userId (.externalGit, provider, accountId)) :
      LoginSettled loginEnabled tables locks
        [.removeIdentity ⟨userId, .externalGit, provider, accountId⟩,
          .removeGrant (userId, provider)]

/-- Where the account is new, no row is of its user. -/
theorem NewAccount.no_row {loginEnabled : Text → Bool} {tables : LoginTables}
    {locks : List (Lock LoginKey)} {user : LoginUserRow} {identity : LoginIdentityRow}
    (h : NewAccount loginEnabled tables locks user identity)
    (hconstrained : tables.Constrained) :
    (∀ other ∈ tables.identities, other.userId ≠ identity.userId)
      ∧ ∀ grant ∈ tables.oauthGrants, grant.userId ≠ identity.userId := by
  constructor
  · intro other hother hsame
    rcases hconstrained.identityUser other hother with ⟨row, hrow, hid⟩
    refine h.new row hrow ?_
    calc row.id = other.userId := hid
      _ = identity.userId := hsame
      _ = user.id := h.same
  · intro grant hgrant hsame
    rcases hconstrained.grantUser grant hgrant with ⟨row, hrow, hid⟩
    refine h.new row hrow ?_
    calc row.id = grant.userId := hid
      _ = identity.userId := hsame
      _ = user.id := h.same

section

variable {loginEnabled : Text → Bool} {tables : LoginTables} {locks : List (Lock LoginKey)}
  {writes : List LoginWrite}

/-- A grant that is held is stored once the transaction has written. -/
theorem GrantHeld.sound {userId : Uuid} {provider accountId : Text}
    (h : GrantHeld tables locks writes userId provider accountId)
    (hsound : LoginsSound loginEnabled tables)
    (hidentities : IdentitiesAre tables userId provider accountId) :
    LoginsSound loginEnabled ((loginTransactions loginEnabled).applyAll writes tables) := by
  rcases h.stored with ⟨rfl, -⟩ | ⟨rfl, hnone⟩
  · exact hsound
  · exact hsound.insertGrant h.user hnone hidentities

variable (loginEnabled) in
theorem GrantHeld.applyAll {userId : Uuid} {provider accountId : Text}
    (h : GrantHeld tables locks writes userId provider accountId) :
    ((loginTransactions loginEnabled).applyAll writes tables).users = tables.users
      ∧ ((loginTransactions loginEnabled).applyAll writes tables).identities = tables.identities
      ∧ ((loginTransactions loginEnabled).applyAll writes tables).localAccounts
        = tables.localAccounts
      ∧ (∀ grant ∈ tables.oauthGrants,
        grant ∈ ((loginTransactions loginEnabled).applyAll writes tables).oauthGrants)
      ∧ (⟨userId, provider, accountId⟩
        ∈ ((loginTransactions loginEnabled).applyAll writes tables).oauthGrants)
      ∧ ∀ grant ∈ ((loginTransactions loginEnabled).applyAll writes tables).oauthGrants,
        grant ∈ tables.oauthGrants ∨ grant = ⟨userId, provider, accountId⟩ := by
  rcases h.stored with ⟨rfl, hstored⟩ | ⟨rfl, -⟩
  · exact ⟨rfl, rfl, rfl, fun _ => id, hstored, fun _ => .inl⟩
  refine ⟨rfl, rfl, rfl, fun _ => List.mem_append_left _,
    List.mem_append_right _ List.mem_cons_self, ?_⟩
  intro grant hgrant
  rcases List.mem_append.mp hgrant with hold | hnew
  · exact .inl hold
  · exact .inr (List.mem_singleton.mp hnew)

theorem applyAll_append (more : List LoginWrite) :
    (loginTransactions loginEnabled).applyAll (writes ++ more) tables
      = (loginTransactions loginEnabled).applyAll more
          ((loginTransactions loginEnabled).applyAll writes tables) :=
  List.foldl_append

/-- A commit keeps the invariant. -/
theorem LoginSettled.sound (h : LoginSettled loginEnabled tables locks writes)
    (hsound : LoginsSound loginEnabled tables) :
    LoginsSound loginEnabled ((loginTransactions loginEnabled).applyAll writes tables) := by
  cases h with
  | nothing => exact hsound
  | @account user identity haccount =>
    rcases haccount.no_row hsound.constrained with ⟨hnoidentity, hnogrant⟩
    refine (hsound.insertUser user).insertIdentity ?_ haccount.fresh ?_ haccount.enabled ?_
    · exact ⟨user, List.mem_append_right _ List.mem_cons_self, haccount.same.symm⟩
    · intro other hother hsame
      exact hnoidentity other hother (congrArg Prod.fst hsame)
    · intro _ grant hgrant hsame
      exact absurd (congrArg Prod.fst hsame) (hnogrant grant hgrant)
  | grant hheld hidentities => exact hheld.sound hsound hidentities
  | @identity userId provider accountId writes hheld hidentity =>
    have hnone : IdentitiesAre tables userId provider accountId := fun other hother hsame =>
      absurd hsame (hidentity.first other hother)
    rcases hheld.applyAll loginEnabled with
      ⟨husers, hidentities, -, -, hstored, -⟩
    have hafter := hheld.sound hsound hnone
    rw [applyAll_append]
    refine hafter.insertIdentity ?_ ?_ ?_ (fun _ => hidentity.enabled) ?_
    · rw [husers]
      exact hheld.user
    · rw [hidentities]
      exact hidentity.fresh
    · rw [hidentities]
      exact hidentity.first
    · -- the grant that is held is the only one of the user and the provider
      intro _ grant hgrant hsame
      have honly := List.inj_on_of_nodup_map hafter.constrained.grantsKey hgrant hstored hsame
      rw [honly]
  | removedGrant => exact hsound.removeGrant _
  | removedIdentity => exact (hsound.removeIdentity _).removeGrant _

/-! ## What a commit leaves to the others -/

/-- What a commit leaves of what others have seen: the rest is under its locks. -/
structure LoginFrame (locks : List (Lock LoginKey)) (tables tables' : LoginTables) : Prop where
  users : ∀ user ∈ tables.users, user ∈ tables'.users
  newUser : ∀ user ∈ tables'.users, user ∈ tables.users
    ∨ LoginStep.exclusive (.user user.id) ∈ locks
  /-- A new identity is of a new user, or it is bound with the grant in hand. -/
  newIdentity : ∀ identity ∈ tables'.identities, identity ∈ tables.identities
    ∨ (LoginStep.exclusive (.identity identity.key) ∈ locks
      ∧ LoginStep.exclusive (.user identity.userId) ∈ locks
      ∧ ((∀ user ∈ tables.users, user.id ≠ identity.userId)
        ∨ (LoginStep.exclusive (.grant (identity.userId, identity.authorityId)) ∈ locks
          ∧ ⟨identity.userId, identity.authorityId, identity.subject⟩ ∈ tables'.oauthGrants)))
  /-- An identity that is removed is not the last login method. -/
  identity : ∀ identity ∈ tables.identities, identity ∈ tables'.identities
    ∨ (LoginStep.exclusive (.user identity.userId) ∈ locks
      ∧ HasLoginMethod tables' identity.userId)
  newGrant : ∀ grant ∈ tables'.oauthGrants, grant ∈ tables.oauthGrants
    ∨ LoginStep.exclusive (.grant grant.key) ∈ locks
  /-- With a grant, the identities of its user at the provider are removed. -/
  grant : ∀ grant ∈ tables.oauthGrants, grant ∈ tables'.oauthGrants
    ∨ (LoginStep.exclusive (.grant grant.key) ∈ locks
      ∧ ∀ identity ∈ tables'.identities,
        identity.userAuthority ≠ (grant.userId, .externalGit, grant.providerInstanceId))
  localAccounts : tables'.localAccounts = tables.localAccounts

theorem LoginSettled.frame (h : LoginSettled loginEnabled tables locks writes) :
    LoginFrame locks tables ((loginTransactions loginEnabled).applyAll writes tables) := by
  cases h with
  | nothing =>
    exact ⟨fun _ => id, fun _ => .inl, fun _ => .inl, fun _ => .inl, fun _ => .inl, fun _ => .inl,
      rfl⟩
  | @account user identity haccount =>
    -- a new account comes with the identity it is entered by
    refine ⟨fun _ => List.mem_append_left _, ?_, ?_, ?_, fun _ => .inl, fun _ => .inl, rfl⟩
    · intro other hother
      rcases List.mem_append.mp hother with hold | hnew
      · exact .inl hold
      · rcases List.mem_singleton.mp hnew with rfl
        exact .inr haccount.lock
    · intro other hother
      rcases List.mem_append.mp hother with hold | hnew
      · exact .inl hold
      rcases List.mem_singleton.mp hnew with rfl
      refine .inr ⟨haccount.keyLock, ?_, .inl ?_⟩
      · rw [haccount.same]
        exact haccount.lock
      · rw [haccount.same]
        exact haccount.new
    · exact fun other hother => .inl (List.mem_append_left _ hother)
  | @grant userId provider accountId hheld hidentities =>
    -- a grant is stored by whoever holds its lock
    refine ⟨fun _ => id, fun _ => .inl, fun _ => .inl, fun _ => .inl, ?_, ?_, rfl⟩
    · intro grant hgrant
      rcases List.mem_append.mp hgrant with hold | hnew
      · exact .inl hold
      · rcases List.mem_singleton.mp hnew with rfl
        exact .inr hheld.lock
    · exact fun grant hgrant => .inl (List.mem_append_left _ hgrant)
  | @identity userId provider accountId writes hheld hidentity =>
    -- an identity is added under a grant that is held
    rcases hheld.applyAll loginEnabled with
      ⟨husers, hidentities, hlocal, hkept, hstored, hgrants⟩
    rw [applyAll_append]
    refine ⟨?_, ?_, ?_, ?_, ?_, ?_, hlocal⟩
    · intro user huser
      show user ∈ ((loginTransactions loginEnabled).applyAll writes tables).users
      rw [husers]
      exact huser
    · intro user huser
      change user ∈ ((loginTransactions loginEnabled).applyAll writes tables).users at huser
      rw [husers] at huser
      exact .inl huser
    · intro other hother
      rcases List.mem_append.mp hother with hold | hnew
      · rw [hidentities] at hold
        exact .inl hold
      · rcases List.mem_singleton.mp hnew with rfl
        exact .inr ⟨hidentity.keyLock, hidentity.lock, .inr ⟨hheld.lock, hstored⟩⟩
    · intro other hother
      refine .inl (List.mem_append_left _ ?_)
      rw [hidentities]
      exact hother
    · intro grant hgrant
      rcases hgrants grant hgrant with hold | rfl
      · exact .inl hold
      · exact .inr hheld.lock
    · exact fun grant hgrant => .inl (hkept grant hgrant)
  | @removedGrant userId provider hgrant huser hexists hnone =>
    -- nobody enters by the grant that goes
    refine ⟨fun _ => id, fun _ => .inl, fun _ => .inl, fun _ => .inl,
      fun grant hmem => .inl (List.mem_of_mem_filter hmem), ?_, rfl⟩
    intro grant hmem
    by_cases hkey : grant.key = (userId, provider)
    · refine .inr ⟨by rw [hkey]; exact hgrant, ?_⟩
      simp only [OAuthGrantRow.key, Prod.mk.injEq] at hkey
      rw [hkey.1, hkey.2]
      exact hnone
    · exact .inl (List.mem_filter.mpr ⟨hmem, decide_eq_true hkey⟩)
  | @removedIdentity userId provider accountId hgrant huser hexists hidentities hother =>
    -- the user keeps another way to enter
    refine ⟨fun _ => id, fun _ => .inl,
      fun identity hmem => .inl (List.mem_of_mem_filter hmem), ?_,
      fun grant hmem => .inl (List.mem_of_mem_filter hmem), ?_, rfl⟩
    · intro identity hmem
      by_cases hsame : identity.userId = userId
      · rw [hsame]
        refine .inr ⟨huser, ?_⟩
        rcases hother with ⟨other, hother, hid, hkey⟩ | hlocal
        · refine .inl ⟨other, List.mem_filter.mpr ⟨hother, decide_eq_true ?_⟩, hid⟩
          exact fun hremoved => hkey hremoved.2
        · exact .inr hlocal
      · exact .inl (List.mem_filter.mpr
          ⟨hmem, decide_eq_true fun hremoved => hsame hremoved.1⟩)
    · intro grant hmem
      by_cases hkey : grant.key = (userId, provider)
      · refine .inr ⟨by rw [hkey]; exact hgrant, ?_⟩
        simp only [OAuthGrantRow.key, Prod.mk.injEq] at hkey
        rw [hkey.1, hkey.2]
        intro identity hafter hauthority
        rcases List.mem_filter.mp hafter with ⟨hbefore, hkept⟩
        refine of_decide_eq_true hkept ?_
        have hsubject := hidentities identity hbefore hauthority
        simp only [LoginIdentityRow.userAuthority, Prod.mk.injEq] at hauthority
        rcases hauthority with ⟨hid, hkind, hprovider⟩
        exact ⟨hid, by rw [LoginIdentityRow.key, hkind, hprovider, hsubject]; rfl⟩
      · exact .inl (List.mem_filter.mpr ⟨hmem, decide_eq_true hkey⟩)

/-- No commit takes the last login method of a user. -/
theorem LoginFrame.hasLoginMethod {tables' : LoginTables} (h : LoginFrame locks tables tables')
    {userId : Uuid} (hmethod : HasLoginMethod tables userId) :
    HasLoginMethod tables' userId := by
  rcases hmethod with ⟨identity, hidentity, rfl⟩ | hlocal
  · rcases h.identity identity hidentity with hkept | ⟨-, hother⟩
    · exact .inl ⟨identity, hkept, rfl⟩
    · exact hother
  · exact .inr (by rw [h.localAccounts]; exact hlocal)

end

/-! ## What a client knows -/

/-- The client has found the user by the identity of the account: another identity that he has
at the provider now is one that came with its grant. -/
def SignedInAs (tables : LoginTables) (userId : Uuid) (provider accountId : Text) : Prop :=
  (∃ user ∈ tables.users, user.id = userId)
    ∧ ∀ identity ∈ tables.identities, identity.userAuthority = (userId, .externalGit, provider) →
      identity.subject = accountId
        ∨ ⟨userId, provider, identity.subject⟩ ∈ tables.oauthGrants

/-- The identity may be bound. -/
def ProvisionFederatedAccount.Enabled (loginEnabled : Text → Bool)
    (account : ProvisionFederatedAccount) : Prop :=
  account.authorityKind = .externalGit → loginEnabled account.authorityId = true

/-- What a client knows at a statement. -/
def LoginKnown (loginEnabled : Text → Bool) (tables : LoginTables) (locks : List (Lock LoginKey))
    (writes : List LoginWrite) : LoginStep → Prop
  | .findIdentity account | .findBinding account _ | .findUser account | .insertUser account _
  | .findCollided account _ => writes = [] ∧ account.Enabled loginEnabled
  | .insertIdentity account _ userId =>
    account.Enabled loginEnabled ∧ (∃ user, user.id = userId ∧ writes = [.insertUser user])
      ∧ LoginStep.exclusive (.user userId) ∈ locks ∧ ∀ other ∈ tables.users, other.id ≠ userId
  | .commitUser account userId =>
    (∃ user, user.id = userId ∧ writes = [.insertUser user,
        .insertIdentity ⟨userId, account.authorityKind, account.authorityId, account.subject⟩])
      ∧ LoginSettled loginEnabled tables locks writes
  | .upsertGrant userId provider accountId bindLoginIdentity =>
    writes = [] ∧ (bindLoginIdentity = true → loginEnabled provider = true)
      ∧ (bindLoginIdentity = false →
        loginEnabled provider = false ∨ SignedInAs tables userId provider accountId)
  | .lockBoundUser userId provider accountId =>
    loginEnabled provider = true ∧ GrantHeld tables locks writes userId provider accountId
  | .upsertIdentity userId provider accountId =>
    loginEnabled provider = true ∧ GrantHeld tables locks writes userId provider accountId
      ∧ LoginStep.exclusive (.user userId) ∈ locks
  | .lockGrant _ _ => writes = []
  | .inspectLinks userId provider accountId | .lockUser userId provider accountId =>
    writes = [] ∧ GrantHeld tables locks [] userId provider accountId
  | .checkIdentity userId provider accountId | .countOthers userId provider accountId =>
    writes = [] ∧ GrantHeld tables locks [] userId provider accountId
      ∧ LoginStep.exclusive (.user userId) ∈ locks
  | .deleteIdentity userId provider accountId =>
    writes = [] ∧ GrantHeld tables locks [] userId provider accountId
      ∧ LoginStep.exclusive (.user userId) ∈ locks
      ∧ HasOtherMethod tables userId (.externalGit, provider, accountId)
  | .deleteGrant userId provider =>
    LoginSettled loginEnabled tables locks (writes ++ [.removeGrant (userId, provider)])
  | .commit => LoginSettled loginEnabled tables locks writes

def LoginSound (loginEnabled : Text → Bool) (tables : LoginTables) (client : LoginClient) : Prop :=
  LoginKnown loginEnabled tables client.locks client.writes client.next

/-! ### The commits of others -/

section

variable {loginEnabled : Text → Bool} {tables tables' : LoginTables} {client other : LoginClient}
  {writes : List LoginWrite} {userId : Uuid} {provider accountId : Text}

variable (hcompatible : TransactionSystem.Compatible client other)
  (hframe : LoginFrame client.locks tables tables')
include hcompatible hframe

/-- A grant and its user are as they were while the grant is locked. -/
theorem GrantHeld.frame (h : GrantHeld tables other.locks writes userId provider accountId) :
    GrantHeld tables' other.locks writes userId provider accountId := by
  refine ⟨h.lock, ?_, ?_⟩
  · rcases h.user with ⟨user, huser, hid⟩
    exact ⟨user, hframe.users user huser, hid⟩
  · rcases h.stored with ⟨hwrites, hstored⟩ | ⟨hwrites, hnone⟩
    · rcases hframe.grant _ hstored with hkept | ⟨hheld, -⟩
      · exact .inl ⟨hwrites, hkept⟩
      · exact (hcompatible.not_exclusive hheld h.lock).elim
    · refine .inr ⟨hwrites, ?_⟩
      intro grant hgrant hkey
      rcases hframe.newGrant grant hgrant with hold | hheld
      · exact hnone grant hold hkey
      · rw [hkey] at hheld
        exact hcompatible.not_exclusive hheld h.lock

/-- While the grant of a user is locked, no identity is bound to him at the provider. -/
theorem not_bound_of_locked (hlock : LoginStep.exclusive (.grant (userId, provider)) ∈ other.locks)
    (huser : ∃ user ∈ tables.users, user.id = userId) {identity : LoginIdentityRow}
    (hidentity : identity ∈ tables'.identities)
    (hauthority : identity.userAuthority = (userId, .externalGit, provider)) :
    identity ∈ tables.identities := by
  rcases hframe.newIdentity identity hidentity with hold | ⟨-, -, hnew | ⟨hheld, -⟩⟩
  · exact hold
  · simp only [LoginIdentityRow.userAuthority, Prod.mk.injEq] at hauthority
    rcases huser with ⟨user, huser, hid⟩
    exact absurd (hid.trans hauthority.1.symm) (hnew user huser)
  · simp only [LoginIdentityRow.userAuthority, Prod.mk.injEq] at hauthority
    rw [hauthority.1, hauthority.2.2] at hheld
    exact (hcompatible.not_exclusive hheld hlock).elim

theorem IdentitiesAre.frame (hlock : LoginStep.exclusive (.grant (userId, provider)) ∈ other.locks)
    (huser : ∃ user ∈ tables.users, user.id = userId)
    (h : IdentitiesAre tables userId provider accountId) :
    IdentitiesAre tables' userId provider accountId := fun identity hidentity hauthority =>
  h identity (not_bound_of_locked hcompatible hframe hlock huser hidentity hauthority) hauthority

theorem HasOtherMethod.frame {key : LoginAuthorityKind × Text × Text}
   
    (hlock : LoginStep.exclusive (.user userId) ∈ other.locks)
    (h : HasOtherMethod tables userId key) : HasOtherMethod tables' userId key := by
  rcases h with ⟨identity, hidentity, hid, hkey⟩ | hlocal
  · rcases hframe.identity identity hidentity with hkept | ⟨hheld, -⟩
    · exact .inl ⟨identity, hkept, hid, hkey⟩
    · rw [hid] at hheld
      exact (hcompatible.not_exclusive hheld hlock).elim
  · exact .inr (by rw [hframe.localAccounts]; exact hlocal)

theorem no_user_frame (hlock : LoginStep.exclusive (.user userId) ∈ other.locks)
    (h : ∀ user ∈ tables.users, user.id ≠ userId) : ∀ user ∈ tables'.users, user.id ≠ userId := by
  intro user huser hid
  rcases hframe.newUser user huser with hold | hheld
  · exact h user hold hid
  · rw [hid] at hheld
    exact hcompatible.not_exclusive hheld hlock

theorem no_identity_frame {key : LoginAuthorityKind × Text × Text}
   
    (hlock : LoginStep.exclusive (.identity key) ∈ other.locks)
    (h : ∀ identity ∈ tables.identities, identity.key ≠ key) :
    ∀ identity ∈ tables'.identities, identity.key ≠ key := by
  intro identity hidentity hkey
  rcases hframe.newIdentity identity hidentity with hold | ⟨hheld, -⟩
  · exact h identity hold hkey
  · rw [hkey] at hheld
    exact hcompatible.not_exclusive hheld hlock

theorem LoginSettled.framed (h : LoginSettled loginEnabled tables other.locks writes) :
    LoginSettled loginEnabled tables' other.locks writes := by
  cases h with
  | nothing => exact .nothing
  | @account user identity haccount =>
    exact .account
      { haccount with
        new := no_user_frame hcompatible hframe haccount.lock haccount.new
        fresh := no_identity_frame hcompatible hframe haccount.keyLock haccount.fresh }
  | grant hheld hidentities =>
    exact .grant (hheld.frame hcompatible hframe)
      (hidentities.frame hcompatible hframe hheld.lock hheld.user)
  | @identity userId provider accountId writes hheld hidentity =>
    refine .identity (hheld.frame hcompatible hframe)
      { hidentity with
        fresh := no_identity_frame hcompatible hframe hidentity.keyLock hidentity.fresh
        first := ?_ }
    intro identity hmem hauthority
    exact hidentity.first identity
      (not_bound_of_locked hcompatible hframe hheld.lock hheld.user hmem hauthority) hauthority
  | @removedGrant userId provider hgrant huser hexists hnone =>
    refine .removedGrant hgrant huser ?_ ?_
    · rcases hexists with ⟨user, hmem, hid⟩
      exact ⟨user, hframe.users user hmem, hid⟩
    · intro identity hmem hauthority
      exact hnone identity
        (not_bound_of_locked hcompatible hframe hgrant hexists hmem hauthority) hauthority
  | @removedIdentity userId provider accountId hgrant huser hexists hidentities hother =>
    refine .removedIdentity hgrant huser ?_
      (hidentities.frame hcompatible hframe hgrant hexists) (hother.frame hcompatible hframe huser)
    rcases hexists with ⟨user, hmem, hid⟩
    exact ⟨user, hframe.users user hmem, hid⟩

omit hcompatible in
/-- What was found of a user who signs in stays right without any lock. -/
theorem SignedInAs.frame (h : SignedInAs tables userId provider accountId) :
    SignedInAs tables' userId provider accountId := by
  rcases h with ⟨⟨user, huser, hid⟩, hidentities⟩
  refine ⟨⟨user, hframe.users user huser, hid⟩, ?_⟩
  intro identity hidentity hauthority
  have hfields := hauthority
  simp only [LoginIdentityRow.userAuthority, Prod.mk.injEq] at hfields
  rcases hfields with ⟨hsame, -, hprovider⟩
  rcases hframe.newIdentity identity hidentity with hold | ⟨-, -, hnew | ⟨-, hgrant⟩⟩
  · rcases hidentities identity hold hauthority with hsubject | hstored
    · exact .inl hsubject
    · -- with its grant the identity would be gone
      rcases hframe.grant _ hstored with hkept | ⟨-, hgone⟩
      · exact .inr hkept
      · exact absurd hauthority (hgone identity hidentity)
  · exact absurd (hid.trans hsame.symm) (hnew user huser)
  · rw [hsame, hprovider] at hgrant
    exact .inr hgrant

theorem loginKnown_frame {step : LoginStep}
   
    (h : LoginKnown loginEnabled tables other.locks writes step) :
    LoginKnown loginEnabled tables' other.locks writes step := by
  cases step
  case insertIdentity =>
    exact ⟨h.1, h.2.1, h.2.2.1, no_user_frame hcompatible hframe h.2.2.1 h.2.2.2⟩
  case commitUser => exact ⟨h.1, h.2.framed hcompatible hframe⟩
  case upsertGrant =>
    refine ⟨h.1, h.2.1, ?_⟩
    intro hunbound
    rcases h.2.2 hunbound with hdisabled | hsigned
    · exact .inl hdisabled
    · exact .inr (hsigned.frame hframe)
  case lockBoundUser => exact ⟨h.1, h.2.frame hcompatible hframe⟩
  case upsertIdentity => exact ⟨h.1, h.2.1.frame hcompatible hframe, h.2.2⟩
  case inspectLinks | lockUser => exact ⟨h.1, h.2.frame hcompatible hframe⟩
  case checkIdentity | countOthers => exact ⟨h.1, h.2.1.frame hcompatible hframe, h.2.2⟩
  case deleteIdentity =>
    exact ⟨h.1, h.2.1.frame hcompatible hframe, h.2.2.1,
      h.2.2.2.frame hcompatible hframe h.2.2.1⟩
  case deleteGrant | commit => exact LoginSettled.framed hcompatible hframe h
  all_goals exact h

end

end Toss.Access
