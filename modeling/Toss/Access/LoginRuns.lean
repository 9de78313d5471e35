import Toss.Access.LoginInvariant
import Toss.Foundation.Fallible

/-!
# Runs of logins, authorizations and disconnections

Every statement hands what it has learned to the next one, so that the invariant of the tables
holds after every commit, whoever else signs in, connects or disconnects meanwhile.

* `loginKnown_done` — what a statement adds to what its client knows;
* `login_inductive` — the invariant of all clients;
* `login_methods_kept` — what holds of every run.
-/

namespace Toss.Access

open Toss.Foundation

section

variable {loginEnabled : Text → Bool} {tables : LoginTables}
  {held locks : List (Lock LoginKey)} {before writes : List LoginWrite}

variable {userId : Uuid} {provider accountId : Text} {next : LoginStep} {choice : LoginChoice}

theorem GrantHeld.mono
    (h : GrantHeld tables held before userId provider accountId) (more : List (Lock LoginKey)) :
    GrantHeld tables (held ++ more) before userId provider accountId :=
  { h with lock := List.mem_append_left _ h.lock }

theorem LoginSettled.mono (h : LoginSettled loginEnabled tables held before)
    (more : List (Lock LoginKey)) : LoginSettled loginEnabled tables (held ++ more) before := by
  cases h with
  | nothing => exact .nothing
  | account haccount =>
    exact .account
      { haccount with
        lock := List.mem_append_left _ haccount.lock
        keyLock := List.mem_append_left _ haccount.keyLock }
  | grant hheld hidentities => exact .grant (hheld.mono more) hidentities
  | identity hheld hidentity =>
    exact .identity (hheld.mono more)
      { hidentity with
        lock := List.mem_append_left _ hidentity.lock
        keyLock := List.mem_append_left _ hidentity.keyLock }
  | removedGrant hgrant huser hexists hnone =>
    exact .removedGrant (List.mem_append_left _ hgrant) (List.mem_append_left _ huser) hexists
      hnone
  | removedIdentity hgrant huser hexists hidentities hother =>
    exact .removedIdentity (List.mem_append_left _ hgrant) (List.mem_append_left _ huser) hexists
      hidentities hother

theorem mem_of_identityUserId {key : LoginAuthorityKind × Text × Text}
    (h : identityUserId tables key = some userId) :
    ∃ identity ∈ tables.identities, identity.key = key ∧ identity.userId = userId := by
  rcases Option.map_eq_some_iff.mp h with ⟨identity, hfound, hid⟩
  exact ⟨identity, List.mem_of_find?_eq_some hfound, by simpa using List.find?_some hfound, hid⟩

section

variable (hsound : LoginsSound loginEnabled tables)
include hsound

/-- A user who is found by an identity is signed in as its subject. -/
theorem signedInAs_of_mem (hmem : ⟨userId, .externalGit, provider, accountId⟩ ∈ tables.identities) :
    SignedInAs tables userId provider accountId := by
  refine ⟨hsound.constrained.identityUser _ hmem, ?_⟩
  intro identity hidentity hauthority
  exact .inl (hsound.identitiesAre_of_mem hmem identity hidentity hauthority)

/-- After a provisioning the login goes on with a user who has the identity. -/
theorem loginKnown_afterProvision {account : ProvisionFederatedAccount}
    (hmem : ⟨userId, account.authorityKind, account.authorityId, account.subject⟩
      ∈ tables.identities)
    (hnext : LoginStep.afterProvision account userId = some next) (held : List (Lock LoginKey)) :
    LoginKnown loginEnabled tables held [] next := by
  unfold LoginStep.afterProvision at hnext
  cases hkind : account.authorityKind with
  | oidc =>
    rw [hkind] at hnext
    cases hnext
  | externalGit =>
    rw [hkind] at hnext hmem
    cases hnext
    exact ⟨rfl, fun hbind => absurd hbind (by decide),
      fun _ => .inr (signedInAs_of_mem hsound hmem)⟩

theorem loginKnown_found {account : ProvisionFederatedAccount} (hfound : identityUserId tables
      (account.authorityKind, account.authorityId, account.subject) = some userId)
    (held : List (Lock LoginKey)) :
    LoginKnown loginEnabled tables held []
      ((LoginStep.afterProvision account userId).getD .commit) := by
  rcases mem_of_identityUserId hfound with ⟨identity, hidentity, hkey, hid⟩
  cases hnext : LoginStep.afterProvision account userId with
  | none => exact .nothing
  | some next =>
    refine loginKnown_afterProvision hsound ?_ hnext held
    simp only [LoginIdentityRow.key, Prod.mk.injEq] at hkey
    rw [← hid, ← hkey.1, ← hkey.2.1, ← hkey.2.2]
    exact hidentity

/-- A grant that is written without an identity is of the identity that is there, if any. -/
theorem identitiesAre_of_unbound
    (hnone : ∀ grant ∈ tables.oauthGrants, grant.key ≠ (userId, provider))
    (h : loginEnabled provider = false ∨ SignedInAs tables userId provider accountId) :
    IdentitiesAre tables userId provider accountId := by
  intro identity hidentity hauthority
  rcases h with hdisabled | ⟨-, hidentities⟩
  · simp only [LoginIdentityRow.userAuthority, Prod.mk.injEq] at hauthority
    have henabled := hsound.enabled identity hidentity hauthority.2.1
    rw [hauthority.2.2, hdisabled] at henabled
    cases henabled
  · rcases hidentities identity hidentity hauthority with hsubject | hstored
    · exact hsubject
    · exact absurd rfl (hnone _ hstored)

/-! ## Statements -/

/-- The upsert of a grant: the grant is held, and the identity is bound next or is there. -/
theorem loginKnown_upsertGrant {bindLoginIdentity : Bool}
    (h : LoginKnown loginEnabled tables held before
      (.upsertGrant userId provider accountId bindLoginIdentity))
    (hexecute : (LoginStep.upsertGrant userId provider accountId bindLoginIdentity).execute tables
      choice = .done locks writes next) :
    LoginKnown loginEnabled tables (held ++ locks) (before ++ writes) next := by
  rcases h with ⟨rfl, henabled, hunbound⟩
  -- what comes after it, given the grant that is held
  have hknown : GrantHeld tables (held ++ locks) writes userId provider accountId →
      (bindLoginIdentity = false → LoginSettled loginEnabled tables (held ++ locks) writes) →
      LoginKnown loginEnabled tables (held ++ locks) writes
        (if bindLoginIdentity = true then .lockBoundUser userId provider accountId
          else .commit) := by
    intro hheld hsettled
    cases bindLoginIdentity with
    | false => exact hsettled rfl
    | true => exact ⟨henabled rfl, hheld⟩
  rw [List.nil_append]
  simp only [LoginStep.execute, LoginStep.fail] at hexecute
  split at hexecute
  · next grant hfound =>
    have hgrant := List.mem_of_find?_eq_some hfound
    have hkey : grant.key = (userId, provider) := by simpa using List.find?_some hfound
    split at hexecute
    · next haccount =>
      cases hexecute
      refine hknown ⟨List.mem_append_right _ List.mem_cons_self, ?_, .inl ⟨rfl, ?_⟩⟩
        (fun _ => .nothing)
      · rcases hsound.constrained.grantUser grant hgrant with ⟨user, huser, hid⟩
        exact ⟨user, huser, hid.trans (congrArg Prod.fst hkey)⟩
      · simp only [OAuthGrantRow.key, Prod.mk.injEq] at hkey
        rw [← hkey.1, ← hkey.2, ← haccount]
        exact hgrant
    · cases hexecute
  · next hnotfound =>
    split at hexecute
    · cases hexecute
    rename_i hallowed
    cases hexecute
    simp only [Bool.or_eq_true, Bool.not_eq_true', not_or, Bool.not_eq_false] at hallowed
    have hnone : ∀ grant ∈ tables.oauthGrants, grant.key ≠ (userId, provider) := by
      intro grant hgrant hkey
      exact List.find?_eq_none.mp hnotfound grant hgrant (decide_eq_true hkey)
    have hheld : GrantHeld tables (held ++ [LoginStep.exclusive (.grant (userId, provider)),
        LoginStep.exclusive (.providerAccount provider accountId)])
        [.insertGrant ⟨userId, provider, accountId⟩] userId provider accountId :=
      ⟨List.mem_append_right _ List.mem_cons_self,
        LoginStep.userExists_iff.mp hallowed.1, .inr ⟨rfl, hnone⟩⟩
    exact hknown hheld fun hfalse =>
      .grant hheld (identitiesAre_of_unbound hsound hnone (hunbound hfalse))

/-- The binding of an identity: it is there, or it is the first of the user at the provider. -/
theorem loginKnown_upsertIdentity
    (h : LoginKnown loginEnabled tables held before (.upsertIdentity userId provider accountId))
    (hexecute : (LoginStep.upsertIdentity userId provider accountId).execute tables choice
      = .done locks writes next) :
    LoginKnown loginEnabled tables (held ++ locks) (before ++ writes) next := by
  rcases h with ⟨henabled, hheld, hlock⟩
  simp only [LoginStep.execute, LoginStep.fail] at hexecute
  split at hexecute
  · next identity hfound =>
    have hmem := List.mem_of_find?_eq_some hfound
    have hkey := List.find?_some hfound
    simp only [decide_eq_true_eq, LoginIdentityRow.key, Prod.mk.injEq] at hkey
    split at hexecute
    · next huser =>
      cases hexecute
      rw [List.append_nil]
      rcases hheld.stored with ⟨rfl, -⟩ | ⟨rfl, -⟩
      · exact .nothing
      · refine .grant (hheld.mono _) (hsound.identitiesAre_of_mem ?_)
        rw [← huser, ← hkey.1, ← hkey.2.1, ← hkey.2.2]
        exact hmem
    · cases hexecute
  · next hnotfound =>
    split at hexecute
    · cases hexecute
    rename_i hfirst
    cases hexecute
    refine .identity (hheld.mono _) ⟨List.mem_append_left _ hlock,
      List.mem_append_right _ List.mem_cons_self, ?_, ?_, henabled⟩
    · intro other hother hkey
      exact List.find?_eq_none.mp hnotfound other hother (decide_eq_true hkey)
    · intro other hother hauthority
      exact hfirst (List.any_eq_true.mpr ⟨other, hother, decide_eq_true hauthority⟩)

end

/-- The count of the other login methods. -/
theorem hasOtherMethod_of_count
    (h : (tables.identities.countP fun identity => decide (identity.userId = userId
        ∧ ¬identity.key = (.externalGit, provider, accountId)))
      + tables.localAccounts.count userId ≠ 0) :
    HasOtherMethod tables userId (.externalGit, provider, accountId) := by
  by_cases hlocal : userId ∈ tables.localAccounts
  · exact .inr hlocal
  · rw [List.count_eq_zero_of_not_mem hlocal, Nat.add_zero] at h
    rcases List.countP_pos_iff.mp (Nat.pos_of_ne_zero h) with ⟨identity, hidentity, hother⟩
    exact .inl ⟨identity, hidentity, of_decide_eq_true hother⟩

/-- A statement hands on what it has learned. -/
theorem loginKnown_done (hsound : LoginsSound loginEnabled tables)
    {step next : LoginStep} (h : LoginKnown loginEnabled tables held before step)
    (hexecute : step.execute tables choice = .done locks writes next) :
    LoginKnown loginEnabled tables (held ++ locks) (before ++ writes) next := by
  cases step
  case findIdentity account =>
    rcases h with ⟨rfl, henabled⟩
    cases hexecute
    exact ⟨rfl, henabled⟩
  case findBinding account existingIdentityUser =>
    rcases h with ⟨rfl, henabled⟩
    simp only [LoginStep.execute, LoginStep.fail] at hexecute
    split at hexecute
    · cases hexecute
    · cases hexecute
      exact ⟨rfl, henabled⟩
  case findUser account =>
    rcases h with ⟨rfl, henabled⟩
    simp only [LoginStep.execute] at hexecute
    split at hexecute
    · next userId hfound =>
      cases hexecute
      exact loginKnown_found hsound hfound _
    · cases hexecute
      exact ⟨rfl, henabled⟩
  case findCollided account attempt =>
    rcases h with ⟨rfl, henabled⟩
    simp only [LoginStep.execute] at hexecute
    split at hexecute
    · next userId hfound =>
      cases hexecute
      exact loginKnown_found hsound hfound _
    · cases hexecute
  case insertUser account attempt =>
    -- a new account, whose row the insert locks
    rcases h with ⟨rfl, henabled⟩
    simp only [LoginStep.execute, LoginStep.fail] at hexecute
    split at hexecute
    · cases hexecute
    split at hexecute
    · cases hexecute
    rename_i hnew
    split at hexecute
    · cases hexecute
    cases hexecute
    refine ⟨henabled, ⟨_, rfl, rfl⟩, List.mem_append_right _ List.mem_cons_self, ?_⟩
    intro other hother hid
    exact hnew (LoginStep.userExists_iff.mpr ⟨other, hother, hid⟩)
  case insertIdentity account attempt userId =>
    rcases h with ⟨henabled, ⟨user, rfl, rfl⟩, hlock, hnew⟩
    simp only [LoginStep.execute] at hexecute
    split at hexecute
    · cases hexecute
    rename_i hfresh
    cases hexecute
    refine ⟨⟨user, rfl, rfl⟩, .account ⟨List.mem_append_left _ hlock, hnew, rfl,
      List.mem_append_right _ List.mem_cons_self, ?_, henabled⟩⟩
    intro other hother hkey
    exact hfresh (List.any_eq_true.mpr ⟨other, hother, decide_eq_true hkey⟩)
  case commitUser => cases hexecute
  case upsertGrant => exact loginKnown_upsertGrant hsound h hexecute
  case lockBoundUser userId provider accountId =>
    -- a binding, from here on with the row of the user
    rcases h with ⟨henabled, hheld⟩
    simp only [LoginStep.execute, LoginStep.fail] at hexecute
    split at hexecute
    · cases hexecute
      rw [List.append_nil]
      exact ⟨henabled, hheld.mono _, List.mem_append_right _ List.mem_cons_self⟩
    · cases hexecute
  case upsertIdentity => exact loginKnown_upsertIdentity hsound h hexecute
  case lockGrant userId provider =>
    -- a removal knows the grant from its locked row
    rcases h with rfl
    simp only [LoginStep.execute, LoginStep.fail] at hexecute
    split at hexecute
    · cases hexecute
    rename_i grant hfound
    cases hexecute
    have hgrant := List.mem_of_find?_eq_some hfound
    have hkey : grant.key = (userId, provider) := by simpa using List.find?_some hfound
    simp only [OAuthGrantRow.key, Prod.mk.injEq] at hkey
    refine ⟨rfl, List.mem_append_right _ List.mem_cons_self, ?_, .inl ⟨rfl, ?_⟩⟩
    · rcases hsound.constrained.grantUser grant hgrant with ⟨user, huser, hid⟩
      exact ⟨user, huser, hid.trans hkey.1⟩
    · rw [← hkey.1, ← hkey.2]
      exact hgrant
  case inspectLinks userId provider accountId =>
    rcases h with ⟨rfl, hheld⟩
    simp only [LoginStep.execute, LoginStep.fail] at hexecute
    split at hexecute
    · cases hexecute
    · cases hexecute
      exact ⟨rfl, hheld.mono _⟩
  case lockUser userId provider accountId =>
    rcases h with ⟨rfl, hheld⟩
    simp only [LoginStep.execute, LoginStep.fail] at hexecute
    split at hexecute
    · cases hexecute
      exact ⟨rfl, hheld.mono _, List.mem_append_right _ List.mem_cons_self⟩
    · cases hexecute
  case checkIdentity userId provider accountId =>
    rcases h with ⟨rfl, hheld, hlock⟩
    simp only [LoginStep.execute] at hexecute
    split at hexecute
    · cases hexecute
      exact ⟨rfl, hheld.mono _, List.mem_append_left _ hlock⟩
    rename_i habsent
    cases hexecute
    refine .removedGrant (List.mem_append_left _ hheld.lock) (List.mem_append_left _ hlock)
      hheld.user ?_
    -- an identity of the user at the provider would be the one that is not there
    intro identity hidentity hauthority
    rcases hheld.stored with ⟨-, hstored⟩ | ⟨hwrites, -⟩
    · apply habsent
      have hsubject : identity.subject = accountId :=
        hsound.identitiesAre hstored identity hidentity hauthority
      simp only [LoginIdentityRow.userAuthority, Prod.mk.injEq] at hauthority
      rw [List.contains_iff_mem, ← hauthority.1, ← hauthority.2.1, ← hauthority.2.2, ← hsubject]
      exact hidentity
    · cases hwrites
  case countOthers userId provider accountId =>
    rcases h with ⟨rfl, hheld, hlock⟩
    simp only [LoginStep.execute, LoginStep.fail] at hexecute
    split at hexecute
    · cases hexecute
    · next hcount =>
      cases hexecute
      exact ⟨rfl, hheld.mono _, List.mem_append_left _ hlock, hasOtherMethod_of_count hcount⟩
  case deleteIdentity userId provider accountId =>
    rcases h with ⟨rfl, hheld, hlock, hother⟩
    cases hexecute
    rcases hheld.stored with ⟨-, hstored⟩ | ⟨hwrites, -⟩
    · exact .removedIdentity (List.mem_append_left _ hheld.lock) (List.mem_append_left _ hlock)
        hheld.user (hsound.identitiesAre hstored) hother
    · cases hwrites
  case deleteGrant userId provider =>
    simp only [LoginStep.execute, LoginStep.fail] at hexecute
    split at hexecute
    · cases hexecute
      exact LoginSettled.mono h _
    · cases hexecute
  case commit => cases hexecute

/-- An attempt that collided starts over with nothing in hand. -/
theorem loginKnown_rollback {step next : LoginStep}
    (h : LoginKnown loginEnabled tables held before step)
    (hexecute : step.execute tables choice = .rollback (some next)) :
    LoginKnown loginEnabled tables [] [] next := by
  have hattempt : ∀ {account : ProvisionFederatedAccount} {attempt : Nat},
      account.Enabled loginEnabled → LoginStep.nextAttempt account attempt = some next →
      LoginKnown loginEnabled tables [] [] next := by
    intro account attempt henabled hnext
    unfold LoginStep.nextAttempt at hnext
    split at hnext
    · cases hnext
      exact ⟨rfl, henabled⟩
    · cases hnext
  cases step
  case insertUser account attempt =>
    simp only [LoginStep.execute, LoginStep.fail] at hexecute
    repeat' split at hexecute
    all_goals
      simp only [Outcome.rollback.injEq, reduceCtorEq] at hexecute
    exact hattempt h.2 hexecute
  case insertIdentity account attempt userId =>
    simp only [LoginStep.execute] at hexecute
    split at hexecute
    · cases hexecute
      exact ⟨rfl, h.1⟩
    · cases hexecute
  case findCollided account attempt =>
    simp only [LoginStep.execute, LoginStep.found] at hexecute
    split at hexecute
    · cases hexecute
    · simp only [Outcome.rollback.injEq] at hexecute
      exact hattempt h.2 hexecute
  all_goals
    simp only [LoginStep.execute, LoginStep.fail, LoginStep.found] at hexecute
    repeat' split at hexecute
  all_goals cases hexecute

/-! ## All clients -/

theorem loginKnown_start {command : LoginCommand}
    (hstart : command.start loginEnabled = some next) :
    LoginKnown loginEnabled tables [] [] next := by
  cases command with
  | completeOidcLogin email issuer subject =>
    cases hstart
    exact ⟨rfl, fun hkind => by cases hkind⟩
  | completeExternalGitLogin email provider accountId =>
    simp only [LoginCommand.start] at hstart
    split at hstart
    · next henabled =>
      cases hstart
      exact ⟨rfl, fun _ => henabled⟩
    · cases hstart
  | completeExternalGitAuthorization userId provider accountId =>
    cases hstart
    exact ⟨rfl, id, .inl⟩
  | disconnectExternalGitAccount userId provider =>
    cases hstart
    rfl

/-- At a commit, what has been written is settled. -/
theorem LoginSound.settled {client : LoginClient} {next : Option LoginStep}
    (h : LoginSound loginEnabled tables client)
    (hcommit : LoginStep.afterCommit client.next = some next) :
    LoginSettled loginEnabled tables client.locks client.writes := by
  unfold LoginSound at h
  cases hnext : client.next
  case commitUser =>
    rw [hnext] at h
    exact h.2
  case commit =>
    rw [hnext] at h
    exact h
  all_goals
    rw [hnext] at hcommit
    cases hcommit

theorem login_inductive :
    (loginTransactions loginEnabled).Inductive (fun _ _ _ => True) (LoginsSound loginEnabled)
      (LoginSound loginEnabled) where
  start := fun _ hstart => loginKnown_start hstart
  done := fun hsound hclient _ hexecute => loginKnown_done hsound hclient hexecute
  rollback := fun _ hclient _ hexecute => loginKnown_rollback hclient hexecute
  commit := fun hsound hclient hcommit => (LoginSound.settled hclient hcommit).sound hsound
  restart := by
    intro tables client next hsound hclient hcommit
    have hafter := (LoginSound.settled hclient hcommit).sound hsound
    change LoginStep.afterCommit client.next = _ at hcommit
    unfold LoginSound at hclient
    -- only a login goes on after a commit, with the user it has provisioned
    cases hnext : client.next
    case commitUser account userId =>
      rw [hnext] at hclient hcommit
      rcases hclient.1 with ⟨user, -, hwrites⟩
      refine loginKnown_afterProvision hafter ?_ (Option.some.inj hcommit) _
      rw [hwrites]
      exact List.mem_append_right _ List.mem_cons_self
    all_goals
      rw [hnext] at hcommit
      cases hcommit
  frame := by
    intro tables client other next _ hclient hother hcompatible _ hcommit
    exact loginKnown_frame hcompatible (LoginSound.settled hclient hcommit).frame hother

/-! ## Every run -/

/-- No step takes the last login method of a user. -/
theorem hasLoginMethod_step {s t : LoginWorld} {action : LoginAction}
    (h : TransactionSystem.Holds (LoginsSound loginEnabled) (LoginSound loginEnabled) s)
    (hstep : (loginTransactions loginEnabled).step s action = some t)
    (hmethod : HasLoginMethod s.tables userId) : HasLoginMethod t.tables userId := by
  rcases TransactionSystem.tables_step hstep with hsame | ⟨client, hclient, next, -, hnext, hafter⟩
  · rw [hsame]
    exact hmethod
  · rw [hafter]
    exact (LoginSound.settled (h.clients client hclient) hnext).frame.hasLoginMethod hmethod

theorem hasLoginMethod_run {s t : LoginWorld} {actions : List LoginAction}
    (h : TransactionSystem.Holds (LoginsSound loginEnabled) (LoginSound loginEnabled) s)
    (hrun : Run (fun s action t => (loginTransactions loginEnabled).step s action = some t) s
      actions t) (hmethod : HasLoginMethod s.tables userId) :
    HasLoginMethod t.tables userId := by
  induction hrun with
  | nil => exact hmethod
  | cons hstep _ ih =>
    exact ih (login_inductive.step_of_always h hstep) (hasLoginMethod_step h hstep hmethod)

/-- What is kept of login methods between two states. -/
structure LoginMethodsKept (tables later : LoginTables) : Prop where
  /-- An identity is of one account. -/
  account : ∀ identity ∈ later.identities, ∀ other ∈ later.identities,
    other.key = identity.key → other.userId = identity.userId
  /-- An account has one subject per authority. -/
  subject : ∀ identity ∈ later.identities, ∀ other ∈ later.identities,
    other.userAuthority = identity.userAuthority → other.subject = identity.subject
  agree : SubjectsAgree later
  method : ∀ userId, HasLoginMethod tables userId → HasLoginMethod later userId

/-- From tables in which identities and grants agree, and only providers that take logins have
bound identities, every run of logins, authorizations and disconnections keeps login methods
apart and leaves each account one. -/
theorem login_methods_kept {database : LoginDatabase} {world later : LoginWorld}
    {actions more : List LoginAction}
    (henabled : ∀ identity ∈ database.tables.identities, identity.authorityKind = .externalGit →
      loginEnabled identity.authorityId = true)
    (hagree : SubjectsAgree database.tables)
    (hrun : Run (fun s action t => (loginTransactions loginEnabled).step s action = some t)
      ⟨database.tables, []⟩ actions world)
    (hmore : Run (fun s action t => (loginTransactions loginEnabled).step s action = some t)
      world more later) :
    LoginMethodsKept world.tables later.tables := by
  have hsound : LoginsSound loginEnabled database.tables :=
    ⟨database.constrained, henabled, hagree⟩
  have hworld := login_inductive.run_of_always hsound hrun
  have hlater := login_inductive.run_of_always hsound (hrun.append hmore)
  constructor
  · intro identity hidentity other hother hkey
    rw [List.inj_on_of_nodup_map hlater.tables.constrained.identitiesKey hother hidentity hkey]
  · intro identity hidentity other hother hauthority
    rw [List.inj_on_of_nodup_map hlater.tables.constrained.identitiesUserAuthority hother
      hidentity hauthority]
  · exact hlater.tables.agree
  · exact fun userId hmethod => hasLoginMethod_run hworld hmore hmethod

end

/-- User 1 signs in at an OIDC issuer. -/
def oidcAccount : LoginTables where
  users := [⟨1, ['e'], ['u']⟩]
  identities := [⟨1, .oidc, ['o'], ['s']⟩]
  localAccounts := []
  oauthGrants := []

theorem oidcAccount_constrained : oidcAccount.Constrained := by
  constructor <;> simp [oidcAccount]

/-- He connects an account at a provider, and disconnects it again. -/
def connection : List LoginAction :=
  [.start 10 (.completeExternalGitAuthorization 1 ['g'] ['a']), .execute 10 ⟨0, [], 0⟩,
    .execute 10 ⟨0, [], 0⟩, .execute 10 ⟨0, [], 0⟩, .commit 10]

def disconnection : List LoginAction :=
  .start 11 (.disconnectExternalGitAccount 1 ['g'])
    :: List.replicate 7 (.execute 11 ⟨0, [], 0⟩) ++ [.commit 11]

def connected : LoginWorld :=
  (exec (loginTransactions fun _ => true).step ⟨oidcAccount, []⟩ connection).getD ⟨oidcAccount, []⟩

def disconnected : LoginWorld :=
  (exec (loginTransactions fun _ => true).step connected disconnection).getD connected

theorem disconnection_keeps_methods :
    connected.tables.identities.length = 2 ∧ disconnected.tables.identities.length = 1
    ∧ LoginMethodsKept connected.tables disconnected.tables := by
  have hrun : exec (loginTransactions fun _ => true).step ⟨oidcAccount, []⟩ connection
      = some connected := eq_some_getD (by decide +kernel) _
  have hmore : exec (loginTransactions fun _ => true).step connected disconnection
      = some disconnected := eq_some_getD (by decide +kernel) _
  have hkept := @login_methods_kept (fun _ => true) ⟨oidcAccount, oidcAccount_constrained⟩
    connected disconnected connection disconnection (fun _ _ _ => rfl)
    (fun _ _ _ grant hgrant => absurd hgrant List.not_mem_nil) (exec_run hrun) (exec_run hmore)
  exact ⟨by decide +kernel, by decide +kernel, hkept⟩

end Toss.Access
