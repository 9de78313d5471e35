import Toss.Access.Grants
import Toss.Foundation.Transactions

/-!
# Login methods

`federated_account.rs`, `external_repositories/login` and `external_repositories/connection` as
clients: the lookups and transactions of a login, of the authorization of a connection and of a
disconnection, with the rows each statement takes, its early returns as rollbacks, and the
attempts that follow a collision.

* `LoginTables` — users, login identities, local accounts and OAuth grants;
* `LoginWrite` — what a statement writes;
* `LoginStep` — the next statement of a client;
* `LoginStep.execute` — what it does;
* `loginTransactions` — the system they make.
-/

namespace Toss.Access

open Toss.Foundation

/-! ## Rows -/

inductive LoginAuthorityKind
  | oidc
  | externalGit
deriving DecidableEq, Repr

/-- The columns of `users` that are unique. -/
structure LoginUserRow where
  id : Uuid
  email : Text
  username : Text
deriving DecidableEq, Repr

/-- A row of `user_login_identities`. -/
structure LoginIdentityRow where
  userId : Uuid
  authorityKind : LoginAuthorityKind
  authorityId : Text
  subject : Text
deriving DecidableEq, Repr

/-- A row of `external_git_oauth_grants`, without the tokens. -/
structure OAuthGrantRow where
  userId : Uuid
  providerInstanceId : Text
  providerAccountId : Text
deriving DecidableEq, Repr

structure LoginTables where
  users : List LoginUserRow
  identities : List LoginIdentityRow
  /-- The users that have a row in `local_accounts`. -/
  localAccounts : List Uuid
  oauthGrants : List OAuthGrantRow
deriving DecidableEq, Repr

namespace LoginIdentityRow

/-- The primary key of `user_login_identities`. -/
def key (row : LoginIdentityRow) : LoginAuthorityKind × Text × Text :=
  (row.authorityKind, row.authorityId, row.subject)

/-- Its other unique key. -/
def userAuthority (row : LoginIdentityRow) : Uuid × LoginAuthorityKind × Text :=
  (row.userId, row.authorityKind, row.authorityId)

end LoginIdentityRow

/-- The primary key of `external_git_oauth_grants`. -/
def OAuthGrantRow.key (row : OAuthGrantRow) : Uuid × Text := (row.userId, row.providerInstanceId)

/-- The keys and foreign keys of these tables. -/
structure LoginTables.Constrained (tables : LoginTables) : Prop where
  identitiesKey : (tables.identities.map (·.key)).Nodup
  identitiesUserAuthority : (tables.identities.map (·.userAuthority)).Nodup
  grantsKey : (tables.oauthGrants.map (·.key)).Nodup
  identityUser : ∀ row ∈ tables.identities, ∃ user ∈ tables.users, user.id = row.userId
  grantUser : ∀ row ∈ tables.oauthGrants, ∃ user ∈ tables.users, user.id = row.userId

/-- A state of the tables that the schema admits. -/
structure LoginDatabase where
  tables : LoginTables
  constrained : tables.Constrained

/-! ## Locks and writes -/

inductive LoginKey
  | user (id : Uuid)
  /-- The unique indexes of `users`. -/
  | email (email : Text)
  | username (username : Text)
  | identity (key : LoginAuthorityKind × Text × Text)
  | userAuthority (key : Uuid × LoginAuthorityKind × Text)
  | grant (key : Uuid × Text)
  /-- `external_git_oauth_grants_provider_account_key`. -/
  | providerAccount (providerInstanceId providerAccountId : Text)
deriving DecidableEq, Repr

inductive LoginWrite
  | insertUser (row : LoginUserRow)
  | insertIdentity (row : LoginIdentityRow)
  | removeIdentity (row : LoginIdentityRow)
  | insertGrant (row : OAuthGrantRow)
  | removeGrant (key : Uuid × Text)
deriving DecidableEq, Repr

def LoginWrite.apply (tables : LoginTables) : LoginWrite → LoginTables
  | .insertUser row => { tables with users := tables.users ++ [row] }
  | .insertIdentity row => { tables with identities := tables.identities ++ [row] }
  | .removeIdentity row =>
    { tables with identities := tables.identities.filter fun identity =>
        ¬(identity.userId = row.userId ∧ identity.key = row.key) }
  | .insertGrant row => { tables with oauthGrants := tables.oauthGrants ++ [row] }
  | .removeGrant key =>
    { tables with oauthGrants := tables.oauthGrants.filter (·.key ≠ key) }

/-! ## Statements -/

/-- What `provision_federated_account` is given; the email is trimmed and in lower case. -/
structure ProvisionFederatedAccount where
  email : Text
  authorityKind : LoginAuthorityKind
  authorityId : Text
  subject : Text
deriving DecidableEq, Repr

/-- What a client draws or finds that the tables do not hold. -/
structure LoginChoice where
  candidateUserId : Uuid
  /-- The sanitized seed, from the second attempt on with a random suffix. -/
  username : Text
  /-- The count of `external_git_project_links`. -/
  linkedProjects : Nat
deriving DecidableEq, Repr

/-- The next statement of a client. -/
inductive LoginStep
  /-- `complete_external_git_login`. -/
  | findIdentity (account : ProvisionFederatedAccount)
  | findBinding (account : ProvisionFederatedAccount) (existingIdentityUser : Option Uuid)
  /-- `provision_federated_user`. -/
  | findUser (account : ProvisionFederatedAccount)
  | insertUser (account : ProvisionFederatedAccount) (attempt : Nat)
  | insertIdentity (account : ProvisionFederatedAccount) (attempt : Nat) (userId : Uuid)
  | findCollided (account : ProvisionFederatedAccount) (attempt : Nat)
  | commitUser (account : ProvisionFederatedAccount) (userId : Uuid)
  /-- `persist_external_git_grant`. -/
  | upsertGrant (userId : Uuid) (provider accountId : Text) (bindLoginIdentity : Bool)
  /-- `bind_identity`. -/
  | lockBoundUser (userId : Uuid) (provider accountId : Text)
  | upsertIdentity (userId : Uuid) (provider accountId : Text)
  /-- `disconnect_external_git_account`. -/
  | lockGrant (userId : Uuid) (provider : Text)
  | inspectLinks (userId : Uuid) (provider accountId : Text)
  /-- `remove_identity_if_redundant`. -/
  | lockUser (userId : Uuid) (provider accountId : Text)
  | checkIdentity (userId : Uuid) (provider accountId : Text)
  | countOthers (userId : Uuid) (provider accountId : Text)
  | deleteIdentity (userId : Uuid) (provider accountId : Text)
  | deleteGrant (userId : Uuid) (provider : Text)
  | commit
deriving DecidableEq, Repr

/-- `user_id`. -/
def identityUserId (tables : LoginTables) (key : LoginAuthorityKind × Text × Text) : Option Uuid :=
  (tables.identities.find? (·.key = key)).map (·.userId)

namespace LoginStep

abbrev Result := Outcome LoginKey LoginWrite LoginStep

def exclusive (key : LoginKey) : Lock LoginKey := ⟨key, .exclusive⟩

/-- An error: the transaction is dropped, which rolls it back. -/
def fail : Result := .rollback none

def userExists (tables : LoginTables) (userId : Uuid) : Bool :=
  tables.users.any (·.id = userId)

/-- A login at a provider goes on to store the grant, without binding the identity. -/
def afterProvision (account : ProvisionFederatedAccount) (userId : Uuid) : Option LoginStep :=
  match account.authorityKind with
  | .oidc => none
  | .externalGit => some (.upsertGrant userId account.authorityId account.subject false)

/-- The user is there already: nothing is written. -/
def found (account : ProvisionFederatedAccount) (userId : Uuid) : Result :=
  .done [] [] ((afterProvision account userId).getD .commit)

/-- `for attempt in 0..6`. -/
def nextAttempt (account : ProvisionFederatedAccount) (attempt : Nat) : Option LoginStep :=
  if attempt + 1 < 6 then some (.insertUser account (attempt + 1)) else none

def execute (tables : LoginTables) (choice : LoginChoice) : LoginStep → Result
  | .findIdentity account =>
    .done [] [] (.findBinding account
      (identityUserId tables (account.authorityKind, account.authorityId, account.subject)))
  | .findBinding account existingIdentityUser =>
    let existingBindingUser := (tables.oauthGrants.find? fun grant =>
      grant.providerInstanceId = account.authorityId
        ∧ grant.providerAccountId = account.subject).map (·.userId)
    if existingBindingUser.isSome && existingBindingUser ≠ existingIdentityUser then fail
    else .done [] [] (.findUser account)
  | .findUser account =>
    match identityUserId tables (account.authorityKind, account.authorityId, account.subject) with
    | some userId => found account userId
    | none => .done [] [] (.insertUser account 0)
  | .insertUser account attempt =>
    let row : LoginUserRow := ⟨choice.candidateUserId, account.email, choice.username⟩
    -- `users_email_key`, `users_pkey`, `users_username_key`
    if tables.users.any (·.email = row.email) then fail
    else if userExists tables row.id then fail
    else if tables.users.any (·.username = row.username) then
      .rollback (nextAttempt account attempt)
    else
      .done [exclusive (.user row.id), exclusive (.email row.email),
          exclusive (.username row.username)]
        [.insertUser row] (.insertIdentity account attempt row.id)
  | .insertIdentity account attempt userId =>
    let row : LoginIdentityRow :=
      ⟨userId, account.authorityKind, account.authorityId, account.subject⟩
    if tables.identities.any (·.key = row.key) then .rollback (some (.findCollided account attempt))
    else
      .done [exclusive (.identity row.key), exclusive (.userAuthority row.userAuthority)]
        [.insertIdentity row] (.commitUser account userId)
  | .findCollided account attempt =>
    match identityUserId tables (account.authorityKind, account.authorityId, account.subject) with
    | some userId => found account userId
    | none => .rollback (nextAttempt account attempt)
  | .commitUser _ _ => fail
  | .upsertGrant userId provider accountId bindLoginIdentity =>
    let next := if bindLoginIdentity then .lockBoundUser userId provider accountId else .commit
    -- `on conflict (user_id, provider_instance_id) do update … where`
    match tables.oauthGrants.find? (·.key = (userId, provider)) with
    | some grant =>
      if grant.providerAccountId = accountId then
        .done [exclusive (.grant (userId, provider))] [] next
      else fail
    | none =>
      if !userExists tables userId || tables.oauthGrants.any fun grant =>
          grant.providerInstanceId = provider ∧ grant.providerAccountId = accountId then fail
      else
        .done [exclusive (.grant (userId, provider)),
            exclusive (.providerAccount provider accountId)]
          [.insertGrant ⟨userId, provider, accountId⟩] next
  | .lockBoundUser userId provider accountId =>
    if userExists tables userId then
      .done [exclusive (.user userId)] [] (.upsertIdentity userId provider accountId)
    else fail
  | .upsertIdentity userId provider accountId =>
    let row : LoginIdentityRow := ⟨userId, .externalGit, provider, accountId⟩
    match tables.identities.find? (·.key = row.key) with
    | some identity =>
      if identity.userId = userId then .done [exclusive (.identity row.key)] [] .commit else fail
    | none =>
      -- `user_login_identities_user_authority_key`
      if tables.identities.any (·.userAuthority = row.userAuthority) then fail
      else
        .done [exclusive (.identity row.key), exclusive (.userAuthority row.userAuthority)]
          [.insertIdentity row] .commit
  | .lockGrant userId provider =>
    match tables.oauthGrants.find? (·.key = (userId, provider)) with
    | none => fail
    | some grant =>
      .done [exclusive (.grant (userId, provider))] []
        (.inspectLinks userId provider grant.providerAccountId)
  | .inspectLinks userId provider accountId =>
    if choice.linkedProjects > 0 then fail
    else .done [] [] (.lockUser userId provider accountId)
  | .lockUser userId provider accountId =>
    if userExists tables userId then
      .done [exclusive (.user userId)] [] (.checkIdentity userId provider accountId)
    else fail
  | .checkIdentity userId provider accountId =>
    if tables.identities.contains ⟨userId, .externalGit, provider, accountId⟩ then
      .done [] [] (.countOthers userId provider accountId)
    else .done [] [] (.deleteGrant userId provider)
  | .countOthers userId provider accountId =>
    let otherLoginMethods :=
      (tables.identities.countP fun identity => identity.userId = userId
        ∧ ¬identity.key = (.externalGit, provider, accountId))
      + tables.localAccounts.count userId
    if otherLoginMethods = 0 then fail
    else .done [] [] (.deleteIdentity userId provider accountId)
  | .deleteIdentity userId provider accountId =>
    let row : LoginIdentityRow := ⟨userId, .externalGit, provider, accountId⟩
    .done [exclusive (.identity row.key), exclusive (.userAuthority row.userAuthority)]
      [.removeIdentity row] (.deleteGrant userId provider)
  | .deleteGrant userId provider =>
    if tables.oauthGrants.any (·.key = (userId, provider)) then
      .done [exclusive (.grant (userId, provider))] [.removeGrant (userId, provider)] .commit
    else fail
  | .commit => fail

def afterCommit : LoginStep → Option (Option LoginStep)
  | .commitUser account userId => some (afterProvision account userId)
  | .commit => some none
  | _ => none

end LoginStep

/-! ## Commands -/

inductive LoginCommand
  /-- `provision_federated_account` for an OIDC identity. -/
  | completeOidcLogin (email issuer subject : Text)
  | completeExternalGitLogin (email provider accountId : Text)
  /-- The authorization of a connection; the identity is bound where the provider takes logins. -/
  | completeExternalGitAuthorization (userId : Uuid) (provider accountId : Text)
  | disconnectExternalGitAccount (userId : Uuid) (provider : Text)
deriving DecidableEq, Repr

/-- The first statement; a login goes to a provider only where logins are enabled. -/
def LoginCommand.start (loginEnabled : Text → Bool) : LoginCommand → Option LoginStep
  | .completeOidcLogin email issuer subject => some (.findUser ⟨email, .oidc, issuer, subject⟩)
  | .completeExternalGitLogin email provider accountId =>
    if loginEnabled provider then
      some (.findIdentity ⟨email, .externalGit, provider, accountId⟩)
    else none
  | .completeExternalGitAuthorization userId provider accountId =>
    some (.upsertGrant userId provider accountId (loginEnabled provider))
  | .disconnectExternalGitAccount userId provider => some (.lockGrant userId provider)

def loginTransactions (loginEnabled : Text → Bool) :
    TransactionSystem LoginTables LoginCommand LoginKey LoginWrite LoginStep LoginChoice where
  start := LoginCommand.start loginEnabled
  execute := LoginStep.execute
  afterCommit := LoginStep.afterCommit
  apply := fun write tables => write.apply tables

abbrev LoginWorld := TransactionWorld LoginTables LoginKey LoginWrite LoginStep

abbrev LoginClient := Client LoginKey LoginWrite LoginStep

abbrev LoginAction := TransactionAction LoginCommand LoginChoice

end Toss.Access
