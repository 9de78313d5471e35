import Toss.ExternalRepositories.InboundJobs

/-!
# Provider credentials

`connection/access_token.rs`, `persistence.rs` and `authorization.rs`: the row of
`external_git_oauth_grants` of one user and one provider, the statements on it, and the
callers that load, refresh and give up a credential in steps of their own. The provider's
refresh tokens are good for one use, which yields the next one.

* `TokenEndpoint` — the provider, as far as its tokens go;
* `upsertOAuthGrant`, `markGrantReauthorizationRequiredIfCurrent`,
  `markGrantReauthorizationRequired`, `updateRefreshedOAuthGrant` — the statements;
* `CredentialStage` — where a caller of `provider_access_token` or of
  `complete_external_git_authorization` stands;
* `Credentials.step` — the steps of all callers, the provider and the network.
-/

namespace Toss.ExternalRepositories

/-! ## The provider -/

/-- What the token endpoint issued in one answer: the access token, and the refresh token
that came with it, are told from all others by their place in the order of issue. -/
structure Token where
  number : Nat
  authorization : Nat
  account : Text
deriving DecidableEq, Repr

/-- `TokenResponse`, `RefreshedToken`. -/
structure TokenResponse where
  accessToken : Token
  refreshToken : Option Token
  expiresIn : Option Int
  scopes : List Text
deriving DecidableEq, Repr

/-- The tokens issued so far and the refresh tokens that are still good. -/
structure TokenEndpoint where
  issued : Nat
  valid : List Token
deriving DecidableEq, Repr

/-- `exchange_authorization_code`: an authorization begins. -/
def TokenEndpoint.exchange (provider : TokenEndpoint) (account : Text) (refreshable : Bool)
    (expiresIn : Option Int) (scopes : List Text) : TokenResponse × TokenEndpoint :=
  let token := ⟨provider.issued, provider.issued, account⟩
  (⟨token, if refreshable then some token else none, expiresIn, scopes⟩,
    ⟨provider.issued + 1, if refreshable then provider.valid ++ [token] else provider.valid⟩)

/-- `refresh_access_token`; `none` is `RefreshTokenError::Rejected`. -/
def TokenEndpoint.refresh (provider : TokenEndpoint) (refreshToken : Token)
    (expiresIn : Option Int) (scopes : List Text) : Option (TokenResponse × TokenEndpoint) :=
  if refreshToken ∈ provider.valid then
    let token := ⟨provider.issued, refreshToken.authorization, refreshToken.account⟩
    some (⟨token, some token, expiresIn, scopes⟩,
      ⟨provider.issued + 1, provider.valid.filter (· ≠ refreshToken) ++ [token]⟩)
  else none

/-- The user or the provider ends what a refresh token is good for. -/
def TokenEndpoint.revoke (provider : TokenEndpoint) (refreshToken : Token) : TokenEndpoint :=
  { provider with valid := provider.valid.filter (· ≠ refreshToken) }

/-! ## The grant -/

/-- `encrypt_token`: two encryptions of a token differ in their nonces. -/
structure EncryptedToken where
  nonce : Nat
  plaintext : Token
deriving DecidableEq, Repr

def decryptToken (blob : EncryptedToken) : Token := blob.plaintext

inductive ExternalGitGrantStatus
  | active
  | reauthRequired
  | revoked
deriving DecidableEq, Repr

/-- The reasons that are recorded as `last_error`. -/
inductive ReauthorizationReason
  | refreshTokenMissing
  | tokenRefreshRejected
  | apiRejectedRefreshedToken
  | gitRejectedRefreshedToken
deriving DecidableEq, Repr

/-- A row of `external_git_oauth_grants`. -/
structure OAuthGrantRow where
  providerAccountId : Text
  providerUsername : Text
  encryptedAccessToken : EncryptedToken
  encryptedRefreshToken : Option EncryptedToken
  refreshRedirectUri : Text
  scopes : List Text
  expiresAt : Option Timestamp
  status : ExternalGitGrantStatus
  lastError : Option ReauthorizationReason
deriving DecidableEq, Repr

/-- `OAuthGrantSecretsRecord`, what `oauth_grant` selects. -/
structure OAuthGrantSecrets where
  encryptedAccessToken : EncryptedToken
  encryptedRefreshToken : Option EncryptedToken
  refreshRedirectUri : Text
  expiresAt : Option Timestamp
  status : ExternalGitGrantStatus
deriving DecidableEq, Repr

def oauthGrant (row : Option OAuthGrantRow) : Option OAuthGrantSecrets :=
  row.map fun grant =>
    ⟨grant.encryptedAccessToken, grant.encryptedRefreshToken, grant.refreshRedirectUri,
      grant.expiresAt, grant.status⟩

/-- `UpsertOAuthGrantRecord`. -/
structure UpsertOAuthGrantRecord where
  providerAccountId : Text
  providerUsername : Text
  encryptedAccessToken : EncryptedToken
  encryptedRefreshToken : Option EncryptedToken
  refreshRedirectUri : Text
  scopes : List Text
  expiresAt : Option Timestamp
deriving DecidableEq, Repr

/-- `upsert_oauth_grant`, with whether it touched a row. -/
def upsertOAuthGrant (row : Option OAuthGrantRow) (record : UpsertOAuthGrantRecord) :
    Option OAuthGrantRow × Bool :=
  let written : OAuthGrantRow :=
    { providerAccountId := record.providerAccountId
      providerUsername := record.providerUsername
      encryptedAccessToken := record.encryptedAccessToken
      encryptedRefreshToken := record.encryptedRefreshToken
      refreshRedirectUri := record.refreshRedirectUri
      scopes := record.scopes
      expiresAt := record.expiresAt
      status := .active
      lastError := none }
  match row with
  | none => (some written, true)
  | some grant =>
    if grant.providerAccountId = record.providerAccountId then (some written, true)
    else (some grant, false)

/-- The condition of both compare-and-swap statements. -/
def OAuthGrantRow.isCurrent (grant : OAuthGrantRow) (previousAccess : EncryptedToken)
    (previousRefresh : Option EncryptedToken) : Bool :=
  grant.status = .active && grant.encryptedAccessToken = previousAccess
    && grant.encryptedRefreshToken = previousRefresh

/-- `mark_grant_reauthorization_required_if_current`. -/
def markGrantReauthorizationRequiredIfCurrent (row : Option OAuthGrantRow)
    (previousAccess : EncryptedToken) (previousRefresh : Option EncryptedToken)
    (reason : ReauthorizationReason) : Option OAuthGrantRow × Bool :=
  match row with
  | none => (none, false)
  | some grant =>
    if grant.isCurrent previousAccess previousRefresh then
      (some { grant with status := .reauthRequired, lastError := some reason }, true)
    else (some grant, false)

/-- `mark_grant_reauthorization_required_in_pool`. -/
def markGrantReauthorizationRequired (row : Option OAuthGrantRow)
    (reason : ReauthorizationReason) : Option OAuthGrantRow :=
  row.map fun grant => { grant with status := .reauthRequired, lastError := some reason }

/-- `RefreshedOAuthGrantRecord`. -/
structure RefreshedOAuthGrantRecord where
  previousEncryptedAccessToken : EncryptedToken
  previousEncryptedRefreshToken : Option EncryptedToken
  encryptedAccessToken : EncryptedToken
  encryptedRefreshToken : EncryptedToken
  expiresAt : Option Timestamp
  scopes : List Text
deriving DecidableEq, Repr

/-- `update_refreshed_oauth_grant`. -/
def updateRefreshedOAuthGrant (row : Option OAuthGrantRow) (record : RefreshedOAuthGrantRecord) :
    Option OAuthGrantRow × Bool :=
  match row with
  | none => (none, false)
  | some grant =>
    if grant.isCurrent record.previousEncryptedAccessToken
        record.previousEncryptedRefreshToken then
      (some
        { grant with
          encryptedAccessToken := record.encryptedAccessToken
          encryptedRefreshToken := some record.encryptedRefreshToken
          expiresAt := record.expiresAt
          scopes := if record.scopes.isEmpty then grant.scopes else record.scopes
          status := .active
          lastError := none }, true)
    else (some grant, false)

/-! ## Callers -/

/-- The ends of a call other than its result. -/
inductive ProviderAccessTokenError
  | notConnected
  | reauthorizationRequired
  | concurrentRefreshUnavailable
  | accountMismatch
  | interrupted
deriving DecidableEq, Repr

/-- `ExternalGitGrantInput`, less the choice to bind a login identity. -/
structure ExternalGitGrantInput where
  username : Text
  refreshRedirectUri : Text
  tokens : TokenResponse
deriving DecidableEq, Repr

/-- Between two stages lies one statement, request or answer. `forced` says which of the
two calls of `provider_access_token` an operation of the gateway is in. -/
inductive CredentialStage
  | idle
  | loading (forced : Bool)
  | missing (forced : Bool) (grant : OAuthGrantSecrets)
  | requesting (forced : Bool) (grant : OAuthGrantSecrets) (refreshToken : Token)
  | rejected (forced : Bool) (grant : OAuthGrantSecrets)
  | answered (forced : Bool) (grant : OAuthGrantSecrets) (refreshToken : Token)
      (refreshed : TokenResponse)
  | refreshed (forced : Bool) (grant : OAuthGrantSecrets) (refreshToken : Token)
      (refreshed : TokenResponse)
  | reloading (forced : Bool)
  | holding (forced : Bool) (accessToken : Token)
  | refused (accessToken : Token) (reason : ReauthorizationReason)
  | exchanged (input : ExternalGitGrantInput)
  | authorized (input : ExternalGitGrantInput)
  | ended (error : Option ProviderAccessTokenError)
deriving DecidableEq, Repr

/-- The next statement of the caller updates the grant. -/
def CredentialStage.updates : CredentialStage → Bool
  | .missing _ _ | .rejected _ _ | .refreshed _ _ _ _ | .refused _ _ | .authorized _ => true
  | _ => false

structure Credentials where
  row : Option OAuthGrantRow
  provider : TokenEndpoint
  callers : Nat → CredentialStage
  /-- The refresh tokens that the server was sent. -/
  received : List Token

inductive CredentialAction
  /-- An operation asks for an access token. -/
  | call (caller : Nat) (forced : Bool)
  /-- The user authorizes the application; the provider answers the code. -/
  | connect (caller : Nat) (account username refreshRedirectUri : Text) (refreshable : Bool)
      (expiresIn : Option Int) (scopes : List Text)
  /-- The next statement of a caller, or an answer that reaches it. -/
  | advance (caller : Nat) (now : Timestamp) (accessNonce refreshNonce : Nat)
  /-- The provider processes a refresh request. -/
  | answer (caller : Nat) (expiresIn : Option Int) (scopes : List Text)
  /-- The provider accepts or refuses the access token of an operation. -/
  | accept (caller : Nat)
  | refuse (caller : Nat) (reason : ReauthorizationReason)
  /-- The caller fails or is dropped, or does so behind an update that took place. -/
  | interrupt (caller : Nat)
  | interruptAfter (caller : Nat) (now : Timestamp) (accessNonce refreshNonce : Nat)
  | revoke (refreshToken : Token)
deriving DecidableEq, Repr

/-- The caller whose step an action is. -/
def CredentialAction.caller : CredentialAction → Option Nat
  | .call caller _ | .connect caller _ _ _ _ _ _ | .advance caller _ _ _ | .answer caller _ _
  | .accept caller | .refuse caller _ | .interrupt caller | .interruptAfter caller _ _ _ =>
    some caller
  | .revoke _ => none

namespace Credentials

def goto (s : Credentials) (caller : Nat) (stage : CredentialStage) : Credentials :=
  { s with callers := Function.update s.callers caller stage }

/-- `now + chrono::Duration::seconds(seconds.max(0))`. -/
def expiry (now : Timestamp) (expiresIn : Option Int) : Option Timestamp :=
  expiresIn.map fun seconds => now + max seconds 0

/-- What `provider_access_token` does with the grant it loaded. -/
def afterLoad (forced : Bool) (now : Timestamp) :
    Option OAuthGrantSecrets → CredentialStage
  | none => .ended (some .notConnected)
  | some grant =>
    if grant.status ≠ .active then .ended (some .reauthorizationRequired)
    else if !forced && grant.expiresAt.all (fun value => value > now + 90) then
      .holding forced (decryptToken grant.encryptedAccessToken)
    else
      match grant.encryptedRefreshToken with
      | none => .missing forced grant
      | some encrypted => .requesting forced grant (decryptToken encrypted)

/-- `access_token_after_concurrent_grant_update`. -/
def afterReload (forced : Bool) (now : Timestamp) :
    Option OAuthGrantSecrets → CredentialStage
  | none => .ended (some .notConnected)
  | some grant =>
    if grant.status ≠ .active then .ended (some .reauthorizationRequired)
    else if grant.expiresAt.any (fun expiresAt => expiresAt ≤ now + 30) then
      .ended (some .concurrentRefreshUnavailable)
    else .holding forced (decryptToken grant.encryptedAccessToken)

def refreshedRecord (grant : OAuthGrantSecrets) (refreshToken : Token)
    (refreshed : TokenResponse) (now : Timestamp) (accessNonce refreshNonce : Nat) :
    RefreshedOAuthGrantRecord :=
  let rotated := refreshed.refreshToken.getD refreshToken
  { previousEncryptedAccessToken := grant.encryptedAccessToken
    previousEncryptedRefreshToken := grant.encryptedRefreshToken
    encryptedAccessToken := ⟨accessNonce, refreshed.accessToken⟩
    encryptedRefreshToken := ⟨refreshNonce, rotated⟩
    expiresAt := expiry now refreshed.expiresIn
    scopes := refreshed.scopes }

def upsertRecord (input : ExternalGitGrantInput) (now : Timestamp)
    (accessNonce refreshNonce : Nat) : UpsertOAuthGrantRecord :=
  { providerAccountId := input.tokens.accessToken.account
    providerUsername := input.username
    encryptedAccessToken := ⟨accessNonce, input.tokens.accessToken⟩
    encryptedRefreshToken := input.tokens.refreshToken.map fun token => ⟨refreshNonce, token⟩
    refreshRedirectUri := input.refreshRedirectUri
    scopes := input.tokens.scopes
    expiresAt := expiry now input.tokens.expiresIn }

/-- The state behind the next statement of a caller, and where it leaves the caller. -/
def advance (s : Credentials) (caller : Nat) (now : Timestamp) (accessNonce refreshNonce : Nat) :
    Option Credentials :=
  match s.callers caller with
  | .loading forced => some (s.goto caller (afterLoad forced now (oauthGrant s.row)))
  | .missing forced grant =>
    let mark := markGrantReauthorizationRequiredIfCurrent s.row grant.encryptedAccessToken none
      .refreshTokenMissing
    let stage := if mark.2 then .ended (some .reauthorizationRequired) else .reloading forced
    some { s.goto caller stage with row := mark.1 }
  | .rejected forced grant =>
    let mark := markGrantReauthorizationRequiredIfCurrent s.row grant.encryptedAccessToken
      grant.encryptedRefreshToken .tokenRefreshRejected
    let stage := if mark.2 then .ended (some .reauthorizationRequired) else .reloading forced
    some { s.goto caller stage with row := mark.1 }
  | .answered forced grant refreshToken refreshed =>
    some
      { s.goto caller (.refreshed forced grant refreshToken refreshed) with
        received := s.received ++ refreshed.refreshToken.toList }
  | .refreshed forced grant refreshToken refreshed =>
    let swap := updateRefreshedOAuthGrant s.row
      (refreshedRecord grant refreshToken refreshed now accessNonce refreshNonce)
    let stage := if swap.2 then .holding forced refreshed.accessToken else .reloading forced
    some { s.goto caller stage with row := swap.1 }
  | .reloading forced => some (s.goto caller (afterReload forced now (oauthGrant s.row)))
  | .refused _ reason =>
    some
      { s.goto caller (.ended (some .reauthorizationRequired)) with
        row := markGrantReauthorizationRequired s.row reason }
  | .exchanged input =>
    some
      { s.goto caller (.authorized input) with
        received := s.received ++ input.tokens.refreshToken.toList }
  | .authorized input =>
    let upsert := upsertOAuthGrant s.row (upsertRecord input now accessNonce refreshNonce)
    let stage := if upsert.2 then .ended none else .ended (some .accountMismatch)
    some { s.goto caller stage with row := upsert.1 }
  | _ => none

def step (s : Credentials) : CredentialAction → Option Credentials
  | .call caller forced =>
    if s.callers caller = .idle then some (s.goto caller (.loading forced)) else none
  | .connect caller account username refreshRedirectUri refreshable expiresIn scopes =>
    if s.callers caller = .idle then
      let (tokens, provider) := s.provider.exchange account refreshable expiresIn scopes
      some { s.goto caller (.exchanged ⟨username, refreshRedirectUri, tokens⟩) with provider }
    else none
  | .advance caller now accessNonce refreshNonce => s.advance caller now accessNonce refreshNonce
  | .answer caller expiresIn scopes =>
    match s.callers caller with
    | .requesting forced grant refreshToken =>
      match s.provider.refresh refreshToken expiresIn scopes with
      | none => some (s.goto caller (.rejected forced grant))
      | some (refreshed, provider) =>
        some { s.goto caller (.answered forced grant refreshToken refreshed) with provider }
    | _ => none
  | .accept caller =>
    match s.callers caller with
    | .holding _ _ => some (s.goto caller (.ended none))
    | _ => none
  | .refuse caller reason =>
    match s.callers caller with
    | .holding false _ => some (s.goto caller (.loading true))
    | .holding true accessToken => some (s.goto caller (.refused accessToken reason))
    | _ => none
  | .interrupt caller => some (s.goto caller (.ended (some .interrupted)))
  | .interruptAfter caller now accessNonce refreshNonce =>
    if (s.callers caller).updates then
      (s.advance caller now accessNonce refreshNonce).map fun after =>
        after.goto caller (.ended (some .interrupted))
    else none
  | .revoke refreshToken => some { s with provider := s.provider.revoke refreshToken }

/-- No grant yet, and nothing asked of the provider. -/
def initial : Credentials := ⟨none, ⟨0, []⟩, fun _ => .idle, []⟩

/-- Nobody is under way. -/
def Quiet (s : Credentials) : Prop :=
  ∀ caller, s.callers caller = .idle ∨ ∃ error, s.callers caller = .ended error

end Credentials

end Toss.ExternalRepositories
