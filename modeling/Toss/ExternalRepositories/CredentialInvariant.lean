import Toss.ExternalRepositories.Credentials
import Toss.Foundation.Run

/-!
# Where the latest refresh token is

An authorization has one refresh token at a time that is good, the latest. It lies in the
grant, or with the one caller that refreshed the grant and has not stored the answer, or with
the caller that completes the authorization; a caller that loaded the grant before holds an
earlier one.

* `Credentials.Sound` — the invariant;
* `Sound.leave`, `Sound.receive`, `Sound.issue`, `Sound.answer`, `Sound.connect`,
  `Sound.write`, `Sound.mark`, `Sound.revoke` — what a step of each kind keeps of it.
-/

namespace Toss.ExternalRepositories

def OAuthGrantRow.token (row : OAuthGrantRow) : Token := decryptToken row.encryptedAccessToken

def OAuthGrantSecrets.token (grant : OAuthGrantSecrets) : Token :=
  decryptToken grant.encryptedAccessToken

/-- The grant a caller works from. -/
def CredentialStage.grant : CredentialStage → Option OAuthGrantSecrets
  | .missing _ grant | .requesting _ grant _ | .rejected _ grant | .answered _ grant _ _
  | .refreshed _ grant _ _ => some grant
  | _ => none

/-- The tokens a caller was or is being sent and has not stored. -/
def CredentialStage.pending : CredentialStage → Option Token
  | .answered _ _ _ response | .refreshed _ _ _ response => some response.accessToken
  | .exchanged input | .authorized input => some input.tokens.accessToken
  | _ => none

namespace Credentials

variable {s : Credentials} {caller : Nat} {stage : CredentialStage}

/-- What is known of a stored pair of tokens. -/
structure Holding (s : Credentials) (access : EncryptedToken) (refresh : Option EncryptedToken) :
    Prop where
  number_lt : access.plaintext.number < s.provider.issued
  authorization_lt : access.plaintext.authorization < s.provider.issued
  refresh_eq : ∀ blob, refresh = some blob →
    blob.plaintext = access.plaintext ∧ access.plaintext ∈ s.received
  missing : refresh = none → access.plaintext ∉ s.provider.valid

/-- The answer to a refresh of a grant. -/
structure Rotation (s : Credentials) (grant : OAuthGrantSecrets) (refreshed : TokenResponse) :
    Prop where
  refresh_eq : refreshed.refreshToken = some refreshed.accessToken
  authorization_eq : refreshed.accessToken.authorization = grant.token.authorization
  later : grant.token.number < refreshed.accessToken.number
  number_lt : refreshed.accessToken.number < s.provider.issued

/-- The answer to an authorization code. -/
structure Opening (s : Credentials) (tokens : TokenResponse) : Prop where
  refresh_eq : ∀ token, tokens.refreshToken = some token → token = tokens.accessToken
  missing : tokens.refreshToken = none → tokens.accessToken ∉ s.provider.valid
  number_lt : tokens.accessToken.number < s.provider.issued
  authorization_lt : tokens.accessToken.authorization < s.provider.issued

/-- What a caller knows in each stage. -/
def StageSound (s : Credentials) : CredentialStage → Prop
  | .missing _ grant =>
    s.Holding grant.encryptedAccessToken grant.encryptedRefreshToken
      ∧ grant.encryptedRefreshToken = none
  | .requesting _ grant refreshToken =>
    s.Holding grant.encryptedAccessToken grant.encryptedRefreshToken
      ∧ grant.encryptedRefreshToken.map decryptToken = some refreshToken
  | .rejected _ grant =>
    s.Holding grant.encryptedAccessToken grant.encryptedRefreshToken
      ∧ grant.token ∉ s.provider.valid
  | .answered _ grant _ refreshed =>
    s.Holding grant.encryptedAccessToken grant.encryptedRefreshToken
      ∧ s.Rotation grant refreshed ∧ refreshed.accessToken ∉ s.received
  | .refreshed _ grant _ refreshed =>
    s.Holding grant.encryptedAccessToken grant.encryptedRefreshToken
      ∧ s.Rotation grant refreshed ∧ refreshed.accessToken ∈ s.received
  | .exchanged input => s.Opening input.tokens ∧ input.tokens.accessToken ∉ s.received
  | .authorized input =>
    s.Opening input.tokens
      ∧ ∀ token, input.tokens.refreshToken = some token → token ∈ s.received
  | _ => True

/-- The caller has been sent `token` and is about to store it. -/
def Refreshing (s : Credentials) (token : Token) : Prop :=
  ∃ caller forced grant refreshToken refreshed,
    s.callers caller = .refreshed forced grant refreshToken refreshed
      ∧ refreshed.accessToken = token

/-- The refresh token has reached the server, or is on its way in the answer to a refresh. -/
def Reaches (s : Credentials) (token : Token) : Prop :=
  token ∈ s.received ∨ ∃ caller forced grant refreshToken refreshed,
    s.callers caller = .answered forced grant refreshToken refreshed
      ∧ refreshed.accessToken = token

/-- An authorization with this token is about to be stored. -/
def Authorizing (s : Credentials) (token : Token) : Prop :=
  ∃ caller input, s.callers caller = .authorized input ∧ input.tokens.accessToken = token

structure Sound (s : Credentials) : Prop where
  valid_lt : ∀ token ∈ s.provider.valid,
    token.number < s.provider.issued ∧ token.authorization < s.provider.issued
  valid_unique : ∀ token ∈ s.provider.valid, ∀ other ∈ s.provider.valid,
    token.authorization = other.authorization → token = other
  received_lt : ∀ token ∈ s.received, token.number < s.provider.issued
  row : ∀ row, s.row = some row →
    s.Holding row.encryptedAccessToken row.encryptedRefreshToken
  stage : ∀ caller, s.StageSound (s.callers caller)
  latest : ∀ caller token, (s.callers caller).pending = some token →
    ∀ other ∈ s.provider.valid, other.authorization = token.authorization → other = token
  unstored : ∀ caller token, (s.callers caller).pending = some token →
    ∀ row, s.row = some row → token ≠ row.token
  unloaded : ∀ caller token, (s.callers caller).pending = some token →
    ∀ other grant, (s.callers other).grant = some grant → token ≠ grant.token
  apart : ∀ caller token, (s.callers caller).pending = some token →
    ∀ other token', (s.callers other).pending = some token' → other ≠ caller →
      token.authorization ≠ token'.authorization
  opening : ∀ caller input,
    (s.callers caller = .exchanged input ∨ s.callers caller = .authorized input) →
    ∀ row, s.row = some row →
      input.tokens.accessToken.authorization ≠ row.token.authorization
  same : ∀ caller grant, (s.callers caller).grant = some grant → ∀ row, s.row = some row →
    grant.token = row.token →
      row.encryptedAccessToken = grant.encryptedAccessToken
        ∧ row.encryptedRefreshToken = grant.encryptedRefreshToken
  current : ∀ caller grant token, (s.callers caller).grant = some grant →
    (s.callers caller).pending = some token → ∀ row, s.row = some row →
    token.authorization = row.token.authorization →
      row.isCurrent grant.encryptedAccessToken grant.encryptedRefreshToken = true
  stored : ∀ row, s.row = some row → ∀ token ∈ s.received, token ∈ s.provider.valid →
    token.authorization = row.token.authorization → token = row.token ∨ s.Refreshing token
  due : ∀ row, s.row = some row → row.status ≠ .active → ∀ token ∈ s.provider.valid,
    s.Reaches token → s.Authorizing token

/-! ## Frame facts -/

theorem callers_goto (other : Nat) :
    (s.goto caller stage).callers other = if other = caller then stage else s.callers other :=
  Function.update_apply ..

/-- The other callers stay where they are. -/
theorem callers_goto_of_ne {other : Nat} {stage' : CredentialStage}
    (h : s.callers other = stage') (hne : s.callers caller ≠ stage') :
    (s.goto caller stage).callers other = stage' := by
  rw [callers_goto, if_neg, h]
  rintro rfl
  exact hne h

theorem initial_sound : initial.Sound where
  valid_lt := by simp [initial]
  valid_unique := by simp [initial]
  received_lt := by simp [initial]
  row := by simp [initial]
  stage := by simp [initial, StageSound]
  latest := by simp [initial, CredentialStage.pending]
  unstored := by simp [initial, CredentialStage.pending]
  unloaded := by simp [initial, CredentialStage.pending]
  apart := by simp [initial, CredentialStage.pending]
  opening := by simp [initial]
  same := by simp [initial]
  current := by simp [initial]
  stored := by simp [initial]
  due := by simp [initial]

/-- Tokens sent to the server, issued or ended leave what a caller knows. -/
theorem StageSound.mono {s' : Credentials} {stage : CredentialStage} (h : s.StageSound stage)
    (hissued : s.provider.issued ≤ s'.provider.issued)
    (hvalid : ∀ token ∈ s'.provider.valid, token ∈ s.provider.valid
      ∨ s.provider.issued ≤ token.number)
    (hreceived : ∀ token ∈ s.received, token ∈ s'.received)
    (hpending : ∀ token, stage.pending = some token → token ∈ s'.received → token ∈ s.received) :
    s'.StageSound stage := by
  -- numbers are given out in order, and a token that has become invalid stays so
  have hholding : ∀ access refresh, s.Holding access refresh → s'.Holding access refresh := by
    intro access refresh hold
    refine ⟨by have := hold.number_lt; omega, by have := hold.authorization_lt; omega, ?_, ?_⟩
    · intro blob hblob
      rcases hold.refresh_eq blob hblob with ⟨heq, hmem⟩
      exact ⟨heq, hreceived _ hmem⟩
    · intro hnone hmem
      rcases hvalid _ hmem with hold' | hge
      · exact hold.missing hnone hold'
      · have := hold.number_lt
        omega
  have hrotation : ∀ grant refreshed, s.Rotation grant refreshed → s'.Rotation grant refreshed := by
    intro grant refreshed hrot
    exact ⟨hrot.refresh_eq, hrot.authorization_eq, hrot.later,
      by have := hrot.number_lt; omega⟩
  have hopening : ∀ tokens, s.Opening tokens → s'.Opening tokens := by
    intro tokens hopen
    refine ⟨hopen.refresh_eq, ?_, by have := hopen.number_lt; omega,
      by have := hopen.authorization_lt; omega⟩
    intro hnone hmem
    rcases hvalid _ hmem with hold | hge
    · exact hopen.missing hnone hold
    · have := hopen.number_lt
      omega
  cases stage with
  | missing forced grant | requesting forced grant refreshToken => exact ⟨hholding _ _ h.1, h.2⟩
  | rejected forced grant =>
    refine ⟨hholding _ _ h.1, ?_⟩
    intro hmem
    rcases hvalid _ hmem with hold | hge
    · exact h.2 hold
    · have := h.1.number_lt
      simp only [OAuthGrantSecrets.token, decryptToken] at hge
      omega
  | answered forced grant refreshToken refreshed =>
    -- the pair of a pending answer has still not been received
    exact ⟨hholding _ _ h.1, hrotation _ _ h.2.1, fun hmem => h.2.2 (hpending _ rfl hmem)⟩
  | refreshed forced grant refreshToken refreshed =>
    exact ⟨hholding _ _ h.1, hrotation _ _ h.2.1, hreceived _ h.2.2⟩
  | exchanged input => exact ⟨hopening _ h.1, fun hmem => h.2 (hpending _ rfl hmem)⟩
  | authorized input =>
    exact ⟨hopening _ h.1, fun token htoken => hreceived _ (h.2 token htoken)⟩
  | idle | loading forced | reloading forced | holding forced accessToken
  | refused accessToken reason | ended error => trivial

/-! ## Leaving a stage -/

variable {other : Nat} {refreshToken : Token} {forced : Bool}

variable {token : Token}

/-- What a caller holds after a step is what it held before, or the grant in the row. -/
theorem pending_of_goto (hnone : stage.pending = none)
    (h : ((s.goto caller stage).callers other).pending = some token) :
    (s.callers other).pending = some token := by
  rw [callers_goto] at h
  split at h
  · simp [hnone] at h
  · exact h

variable {grant : OAuthGrantSecrets} {tokens : TokenResponse}

theorem grant_of_goto (hgrant : ∀ grant, stage.grant = some grant →
      (s.callers caller).grant = some grant ∨ oauthGrant s.row = some grant)
    (h : ((s.goto caller stage).callers other).grant = some grant) :
    (∃ from', (s.callers from').grant = some grant) ∨ oauthGrant s.row = some grant := by
  rw [callers_goto] at h
  split at h
  · rcases hgrant grant h with hcaller | hrow
    · exact Or.inl ⟨caller, hcaller⟩
    · exact Or.inr hrow
  · exact Or.inl ⟨other, h⟩

/-- A caller goes to a stage in which it has nothing to store. Tokens it gives up are not
those of the grant. -/
theorem Sound.leave (h : s.Sound) (hnone : stage.pending = none) (hstage : s.StageSound stage)
    (hgrant : ∀ grant, stage.grant = some grant →
      (s.callers caller).grant = some grant ∨ oauthGrant s.row = some grant)
    (hrefreshed : ∀ forced grant refreshToken refreshed,
      s.callers caller = .refreshed forced grant refreshToken refreshed →
      ∀ row, s.row = some row →
        refreshed.accessToken.authorization ≠ row.token.authorization)
    (hauthorized : ∀ input, s.callers caller = .authorized input →
      ∀ row, s.row = some row → row.status = .active) :
    (s.goto caller stage).Sound where
  valid_lt := h.valid_lt
  valid_unique := h.valid_unique
  received_lt := h.received_lt
  -- the row and what the provider and the server have stay as they are
  row := by
    intro row hrow
    have hold := h.row row hrow
    exact ⟨hold.number_lt, hold.authorization_lt, hold.refresh_eq, hold.missing⟩
  stage := by
    intro other
    rw [callers_goto]
    have hkeep : ∀ stage', s.StageSound stage' → (s.goto caller stage).StageSound stage' := by
      intro stage' hsound
      exact hsound.mono (Nat.le_refl _) (fun _ ht => Or.inl ht) (fun _ ht => ht)
        (fun _ _ ht => ht)
    split
    · exact hkeep _ hstage
    · exact hkeep _ (h.stage other)
  latest := by
    intro other token htoken
    exact h.latest other token (pending_of_goto hnone htoken)
  unstored := by
    intro other token htoken
    exact h.unstored other token (pending_of_goto hnone htoken)
  unloaded := by
    intro other token htoken loader grant hloader
    have hpending := pending_of_goto hnone htoken
    rcases grant_of_goto hgrant hloader with ⟨loader, hloaded⟩ | hload
    · exact h.unloaded other token hpending loader grant hloaded
    · rcases Option.map_eq_some_iff.mp hload with ⟨row, hrow, rfl⟩
      exact h.unstored other token hpending row hrow
  apart := by
    intro other token htoken third token' htoken'
    exact h.apart other token (pending_of_goto hnone htoken) third token'
      (pending_of_goto hnone htoken')
  opening := by
    intro other input hinput
    refine h.opening other input ?_
    rw [callers_goto] at hinput
    split at hinput
    · rcases hinput with rfl | rfl <;> cases hnone
    · exact hinput
  same := by
    intro loader grant hloader row hrow heq
    -- a grant that is loaded here is the one of the row
    rcases grant_of_goto hgrant hloader with ⟨loader, hloaded⟩ | hload
    · exact h.same loader grant hloaded row hrow heq
    · rcases Option.map_eq_some_iff.mp hload with ⟨row', hrow', rfl⟩
      rcases Option.mem_some_iff.mp (hrow ▸ hrow' : some row = some row') with rfl
      exact ⟨rfl, rfl⟩
  current := by
    intro other grant token hother htoken
    rw [callers_goto] at hother htoken
    split at htoken
    · simp [hnone] at htoken
    · rename_i hne
      rw [if_neg hne] at hother
      exact h.current other grant token hother htoken
  stored := by
    intro row hrow token hreceived hvalid hauth
    rcases h.stored row hrow token hreceived hvalid hauth with heq | ⟨other, hother⟩
    · exact Or.inl heq
    right
    refine ⟨other, ?_⟩
    rw [callers_goto]
    split
    · -- the caller that leaves held tokens of another authorization
      rename_i heq
      rcases hother with ⟨forced, grant, refreshToken, refreshed, hother, htoken⟩
      rw [heq] at hother
      have hne := hrefreshed forced grant refreshToken refreshed hother row hrow
      rw [htoken] at hne
      exact absurd hauth hne
    · exact hother
  due := by
    intro row hrow hstatus token hvalid hreaches
    -- the caller had nothing that reaches the token from here
    have hbefore : s.Reaches token := by
      rcases hreaches with hreceived | ⟨other, forced, grant, refreshToken, refreshed, hother, heq⟩
      · exact Or.inl hreceived
      have hpending : ((s.goto caller stage).callers other).pending = some token := by
        rw [hother]
        exact congrArg some heq
      right
      refine ⟨other, forced, grant, refreshToken, refreshed, ?_, heq⟩
      rw [callers_goto] at hother hpending
      split at hpending
      · simp [hnone] at hpending
      · rename_i hne
        rw [if_neg hne] at hother
        exact hother
    rcases h.due row hrow hstatus token hvalid hbefore with ⟨other, input, hother, heq⟩
    refine ⟨other, input, ?_, heq⟩
    rw [callers_goto]
    split
    · rename_i hcaller
      rw [hcaller] at hother
      exact absurd (hauthorized input hother row hrow) hstatus
    · exact hother

/-! ## Answers that reach the server -/

/-- An answer that is on its way, and the stage it is received in. -/
def Receives (before after : CredentialStage) (tokens : TokenResponse) : Prop :=
  (∃ forced grant refreshToken, before = .answered forced grant refreshToken tokens
      ∧ after = .refreshed forced grant refreshToken tokens)
    ∨ ∃ input, before = .exchanged input ∧ after = .authorized input ∧ input.tokens = tokens

variable {after before : CredentialStage}

theorem Receives.pending (h : Receives before after tokens) :
    before.pending = some tokens.accessToken ∧ after.pending = some tokens.accessToken
      ∧ after.grant = before.grant := by
  rcases h with ⟨forced, grant, refreshToken, rfl, rfl⟩ | ⟨input, rfl, rfl, rfl⟩
  · exact ⟨rfl, rfl, rfl⟩
  · exact ⟨rfl, rfl, rfl⟩

/-- The refresh token of an answer is told by its access token. -/
theorem StageSound.refreshToken_eq (h : s.StageSound before)
    (hrec : Receives before after tokens) :
    ∀ token ∈ tokens.refreshToken.toList, token = tokens.accessToken := by
  intro token htoken
  rw [Option.mem_toList] at htoken
  rcases hrec with ⟨forced, grant, refreshToken, rfl, rfl⟩ | ⟨input, rfl, rfl, rfl⟩
  · rw [h.2.1.refresh_eq] at htoken
    exact (Option.some.inj htoken).symm
  · exact h.1.refresh_eq token htoken

theorem Sound.receive (h : s.Sound) (hrec : Receives (s.callers caller) stage tokens) :
    Sound { s.goto caller stage with
      received := s.received ++ tokens.refreshToken.toList } := by
  rcases hrec.pending with ⟨hbefore, hafter, hsame⟩
  have hmore := (h.stage caller).refreshToken_eq hrec
  have hpending : ∀ other, ((s.goto caller stage).callers other).pending
      = (s.callers other).pending := by
    intro other
    rw [callers_goto]
    split
    · rename_i heq
      rw [heq, hafter, hbefore]
    · rfl
  have hgrant : ∀ other, ((s.goto caller stage).callers other).grant
      = (s.callers other).grant := by
    intro other
    rw [callers_goto]
    split
    · rename_i heq
      rw [heq, hsame]
    · rfl
  have hnumber : tokens.accessToken.number < s.provider.issued := by
    have hsound := h.stage caller
    rcases hrec with ⟨forced, grant, refreshToken, hcaller, -⟩ | ⟨input, hcaller, -, rfl⟩
    · rw [hcaller] at hsound
      exact hsound.2.1.number_lt
    · rw [hcaller] at hsound
      exact hsound.1.number_lt
  have hmem : ∀ token, token ∈ s.received ++ tokens.refreshToken.toList →
      token ∈ s.received ∨ token = tokens.accessToken := by
    intro token htoken
    rcases List.mem_append.mp htoken with hold | hnew
    · exact Or.inl hold
    · exact Or.inr (hmore token hnew)
  constructor
  case valid_lt => exact h.valid_lt
  case valid_unique => exact h.valid_unique
  case received_lt =>
    intro token htoken
    rcases hmem token htoken with hold | rfl
    · exact h.received_lt token hold
    · exact hnumber
  case row =>
    -- the server has been sent more, and no stored pair changes
    intro row hrow
    have hold := h.row row hrow
    refine ⟨hold.number_lt, hold.authorization_lt, ?_, hold.missing⟩
    intro blob hblob
    rcases hold.refresh_eq blob hblob with ⟨heq, hin⟩
    exact ⟨heq, List.mem_append_left _ hin⟩
  case stage =>
    intro other
    have hkeep : ∀ stage', s.StageSound stage' →
        (∀ token, stage'.pending = some token → token ≠ tokens.accessToken) →
        StageSound { s.goto caller stage with
          received := s.received ++ tokens.refreshToken.toList } stage' := by
      intro stage' hsound hne
      refine hsound.mono (Nat.le_refl _) (fun _ ht => Or.inl ht)
        (fun _ ht => List.mem_append_left _ ht) ?_
      intro token htoken hin
      rcases hmem token hin with hold | heq
      · exact hold
      · exact absurd heq (hne token htoken)
    show StageSound _ ((s.goto caller stage).callers other)
    rw [callers_goto]
    split
    · -- the receiving caller: what it knew, and that the refresh token has arrived
      have hsound := h.stage caller
      rcases hrec with ⟨forced, grant, refreshToken, hcaller, rfl⟩ | ⟨input, hcaller, rfl, rfl⟩
      · rw [hcaller] at hsound
        rcases hsound with ⟨hold, hrot, -⟩
        refine ⟨⟨hold.number_lt, hold.authorization_lt, ?_, hold.missing⟩,
          ⟨hrot.refresh_eq, hrot.authorization_eq, hrot.later,
            hrot.number_lt⟩, ?_⟩
        · intro blob hblob
          rcases hold.refresh_eq blob hblob with ⟨heq, hin⟩
          exact ⟨heq, List.mem_append_left _ hin⟩
        · exact List.mem_append_right _ (by rw [hrot.refresh_eq]; exact List.mem_singleton_self _)
      · rw [hcaller] at hsound
        rcases hsound with ⟨hopen, -⟩
        refine ⟨⟨hopen.refresh_eq, hopen.missing, hopen.number_lt, hopen.authorization_lt⟩, ?_⟩
        intro token htoken
        exact List.mem_append_right _ (by rw [htoken]; exact List.mem_singleton_self _)
    · rename_i hother
      refine hkeep _ (h.stage other) ?_
      intro token htoken heq
      exact h.apart caller _ hbefore other token htoken hother (by rw [heq])
  case latest =>
    intro other token htoken
    exact h.latest other token (hpending other ▸ htoken)
  case unstored =>
    intro other token htoken
    exact h.unstored other token (hpending other ▸ htoken)
  case unloaded =>
    intro other token htoken loader grant hloader
    exact h.unloaded other token (hpending other ▸ htoken) loader grant (hgrant loader ▸ hloader)
  case apart =>
    intro other token htoken third token' htoken'
    exact h.apart other token (hpending other ▸ htoken) third token' (hpending third ▸ htoken')
  case opening =>
    intro other input hinput
    change (s.goto caller stage).callers other = _ ∨ (s.goto caller stage).callers other = _
      at hinput
    rw [callers_goto] at hinput
    split at hinput
    · rename_i heq
      rcases hrec with ⟨forced, grant, refreshToken, hcaller, rfl⟩ | ⟨input', hcaller, rfl, rfl⟩
      · rcases hinput with hinput | hinput <;> cases hinput
      rcases hinput with hinput | hinput
      · cases hinput
      · cases hinput
        exact h.opening caller input (Or.inl hcaller)
    · exact h.opening other input hinput
  case same =>
    intro loader grant hloader
    exact h.same loader grant (hgrant loader ▸ hloader)
  case current =>
    intro other grant token hother htoken
    exact h.current other grant token (hgrant other ▸ hother) (hpending other ▸ htoken)
  case stored =>
    intro row hrow token htoken hvalid hauth
    have hrefreshing : s.Refreshing token → Refreshing { s.goto caller stage with
        received := s.received ++ tokens.refreshToken.toList } token := by
      rintro ⟨other, forced, grant, refreshToken, refreshed, hother, heq⟩
      refine ⟨other, forced, grant, refreshToken, refreshed, callers_goto_of_ne hother ?_, heq⟩
      rcases hrec with ⟨_, _, _, hcaller, -⟩ | ⟨_, hcaller, -⟩ <;> simp [hcaller]
    -- what has just arrived is refreshed and not stored, or opens another authorization
    rcases hmem token htoken with hold | rfl
    · exact (h.stored row hrow token hold hvalid hauth).imp_right hrefreshing
    rcases hrec with ⟨forced, grant, refreshToken, hcaller, rfl⟩ | ⟨input, hcaller, rfl, rfl⟩
    · right
      refine ⟨caller, forced, grant, refreshToken, tokens, ?_, rfl⟩
      show (s.goto caller _).callers caller = _
      rw [callers_goto, if_pos rfl]
    · exact absurd hauth (h.opening caller input (Or.inl hcaller) row hrow)
  case due =>
    intro row hrow hstatus token hvalid hreaches
    have hauthorizing : s.Authorizing token → Authorizing { s.goto caller stage with
        received := s.received ++ tokens.refreshToken.toList } token := by
      rintro ⟨other, input, hother, heq⟩
      refine ⟨other, input, callers_goto_of_ne hother ?_, heq⟩
      rcases hrec with ⟨_, _, _, hcaller, -⟩ | ⟨_, hcaller, -⟩ <;> simp [hcaller]
    -- a token that nobody reached before is one of an authorization under way
    have hcase : s.Reaches token ∨ ∃ input, s.callers caller = .exchanged input
        ∧ stage = .authorized input ∧ input.tokens.accessToken = token := by
      rcases hreaches with hreceived | ⟨other, forced, grant, refreshToken, refreshed, hother, heq⟩
      · rcases hmem token hreceived with hold | rfl
        · exact Or.inl (Or.inl hold)
        · rcases hrec with ⟨forced, grant, refreshToken, hcaller, -⟩ | ⟨input, hcaller, hstage, rfl⟩
          · exact Or.inl (Or.inr ⟨caller, forced, grant, refreshToken, tokens, hcaller, rfl⟩)
          · exact Or.inr ⟨input, hcaller, hstage, rfl⟩
      · left
        right
        refine ⟨other, forced, grant, refreshToken, refreshed, ?_, heq⟩
        change (s.goto caller stage).callers other = _ at hother
        rw [callers_goto] at hother
        split at hother
        · rcases hrec with ⟨_, _, _, -, rfl⟩ | ⟨_, -, rfl, -⟩ <;> cases hother
        · exact hother
    rcases hcase with hbefore | ⟨input, hcaller, hstage, heq⟩
    · exact hauthorizing (h.due row hrow hstatus token hvalid hbefore)
    · refine ⟨caller, input, ?_, heq⟩
      show (s.goto caller stage).callers caller = _
      rw [callers_goto, if_pos rfl, hstage]

/-! ## The provider's answers -/

/-- A caller that loaded a grant whose refresh token is still good has the latest of the
authorization, and nobody else is being sent another. -/
theorem Sound.pending_ne (h : s.Sound)
    (hcaller : s.callers caller = .requesting forced grant refreshToken)
    (hvalid : grant.token ∈ s.provider.valid) (hother : (s.callers other).pending = some token) :
    grant.token.authorization ≠ token.authorization := by
  intro hauth
  have heq := h.latest other token hother _ hvalid hauth
  exact h.unloaded other token hother caller grant (by rw [hcaller]; rfl) heq.symm

/-- What is known of a grant a caller loaded. -/
theorem Sound.loaded (h : s.Sound) (hloaded : (s.callers caller).grant = some grant) :
    s.Holding grant.encryptedAccessToken grant.encryptedRefreshToken := by
  have hsound := h.stage caller
  cases hstage : s.callers caller with
  | missing | requesting | rejected | answered | refreshed =>
    rw [hstage] at hloaded hsound
    cases hloaded
    exact hsound.1
  | idle | loading | reloading | holding | refused | exchanged | authorized | ended =>
    rw [hstage] at hloaded
    cases hloaded

theorem Sound.requested (h : s.Sound)
    (hcaller : s.callers caller = .requesting forced grant refreshToken) :
    s.Holding grant.encryptedAccessToken grant.encryptedRefreshToken
      ∧ refreshToken = grant.token ∧ grant.token ∈ s.received := by
  have hsound := h.stage caller
  rw [hcaller] at hsound
  rcases hsound with ⟨hold, htoken⟩
  rcases Option.map_eq_some_iff.mp htoken with ⟨blob, hblob, rfl⟩
  rcases hold.refresh_eq blob hblob with ⟨heq, hin⟩
  exact ⟨hold, heq, hin⟩

variable {provider : TokenEndpoint}

/-- A caller with nothing to store is sent a token that no other has, in place of what the
authorization had before. -/
theorem Sound.issue (h : s.Sound) (hpend : stage.pending = some token)
    (hissued : provider.issued = s.provider.issued + 1)
    (hnumber : token.number = s.provider.issued)
    (hauthorization : token.authorization < provider.issued) (hvalid : ∀ other ∈ provider.valid,
      (other ∈ s.provider.valid ∧ other.authorization ≠ token.authorization) ∨ other = token)
    (hapart : ∀ other token', (s.callers other).pending = some token' →
      token.authorization ≠ token'.authorization) (hbefore : (s.callers caller).pending = none)
    (hgrant : stage.grant = (s.callers caller).grant)
    (hstage : ∀ s' : Credentials, s'.provider = provider → s'.received = s.received →
      s'.StageSound (s.callers caller) → s'.StageSound stage)
    (hopening : ∀ input, stage = .exchanged input ∨ stage = .authorized input →
      ∀ row, s.row = some row → input.tokens.accessToken.authorization ≠ row.token.authorization)
    (hcurrent : ∀ grant, stage.grant = some grant → ∀ row, s.row = some row →
      row.status = .active ∧ (token.authorization = row.token.authorization →
        row.isCurrent grant.encryptedAccessToken grant.encryptedRefreshToken = true)) :
    Sound { s.goto caller stage with provider } := by
  have hnew : ∀ other : Token, other.number < s.provider.issued → token ≠ other := by
    rintro other hlt rfl
    exact absurd hnumber hlt.ne
  have hpending : ∀ other token', ((s.goto caller stage).callers other).pending = some token' →
      (other = caller ∧ token' = token)
        ∨ other ≠ caller ∧ (s.callers other).pending = some token' := by
    intro other token' h'
    rw [callers_goto] at h'
    split at h'
    · next heq => exact .inl ⟨heq, Option.some.inj (h'.symm.trans hpend)⟩
    · next hne => exact .inr ⟨hne, h'⟩
  have hgrants : ∀ other,
      ((s.goto caller stage).callers other).grant = (s.callers other).grant := by
    intro other
    rw [callers_goto]
    split
    · next heq => rw [heq, hgrant]
    · rfl
  have hkept : ∀ other token', (s.callers other).pending = some token' →
      (s.goto caller stage).callers other = s.callers other := by
    intro other token' hother
    refine callers_goto_of_ne rfl fun heq => ?_
    rw [← heq, hbefore] at hother
    cases hother
  constructor
  case valid_lt =>
    intro other hother
    show other.number < provider.issued ∧ other.authorization < provider.issued
    rcases hvalid other hother with ⟨hold, -⟩ | rfl
    · have := h.valid_lt other hold
      omega
    · omega
  case valid_unique =>
    -- the new token is the only one of its authorization
    intro other hother third hthird hauth
    rcases hvalid other hother with ⟨hold₁, hne₁⟩ | rfl
    · rcases hvalid third hthird with ⟨hold₂, -⟩ | rfl
      · exact h.valid_unique other hold₁ third hold₂ hauth
      · exact absurd hauth hne₁
    · rcases hvalid third hthird with ⟨-, hne₂⟩ | rfl
      · exact absurd hauth.symm hne₂
      · rfl
  case received_lt =>
    intro other hother
    show other.number < provider.issued
    have := h.received_lt other hother
    omega
  case row =>
    intro row hrow
    have hold := h.row row hrow
    refine ⟨?_, ?_, hold.refresh_eq, ?_⟩
    · exact hold.number_lt.trans (hissued ▸ Nat.lt_succ_self _)
    · exact hold.authorization_lt.trans (hissued ▸ Nat.lt_succ_self _)
    intro hnone hin
    rcases hvalid _ hin with ⟨hin, -⟩ | heq
    · exact hold.missing hnone hin
    · exact hnew _ hold.number_lt heq.symm
  case stage =>
    -- what the other callers know is not touched
    have hkeep : ∀ other,
        StageSound { s.goto caller stage with provider } (s.callers other) := by
      intro other
      refine (h.stage other).mono (hissued ▸ Nat.le_succ _) ?_ (fun _ ht => ht) (fun _ _ ht => ht)
      intro third hthird
      rcases hvalid third hthird with ⟨hold, -⟩ | rfl
      · exact .inl hold
      · exact .inr hnumber.ge
    intro other
    show StageSound _ ((s.goto caller stage).callers other)
    rw [callers_goto]
    split
    · exact hstage _ rfl rfl (hkeep caller)
    · exact hkeep other
  case latest =>
    intro other token' htoken' third hthird hauth
    rcases hpending other token' htoken' with ⟨-, rfl⟩ | ⟨-, hother⟩
    · rcases hvalid third hthird with ⟨-, hne⟩ | rfl
      · exact absurd hauth hne
      · rfl
    · rcases hvalid third hthird with ⟨hold, -⟩ | rfl
      · exact h.latest other token' hother third hold hauth
      · exact absurd hauth (hapart other token' hother)
  case unstored =>
    intro other token' htoken' row hrow
    rcases hpending other token' htoken' with ⟨-, rfl⟩ | ⟨-, hother⟩
    · exact hnew _ (h.row row hrow).number_lt
    · exact h.unstored other token' hother row hrow
  case unloaded =>
    intro other token' htoken' loader grant hloader
    have hloaded := hgrants loader ▸ hloader
    rcases hpending other token' htoken' with ⟨-, rfl⟩ | ⟨-, hother⟩
    · exact hnew _ (h.loaded hloaded).number_lt
    · exact h.unloaded other token' hother loader grant hloaded
  case apart =>
    intro other token' htoken' third token'' htoken'' hne
    rcases hpending other token' htoken' with ⟨rfl, rfl⟩ | ⟨-, hother⟩
    · rcases hpending third token'' htoken'' with ⟨rfl, -⟩ | ⟨-, hthird⟩
      · exact absurd rfl hne
      · exact hapart third token'' hthird
    · rcases hpending third token'' htoken'' with ⟨rfl, rfl⟩ | ⟨-, hthird⟩
      · exact (hapart other token' hother).symm
      · exact h.apart other token' hother third token'' hthird hne
  case opening =>
    intro other input hinput
    change (s.goto caller stage).callers other = _ ∨ (s.goto caller stage).callers other = _
      at hinput
    rw [callers_goto] at hinput
    split at hinput
    · exact hopening input hinput
    · exact h.opening other input hinput
  case same =>
    intro loader grant hloader
    exact h.same loader grant (hgrants loader ▸ hloader)
  case current =>
    intro other grant token' hother htoken' row hrow hauth
    have hloaded := hgrants other ▸ hother
    rcases hpending other token' htoken' with ⟨rfl, rfl⟩ | ⟨-, hpend'⟩
    · exact (hcurrent grant (hgrant.trans hloaded) row hrow).2 hauth
    · exact h.current other grant token' hloaded hpend' row hrow hauth
  case stored =>
    intro row hrow third hthird hin hauth
    rcases hvalid third hin with ⟨hold, -⟩ | rfl
    · -- the caller that refreshes has something to store, so it is another one
      refine (h.stored row hrow third hthird hold hauth).imp_right ?_
      rintro ⟨other, forced, grant, refreshToken, refreshed, hother, heq⟩
      refine ⟨other, forced, grant, refreshToken, refreshed, ?_, heq⟩
      exact (hkept other refreshed.accessToken (by rw [hother]; rfl)).trans hother
    · -- nobody has been sent the new token
      exact absurd hnumber (h.received_lt _ hthird).ne
  case due =>
    intro row hrow hstatus third hin hreaches
    -- the new token is out of reach of the row
    have hold : s.Reaches third ∧ third ≠ token := by
      rcases hreaches with hreceived | ⟨other, forced, grant, refreshToken, refreshed, hother, heq⟩
      · exact ⟨.inl hreceived, (hnew third (h.received_lt third hreceived)).symm⟩
      change (s.goto caller stage).callers other = _ at hother
      rcases hpending other third (by rw [hother]; exact congrArg some heq) with ⟨rfl, -⟩ | ⟨hne, hpend'⟩
      · -- the token is one that a caller asked for with the grant
        rw [callers_goto, if_pos rfl] at hother
        exact absurd (hcurrent grant (by rw [hother]; rfl) row hrow).1 hstatus
      · rw [callers_goto, if_neg hne] at hother
        refine ⟨.inr ⟨other, forced, grant, refreshToken, refreshed, hother, heq⟩, ?_⟩
        rintro rfl
        exact hapart other _ hpend' rfl
    rcases hvalid third hin with ⟨hbefore, -⟩ | heq
    · rcases h.due row hrow hstatus third hbefore hold.1 with ⟨other, input, hother, heq⟩
      exact ⟨other, input, (hkept other input.tokens.accessToken (by rw [hother]; rfl)).trans hother,
        heq⟩
    · exact absurd heq hold.2

theorem Sound.answer (h : s.Sound)
    (hcaller : s.callers caller = .requesting forced grant refreshToken)
    (hvalid : refreshToken ∈ s.provider.valid) {expiresIn : Option Int} {scopes : List Text}
    (hrefresh : s.provider.refresh refreshToken expiresIn scopes = some (tokens, provider)) :
    Sound { s.goto caller (.answered forced grant refreshToken tokens) with provider } := by
  rcases h.requested hcaller with ⟨hold, rfl, hreceived⟩
  rw [TokenEndpoint.refresh, if_pos hvalid] at hrefresh
  rcases Prod.mk.inj (Option.some.inj hrefresh) with ⟨rfl, rfl⟩
  have hloaded : (s.callers caller).grant = some grant := by
    rw [hcaller]
    rfl
  -- of the authorization only the token that was used up was good
  have hmem : ∀ other ∈ s.provider.valid.filter (· ≠ grant.token)
      ++ [⟨s.provider.issued, grant.token.authorization, grant.token.account⟩],
      (other ∈ s.provider.valid ∧ other.authorization ≠ grant.token.authorization)
        ∨ other = ⟨s.provider.issued, grant.token.authorization, grant.token.account⟩ := by
    intro other hother
    rcases List.mem_append.mp hother with hother | hnew
    · rw [List.mem_filter, decide_eq_true_eq] at hother
      refine .inl ⟨hother.1, fun hauth => hother.2 ?_⟩
      exact h.valid_unique other hother.1 _ hvalid hauth
    · exact .inr (List.mem_singleton.mp hnew)
  refine h.issue rfl rfl rfl (Nat.lt_succ_of_lt (h.valid_lt _ hvalid).2) hmem ?_
    (by rw [hcaller]; rfl) hloaded.symm ?_ ?_ ?_
  · exact fun other token' hother => h.pending_ne hcaller hvalid hother
  · intro s' hprovider hsame hsound
    rw [hcaller] at hsound
    refine ⟨hsound.1, ⟨rfl, rfl, (h.loaded hloaded).number_lt, ?_⟩, fun hin => ?_⟩
    · rw [hprovider]
      exact Nat.lt_succ_self _
    · exact absurd (h.received_lt _ (hsame ▸ hin)) (Nat.lt_irrefl _)
  · rintro input (hinput | hinput) <;> cases hinput
  · intro grant' hgrant' row hrow
    cases hgrant'
    -- with the grant given up, the token that was used up was not good
    have hactive : row.status = .active := by
      by_contra hstatus
      rcases h.due row hrow hstatus _ hvalid (.inl hreceived) with ⟨third, input, hthird, heq⟩
      have hpend : (s.callers third).pending = some input.tokens.accessToken := by
        rw [hthird]
        rfl
      exact h.unloaded third _ hpend caller grant hloaded heq
    refine ⟨hactive, fun hauth => ?_⟩
    -- the grant was current, or its refresh token had been used up
    have hlatest : grant.token = row.token := by
      rcases h.stored row hrow _ hreceived hvalid hauth with heq | hrefreshing
      · exact heq
      rcases hrefreshing with ⟨third, _, _, _, refreshed, hthird, heq⟩
      have hpend : (s.callers third).pending = some refreshed.accessToken := by
        rw [hthird]
        rfl
      exact absurd heq (h.unloaded third _ hpend caller grant hloaded)
    rcases h.same caller grant hloaded row hrow hlatest with ⟨haccess, hrefresh'⟩
    simp [OAuthGrantRow.isCurrent, hactive, haccess, hrefresh']

theorem Sound.connect (h : s.Sound) (hcaller : s.callers caller = .idle)
    {account username refreshRedirectUri : Text} {refreshable : Bool} {expiresIn : Option Int}
    {scopes : List Text}
    (hexchange : s.provider.exchange account refreshable expiresIn scopes = (tokens, provider)) :
    Sound { s.goto caller (.exchanged ⟨username, refreshRedirectUri, tokens⟩) with provider } := by
  rcases Prod.mk.inj hexchange with ⟨rfl, rfl⟩
  -- what was issued before belongs to an earlier authorization
  have hauthorization : ∀ other token', (s.callers other).pending = some token' →
      token'.authorization < s.provider.issued := by
    intro other token' hother
    have hsound := h.stage other
    cases hstage : s.callers other with
    | answered | refreshed =>
      rw [hstage] at hother hsound
      rw [← Option.some.inj hother, hsound.2.1.authorization_eq]
      exact hsound.1.authorization_lt
    | exchanged | authorized =>
      rw [hstage] at hother hsound
      cases hother
      exact hsound.1.authorization_lt
    | idle | loading | missing | requesting | rejected | reloading | holding | refused | ended =>
      rw [hstage] at hother
      cases hother
  refine h.issue rfl rfl rfl (Nat.lt_succ_self _) ?_ ?_ (by rw [hcaller]; rfl)
    (by rw [hcaller]; rfl) ?_ ?_ ?_
  · intro other hother
    have hmem : other ∈ s.provider.valid
        ∨ other = ⟨s.provider.issued, s.provider.issued, account⟩ := by
      cases refreshable with
      | true => simpa using hother
      | false => exact .inl hother
    exact hmem.imp_left fun hold => ⟨hold, (h.valid_lt other hold).2.ne⟩
  · exact fun other token' hother => (hauthorization other token' hother).ne'
  · intro s' hprovider hsame _
    refine ⟨⟨?_, ?_, ?_, ?_⟩, fun hin => ?_⟩
    · intro token' htoken'
      cases refreshable with
      | true => exact (Option.some.inj htoken').symm
      | false => cases htoken'
    · intro hnone hin
      rw [hprovider] at hin
      cases refreshable with
      | true => cases hnone
      | false => exact absurd (h.valid_lt _ hin).1 (Nat.lt_irrefl _)
    · rw [hprovider]
      exact Nat.lt_succ_self _
    · rw [hprovider]
      exact Nat.lt_succ_self _
    · exact absurd (h.received_lt _ (hsame ▸ hin)) (Nat.lt_irrefl _)
  · rintro input (hinput | hinput) row hrow <;> cases hinput
    exact (h.row row hrow).authorization_lt.ne'
  · intro grant hgrant
    cases hgrant

/-! ## Statements that change the grant -/

/-- A caller stores what it was sent. -/
theorem Sound.write (h : s.Sound) {row : OAuthGrantRow}
    (hpend : (s.callers caller).pending = some row.token) (hnone : stage.pending = none)
    (hgrant : stage.grant = none) (hstage : ∀ s' : Credentials, s'.StageSound stage)
    (hholding : s.Holding row.encryptedAccessToken row.encryptedRefreshToken)
    (hactive : row.status = .active) :
    Sound { s.goto caller stage with row := some row } := by
  -- the caller has nothing more to store; what others have to is as before
  have hpending : ∀ other token, ((s.goto caller stage).callers other).pending = some token →
      other ≠ caller ∧ (s.callers other).pending = some token := by
    intro other token htoken
    refine ⟨?_, pending_of_goto hnone htoken⟩
    rintro rfl
    rw [callers_goto, if_pos rfl, hnone] at htoken
    cases htoken
  have hloaded : ∀ other grant, ((s.goto caller stage).callers other).grant = some grant →
      (s.callers other).grant = some grant := by
    intro other grant hother
    rw [callers_goto] at hother
    split at hother
    · rw [hgrant] at hother
      cases hother
    · exact hother
  -- and it is of another authorization than the row written
  have hapart : ∀ other token, ((s.goto caller stage).callers other).pending = some token →
      token.authorization ≠ row.token.authorization := by
    intro other token htoken hauth
    rcases hpending other token htoken with ⟨hne, hother⟩
    exact h.apart caller row.token hpend other token hother hne hauth.symm
  have hrow : ∀ row', some row = some row' → row = row' := fun _ => Option.some.inj
  constructor
  case valid_lt => exact h.valid_lt
  case valid_unique => exact h.valid_unique
  case received_lt => exact h.received_lt
  case row =>
    intro row' hrow'
    rcases hrow row' hrow' with rfl
    exact ⟨hholding.number_lt, hholding.authorization_lt, hholding.refresh_eq, hholding.missing⟩
  case stage =>
    intro other
    show StageSound _ ((s.goto caller stage).callers other)
    rw [callers_goto]
    split
    · exact hstage _
    · exact (h.stage other).mono (Nat.le_refl _) (fun _ ht => Or.inl ht) (fun _ ht => ht)
        (fun _ _ ht => ht)
  case latest =>
    intro other token htoken
    exact h.latest other token (hpending other token htoken).2
  case unstored =>
    intro other token htoken row' hrow' heq
    rcases hrow row' hrow' with rfl
    exact hapart other token htoken (congrArg Token.authorization heq)
  case unloaded =>
    intro other token htoken loader grant hloader
    exact h.unloaded other token (hpending other token htoken).2 loader grant
      (hloaded loader grant hloader)
  case apart =>
    intro other token htoken third token' htoken'
    exact h.apart other token (hpending other token htoken).2 third token'
      (hpending third token' htoken').2
  case opening =>
    intro other input hinput row' hrow'
    rcases hrow row' hrow' with rfl
    refine hapart other input.tokens.accessToken ?_
    rcases hinput with hinput | hinput
    · exact congrArg CredentialStage.pending hinput
    · exact congrArg CredentialStage.pending hinput
  case same =>
    intro loader grant hloader row' hrow' heq
    rcases hrow row' hrow' with rfl
    -- a token that is still to be stored has been loaded by nobody
    exact absurd heq.symm (h.unloaded caller _ hpend loader grant (hloaded loader grant hloader))
  case current =>
    intro other grant token _ htoken row' hrow' hauth
    rcases hrow row' hrow' with rfl
    exact absurd hauth (hapart other token htoken)
  case stored =>
    intro row' hrow' token _ hvalid hauth
    rcases hrow row' hrow' with rfl
    exact Or.inl (h.latest caller _ hpend token hvalid hauth)
  case due =>
    intro row' hrow' hstatus
    rcases hrow row' hrow' with rfl
    exact absurd hactive hstatus

/-- No answer to a refresh is on its way to the grant. -/
def NoneRefreshing (s : Credentials) : Prop :=
  ∀ caller, (∀ forced grant refreshToken refreshed,
      s.callers caller ≠ .answered forced grant refreshToken refreshed)
    ∧ ∀ forced grant refreshToken refreshed,
      s.callers caller ≠ .refreshed forced grant refreshToken refreshed

/-- The refresh tokens that the server was sent in other authorizations than the one in the
grant are spent, those apart that are about to be stored. -/
def OthersSpent (s : Credentials) (row : OAuthGrantRow) : Prop :=
  ∀ token ∈ s.provider.valid, token ∈ s.received →
    token.authorization = row.token.authorization ∨ s.Authorizing token

/-- The grant is given up, if it was not before. -/
theorem Sound.mark (h : s.Sound) {row : OAuthGrantRow} (hrow : s.row = some row)
    (hactive : row.status = .active →
      s.NoneRefreshing ∧ s.OthersSpent row ∧ row.token ∉ s.provider.valid)
    (reason : ReauthorizationReason) :
    Sound { s with
      row := some { row with status := .reauthRequired, lastError := some reason } } := by
  have hrow' : ∀ row', some { row with status := .reauthRequired, lastError := some reason }
      = some row' → { row with status := .reauthRequired, lastError := some reason } = row' :=
    fun _ => Option.some.inj
  constructor
  case valid_lt => exact h.valid_lt
  case valid_unique => exact h.valid_unique
  case received_lt => exact h.received_lt
  case row =>
    intro row' heq
    rcases hrow' row' heq with rfl
    have hold := h.row row hrow
    exact ⟨hold.number_lt, hold.authorization_lt, hold.refresh_eq, hold.missing⟩
  case stage =>
    intro other
    exact (h.stage other).mono (Nat.le_refl _) (fun _ ht => Or.inl ht) (fun _ ht => ht)
      (fun _ _ ht => ht)
  case latest => exact h.latest
  case unstored =>
    intro other token htoken row' heq
    rcases hrow' row' heq with rfl
    exact h.unstored other token htoken row hrow
  case unloaded => exact h.unloaded
  case apart => exact h.apart
  case opening =>
    intro other input hinput row' heq
    rcases hrow' row' heq with rfl
    exact h.opening other input hinput row hrow
  case same =>
    intro loader grant hloader row' heq
    rcases hrow' row' heq with rfl
    exact h.same loader grant hloader row hrow
  case current =>
    intro other grant token hgrant htoken row' heq hauth
    rcases hrow' row' heq with rfl
    change (s.callers other).grant = _ at hgrant
    change (s.callers other).pending = _ at htoken
    have hcurrent := h.current other grant token hgrant htoken row hrow hauth
    simp only [OAuthGrantRow.isCurrent, Bool.and_eq_true, decide_eq_true_eq] at hcurrent
    -- a grant in use is marked only while nobody refreshes
    have hnone := (hactive hcurrent.1.1).1
    cases hother : s.callers other with
    | answered => exact absurd hother ((hnone other).1 _ _ _ _)
    | refreshed => exact absurd hother ((hnone other).2 _ _ _ _)
    | exchanged | authorized =>
      rw [hother] at hgrant
      cases hgrant
    | idle | loading | missing | requesting | rejected | reloading | holding | refused | ended =>
      rw [hother] at htoken
      cases htoken
  case stored =>
    intro row' heq
    rcases hrow' row' heq with rfl
    exact h.stored row hrow
  case due =>
    intro row' heq _ token hvalid hreaches
    rcases hrow' row' heq with rfl
    by_cases hstatus : row.status = .active
    · rcases hactive hstatus with ⟨hnone, hothers, hspent⟩
      rcases hreaches with hreceived | ⟨other, forced, grant, refreshToken, refreshed, hother, -⟩
      · -- the tokens that were received are spent, or under way to the row
        rcases hothers token hvalid hreceived with hauth | hauthorizing
        · rcases h.stored row hrow token hreceived hvalid hauth with rfl | hrefreshing
          · exact absurd hvalid hspent
          · rcases hrefreshing with ⟨other, forced, grant, refreshToken, refreshed, hother, -⟩
            exact absurd hother ((hnone other).2 _ _ _ _)
        · exact hauthorizing
      · exact absurd hother ((hnone other).1 _ _ _ _)
    · exact h.due row hrow hstatus token hvalid hreaches

theorem Sound.revoke (h : s.Sound) (refreshToken : Token) :
    Sound { s with provider := s.provider.revoke refreshToken } := by
  have hmem : ∀ token ∈ (s.provider.revoke refreshToken).valid, token ∈ s.provider.valid :=
    fun token htoken => List.mem_of_mem_filter htoken
  constructor
  case valid_lt => exact fun token htoken => h.valid_lt token (hmem token htoken)
  case valid_unique =>
    intro token htoken other hother
    exact h.valid_unique token (hmem token htoken) other (hmem other hother)
  case received_lt => exact h.received_lt
  case row =>
    intro row hrow
    have hold := h.row row hrow
    exact ⟨hold.number_lt, hold.authorization_lt, hold.refresh_eq,
      fun hnone hin => hold.missing hnone (hmem _ hin)⟩
  case stage =>
    intro other
    exact (h.stage other).mono (Nat.le_refl _) (fun _ ht => Or.inl (hmem _ ht)) (fun _ ht => ht)
      (fun _ _ ht => ht)
  case latest =>
    intro other token htoken third hthird
    exact h.latest other token htoken third (hmem third hthird)
  case unstored => exact h.unstored
  case unloaded => exact h.unloaded
  case apart => exact h.apart
  case opening => exact h.opening
  case same => exact h.same
  case current => exact h.current
  case stored =>
    intro row hrow token hreceived hvalid
    exact h.stored row hrow token hreceived (hmem token hvalid)
  case due =>
    intro row hrow hstatus token hvalid
    exact h.due row hrow hstatus token (hmem token hvalid)

end Credentials

end Toss.ExternalRepositories
