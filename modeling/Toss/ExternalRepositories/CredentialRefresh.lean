import Toss.ExternalRepositories.CredentialInvariant

/-!
# Refreshes, reauthorizations and lost authorizations

When the credential of a user survives its callers: the compare-and-swap of the grant keeps
older tokens out of it, but a refusal of a refresh token, or of an access token, is recorded
without regard to the refreshes that are under way.

* `Credentials.Guard` — the steps that lose nothing;
* `credentials_are_kept` — runs of such steps;
* `refused_refresh_overtakes_the_store` — a run that loses the authorization.
-/

namespace Toss.ExternalRepositories

open Toss.Foundation

/-! ## The statements -/

theorem markIfCurrent_cases (row : Option OAuthGrantRow) (access : EncryptedToken)
    (refresh : Option EncryptedToken) (reason : ReauthorizationReason) :
    markGrantReauthorizationRequiredIfCurrent row access refresh reason = (row, false)
      ∨ ∃ grant, row = some grant ∧ grant.isCurrent access refresh = true
        ∧ markGrantReauthorizationRequiredIfCurrent row access refresh reason
          = (some { grant with status := .reauthRequired, lastError := some reason }, true) := by
  cases row with
  | none => exact Or.inl rfl
  | some grant =>
    by_cases hcurrent : grant.isCurrent access refresh = true
    · exact Or.inr ⟨grant, rfl, hcurrent,
        by rw [markGrantReauthorizationRequiredIfCurrent, if_pos hcurrent]⟩
    · exact Or.inl (by rw [markGrantReauthorizationRequiredIfCurrent, if_neg hcurrent])

theorem updateRefreshed_cases (row : Option OAuthGrantRow) (record : RefreshedOAuthGrantRecord) :
    (updateRefreshedOAuthGrant row record = (row, false)
        ∧ ∀ grant, row = some grant → grant.isCurrent record.previousEncryptedAccessToken
            record.previousEncryptedRefreshToken = false)
      ∨ ∃ grant grant', row = some grant
        ∧ grant.isCurrent record.previousEncryptedAccessToken
            record.previousEncryptedRefreshToken = true
        ∧ updateRefreshedOAuthGrant row record = (some grant', true)
        ∧ grant'.encryptedAccessToken = record.encryptedAccessToken
        ∧ grant'.encryptedRefreshToken = some record.encryptedRefreshToken
        ∧ grant'.status = .active := by
  cases row with
  | none => exact Or.inl ⟨rfl, by simp⟩
  | some grant =>
    by_cases hcurrent : grant.isCurrent record.previousEncryptedAccessToken
        record.previousEncryptedRefreshToken = true
    · exact Or.inr ⟨grant, _, rfl, hcurrent,
        by rw [updateRefreshedOAuthGrant, if_pos hcurrent], rfl, rfl, rfl⟩
    left
    refine ⟨by rw [updateRefreshedOAuthGrant, if_neg hcurrent], ?_⟩
    intro other hother
    cases hother
    simpa using hcurrent

theorem upsertOAuthGrant_cases (row : Option OAuthGrantRow) (record : UpsertOAuthGrantRecord) :
    (∃ grant, row = some grant ∧ grant.providerAccountId ≠ record.providerAccountId
        ∧ upsertOAuthGrant row record = (row, false))
      ∨ ∃ grant', upsertOAuthGrant row record = (some grant', true)
        ∧ (∀ grant, row = some grant → grant.providerAccountId = record.providerAccountId)
        ∧ grant'.encryptedAccessToken = record.encryptedAccessToken
        ∧ grant'.encryptedRefreshToken = record.encryptedRefreshToken
        ∧ grant'.status = .active := by
  cases row with
  | none => exact Or.inr ⟨_, rfl, by simp, rfl, rfl, rfl⟩
  | some grant =>
    by_cases haccount : grant.providerAccountId = record.providerAccountId
    · refine Or.inr ⟨_, by rw [upsertOAuthGrant, if_pos haccount], ?_, rfl, rfl, rfl⟩
      intro other hother
      cases hother
      exact haccount
    · exact Or.inl ⟨grant, rfl, haccount, by rw [upsertOAuthGrant, if_neg haccount]⟩

variable {row : OAuthGrantRow} {access : EncryptedToken} {refresh : Option EncryptedToken}

theorem isCurrent_iff :
    row.isCurrent access refresh = true ↔ row.status = .active
      ∧ row.encryptedAccessToken = access ∧ row.encryptedRefreshToken = refresh := by
  simp [OAuthGrantRow.isCurrent, and_assoc]

namespace Credentials

/-! ## Steps that lose nothing -/

/-- What a statement finds when it loses nothing. -/
def GuardStatement (s : Credentials) (row : OAuthGrantRow) : CredentialStage → Prop
  | .missing _ grant =>
    -- the mark that hits comes when no other refresh of the grant was answered
    row.isCurrent grant.encryptedAccessToken none = true →
      s.NoneRefreshing ∧ s.OthersSpent row
  | .rejected _ grant =>
    row.isCurrent grant.encryptedAccessToken grant.encryptedRefreshToken = true →
      s.NoneRefreshing ∧ s.OthersSpent row
  | .refused accessToken _ =>
    row.status = .active → s.NoneRefreshing ∧ s.OthersSpent row ∧ accessToken = row.token
      ∧ row.token ∉ s.provider.valid
  | .authorized input =>
    if input.tokens.accessToken.account = row.providerAccountId then
      row.token.number < input.tokens.accessToken.number
    else row.status = .active
  | _ => True

/-- When a caller may be dropped. -/
def GuardDropped (row : OAuthGrantRow) : CredentialStage → Prop
  | .refreshed _ grant _ _ =>
    row.isCurrent grant.encryptedAccessToken grant.encryptedRefreshToken = false
  | .authorized _ => row.status = .active
  | _ => True

def Guard (s : Credentials) : CredentialAction → Prop
  | .advance caller _ _ _ | .interruptAfter caller _ _ _ =>
    ∀ row, s.row = some row → s.GuardStatement row (s.callers caller)
  | .interrupt caller => ∀ row, s.row = some row → GuardDropped row (s.callers caller)
  | _ => True

variable {s s' : Credentials} {caller : Nat} {stage : CredentialStage}

/-! ## The invariant -/

theorem afterLoad_cases (forced : Bool) (now : Timestamp) (grant : Option OAuthGrantSecrets) :
    (afterLoad forced now grant).pending = none
      ∧ ((∀ s : Credentials, s.StageSound (afterLoad forced now grant))
          ∧ (afterLoad forced now grant).grant = none
        ∨ (∃ loaded, grant = some loaded ∧ loaded.encryptedRefreshToken = none
          ∧ afterLoad forced now grant = .missing forced loaded)
        ∨ ∃ loaded encrypted, grant = some loaded
          ∧ loaded.encryptedRefreshToken = some encrypted
          ∧ afterLoad forced now grant = .requesting forced loaded (decryptToken encrypted)) := by
  cases grant with
  | none => exact ⟨rfl, Or.inl ⟨fun _ => trivial, rfl⟩⟩
  | some loaded =>
    unfold afterLoad
    dsimp only
    split
    · exact ⟨rfl, Or.inl ⟨fun _ => trivial, rfl⟩⟩
    split
    · exact ⟨rfl, Or.inl ⟨fun _ => trivial, rfl⟩⟩
    · cases hrefresh : loaded.encryptedRefreshToken with
      | none => exact ⟨rfl, Or.inr (Or.inl ⟨loaded, rfl, hrefresh, rfl⟩)⟩
      | some encrypted => exact ⟨rfl, Or.inr (Or.inr ⟨loaded, encrypted, rfl, hrefresh, rfl⟩)⟩

theorem afterReload_cases (forced : Bool) (now : Timestamp) (grant : Option OAuthGrantSecrets) :
    (afterReload forced now grant).pending = none ∧ (afterReload forced now grant).grant = none
      ∧ ∀ s : Credentials, s.StageSound (afterReload forced now grant) := by
  cases grant with
  | none => exact ⟨rfl, rfl, fun _ => trivial⟩
  | some loaded =>
    unfold afterReload
    dsimp only
    split
    · exact ⟨rfl, rfl, fun _ => trivial⟩
    · split <;> exact ⟨rfl, rfl, fun _ => trivial⟩

/-- A caller with nothing to store goes to a stage without a grant. -/
theorem Sound.rest (h : s.Sound) (hnone : stage.pending = none) (hgrant : stage.grant = none)
    (hstage : s.StageSound stage) (hcaller : (s.callers caller).pending = none) :
    (s.goto caller stage).Sound := by
  refine h.leave hnone hstage ?_ ?_ ?_
  · intro grant heq
    rw [hgrant] at heq
    cases heq
  · intro forced grant refreshToken refreshed heq
    rw [heq] at hcaller
    cases hcaller
  · intro input heq
    rw [heq] at hcaller
    cases hcaller

variable {now : Timestamp} {accessNonce refreshNonce : Nat} {action : CredentialAction}

theorem Sound.load (h : s.Sound) {forced : Bool}
    (hcaller : s.callers caller = .loading forced) :
    (s.goto caller (afterLoad forced now (oauthGrant s.row))).Sound := by
  have hpending : (s.callers caller).pending = none := by
    rw [hcaller]
    rfl
  rcases afterLoad_cases forced now (oauthGrant s.row) with ⟨hnone, hcases⟩
  rcases hcases with ⟨hsound, hgrant⟩ | hloads
  · exact h.rest hnone hgrant (hsound s) hpending
  have hholding : ∀ loaded, oauthGrant s.row = some loaded →
      s.Holding loaded.encryptedAccessToken loaded.encryptedRefreshToken := by
    intro loaded hloaded
    rcases Option.map_eq_some_iff.mp hloaded with ⟨row, hrow, rfl⟩
    exact h.row row hrow
  rcases hloads with ⟨loaded, hload, hrefresh, heq⟩ | ⟨loaded, encrypted, hload, hrefresh, heq⟩
  · rw [heq]
    refine h.leave rfl ⟨hholding loaded hload, hrefresh⟩ ?_ ?_ ?_
    · intro grant hgrant
      cases hgrant
      exact Or.inr hload
    · simp [hcaller]
    · simp [hcaller]
  · rw [heq]
    refine h.leave rfl ⟨hholding loaded hload, ?_⟩ ?_ ?_ ?_
    · rw [hrefresh]
      rfl
    · intro grant hgrant
      cases hgrant
      exact Or.inr hload
    · simp [hcaller]
    · simp [hcaller]

variable {reason : ReauthorizationReason}

/-- Both compare-and-swap marks. -/
theorem Sound.markIfCurrent (h : s.Sound) {forced : Bool}
    (hcaller : (s.callers caller).pending = none)
    (hdue : ∀ row, s.row = some row → row.isCurrent access refresh = true →
      s.NoneRefreshing ∧ s.OthersSpent row ∧ row.token ∉ s.provider.valid)
    {mark : Option OAuthGrantRow × Bool}
    (hmark : markGrantReauthorizationRequiredIfCurrent s.row access refresh reason = mark) :
    Sound { s.goto caller (if mark.2 then .ended (some .reauthorizationRequired)
      else .reloading forced) with row := mark.1 } := by
  rcases markIfCurrent_cases s.row access refresh reason with hkept | ⟨grant, hrow, hcurrent, hset⟩
  · rcases hkept.symm.trans hmark with rfl
    exact h.rest rfl rfl trivial hcaller
  · rcases hset.symm.trans hmark with rfl
    exact (h.mark hrow (fun _ => hdue grant hrow hcurrent) reason).rest rfl rfl trivial hcaller

/-- The compare-and-swap of a refresh. -/
theorem Sound.store (h : s.Sound) {forced : Bool} {grant : OAuthGrantSecrets}
    {refreshToken : Token} {refreshed : TokenResponse}
    (hcaller : s.callers caller = .refreshed forced grant refreshToken refreshed)
    {swap : Option OAuthGrantRow × Bool} (hswap : updateRefreshedOAuthGrant s.row
      (refreshedRecord grant refreshToken refreshed now accessNonce refreshNonce) = swap) :
    Sound { s.goto caller (if swap.2 then .holding forced refreshed.accessToken
      else .reloading forced) with row := swap.1 } := by
  have hsound := h.stage caller
  rw [hcaller] at hsound
  rcases hsound with ⟨hold, hrot, hreceived⟩
  rcases updateRefreshed_cases s.row (refreshedRecord grant refreshToken refreshed now
    accessNonce refreshNonce) with ⟨hset, hnot⟩ | ⟨row, row', hrow, hcurrent, hset, hacc, href, hact⟩
  · rcases hset.symm.trans hswap with rfl
    refine h.leave rfl trivial ?_ ?_ ?_
    · intro loaded hloaded
      cases hloaded
    · -- a grant of the same authorization would have been current
      intro forced' grant' refreshToken' refreshed' heq row hrow hauth
      rw [hcaller] at heq
      cases heq
      have hcurrent := h.current caller grant refreshed.accessToken (by rw [hcaller]; rfl)
        (by rw [hcaller]; rfl) row hrow hauth
      have hswapped := hnot row hrow
      exact absurd (hcurrent.symm.trans hswapped) (by decide)
    · intro input heq
      rw [hcaller] at heq
      cases heq
  · -- the pair is stored where the one it was refreshed from was
    rcases hset.symm.trans hswap with rfl
    have htoken : row'.token = refreshed.accessToken := congrArg decryptToken hacc
    refine h.write ?_ rfl rfl (fun _ => trivial) ?_ hact
    · rw [hcaller, htoken]
      rfl
    · rw [hacc, href]
      refine ⟨hrot.number_lt, ?_, ?_, by simp⟩
      · show refreshed.accessToken.authorization < _
        rw [hrot.authorization_eq]
        exact hold.authorization_lt
      · intro blob hblob
        cases hblob
        refine ⟨?_, hreceived⟩
        show refreshed.refreshToken.getD refreshToken = refreshed.accessToken
        rw [hrot.refresh_eq]
        rfl

/-- The upsert of an authorization. -/
theorem Sound.authorize (h : s.Sound) {input : ExternalGitGrantInput}
    (hcaller : s.callers caller = .authorized input)
    (hguard : ∀ row, s.row = some row → s.GuardStatement row (.authorized input))
    {upsert : Option OAuthGrantRow × Bool}
    (hupsert : upsertOAuthGrant s.row (upsertRecord input now accessNonce refreshNonce)
      = upsert) :
    Sound { s.goto caller (if upsert.2 then .ended none else .ended (some .accountMismatch)) with
      row := upsert.1 } := by
  have hsound := h.stage caller
  rw [hcaller] at hsound
  rcases hsound with ⟨hopen, hreceived⟩
  rcases upsertOAuthGrant_cases s.row (upsertRecord input now accessNonce refreshNonce)
    with ⟨row, hrow, haccount, hset⟩ | ⟨row', hset, -, hacc, href, hact⟩
  · rcases hset.symm.trans hupsert with rfl
    refine h.leave rfl trivial ?_ ?_ ?_
    · intro loaded hloaded
      cases hloaded
    · intro forced' grant' refreshToken' refreshed' heq
      rw [hcaller] at heq
      cases heq
    · intro input' _ row'' hrow'
      rcases Option.mem_some_iff.mp (hrow ▸ hrow' : some row = some row'') with rfl
      have hdue := hguard row hrow
      simp only [GuardStatement] at hdue
      rw [if_neg fun heq => haccount heq.symm] at hdue
      exact hdue
  · rcases hset.symm.trans hupsert with rfl
    have htoken : row'.token = input.tokens.accessToken := congrArg decryptToken hacc
    refine h.write ?_ rfl rfl (fun _ => trivial) ?_ hact
    · rw [hcaller, htoken]
      rfl
    · rw [hacc, href]
      refine ⟨hopen.number_lt, hopen.authorization_lt, ?_, ?_⟩
      · intro blob hblob
        rcases Option.map_eq_some_iff.mp hblob with ⟨token, htoken', rfl⟩
        have heq : token = input.tokens.accessToken := hopen.refresh_eq token htoken'
        have hmem := hreceived token htoken'
        rw [heq] at hmem
        exact ⟨heq, hmem⟩
      · intro hnone
        exact hopen.missing (Option.map_eq_none_iff.mp hnone)

theorem Sound.advance (h : s.Sound)
    (hguard : ∀ row, s.row = some row → s.GuardStatement row (s.callers caller))
    (hstep : s.advance caller now accessNonce refreshNonce = some s') : s'.Sound := by
  have hsound := h.stage caller
  unfold Credentials.advance at hstep
  cases hstage : s.callers caller with
  | loading forced =>
    rw [hstage] at hstep
    cases hstep
    exact h.load hstage
  | missing forced grant =>
    rw [hstage] at hstep hsound
    cases hstep
    refine h.markIfCurrent (by rw [hstage]; rfl) ?_ rfl
    intro row hrow hcurrent
    have hdue := hguard row hrow
    rw [hstage] at hdue
    rcases hdue hcurrent with ⟨hnone, hothers⟩
    refine ⟨hnone, hothers, ?_⟩
    exact (h.row row hrow).missing (isCurrent_iff.mp hcurrent).2.2
  | rejected forced grant =>
    rw [hstage] at hstep hsound
    cases hstep
    refine h.markIfCurrent (by rw [hstage]; rfl) ?_ rfl
    intro row hrow hcurrent
    have hdue := hguard row hrow
    rw [hstage] at hdue
    rcases hdue hcurrent with ⟨hnone, hothers⟩
    refine ⟨hnone, hothers, ?_⟩
    -- the refresh token that was refused is the one in the grant
    have htoken : row.token = grant.token :=
      congrArg decryptToken (isCurrent_iff.mp hcurrent).2.1
    rw [htoken]
    exact hsound.2
  | answered forced grant refreshToken refreshed =>
    rw [hstage] at hstep
    cases hstep
    exact h.receive (Or.inl ⟨forced, grant, refreshToken, hstage, rfl⟩)
  | refreshed forced grant refreshToken refreshed =>
    rw [hstage] at hstep
    cases hstep
    exact h.store hstage rfl
  | reloading forced =>
    rw [hstage] at hstep
    cases hstep
    rcases afterReload_cases forced now (oauthGrant s.row) with ⟨hnone, hgrant, hstage'⟩
    exact h.rest hnone hgrant (hstage' s) (by rw [hstage]; rfl)
  | refused accessToken reason =>
    rw [hstage] at hstep
    cases hstep
    cases hrow : s.row with
    | none =>
      rw [show markGrantReauthorizationRequired none reason = s.row from hrow.symm]
      exact h.rest rfl rfl trivial (by rw [hstage]; rfl)
    | some row =>
      have hdue := hguard row hrow
      rw [hstage] at hdue
      refine Sound.rest (h.mark hrow ?_ reason) rfl rfl trivial (by
        show (s.callers caller).pending = none
        rw [hstage]
        rfl)
      intro hactive
      rcases hdue hactive with ⟨hnone, hothers, -, hspent⟩
      exact ⟨hnone, hothers, hspent⟩
  | exchanged input =>
    rw [hstage] at hstep
    cases hstep
    exact h.receive (Or.inr ⟨input, hstage, rfl, rfl⟩)
  | authorized input =>
    rw [hstage] at hstep hguard
    cases hstep
    exact h.authorize hstage hguard rfl
  | idle | requesting | holding | ended =>
    rw [hstage] at hstep
    cases hstep

/-- Behind an update of the grant the caller has nothing to store. -/
theorem advance_updates (hupdates : (s.callers caller).updates = true)
    (hstep : s.advance caller now accessNonce refreshNonce = some s') :
    (s'.callers caller).pending = none := by
  unfold Credentials.advance at hstep
  cases hstage : s.callers caller with
  | missing | rejected | refreshed | authorized =>
    rw [hstage] at hstep
    cases hstep
    show ((s.goto caller _).callers caller).pending = none
    rw [callers_goto, if_pos rfl]
    split <;> rfl
  | refused =>
    rw [hstage] at hstep
    cases hstep
    show ((s.goto caller _).callers caller).pending = none
    rw [callers_goto, if_pos rfl]
    rfl
  | idle | loading | requesting | answered | reloading | holding | exchanged | ended =>
    rw [hstage] at hupdates
    cases hupdates

theorem Sound.step (h : s.Sound) (hguard : s.Guard action)
    (hstep : s.step action = some s') : s'.Sound := by
  cases action with
  | call caller forced =>
    simp only [Credentials.step] at hstep
    split at hstep
    · rename_i hidle
      cases hstep
      exact h.rest rfl rfl trivial (by rw [hidle]; rfl)
    · cases hstep
  | connect caller account username refreshRedirectUri refreshable expiresIn scopes =>
    simp only [Credentials.step] at hstep
    split at hstep
    · rename_i hidle
      cases hstep
      exact h.connect hidle rfl
    · cases hstep
  | advance caller now accessNonce refreshNonce => exact h.advance hguard hstep
  | answer caller expiresIn scopes =>
    simp only [Credentials.step] at hstep
    split at hstep
    · rename_i forced grant refreshToken hcaller
      cases hrefresh : s.provider.refresh refreshToken expiresIn scopes with
      | none =>
        rw [hrefresh] at hstep
        cases hstep
        rcases h.requested hcaller with ⟨hold, rfl, -⟩
        -- a refused refresh token has been spent
        have hspent : grant.token ∉ s.provider.valid := by
          intro hvalid
          rw [TokenEndpoint.refresh, if_pos hvalid] at hrefresh
          cases hrefresh
        refine h.leave rfl ⟨hold, hspent⟩ ?_ ?_ ?_
        · intro loaded hloaded
          left
          rw [hcaller]
          exact hloaded
        · simp [hcaller]
        · simp [hcaller]
      | some answer =>
        rw [hrefresh] at hstep
        cases hstep
        -- an answered one was valid
        have hvalid : refreshToken ∈ s.provider.valid := by
          by_contra hspent
          rw [TokenEndpoint.refresh, if_neg hspent] at hrefresh
          cases hrefresh
        exact h.answer hcaller hvalid hrefresh
    · cases hstep
  | accept caller =>
    simp only [Credentials.step] at hstep
    split at hstep
    · rename_i hcaller
      cases hstep
      exact h.rest rfl rfl trivial (by rw [hcaller]; rfl)
    · cases hstep
  | refuse caller reason =>
    simp only [Credentials.step] at hstep
    split at hstep
    · rename_i hcaller
      cases hstep
      exact h.rest rfl rfl trivial (by rw [hcaller]; rfl)
    · rename_i hcaller
      cases hstep
      exact h.rest rfl rfl trivial (by rw [hcaller]; rfl)
    · cases hstep
  | interrupt caller =>
    cases hstep
    refine h.leave rfl trivial ?_ ?_ ?_
    · intro loaded hloaded
      cases hloaded
    · intro forced grant refreshToken refreshed hcaller row hrow hauth
      -- whoever is interrupted with new tokens had no row to put them in
      have hdropped := hguard row hrow
      rw [hcaller] at hdropped
      have hcurrent := h.current caller grant refreshed.accessToken (by rw [hcaller]; rfl)
        (by rw [hcaller]; rfl) row hrow hauth
      exact absurd hcurrent (by rw [hdropped]; exact Bool.false_ne_true)
    · intro input hcaller row hrow
      have hdropped := hguard row hrow
      rw [hcaller] at hdropped
      exact hdropped
  | interruptAfter caller now accessNonce refreshNonce =>
    simp only [Credentials.step] at hstep
    split at hstep
    · rename_i hupdates
      rcases Option.map_eq_some_iff.mp hstep with ⟨after, hafter, rfl⟩
      exact (h.advance hguard hafter).rest rfl rfl trivial (advance_updates hupdates hafter)
    · cases hstep
  | revoke refreshToken =>
    cases hstep
    exact h.revoke refreshToken

/-! ## What a step makes of the grant -/

/-- The token by which the caller found out that the grant has to be renewed. -/
def usedToken : CredentialStage → Option Token
  | .missing _ grant | .rejected _ grant => some grant.token
  | .refused accessToken _ => some accessToken
  | _ => none

/-- The grant keeps its tokens, or is given later ones. -/
def KeepsLatest (row row' : OAuthGrantRow) : Prop :=
  (row'.encryptedAccessToken = row.encryptedAccessToken
      ∧ row'.encryptedRefreshToken = row.encryptedRefreshToken)
    ∨ row.token.number < row'.token.number

/-- If the grant is given up, a caller that used its token does so. -/
def GivenUpBy (stage : CredentialStage) (row row' : OAuthGrantRow) : Prop :=
  row.status = .active → row'.status ≠ .active → usedToken stage = some row.token

variable {row' : OAuthGrantRow}

theorem markIfCurrent_row (hrow : s.row = some row)
    (hrow' : (markGrantReauthorizationRequiredIfCurrent s.row access refresh reason).1 = some row')
    (hused : usedToken stage = some (decryptToken access)) :
    KeepsLatest row row' ∧ GivenUpBy stage row row' := by
  rcases markIfCurrent_cases s.row access refresh reason with hkept | ⟨grant, hgrant, hcurrent, hset⟩
  · rw [hkept, hrow] at hrow'
    cases hrow'
    exact ⟨Or.inl ⟨rfl, rfl⟩, fun hactive hnot => absurd hactive hnot⟩
  rw [hset] at hrow'
  cases hrow'
  rcases Option.mem_some_iff.mp (hrow ▸ hgrant : some row = some grant) with rfl
  refine ⟨Or.inl ⟨rfl, rfl⟩, fun _ _ => ?_⟩
  rw [hused, ← (isCurrent_iff.mp hcurrent).2.1]
  rfl

theorem Sound.advance_row (h : s.Sound)
    (hguard : ∀ row, s.row = some row → s.GuardStatement row (s.callers caller))
    (hstep : s.advance caller now accessNonce refreshNonce = some s') (hrow : s.row = some row)
    (hrow' : s'.row = some row') :
    KeepsLatest row row' ∧ GivenUpBy (s.callers caller) row row' := by
  have hdue := hguard row hrow
  have hsound := h.stage caller
  have hsame : s'.row = s.row → KeepsLatest row row' ∧ GivenUpBy (s.callers caller) row row' := by
    intro heq
    rw [heq, hrow] at hrow'
    cases hrow'
    exact ⟨Or.inl ⟨rfl, rfl⟩, fun hactive hnot => absurd hactive hnot⟩
  unfold Credentials.advance at hstep
  cases hstage : s.callers caller with
  | missing forced grant | rejected forced grant =>
    rw [hstage] at hstep
    rw [← Option.some.inj hstep] at hrow'
    exact markIfCurrent_row hrow hrow' rfl
  | refreshed forced grant refreshToken refreshed =>
    rw [hstage] at hstep hsound
    rw [← Option.some.inj hstep] at hrow'
    -- the row is the one that was refreshed, or it is left as it is
    rcases updateRefreshed_cases s.row (refreshedRecord grant refreshToken refreshed now
      accessNonce refreshNonce) with ⟨hset, -⟩ | ⟨old, new, hold, hcurrent, hset, hacc, -, hact⟩
    · rw [← hstage]
      refine hsame ?_
      rw [← Option.some.inj hstep]
      exact congrArg Prod.fst hset
    · have hnew : some row' = some new := hrow'.symm.trans (congrArg Prod.fst hset)
      cases hnew
      rcases Option.mem_some_iff.mp (hrow ▸ hold : some row = some old) with rfl
      refine ⟨Or.inr ?_, fun _ hnot => absurd hact hnot⟩
      have hbase : row.token = grant.token := congrArg decryptToken (isCurrent_iff.mp hcurrent).2.1
      have htoken : row'.token = refreshed.accessToken := congrArg decryptToken hacc
      rw [hbase, htoken]
      -- the answer came after the token it was asked with
      exact hsound.2.1.later
  | refused accessToken reason =>
    rw [hstage] at hstep hdue
    rw [← Option.some.inj hstep] at hrow'
    have hmarked : some row' = some { row with
        status := .reauthRequired, lastError := some reason } := by
      rw [← hrow']
      show markGrantReauthorizationRequired s.row reason = _
      rw [hrow]
      rfl
    cases hmarked
    -- a mark keeps the tokens and says why
    refine ⟨Or.inl ⟨rfl, rfl⟩, fun hactive _ => ?_⟩
    rcases hdue hactive with ⟨-, -, rfl, -⟩
    rfl
  | authorized input =>
    rw [hstage] at hstep hdue
    rw [← Option.some.inj hstep] at hrow'
    rcases upsertOAuthGrant_cases s.row (upsertRecord input now accessNonce refreshNonce)
      with ⟨old, -, -, hset⟩ | ⟨new, hset, haccount, hacc, -, hact⟩
    · rw [← hstage]
      refine hsame ?_
      rw [← Option.some.inj hstep]
      exact congrArg Prod.fst hset
    · have hnew : some row' = some new := hrow'.symm.trans (congrArg Prod.fst hset)
      cases hnew
      refine ⟨Or.inr ?_, fun _ hnot => absurd hact hnot⟩
      have haccount' : input.tokens.accessToken.account = row.providerAccountId :=
        (haccount row hrow).symm
      -- the guard compares the two authorizations
      simp only [GuardStatement] at hdue
      rw [if_pos haccount'] at hdue
      have htoken : row'.token = input.tokens.accessToken := congrArg decryptToken hacc
      rw [htoken]
      exact hdue
  | loading | answered | reloading | exchanged =>
    rw [hstage] at hstep
    rw [← hstage]
    refine hsame ?_
    cases hstep
    rfl
  | idle | requesting | holding | ended =>
    rw [hstage] at hstep
    cases hstep

theorem Sound.step_row (h : s.Sound) (hguard : s.Guard action) (hstep : s.step action = some s')
    (hrow : s.row = some row) (hrow' : s'.row = some row') :
    KeepsLatest row row'
      ∧ (row.status = .active → row'.status ≠ .active →
        ∃ caller, action.caller = some caller ∧ usedToken (s.callers caller) = some row.token) := by
  -- only a statement of a caller writes the row
  have hsame : s'.row = s.row → KeepsLatest row row'
      ∧ (row.status = .active → row'.status ≠ .active → ∃ caller, action.caller = some caller
        ∧ usedToken (s.callers caller) = some row.token) := by
    intro heq
    rw [heq, hrow] at hrow'
    rcases Option.some.inj hrow' with rfl
    exact ⟨Or.inl ⟨rfl, rfl⟩, fun hactive hnot => absurd hactive hnot⟩
  cases action with
  | advance caller now accessNonce refreshNonce =>
    rcases h.advance_row hguard hstep hrow hrow' with ⟨hkeeps, hgiven⟩
    exact ⟨hkeeps, fun hactive hnot => ⟨caller, rfl, hgiven hactive hnot⟩⟩
  | interruptAfter caller now accessNonce refreshNonce =>
    simp only [Credentials.step] at hstep
    split at hstep
    · rcases Option.map_eq_some_iff.mp hstep with ⟨after, hafter, rfl⟩
      rcases h.advance_row hguard hafter hrow hrow' with ⟨hkeeps, hgiven⟩
      exact ⟨hkeeps, fun hactive hnot => ⟨caller, rfl, hgiven hactive hnot⟩⟩
    · cases hstep
  | call caller forced
  | connect caller account username refreshRedirectUri refreshable expiresIn scopes
  | accept caller =>
    simp only [Credentials.step] at hstep
    split at hstep
    · refine hsame ?_
      rw [← Option.some.inj hstep]
      rfl
    · cases hstep
  | answer caller expiresIn scopes =>
    simp only [Credentials.step] at hstep
    split at hstep
    · split at hstep
      · refine hsame ?_
        rw [← Option.some.inj hstep]
        rfl
      · refine hsame ?_
        rw [← Option.some.inj hstep]
        rfl
    · cases hstep
  | refuse caller reason =>
    simp only [Credentials.step] at hstep
    split at hstep
    · refine hsame ?_
      rw [← Option.some.inj hstep]
      rfl
    · refine hsame ?_
      rw [← Option.some.inj hstep]
      rfl
    · cases hstep
  | interrupt caller =>
    refine hsame ?_
    rw [← Option.some.inj hstep]
    rfl
  | revoke refreshToken =>
    refine hsame ?_
    rw [← Option.some.inj hstep]

/-! ## Runs -/

variable {actions : List CredentialAction}

theorem Sound.run
    (hrun : Run (Guarded Guard fun s action s' => Credentials.step s action = some s')
      initial actions s) : s.Sound :=
  hrun.invariant_of_guard (fun _ _ _ h hguard hstep => h.step hguard hstep) initial_sound

/-- As long as every step meets the guard, the grant is given later tokens only, it is given
up by callers that used its own token, and when nobody is under way and it has been given up
then no refresh token that the server was sent is good. -/
theorem credentials_are_kept {actions : List CredentialAction}
    (hrun : Run (Guarded Guard fun s action s' => Credentials.step s action = some s')
      initial actions s) :
    (∀ action s', s.Guard action → s.step action = some s' →
      ∀ row row', s.row = some row → s'.row = some row' →
        KeepsLatest row row'
          ∧ (row.status = .active → row'.status ≠ .active →
            ∃ caller, action.caller = some caller
              ∧ usedToken (s.callers caller) = some row.token))
    ∧ (s.Quiet → ∀ row, s.row = some row → row.status = .reauthRequired →
      ∀ token ∈ s.received, token ∉ s.provider.valid) := by
  have h := Sound.run hrun
  constructor
  · intro action s' hguard hstep row row' hrow hrow'
    exact h.step_row hguard hstep hrow hrow'
  · intro hquiet row hrow hstatus token hreceived hvalid
    rcases h.due row hrow (by simp [hstatus]) token hvalid (Or.inl hreceived)
      with ⟨caller, input, hcaller, -⟩
    rcases hquiet caller with hidle | ⟨error, hended⟩
    · rw [hcaller] at hidle
      cases hidle
    · rw [hcaller] at hended
      cases hended

/-! ## Runs that lose the authorization -/

/-- A caller that no step is about stays where it is. -/
theorem callers_step {other : Nat}
    (hother : action.caller ≠ some other) (hstep : s.step action = some s') :
    s'.callers other = s.callers other := by
  have hgoto : ∀ (caller : Nat) (stage : CredentialStage), some caller ≠ some other →
      (s.goto caller stage).callers other = s.callers other := by
    intro caller stage hne
    rw [callers_goto, if_neg fun heq => hne (congrArg some heq.symm)]
  have hadvance : ∀ (caller : Nat) (now : Timestamp) (accessNonce refreshNonce : Nat)
      (after : Credentials), some caller ≠ some other →
      s.advance caller now accessNonce refreshNonce = some after →
      after.callers other = s.callers other := by
    intro caller now accessNonce refreshNonce after hne hafter
    unfold Credentials.advance at hafter
    split at hafter
    all_goals first
      | (rw [← Option.some.inj hafter]; exact hgoto caller _ hne)
      | cases hafter
  cases action with
  | advance caller now accessNonce refreshNonce =>
    exact hadvance caller now accessNonce refreshNonce s' hother hstep
  | interruptAfter caller now accessNonce refreshNonce =>
    simp only [Credentials.step] at hstep
    split at hstep
    · rcases Option.map_eq_some_iff.mp hstep with ⟨after, hafter, rfl⟩
      rw [callers_goto, if_neg fun heq => hother (congrArg some heq.symm)]
      exact hadvance caller now accessNonce refreshNonce after hother hafter
    · cases hstep
  | interrupt caller =>
    rw [← Option.some.inj hstep]
    exact hgoto caller _ hother
  | revoke refreshToken =>
    rw [← Option.some.inj hstep]
  | call caller | connect caller | answer caller | accept caller | refuse caller =>
    simp only [Credentials.step] at hstep
    repeat' split at hstep
    all_goals first
      | (rw [← Option.some.inj hstep]; exact hgoto caller _ hother)
      | cases hstep

theorem callers_run {other : Nat} (hother : ∀ action ∈ actions, action.caller ≠ some other)
    (hrun : Run (fun s action s' => Credentials.step s action = some s') s actions s') :
    s'.callers other = s.callers other := by
  induction hrun with
  | nil => rfl
  | cons hstep _ ih =>
    rw [ih fun action' hin => hother action' (List.mem_cons_of_mem _ hin)]
    exact callers_step (hother _ List.mem_cons_self) hstep

/-- Two operations find the access token expired. The provider serves the first; the second's
refusal is recorded before the first stores what it was sent. -/
def overtaken : List CredentialAction :=
  [.connect 0 ['a'] ['u'] ['/'] true (some 10) [], .advance 0 0 0 0, .advance 0 0 0 1,
    .call 1 false, .call 2 false, .advance 1 20 0 0, .advance 2 20 0 0,
    .answer 1 (some 10) [], .answer 2 (some 10) [],
    .advance 2 20 0 0, .advance 1 20 0 0, .advance 1 20 2 3, .advance 1 20 0 0]

/-- An operation has its refreshed token refused and the user authorizes again; then the
refusal is recorded. -/
def authorizedAgain : List CredentialAction :=
  [.connect 0 ['a'] ['u'] ['/'] true none [], .advance 0 0 0 0, .advance 0 0 0 1,
    .call 1 true, .advance 1 0 0 0, .answer 1 none [], .advance 1 0 0 0, .advance 1 0 2 3,
    .refuse 1 .gitRejectedRefreshedToken,
    .connect 2 ['a'] ['u'] ['/'] true none [], .advance 2 0 0 0, .advance 2 0 4 5]

/-- Two authorizations are stored in the other order. -/
def storedBackwards : List CredentialAction :=
  [.connect 0 ['a'] ['u'] ['/'] true none [], .connect 1 ['a'] ['u'] ['/'] true none [],
    .advance 0 0 0 0, .advance 1 0 0 0, .advance 1 0 0 1]

/-- The grant ends up given up beside a refresh token that is good; a new grant is given up
over a token that it replaced; and a grant is given earlier tokens. -/
theorem refused_refresh_overtakes_the_store :
    (∃ s row token, Run (fun s action s' => Credentials.step s action = some s') initial
        overtaken s ∧ s.Quiet ∧ s.row = some row ∧ row.status = .reauthRequired
      ∧ token ∈ s.received ∧ token ∈ s.provider.valid)
    ∧ (∃ s s' row row', Run (fun s action s' => Credentials.step s action = some s') initial
        authorizedAgain s ∧ s.step (.advance 1 0 0 0) = some s' ∧ s.row = some row
      ∧ s'.row = some row' ∧ row.status = .active ∧ row'.status = .reauthRequired
      ∧ (usedToken (s.callers 1)).any (fun token => token.number < row.token.number) = true)
    ∧ ∃ s s' row row', Run (fun s action s' => Credentials.step s action = some s') initial
        storedBackwards s ∧ s.step (.advance 0 0 2 3) = some s' ∧ s.row = some row
      ∧ s'.row = some row' ∧ row'.token.number < row.token.number := by
  refine ⟨?_, ?_, ?_⟩
  · let last := (exec step initial overtaken).getD initial
    have hexec : exec step initial overtaken = some last := eq_some_getD (by decide +kernel) _
    refine ⟨last, last.row.get (by decide +kernel), ⟨1, 0, ['a']⟩, exec_run hexec, ?_, ?_, ?_, ?_,
      ?_⟩
    · intro caller
      match caller with
      | 0 => exact Or.inr ⟨none, by decide +kernel⟩
      | 1 => exact Or.inr ⟨some .reauthorizationRequired, by decide +kernel⟩
      | 2 => exact Or.inr ⟨some .reauthorizationRequired, by decide +kernel⟩
      | caller + 3 =>
        left
        refine callers_run ?_ (exec_run hexec)
        simp [overtaken, CredentialAction.caller]
    · exact (Option.some_get _).symm
    · decide +kernel
    · decide +kernel
    · decide +kernel
  · let before := (exec step initial authorizedAgain).getD initial
    have hexec : exec step initial authorizedAgain = some before :=
      eq_some_getD (by decide +kernel) _
    let after := (before.step (.advance 1 0 0 0)).getD initial
    have hstep : before.step (.advance 1 0 0 0) = some after := eq_some_getD (by decide +kernel) _
    refine ⟨before, after, before.row.get (by decide +kernel), after.row.get (by decide +kernel),
      exec_run hexec, hstep, (Option.some_get _).symm, (Option.some_get _).symm, ?_, ?_, ?_⟩
    · decide +kernel
    · decide +kernel
    · decide +kernel
  · let before := (exec step initial storedBackwards).getD initial
    have hexec : exec step initial storedBackwards = some before :=
      eq_some_getD (by decide +kernel) _
    let after := (before.step (.advance 0 0 2 3)).getD initial
    have hstep : before.step (.advance 0 0 2 3) = some after := eq_some_getD (by decide +kernel) _
    refine ⟨before, after, before.row.get (by decide +kernel), after.row.get (by decide +kernel),
      exec_run hexec, hstep, (Option.some_get _).symm, (Option.some_get _).symm, ?_⟩
    decide +kernel

/-- A guard that can be checked: no mark hits, and one authorization is stored. -/
def SimpleGuard (s : Credentials) : CredentialAction → Bool
  | .advance caller _ _ _ =>
    match s.callers caller with
    | .rejected _ grant => s.row.all fun row =>
      !row.isCurrent grant.encryptedAccessToken grant.encryptedRefreshToken
    | .missing _ _ | .refused _ _ => false
    | .authorized _ => s.row.isNone
    | _ => true
  | .interrupt _ | .interruptAfter _ _ _ _ => false
  | _ => true

theorem SimpleGuard.guard (h : s.SimpleGuard action = true) :
    s.Guard action := by
  cases action with
  | advance caller now accessNonce refreshNonce =>
    intro row hrow
    simp only [SimpleGuard] at h
    unfold GuardStatement
    split at h
    all_goals simp_all
  | interrupt caller => cases h
  | interruptAfter caller => cases h
  | _ => trivial

/-- Two operations refresh one grant; the second is refused, finds the pair that the first has
stored, and uses it. Then the first has its access token refused, and the user revokes the
application before it is answered. -/
def refreshedTwice : List CredentialAction :=
  [.connect 0 ['a'] ['u'] ['/'] true (some 10) [], .advance 0 0 0 0, .advance 0 0 0 1,
    .call 1 false, .call 2 false, .advance 1 20 0 0, .advance 2 20 0 0,
    .answer 1 (some 100) [], .answer 2 none [], .advance 1 20 0 0, .advance 1 20 2 3,
    .advance 2 20 0 0, .advance 2 20 0 0, .accept 2,
    .refuse 1 .apiRejectedRefreshedToken, .advance 1 30 0 0, .revoke ⟨1, 0, ['a']⟩,
    .answer 1 none []]

/-- The mark of the first operation then gives up the grant, over the token that is in it, and
no refresh token is left that is good. -/
theorem credentials_are_kept_by_two :
    ∃ s s' row row', Run (Guarded Guard fun s action s' => Credentials.step s action = some s')
        initial refreshedTwice s
      ∧ s.Guard (.advance 1 30 0 0) ∧ s.step (.advance 1 30 0 0) = some s' ∧ s'.Quiet
      ∧ s.row = some row ∧ s'.row = some row' ∧ row.status = .active
      ∧ row'.status = .reauthRequired ∧ s'.received.length = 2 ∧ KeepsLatest row row'
      ∧ (∃ caller, CredentialAction.caller (.advance 1 30 0 0) = some caller
        ∧ usedToken (s.callers caller) = some row.token)
      ∧ ∀ token ∈ s'.received, token ∉ s'.provider.valid := by
  let simpleStep := fun (s : Credentials) a => if s.SimpleGuard a = true then step s a else none
  let last := (exec simpleStep initial refreshedTwice).getD initial
  have hexec : exec simpleStep initial refreshedTwice = some last :=
    eq_some_getD (by decide +kernel) _
  have hsimple := exec_guarded_run hexec
  have hrun : Run (Guarded Guard fun s action s' => Credentials.step s action = some s') initial
      refreshedTwice last :=
    hsimple.mono fun _ _ _ hstep => ⟨SimpleGuard.guard hstep.1, hstep.2⟩
  have hidle : ∀ caller, last.callers (caller + 3) = .idle := by
    intro caller
    refine callers_run ?_ (hsimple.mono fun _ _ _ hstep => hstep.2)
    simp [refreshedTwice, CredentialAction.caller]
  -- the mark hits: nobody is being sent tokens, and none are good
  have hguard : last.Guard (.advance 1 30 0 0) := by
    have hstage : last.callers 1 = .rejected true
        ⟨⟨2, 1, 0, ['a']⟩, some ⟨3, 1, 0, ['a']⟩, ['/'], some 120, .active⟩ := by decide +kernel
    have hpending : ∀ caller, (last.callers caller).pending = none := by
      intro caller
      rcases caller with _ | _ | _ | caller
      · decide +kernel
      · decide +kernel
      · decide +kernel
      · rw [hidle]
        rfl
    have hvalid : last.provider.valid = [] := by decide +kernel
    intro row hrow
    rw [hstage]
    intro _
    refine ⟨?_, ?_⟩
    · intro caller
      have hnone := hpending caller
      constructor
      · intro forced grant refreshToken refreshed heq
        rw [heq] at hnone
        cases hnone
      · intro forced grant refreshToken refreshed heq
        rw [heq] at hnone
        cases hnone
    · intro token htoken
      rw [hvalid] at htoken
      cases htoken
  let after := (last.step (.advance 1 30 0 0)).getD initial
  have hstep : last.step (.advance 1 30 0 0) = some after := eq_some_getD (by decide +kernel) _
  have hquiet : after.Quiet := by
    intro caller
    rcases caller with _ | _ | _ | caller
    · exact Or.inr ⟨none, by decide +kernel⟩
    · exact Or.inr ⟨some .reauthorizationRequired, by decide +kernel⟩
    · exact Or.inr ⟨none, by decide +kernel⟩
    · left
      rw [callers_step (by simp [CredentialAction.caller]) hstep]
      exact hidle caller
  let row := last.row.get (by decide +kernel)
  let row' := after.row.get (by decide +kernel)
  have hrow : last.row = some row := (Option.some_get _).symm
  have hrow' : after.row = some row' := (Option.some_get _).symm
  have hactive : row.status = .active := by decide +kernel
  have hgiven : row'.status = .reauthRequired := by decide +kernel
  have hmarked := (credentials_are_kept hrun).1 _ _ hguard hstep row row' hrow hrow'
  have hall := hrun.append (Run.cons ⟨hguard, hstep⟩ (Run.nil after))
  exact ⟨last, after, row, row', hrun, hguard, hstep, hquiet, hrow, hrow', hactive, hgiven,
    by decide +kernel, hmarked.1, hmarked.2 hactive (by rw [hgiven]; decide),
    (credentials_are_kept hall).2 hquiet row' hrow' hgiven⟩

end Credentials

end Toss.ExternalRepositories
