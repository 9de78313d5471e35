import Toss.Processing.TransferRows

/-!
# What a step does to the requests under way

* `Takes` — an upload that a transfer's row is for;
* `check_read`, `check_store`, `check_stored` — the checks that a request passes;
* `RequestEffect`, `requestStep_effect` — the steps of the system, one case each.
-/

namespace Toss.Processing

open Toss.Foundation

/-! ## Checks -/

/-- An upload with the token of a transfer, in time, of the size and the digest that it was issued
for. -/
structure Takes (sha256 : Bytes → Bytes) (request : TransferRequest) (content : Bytes)
    (transfer : TransferRow) : Prop where
  token : transfer.tokenFingerprint = sha256 request.token
  direction : transfer.direction = .upload
  unexpired : request.now < transfer.expiresAt
  fits : (content.length : Int) ≤ transfer.maxSizeBytes
  size : ∀ exact ∈ transfer.exactSizeBytes, exact = content.length
  digest : ∀ expected ∈ transfer.expectedSha256, expected = sha256 content

variable {sha256 : Bytes → Bytes} {request : TransferRequest} {db : Database}

/-- The checks of an upload, with those that its row was issued for in front. -/
theorem checkStore_eq (content : Bytes) (transfer : TransferRow) (blob : Option BlobRow) :
    (Takes sha256 request content transfer ∧ (transfer.state = .issued ∨ transfer.state = .uploaded)
      ∧ request.checkStore sha256 content transfer blob
        = if transfer.state = .uploaded then
            match blob with
            | none => .error .rejected
            | some blob =>
              if blob.sizeBytes = content.length ∧ blob.sha256 = sha256 content then
                .error (.stored content.length (sha256 content))
              else .error .rejected
          else .ok (.store ⟨request.transferId, transfer.mediaType, content, sha256 content⟩))
    ∨ (¬(Takes sha256 request content transfer
        ∧ (transfer.state = .issued ∨ transfer.state = .uploaded))
      ∧ ∃ outcome, request.checkStore sha256 content transfer blob = .error outcome
        ∧ (outcome = .rejected ∨ outcome = .tooLarge ∨ outcome = .digestMismatch)) := by
  unfold TransferRequest.checkStore
  dsimp only
  split
  · next hrejected =>
    refine .inr ⟨?_, .rejected, rfl, .inl rfl⟩
    rintro ⟨htakes, hstate⟩
    rcases hrejected with htoken | hended | hdirection | hexpired
    · exact htoken htakes.token
    · exact hstate.elim hended.1 hended.2
    · exact hdirection htakes.direction
    · exact absurd htakes.unexpired (not_lt.mpr hexpired)
  · next hauthorized =>
    simp only [not_or, not_and_or, not_not, not_le] at hauthorized
    rcases hauthorized with ⟨htoken, hstate, hdirection, hunexpired⟩
    split
    · next hlarge =>
      refine .inr ⟨?_, .tooLarge, rfl, .inr (.inl rfl)⟩
      rintro ⟨htakes, -⟩
      rcases hlarge with hmax | ⟨exact, hexact, hne⟩
      · exact absurd htakes.fits (not_le.mpr hmax)
      · exact hne (htakes.size exact hexact)
    · next hsize =>
      simp only [not_or, not_lt, not_exists, not_and, not_not] at hsize
      split
      · next hmismatch =>
        refine .inr ⟨?_, .digestMismatch, rfl, .inr (.inr rfl)⟩
        rintro ⟨htakes, -⟩
        rcases hmismatch with ⟨expected, hexpected, hne⟩
        exact hne (htakes.digest expected hexpected)
      · next hdigest =>
        simp only [not_exists, not_and, not_not] at hdigest
        exact .inl ⟨⟨htoken, hdirection, hunexpired, hsize.1, hsize.2, hdigest⟩, hstate, rfl⟩

theorem rowRead_some {transfer : TransferRow} {blob : Option BlobRow}
    (h : request.rowRead db = some (transfer, blob)) :
    (db.transfers.find? fun row => row.id = request.transferId) = some transfer
      ∧ ∃ rows, joinedRows request.snapshot request.transferId = some rows
        ∧ rows.matches transfer request.now = true ∧ blob = rows.blobOf transfer := by
  unfold TransferRequest.rowRead at h
  rcases Option.bind_eq_some_iff.mp h with ⟨rows, hrows, hrest⟩
  rcases Option.bind_eq_some_iff.mp hrest with ⟨found, hfound, hcond⟩
  split at hcond
  · next hmatches =>
    rcases Prod.mk.inj (Option.some.inj hcond) with ⟨rfl, rfl⟩
    exact ⟨hfound, rows, hrows, hmatches, rfl⟩
  · cases hcond

/-- A check reads no other row of the tables. -/
theorem check_congr {db' : Database}
    (h : (db'.transfers.find? fun row => row.id = request.transferId)
      = db.transfers.find? fun row => row.id = request.transferId) :
    request.check sha256 db' = request.check sha256 db := by
  unfold TransferRequest.check TransferRequest.rowRead
  rw [h]

def TransferOutcome.isAccepted : TransferOutcome → Bool
  | .download (.content ..) | .upload (.stored ..) => true
  | _ => false

/-- What a check comes to, with what it has found. -/
inductive CheckResult (sha256 : Bytes → Bytes) (request : TransferRequest) (db : Database) :
    Except TransferOutcome TransferWrite → Prop
  | refused {outcome : TransferOutcome} (hrefused : outcome.isAccepted = false) :
      CheckResult sha256 request db (.error outcome)
  | read {transfer : TransferRow} {blob : Option BlobRow} (content : Bytes) (mediaType : Text)
      (digest : Option Bytes) (hcall : request.call = .download)
      (hrow : request.rowRead db = some (transfer, blob)) (hstate : transfer.state = .issued)
      (hdirection : transfer.direction = .download) (huses : 0 < transfer.remainingUses)
      (htoken : transfer.tokenFingerprint = sha256 request.token)
      (hunexpired : request.now < transfer.expiresAt) :
      CheckResult sha256 request db (.ok (.read content mediaType digest))
  | store {content : Bytes} {transfer : TransferRow} {blob : Option BlobRow}
      (hcall : request.call = .upload content)
      (hrow : request.rowRead db = some (transfer, blob)) (hstate : transfer.state = .issued)
      (htakes : Takes sha256 request content transfer) :
      CheckResult sha256 request db
        (.ok (.store ⟨request.transferId, transfer.mediaType, content, sha256 content⟩))
  | stored {content : Bytes} {transfer : TransferRow} {blob : Option BlobRow}
      (hcall : request.call = .upload content)
      (hrow : request.rowRead db = some (transfer, blob)) (hstate : transfer.state = .uploaded)
      (htakes : Takes sha256 request content transfer) :
      CheckResult sha256 request db (.error (.upload (.stored content.length (sha256 content))))

theorem check_of_rowRead {transfer : TransferRow} {blob : Option BlobRow}
    (hrow : request.rowRead db = some (transfer, blob)) :
    request.check sha256 db = match request.call with
      | .download => (request.checkRead sha256 transfer blob).mapError .download
      | .upload content => (request.checkStore sha256 content transfer blob).mapError .upload := by
  unfold TransferRequest.check
  cases request.call with
  | download => simp only [hrow]
  | upload content => simp only [hrow]

theorem check_result (sha256 : Bytes → Bytes) (request : TransferRequest) (db : Database) :
    CheckResult sha256 request db (request.check sha256 db) := by
  cases hrow : request.rowRead db with
  | none =>
    have hrefused : request.check sha256 db = .error request.call.refused := by
      unfold TransferRequest.check
      rw [hrow]
    rw [hrefused]
    refine .refused ?_
    cases request.call with
    | download => rfl
    | upload content => rfl
  | some found =>
    rcases found with ⟨transfer, blob⟩
    rw [check_of_rowRead hrow]
    cases hcall : request.call with
    | download =>
      show CheckResult sha256 request db
        ((request.checkRead sha256 transfer blob).mapError .download)
      unfold TransferRequest.checkRead
      split
      · exact .refused rfl
      split
      · exact .refused rfl
      rename_i hpassed
      simp only [not_or, not_not] at hpassed
      rcases hpassed with ⟨htoken, hstate, hdirection, huses, hunexpired⟩
      exact .read _ _ _ hcall hrow hstate hdirection (Nat.pos_of_ne_zero huses) htoken
        (not_le.mp hunexpired)
    | upload content =>
      show CheckResult sha256 request db
        ((request.checkStore sha256 content transfer blob).mapError .upload)
      rcases checkStore_eq content transfer blob with
        ⟨htakes, hstate, heq⟩ | ⟨_, outcome, heq, hrefused⟩
      · rw [heq]
        split
        · next huploaded =>
          -- an upload that is repeated must have the stored size and digest
          split
          · exact .refused rfl
          · split
            · exact .stored hcall hrow huploaded htakes
            · exact .refused rfl
        · next hissued =>
          exact .store hcall hrow (hstate.resolve_right hissued) htakes
      · rw [heq]
        refine .refused ?_
        rcases hrefused with rfl | rfl | rfl
        · rfl
        · rfl
        · rfl

/-- What a request that passed its checks writes. -/
inductive WriteResult (sha256 : Bytes → Bytes) (request : TransferRequest) (db : Database) :
    TransferOutcome → Database → Prop
  | read {transfer : TransferRow} {blob : Option BlobRow} (content : Bytes) (mediaType : Text)
      (digest : Option Bytes) (hcall : request.call = .download)
      (hrow : request.rowRead db = some (transfer, blob)) (hstate : transfer.state = .issued)
      (hdirection : transfer.direction = .download) (huses : 0 < transfer.remainingUses) :
      WriteResult sha256 request db (.download (.content content mediaType digest))
        (db.updateTransfers (fun row => row.id = request.transferId) TransferRow.read)
  | store {content : Bytes} {transfer : TransferRow} {blob : Option BlobRow} {stored : Database}
      {storedId : Uuid} (blobId : Uuid) (hcall : request.call = .upload content)
      (hrow : request.rowRead db = some (transfer, blob)) (hstate : transfer.state = .issued)
      (htakes : Takes sha256 request content transfer)
      (hstored : storeBlob db blobId (sha256 content) transfer.mediaType content
        = some (stored, storedId)) :
      WriteResult sha256 request db (.upload (.stored content.length (sha256 content)))
        (stored.updateTransfers (fun row => row.id = request.transferId)
          fun row => row.stored storedId)

theorem write_result {write : TransferWrite} {outcome : TransferOutcome} {db' : Database}
    {blobId : Uuid} (hcheck : request.check sha256 db = .ok write)
    (happly : write.apply request.transferId blobId db = some (outcome, db')) :
    WriteResult sha256 request db outcome db' := by
  have hresult := check_result sha256 request db
  rw [hcheck] at hresult
  cases hresult with
  | read content mediaType digest hcall hrow hstate hdirection huses =>
    rcases Prod.mk.inj (Option.some.inj happly) with ⟨rfl, rfl⟩
    exact .read content mediaType digest hcall hrow hstate hdirection huses
  | store hcall hrow hstate htakes =>
    rw [apply_store_alone] at happly
    rcases Option.map_eq_some_iff.mp happly with ⟨answer, hanswer, heq⟩
    rcases Prod.mk.inj heq with ⟨rfl, rfl⟩
    unfold storeUpload at hanswer ⊢
    split at hanswer
    · cases hanswer
    · next stored storedId hstored =>
      cases hanswer
      exact .store blobId hcall hrow hstate htakes hstored

/-! ## Steps -/

variable {externals : Externals} {config : ProcessingConfig}

/-- What a step leaves. -/
inductive RequestEffect (externals : Externals) (config : ProcessingConfig) (s : TransferSystem) :
    TransferAction → TransferSystem → Prop
  | called {action : Action} {system : System} (hcall : action.isTransferRequest = false)
      (hstep : Step externals config s.system action system)
      (hkept : s.keepsRows system.db = true)
      (hfresh : ∀ row ∈ s.newTransfers system.db, ∀ old ∈ s.issued, old.id ≠ row.id) :
      RequestEffect externals config s (.call action) { s with
        system := system
        issued := s.issued ++ s.newTransfers system.db }
  | refused {action : TransferAction} {request : TransferRequest}
      (hsnapshot : request.snapshot = s.system.db)
      (hrow : (request.rowRead s.system.db).isNone = true) :
      RequestEffect externals config s action (s.answer request request.call.refused)
  | begun {action : TransferAction} {request : TransferRequest}
      (hnumber : ∀ other ∈ s.requests, other.number ≠ request.number)
      (hsnapshot : request.snapshot = s.system.db) (hwrite : request.write = none)
      (hrow : (request.rowRead s.system.db).isSome = true) :
      RequestEffect externals config s action { s with requests := request :: s.requests }
  | answered {request : TransferRequest} {outcome : TransferOutcome}
      (hrequest : request ∈ s.requests)
      (hcheck : request.check externals.sha256 s.system.db = .error outcome) :
      RequestEffect externals config s (.lockTransfer request.number) (s.answer request outcome)
  | locked {request : TransferRequest} {write : TransferWrite} (hrequest : request ∈ s.requests)
      (hfree : ∀ other ∈ s.requests, other.write.isSome = true →
        other.transferId ≠ request.transferId)
      (hcheck : request.check externals.sha256 s.system.db = .ok write) :
      RequestEffect externals config s (.lockTransfer request.number) { s with
        requests := { request with write := some write } :: (s.dropRequest request.number).requests }
  | committed {request : TransferRequest} {write : TransferWrite} {outcome : TransferOutcome}
      {db : Database} (blobId : Uuid) (hrequest : request ∈ s.requests)
      (hwrite : request.write = some write)
      (happly : write.apply request.transferId blobId s.system.db = some (outcome, db)) :
      RequestEffect externals config s (.commitRequest request.number blobId)
        { s.answer request outcome with system := { s.system with db := db } }
  | aborted (action : TransferAction) (number : Nat) :
      RequestEffect externals config s action (s.dropRequest number)

theorem TransferSystem.request?_some {s : TransferSystem} {number : Nat}
    {request : TransferRequest} (h : s.request? number = some request) :
    request ∈ s.requests ∧ request.number = number :=
  ⟨List.mem_of_find?_eq_some h, by simpa using List.find?_some h⟩

theorem lockTransfer_effect {s t : TransferSystem} {request : TransferRequest}
    (hrequest : request ∈ s.requests) (h : lockTransfer externals.sha256 s request = some t) :
    RequestEffect externals config s (.lockTransfer request.number) t := by
  unfold lockTransfer at h
  split at h
  · cases h
  rename_i hfree
  simp only [Bool.or_eq_true, List.any_eq_true, Bool.and_eq_true, decide_eq_true_eq, not_or,
    not_exists, not_and] at hfree
  split at h
  · next outcome hcheck =>
    cases h
    exact .answered hrequest hcheck
  rename_i write hcheck
  cases h
  exact .locked hrequest (fun other hother hwrite hsame => hfree.2 other hother hsame hwrite)
    hcheck

theorem commitRequest_effect {s t : TransferSystem} {request : TransferRequest} {blobId : Uuid}
    (hrequest : request ∈ s.requests) (h : commitRequest s request blobId = some t) :
    RequestEffect externals config s (.commitRequest request.number blobId) t := by
  rcases Option.bind_eq_some_iff.mp h with ⟨write, hwrite, hrest⟩
  rcases Option.bind_eq_some_iff.mp hrest with ⟨⟨outcome, db⟩, happly, hcommit⟩
  rcases Option.bind_eq_some_iff.mp hcommit with ⟨system, hcommitted, hanswer⟩
  have hsystem : system = { s.system with db := db } :=
    (committed_some hcommitted).2
  rw [← Option.some.inj hanswer, hsystem]
  exact .committed blobId hrequest hwrite happly

theorem requestStep_effect {s t : TransferSystem} {action : TransferAction}
    (h : RequestStep externals config s action t) : RequestEffect externals config s action t := by
  cases action with
  | call action =>
    simp only [RequestStep, requestStep] at h
    split at h
    · cases h
    rename_i hcall
    rcases Option.bind_eq_some_iff.mp h with ⟨system, hstep, hafter⟩
    unfold TransferSystem.after at hafter
    split at hafter
    · next hkept =>
      rw [Bool.and_eq_true, List.all_eq_true] at hkept
      cases hafter
      refine .called (by simpa using hcall) hstep hkept.1 ?_
      intro row hrow old hold
      have hfresh := hkept.2 row hrow
      simp only [Bool.not_eq_true', List.any_eq_false, decide_eq_true_eq] at hfresh
      exact hfresh old hold
    · cases hafter
  | beginRequest number call transferId token now =>
    simp only [RequestStep, requestStep, beginRequest] at h
    split at h
    · cases h
    rename_i hnumber
    have hnumber : ∀ other ∈ s.requests, other.number ≠ number := by
      simpa using hnumber
    split at h
    · next hrow =>
      cases h
      exact .refused rfl hrow
    · next hrow =>
      cases h
      exact .begun hnumber rfl rfl (Option.isSome_iff_ne_none.mpr (by simpa using hrow))
  | lockTransfer number =>
    rcases Option.bind_eq_some_iff.mp h with ⟨request, hfound, hlock⟩
    rcases TransferSystem.request?_some hfound with ⟨hrequest, rfl⟩
    exact lockTransfer_effect hrequest hlock
  | commitRequest number blobId =>
    rcases Option.bind_eq_some_iff.mp h with ⟨request, hfound, hcommit⟩
    rcases TransferSystem.request?_some hfound with ⟨hrequest, rfl⟩
    exact commitRequest_effect hrequest hcommit
  | abortRequest number =>
    cases h
    exact .aborted _ number

end Toss.Processing
