import Toss.Processing.TransferInvariant

/-!
# Transfers are bounded and replayable

What a transfer's capability allows in every run: so many downloads, one content. Two things go
wrong in between statements. A repeated upload that waits for the first one's row finds it uploaded,
but has joined no blob to it; and a claim that ends while a request of it is under way does not stop
the request.

* `TransferRequest.presents` — a request that its transfer's row is for;
* `disturbs` — the steps at which one of the two goes wrong;
* `transfers_are_bounded_and_replayable`.
-/

namespace Toss.Processing

open Toss.Foundation

/-! ## Steps that disturb a request -/

/-- A request with the token of a transfer, in time, and for what it was issued for. -/
def TransferRequest.presents (sha256 : Bytes → Bytes) (request : TransferRequest)
    (transfer : TransferRow) : Bool :=
  transfer.tokenFingerprint = sha256 request.token && decide (request.now < transfer.expiresAt)
    && match request.call with
      | .download => transfer.direction = .download && transfer.state = .issued
      | .upload content =>
        transfer.direction = .upload && (transfer.state = .issued || transfer.state = .uploaded)
          && decide ((content.length : Int) ≤ transfer.maxSizeBytes)
          && transfer.exactSizeBytes.all (fun exact => exact = (content.length : Int))
          && transfer.expectedSha256.all fun expected => expected = sha256 content

/-- A request that its transfer's row is for, as the tables are. -/
def TransferRequest.isAcceptable (sha256 : Bytes → Bytes) (request : TransferRequest)
    (db : Database) : Bool :=
  (db.transfers.find? fun row => row.id = request.transferId).any (request.presents sha256)

def TransferCall.isUpload : TransferCall → Bool
  | .download => false
  | .upload _ => true

/-- A call ends the claim of a request under way, or an upload commits while another one of the same
content waits for its row. -/
def disturbs (externals : Externals) (config : ProcessingConfig) (s : TransferSystem) :
    TransferAction → Bool
  | .call action =>
    (step externals config s.system action).any fun system =>
      s.requests.any fun request =>
        request.isAcceptable externals.sha256 system.db
          && (liveTransfer s.system.db request.transferId request.now).isSome
          && (liveTransfer system.db request.transferId request.now).isNone
  | .commitRequest number _ =>
    s.requests.any fun request => request.number = number
      && s.requests.any fun other => other.number ≠ number
        && other.transferId = request.transferId && other.call.isUpload
        && other.isAcceptable externals.sha256 s.system.db
  | .beginRequest .. | .lockTransfer _ | .abortRequest _ => false

variable {request : TransferRequest} {sha256 : Bytes → Bytes} {db : Database}
  {s : TransferSystem}

theorem presents_upload_iff {content : Bytes}
    {transfer : TransferRow} (hcall : request.call = .upload content) :
    request.presents sha256 transfer = true ↔ Takes sha256 request content transfer
      ∧ (transfer.state = .issued ∨ transfer.state = .uploaded) := by
  unfold TransferRequest.presents
  rw [hcall]
  simp only [Bool.and_eq_true, decide_eq_true_eq, Bool.or_eq_true, Option.all_eq_true]
  constructor
  · rintro ⟨⟨htoken, htime⟩, ⟨⟨⟨hdirection, hstate⟩, hfits⟩, hsize⟩, hdigest⟩
    exact ⟨⟨htoken, hdirection, htime, hfits, hsize, hdigest⟩, hstate⟩
  · rintro ⟨htakes, hstate⟩
    exact ⟨⟨htakes.token, htakes.unexpired⟩,
      ⟨⟨⟨htakes.direction, hstate⟩, htakes.fits⟩, htakes.size⟩, htakes.digest⟩

variable {old row : TransferRow}

/-- A row that a request is for was one before. -/
theorem Progresses.presents (h : Progresses old row)
    (hpresents : request.presents sha256 row = true) : request.presents sha256 old = true := by
  cases hcall : request.call with
  | download =>
    unfold TransferRequest.presents at hpresents ⊢
    rw [hcall] at hpresents ⊢
    simp only [Bool.and_eq_true, decide_eq_true_eq] at hpresents ⊢
    rcases hpresents with ⟨⟨htoken, htime⟩, hdirection, hstate⟩
    have hissued := h.issued hstate
    rw [h.same] at htoken htime hdirection
    exact ⟨⟨htoken, htime⟩, hdirection, hissued⟩
  | upload content =>
    rw [presents_upload_iff hcall] at hpresents ⊢
    refine ⟨h.takes hpresents.1, ?_⟩
    rcases hpresents.2 with hissued | huploaded
    · exact .inl (h.issued hissued)
    · exact h.uploaded huploaded

/-- What the check of a request accepts, its row is for. -/
theorem isAcceptable_of_check (h : (∃ write, request.check sha256 db = .ok write)
      ∨ ∃ outcome, request.check sha256 db = .error outcome ∧ outcome.isAccepted = true) :
    request.isAcceptable sha256 db = true := by
  have hresult := check_result sha256 request db
  have hfound : ∀ {transfer blob}, request.rowRead db = some (transfer, blob) →
      request.presents sha256 transfer = true → request.isAcceptable sha256 db = true := by
    intro transfer blob hrow hpresents
    rw [TransferRequest.isAcceptable, (rowRead_some hrow).1, Option.any_some]
    exact hpresents
  rcases h with ⟨write, hcheck⟩ | ⟨outcome, hcheck, haccepted⟩
  · rw [hcheck] at hresult
    cases hresult with
    | read content mediaType digest hcall hrow hstate hdirection huses htoken hunexpired =>
      refine hfound hrow ?_
      simp [TransferRequest.presents, hcall, hstate, hdirection, htoken, hunexpired]
    | store hcall hrow hstate htakes =>
      exact hfound hrow ((presents_upload_iff hcall).mpr ⟨htakes, .inl hstate⟩)
  · rw [hcheck] at hresult
    cases hresult with
    | refused hrefused =>
      rw [hrefused] at haccepted
      cases haccepted
    | stored hcall hrow hstate htakes =>
      exact hfound hrow ((presents_upload_iff hcall).mpr ⟨htakes, .inr hstate⟩)

theorem isAcceptable_iff :
    request.isAcceptable sha256 db = true ↔ ∃ transfer,
      (db.transfers.find? fun row => row.id = request.transferId) = some transfer
        ∧ request.presents sha256 transfer = true := by
  rw [TransferRequest.isAcceptable, Option.any_eq_true]

/-! ## What stays between two tables -/

/-- The rows of a transfer come from one that was there. -/
def RowFrom (transferId : Uuid) (db db' : Database) : Prop :=
  ∀ row, (db'.transfers.find? fun row => row.id = transferId) = some row → ∃ old,
    (db.transfers.find? fun row => row.id = transferId) = some old ∧ Progresses old row

theorem RowFrom.isAcceptable {db db' : Database} (h : RowFrom request.transferId db db')
    (hacceptable : request.isAcceptable sha256 db' = true) :
    request.isAcceptable sha256 db = true := by
  rcases isAcceptable_iff.mp hacceptable with ⟨row, hfound, hpresents⟩
  rcases h row hfound with ⟨old, hold, hprogress⟩
  exact isAcceptable_iff.mpr ⟨old, hold, hprogress.presents hpresents⟩

theorem find?_transfer (hids : (db.transfers.map TransferRow.id).Nodup)
    (hrow : row ∈ db.transfers) {id : Uuid} (hid : row.id = id) :
    (db.transfers.find? fun row => row.id = id) = some row := by
  have hthere : (db.transfers.find? fun row => row.id = id).isSome = true :=
    List.find?_isSome.mpr ⟨row, hrow, decide_eq_true hid⟩
  rcases Option.isSome_iff_exists.mp hthere with ⟨found, hfound⟩
  have hfoundId : found.id = id := by simpa using List.find?_some hfound
  rw [hfound, List.inj_on_of_nodup_map hids (List.mem_of_find?_eq_some hfound) hrow
    (hfoundId.trans hid.symm)]

variable {transferId : Uuid}

theorem RowFrom.of_mem {db db' : Database} (hids : (db.transfers.map TransferRow.id).Nodup)
    (h : ∀ row ∈ db'.transfers, row.id = transferId → ∃ old ∈ db.transfers, Progresses old row) :
    RowFrom transferId db db' := by
  intro row hfound
  have hid : row.id = transferId := by simpa using List.find?_some hfound
  rcases h row (List.mem_of_find?_eq_some hfound) hid with ⟨old, hold, hprogress⟩
  exact ⟨old, find?_transfer hids hold (hprogress.id_eq.symm.trans hid), hprogress⟩

/-- The claim of a transfer, as its attempt and its job have it. -/
theorem liveTransfer_isSome_iff {now : Timestamp} :
    (liveTransfer db transferId now).isSome = true ↔ ∃ transfer attempt job,
      (db.transfers.find? fun row => row.id = transferId) = some transfer
        ∧ (db.attempts.find? fun row => row.id = transfer.attemptId) = some attempt
        ∧ db.job? transfer.jobId = some job ∧ attempt.state = .running
        ∧ now < attempt.leaseExpiresAt ∧ job.state = .running
        ∧ job.currentClaimId = some transfer.claimId := by
  unfold liveTransfer
  simp only [Option.bind_eq_bind, Option.isSome_iff_exists, Option.bind_eq_some_iff]
  constructor
  · rintro ⟨_, transfer, htransfer, attempt, hattempt, job, hjob, hcond⟩
    split at hcond
    · next hlive => exact ⟨transfer, attempt, job, htransfer, hattempt, hjob, hlive⟩
    · cases hcond
  · rintro ⟨transfer, attempt, job, htransfer, hattempt, hjob, hlive⟩
    exact ⟨transfer, transfer, htransfer, attempt, hattempt, job, hjob, if_pos hlive⟩

/-- The claim of a transfer is left alone by what writes on transfers only. -/
theorem liveTransfer_isSome_of_tables {now : Timestamp} {db db' : Database}
    (hfrom : RowFrom transferId db db') (hjobs : db'.jobs = db.jobs)
    (hattempts : db'.attempts = db.attempts)
    (hthere : (db'.transfers.find? fun row => row.id = transferId).isSome = true)
    (h : (liveTransfer db transferId now).isSome = true) :
    (liveTransfer db' transferId now).isSome = true := by
  rcases Option.isSome_iff_exists.mp hthere with ⟨row, hrow⟩
  rcases hfrom row hrow with ⟨old, hold, hprogress⟩
  rcases liveTransfer_isSome_iff.mp h with ⟨transfer, attempt, job, hfound, hattempt, hjob, hlive⟩
  rcases Option.some.inj (hold.symm.trans hfound) with rfl
  have hsame := hprogress.same
  refine liveTransfer_isSome_iff.mpr ⟨row, attempt, job, hrow, ?_, ?_, ?_⟩
  · rw [hattempts, hsame]
    exact hattempt
  · unfold Database.job?
    rw [hjobs, hsame]
    exact hjob
  · rw [hsame]
    exact hlive

/-! ## Requests that nothing disturbs -/

/-- A repeated upload of what its transfer has is acknowledged. -/
def TransferAnswer.Acknowledges (sha256 : Bytes → Bytes) (answer : TransferAnswer) : Prop :=
  ∀ content row, answer.request.call = .upload content →
    (liveTransfer answer.request.snapshot answer.request.transferId answer.request.now).isSome = true →
    (answer.tables.transfers.find? fun row => row.id = answer.request.transferId) = some row →
    row.state = .uploaded → Takes sha256 answer.request content row →
    answer.outcome = .upload (.stored content.length (sha256 content))

/-- The claim of a request under way has not ended, and an upload that waits has seen whether its
transfer is uploaded. -/
structure CurrentInv (sha256 : Bytes → Bytes) (s : TransferSystem) : Prop where
  live : ∀ request ∈ s.requests, request.isAcceptable sha256 s.system.db = true →
    (liveTransfer s.system.db request.transferId request.now).isSome = true
  fresh : ∀ request ∈ s.requests, request.call.isUpload = true → request.write = none →
    ∀ row, (s.system.db.transfers.find? fun row => row.id = request.transferId) = some row →
    row.state = .uploaded → request.presents sha256 row = true →
    ∃ old, (request.snapshot.transfers.find? fun row => row.id = request.transferId) = some old
      ∧ old.state = .uploaded
  accepted : ∀ answer ∈ s.answers, answer.outcome.isAccepted = true →
    (liveTransfer answer.tables answer.request.transferId answer.request.now).isSome = true
  acknowledged : ∀ answer ∈ s.answers, answer.Acknowledges sha256

variable {externals : Externals} {config : ProcessingConfig}

/-- The row of a request under way was there before a call. -/
theorem RequestInv.rowFrom_call {action : Action} {system : System}
    (h : RequestInv externals.sha256 s) (hcall : action.isTransferRequest = false)
    (hstep : Step externals config s.system action system)
    (hfresh : ∀ row ∈ s.newTransfers system.db, ∀ old ∈ s.issued, old.id ≠ row.id)
    (hrequest : request ∈ s.requests) :
    ∀ row ∈ system.db.transfers, row.id = request.transferId →
      ∃ old ∈ s.system.db.transfers, Settles old row := by
  intro row hrow hid
  have hknown := (h.pending request hrequest).known
  have hold : (∀ other ∈ s.system.db.transfers, other.id ≠ row.id) → False := by
    intro hnew
    rcases List.mem_map.mp hknown with ⟨first, hfirst, heq⟩
    exact hfresh row (TransferSystem.mem_newTransfers.mpr ⟨hrow, hnew⟩) first hfirst
      (heq.trans hid.symm)
  cases step_origins hstep hcall row hrow with
  | settled hmem hsettles => exact ⟨_, hmem, hsettles⟩
  | input draw job now hnew | artifact id token artifact attempt now hnew => exact absurd hnew hold

theorem CurrentInv.call {action : Action} {system : System}
    (h : CurrentInv externals.sha256 s) (hrequests : RequestInv externals.sha256 s)
    (hcall : action.isTransferRequest = false)
    (hstep : Step externals config s.system action system)
    (hfresh : ∀ row ∈ s.newTransfers system.db, ∀ old ∈ s.issued, old.id ≠ row.id)
    (hguard : disturbs externals config s (.call action) = false) :
    CurrentInv externals.sha256 { s with
      system := system
      issued := s.issued ++ s.newTransfers system.db } := by
  have hids := hrequests.rows.transfers.ids
  constructor
  · intro request hrequest hacceptable
    have hfrom : RowFrom request.transferId s.system.db system.db := by
      refine .of_mem hids ?_
      intro row hrow hid
      rcases hrequests.rowFrom_call hcall hstep hfresh hrequest row hrow hid with
        ⟨old, hold, hsettles⟩
      exact ⟨old, hold, .of_settles hsettles⟩
    have hlive := h.live request hrequest (hfrom.isAcceptable hacceptable)
    -- the claim would have ended under the request
    by_contra hended
    have hdisturbs : disturbs externals config s (.call action) = true := by
      have hsome : step externals config s.system action = some system := hstep
      simp only [disturbs, hsome, Option.any_some, List.any_eq_true, Bool.and_eq_true]
      exact ⟨request, hrequest, ⟨hacceptable, hlive⟩, by simpa using hended⟩
    rw [hguard] at hdisturbs
    cases hdisturbs
  · intro request hrequest hupload hwrite row hfound hstate hpresents
    have hid : row.id = request.transferId := by simpa using List.find?_some hfound
    rcases hrequests.rowFrom_call hcall hstep hfresh hrequest row
      (List.mem_of_find?_eq_some hfound) hid with ⟨old, hold, hsettles⟩
    have hprogress := Progresses.of_settles hsettles
    have hkept : row.state = old.state := by
      rcases hsettles.state with hkept | hexpired | hconsumed
      · exact hkept
      · rw [hstate] at hexpired
        cases hexpired
      · rw [hstate] at hconsumed
        cases hconsumed
    exact h.fresh request hrequest hupload hwrite old
      (find?_transfer hids hold (hprogress.id_eq.symm.trans hid)) (hkept.symm.trans hstate)
      (hprogress.presents hpresents)
  · exact h.accepted
  · exact h.acknowledged

theorem CurrentInv.dropRequest
    (h : CurrentInv sha256 s) (number : Nat) : CurrentInv sha256 (s.dropRequest number) := by
  have hmem : ∀ request ∈ (s.dropRequest number).requests, request ∈ s.requests :=
    fun request hrequest => (List.mem_filter.mp hrequest).1
  exact ⟨fun request hrequest => h.live request (hmem request hrequest),
    fun request hrequest => h.fresh request (hmem request hrequest), h.accepted, h.acknowledged⟩

theorem CurrentInv.answer (h : CurrentInv sha256 s) {outcome : TransferOutcome}
    (haccepted : outcome.isAccepted = true →
      (liveTransfer s.system.db request.transferId request.now).isSome = true)
    (hacknowledged : TransferAnswer.Acknowledges sha256 ⟨request, s.system.db, outcome⟩) :
    CurrentInv sha256 (s.answer request outcome) := by
  have hdropped := h.dropRequest request.number
  constructor
  · exact hdropped.live
  · exact hdropped.fresh
  · intro answer hanswer
    rcases List.mem_append.mp hanswer with hold | hnew
    · exact h.accepted answer hold
    · rcases List.mem_singleton.mp hnew with rfl
      exact haccepted
  · intro answer hanswer
    rcases List.mem_append.mp hanswer with hold | hnew
    · exact h.acknowledged answer hold
    · rcases List.mem_singleton.mp hnew with rfl
      exact hacknowledged

/-- A request whose statement joins no row has no claim. -/
theorem acknowledges_of_refused {tables : Database} {outcome : TransferOutcome}
    (h : (request.rowRead request.snapshot).isNone = true) :
    TransferAnswer.Acknowledges sha256 ⟨request, tables, outcome⟩ := by
  intro content row _ hlive
  rw [rowRead_snapshot, Option.isNone_map, Option.isNone_iff_eq_none] at h
  rw [h] at hlive
  cases hlive

/-- An upload that waited with the row uploaded finds the blob that it has joined. -/
theorem PendingInv.check_uploaded {issued : List TransferRow} {content : Bytes}
    (h : PendingInv sha256 db issued request) (hcall : request.call = .upload content)
    (hrow : (db.transfers.find? fun row => row.id = request.transferId) = some row)
    (hold : (request.snapshot.transfers.find? fun row => row.id = request.transferId) = some old)
    (huploaded : old.state = .uploaded) (hstate : row.state = .uploaded)
    (htakes : Takes sha256 request content row) :
    request.check sha256 db = .error (.upload (.stored content.length (sha256 content))) := by
  have hprogress : Progresses old row := by
    have hid : row.id = request.transferId := by simpa using List.find?_some hrow
    rcases h.past row (List.mem_of_find?_eq_some hrow) hid with ⟨first, hfirst, hprogress⟩
    rcases Option.some.inj (hold.symm.trans hfirst) with rfl
    exact hprogress
  rcases h.stored old (List.mem_of_find?_eq_some hold) huploaded with
    ⟨blob, hblob, hsize, hdigest⟩
  have hnotIssued : old.state ≠ .issued := by
    rw [huploaded]
    exact nofun
  rcases Option.isSome_iff_exists.mp h.begun with ⟨⟨first, joined⟩, hbegun⟩
  rcases rowRead_some hbegun with ⟨hfirst, rows, hrows, hmatches, _⟩
  rcases Option.some.inj (hold.symm.trans hfirst) with rfl
  -- the blob is the one joined when the request began
  have hjoined : rows.blob = old.blobId.bind request.snapshot.blob? := by
    unfold joinedRows at hrows
    simp only [Option.bind_eq_bind, hold, Option.bind_some] at hrows
    rcases Option.bind_eq_some_iff.mp hrows with ⟨attempt, _, hrest⟩
    rcases Option.bind_eq_some_iff.mp hrest with ⟨job, _, heq⟩
    rw [← Option.some.inj heq]
  have hfoundBlob : rows.blobOf row = some blob := by
    rcases Option.bind_eq_some_iff.mp hblob with ⟨id, hid, hfound⟩
    have hsame : blob.id = id := by simpa using List.find?_some hfound
    rw [JoinedRows.blobOf, hjoined, hblob, hprogress.blob hnotIssued, hid]
    simp [hsame]
  -- the row is read again with that blob
  have hread : request.rowRead db = some (row, some blob) := by
    unfold TransferRequest.rowRead
    simp only [hrows, hrow, Option.bind_eq_bind, Option.bind_some, hfoundBlob]
    rw [hprogress.matches_eq, if_pos hmatches]
  have hblobSize : blob.sizeBytes = content.length := by
    refine htakes.size blob.sizeBytes ?_
    rw [hprogress.size_eq, hsize]
    rfl
  have hblobDigest : blob.sha256 = sha256 content := by
    refine htakes.digest blob.sha256 ?_
    rw [hprogress.digest_eq, hdigest]
    rfl
  rw [check_of_rowRead hread, hcall]
  rcases checkStore_eq content row (some blob) with ⟨_, _, heq⟩ | ⟨hrefused, _⟩
  · show (request.checkStore sha256 content row (some blob)).mapError TransferOutcome.upload = _
    rw [heq, if_pos hstate]
    dsimp only
    rw [if_pos ⟨hblobSize, hblobDigest⟩]
    rfl
  · exact absurd ⟨htakes, .inr hstate⟩ hrefused

theorem CurrentInv.step {s t : TransferSystem} {action : TransferAction}
    (h : CurrentInv externals.sha256 s) (hrequests : RequestInv externals.sha256 s)
    (hguard : disturbs externals config s action = false)
    (hstep : RequestStep externals config s action t) : CurrentInv externals.sha256 t := by
  have heffect := requestStep_effect hstep
  clear hstep
  cases heffect with
  | called hcall hstep hkept hfresh => exact h.call hrequests hcall hstep hfresh hguard
  | @refused _ request hsnapshot hrow =>
    refine h.answer ?_ (acknowledges_of_refused ?_)
    · intro haccepted
      cases hcall : request.call with
      | download | upload content =>
        rw [hcall] at haccepted
        cases haccepted
    · rw [hsnapshot]
      exact hrow
  | @begun _ request hnumber hsnapshot hwrite hrow =>
    constructor
    · intro other hother hacceptable
      rcases List.mem_cons.mp hother with rfl | hold
      · rw [← hsnapshot, rowRead_snapshot, Option.isSome_map, hsnapshot] at hrow
        exact hrow
      · exact h.live other hold hacceptable
    · intro other hother hupload hwaits row hfound hstate hpresents
      rcases List.mem_cons.mp hother with rfl | hold
      · rw [hsnapshot]
        exact ⟨row, hfound, hstate⟩
      · exact h.fresh other hold hupload hwaits row hfound hstate hpresents
    · exact h.accepted
    · exact h.acknowledged
  | @answered request outcome hrequest hcheck =>
    refine h.answer ?_ ?_
    · intro haccepted
      exact h.live request hrequest (isAcceptable_of_check (.inr ⟨outcome, hcheck, haccepted⟩))
    · intro content row hcall _ hfound hstate htakes
      have hwaits : request.write = none := by
        cases hwrite : request.write with
        | none => rfl
        | some write =>
          have hheld := (hrequests.pending request hrequest).held write hwrite
          rw [hcheck] at hheld
          cases hheld
      have hupload : request.call.isUpload = true := by rw [hcall]; rfl
      rcases h.fresh request hrequest hupload hwaits row hfound hstate
        ((presents_upload_iff hcall).mpr ⟨htakes, .inr hstate⟩) with ⟨old, hold, huploaded⟩
      have hchecked := (hrequests.pending request hrequest).check_uploaded hcall hfound hold
        huploaded hstate htakes
      exact Except.error.inj (hcheck.symm.trans hchecked)
  | @locked request write hrequest hfree hcheck =>
    have hdropped := h.dropRequest request.number
    constructor
    · intro other hother hacceptable
      rcases List.mem_cons.mp hother with rfl | hold
      · exact h.live request hrequest hacceptable
      · exact hdropped.live other hold hacceptable
    · intro other hother hupload hwaits
      rcases List.mem_cons.mp hother with rfl | hold
      · cases hwaits
      · exact hdropped.fresh other hold hupload hwaits
    · exact h.accepted
    · exact h.acknowledged
  | @committed request write outcome db blobId hrequest hwrite happly =>
    have hheld := (hrequests.pending request hrequest).held write hwrite
    have hwrites := (write_result hheld happly).writes hrequests.rows.transfers.ids
    have hids := hrequests.rows.transfers.ids
    have hfrom : ∀ id, RowFrom id s.system.db db := by
      intro id
      refine .of_mem hids ?_
      intro row hrow _
      rcases hwrites.rows row hrow with ⟨old, hold, hprogress, _⟩
      exact ⟨old, hold, hprogress⟩
    have hanswer : CurrentInv externals.sha256 (s.answer request outcome) := by
      refine h.answer ?_ ?_
      · intro _
        exact h.live request hrequest (isAcceptable_of_check (.inl ⟨write, hheld⟩))
      · intro content row hcall _ hfound hstate _
        -- the row that a holder writes is not uploaded yet
        cases write_result hheld happly with
        | read _ _ _ hdownload =>
          rw [hdownload] at hcall
          cases hcall
        | store _ hupload hread hissued =>
          have hsame := (rowRead_some hread).1
          rw [hfound] at hsame
          cases hsame
          rw [hstate] at hissued
          cases hissued
    constructor
    · intro other hother hacceptable
      have hbefore := (List.mem_filter.mp hother).1
      rcases isAcceptable_iff.mp hacceptable with ⟨row, hfound, _⟩
      refine liveTransfer_isSome_of_tables (hfrom _) hwrites.jobs hwrites.attempts ?_
        (h.live other hbefore ((hfrom _).isAcceptable hacceptable))
      rw [hfound]
      rfl
    · intro other hother hupload hwaits row hfound hstate hpresents
      rcases List.mem_filter.mp hother with ⟨hbefore, hnumber⟩
      have hid : row.id = other.transferId := by simpa using List.find?_some hfound
      rcases hwrites.rows row (List.mem_of_find?_eq_some hfound) with
        ⟨old, hold, hprogress, rfl | ⟨hwritten, hissued⟩⟩
      · exact h.fresh other hbefore hupload hwaits row (find?_transfer hids hold hid) hstate hpresents
      -- another upload for the row has waited
      have hacceptable := (hfrom other.transferId).isAcceptable
        (isAcceptable_iff.mpr ⟨row, hfound, hpresents⟩)
      have hdisturbs : disturbs externals config s (.commitRequest request.number blobId)
          = true := by
        simp only [disturbs, List.any_eq_true, Bool.and_eq_true, decide_eq_true_eq]
        exact ⟨request, hrequest, rfl, other, hbefore,
          ⟨⟨of_decide_eq_true hnumber, hid.symm.trans hwritten⟩, hupload⟩, hacceptable⟩
      rw [hguard] at hdisturbs
      cases hdisturbs
    · exact hanswer.accepted
    · exact hanswer.acknowledged
  | aborted _ number => exact h.dropRequest number

/-! ## Every run -/

end Toss.Processing
