import Toss.Processing.TransferSteps

/-!
# The invariant of requests on transfers

* `Progresses` — a transfer's row and what any later statement leaves of it;
* `RowsInv` — the tables, against the transfers issued so far;
* `PendingInv` — a request under way, against its snapshot and against the row that it holds;
* `RequestInv`, `RequestInv.step` — the system.
-/

namespace Toss.Processing

open Toss.Foundation

/-! ## Rows -/

/-- A transfer's row and what later statements leave of it. -/
structure Progresses (old row : TransferRow) : Prop where
  same : row = { old with
    blobId := row.blobId
    state := row.state
    remainingUses := row.remainingUses }
  uses : row.remainingUses ≤ old.remainingUses
  issued : row.state = .issued → old.state = .issued
  uploaded : row.state = .uploaded → old.state = .issued ∨ old.state = .uploaded
  blob : old.state ≠ .issued → row.blobId = old.blobId

namespace Progresses

theorem refl (row : TransferRow) : Progresses row row :=
  ⟨rfl, le_refl _, id, .inr, fun _ => rfl⟩

theorem trans {a b c : TransferRow} (hab : Progresses a b) (hbc : Progresses b c) :
    Progresses a c where
  same := by
    have hsame := hbc.same
    rw [hab.same] at hsame
    exact hsame
  uses := hbc.uses.trans hab.uses
  issued := fun hstate => hab.issued (hbc.issued hstate)
  uploaded := by
    intro hstate
    rcases hbc.uploaded hstate with hissued | huploaded
    · exact .inl (hab.issued hissued)
    · exact hab.uploaded huploaded
  blob := by
    intro hstate
    rw [hbc.blob fun hissued => hstate (hab.issued hissued)]
    exact hab.blob hstate

variable {old row : TransferRow}

theorem id_eq (h : Progresses old row) : row.id = old.id := by rw [h.same]

theorem direction_eq (h : Progresses old row) :
    row.direction = old.direction := by rw [h.same]

theorem size_eq (h : Progresses old row) :
    row.exactSizeBytes = old.exactSizeBytes := by rw [h.same]

theorem digest_eq (h : Progresses old row) :
    row.expectedSha256 = old.expectedSha256 := by rw [h.same]

/-- A request finds the same attempt and job for it. -/
theorem matches_eq (h : Progresses old row) (rows : JoinedRows)
    (now : Timestamp) : rows.matches row now = rows.matches old now := by
  rw [h.same]
  rfl

/-- It is for the same uploads. -/
theorem takes (h : Progresses old row) {sha256 : Bytes → Bytes}
    {request : TransferRequest} {content : Bytes} (htakes : Takes sha256 request content row) :
    Takes sha256 request content old := by
  rw [h.same] at htakes
  exact ⟨htakes.token, htakes.direction, htakes.unexpired, htakes.fits, htakes.size, htakes.digest⟩

theorem of_settles (h : Settles old row) : Progresses old row where
  same := by
    rw [h.same]
  uses := by rw [h.same]
  issued := by
    intro hstate
    rcases h.state with hsame | hexpired | hconsumed
    · exact hsame.symm.trans hstate
    · rw [hstate] at hexpired
      cases hexpired
    · rw [hstate] at hconsumed
      cases hconsumed
  uploaded := by
    intro hstate
    rcases h.state with hsame | hexpired | hconsumed
    · exact .inr (hsame.symm.trans hstate)
    · rw [hstate] at hexpired
      cases hexpired
    · rw [hstate] at hconsumed
      cases hconsumed
  blob := by
    intro _
    rw [h.same]

theorem read {row : TransferRow} (hstate : row.state = .issued) : Progresses row row.read where
  same := rfl
  uses := Nat.sub_le _ _
  issued := fun _ => hstate
  uploaded := fun _ => .inl hstate
  blob := fun hne => absurd hstate hne

theorem stored {row : TransferRow} (hstate : row.state = .issued) (blobId : Uuid) :
    Progresses row (row.stored blobId) where
  same := rfl
  uses := Nat.zero_le _
  issued := fun _ => hstate
  uploaded := fun _ => .inl hstate
  blob := fun hne => absurd hstate hne

end Progresses

/-- An uploaded transfer names a blob of the size and the digest that it was issued for. -/
def IsStored (db : Database) (row : TransferRow) : Prop :=
  ∃ blob, row.blobId.bind db.blob? = some blob ∧ row.exactSizeBytes = some blob.sizeBytes
    ∧ row.expectedSha256 = some blob.sha256

variable {db db' : Database} {s : TransferSystem} {request : TransferRequest}
  {transfer : TransferRow} {sha256 : Bytes → Bytes} {outcome : TransferOutcome}
  {issued : List TransferRow}

theorem IsStored.kept {row : TransferRow} (h : IsStored db row)
    (hblobs : SameBlobs db db') (hthere : ∀ id ∈ row.blobId, (db'.blob? id).isSome = true) :
    IsStored db' row := by
  rcases h with ⟨blob, hblob, hsize, hdigest⟩
  rcases Option.bind_eq_some_iff.mp hblob with ⟨id, hid, hfound⟩
  rcases Option.isSome_iff_exists.mp (hthere id hid) with ⟨blob', hfound'⟩
  refine ⟨blob', Option.bind_eq_some_iff.mpr ⟨id, hid, hfound'⟩, ?_⟩
  rw [hblobs.same id blob blob' hfound hfound']
  exact ⟨hsize, hdigest⟩

/-- The blob that `store_blob` answers with. -/
theorem storeBlob_stored {db stored : Database} {id blobId : Uuid} {digest : Bytes}
    {mediaType : Text} {content : Bytes} (hkeys : (db.blobs.map BlobRow.id).Nodup)
    (h : storeBlob db id digest mediaType content = some (stored, blobId)) :
    ∃ blob, stored.blob? blobId = some blob ∧ blob.sizeBytes = content.length
      ∧ blob.sha256 = digest := by
  have hthere := (storeBlob_blobs h).2
  rcases Option.isSome_iff_exists.mp hthere with ⟨found, hfound⟩
  refine ⟨found, hfound, ?_⟩
  have hfoundId : found.id = blobId := by simpa using List.find?_some hfound
  have hstored : (stored.blobs.map BlobRow.id).Nodup := (SameBlobs.of_store h).keys hkeys
  -- a blob with the key, the size and the digest is the one found
  have honly : ∀ blob ∈ stored.blobs, blob.id = blobId → blob.content.length = content.length →
      blob.sha256 = digest → found.sizeBytes = content.length ∧ found.sha256 = digest := by
    intro blob hblob hid hlength hdigest
    have hsame : found = blob :=
      List.inj_on_of_nodup_map hstored (List.mem_of_find?_eq_some hfound) hblob
        (hfoundId.trans hid.symm)
    rw [hsame]
    exact ⟨by rw [BlobRow.sizeBytes, hlength], hdigest⟩
  unfold storeBlob at h
  split at h
  · next blob hblob =>
    simp only [Option.some.injEq, Prod.mk.injEq] at h
    have hcond := List.find?_some hblob
    simp only [Bool.and_eq_true, decide_eq_true_eq] at hcond
    refine honly blob ?_ h.2 hcond.2 hcond.1
    rw [← h.1]
    exact List.mem_of_find?_eq_some hblob
  · split at h
    · cases h
    · simp only [Option.some.injEq, Prod.mk.injEq] at h
      refine honly ⟨id, digest, mediaType, content⟩ ?_ h.2 rfl rfl
      rw [← h.1]
      exact List.mem_append_right _ (List.mem_singleton.mpr rfl)

/-! ## The tables -/

/-- The tables, and the transfers that have been issued. -/
structure RowsInv (db : Database) (issued : List TransferRow) : Prop where
  jobs : Inv db
  transfers : TransferInv db
  blobs : (db.blobs.map BlobRow.id).Nodup
  once : (issued.map TransferRow.id).Nodup
  ledger : ∀ row ∈ db.transfers, ∃ first ∈ issued, Progresses first row
  reads : ∀ first ∈ issued, first.direction = .download → first.remainingUses = inputTransferReads
  stored : ∀ row ∈ db.transfers, row.state = .uploaded → IsStored db row

/-- A row that a call has issued is as it was issued. -/
theorem TransferSystem.mem_newTransfers {db : Database} {row : TransferRow} :
    row ∈ s.newTransfers db ↔ row ∈ db.transfers ∧ ∀ old ∈ s.system.db.transfers, old.id ≠ row.id := by
  simp [TransferSystem.newTransfers]

variable {externals : Externals} {config : ProcessingConfig}

theorem RowsInv.call {action : Action} {system : System}
    (h : RowsInv s.system.db s.issued) (hcall : action.isTransferRequest = false)
    (hstep : Step externals config s.system action system)
    (hfresh : ∀ row ∈ s.newTransfers system.db, ∀ old ∈ s.issued, old.id ≠ row.id) :
    RowsInv system.db (s.issued ++ s.newTransfers system.db) := by
  have hinv := step_transfers h.jobs h.transfers hstep
  have horigins := step_origins hstep hcall
  have hblobs := step_blobs hstep
  constructor
  · exact step_inv h.jobs hstep
  · exact hinv.1
  · exact hblobs.keys h.blobs
  · rw [List.map_append, List.nodup_append]
    refine ⟨h.once, hinv.1.ids.sublist (List.filter_sublist.map _), ?_⟩
    intro id hid id' hid' heq
    rcases List.mem_map.mp hid with ⟨old, hold, rfl⟩
    rcases List.mem_map.mp hid' with ⟨row, hrow, rfl⟩
    exact hfresh row hrow old hold heq
  · -- a row is one from before that has settled, or is issued now
    intro row hrow
    have hissued : (∀ other ∈ s.system.db.transfers, other.id ≠ row.id) →
        ∃ first ∈ s.issued ++ s.newTransfers system.db, Progresses first row := fun hnew =>
      ⟨row, List.mem_append_right _ (TransferSystem.mem_newTransfers.mpr ⟨hrow, hnew⟩), .refl row⟩
    cases horigins row hrow with
    | settled hold hsettles =>
      rcases h.ledger _ hold with ⟨first, hfirst, hprogress⟩
      exact ⟨first, List.mem_append_left _ hfirst, hprogress.trans (.of_settles hsettles)⟩
    | input draw job now hnew | artifact id token request attempt now hnew => exact hissued hnew
  · intro first hfirst hdownload
    rcases List.mem_append.mp hfirst with hold | hnew
    · exact h.reads first hold hdownload
    rcases TransferSystem.mem_newTransfers.mp hnew with ⟨hrow, hnone⟩
    cases horigins first hrow with
    | settled hold hsettles => exact absurd (by rw [hsettles.same]) (hnone _ hold)
    | input draw job now _ heq => rw [heq, inputTransfer]
    | artifact id token request attempt now _ heq =>
      rw [heq, artifactTransfer] at hdownload
      cases hdownload
  · intro row hrow hstate
    cases horigins row hrow with
    | @settled old hold hsettles =>
      -- a row that is uploaded afterwards has not settled in this step
      have hsame : row = old := by
        rcases hsettles.state with hkept | hexpired | hconsumed
        · have hrowEq := hsettles.same
          rw [hkept] at hrowEq
          exact hrowEq
        · rw [hstate] at hexpired
          cases hexpired
        · rw [hstate] at hconsumed
          cases hconsumed
      rw [hsame] at hrow hstate ⊢
      exact (h.stored old hold hstate).kept hblobs (hinv.1.blob old hrow)
    | input draw job now _ heq =>
      rw [heq, inputTransfer] at hstate
      cases hstate
    | artifact id token request attempt now _ heq =>
      rw [heq, artifactTransfer] at hstate
      cases hstate

/-- The row that a request has read. -/
theorem mem_of_rowRead {db : Database}
    {blob : Option BlobRow} (h : request.rowRead db = some (transfer, blob)) :
    transfer ∈ db.transfers ∧ transfer.id = request.transferId := by
  have hfound := (rowRead_some h).1
  exact ⟨List.mem_of_find?_eq_some hfound, by simpa using List.find?_some hfound⟩

/-- What the writes of a request leave of the rows. -/
structure Writes (request : TransferRequest) (db db' : Database) : Prop where
  jobs : db'.jobs = db.jobs
  attempts : db'.attempts = db.attempts
  blobs : SameBlobs db db'
  rows : ∀ row ∈ db'.transfers, ∃ old ∈ db.transfers, Progresses old row
    ∧ (row = old ∨ row.id = request.transferId ∧ old.state = .issued)
  others : ∀ id, id ≠ request.transferId → (db'.transfers.find? fun row => row.id = id)
    = db.transfers.find? fun row => row.id = id

theorem Writes.of_update
    {set : TransferRow → TransferRow} (hids : (db.transfers.map TransferRow.id).Nodup)
    (htransfer : transfer ∈ db.transfers) (hid : transfer.id = request.transferId)
    (hstate : transfer.state = .issued)
    (hset : ∀ row : TransferRow, row.state = .issued → Progresses row (set row))
    (hsetId : ∀ row, (set row).id = row.id) (hjobs : db'.jobs = db.jobs)
    (hattempts : db'.attempts = db.attempts) (hblobs : SameBlobs db db')
    (htransfers : db'.transfers
      = updateWhere (fun row => row.id = request.transferId) set db.transfers) :
    Writes request db db' where
  jobs := hjobs
  attempts := hattempts
  blobs := hblobs
  rows := by
    intro row hrow
    rw [htransfers] at hrow
    rcases mem_updateWhere.mp hrow with ⟨old, hold, ⟨hcond, rfl⟩ | ⟨_, rfl⟩⟩
    · have hsame : old = transfer := List.inj_on_of_nodup_map hids hold htransfer
        ((of_decide_eq_true hcond).trans hid.symm)
      rw [hsame]
      exact ⟨transfer, htransfer, hset transfer hstate, .inr ⟨(hsetId transfer).trans hid, hstate⟩⟩
    · exact ⟨row, hold, .refl row, .inl rfl⟩
  others := by
    intro id hne
    rw [htransfers]
    refine find?_updateWhere_of_frame ?_ _
    intro row hcond
    have hrowId : row.id ≠ id := by
      rw [of_decide_eq_true hcond]
      exact hne.symm
    exact ⟨decide_eq_false hrowId, decide_eq_false (by rw [hsetId]; exact hrowId)⟩

theorem WriteResult.writes (h : WriteResult sha256 request db outcome db')
    (hids : (db.transfers.map TransferRow.id).Nodup) : Writes request db db' := by
  cases h with
  | read content mediaType digest hcall hrow hstate hdirection huses =>
    rcases mem_of_rowRead hrow with ⟨hmem, hid⟩
    exact .of_update hids hmem hid hstate (fun _ => .read) (fun _ => rfl) rfl rfl (.of_blobs rfl) rfl
  | store blobId hcall hrow hstate htakes hstored =>
    rcases mem_of_rowRead hrow with ⟨hmem, hid⟩
    have hblobs := SameBlobs.of_store hstored
    rcases storeBlob_cases hstored with ⟨blobs, rfl⟩
    exact .of_update hids hmem hid hstate (fun _ hissued => .stored hissued _) (fun _ => rfl) rfl rfl
      (hblobs.congr rfl) rfl

/-- What an upload was issued for is what it takes. -/
theorem Takes.declared {content : Bytes} (h : Takes sha256 request content transfer)
    (hdeclared : IsDeclared transfer) : transfer.exactSizeBytes = some (content.length : Int)
      ∧ transfer.expectedSha256 = some (sha256 content) := by
  rcases hdeclared h.direction with ⟨_, hsize, hdigest⟩
  rcases Option.isSome_iff_exists.mp hsize with ⟨size, hsize⟩
  rcases Option.isSome_iff_exists.mp hdigest with ⟨digest, hdigest⟩
  exact ⟨by rw [hsize, h.size size hsize], by rw [hdigest, h.digest digest hdigest]⟩

theorem TransferInv.write (h : TransferInv db)
    (hresult : WriteResult sha256 request db outcome db') : TransferInv db' := by
  suffices hboth : TransferInv db' ∧ TransfersUpdated db db' from hboth.1
  cases hresult with
  | read =>
    refine h.update rfl ?_ (.refl db) (fun _ hid => hid) ?_
    · exact fun _ => ⟨rfl, rfl, rfl, rfl, rfl, rfl, rfl, rfl⟩
    · exact fun row hrow _ => h.blob row hrow
  | store blobId hcall hrow hstate htakes hstored =>
    have hblobs := storeBlob_blobs hstored
    rcases storeBlob_cases hstored with ⟨blobs, rfl⟩
    refine h.update rfl ?_ (.refl db) hblobs.1 ?_
    · exact fun _ => ⟨rfl, rfl, rfl, rfl, rfl, rfl, rfl, rfl⟩
    · intro row _ _ id hid
      cases hid
      exact hblobs.2

theorem RowsInv.write (h : RowsInv db issued)
    (hresult : WriteResult sha256 request db outcome db') : RowsInv db' issued := by
  have hwrites := hresult.writes h.transfers.ids
  have htransfers := h.transfers.write hresult
  constructor
  · exact h.jobs.of_tables hwrites.jobs hwrites.attempts
  · exact htransfers
  · exact hwrites.blobs.keys h.blobs
  · exact h.once
  · intro row hrow
    rcases hwrites.rows row hrow with ⟨old, hold, hprogress, _⟩
    rcases h.ledger old hold with ⟨first, hfirst, hbefore⟩
    exact ⟨first, hfirst, hbefore.trans hprogress⟩
  · exact h.reads
  · intro row hrow hstate
    -- a row that the write leaves keeps its blob
    have hkept : row ∈ db.transfers → IsStored db' row := fun hold =>
      (h.stored row hold hstate).kept hwrites.blobs (htransfers.blob row hrow)
    cases hresult with
    | @read transfer _ _ _ _ _ hread hissued =>
      rcases mem_updateWhere.mp hrow with ⟨old, hold, ⟨hcond, rfl⟩ | ⟨_, rfl⟩⟩
      · have hsame : old = transfer := List.inj_on_of_nodup_map h.transfers.ids hold
          (mem_of_rowRead hread).1 ((of_decide_eq_true hcond).trans (mem_of_rowRead hread).2.symm)
        rw [hsame, TransferRow.read, hissued] at hstate
        split at hstate
        · cases hstate
        · cases hstate
      · exact hkept hold
    | @store content transfer _ stored storedId _ _ hread _ htakes hstored =>
      rcases mem_updateWhere.mp hrow with ⟨old, hold, ⟨hcond, rfl⟩ | ⟨_, rfl⟩⟩
      · rcases storeBlob_stored h.blobs hstored with ⟨blob, hblob, hsize, hdigest⟩
        rcases storeBlob_cases hstored with ⟨blobs, rfl⟩
        have hsame : old = transfer := List.inj_on_of_nodup_map h.transfers.ids hold
          (mem_of_rowRead hread).1 ((of_decide_eq_true hcond).trans (mem_of_rowRead hread).2.symm)
        rcases htakes.declared (h.transfers.declared transfer (mem_of_rowRead hread).1) with
          ⟨hexact, hexpected⟩
        refine ⟨blob, hblob, ?_, ?_⟩
        · rw [hsize, hsame]
          exact hexact
        · rw [hdigest, hsame]
          exact hexpected
      · rcases storeBlob_cases hstored with ⟨blobs, rfl⟩
        exact hkept hold

/-! ## Requests -/

def TransferOutcome.isRead : TransferOutcome → Bool
  | .download (.content ..) => true
  | _ => false

theorem TransferOutcome.isRead_eq_false
    (h : outcome.isAccepted = false) : outcome.isRead = false := by
  cases outcome with
  | download outcome =>
    cases outcome with
    | content => cases h
    | rejected => rfl
  | upload outcome => rfl

/-- The downloads that a transfer has served. -/
def TransferSystem.served (s : TransferSystem) (transferId : Uuid) : Nat :=
  s.answers.countP fun answer => answer.request.transferId = transferId && answer.outcome.isRead

/-- A request under way. -/
structure PendingInv (sha256 : Bytes → Bytes) (db : Database) (issued : List TransferRow)
    (request : TransferRequest) : Prop where
  known : request.transferId ∈ issued.map TransferRow.id
  begun : (request.rowRead request.snapshot).isSome = true
  past : ∀ row ∈ db.transfers, row.id = request.transferId → ∃ old,
    (request.snapshot.transfers.find? fun row => row.id = request.transferId) = some old
      ∧ Progresses old row
  stored : ∀ old ∈ request.snapshot.transfers, old.state = .uploaded →
    IsStored request.snapshot old
  held : ∀ write, request.write = some write → request.check sha256 db = .ok write

/-- An answer that accepts its request: the claim was checked when its statement began, and an
upload is of the size and the digest that its transfer was issued for. -/
structure AnswerInv (sha256 : Bytes → Bytes) (issued : List TransferRow) (answer : TransferAnswer) :
    Prop where
  checked : answer.outcome.isAccepted = true → (liveTransfer answer.request.snapshot
    answer.request.transferId answer.request.now).isSome = true
  declared : answer.outcome.isAccepted = true → ∀ content, answer.request.call = .upload content →
    ∃ first ∈ issued, first.id = answer.request.transferId
      ∧ first.exactSizeBytes = some (content.length : Int)
      ∧ first.expectedSha256 = some (sha256 content)

structure RequestInv (sha256 : Bytes → Bytes) (s : TransferSystem) : Prop where
  rows : RowsInv s.system.db s.issued
  numbers : (s.requests.map TransferRequest.number).Nodup
  holders : ∀ request ∈ s.requests, ∀ other ∈ s.requests, request.write.isSome = true →
    other.write.isSome = true → other.transferId = request.transferId → other = request
  pending : ∀ request ∈ s.requests, PendingInv sha256 s.system.db s.issued request
  answers : ∀ answer ∈ s.answers, AnswerInv sha256 s.issued answer
  served : ∀ id, s.served id ≤ inputTransferReads
  unknown : ∀ id, id ∉ s.issued.map TransferRow.id → s.served id = 0
  room : ∀ row ∈ s.system.db.transfers, row.direction = .download →
    s.served row.id + row.remainingUses ≤ inputTransferReads

theorem served_answer (s : TransferSystem) (request : TransferRequest) (outcome : TransferOutcome)
    (id : Uuid) : (s.answer request outcome).served id
      = s.served id + if request.transferId = id && outcome.isRead then 1 else 0 := by
  unfold TransferSystem.served TransferSystem.answer
  rw [List.countP_append, List.countP_singleton]

/-- A refusal or an acknowledgement serves nothing. -/
theorem served_answer_of_not_read (h : outcome.isRead = false) (id : Uuid) :
    (s.answer request outcome).served id = s.served id := by
  rw [served_answer, h, Bool.and_false]
  rfl

theorem AnswerInv.mono {issued issued' : List TransferRow}
    {answer : TransferAnswer} (h : AnswerInv sha256 issued answer) (hsub : issued ⊆ issued') :
    AnswerInv sha256 issued' answer where
  checked := h.checked
  declared := by
    intro haccepted content hcall
    rcases h.declared haccepted content hcall with ⟨first, hfirst, hrest⟩
    exact ⟨first, hsub hfirst, hrest⟩

theorem AnswerInv.of_refused {answer : TransferAnswer} (h : answer.outcome.isAccepted = false) :
    AnswerInv sha256 issued answer := by
  constructor
  · intro haccepted
    rw [h] at haccepted
    cases haccepted
  · intro haccepted
    rw [h] at haccepted
    cases haccepted

/-- A request under way has passed the check of its claim. -/
theorem PendingInv.live {db : Database} (h : PendingInv sha256 db issued request) :
    (liveTransfer request.snapshot request.transferId request.now).isSome = true := by
  have hbegun := h.begun
  rw [rowRead_snapshot, Option.isSome_map] at hbegun
  exact hbegun

/-- What an accepted upload was declared with. -/
theorem RowsInv.declared {db : Database} {content : Bytes} {blob : Option BlobRow}
    (h : RowsInv db issued) (hrow : request.rowRead db = some (transfer, blob))
    (htakes : Takes sha256 request content transfer) :
    ∃ first ∈ issued, first.id = request.transferId
      ∧ first.exactSizeBytes = some (content.length : Int)
      ∧ first.expectedSha256 = some (sha256 content) := by
  rcases mem_of_rowRead hrow with ⟨hmem, hid⟩
  rcases htakes.declared (h.transfers.declared transfer hmem) with ⟨hsize, hdigest⟩
  rcases h.ledger transfer hmem with ⟨first, hfirst, hprogress⟩
  refine ⟨first, hfirst, ?_, ?_, ?_⟩
  · rw [← hprogress.id_eq, hid]
  · rw [← hprogress.size_eq, hsize]
  · rw [← hprogress.digest_eq, hdigest]

/-! ## Steps -/

theorem RequestInv.call {action : Action} {system : System}
    (h : RequestInv externals.sha256 s) (hcall : action.isTransferRequest = false)
    (hstep : Step externals config s.system action system) (hkept : s.keepsRows system.db = true)
    (hfresh : ∀ row ∈ s.newTransfers system.db, ∀ old ∈ s.issued, old.id ≠ row.id) :
    RequestInv externals.sha256 { s with
      system := system
      issued := s.issued ++ s.newTransfers system.db } := by
  have hrows := h.rows.call hcall hstep hfresh
  have horigins := step_origins hstep hcall
  -- a row that was not there has an identifier that was never issued
  have hissued : ∀ row ∈ system.db.transfers, (∀ other ∈ s.system.db.transfers, other.id ≠ row.id) →
      row.id ∉ s.issued.map TransferRow.id := by
    intro row hrow hnew hid
    rcases List.mem_map.mp hid with ⟨old, hold, heq⟩
    exact hfresh row (TransferSystem.mem_newTransfers.mpr ⟨hrow, hnew⟩) old hold heq
  have hsub : s.issued ⊆ s.issued ++ s.newTransfers system.db := List.subset_append_left _ _
  constructor
  · exact hrows
  · exact h.numbers
  · exact h.holders
  · intro request hrequest
    have hpending := h.pending request hrequest
    constructor
    · exact List.map_subset _ hsub hpending.known
    · exact hpending.begun
    · intro row hrow hid
      have hold : (∀ other ∈ s.system.db.transfers, other.id ≠ row.id) → False := by
        intro hnew
        refine hissued row hrow hnew ?_
        rw [hid]
        exact hpending.known
      cases horigins row hrow with
      | settled holdMem hsettles =>
        have hprogress := Progresses.of_settles hsettles
        rcases hpending.past _ holdMem (hprogress.id_eq.symm.trans hid) with ⟨first, hfirst, hbefore⟩
        exact ⟨first, hfirst, hbefore.trans hprogress⟩
      | input draw job now hnew | artifact id token artifact attempt now hnew =>
        exact absurd hnew hold
    · exact hpending.stored
    · intro write hwrite
      have hrow := List.all_eq_true.mp hkept request hrequest
      rw [hwrite] at hrow
      have hsame : (system.db.transfers.find? fun row => row.id = request.transferId)
          = s.system.db.transfers.find? fun row => row.id = request.transferId := by
        simpa using hrow
      show request.check externals.sha256 system.db = .ok write
      rw [check_congr hsame]
      exact hpending.held write hwrite
  · exact fun answer hanswer => (h.answers answer hanswer).mono hsub
  · exact h.served
  · intro id hid
    refine h.unknown id fun hold => hid (List.map_subset _ hsub hold)
  · intro row hrow hdownload
    -- so nothing has been read from it
    have hnewRoom : (∀ other ∈ s.system.db.transfers, other.id ≠ row.id) →
        s.served row.id + row.remainingUses ≤ inputTransferReads := by
      intro hnew
      rw [h.unknown row.id (hissued row hrow hnew), hrows.reads row ?_ hdownload]
      · exact (Nat.zero_add _).le
      · exact List.mem_append_right _ (TransferSystem.mem_newTransfers.mpr ⟨hrow, hnew⟩)
    cases horigins row hrow with
    | @settled old hold hsettles =>
      have hprogress := Progresses.of_settles hsettles
      have hroom := h.room old hold (hprogress.direction_eq.symm.trans hdownload)
      rw [← hprogress.id_eq] at hroom
      have huses := hprogress.uses
      show s.served row.id + row.remainingUses ≤ inputTransferReads
      omega
    | input draw job now hnew | artifact id token artifact attempt now hnew => exact hnewRoom hnew

theorem RequestInv.dropRequest
    (h : RequestInv sha256 s) (number : Nat) : RequestInv sha256 (s.dropRequest number) := by
  have hmem : ∀ request ∈ (s.dropRequest number).requests, request ∈ s.requests :=
    fun request hrequest => (List.mem_filter.mp hrequest).1
  exact ⟨h.rows, h.numbers.sublist (List.filter_sublist.map _),
    fun request hrequest other hother =>
      h.holders request (hmem request hrequest) other (hmem other hother),
    fun request hrequest => h.pending request (hmem request hrequest),
    h.answers, h.served, h.unknown, h.room⟩

/-- An answer that serves nothing. -/
theorem RequestInv.answer (h : RequestInv sha256 s) (hread : outcome.isRead = false)
    (hanswer : AnswerInv sha256 s.issued ⟨request, s.system.db, outcome⟩) :
    RequestInv sha256 (s.answer request outcome) := by
  have hdropped := h.dropRequest request.number
  have hserved := @served_answer_of_not_read s request outcome hread
  constructor
  · exact h.rows
  · exact hdropped.numbers
  · exact hdropped.holders
  · exact hdropped.pending
  · intro answer hmem
    rcases List.mem_append.mp hmem with hold | hnew
    · exact h.answers answer hold
    · rcases List.mem_singleton.mp hnew with rfl
      exact hanswer
  · intro id
    rw [hserved]
    exact h.served id
  · intro id hid
    rw [hserved]
    exact h.unknown id hid
  · intro row hrow hdownload
    rw [hserved]
    exact h.room row hrow hdownload

theorem RequestInv.begin (h : RequestInv sha256 s)
    (hnumber : ∀ other ∈ s.requests, other.number ≠ request.number)
    (hsnapshot : request.snapshot = s.system.db) (hwrite : request.write = none)
    (hrow : (request.rowRead s.system.db).isSome = true) :
    RequestInv sha256 { s with requests := request :: s.requests } := by
  rcases Option.isSome_iff_exists.mp hrow with ⟨⟨transfer, blob⟩, hread⟩
  rcases mem_of_rowRead hread with ⟨hmem, hid⟩
  constructor
  · exact h.rows
  · rw [List.map_cons, List.nodup_cons]
    refine ⟨?_, h.numbers⟩
    intro hthere
    rcases List.mem_map.mp hthere with ⟨other, hother, heq⟩
    exact hnumber other hother heq
  · intro one hone other hother hheld hheld'
    -- the request has checked nothing yet, so it holds no row
    rcases List.mem_cons.mp hone with rfl | hone
    · rw [hwrite] at hheld
      cases hheld
    rcases List.mem_cons.mp hother with rfl | hother
    · rw [hwrite] at hheld'
      cases hheld'
    · exact h.holders one hone other hother hheld hheld'
  · intro other hother
    rcases List.mem_cons.mp hother with rfl | hold
    · constructor
      · rcases h.rows.ledger transfer hmem with ⟨first, hfirst, hprogress⟩
        exact List.mem_map.mpr ⟨first, hfirst, hprogress.id_eq.symm.trans hid⟩
      · rw [hsnapshot]
        exact hrow
      · intro row hrowMem hrowId
        have hsame : row = transfer := List.inj_on_of_nodup_map h.rows.transfers.ids hrowMem hmem
          (hrowId.trans hid.symm)
        rw [hsame, hsnapshot]
        exact ⟨transfer, (rowRead_some hread).1, .refl transfer⟩
      · rw [hsnapshot]
        exact h.rows.stored
      · intro write hsome
        rw [hwrite] at hsome
        cases hsome
    · exact h.pending other hold
  · exact h.answers
  · exact h.served
  · exact h.unknown
  · exact h.room

theorem RequestInv.lock (h : RequestInv sha256 s)
    {write : TransferWrite} (hrequest : request ∈ s.requests)
    (hfree : ∀ other ∈ s.requests, other.write.isSome = true →
      other.transferId ≠ request.transferId)
    (hcheck : request.check sha256 s.system.db = .ok write) :
    RequestInv sha256 { s with
      requests := { request with write := some write }
        :: (s.dropRequest request.number).requests } := by
  have hdropped := h.dropRequest request.number
  have hmem : ∀ other ∈ (s.dropRequest request.number).requests, other ∈ s.requests :=
    fun other hother => (List.mem_filter.mp hother).1
  constructor
  · exact h.rows
  · rw [List.map_cons, List.nodup_cons]
    refine ⟨?_, hdropped.numbers⟩
    intro hthere
    rcases List.mem_map.mp hthere with ⟨other, hother, heq⟩
    exact of_decide_eq_true (List.mem_filter.mp hother).2 heq
  · intro one hone other hother hheld hheld' hsame
    rcases List.mem_cons.mp hone with rfl | hone
    · rcases List.mem_cons.mp hother with rfl | hother
      · rfl
      · exact absurd hsame (hfree other (hmem other hother) hheld')
    · rcases List.mem_cons.mp hother with rfl | hother
      · exact absurd hsame.symm (hfree one (hmem one hone) hheld)
      · exact hdropped.holders one hone other hother hheld hheld' hsame
  · intro other hother
    rcases List.mem_cons.mp hother with rfl | hold
    · have hpending := h.pending request hrequest
      refine ⟨hpending.known, hpending.begun, hpending.past, hpending.stored, ?_⟩
      intro written hwritten
      cases hwritten
      exact hcheck
    · exact hdropped.pending other hold
  · exact h.answers
  · exact h.served
  · exact h.unknown
  · exact h.room

theorem RequestInv.commit (h : RequestInv sha256 s) {write : TransferWrite} {db : Database}
    {blobId : Uuid} (hrequest : request ∈ s.requests) (hwrite : request.write = some write)
    (happly : write.apply request.transferId blobId s.system.db = some (outcome, db)) :
    RequestInv sha256 { s.answer request outcome with system := { s.system with db := db } } := by
  have hpending := h.pending request hrequest
  have hresult := write_result (hpending.held write hwrite) happly
  have hrows := h.rows.write hresult
  have hwrites := hresult.writes h.rows.transfers.ids
  have hdropped := h.dropRequest request.number
  have hserved : ∀ id, (s.answer request outcome).served id
      = s.served id + if request.transferId = id && outcome.isRead then 1 else 0 :=
    served_answer s request outcome
  constructor
  · exact hrows
  · exact hdropped.numbers
  · exact hdropped.holders
  · intro other hother
    have hbefore := hdropped.pending other hother
    refine ⟨hbefore.known, hbefore.begun, ?_, hbefore.stored, ?_⟩
    · intro row hrow hid
      rcases hwrites.rows row hrow with ⟨old, hold, hprogress, _⟩
      rcases hbefore.past old hold (hprogress.id_eq.symm.trans hid) with ⟨first, hfirst, hfirst'⟩
      exact ⟨first, hfirst, hfirst'.trans hprogress⟩
    · intro written hwritten
      have hother := List.mem_filter.mp hother
      -- a transfer has one holder, so the write is on another row
      have hne : other.transferId ≠ request.transferId := by
        intro hsame
        have heq := h.holders request hrequest other hother.1 (by rw [hwrite]; rfl)
          (by rw [hwritten]; rfl) hsame
        exact of_decide_eq_true hother.2 (by rw [heq])
      show other.check sha256 db = .ok written
      rw [check_congr (hwrites.others other.transferId hne)]
      exact hbefore.held written hwritten
  · intro answer hanswer
    rcases List.mem_append.mp hanswer with hold | hnew
    · exact h.answers answer hold
    rcases List.mem_singleton.mp hnew with rfl
    refine ⟨fun _ => hpending.live, ?_⟩
    intro _ content hcall
    cases hresult with
    | read _ _ _ hdownload =>
      rw [hdownload] at hcall
      cases hcall
    | store blobId hupload hread hstate htakes =>
      rcases TransferCall.upload.inj (hupload.symm.trans hcall) with rfl
      exact h.rows.declared hread htakes
  · intro id
    show (s.answer request outcome).served id ≤ _
    rw [hserved]
    have hbound := h.served id
    split
    · next hcond =>
      rw [Bool.and_eq_true, decide_eq_true_eq] at hcond
      -- a read takes one use of the row it counts
      cases hresult with
      | @read transfer _ _ _ _ _ hread _ hdirection huses =>
        rcases mem_of_rowRead hread with ⟨hmem, hid⟩
        have hroom := h.room transfer hmem hdirection
        rw [hid, hcond.1] at hroom
        omega
      | store => exact absurd hcond.2 Bool.false_ne_true
    · exact hbound
  · intro id hid
    show (s.answer request outcome).served id = 0
    have hne : request.transferId ≠ id := by
      intro heq
      exact hid (heq ▸ hpending.known)
    rw [hserved, h.unknown id hid]
    simp [hne]
  · intro row hrow hdownload
    show (s.answer request outcome).served row.id + row.remainingUses ≤ inputTransferReads
    rw [hserved]
    cases hresult with
    | @read transfer _ _ _ _ _ hread _ hdirection huses =>
      rcases mem_of_rowRead hread with ⟨hmem, hid⟩
      rcases mem_updateWhere.mp hrow with ⟨old, hold, ⟨hcond, rfl⟩ | ⟨hcond, rfl⟩⟩
      · have hroom := h.room old hold hdownload
        have hsame : old = transfer := List.inj_on_of_nodup_map h.rows.transfers.ids hold hmem
          ((of_decide_eq_true hcond).trans hid.symm)
        rw [← hsame] at huses
        show s.served old.id + _ + (old.remainingUses - 1) ≤ _
        split
        · omega
        · omega
      · have hroom := h.room row hold hdownload
        have hne : request.transferId ≠ row.id := fun heq => of_decide_eq_false hcond heq.symm
        simpa [hne] using hroom
    | store blobId hupload hread hstate htakes hstored =>
      rcases hwrites.rows row hrow with ⟨old, hold, hprogress, _⟩
      have hroom := h.room old hold (hprogress.direction_eq.symm.trans hdownload)
      rw [← hprogress.id_eq] at hroom
      have huses := hprogress.uses
      split
      · next hcond =>
        rw [Bool.and_eq_true] at hcond
        exact absurd hcond.2 Bool.false_ne_true
      · omega

theorem RequestInv.step {s t : TransferSystem} {action : TransferAction}
    (h : RequestInv externals.sha256 s) (hstep : RequestStep externals config s action t) :
    RequestInv externals.sha256 t := by
  have heffect := requestStep_effect hstep
  clear hstep
  cases heffect with
  | called hcall hstep hkept hfresh => exact h.call hcall hstep hkept hfresh
  | @refused _ request =>
    have hrefused : request.call.refused.isAccepted = false := by
      cases request.call with
      | download => rfl
      | upload content => rfl
    exact h.answer (TransferOutcome.isRead_eq_false hrefused) (.of_refused hrefused)
  | begun hnumber hsnapshot hwrite hrow => exact h.begin hnumber hsnapshot hwrite hrow
  | @answered request outcome hrequest hcheck =>
    have hresult := check_result externals.sha256 request s.system.db
    rw [hcheck] at hresult
    cases hresult with
    | refused hrefused =>
      exact h.answer (TransferOutcome.isRead_eq_false hrefused) (.of_refused hrefused)
    | stored hcall hread hstate htakes =>
      refine h.answer rfl ⟨fun _ => (h.pending request hrequest).live, ?_⟩
      intro _ content hupload
      rcases TransferCall.upload.inj (hcall.symm.trans hupload) with rfl
      exact h.rows.declared hread htakes
  | locked hrequest hfree hcheck => exact h.lock hrequest hfree hcheck
  | committed blobId hrequest hwrite happly => exact h.commit hrequest hwrite happly
  | aborted _ number => exact h.dropRequest number

end Toss.Processing
