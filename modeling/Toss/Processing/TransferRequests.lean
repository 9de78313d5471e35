import Toss.Processing.Transfers

/-!
# Requests on transfers

`download_transfer` and `upload_transfer` statement by statement. The first statement joins the
transfer with its attempt, its job and its blob as they are when it begins, and waits for the
transfer's row alone; when it has the row it reads that row again, with the other rows as it had
joined them. The writes and the commit are a step of their own, and what other calls do to the
claim in between does not wait for them.

* `TransferRequest` — a request under way;
* `TransferRequest.check` — what it makes of the row it gets;
* `TransferSystem`, `requestStep` — one statement of a request, or a whole call of another kind.
-/

namespace Toss.Processing

open Toss.Foundation

/-! ## The first statement -/

inductive TransferCall
  | download
  | upload (content : Bytes)
deriving DecidableEq, Repr

inductive TransferOutcome
  | download (outcome : TransferDownloadOutcome)
  | upload (outcome : TransferUploadOutcome)
deriving DecidableEq, Repr

def TransferCall.refused : TransferCall → TransferOutcome
  | .download => .download .rejected
  | .upload _ => .upload .rejected

/-- The rows that a transfer is joined with. -/
structure JoinedRows where
  attempt : AttemptRow
  job : JobRow
  blob : Option BlobRow
deriving DecidableEq, Repr

def joinedRows (db : Database) (transferId : Uuid) : Option JoinedRows := do
  let transfer ← db.transfers.find? fun transfer => transfer.id = transferId
  let attempt ← db.attempts.find? fun attempt => attempt.id = transfer.attemptId
  let job ← db.job? transfer.jobId
  return ⟨attempt, job, transfer.blobId.bind db.blob?⟩

/-- The conditions of the join and the `where` clause. -/
def JoinedRows.matches (rows : JoinedRows) (transfer : TransferRow) (now : Timestamp) : Bool :=
  rows.attempt.id = transfer.attemptId && rows.job.id = transfer.jobId
    && rows.attempt.state = .running && decide (now < rows.attempt.leaseExpiresAt)
    && rows.job.state = .running && rows.job.currentClaimId = some transfer.claimId

/-- The blob among the joined rows, if it is the one that the transfer names. -/
def JoinedRows.blobOf (rows : JoinedRows) (transfer : TransferRow) : Option BlobRow :=
  rows.blob.filter fun blob => transfer.blobId = some blob.id

/-! ## Requests -/

/-- What a request that passed its checks has to write. -/
inductive TransferWrite
  | read (content : Bytes) (mediaType : Text) (sha256 : Option Bytes)
  | store (upload : PendingUpload)
deriving DecidableEq, Repr

/-- A request under way: the tables when its statement began, and what it has to write once it
holds its transfer's row. -/
structure TransferRequest where
  number : Nat
  call : TransferCall
  transferId : Uuid
  token : Bytes
  now : Timestamp
  snapshot : Database
  write : Option TransferWrite
deriving DecidableEq

namespace TransferRequest

/-- The transfer's row as it is now, with the other rows as the statement has joined them. -/
def rowRead (request : TransferRequest) (db : Database) : Option (TransferRow × Option BlobRow) := do
  let rows ← joinedRows request.snapshot request.transferId
  let transfer ← db.transfers.find? fun transfer => transfer.id = request.transferId
  if rows.matches transfer request.now then some (transfer, rows.blobOf transfer) else none

/-- The checks of a download on the row that it read. Its statement joins the blob too: without one
there is no row. -/
def checkRead (sha256 : Bytes → Bytes) (request : TransferRequest) (transfer : TransferRow)
    (blob : Option BlobRow) : Except TransferDownloadOutcome TransferWrite :=
  match blob with
  | none => .error .rejected
  | some blob =>
    if transfer.tokenFingerprint ≠ sha256 request.token ∨ transfer.state ≠ .issued
        ∨ transfer.direction ≠ .download ∨ transfer.remainingUses = 0
        ∨ transfer.expiresAt ≤ request.now then .error .rejected
    else .ok (.read blob.content transfer.mediaType transfer.expectedSha256)

/-- The checks of an upload. -/
def checkStore (sha256 : Bytes → Bytes) (request : TransferRequest) (content : Bytes)
    (transfer : TransferRow) (blob : Option BlobRow) : Except TransferUploadOutcome TransferWrite :=
  let digest := sha256 content
  let sizeBytes : Int := content.length
  if transfer.tokenFingerprint ≠ sha256 request.token
      ∨ (transfer.state ≠ .issued ∧ transfer.state ≠ .uploaded)
      ∨ transfer.direction ≠ .upload ∨ transfer.expiresAt ≤ request.now then .error .rejected
  else if transfer.maxSizeBytes < sizeBytes
      ∨ (∃ exact ∈ transfer.exactSizeBytes, exact ≠ sizeBytes) then .error .tooLarge
  else if ∃ expected ∈ transfer.expectedSha256, expected ≠ digest then .error .digestMismatch
  else if transfer.state = .uploaded then
    match blob with
    | none => .error .rejected
    | some blob =>
      if blob.sizeBytes = sizeBytes ∧ blob.sha256 = digest then .error (.stored sizeBytes digest)
      else .error .rejected
  else .ok (.store ⟨request.transferId, transfer.mediaType, content, digest⟩)

/-- What a request makes of the row that it gets: an answer, or something to write. -/
def check (sha256 : Bytes → Bytes) (request : TransferRequest) (db : Database) :
    Except TransferOutcome TransferWrite :=
  match request.rowRead db with
  | none => .error request.call.refused
  | some (transfer, blob) =>
    match request.call with
    | .download => (request.checkRead sha256 transfer blob).mapError .download
    | .upload content => (request.checkStore sha256 content transfer blob).mapError .upload

end TransferRequest

/-- The writes of a request, with a key for the blob of an upload. -/
def TransferWrite.apply (transferId blobId : Uuid) (db : Database) :
    TransferWrite → Option (TransferOutcome × Database)
  | .read content mediaType sha256 =>
    some (.download (.content content mediaType sha256),
      db.updateTransfers (fun row => row.id = transferId) TransferRow.read)
  | .store upload =>
    match storeUpload db blobId upload with
    | (some outcome, db') => some (.upload outcome, db')
    | (none, _) => none

/-! ## Requests and other calls -/

/-- An answer, with the tables that its request found last. -/
structure TransferAnswer where
  request : TransferRequest
  tables : Database
  outcome : TransferOutcome
deriving DecidableEq

/-- The system with the requests under way. The answers given and the transfers issued so far are
kept for statements about runs, and for the identifiers that `Uuid::new_v4()` does not draw
again. -/
structure TransferSystem where
  system : System := {}
  requests : List TransferRequest := []
  answers : List TransferAnswer := []
  issued : List TransferRow := []

namespace TransferSystem

def request? (s : TransferSystem) (number : Nat) : Option TransferRequest :=
  s.requests.find? fun request => request.number = number

def dropRequest (s : TransferSystem) (number : Nat) : TransferSystem :=
  { s with requests := s.requests.filter fun request => request.number ≠ number }

def answer (s : TransferSystem) (request : TransferRequest) (outcome : TransferOutcome) :
    TransferSystem :=
  { s.dropRequest request.number with
    answers := s.answers ++ [⟨request, s.system.db, outcome⟩] }

/-- The rows that requests hold are as they were. -/
def keepsRows (s : TransferSystem) (db : Database) : Bool :=
  s.requests.all fun request => request.write.isNone
    || decide ((db.transfers.find? fun row => row.id = request.transferId)
      = s.system.db.transfers.find? fun row => row.id = request.transferId)

/-- The transfers that a call has issued. -/
def newTransfers (s : TransferSystem) (db : Database) : List TransferRow :=
  db.transfers.filter fun row => !s.system.db.transfers.any fun old => old.id = row.id

/-- What another call leaves. -/
def after (s : TransferSystem) (system : System) : Option TransferSystem :=
  if s.keepsRows system.db && (s.newTransfers system.db).all fun row =>
      !s.issued.any fun old => old.id = row.id then
    some { s with
      system := system
      issued := s.issued ++ s.newTransfers system.db }
  else none

end TransferSystem

inductive TransferAction
  | call (action : Action)
  | beginRequest (number : Nat) (call : TransferCall) (transferId : Uuid) (token : Bytes)
      (now : Timestamp)
  | lockTransfer (number : Nat)
  | commitRequest (number : Nat) (blobId : Uuid)
  | abortRequest (number : Nat)

/-- The calls that are steps of their own here. -/
def Action.isTransferRequest : Action → Bool
  | .downloadTransfer .. | .checkUpload .. | .storeUpload .. | .abortUpload _ => true
  | _ => false

/-- A statement that joins no row answers at once. -/
def beginRequest (s : TransferSystem) (number : Nat) (call : TransferCall) (transferId : Uuid)
    (token : Bytes) (now : Timestamp) : Option TransferSystem :=
  let request : TransferRequest := ⟨number, call, transferId, token, now, s.system.db, none⟩
  if s.requests.any fun other => other.number = number then none
  else if (request.rowRead s.system.db).isNone then some (s.answer request call.refused)
  else some { s with requests := request :: s.requests }

/-- The row, once no other request holds it, and the checks on it. -/
def lockTransfer (sha256 : Bytes → Bytes) (s : TransferSystem) (request : TransferRequest) :
    Option TransferSystem :=
  if request.write.isSome || s.requests.any fun other =>
      other.transferId = request.transferId && other.write.isSome then none
  else
    match request.check sha256 s.system.db with
    | .error outcome => some (s.answer request outcome)
    | .ok write =>
      some { s with
        requests := { request with write := some write } :: (s.dropRequest request.number).requests }

/-- The writes and the commit. -/
def commitRequest (s : TransferSystem) (request : TransferRequest) (blobId : Uuid) :
    Option TransferSystem := do
  let write ← request.write
  let written ← write.apply request.transferId blobId s.system.db
  let system ← s.system.committed written.2
  return { s.answer request written.1 with system := system }

def requestStep (externals : Externals) (config : ProcessingConfig) (s : TransferSystem) :
    TransferAction → Option TransferSystem
  | .call action =>
    if action.isTransferRequest then none
    else (step externals config s.system action).bind s.after
  | .beginRequest number call transferId token now => beginRequest s number call transferId token now
  | .lockTransfer number => (s.request? number).bind (lockTransfer externals.sha256 s)
  | .commitRequest number blobId =>
    (s.request? number).bind fun request => commitRequest s request blobId
  | .abortRequest number => some (s.dropRequest number)

abbrev RequestStep (externals : Externals) (config : ProcessingConfig) (s : TransferSystem)
    (action : TransferAction) (t : TransferSystem) : Prop :=
  requestStep externals config s action = some t

/-! ## Requests that run alone -/

/-- The blob that a transfer names is the one that its statement has joined. -/
theorem blobOf_joined (db : Database) (transfer : TransferRow) (attempt : AttemptRow) (job : JobRow) :
    JoinedRows.blobOf ⟨attempt, job, transfer.blobId.bind db.blob?⟩ transfer
      = transfer.blobId.bind db.blob? := by
  unfold JoinedRows.blobOf
  cases hblob : transfer.blobId.bind db.blob? with
  | none => rfl
  | some blob =>
    rcases Option.bind_eq_some_iff.mp hblob with ⟨id, hid, hfound⟩
    have hsame : blob.id = id := by simpa using List.find?_some hfound
    simp [hid, hsame]

/-- A statement that has its row at once reads what it has joined. -/
theorem rowRead_snapshot (request : TransferRequest) :
    request.rowRead request.snapshot
      = (liveTransfer request.snapshot request.transferId request.now).map fun transfer =>
        (transfer, transfer.blobId.bind request.snapshot.blob?) := by
  unfold TransferRequest.rowRead joinedRows liveTransfer
  cases htransfer : request.snapshot.transfers.find? fun transfer =>
      transfer.id = request.transferId with
  | none => rfl
  | some transfer =>
    cases hattempt : request.snapshot.attempts.find? fun attempt =>
        attempt.id = transfer.attemptId with
    | none => simp [hattempt]
    | some attempt =>
      cases hjob : request.snapshot.job? transfer.jobId with
      | none => simp [hattempt, hjob]
      | some job =>
        have hattemptId : attempt.id = transfer.attemptId := by
          simpa using List.find?_some hattempt
        have hjobId : job.id = transfer.jobId := (job?_some hjob).2
        have hmatches : JoinedRows.matches ⟨attempt, job, transfer.blobId.bind request.snapshot.blob?⟩
            transfer request.now = true ↔ attempt.state = .running
              ∧ request.now < attempt.leaseExpiresAt ∧ job.state = .running
              ∧ job.currentClaimId = some transfer.claimId := by
          simp [JoinedRows.matches, hattemptId, hjobId, and_assoc]
        simp only [Option.bind_eq_bind, Option.bind_some, hattempt, hjob, Option.pure_def,
          hmatches, blobOf_joined]
        split
        · rfl
        · rfl

theorem apply_store_alone (transferId blobId : Uuid) (db : Database) (upload : PendingUpload) :
    (TransferWrite.store upload).apply transferId blobId db
      = (storeUpload db blobId upload).1.map fun outcome =>
        (.upload outcome, (storeUpload db blobId upload).2) := by
  simp only [TransferWrite.apply]
  rcases storeUpload db blobId upload with ⟨_ | outcome, db'⟩
  · rfl
  · rfl

end Toss.Processing
