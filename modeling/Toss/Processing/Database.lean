import Toss.Foundation.Table
import Toss.Processing.Model

/-!
# The tables of document processing

The rows of `processing_jobs`, `processing_attempts`, `processing_transfers`,
`processing_blobs`, `processing_artifacts` and the worker tables, with the
columns that a statement reads or a caller is shown, and the rows of a project
that the publication of an imported workspace inserts.

* `Database` — the tables;
* `Database.attemptsOf`, `Database.claimOf` — the attempts of a job, and the one
  a worker presents a claim for;
* `storeBlob`, `issueTransfer` — the statements that several calls share.

`Uuid::new_v4()` is an argument of the statement that uses it; the primary keys
and the unique constraint on claims refuse one that is taken.
-/

namespace Toss.Processing

open Toss.Foundation

/-- What Core reads of the normalized options of a job. -/
structure NormalizedOptions where
  projectName : Option Text
deriving DecidableEq, Repr

/-- A row of `processing_jobs`. -/
structure JobRow where
  id : Uuid
  operation : ProcessingOperation
  requesterUserId : Uuid
  projectId : Option Uuid
  idempotencyScope : Text
  idempotencyKey : Text
  commandDigest : Bytes
  inputSchema : Option Text
  inputBlobId : Option Uuid
  inputDigest : Option Bytes
  normalizedOptions : NormalizedOptions
  optionsDigest : Bytes
  state : ProcessingJobState
  phase : ProcessingPhase
  cancellationRequested : Bool
  attemptCount : Nat
  maxAttempts : Nat
  currentClaimId : Option Uuid
  claimExpiresAt : Option Timestamp
  processorContract : Option Text
  cacheHit : Bool
  cacheSourceJobId : Option Uuid
  finalizationToken : Option Uuid
  finalizationExpiresAt : Option Timestamp
  failureClass : Option Text
  failureCode : Option Text
  failureMessage : Option Text
  resultProjectId : Option Uuid
  nextAttemptAt : Timestamp
  createdAt : Timestamp
  completedAt : Option Timestamp
  queueExpiresAt : Timestamp
  retainedUntil : Timestamp
deriving DecidableEq, Repr

inductive AttemptState
  | running
  | delivered
  | failed
  | released
  | lost
  | cancelled
deriving DecidableEq, Repr

/-- A row of `processing_attempts`. -/
structure AttemptRow where
  id : Uuid
  jobId : Uuid
  attemptNumber : Nat
  claimId : Uuid
  workerSessionId : Uuid
  processorContract : Text
  state : AttemptState
  phase : ProcessingPhase
  leaseExpiresAt : Timestamp
  limits : WorkerClaimLimits
  failureClass : Option Text
  failureCode : Option Text
  failureMessage : Option Text
deriving DecidableEq, Repr

inductive TransferDirection
  | download
  | upload
deriving DecidableEq, Repr

inductive TransferState
  | issued
  | uploaded
  | consumed
  | expired
deriving DecidableEq, Repr

/-- A row of `processing_transfers`. -/
structure TransferRow where
  id : Uuid
  tokenFingerprint : Bytes
  jobId : Uuid
  attemptId : Uuid
  claimId : Uuid
  direction : TransferDirection
  role : Text
  mediaType : Text
  filename : Option Text
  exactSizeBytes : Option Int
  maxSizeBytes : Int
  expectedSha256 : Option Bytes
  blobId : Option Uuid
  state : TransferState
  remainingUses : Nat
  expiresAt : Timestamp
deriving DecidableEq, Repr

/-- A row of `processing_blobs`; `(sha256, size_bytes)` is unique and the size
is checked against the content. -/
structure BlobRow where
  id : Uuid
  sha256 : Bytes
  mediaType : Text
  content : Bytes
deriving DecidableEq, Repr

/-- The column `size_bytes`, which a check constraint ties to the content. -/
def BlobRow.sizeBytes (blob : BlobRow) : Int :=
  blob.content.length

/-- A row of `processing_artifacts`; `(job_id, role)` is unique. -/
structure ArtifactRow where
  id : Uuid
  jobId : Uuid
  blobId : Uuid
  role : Text
  mediaType : Text
  filename : Text
  sizeBytes : Int
  sha256 : Bytes
deriving DecidableEq, Repr

/-- A row of `processing_input_asset_pins`. -/
structure PinRow where
  jobId : Uuid
  objectKey : Text
deriving DecidableEq, Repr

inductive SessionState
  | active
  | draining
  | expired
deriving DecidableEq, Repr

/-- A row of `processing_worker_sessions`. -/
structure SessionRow where
  id : Uuid
  workerIdentity : Text
  state : SessionState
  expiresAt : Timestamp
deriving DecidableEq, Repr

/-- A row of `processing_worker_processors`. -/
structure ProcessorRow where
  sessionId : Uuid
  operation : ProcessingOperation
  processorContract : Text
  slots : Int
  healthy : Bool
deriving DecidableEq, Repr

/-- A row of `projects`, with its settings. -/
structure ResultProjectRow where
  id : Uuid
  ownerUserId : Uuid
  name : Text
  entryFilePath : Text
deriving DecidableEq, Repr

/-- A row of `project_directories`. -/
structure ResultDirectoryRow where
  projectId : Uuid
  path : Text
deriving DecidableEq, Repr

/-- A row of `documents`. -/
structure ResultDocumentRow where
  projectId : Uuid
  path : Text
  content : Text
deriving DecidableEq, Repr

/-- A row of `project_assets`; its object key is made of its identifier. -/
structure ResultAssetRow where
  id : Uuid
  projectId : Uuid
  path : Text
  contentType : Text
  sizeBytes : Int
  inlineData : Option Bytes
deriving DecidableEq, Repr

structure Database where
  jobs : List JobRow := []
  attempts : List AttemptRow := []
  transfers : List TransferRow := []
  blobs : List BlobRow := []
  artifacts : List ArtifactRow := []
  pins : List PinRow := []
  sessions : List SessionRow := []
  processors : List ProcessorRow := []
  projects : List ResultProjectRow := []
  directories : List ResultDirectoryRow := []
  documents : List ResultDocumentRow := []
  assets : List ResultAssetRow := []
deriving DecidableEq, Repr

namespace Database

/-- `select … from processing_jobs where id = $1`. -/
def job? (db : Database) (id : Uuid) : Option JobRow :=
  db.jobs.find? fun job => job.id = id

def attemptsOf (db : Database) (jobId : Uuid) : List AttemptRow :=
  db.attempts.filter fun attempt => attempt.jobId = jobId

def blob? (db : Database) (id : Uuid) : Option BlobRow :=
  db.blobs.find? fun blob => blob.id = id

/-- `update processing_jobs set … where id = $1 and cond`. -/
def updateJobs (db : Database) (cond : JobRow → Bool) (set : JobRow → JobRow) : Database :=
  { db with jobs := updateWhere cond set db.jobs }

def updateAttempts (db : Database) (cond : AttemptRow → Bool) (set : AttemptRow → AttemptRow) :
    Database :=
  { db with attempts := updateWhere cond set db.attempts }

def updateTransfers (db : Database) (cond : TransferRow → Bool)
    (set : TransferRow → TransferRow) : Database :=
  { db with transfers := updateWhere cond set db.transfers }

/-- `delete from processing_input_asset_pins where job_id = $1`. -/
def deletePins (db : Database) (jobId : Uuid) : Database :=
  { db with pins := db.pins.filter fun pin => pin.jobId ≠ jobId }

/-- The attempt a worker call presents a claim for, joined with its job and with
the session the claim is presented under. -/
def claimOf (db : Database) (worker : AuthenticatedWorker) (sessionId claimId : Uuid) :
    Option (AttemptRow × JobRow) := do
  let attempt ← db.attempts.find? fun attempt =>
    attempt.claimId = claimId && attempt.workerSessionId = sessionId
  let job ← db.job? attempt.jobId
  let _session ← db.sessions.find? fun session =>
    session.id = attempt.workerSessionId && session.workerIdentity = worker.identity
  return (attempt, job)

end Database

/-- `store_blob`: the blob that has this digest and size, or a new one. The
check constraint on the digest's length is left to the digest itself. -/
def storeBlob (db : Database) (id : Uuid) (digest : Bytes) (mediaType : Text) (content : Bytes) :
    Option (Database × Uuid) :=
  match db.blobs.find? fun blob => blob.sha256 = digest && blob.content.length = content.length with
  | some blob => some (db, blob.id)
  | none =>
    if (db.blob? id).isSome then none
    else
      some ({ db with blobs := db.blobs ++ [⟨id, digest, mediaType, content⟩] }, id)

/-- `issue_transfer`. -/
def issueTransfer (db : Database) (transfer : TransferRow) : Option Database :=
  if db.transfers.any fun row => row.id = transfer.id then none
  else some { db with transfers := db.transfers ++ [transfer] }

end Toss.Processing
