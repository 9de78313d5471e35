import Toss.Processing.Database

/-!
# The requester's side of a job

`persistence.rs`: the admission of a job, the input it is given, and its
cancellation by the user who asked for it.

* `reserveStatement` — the statements of `reserve_job` under the admission lock,
  each over the rows committed when it runs;
* `storePreparedInput`, `markPreparationFailed` — how preparation ends;
* `cancelJob`.
-/

namespace Toss.Processing

open Toss.Foundation

structure ReserveJob where
  id : Uuid
  operation : ProcessingOperation
  requesterUserId : Uuid
  projectId : Option Uuid
  idempotencyScope : Text
  idempotencyKey : Text
  commandDigest : Bytes
  normalizedOptions : NormalizedOptions
  optionsDigest : Bytes
  now : Timestamp
deriving DecidableEq, Repr

inductive ReserveJobOutcome
  | reserved
  | existing (job : JobRow)
deriving DecidableEq, Repr

inductive ReserveJobError
  | idempotencyConflict
  | globalLimit
  | requesterLimit
  | projectLimit
  | persistence
deriving DecidableEq, Repr

/-! ## Admission -/

/-- The columns of the unique constraint on jobs. -/
def JobRow.idempotency (job : JobRow) : Uuid × Text × Text :=
  (job.requesterUserId, job.idempotencyScope, job.idempotencyKey)

def ReserveJob.idempotency (command : ReserveJob) : Uuid × Text × Text :=
  (command.requesterUserId, command.idempotencyScope, command.idempotencyKey)

def findIdempotentJob (db : Database) (key : Uuid × Text × Text) : Option JobRow :=
  db.jobs.find? fun job => job.idempotency = key

/-- `select count(*) from processing_jobs` over the active jobs that meet `cond`. -/
def countActive (db : Database) (cond : JobRow → Bool) : Nat :=
  db.jobs.countP fun job => job.state.isActive && cond job

def globalActive (db : Database) : Nat :=
  countActive db fun _ => true

def requesterActive (db : Database) (requesterUserId : Uuid) : Nat :=
  countActive db fun job => job.requesterUserId = requesterUserId

def projectActive (db : Database) (projectId : Uuid) : Nat :=
  countActive db fun job => job.projectId = some projectId

/-- The row that `reserve_job` inserts. -/
def ReserveJob.row (command : ReserveJob) (config : ProcessingConfig) : JobRow where
  id := command.id
  operation := command.operation
  requesterUserId := command.requesterUserId
  projectId := command.projectId
  idempotencyScope := command.idempotencyScope
  idempotencyKey := command.idempotencyKey
  commandDigest := command.commandDigest
  inputSchema := none
  inputBlobId := none
  inputDigest := none
  normalizedOptions := command.normalizedOptions
  optionsDigest := command.optionsDigest
  state := .preparing
  phase := .capturingInput
  cancellationRequested := false
  attemptCount := 0
  maxAttempts := 3
  currentClaimId := none
  claimExpiresAt := none
  processorContract := none
  cacheHit := false
  cacheSourceJobId := none
  finalizationToken := none
  finalizationExpiresAt := none
  failureClass := none
  failureCode := none
  failureMessage := none
  resultProjectId := none
  nextAttemptAt := command.now
  createdAt := command.now
  completedAt := none
  queueExpiresAt := command.now + config.queueWait
  retainedUntil := command.now + config.retention

/-- The insert, with the primary key and the unique constraint on jobs. -/
def insertJob (db : Database) (row : JobRow) : Option Database :=
  if db.jobs.any fun job => job.id = row.id || job.idempotency = row.idempotency then none
  else some { db with jobs := db.jobs ++ [row] }

/-- The statement that a call of `reserve_job` carries out next; it holds the
admission lock at every one of them. -/
inductive ReserveStage
  | find
  | digest (existing : JobRow)
  | countGlobal
  | countRequester
  | countProject
  | insert
deriving DecidableEq, Repr

/-- What a statement of `reserve_job` leaves to do: another statement, or the
end of the transaction with the answer of the call. -/
inductive ReserveProgress
  | next (stage : ReserveStage)
  | answered (reply : Except ReserveJobError ReserveJobOutcome) (db : Database)

/-- One statement of `reserve_job` on the rows committed by then. -/
def reserveStatement (config : ProcessingConfig) (db : Database) (command : ReserveJob) :
    ReserveStage → ReserveProgress
  | .find =>
    match findIdempotentJob db command.idempotency with
    | some existing => .next (.digest existing)
    | none => .next .countGlobal
  | .digest existing =>
    match db.job? existing.id with
    | none => .answered (.error .persistence) db
    | some row =>
      if row.commandDigest ≠ command.commandDigest then
        .answered (.error .idempotencyConflict) db
      else .answered (.ok (.existing existing)) db
  | .countGlobal =>
    if config.maxQueuedJobs ≤ globalActive db then .answered (.error .globalLimit) db
    else .next .countRequester
  | .countRequester =>
    if config.maxActiveJobsPerUser ≤ requesterActive db command.requesterUserId then
      .answered (.error .requesterLimit) db
    else .next .countProject
  | .countProject =>
    match command.projectId with
    | none => .next .insert
    | some projectId =>
      if config.maxActiveJobsPerProject ≤ projectActive db projectId then
        .answered (.error .projectLimit) db
      else .next .insert
  | .insert =>
    match insertJob db (command.row config) with
    | none => .answered (.error .persistence) db
    | some db' => .answered (.ok .reserved) db'

/-! ## Preparation -/

/-- `pin_project_assets`: the objects of a captured project, those kept inline
apart; a pin needs its job. -/
def pinProjectAssets (db : Database) (jobId : Uuid) (objectKeys : List Text) : Option Database :=
  let pins := (objectKeys.filter fun key => !("inline://".toList.isPrefixOf key)).map (PinRow.mk jobId)
  if pins = [] then some db
  else if (db.job? jobId).isSome then
    some { db with pins := db.pins ++ (pins.dedup.filter fun pin => !db.pins.contains pin) }
  else none

structure PreparedInput where
  schema : Text
  mediaType : Text
  bytes : Bytes
  digest : Bytes
  normalizedOptions : NormalizedOptions
  optionsDigest : Bytes
deriving DecidableEq, Repr

/-- The job with the input it will be processed from. -/
def JobRow.prepared (job : JobRow) (input : PreparedInput) (blobId : Uuid) : JobRow :=
  { job with
    inputSchema := some input.schema
    inputBlobId := some blobId
    inputDigest := some input.digest
    normalizedOptions := input.normalizedOptions
    optionsDigest := input.optionsDigest
    state := .queued
    phase := .waitingForWorker }

/-- `store_prepared_input`; a job that is no longer being prepared rolls the
transaction back, its blob included. -/
def storePreparedInput (db : Database) (jobId blobId : Uuid) (input : PreparedInput) :
    Option JobRow × Database :=
  match storeBlob db blobId input.digest input.mediaType input.bytes with
  | none => (none, db)
  | some (stored, blobId) =>
    match db.job? jobId with
    | none => (none, db)
    | some job =>
      if job.state = .preparing ∧ job.cancellationRequested = false then
        (some (job.prepared input blobId),
          (stored.updateJobs (fun row => row.id = jobId)
            fun row => row.prepared input blobId).deletePins jobId)
      else (none, db)

/-- A job that ended without a result. -/
def JobRow.ended (job : JobRow) (state : ProcessingJobState) (now : Timestamp)
    (failure : Option (Text × Text × Text)) : JobRow :=
  { job with
    state := state
    phase := .complete
    failureClass := failure.map fun reason => reason.1
    failureCode := failure.map fun reason => reason.2.1
    failureMessage := failure.map fun reason => reason.2.2
    completedAt := some now }

/-- `mark_preparation_failed`. -/
def markPreparationFailed (db : Database) (jobId : Uuid) (code message : Text) (now : Timestamp) :
    Database :=
  (db.updateJobs (fun row => row.id = jobId && row.state = .preparing)
    fun row => row.ended .failed now (some ("internal".toList, code, message))).deletePins jobId

/-! ## Cancellation -/

/-- A job cancelled before a worker had it. -/
def JobRow.cancelledWaiting (job : JobRow) (now : Timestamp) : JobRow :=
  { job with
    state := .cancelled
    phase := .complete
    cancellationRequested := true
    completedAt := some now }

/-- A running job whose worker is to be told to stop. -/
def JobRow.cancelling (job : JobRow) : JobRow :=
  { job with cancellationRequested := true }

/-- `cancel_job`: a job that is waiting is cancelled, a running one is flagged,
and one that is being finalized or has ended is left alone. -/
def cancelJob (db : Database) (userId jobId : Uuid) (now : Timestamp) :
    Option JobRow × Database :=
  match db.jobs.find? fun job => job.id = jobId && job.requesterUserId = userId with
  | none => (none, db)
  | some job =>
    match job.state with
    | .preparing | .queued =>
      (some (job.cancelledWaiting now),
        (db.updateJobs (fun row => row.id = jobId)
          fun row => row.cancelledWaiting now).deletePins jobId)
    | .running =>
      (some job.cancelling, db.updateJobs (fun row => row.id = jobId) JobRow.cancelling)
    | .finalizing | .succeeded | .failed | .cancelled | .expired => (some job, db)

end Toss.Processing
