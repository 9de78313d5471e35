import Toss.Processing.Jobs
import Toss.Processing.Worker

/-!
# Lifecycle maintenance

`maintain_lifecycle`: the tick that ends claims and queue entries whose time is
up, expires transfers, and deletes what nothing needs any more. Each statement
is a function of its own; `maintainLifecycle` is their sequence.
-/

namespace Toss.Processing

open Toss.Foundation

def maintenanceBatch : Nat := 16

/-! ## Sessions -/

/-- The first two statements: sessions past their lease, and drained ones that
run nothing. -/
def expireSessions (db : Database) (now : Timestamp) : Database :=
  let overdue := updateWhere
    (fun session => session.state = .active && decide (session.expiresAt ≤ now))
    (fun session => { session with state := .expired }) db.sessions
  { db with
    sessions := updateWhere
      (fun session => session.state = .draining
        && !db.attempts.any fun attempt =>
          attempt.workerSessionId = session.id && attempt.state = .running)
      (fun session => { session with state := .expired }) overdue }

/-! ## Claims and queue entries -/

/-- A running job whose claim has expired. -/
def JobRow.claimOverdue (now : Timestamp) (job : JobRow) : Bool :=
  job.state = .running && job.claimExpiresAt.any fun expiry => decide (expiry ≤ now)

/-- The overdue jobs of a tick: those that expired first, a batch of them,
without the rows that other transactions hold. -/
def overdueJobs (db : Database) (locked : List Uuid) (now : Timestamp) : List JobRow :=
  ((orderBy (fun job => job.claimExpiresAt.getD 0) (db.jobs.filter (JobRow.claimOverdue now))).filter
    fun job => !locked.contains job.id).take maintenanceBatch

def claimExpired : Text × Text × Text :=
  ("worker_interrupted".toList, "claim_expired".toList,
    "Worker claim expired before a closed outcome".toList)

def queueExpiredRunning : Text × Text × Text :=
  ("worker_interrupted".toList, "queue_expired".toList,
    "Processing capacity was unavailable before queue expiry".toList)

def attemptsExhausted : Text × Text × Text :=
  ("worker_interrupted".toList, "attempts_exhausted".toList,
    "Processing worker attempts were exhausted".toList)

def queueExpired : Text × Text × Text :=
  ("capacity".toList, "queue_expired".toList,
    "Processing capacity was unavailable before queue expiry".toList)

/-- The state and the failure of a job whose claim has expired. -/
def expiredClaimState (job : JobRow) (now : Timestamp) :
    ProcessingJobState × Option (Text × Text × Text) :=
  if job.cancellationRequested then (.cancelled, none)
  else if job.attemptCount < job.maxAttempts ∧ now < job.queueExpiresAt then (.queued, none)
  else if job.queueExpiresAt ≤ now then (.expired, some queueExpiredRunning)
  else (.failed, some attemptsExhausted)

/-- The statements for one overdue job: its attempt is lost, the transfers of
its claim expire, and the job is queued again or ends. -/
def expireClaim (now : Timestamp) (db : Database) (job : JobRow) : Database :=
  let lost : Database :=
    match job.currentClaimId with
    | none => db
    | some claimId =>
      let closed := db.updateAttempts
        (fun row => row.claimId = claimId && row.state = .running)
        fun row => row.closed .lost (some claimExpired)
      closed.updateTransfers
        (fun row => row.claimId = claimId && (row.state = .issued || row.state = .uploaded))
        TransferRow.expire
  let next := expiredClaimState job now
  lost.updateJobs (fun row => row.id = job.id) fun row =>
    row.unclaimed next.1 now (now + processingRetryDelay job.attemptCount) next.2

/-- Jobs no worker took in time. -/
def expireQueue (db : Database) (now : Timestamp) : Database :=
  db.updateJobs
    (fun row => (row.state = .preparing || row.state = .queued)
      && decide (row.queueExpiresAt ≤ now))
    fun row => row.ended .expired now (some queueExpired)

/-! ## What is deleted -/

/-- The pins of jobs that ended without a result. -/
def releaseEndedPins (db : Database) : Database :=
  { db with
    pins := db.pins.filter fun pin =>
      !db.jobs.any fun job => job.id = pin.jobId
        && (job.state = .failed || job.state = .cancelled || job.state = .expired) }

/-- A transfer whose time is up. The statement looks at no job. -/
def TransferRow.isOverdue (now : Timestamp) (transfer : TransferRow) : Bool :=
  (transfer.state = .issued || transfer.state = .uploaded) && decide (transfer.expiresAt ≤ now)

def expireTransfers (db : Database) (now : Timestamp) : Database :=
  db.updateTransfers (TransferRow.isOverdue now) TransferRow.expire

/-- The delete of jobs with what references them: attempts, transfers, artifacts
and pins go with their job, and a job that took a result over loses its source. -/
def deleteJobs (db : Database) (gone : JobRow → Bool) : Database :=
  let isGone (id : Uuid) : Bool := db.jobs.any fun job => job.id = id && gone job
  { db with
    jobs := updateWhere (fun job => job.cacheSourceJobId.any isGone)
      (fun job => { job with cacheSourceJobId := none }) (db.jobs.filter fun job => !gone job)
    attempts := db.attempts.filter fun attempt => !isGone attempt.jobId
    transfers := db.transfers.filter fun transfer => !isGone transfer.jobId
    artifacts := db.artifacts.filter fun artifact => !isGone artifact.jobId
    pins := db.pins.filter fun pin => !isGone pin.jobId }

/-- A job past its retention that no other job took its result from. -/
def JobRow.isForgotten (db : Database) (now : Timestamp) (job : JobRow) : Bool :=
  decide (job.retainedUntil ≤ now) && job.completedAt.isSome
    && !db.jobs.any fun dependent => dependent.cacheSourceJobId = some job.id

/-- The blobs that no job, transfer or artifact names are deleted. -/
def deleteUnusedBlobs (db : Database) : Database :=
  { db with
    blobs := db.blobs.filter fun blob =>
      (db.jobs.any fun job => job.inputBlobId = some blob.id)
        || (db.transfers.any fun transfer => transfer.blobId = some blob.id)
        || db.artifacts.any fun artifact => artifact.blobId = blob.id }

/-- `maintain_lifecycle`. -/
def maintainLifecycle (locked : List Uuid) (db : Database) (now : Timestamp) : Database :=
  let db := expireSessions db now
  let db := (overdueJobs db locked now).foldl (expireClaim now) db
  let db := expireQueue db now
  let db := releaseEndedPins db
  let db := expireTransfers db now
  let db := deleteJobs db (JobRow.isForgotten db now)
  deleteUnusedBlobs db

end Toss.Processing
