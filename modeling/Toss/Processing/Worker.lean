import Toss.Processing.Database

/-!
# The worker's side of a job

`worker_persistence.rs`: claims on queued jobs, the transfers a claim is given,
and the calls that end a claim.

* `tryClaim`, `heartbeatClaim` — a lease on an attempt, and its renewal;
* `createArtifactTransfer`, `downloadTransfer`, `checkUpload`, `storeUpload` —
  the transfers of an attempt;
* `completeClaim`, `mutateFailedClaim` — the delivery of a result, and a failure
  or release.

Each is one transaction that locks the attempt and its job, an upload apart: it
locks its transfer only, so its check and its writes are two steps.
-/

namespace Toss.Processing

open Toss.Foundation

inductive ClaimError
  | sessionUnavailable
  | lost
  | invalid
  | persistence
deriving DecidableEq, Repr

/-! ## Claims -/

structure ProcessorCapacityOffer where
  operation : ProcessingOperation
  processorContract : Text
  slots : Int
deriving DecidableEq, Repr

structure WorkerClaimInput where
  schema : Text
  sizeBytes : Int
  sha256 : Bytes
  downloadTransferId : Uuid
  downloadToken : Bytes
deriving DecidableEq, Repr

structure WorkerClaim where
  jobId : Uuid
  attempt : Nat
  claimId : Uuid
  leaseExpiresAt : Timestamp
  operation : ProcessingOperation
  processorContract : Text
  options : NormalizedOptions
  input : WorkerClaimInput
  limits : WorkerClaimLimits
deriving DecidableEq, Repr

/-- What `try_claim` draws at random: identifiers and a transfer token. -/
structure ClaimDraw where
  attemptId : Uuid
  claimId : Uuid
  transferId : Uuid
  token : Bytes
deriving DecidableEq, Repr

def inputTransferReads : Nat := 3

/-- The jobs an offer may be answered with. -/
def JobRow.isCandidate (operation : ProcessingOperation) (now : Timestamp) (job : JobRow) : Bool :=
  job.operation = operation && job.state = .queued && !job.cancellationRequested
    && decide (now < job.queueExpiresAt) && decide (job.nextAttemptAt ≤ now)

/-- The oldest candidate whose row no other transaction holds, with its input. -/
def claimCandidate (db : Database) (locked : List Uuid) (operation : ProcessingOperation)
    (now : Timestamp) : Option (JobRow × BlobRow) :=
  (orderBy JobRow.createdAt (db.jobs.filter (JobRow.isCandidate operation now))).findSome?
    fun job =>
      if locked.contains job.id then none
      else (job.inputBlobId.bind db.blob?).map fun blob => (job, blob)

/-- An earlier job whose result a candidate may take over. -/
def JobRow.isCacheSourceFor (db : Database) (job : JobRow) (processorContract : Text)
    (now : Timestamp) (prior : JobRow) : Bool :=
  prior.id ≠ job.id && prior.state = .succeeded && prior.operation = job.operation
    && job.inputDigest.isSome && prior.inputDigest = job.inputDigest
    && prior.processorContract = some processorContract
    && prior.optionsDigest = job.optionsDigest && decide (now < prior.retainedUntil)
    && (match job.projectId with
        | some projectId => prior.projectId = some projectId
        | none => prior.projectId = none && prior.requesterUserId = job.requesterUserId)
    && db.artifacts.any fun artifact => artifact.jobId = prior.id

/-- The cache source that completed last. A succeeded job has a completion time. -/
def cacheSource (db : Database) (job : JobRow) (processorContract : Text) (now : Timestamp) :
    Option JobRow :=
  (orderBy (fun prior => -(prior.completedAt.getD 0))
    (db.jobs.filter (JobRow.isCacheSourceFor db job processorContract now))).head?

/-- The running attempts that hold a slot of a processor. -/
def activeClaims (db : Database) (sessionId : Uuid) (processor : ProcessorRow) (now : Timestamp) :
    Nat :=
  db.attempts.countP fun attempt =>
    attempt.workerSessionId = sessionId && attempt.processorContract = processor.processorContract
      && attempt.state = .running && decide (now < attempt.leaseExpiresAt)
      && db.jobs.any fun job => job.id = attempt.jobId && job.operation = processor.operation

/-- A queued job that takes over the result of an earlier one. -/
def JobRow.cacheHitOf (job : JobRow) (processorContract : Text) (source : Uuid) : JobRow :=
  { job with
    state := .finalizing
    phase := .validatingResult
    processorContract := some processorContract
    cacheHit := true
    cacheSourceJobId := some source }

/-- `attempt_count.saturating_add(1)`. -/
def JobRow.nextAttempt (job : JobRow) : Nat :=
  min (job.attemptCount + 1) i32Max

/-- A job handed to a worker. -/
def JobRow.claimed (job : JobRow) (attemptNumber : Nat) (claimId : Uuid)
    (leaseExpiresAt : Timestamp) (processorContract : Text) : JobRow :=
  { job with
    state := .running
    phase := .processing
    attemptCount := attemptNumber
    currentClaimId := some claimId
    claimExpiresAt := some leaseExpiresAt
    processorContract := some processorContract }

/-- The attempt that a claim opens. -/
def JobRow.openedAttempt (job : JobRow) (config : ProcessingConfig) (draw : ClaimDraw)
    (sessionId : Uuid) (processorContract : Text) (now : Timestamp) : AttemptRow where
  id := draw.attemptId
  jobId := job.id
  attemptNumber := job.nextAttempt
  claimId := draw.claimId
  workerSessionId := sessionId
  processorContract := processorContract
  state := .running
  phase := .processing
  leaseExpiresAt := now + config.claimLease
  limits := config.claimLimits
  failureClass := none
  failureCode := none
  failureMessage := none

/-- The transfer a worker reads the input of its claim through. -/
def inputTransfer (config : ProcessingConfig) (sha256 : Bytes → Bytes) (draw : ClaimDraw)
    (job : JobRow) (blob : BlobRow) (now : Timestamp) : TransferRow where
  id := draw.transferId
  tokenFingerprint := sha256 draw.token
  jobId := job.id
  attemptId := draw.attemptId
  claimId := draw.claimId
  direction := .download
  role := "input".toList
  mediaType := job.operation.contract.inputMediaType
  filename := none
  exactSizeBytes := some blob.sizeBytes
  maxSizeBytes := blob.sizeBytes
  expectedSha256 := some blob.sha256
  blobId := some blob.id
  state := .issued
  remainingUses := inputTransferReads
  expiresAt := now + config.transferTtl

/-- The insert of an attempt, with its primary key, the unique claim and the
unique number within the job. -/
def insertAttempt (db : Database) (attempt : AttemptRow) : Option Database :=
  if db.attempts.any fun row =>
      row.id = attempt.id || row.claimId = attempt.claimId
        || (row.jobId = attempt.jobId && row.attemptNumber = attempt.attemptNumber) then none
  else some { db with attempts := db.attempts ++ [attempt] }

/-- The claim of a candidate without a cache source: the attempt, the job and
the transfer of the input. -/
def openClaim (config : ProcessingConfig) (sha256 : Bytes → Bytes) (draw : ClaimDraw)
    (db : Database) (sessionId : Uuid) (processorContract : Text) (now : Timestamp)
    (job : JobRow) (blob : BlobRow) : Option Database := do
  let db ← insertAttempt db (job.openedAttempt config draw sessionId processorContract now)
  let db := db.updateJobs (fun row => row.id = job.id) fun row =>
    row.claimed job.nextAttempt draw.claimId (now + config.claimLease) processorContract
  issueTransfer db (inputTransfer config sha256 draw job blob now)

/-- The claim as it is answered to the worker. -/
def workerClaim (config : ProcessingConfig) (draw : ClaimDraw) (processorContract : Text)
    (now : Timestamp) (job : JobRow) (blob : BlobRow) (schema : Text) : WorkerClaim where
  jobId := job.id
  attempt := job.nextAttempt
  claimId := draw.claimId
  leaseExpiresAt := now + config.claimLease
  operation := job.operation
  processorContract := processorContract
  options := job.normalizedOptions
  input :=
    { schema := schema
      sizeBytes := blob.sizeBytes
      sha256 := blob.sha256
      downloadTransferId := draw.transferId
      downloadToken := draw.token }
  limits := config.claimLimits

/-- A candidate under an offer: a cached result ends the call without a claim. -/
def claimJob (config : ProcessingConfig) (sha256 : Bytes → Bytes) (draw : ClaimDraw)
    (db : Database) (sessionId : Uuid) (processorContract : Text) (now : Timestamp)
    (job : JobRow) (blob : BlobRow) : Except ClaimError (Option WorkerClaim) × Database :=
  match cacheSource db job processorContract now with
  | some source =>
    (.ok none, db.updateJobs (fun row => row.id = job.id && row.state = .queued) fun row =>
      row.cacheHitOf processorContract source.id)
  | none =>
    match job.inputSchema, openClaim config sha256 draw db sessionId processorContract now job blob
    with
    | some schema, some db' =>
      (.ok (some (workerClaim config draw processorContract now job blob schema)), db')
    | _, _ => (.error .persistence, db)

/-- The offers of a call in turn: the first that has room and a candidate is
answered, and an offer the session does not back refuses the call. -/
def claimOffers (config : ProcessingConfig) (sha256 : Bytes → Bytes) (worker : AuthenticatedWorker)
    (draw : ClaimDraw) (locked : List Uuid) (db : Database) (sessionId : Uuid) (now : Timestamp) :
    List ProcessorCapacityOffer → Except ClaimError (Option WorkerClaim) × Database
  | [] => (.ok none, db)
  | offer :: offers =>
    if worker.approves offer.operation offer.processorContract = false then (.error .invalid, db)
    else
      match db.processors.find? fun processor =>
        processor.sessionId = sessionId && processor.operation = offer.operation
          && processor.processorContract = offer.processorContract with
      | none => (.error .invalid, db)
      | some processor =>
        if offer.slots ≤ 0 ∨ processor.slots < offer.slots then (.error .invalid, db)
        else if processor.healthy = false
            ∨ processor.slots ≤ activeClaims db sessionId processor now then
          claimOffers config sha256 worker draw locked db sessionId now offers
        else
          match claimCandidate db locked processor.operation now with
          | none => claimOffers config sha256 worker draw locked db sessionId now offers
          | some (job, blob) =>
            claimJob config sha256 draw db sessionId processor.processorContract now job blob

/-- `try_claim`. `locked` are the jobs whose rows other transactions hold. -/
def tryClaim (config : ProcessingConfig) (sha256 : Bytes → Bytes) (worker : AuthenticatedWorker)
    (draw : ClaimDraw) (locked : List Uuid) (db : Database) (sessionId : Uuid)
    (offers : List ProcessorCapacityOffer) (now : Timestamp) :
    Except ClaimError (Option WorkerClaim) × Database :=
  match db.sessions.find? fun session =>
    session.id = sessionId && session.workerIdentity = worker.identity with
  | none => (.error .sessionUnavailable, db)
  | some session =>
    if session.state ≠ .active ∨ session.expiresAt ≤ now then (.error .sessionUnavailable, db)
    else claimOffers config sha256 worker draw locked db sessionId now offers

/-! ## Heartbeats -/

inductive ClaimHeartbeatState
  | active
  | cancellationRequested
  | claimLost
  | jobTerminal
deriving DecidableEq, Repr

structure ClaimHeartbeatResponse where
  state : ClaimHeartbeatState
  serverTime : Timestamp
  leaseExpiresAt : Option Timestamp
  cancellationDeadline : Option Timestamp
deriving DecidableEq, Repr

/-- A heartbeat answered without a lease. -/
def ClaimHeartbeatResponse.refused (state : ClaimHeartbeatState) (now : Timestamp) :
    ClaimHeartbeatResponse :=
  ⟨state, now, none, none⟩

/-- The lease that a heartbeat leaves: under a cancellation what is left of it,
ten seconds at most. -/
def renewedLease (config : ProcessingConfig) (job : JobRow) (attempt : AttemptRow)
    (now : Timestamp) : Timestamp :=
  if job.cancellationRequested then min attempt.leaseExpiresAt (now + seconds 10)
  else now + config.claimLease

def heartbeatResponse (config : ProcessingConfig) (job : JobRow) (attempt : AttemptRow)
    (now : Timestamp) : ClaimHeartbeatResponse :=
  let lease := renewedLease config job attempt now
  if job.cancellationRequested then ⟨.cancellationRequested, now, some lease, some lease⟩
  else ⟨.active, now, some lease, none⟩

def JobRow.renewed (job : JobRow) (phase : ProcessingPhase) (lease : Timestamp) : JobRow :=
  { job with
    phase := phase
    claimExpiresAt := some lease }

def AttemptRow.renewed (attempt : AttemptRow) (phase : ProcessingPhase) (lease : Timestamp) :
    AttemptRow :=
  { attempt with
    phase := phase
    leaseExpiresAt := lease }

/-- An attempt whose claim is the unexpired one its job is running under. -/
def holdsClaim (job : JobRow) (attempt : AttemptRow) (claimId : Uuid) (now : Timestamp) : Bool :=
  attempt.state = .running && job.currentClaimId = some claimId
    && decide (now < attempt.leaseExpiresAt) && job.state = .running

/-- `heartbeat_claim`. -/
def heartbeatClaim (config : ProcessingConfig) (worker : AuthenticatedWorker) (db : Database)
    (sessionId claimId : Uuid) (phase : ProcessingPhase) (now : Timestamp) :
    Except ClaimError ClaimHeartbeatResponse × Database :=
  if phase ≠ .processing ∧ phase ≠ .uploadingResult then (.error .invalid, db)
  else
    match db.claimOf worker sessionId claimId with
    | none => (.ok (.refused .claimLost now), db)
    | some (attempt, job) =>
      if job.state.isTerminal then (.ok (.refused .jobTerminal now), db)
      else if holdsClaim job attempt claimId now = false then (.ok (.refused .claimLost now), db)
      else
        let lease := renewedLease config job attempt now
        (.ok (heartbeatResponse config job attempt now),
          (db.updateAttempts (fun row => row.id = attempt.id)
            fun row => row.renewed phase lease).updateJobs (fun row => row.id = job.id)
              fun row => row.renewed phase lease)

/-! ## Transfers -/

structure ArtifactTransferRequest where
  sessionId : Uuid
  claimId : Uuid
  role : Text
  mediaType : Text
  filename : Text
  sizeBytes : Int
  expectedSha256 : Bytes
deriving DecidableEq, Repr

structure IssuedTransfer where
  id : Uuid
  token : Bytes
  expiresAt : Timestamp
deriving DecidableEq, Repr

/-- `filename.len()`: the bytes of its UTF-8 encoding. -/
def utf8Len (text : Text) : Nat :=
  (text.map Char.utf8Size).sum

/-- A character `u8::is_ascii_control` holds of. -/
def isAsciiControl (c : Char) : Bool :=
  c.toNat < 32 || c.toNat = 127

/-- The declaration of an artifact is one its operation has a place for. -/
def ArtifactTransferRequest.isValid (request : ArtifactTransferRequest) (config : ProcessingConfig)
    (operation : ProcessingOperation) : Bool :=
  (match operation.contract.artifact request.role with
    | none => false
    | some artifact =>
      request.mediaType = artifact.mediaType && artifact.filenameSuffix.isSuffixOf request.filename
        && decide (0 < request.sizeBytes)
        && decide (request.sizeBytes ≤ config.artifactLimit artifact.sizeClass))
    && !request.filename.isEmpty && decide (utf8Len request.filename ≤ 160)
    && !request.filename.any fun c => c = '/' || c = '\\' || isAsciiControl c

/-- The transfer an artifact is uploaded through. -/
def artifactTransfer (config : ProcessingConfig) (sha256 : Bytes → Bytes) (id : Uuid)
    (token : Bytes) (request : ArtifactTransferRequest) (attempt : AttemptRow) (now : Timestamp) :
    TransferRow where
  id := id
  tokenFingerprint := sha256 token
  jobId := attempt.jobId
  attemptId := attempt.id
  claimId := request.claimId
  direction := .upload
  role := request.role
  mediaType := request.mediaType
  filename := some request.filename
  exactSizeBytes := some request.sizeBytes
  maxSizeBytes := request.sizeBytes
  expectedSha256 := some request.expectedSha256
  blobId := none
  state := .issued
  remainingUses := 1
  expiresAt := now + config.transferTtl

def TransferRow.expire (transfer : TransferRow) : TransferRow :=
  { transfer with state := .expired }

/-- The upload transfers of an attempt for a role. -/
def TransferRow.isUploadOf (attemptId : Uuid) (role : Text) (transfer : TransferRow) : Bool :=
  transfer.attemptId = attemptId && transfer.direction = .upload && transfer.role = role

/-- The stale transfers that a new one for their role replaces. -/
def TransferRow.isStaleUploadOf (attemptId : Uuid) (role : Text) (now : Timestamp)
    (transfer : TransferRow) : Bool :=
  transfer.isUploadOf attemptId role && transfer.state = .issued
    && decide (transfer.expiresAt ≤ now)

/-- `create_artifact_transfer`; a refusal rolls the expiry of stale transfers
back too. -/
def createArtifactTransfer (config : ProcessingConfig) (sha256 : Bytes → Bytes)
    (worker : AuthenticatedWorker) (id : Uuid) (token : Bytes) (db : Database)
    (request : ArtifactTransferRequest) (now : Timestamp) :
    Except ClaimError IssuedTransfer × Database :=
  match db.claimOf worker request.sessionId request.claimId with
  | none => (.error .lost, db)
  | some (attempt, job) =>
    if holdsClaim job attempt request.claimId now = false ∨ job.cancellationRequested = true then
      (.error .lost, db)
    else if request.isValid config job.operation = false then (.error .invalid, db)
    else
      let cleared := db.updateTransfers (TransferRow.isStaleUploadOf attempt.id request.role now)
        TransferRow.expire
      if cleared.transfers.any fun transfer =>
          transfer.isUploadOf attempt.id request.role && transfer.state ≠ .expired then
        (.error .invalid, db)
      else
        match issueTransfer cleared
          (artifactTransfer config sha256 id token request attempt now) with
        | none => (.error .persistence, db)
        | some db' => (.ok ⟨id, token, now + config.transferTtl⟩, db')

/-- A transfer whose attempt is running under an unexpired lease. -/
def liveTransfer (db : Database) (transferId : Uuid) (now : Timestamp) : Option TransferRow := do
  let transfer ← db.transfers.find? fun transfer => transfer.id = transferId
  let attempt ← db.attempts.find? fun attempt => attempt.id = transfer.attemptId
  let job ← db.job? transfer.jobId
  if attempt.state = .running ∧ now < attempt.leaseExpiresAt ∧ job.state = .running
      ∧ job.currentClaimId = some transfer.claimId then some transfer else none

inductive TransferDownloadOutcome
  | content (content : Bytes) (mediaType : Text) (sha256 : Option Bytes)
  | rejected
deriving DecidableEq, Repr

def TransferRow.read (transfer : TransferRow) : TransferRow :=
  { transfer with
    remainingUses := transfer.remainingUses - 1
    state := if transfer.remainingUses - 1 = 0 then .consumed else transfer.state }

/-- `download_transfer`. -/
def downloadTransfer (sha256 : Bytes → Bytes) (db : Database) (transferId : Uuid) (token : Bytes)
    (now : Timestamp) : TransferDownloadOutcome × Database :=
  match liveTransfer db transferId now with
  | none => (.rejected, db)
  | some transfer =>
    match transfer.blobId.bind db.blob? with
    | none => (.rejected, db)
    | some blob =>
      if transfer.tokenFingerprint ≠ sha256 token ∨ transfer.state ≠ .issued
          ∨ transfer.direction ≠ .download ∨ transfer.remainingUses = 0
          ∨ transfer.expiresAt ≤ now then (.rejected, db)
      else
        (.content blob.content transfer.mediaType transfer.expectedSha256,
          db.updateTransfers (fun row => row.id = transferId) TransferRow.read)

inductive TransferUploadOutcome
  | stored (sizeBytes : Int) (sha256 : Bytes)
  | rejected
  | tooLarge
  | digestMismatch
deriving DecidableEq, Repr

/-- An upload that passed its check: its transaction holds the transfer's row
and has the content still to store. -/
structure PendingUpload where
  transferId : Uuid
  mediaType : Text
  content : Bytes
  digest : Bytes
deriving DecidableEq, Repr

/-- The check of `upload_transfer`: the answer of an upload that stores nothing,
or what is left to store. -/
def checkUpload (sha256 : Bytes → Bytes) (db : Database) (transferId : Uuid) (token content : Bytes)
    (now : Timestamp) : Except TransferUploadOutcome PendingUpload :=
  let digest := sha256 content
  let sizeBytes : Int := content.length
  match liveTransfer db transferId now with
  | none => .error .rejected
  | some transfer =>
    if transfer.tokenFingerprint ≠ sha256 token
        ∨ (transfer.state ≠ .issued ∧ transfer.state ≠ .uploaded)
        ∨ transfer.direction ≠ .upload ∨ transfer.expiresAt ≤ now then .error .rejected
    else if transfer.maxSizeBytes < sizeBytes
        ∨ (∃ exact ∈ transfer.exactSizeBytes, exact ≠ sizeBytes) then .error .tooLarge
    else if ∃ expected ∈ transfer.expectedSha256, expected ≠ digest then .error .digestMismatch
    else if transfer.state = .uploaded then
      match transfer.blobId.bind db.blob? with
      | none => .error .rejected
      | some blob =>
        if blob.sizeBytes = sizeBytes ∧ blob.sha256 = digest then .error (.stored sizeBytes digest)
        else .error .rejected
    else .ok ⟨transferId, transfer.mediaType, content, digest⟩

def TransferRow.stored (transfer : TransferRow) (blobId : Uuid) : TransferRow :=
  { transfer with
    blobId := some blobId
    state := .uploaded
    remainingUses := 0 }

/-- The rest of `upload_transfer`: the blob and the transfer that names it. -/
def storeUpload (db : Database) (blobId : Uuid) (upload : PendingUpload) :
    Option TransferUploadOutcome × Database :=
  match storeBlob db blobId upload.digest upload.mediaType upload.content with
  | none => (none, db)
  | some (stored, blobId) =>
    (some (.stored upload.content.length upload.digest),
      stored.updateTransfers (fun row => row.id = upload.transferId) fun row => row.stored blobId)

/-! ## The end of a claim -/

structure CompletedArtifactInput where
  transferId : Uuid
  role : Text
  sizeBytes : Int
  sha256 : Text
deriving DecidableEq, Repr

inductive CompleteClaimOutcome
  | accepted (jobId : Uuid)
  | lost
  | cancelled
  | invalid
deriving DecidableEq, Repr

/-- The transfer that an entry of a completion names. -/
def CompletedArtifactInput.isDeliveredBy (artifact : CompletedArtifactInput) (attempt : AttemptRow)
    (claimId : Uuid) (digest : Bytes) (transfer : TransferRow) : Bool :=
  transfer.id = artifact.transferId && transfer.attemptId = attempt.id
    && transfer.claimId = claimId && transfer.direction = .upload
    && (transfer.state = .uploaded || transfer.state = .consumed)
    && transfer.role = artifact.role && transfer.exactSizeBytes = some artifact.sizeBytes
    && transfer.expectedSha256 = some digest && transfer.blobId.isSome

/-- The entries of a completion, each against its transfer; `roles` are those of
the entries before. -/
def checkArtifacts (db : Database) (contract : OperationContract) (attempt : AttemptRow)
    (claimId : Uuid) : List Text → List CompletedArtifactInput → Bool
  | roles, [] => contract.artifacts.all fun artifact =>
      !artifact.required || roles.contains artifact.role
  | roles, artifact :: artifacts =>
    !roles.contains artifact.role && (contract.artifact artifact.role).isSome
      && (match hexDecode artifact.sha256 with
          | none => false
          | some digest =>
            decide (digest.length = 32)
              && db.transfers.any (artifact.isDeliveredBy attempt claimId digest))
      && checkArtifacts db contract attempt claimId (artifact.role :: roles) artifacts

def AttemptRow.delivered (attempt : AttemptRow) : AttemptRow :=
  { attempt with
    state := .delivered
    phase := .complete }

/-- A job whose result has been delivered. -/
def JobRow.delivered (job : JobRow) : JobRow :=
  { job with
    state := .finalizing
    phase := .validatingResult
    currentClaimId := none
    claimExpiresAt := none
    finalizationToken := none
    finalizationExpiresAt := none }

/-- A completion that repeats one that was accepted. -/
def isDeliveryReplay (job : JobRow) (attempt : AttemptRow) : Bool :=
  attempt.state = .delivered
    && (job.state = .finalizing || job.state = .succeeded || job.state = .failed)

/-- `complete_claim`. -/
def completeClaim (worker : AuthenticatedWorker) (db : Database) (sessionId claimId : Uuid)
    (artifacts : List CompletedArtifactInput) (now : Timestamp) :
    CompleteClaimOutcome × Database :=
  if artifacts.isEmpty then (.invalid, db)
  else
    match db.claimOf worker sessionId claimId with
    | none => (.lost, db)
    | some (attempt, job) =>
      if job.cancellationRequested = true ∧ isDeliveryReplay job attempt = false then
        (.cancelled, db)
      else if isDeliveryReplay job attempt = false ∧ holdsClaim job attempt claimId now = false then
        (.lost, db)
      else if job.operation.contract.artifacts.length < artifacts.length then (.invalid, db)
      else if checkArtifacts db job.operation.contract attempt claimId [] artifacts = false then
        (.invalid, db)
      else if isDeliveryReplay job attempt = true then (.accepted job.id, db)
      else
        (.accepted job.id,
          (db.updateAttempts (fun row => row.id = attempt.id) AttemptRow.delivered).updateJobs
            (fun row => row.id = job.id) JobRow.delivered)

inductive ClaimMutationOutcome
  | updated (jobId : Uuid) (state : ProcessingJobState)
  | lost
deriving DecidableEq, Repr

/-- Why a worker gives a claim up; none releases it. -/
structure ClaimFailure where
  failureClass : WorkerFailureClass
  code : Text
  message : Text
deriving DecidableEq, Repr

/-- The state a job is left in when its claim fails or is released. -/
def failedClaimState (job : JobRow) (failure : Option ClaimFailure) : ProcessingJobState :=
  if job.cancellationRequested then .cancelled
  else if (failure.all fun reason => reason.failureClass.retryable)
      && decide (job.attemptCount < job.maxAttempts) then .queued
  else .failed

/-- An attempt that ended without a result. -/
def AttemptRow.closed (attempt : AttemptRow) (state : AttemptState)
    (failure : Option (Text × Text × Text)) : AttemptRow :=
  { attempt with
    state := state
    phase := .complete
    failureClass := failure.map fun reason => reason.1
    failureCode := failure.map fun reason => reason.2.1
    failureMessage := failure.map fun reason => reason.2.2 }

/-- A job whose claim is over: queued for another attempt, or ended. -/
def JobRow.unclaimed (job : JobRow) (state : ProcessingJobState) (now nextAttemptAt : Timestamp)
    (failure : Option (Text × Text × Text)) : JobRow :=
  { job with
    state := state
    phase := if state = .queued then .waitingForWorker else .complete
    currentClaimId := none
    claimExpiresAt := none
    failureClass := failure.map fun reason => reason.1
    failureCode := failure.map fun reason => reason.2.1
    failureMessage := failure.map fun reason => reason.2.2
    completedAt := if state = .queued then none else some now
    nextAttemptAt := if state = .queued then nextAttemptAt else job.nextAttemptAt }

def ClaimFailure.texts (failure : ClaimFailure) : Text × Text × Text :=
  (failure.failureClass.asRef, failure.code, failure.message)

/-- `mutate_failed_claim`: `fail_claim` with a failure, `release_claim` without. -/
def mutateFailedClaim (worker : AuthenticatedWorker) (db : Database) (sessionId claimId : Uuid)
    (failure : Option ClaimFailure) (now : Timestamp) : ClaimMutationOutcome × Database :=
  match db.claimOf worker sessionId claimId with
  | none => (.lost, db)
  | some (attempt, job) =>
    if attempt.state = .failed ∨ attempt.state = .released then (.updated job.id job.state, db)
    else if job.state ≠ .running ∨ job.currentClaimId ≠ some claimId
        ∨ attempt.leaseExpiresAt ≤ now then (.lost, db)
    else
      let next := failedClaimState job failure
      let closed := db.updateAttempts (fun row => row.id = attempt.id) fun row =>
        row.closed (if failure.isSome then .failed else .released)
          (failure.map ClaimFailure.texts)
      (.updated job.id next,
        closed.updateJobs (fun row => row.id = job.id) fun row =>
          row.unclaimed next now (now + processingRetryDelay job.attemptCount)
            (if next = .failed then failure.map ClaimFailure.texts else none))

end Toss.Processing
