import Toss.Processing.JobMoves

/-!
# The statements of the source, as moves

For each call that writes jobs or attempts: what it does when it does anything
(`…_cases`), and that this is a move of `JobMove` (`…_moved`). Calls that write
other tables get a frame lemma instead (`…_frame`).

What a caller is answered stays out: here a call is the tables it leaves, and a
refused one leaves those it found.
-/

namespace Toss.Processing

open Toss.Foundation

variable {config : ProcessingConfig}

/-! ## Blobs and transfers -/

variable {blobId id : Uuid}

/-- Storing a blob writes the blobs and nothing else. -/
theorem storeBlob_cases {db stored : Database} {digest : Bytes} {mediaType : Text}
    {content : Bytes} (h : storeBlob db id digest mediaType content = some (stored, blobId)) :
    ∃ blobs, stored = { db with blobs := blobs } := by
  unfold storeBlob at h
  split at h
  · simp only [Option.some.injEq, Prod.mk.injEq] at h
    exact ⟨db.blobs, h.1.symm⟩
  split at h
  · simp at h
  · simp only [Option.some.injEq, Prod.mk.injEq] at h
    exact ⟨_, h.1.symm⟩

/-- A transfer is inserted under an identifier that no row has. -/
theorem issueTransfer_cases {db db' : Database} {transfer : TransferRow}
    (h : issueTransfer db transfer = some db') :
    (∀ row ∈ db.transfers, row.id ≠ transfer.id)
      ∧ db' = { db with transfers := db.transfers ++ [transfer] } := by
  unfold issueTransfer at h
  split at h
  · simp at h
  · rename_i hfresh
    simp only [Option.some.injEq] at h
    exact ⟨by simpa using hfresh, h.symm⟩

variable {db : Database} {now : Timestamp} {sha256 : Bytes → Bytes} {job : JobRow}

variable {worker : AuthenticatedWorker}

/-- The calls on transfers leave jobs and attempts alone. -/
theorem createArtifactTransfer_frame {token : Bytes} {request : ArtifactTransferRequest} :
    (createArtifactTransfer config sha256 worker id token db request now).2.jobs = db.jobs
      ∧ (createArtifactTransfer config sha256 worker id token db request now).2.attempts
        = db.attempts := by
  unfold createArtifactTransfer
  split
  · exact ⟨rfl, rfl⟩
  split
  · exact ⟨rfl, rfl⟩
  split
  · exact ⟨rfl, rfl⟩
  dsimp only
  split
  · exact ⟨rfl, rfl⟩
  split
  · exact ⟨rfl, rfl⟩
  · rename_i hissued
    rw [(issueTransfer_cases hissued).2]
    exact ⟨rfl, rfl⟩

/-- A download leaves jobs and attempts alone. -/
theorem downloadTransfer_frame {transferId : Uuid} {token : Bytes} :
    (downloadTransfer sha256 db transferId token now).2.jobs = db.jobs
      ∧ (downloadTransfer sha256 db transferId token now).2.attempts = db.attempts := by
  unfold downloadTransfer
  split
  · exact ⟨rfl, rfl⟩
  · split
    · exact ⟨rfl, rfl⟩
    · split <;> exact ⟨rfl, rfl⟩

/-- So does an upload that is stored. -/
theorem storeUpload_frame {upload : PendingUpload} :
    (storeUpload db blobId upload).2.jobs = db.jobs
      ∧ (storeUpload db blobId upload).2.attempts = db.attempts := by
  unfold storeUpload
  split
  · exact ⟨rfl, rfl⟩
  · rename_i hstored
    rcases storeBlob_cases hstored with ⟨blobs, rfl⟩
    exact ⟨rfl, rfl⟩

variable {jobId : Uuid}

/-- Pinning writes the pins and nothing else. -/
theorem pinProjectAssets_frame {db db' : Database} {objectKeys : List Text}
    (h : pinProjectAssets db jobId objectKeys = some db') :
    ∃ pins, db' = { db with pins := pins } := by
  unfold pinProjectAssets at h
  dsimp only at h
  split at h
  · exact ⟨db.pins, (Option.some.inj h).symm⟩
  · split at h
    · exact ⟨_, (Option.some.inj h).symm⟩
    · simp at h

/-! ## The requester's calls -/

/-- The input is stored for a job that is being prepared. -/
theorem storePreparedInput_cases (db : Database) (jobId blobId : Uuid) (input : PreparedInput) :
    (storePreparedInput db jobId blobId input).2 = db ∨
    ∃ job stored blob, db.job? jobId = some job ∧ job.state = .preparing
      ∧ job.cancellationRequested = false
      ∧ storeBlob db blobId input.digest input.mediaType input.bytes = some (stored, blob)
      ∧ (storePreparedInput db jobId blobId input).2
        = (stored.updateJobs (fun row => row.id = jobId)
            fun row => row.prepared input blob).deletePins jobId := by
  unfold storePreparedInput
  split
  · exact .inl rfl
  rename_i stored blob hstored
  split
  · exact .inl rfl
  rename_i job hjob
  split
  · rename_i hguard
    exact .inr ⟨job, stored, blob, hjob, hguard.1, hguard.2, hstored, rfl⟩
  · exact .inl rfl

/-- Storing the input queues the job. -/
theorem storePreparedInput_moved (hkeys : WellKeyed db) (jobId blobId : Uuid)
    (input : PreparedInput) : Moved config db (storePreparedInput db jobId blobId input).2 := by
  rcases storePreparedInput_cases db jobId blobId input with
    hsame | ⟨job, stored, blob, hjob, hstate, hflag, hstored, heq⟩
  · rw [hsame]
    exact .of_frame hkeys rfl rfl
  rcases job?_some hjob with ⟨hmem, rfl⟩
  rcases storeBlob_cases hstored with ⟨blobs, rfl⟩
  rw [heq]
  exact .of_job hkeys hmem rfl rfl (fun _ => rfl) (.prepared input blob hstate hflag)

/-- A failed preparation ends a job that was being prepared. -/
theorem markPreparationFailed_moved (hkeys : WellKeyed db) (jobId : Uuid)
    (code message : Text) (now : Timestamp) :
    Moved config db (markPreparationFailed db jobId code message now) := by
  refine Moved.of_jobs hkeys rfl rfl (fun _ => rfl) ?_
  intro job _ hcond
  have hstate : job.state = .preparing := by
    simp only [Bool.and_eq_true, decide_eq_true_eq] at hcond
    exact hcond.2
  exact .waitingEnded .failed now _ (.inl hstate) (.inl rfl)

/-- A waiting job is cancelled at once, a running one is flagged. -/
theorem cancelJob_cases (db : Database) (userId jobId : Uuid) (now : Timestamp) :
    (cancelJob db userId jobId now).2 = db ∨
    ∃ job, job ∈ db.jobs ∧ job.id = jobId ∧
      (((job.state = .preparing ∨ job.state = .queued)
          ∧ (cancelJob db userId jobId now).2
            = (db.updateJobs (fun row => row.id = jobId)
                fun row => row.cancelledWaiting now).deletePins jobId)
        ∨ (job.state = .running
          ∧ (cancelJob db userId jobId now).2
            = db.updateJobs (fun row => row.id = jobId) JobRow.cancelling)) := by
  unfold cancelJob
  split
  · exact .inl rfl
  rename_i job hfind
  have hmem := List.mem_of_find?_eq_some hfind
  have hid : job.id = jobId := by
    have hcond := List.find?_some hfind
    simp only [Bool.and_eq_true, decide_eq_true_eq] at hcond
    exact hcond.1
  split
  · exact .inr ⟨job, hmem, hid, .inl ⟨.inl (by assumption), rfl⟩⟩
  · exact .inr ⟨job, hmem, hid, .inl ⟨.inr (by assumption), rfl⟩⟩
  · exact .inr ⟨job, hmem, hid, .inr ⟨by assumption, rfl⟩⟩
  all_goals exact .inl rfl

/-- Both are moves. -/
theorem cancelJob_moved (hkeys : WellKeyed db) (userId jobId : Uuid)
    (now : Timestamp) : Moved config db (cancelJob db userId jobId now).2 := by
  rcases cancelJob_cases db userId jobId now with
    hsame | ⟨job, hmem, rfl, ⟨hwaiting, heq⟩ | ⟨hrunning, heq⟩⟩
  · rw [hsame]
    exact .of_frame hkeys rfl rfl
  · rw [heq]
    exact .of_job hkeys hmem rfl rfl (fun _ => rfl) (.cancelledWaiting now hwaiting)
  · rw [heq]
    exact .of_job hkeys hmem rfl rfl (fun _ => rfl) (.cancelling hrunning)

/-! ## The worker's calls -/

variable {sessionId : Uuid}

/-- A claim that is found is an attempt together with its job. -/
theorem claimOf_some {claimId : Uuid} {attempt : AttemptRow}
    (h : db.claimOf worker sessionId claimId = some (attempt, job)) :
    attempt ∈ db.attempts ∧ attempt.claimId = claimId ∧ job ∈ db.jobs
      ∧ attempt.jobId = job.id := by
  simp only [Database.claimOf, Option.bind_eq_bind, Option.bind_eq_some_iff, Option.pure_def,
    Option.some.injEq, Prod.mk.injEq] at h
  rcases h with ⟨found, hfound, job', hjob, _, _, rfl, rfl⟩
  have hcond := List.find?_some hfound
  simp only [Bool.and_eq_true, decide_eq_true_eq] at hcond
  rcases job?_some hjob with ⟨hmem, hid⟩
  exact ⟨List.mem_of_find?_eq_some hfound, hcond.1, hmem, hid.symm⟩

/-- A heartbeat renews a claim that is held. -/
theorem heartbeatClaim_cases (worker : AuthenticatedWorker) (db : Database)
    (sessionId claimId : Uuid) (phase : ProcessingPhase) (now : Timestamp) :
    (heartbeatClaim config worker db sessionId claimId phase now).2 = db ∨
    ∃ attempt job, db.claimOf worker sessionId claimId = some (attempt, job)
      ∧ holdsClaim job attempt claimId now = true
      ∧ (heartbeatClaim config worker db sessionId claimId phase now).2
        = (db.updateAttempts (fun row => row.id = attempt.id)
            fun row => row.renewed phase (renewedLease config job attempt now)).updateJobs
          (fun row => row.id = job.id)
          fun row => row.renewed phase (renewedLease config job attempt now) := by
  unfold heartbeatClaim
  split
  · exact .inl rfl
  split
  · exact .inl rfl
  rename_i attempt job hclaim
  split
  · exact .inl rfl
  split
  · exact .inl rfl
  · rename_i hholds
    exact .inr ⟨attempt, job, hclaim, by simpa using hholds, rfl⟩

/-- A renewal is a move. -/
theorem heartbeatClaim_moved (hkeys : WellKeyed db) (worker : AuthenticatedWorker)
    (sessionId claimId : Uuid) (phase : ProcessingPhase) (now : Timestamp) :
    Moved config db (heartbeatClaim config worker db sessionId claimId phase now).2 := by
  rcases heartbeatClaim_cases worker db sessionId claimId phase now with
    hsame | ⟨attempt, job, hclaim, hholds, heq⟩
  · rw [hsame]
    exact .of_frame hkeys rfl rfl
  rcases claimOf_some hclaim with ⟨hattempt, rfl, hjob, howner⟩
  rw [heq]
  exact .of_claim hkeys hjob hattempt howner rfl rfl (fun _ => rfl)
    (fun _ => ⟨rfl, rfl, rfl⟩) fun hmem => .renewed attempt phase now hmem hholds

/-- A delivery is taken under a claim that is held, of a job nobody has asked to cancel.
-/
theorem completeClaim_cases (worker : AuthenticatedWorker) (db : Database)
    (sessionId claimId : Uuid) (artifacts : List CompletedArtifactInput) (now : Timestamp) :
    (completeClaim worker db sessionId claimId artifacts now).2 = db ∨
    ∃ attempt job, db.claimOf worker sessionId claimId = some (attempt, job)
      ∧ holdsClaim job attempt claimId now = true ∧ job.cancellationRequested = false
      ∧ (completeClaim worker db sessionId claimId artifacts now).2
        = (db.updateAttempts (fun row => row.id = attempt.id) AttemptRow.delivered).updateJobs
          (fun row => row.id = job.id) JobRow.delivered := by
  unfold completeClaim
  split
  · exact .inl rfl
  split
  · exact .inl rfl
  rename_i attempt job hclaim
  split
  · exact .inl rfl
  rename_i hcancelled
  split
  · exact .inl rfl
  rename_i hlost
  split
  · exact .inl rfl
  split
  · exact .inl rfl
  split
  · exact .inl rfl
  rename_i hreplay
  have hreplay : isDeliveryReplay job attempt = false := by simpa using hreplay
  refine .inr ⟨attempt, job, hclaim, ?_, ?_, rfl⟩
  · simpa [hreplay] using hlost
  · simpa [hreplay] using hcancelled

/-- A delivery is a move. -/
theorem completeClaim_moved (hkeys : WellKeyed db) (worker : AuthenticatedWorker)
    (sessionId claimId : Uuid) (artifacts : List CompletedArtifactInput) (now : Timestamp) :
    Moved config db (completeClaim worker db sessionId claimId artifacts now).2 := by
  rcases completeClaim_cases worker db sessionId claimId artifacts now with
    hsame | ⟨attempt, job, hclaim, hholds, hflag, heq⟩
  · rw [hsame]
    exact .of_frame hkeys rfl rfl
  rcases claimOf_some hclaim with ⟨hattempt, rfl, hjob, howner⟩
  rw [heq]
  exact .of_claim hkeys hjob hattempt howner rfl rfl (fun _ => rfl)
    (fun _ => ⟨rfl, rfl, rfl⟩) fun hmem => .delivered attempt now hmem hholds hflag

/-- A claim is given up while its job runs under it and the lease lasts. -/
theorem mutateFailedClaim_cases (worker : AuthenticatedWorker) (db : Database)
    (sessionId claimId : Uuid) (failure : Option ClaimFailure) (now : Timestamp) :
    (mutateFailedClaim worker db sessionId claimId failure now).2 = db ∨
    ∃ attempt job, db.claimOf worker sessionId claimId = some (attempt, job)
      ∧ job.state = .running ∧ job.currentClaimId = some claimId ∧ now < attempt.leaseExpiresAt
      ∧ (mutateFailedClaim worker db sessionId claimId failure now).2
        = (db.updateAttempts (fun row => row.id = attempt.id) fun row =>
            row.closed (if failure.isSome then .failed else .released)
              (failure.map ClaimFailure.texts)).updateJobs (fun row => row.id = job.id) fun row =>
            row.unclaimed (failedClaimState job failure) now
              (now + processingRetryDelay job.attemptCount)
              (if failedClaimState job failure = .failed then failure.map ClaimFailure.texts
                else none) := by
  unfold mutateFailedClaim
  split
  · exact .inl rfl
  rename_i attempt job hclaim
  split
  · exact .inl rfl
  split
  · exact .inl rfl
  · rename_i hlost
    simp only [ne_eq, not_or, not_not, Int.not_le] at hlost
    exact .inr ⟨attempt, job, hclaim, hlost.1, hlost.2.1, hlost.2.2, rfl⟩

/-- Giving a claim up is a move. -/
theorem mutateFailedClaim_moved (hkeys : WellKeyed db)
    (worker : AuthenticatedWorker) (sessionId claimId : Uuid) (failure : Option ClaimFailure)
    (now : Timestamp) :
    Moved config db (mutateFailedClaim worker db sessionId claimId failure now).2 := by
  rcases mutateFailedClaim_cases worker db sessionId claimId failure now with
    hsame | ⟨attempt, job, hclaim, hstate, hcurrent, _, heq⟩
  · rw [hsame]
    exact .of_frame hkeys rfl rfl
  rcases claimOf_some hclaim with ⟨hattempt, rfl, hjob, howner⟩
  rw [heq]
  refine .of_claim hkeys hjob hattempt howner rfl rfl (fun _ => rfl)
    (fun _ => ⟨rfl, rfl, rfl⟩) fun hmem => ?_
  refine .givenUp attempt failure _ _ _ now _ hmem hstate hcurrent ?_
  cases failure <;> simp

/-! ## Claims -/

/-- Opening a claim draws identifiers that no attempt and no transfer has. -/
theorem openClaim_cases {draw : ClaimDraw} {db db' : Database} {processorContract : Text}
    {blob : BlobRow}
    (h : openClaim config sha256 draw db sessionId processorContract now job blob = some db') :
    (∀ row ∈ db.attempts, row.id ≠ draw.attemptId ∧ row.claimId ≠ draw.claimId)
      ∧ (∀ row ∈ db.transfers, row.id ≠ draw.transferId)
      ∧ db' = { db with
          attempts := db.attempts ++ [job.openedAttempt config draw sessionId processorContract now]
          jobs := updateWhere (fun row => row.id = job.id) (fun row =>
            row.claimed job.nextAttempt draw.claimId (now + config.claimLease) processorContract)
            db.jobs
          transfers := db.transfers ++ [inputTransfer config sha256 draw job blob now] } := by
  simp only [openClaim, insertAttempt, Option.bind_eq_bind] at h
  split at h
  · simp at h
  rename_i hfresh
  rcases issueTransfer_cases h with ⟨htransfers, heq⟩
  refine ⟨?_, htransfers, heq⟩
  intro row hrow
  simp only [List.any_eq_true, Bool.or_eq_true, decide_eq_true_eq, not_exists, not_and,
    not_or] at hfresh
  exact ⟨(hfresh row hrow).1.1, (hfresh row hrow).1.2⟩

/-- A candidate is a claimable row of the table whose input is stored. -/
theorem claimCandidate_some {locked : List Uuid} {operation : ProcessingOperation}
    {blob : BlobRow} (h : claimCandidate db locked operation now = some (job, blob)) :
    job ∈ db.jobs ∧ job.isCandidate operation now = true ∧ db.blob? blob.id = some blob := by
  rcases List.exists_of_findSome?_eq_some h with ⟨row, hrow, hsome⟩
  have hcandidate := List.mem_filter.mp ((mem_orderBy _).mp hrow)
  split at hsome
  · simp at hsome
  rcases Option.map_eq_some_iff.mp hsome with ⟨found, hfound, heq⟩
  have hsame : row = job := congrArg Prod.fst heq
  have hinput : found = blob := congrArg Prod.snd heq
  rcases Option.bind_eq_some_iff.mp hfound with ⟨id, _, hblob⟩
  have hid : found.id = id := by simpa using List.find?_some hblob
  rw [← hsame, ← hinput, hid]
  exact ⟨hcandidate.1, hcandidate.2, hblob⟩

/-- What a call of `try_claim` does to a job it finds: take a cached result
over, or hand the job out. -/
theorem tryClaim_cases (worker : AuthenticatedWorker) (draw : ClaimDraw)
    (locked : List Uuid) (db : Database) (sessionId : Uuid)
    (offers : List ProcessorCapacityOffer) (now : Timestamp) :
    (tryClaim config sha256 worker draw locked db sessionId offers now).2 = db ∨
    ∃ job blob processorContract, job ∈ db.jobs ∧ job.state = .queued
      ∧ job.cancellationRequested = false
      ∧ ((∃ source, cacheSource db job processorContract now = some source
          ∧ (tryClaim config sha256 worker draw locked db sessionId offers now).2
            = db.updateJobs (fun row => row.id = job.id && row.state = .queued)
                fun row => row.cacheHitOf processorContract source.id)
        ∨ (db.blob? blob.id = some blob
          ∧ openClaim config sha256 draw db sessionId processorContract now job blob
            = some (tryClaim config sha256 worker draw locked db sessionId offers now).2)) := by
  unfold tryClaim
  split
  · exact .inl rfl
  split
  · exact .inl rfl
  induction offers with
  | nil => exact .inl rfl
  | cons offer offers ih =>
    unfold claimOffers
    split
    · exact .inl rfl
    split
    · exact .inl rfl
    rename_i processor _
    split
    · exact .inl rfl
    split
    · exact ih
    split
    · exact ih
    rename_i job blob hcandidate
    rcases claimCandidate_some hcandidate with ⟨hmem, hcond, hblob⟩
    simp only [JobRow.isCandidate, Bool.and_eq_true, decide_eq_true_eq,
      Bool.not_eq_true'] at hcond
    unfold claimJob
    split
    · rename_i source hsource
      exact .inr ⟨job, blob, processor.processorContract, hmem, hcond.1.1.1.2,
        hcond.1.1.2, .inl ⟨source, hsource, rfl⟩⟩
    split
    · rename_i hopen
      exact .inr ⟨job, blob, processor.processorContract, hmem, hcond.1.1.1.2,
        hcond.1.1.2, .inr ⟨hblob, hopen⟩⟩
    · exact .inl rfl

/-- Both are moves. -/
theorem tryClaim_moved (hkeys : WellKeyed db)
    (worker : AuthenticatedWorker) (draw : ClaimDraw) (locked : List Uuid) (sessionId : Uuid)
    (offers : List ProcessorCapacityOffer) (now : Timestamp) :
    Moved config db (tryClaim config sha256 worker draw locked db sessionId offers now).2 := by
  rcases tryClaim_cases worker draw locked db sessionId offers
    now with
    hsame | ⟨job, blob, contract, hmem, hstate, hflag, ⟨source, _, heq⟩ | ⟨_, hopen⟩⟩
  · rw [hsame]
    exact .of_frame hkeys rfl rfl
  · rw [heq]
    refine .of_jobs hkeys rfl rfl (fun _ => rfl) ?_
    intro row hrow hcond
    simp only [Bool.and_eq_true, decide_eq_true_eq] at hcond
    rw [hkeys.job_eq hmem hrow hcond.1]
    exact .cacheHit contract source.id hstate hflag
  · rcases openClaim_cases hopen with ⟨hfresh, _, heq⟩
    rw [heq]
    exact .of_claimed hkeys hmem hstate hflag hfresh rfl rfl

/-! ## The lifecycle -/

/-- Only rows of the table are overdue. -/
theorem overdueJobs_subset {locked : List Uuid}
    (h : job ∈ overdueJobs db locked now) : job ∈ db.jobs ∧ job.claimOverdue now = true := by
  have hkept := List.mem_filter.mp (List.mem_of_mem_take h)
  exact List.mem_filter.mp ((mem_orderBy _).mp hkept.1)

/-- The statements for an overdue job move it, as long as it is as it was read. -/
theorem expireClaim_moved (hkeys : WellKeyed db)
    (hjob : job ∈ db.jobs) (hoverdue : job.claimOverdue now = true)
    (hclaims : ∀ claimId, job.currentClaimId = some claimId →
      ∀ attempt ∈ db.attempts, attempt.claimId = claimId → attempt.jobId = job.id)
    (hclaimed : job.currentClaimId.isSome = true) :
    Moved config db (expireClaim now db job) := by
  rcases Option.isSome_iff_exists.mp hclaimed with ⟨claimId, hclaim⟩
  have hstate : job.state = .running := by
    simp only [JobRow.claimOverdue, Bool.and_eq_true, decide_eq_true_eq] at hoverdue
    exact hoverdue.1
  have heq : (expireClaim now db job).attempts
      = updateWhere (fun row => row.claimId = claimId && row.state = .running)
          (fun row => row.closed .lost (some claimExpired)) db.attempts
      ∧ (expireClaim now db job).jobs
        = updateWhere (fun row => row.id = job.id) (fun row =>
            row.unclaimed (expiredClaimState job now).1 now
              (now + processingRetryDelay job.attemptCount) (expiredClaimState job now).2)
            db.jobs := by
    unfold expireClaim
    rw [hclaim]
    exact ⟨rfl, rfl⟩
  refine .of_update hkeys heq.2 heq.1 (fun _ => rfl) (fun _ => ⟨rfl, rfl, rfl⟩) ?_ ?_
  · intro row hrow hcond
    obtain rfl := hkeys.job_eq hjob hrow (of_decide_eq_true hcond)
    exact .lost claimId now _ hstate hclaim
  · intro row hrow hcond attempt hattempt
    have hattempt := mem_attemptsOf.mp hattempt
    refine Bool.eq_false_iff.mpr fun hboth => ?_
    simp only [Bool.and_eq_true, decide_eq_true_eq] at hboth
    exact of_decide_eq_false hcond
      (by rw [← hattempt.2, hclaims claimId hclaim attempt hattempt.1 hboth.1])

/-- Jobs that queued for too long expire. -/
theorem expireQueue_moved (hkeys : WellKeyed db) (now : Timestamp) :
    Moved config db (expireQueue db now) := by
  refine Moved.of_jobs hkeys rfl rfl (fun _ => rfl) ?_
  intro job _ hcond
  simp only [Bool.and_eq_true, Bool.or_eq_true, decide_eq_true_eq] at hcond
  exact .waitingEnded .expired now _ hcond.1 (.inr rfl)

/-- The other statements of the tick touch neither jobs nor attempts, or delete
jobs with their attempts. -/
theorem tick_moves (hkeys : WellKeyed db) (now : Timestamp) :
    Moves config db (deleteUnusedBlobs (deleteJobs (expireTransfers (releaseEndedPins
      (expireQueue db now)) now) (JobRow.isForgotten (expireTransfers (releaseEndedPins
        (expireQueue db now)) now) now))) := by
  have hqueue : Moved config db (expireQueue db now) := expireQueue_moved hkeys now
  have hpins : Moved config (expireQueue db now) (releaseEndedPins (expireQueue db now)) :=
    .of_frame hqueue.keyed rfl rfl
  have htransfers : Moved config (releaseEndedPins (expireQueue db now))
      (expireTransfers (releaseEndedPins (expireQueue db now)) now) :=
    .of_frame hpins.keyed rfl rfl
  generalize expireTransfers (releaseEndedPins (expireQueue db now)) now = expired at htransfers ⊢
  have hdeleted : Moved config expired (deleteJobs expired (JobRow.isForgotten expired now)) :=
    .of_deleteJobs htransfers.keyed _
  exact ((((Relation.ReflTransGen.single hqueue).tail hpins).tail htransfers).tail hdeleted).tail
    (.of_frame hdeleted.keyed rfl rfl)

/-! ## Finalization -/

variable {lease : FinalizationLease} {publication : Publication}

/-- A lease is taken on a job that awaits its finalizer. -/
theorem acquireFinalizationLease_cases {db db' : Database} {token : Uuid}
    (h : acquireFinalizationLease config db jobId token now = some (lease, db')) :
    ∃ job, job ∈ db.jobs ∧ job.id = jobId ∧ job.awaitsFinalizer now = true
      ∧ lease = job.lease token
      ∧ db' = db.updateJobs (fun row => row.id = jobId)
          fun row => row.leased token (now + config.finalizationLease) := by
  unfold acquireFinalizationLease at h
  split at h
  · simp at h
  rename_i job hjob
  rcases job?_some hjob with ⟨hmem, hid⟩
  split at h
  · rename_i hawaits
    simp only [Option.some.injEq, Prod.mk.injEq] at h
    exact ⟨job, hmem, hid, hawaits, h.1.symm, h.2.symm⟩
  · simp at h

/-- Taking a lease is a move. -/
theorem acquireFinalizationLease_moved {db db' : Database} (hkeys : WellKeyed db) {token : Uuid}
    (h : acquireFinalizationLease config db jobId token now = some (lease, db')) :
    Moved config db db' := by
  rcases acquireFinalizationLease_cases h with ⟨job, hmem, rfl, hawaits, _, rfl⟩
  have hstate : job.state = .finalizing := by
    simp only [JobRow.awaitsFinalizer, Bool.and_eq_true, decide_eq_true_eq] at hawaits
    exact hawaits.1
  exact .of_job hkeys hmem rfl rfl (fun _ => rfl) (.leased token _ hstate)

/-- A lease owns a job only while it is being finalized. -/
theorem owns_state (h : lease.owns job = true) :
    job.id = lease.jobId ∧ job.state = .finalizing
      ∧ job.finalizationToken = some lease.token := by
  simp only [FinalizationLease.owns, Bool.and_eq_true, decide_eq_true_eq] at h
  exact ⟨h.1.1, h.1.2, h.2⟩

/-- A rejection ends the job that the lease owns. -/
theorem rejectArtifacts_moved (hkeys : WellKeyed db) (lease : FinalizationLease)
    (failure : ValidationFailure) (now : Timestamp) :
    Moved config db (rejectArtifacts db lease failure now) := by
  refine Moved.of_jobs hkeys rfl rfl (fun _ => rfl) ?_
  intro job _ hcond
  have howns := owns_state (Bool.and_eq_true_iff.mp hcond).1
  exact .rejected _ now howns.2.1

/-- Publishing artifacts touches artifacts and transfers. -/
theorem publishStagedArtifacts_frame (db : Database) (jobId : Uuid) (staged : List StagedArtifact)
    (ids : List Uuid) :
    ∃ artifacts transfers, publishStagedArtifacts db jobId staged ids
      = { db with artifacts := artifacts, transfers := transfers } := by
  unfold publishStagedArtifacts
  generalize staged.zip ids = entries
  induction entries generalizing db with
  | nil => exact ⟨db.artifacts, db.transfers, rfl⟩
  | cons entry entries ih =>
    rw [List.foldl_cons]
    have hone : ∃ artifacts transfers, publishArtifact jobId db entry
        = { db with artifacts := artifacts, transfers := transfers } := by
      unfold publishArtifact
      split <;> split <;> exact ⟨_, _, rfl⟩
    rcases hone with ⟨artifacts, transfers, hone⟩
    rcases ih (publishArtifact jobId db entry) with ⟨artifacts', transfers', hrest⟩
    exact ⟨artifacts', transfers', by rw [hrest, hone]⟩

/-- A publication provisions, publishes the artifacts and updates the job that its lease
owns; the flag says whether there was one. -/
theorem publish_cases {db db' : Database} {updated : Bool}
    (h : publish db publication = some (db', updated)) :
    updated = db.jobs.any publication.lease.owns
      ∧ ∃ provisioned, publication.provision db = some provisioned
        ∧ db' = (publishStagedArtifacts provisioned publication.lease.jobId publication.staged
            publication.artifactIds).updateJobs publication.lease.owns fun job =>
            job.succeeded (publication.graph.map ProjectGraph.projectId) publication.now := by
  rcases Option.map_eq_some_iff.mp h with ⟨provisioned, hprovisioned, heq⟩
  simp only [Prod.mk.injEq] at heq
  exact ⟨heq.2.symm, provisioned, hprovisioned, heq.1.symm⟩

/-- A project graph goes in as a whole, where it is insertable. -/
theorem provisionProject_cases {db provisioned : Database} {graph : ProjectGraph}
    (h : provisionProject db graph = some provisioned) :
    graph.isInsertable db = true ∧ provisioned = graph.insertInto db := by
  unfold provisionProject at h
  split at h
  · exact ⟨by assumption, (Option.some.inj h).symm⟩
  · simp at h

/-- A publication provisions nothing, or a graph that is insertable. -/
theorem provision_cases {db provisioned : Database}
    (h : publication.provision db = some provisioned) :
    (publication.graph = none ∧ provisioned = db) ∨
    ∃ graph, publication.graph = some graph ∧ graph.isInsertable db = true
      ∧ provisioned = graph.insertInto db := by
  unfold Publication.provision at h
  split at h
  · rename_i hgraph
    exact .inl ⟨hgraph, (Option.some.inj h).symm⟩
  · rename_i graph hgraph
    rcases provisionProject_cases h with ⟨hinsertable, heq⟩
    exact .inr ⟨graph, hgraph, hinsertable, heq⟩

/-- Beside the project, the artifacts and the transfers, a publication writes its job alone. -/
theorem publish_frame {db db' : Database} {updated : Bool}
    (h : publish db publication = some (db', updated)) :
    db'.jobs = updateWhere publication.lease.owns (fun job =>
        job.succeeded (publication.graph.map ProjectGraph.projectId) publication.now) db.jobs
      ∧ db'.attempts = db.attempts ∧ db'.blobs = db.blobs ∧ db'.sessions = db.sessions
      ∧ db'.processors = db.processors := by
  rcases publish_cases h with ⟨_, provisioned, hprovisioned, rfl⟩
  rcases publishStagedArtifacts_frame provisioned publication.lease.jobId publication.staged
    publication.artifactIds with ⟨artifacts, transfers, hpublished⟩
  rw [hpublished]
  rcases provision_cases hprovisioned with ⟨_, rfl⟩ | ⟨graph, _, _, rfl⟩
  · exact ⟨rfl, rfl, rfl, rfl, rfl⟩
  · exact ⟨rfl, rfl, rfl, rfl, rfl⟩

/-- A publication is a move. -/
theorem publish_moved {db db' : Database} (hkeys : WellKeyed db)
    {updated : Bool} (h : publish db publication = some (db', updated)) : Moved config db db' := by
  refine .of_jobs hkeys (publish_frame h).1 (publish_frame h).2.1 (fun _ => rfl) ?_
  intro job _ hcond
  exact .succeeded _ _ (owns_state hcond).2.1

/-- Deleting a project takes its jobs along with their attempts. -/
theorem deleteProject_moves (hkeys : WellKeyed db) (projectId : Uuid) :
    Moves config db (deleteProject db projectId) := by
  have hdeleted : Moved config db (deleteJobs db fun job => job.projectId = some projectId) :=
    .of_deleteJobs hkeys _
  refine .tail (.single hdeleted) ?_
  refine .of_jobs hdeleted.keyed rfl rfl (fun _ => rfl) ?_
  intro job _ _
  exact .detached job.cacheSourceJobId none (.inr rfl) (.inl rfl)

end Toss.Processing
