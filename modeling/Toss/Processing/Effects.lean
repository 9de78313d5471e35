import Toss.Processing.JobFencing

/-!
# What a step does to the tables

Every step that is taken leaves the tables alone or is one of the statements
below, with what was checked before it. Invariants over tables other than the
jobs' are proved on `Effect`, without another look at the calls themselves.

* `Effect` — the tables after a step, and its guard;
* `step_effect` — each step has one.

Out of scope are the replies and the calls under way; what becomes of a
finalizer is said by `step_finalizers`.
-/

namespace Toss.Processing

open Toss.Foundation

variable {externals : Externals} {config : ProcessingConfig}

/-- The tables after a step. -/
inductive Effect (externals : Externals) (config : ProcessingConfig) (s : System) :
    Action → Database → Prop
  | same (action : Action) : Effect externals config s action s.db
  | inserted {db : Database} (command : ReserveJob)
      (hinsert : insertJob s.db (command.row config) = some db) :
      Effect externals config s .reserveNext db
  | pins (action : Action) (pins : List PinRow) :
      Effect externals config s action { s.db with pins := pins }
  | workers (sessions : List SessionRow) (processors : List ProcessorRow) :
      Effect externals config s (.setWorkers sessions processors)
        { s.db with sessions := sessions, processors := processors }
  | prepared {stored : Database} {job : JobRow} {blob : Uuid} (jobId blobId : Uuid)
      (input : PreparedInput) (hjob : s.db.job? jobId = some job) (hstate : job.state = .preparing)
      (hstored : storeBlob s.db blobId input.digest input.mediaType input.bytes
        = some (stored, blob)) :
      Effect externals config s (.storePreparedInput jobId blobId input)
        ((stored.updateJobs (fun row => row.id = jobId)
          fun row => row.prepared input blob).deletePins jobId)
  | preparationFailed (jobId : Uuid) (code message : Text) (now : Timestamp) :
      Effect externals config s (.markPreparationFailed jobId code message now)
        (markPreparationFailed s.db jobId code message now)
  | cancelledWaiting (userId jobId : Uuid) (now : Timestamp) :
      Effect externals config s (.cancelJob userId jobId now)
        ((s.db.updateJobs (fun row => row.id = jobId)
          fun row => row.cancelledWaiting now).deletePins jobId)
  | cancelling {job : JobRow} (userId : Uuid) (now : Timestamp) (hjob : job ∈ s.db.jobs)
      (hstate : job.state = .running) :
      Effect externals config s (.cancelJob userId job.id now)
        (s.db.updateJobs (fun row => row.id = job.id) JobRow.cancelling)
  | cacheHit {job : JobRow} (action : Action) (processorContract : Text) (source : Uuid)
      (hstate : job.state = .queued) :
      Effect externals config s action
        (s.db.updateJobs (fun row => row.id = job.id && row.state = .queued)
          fun row => row.cacheHitOf processorContract source)
  | claimed {job : JobRow} {blob : BlobRow} (action : Action) (draw : ClaimDraw) (sessionId : Uuid)
      (processorContract : Text) (now : Timestamp) (hjob : job ∈ s.db.jobs)
      (hstate : job.state = .queued) (hblob : s.db.blob? blob.id = some blob)
      (hfresh : ∀ row ∈ s.db.attempts, row.id ≠ draw.attemptId ∧ row.claimId ≠ draw.claimId)
      (htransfer : ∀ row ∈ s.db.transfers, row.id ≠ draw.transferId)
      (haction : ∃ worker locked offers,
        action = .tryClaim worker draw locked sessionId offers now) :
      Effect externals config s action { s.db with
        attempts := s.db.attempts
          ++ [job.openedAttempt config draw sessionId processorContract now]
        jobs := updateWhere (fun row => row.id = job.id) (fun row =>
          row.claimed job.nextAttempt draw.claimId (now + config.claimLease) processorContract)
          s.db.jobs
        transfers := s.db.transfers ++ [inputTransfer config externals.sha256 draw job blob now] }
  | renewed {job : JobRow} {attempt : AttemptRow} (action : Action) (phase : ProcessingPhase)
      (now : Timestamp) (hjob : job ∈ s.db.jobs) (hattempt : attempt ∈ s.db.attempts)
      (howner : attempt.jobId = job.id)
      (hholds : holdsClaim job attempt attempt.claimId now = true)
      (haction : ∃ worker sessionId, action = .heartbeatClaim worker sessionId attempt.claimId phase now
        ∧ s.db.claimOf worker sessionId attempt.claimId = some (attempt, job)
        ∧ (phase = .processing ∨ phase = .uploadingResult)) :
      Effect externals config s action
        ((s.db.updateAttempts (fun row => row.id = attempt.id)
            fun row => row.renewed phase (renewedLease config job attempt now)).updateJobs
          (fun row => row.id = job.id)
          fun row => row.renewed phase (renewedLease config job attempt now))
  | issued {job : JobRow} {attempt : AttemptRow} (action : Action) (id : Uuid) (token : Bytes)
      (request : ArtifactTransferRequest) (now : Timestamp) (hjob : job ∈ s.db.jobs)
      (hattempt : attempt ∈ s.db.attempts) (howner : attempt.jobId = job.id)
      (hclaim : attempt.claimId = request.claimId)
      (hholds : holdsClaim job attempt request.claimId now = true)
      (hfresh : ∀ row ∈ s.db.transfers, row.id ≠ id) :
      Effect externals config s action { s.db with
        transfers := updateWhere (TransferRow.isStaleUploadOf attempt.id request.role now)
            TransferRow.expire s.db.transfers
          ++ [artifactTransfer config externals.sha256 id token request attempt now] }
  | read {transfer : TransferRow} (action : Action) (now : Timestamp)
      (hlive : liveTransfer s.db transfer.id now = some transfer)
      (hdownload : transfer.direction = .download)
      (haction : ∃ token, action = .downloadTransfer transfer.id token now) :
      Effect externals config s action
        (s.db.updateTransfers (fun row => row.id = transfer.id) TransferRow.read)
  | stored {stored : Database} {blob : Uuid} (action : Action) (blobId : Uuid)
      (upload : PendingUpload) (hupload : upload ∈ s.uploads)
      (hstored : storeBlob s.db blobId upload.digest upload.mediaType upload.content
        = some (stored, blob))
      (haction : ∃ transferId, action = .storeUpload transferId blobId) :
      Effect externals config s action
        (stored.updateTransfers (fun row => row.id = upload.transferId) fun row => row.stored blob)
  | delivered {job : JobRow} {attempt : AttemptRow} (action : Action) (now : Timestamp)
      (hjob : job ∈ s.db.jobs) (hattempt : attempt ∈ s.db.attempts)
      (howner : attempt.jobId = job.id)
      (hholds : holdsClaim job attempt attempt.claimId now = true) :
      Effect externals config s action
        ((s.db.updateAttempts (fun row => row.id = attempt.id) AttemptRow.delivered).updateJobs
          (fun row => row.id = job.id) JobRow.delivered)
  | givenUp {job : JobRow} {attempt : AttemptRow} (action : Action)
      (failure : Option ClaimFailure) (now : Timestamp)
      (hjob : job ∈ s.db.jobs) (hattempt : attempt ∈ s.db.attempts)
      (howner : attempt.jobId = job.id) (hstate : job.state = .running)
      (haction : ∃ worker sessionId,
        action = .mutateFailedClaim worker sessionId attempt.claimId failure now) :
      Effect externals config s action
        ((s.db.updateAttempts (fun row => row.id = attempt.id) fun row =>
            row.closed (if failure.isSome then .failed else .released)
              (failure.map ClaimFailure.texts)).updateJobs (fun row => row.id = job.id) fun row =>
            row.unclaimed (failedClaimState job failure) now
              (now + processingRetryDelay job.attemptCount)
              (if failedClaimState job failure = .failed then failure.map ClaimFailure.texts
                else none))
  | tick (locked : List Uuid) (now : Timestamp) :
      Effect externals config s (.maintainLifecycle locked now) (maintainLifecycle locked s.db now)
  | leased {job : JobRow} (finalizer : Nat) (token : Uuid) (now : Timestamp)
      (hjob : job ∈ s.db.jobs) (hawaits : job.awaitsFinalizer now = true) :
      Effect externals config s (.acquireFinalizationLease finalizer job.id token now)
        (s.db.updateJobs (fun row => row.id = job.id)
          fun row => row.leased token (now + config.finalizationLease))
  | rejected (finalizer : Nat) (lease : FinalizationLease) (failure : ValidationFailure)
      (now : Timestamp) (hfinalizer : s.finalizer? finalizer = some (.rejecting lease failure)) :
      Effect externals config s (.rejectArtifacts finalizer now)
        (rejectArtifacts s.db lease failure now)
  | published {db : Database} {updated : Bool} (finalizer : Nat) (publication : Publication)
      (hfinalizer : s.finalizer? finalizer = some (.written publication))
      (hpublish : publish s.db publication = some (db, updated)) :
      Effect externals config s (.commitPublication finalizer) db
  | deletedJobs (gone : List Uuid) :
      Effect externals config s (.deleteJobs gone) (deleteJobs s.db fun job => gone.contains job.id)
  | deletedProject (projectId : Uuid) :
      Effect externals config s (.deleteProject projectId) (deleteProject s.db projectId)

/-- A transfer is issued under a held claim and a new identifier, after the stale
uploads of its role have expired. -/
theorem createArtifactTransfer_cases {sha256 : Bytes → Bytes} (worker : AuthenticatedWorker)
    (id : Uuid) (token : Bytes) (db : Database) (request : ArtifactTransferRequest)
    (now : Timestamp) :
    (createArtifactTransfer config sha256 worker id token db request now).2 = db ∨
    ∃ attempt job, db.claimOf worker request.sessionId request.claimId = some (attempt, job)
      ∧ holdsClaim job attempt request.claimId now = true
      ∧ (∀ row ∈ db.transfers, row.id ≠ id)
      ∧ (createArtifactTransfer config sha256 worker id token db request now).2 = { db with
        transfers := updateWhere (TransferRow.isStaleUploadOf attempt.id request.role now)
            TransferRow.expire db.transfers
          ++ [artifactTransfer config sha256 id token request attempt now] } := by
  unfold createArtifactTransfer
  split
  · exact .inl rfl
  rename_i attempt job hclaim
  split
  · exact .inl rfl
  rename_i hguard
  split
  · exact .inl rfl
  dsimp only
  split
  · exact .inl rfl
  split
  · exact .inl rfl
  rename_i db' hissued
  have hholds : holdsClaim job attempt request.claimId now = true := by
    simpa using (not_or.mp hguard).1
  rcases issueTransfer_cases hissued with ⟨hfresh, heq⟩
  refine .inr ⟨attempt, job, hclaim, hholds, ?_, heq⟩
  intro row hrow
  -- the stale transfers keep their identifiers
  have hids : row.id ∈ (updateWhere (TransferRow.isStaleUploadOf attempt.id request.role now)
      TransferRow.expire db.transfers).map TransferRow.id := by
    rw [map_updateWhere]
    · exact List.mem_map_of_mem hrow
    · intro _ _
      rfl
  rcases List.mem_map.mp hids with ⟨row', hrow', hid⟩
  rw [← hid]
  exact hfresh row' hrow'

/-- A live transfer is a row whose attempt and job run under its claim. -/
theorem liveTransfer_some {db : Database} {transferId : Uuid} {now : Timestamp}
    {transfer : TransferRow} (h : liveTransfer db transferId now = some transfer) :
    transfer ∈ db.transfers ∧ transfer.id = transferId ∧
      ∃ attempt job, db.attempts.find? (fun attempt => attempt.id = transfer.attemptId) = some attempt
        ∧ db.job? transfer.jobId = some job ∧ attempt.state = .running ∧ job.state = .running
        ∧ job.currentClaimId = some transfer.claimId := by
  simp only [liveTransfer, Option.bind_eq_bind, Option.bind_eq_some_iff] at h
  rcases h with ⟨found, hfound, attempt, hattempt, job, hjob, hcond⟩
  split at hcond
  · rename_i hlive
    rw [Option.some.inj hcond] at hfound hattempt hjob hlive
    refine ⟨List.mem_of_find?_eq_some hfound, by simpa using List.find?_some hfound, attempt, job,
      hattempt, hjob, hlive.1, hlive.2.2.1, hlive.2.2.2⟩
  · simp at hcond

/-- What is downloaded is read, and only through a live download. -/
theorem downloadTransfer_cases {sha256 : Bytes → Bytes} (db : Database) (transferId : Uuid)
    (token : Bytes) (now : Timestamp) :
    (downloadTransfer sha256 db transferId token now).2 = db ∨
    ∃ transfer, liveTransfer db transferId now = some transfer ∧ transfer.direction = .download
      ∧ (downloadTransfer sha256 db transferId token now).2
        = db.updateTransfers (fun row => row.id = transferId) TransferRow.read := by
  unfold downloadTransfer
  split
  · exact .inl rfl
  rename_i transfer hlive
  split
  · exact .inl rfl
  split
  · exact .inl rfl
  · rename_i hguard
    simp only [not_or, not_not] at hguard
    exact .inr ⟨transfer, hlive, hguard.2.2.1, rfl⟩

/-- An upload is stored as a blob, to which its transfer then refers. -/
theorem storeUpload_cases (db : Database) (blobId : Uuid) (upload : PendingUpload) :
    (storeUpload db blobId upload).2 = db ∨
    ∃ stored blob, storeBlob db blobId upload.digest upload.mediaType upload.content
        = some (stored, blob)
      ∧ (storeUpload db blobId upload).2
        = stored.updateTransfers (fun row => row.id = upload.transferId)
            fun row => row.stored blob := by
  unfold storeUpload
  split
  · exact .inl rfl
  · rename_i stored blob hstored
    exact .inr ⟨stored, blob, hstored, rfl⟩

/-- Every step that is taken has an effect. -/
theorem step_effect {s t : System} {action : Action} (h : Step externals config s action t) :
    Effect externals config s action t.db := by
  -- an operation that finds nothing to do leaves the tables; every other has one effect
  have hsame : t.db = s.db → Effect externals config s action t.db := by
    intro heq
    rw [heq]
    exact .same action
  cases action with
  | reserveNext =>
    rcases reserveNext_cases h with
      ⟨admission, _, ⟨stage, _, rfl⟩ | ⟨reply, db, hanswered, rfl⟩⟩
    · exact hsame rfl
    · rcases reserveStatement_answered hanswered with ⟨heq, _⟩ | ⟨_, _, hinsert⟩
      · exact hsame heq
      · exact .inserted admission.command hinsert
  | pinProjectAssets jobId objectKeys =>
    rcases Option.bind_eq_some_iff.mp h with ⟨db, hpinned, hcommitted⟩
    rcases pinProjectAssets_frame hpinned with ⟨pins, heq⟩
    rw [committed_db hcommitted, heq]
    exact .pins _ pins
  | releaseProjectAssetPins jobId =>
    have hdb : t.db = s.db.deletePins jobId := committed_db h
    rw [hdb]
    exact .pins _ _
  | storePreparedInput jobId blobId input =>
    have hdb : t.db = (storePreparedInput s.db jobId blobId input).2 := committed_db h
    rcases storePreparedInput_cases s.db jobId blobId input with
      heq | ⟨job, stored, blob, hjob, hstate, _, hstored, heq⟩
    · exact hsame (hdb.trans heq)
    · rw [hdb, heq]
      exact .prepared jobId blobId input hjob hstate hstored
  | markPreparationFailed jobId code message now =>
    have hdb : t.db = markPreparationFailed s.db jobId code message now := committed_db h
    rw [hdb]
    exact .preparationFailed jobId code message now
  | cancelJob userId jobId now =>
    have hdb : t.db = (cancelJob s.db userId jobId now).2 := committed_db h
    rcases cancelJob_cases s.db userId jobId now with
      heq | ⟨job, hmem, rfl, ⟨_, heq⟩ | ⟨hrunning, heq⟩⟩
    · exact hsame (hdb.trans heq)
    · rw [hdb, heq]
      exact .cancelledWaiting userId job.id now
    · rw [hdb, heq]
      exact .cancelling userId now hmem hrunning
  | setWorkers sessions processors =>
    have hdb : t.db = { s.db with sessions := sessions, processors := processors } := by
      rw [← Option.some.inj h]
    rw [hdb]
    exact .workers sessions processors
  | tryClaim worker draw locked sessionId offers now =>
    have hdb : t.db
        = (tryClaim config externals.sha256 worker draw locked s.db sessionId offers now).2 :=
      committed_db h
    rcases @tryClaim_cases config externals.sha256 worker draw locked s.db sessionId offers now with
      heq | ⟨job, blob, contract, hmem, hstate, _, ⟨source, _, heq⟩ | ⟨hblob, hopen⟩⟩
    · exact hsame (hdb.trans heq)
    · rw [hdb, heq]
      exact .cacheHit _ contract source.id hstate
    -- no cached result: an attempt is opened
    rcases openClaim_cases hopen with ⟨hfresh, htransfer, heq⟩
    rw [hdb, heq]
    exact .claimed _ draw sessionId contract now hmem hstate hblob hfresh htransfer
      ⟨worker, locked, offers, rfl⟩
  | heartbeatClaim worker sessionId claimId phase now =>
    have hdb : t.db = (heartbeatClaim config worker s.db sessionId claimId phase now).2 :=
      committed_db h
    rcases @heartbeatClaim_cases config worker s.db sessionId claimId phase now with
      heq | ⟨attempt, job, hclaim, hholds, heq⟩
    · exact hsame (hdb.trans heq)
    by_cases hphase : phase = .processing ∨ phase = .uploadingResult
    · rcases claimOf_some hclaim with ⟨hattempt, rfl, hjob, howner⟩
      rw [hdb, heq]
      exact .renewed _ phase now hjob hattempt howner hholds
        ⟨worker, sessionId, rfl, hclaim, hphase⟩
    · -- a phase that no worker reports renews nothing
      rw [not_or] at hphase
      exact hsame (by rw [hdb, heartbeatClaim, if_pos hphase])
  | createArtifactTransfer worker id token request now =>
    have hdb : t.db
        = (createArtifactTransfer config externals.sha256 worker id token s.db request now).2 :=
      committed_db h
    rcases @createArtifactTransfer_cases config externals.sha256 worker id token s.db request now with
      heq | ⟨attempt, job, hclaim, hholds, hfresh, heq⟩
    · exact hsame (hdb.trans heq)
    · rcases claimOf_some hclaim with ⟨hattempt, hclaimId, hjob, howner⟩
      rw [hdb, heq]
      exact .issued _ id token request now hjob hattempt howner hclaimId hholds hfresh
  | downloadTransfer transferId token now =>
    have hdb : t.db = (downloadTransfer externals.sha256 s.db transferId token now).2 :=
      committed_db h
    rcases downloadTransfer_cases s.db transferId token now with
      heq | ⟨transfer, hlive, hdownload, heq⟩
    · exact hsame (hdb.trans heq)
    · rw [hdb, heq]
      obtain rfl := (liveTransfer_some hlive).2.1
      exact .read _ now hlive hdownload ⟨token, rfl⟩
  | storeUpload transferId blobId =>
    simp only [Step, step, finishUpload] at h
    split at h
    · simp at h
    rename_i upload hupload
    have hdb : t.db = (storeUpload s.db blobId upload).2 := committed_db h
    rcases storeUpload_cases s.db blobId upload with heq | ⟨stored, blob, hstored, heq⟩
    · exact hsame (hdb.trans heq)
    · rw [hdb, heq]
      exact .stored _ blobId upload (List.mem_of_find?_eq_some hupload) hstored ⟨transferId, rfl⟩
  | completeClaim worker sessionId claimId artifacts now =>
    have hdb : t.db = (completeClaim worker s.db sessionId claimId artifacts now).2 :=
      committed_db h
    rcases completeClaim_cases worker s.db sessionId claimId artifacts now with
      heq | ⟨attempt, job, hclaim, hholds, _, heq⟩
    · exact hsame (hdb.trans heq)
    · rcases claimOf_some hclaim with ⟨hattempt, rfl, hjob, howner⟩
      rw [hdb, heq]
      exact .delivered _ now hjob hattempt howner hholds
  | mutateFailedClaim worker sessionId claimId failure now =>
    have hdb : t.db = (mutateFailedClaim worker s.db sessionId claimId failure now).2 :=
      committed_db h
    rcases mutateFailedClaim_cases worker s.db sessionId claimId failure now with
      heq | ⟨attempt, job, hclaim, hstate, _, _, heq⟩
    · exact hsame (hdb.trans heq)
    · rcases claimOf_some hclaim with ⟨hattempt, rfl, hjob, howner⟩
      rw [hdb, heq]
      exact .givenUp _ failure now hjob hattempt howner hstate ⟨worker, sessionId, rfl⟩
  | maintainLifecycle locked now =>
    have hdb : t.db = maintainLifecycle locked s.db now := committed_db h
    rw [hdb]
    exact .tick locked now
  | acquireFinalizationLease finalizer jobId token now =>
    simp only [Step, step] at h
    split at h
    · simp at h
    rcases Option.bind_eq_some_iff.mp h with ⟨acquired, hacquired, hrest⟩
    rcases Option.map_eq_some_iff.mp hrest with ⟨s', hcommitted, heq⟩
    have hdb : s'.db = acquired.2 := committed_db hcommitted
    rcases acquireFinalizationLease_cases hacquired with ⟨job, hmem, rfl, hawaits, _, hleased⟩
    have hat : t.db = s'.db := by rw [← heq]; rfl
    rw [hat, hdb, hleased]
    exact .leased finalizer token now hmem hawaits
  | rejectArtifacts finalizer now =>
    simp only [Step, step] at h
    split at h
    · rename_i lease failure hfinalizer
      have hdb : t.db = rejectArtifacts s.db lease failure now := committed_db h
      rw [hdb]
      exact .rejected finalizer lease failure now hfinalizer
    · simp at h
  | commitPublication finalizer =>
    simp only [Step, step] at h
    split at h
    · rename_i publication hfinalizer
      split at h
      · rename_i db updated hpublish
        have hdb : t.db = db := committed_db h
        rw [hdb]
        exact .published finalizer publication hfinalizer hpublish
      · exact hsame (by rw [← Option.some.inj h]; rfl)
    · simp at h
  | reserveBegin | reserveAbort | checkUpload | abortUpload | loadStagedArtifacts
  | validateFinalization | lockFinalization | writePublication | stopFinalizer =>
    -- these steps stay outside the tables
    exact hsame (step_tables h rfl)
  | deleteJobs gone =>
    have hdb : t.db = deleteJobs s.db fun job => gone.contains job.id := committed_db h
    rw [hdb]
    exact .deletedJobs gone
  | deleteProject projectId =>
    have hdb : t.db = deleteProject s.db projectId := committed_db h
    rw [hdb]
    exact .deletedProject projectId

end Toss.Processing
