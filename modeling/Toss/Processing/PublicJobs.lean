import Toss.Processing.Effects

/-!
# Jobs as their requester reads them

`into_public`: the conversion takes every row, and shows a failure when the class, the code and
the message are all there. Each statement that ends a job writes the three, a release of the last
attempt apart: it ends the job as failed and has nothing to say.

* `JobRow.intoPublic`;
* `IsExplained` — a job that ended badly says why;
* `endsUnexplained` — the release of a last attempt;
* `bad_ends_are_explained`.
-/

namespace Toss.Processing

open Toss.Foundation

structure ProcessingFailure where
  failureClass : Text
  code : Text
  message : Text
deriving DecidableEq, Repr

structure ProcessingArtifact where
  id : Uuid
  role : Text
  mediaType : Text
  filename : Text
  sizeBytes : Int
  sha256 : Text
  downloadUrl : Text
deriving DecidableEq, Repr

structure ProcessingJob where
  id : Uuid
  operation : ProcessingOperation
  projectId : Option Uuid
  resultProjectId : Option Uuid
  state : ProcessingJobState
  phase : ProcessingPhase
  cancellationRequested : Bool
  attemptCount : Nat
  processorContract : Option Text
  failure : Option ProcessingFailure
  artifacts : List ProcessingArtifact
  createdAt : Timestamp
  completedAt : Option Timestamp
deriving DecidableEq, Repr

/-- The failure that a row shows. -/
def JobRow.failure (job : JobRow) : Option ProcessingFailure :=
  match job.failureClass, job.failureCode, job.failureMessage with
  | some failureClass, some code, some message => some ⟨failureClass, code, message⟩
  | _, _, _ => none

/-- An artifact of `into_public`; `formatUuid` is how an identifier is displayed. -/
def ArtifactRow.intoPublic (formatUuid : Uuid → Text) (artifact : ArtifactRow) :
    ProcessingArtifact where
  id := artifact.id
  role := artifact.role
  mediaType := artifact.mediaType
  filename := artifact.filename
  sizeBytes := artifact.sizeBytes
  sha256 := hexEncode artifact.sha256
  downloadUrl := "/v1/processing/jobs/".toList ++ formatUuid artifact.jobId ++ "/artifacts/".toList
    ++ formatUuid artifact.id

/-- `into_public`. -/
def JobRow.intoPublic (formatUuid : Uuid → Text) (job : JobRow) (artifacts : List ArtifactRow) :
    ProcessingJob where
  id := job.id
  operation := job.operation
  projectId := job.projectId
  resultProjectId := job.resultProjectId
  state := job.state
  phase := job.phase
  cancellationRequested := job.cancellationRequested
  attemptCount := job.attemptCount
  processorContract := job.processorContract
  failure := job.failure
  artifacts := artifacts.map (ArtifactRow.intoPublic formatUuid)
  createdAt := job.createdAt
  completedAt := job.completedAt

/-! ## Explained jobs -/

def JobRow.endedBadly (job : JobRow) : Prop :=
  job.state = .failed ∨ job.state = .expired

/-- A job that ended badly has the three columns of a failure. -/
def IsExplained (job : JobRow) : Prop :=
  job.endedBadly → ∃ failureClass code message, job.failureClass = some failureClass
    ∧ job.failureCode = some code ∧ job.failureMessage = some message

def Explained (db : Database) : Prop :=
  ∀ job ∈ db.jobs, IsExplained job

variable {job : JobRow} {db : Database}

theorem isExplained_of_state (hfailed : job.state ≠ .failed)
    (hexpired : job.state ≠ .expired) : IsExplained job := by
  rintro (h | h)
  · exact absurd h hfailed
  · exact absurd h hexpired

theorem isExplained_ended (job : JobRow) (state : ProcessingJobState) (now : Timestamp)
    (failure : Text × Text × Text) : IsExplained (job.ended state now (some failure)) :=
  fun _ => ⟨failure.1, failure.2.1, failure.2.2, rfl, rfl, rfl⟩

/-- A claim that is over leaves a job explained, when it says why the job ended badly. -/
theorem isExplained_unclaimed {state : ProcessingJobState}
    {now nextAttemptAt : Timestamp} {failure : Option (Text × Text × Text)}
    (h : state = .failed ∨ state = .expired → failure.isSome = true) :
    IsExplained (job.unclaimed state now nextAttemptAt failure) := by
  intro hbad
  rcases Option.isSome_iff_exists.mp (h hbad) with ⟨texts, rfl⟩
  exact ⟨texts.1, texts.2.1, texts.2.2, rfl, rfl, rfl⟩

theorem IsExplained.congr {job job' : JobRow} (h : IsExplained job) (hstate : job'.state = job.state)
    (hclass : job'.failureClass = job.failureClass) (hcode : job'.failureCode = job.failureCode)
    (hmessage : job'.failureMessage = job.failureMessage) : IsExplained job' := by
  intro hbad
  rw [hclass, hcode, hmessage]
  refine h ?_
  rw [JobRow.endedBadly, ← hstate]
  exact hbad

theorem Explained.update (h : Explained db) {cond : JobRow → Bool} {set : JobRow → JobRow}
    (hset : ∀ job ∈ db.jobs, cond job = true → IsExplained job → IsExplained (set job)) :
    Explained (db.updateJobs cond set) := by
  intro job' hjob'
  rcases mem_updateWhere.mp hjob' with ⟨job, hjob, ⟨hcond, rfl⟩ | ⟨_, rfl⟩⟩
  · exact hset job hjob hcond (h job hjob)
  · exact h _ hjob

theorem Explained.of_jobs {db db' : Database} (h : Explained db) (hjobs : db'.jobs = db.jobs) :
    Explained db' := by
  intro job hjob
  rw [hjobs] at hjob
  exact h job hjob

/-! ## Statements -/

theorem storeBlob_jobs {db stored : Database} {id blobId : Uuid} {digest : Bytes}
    {mediaType : Text} {content : Bytes}
    (h : storeBlob db id digest mediaType content = some (stored, blobId)) :
    stored.jobs = db.jobs := by
  rcases storeBlob_cases h with ⟨blobs, rfl⟩
  rfl

theorem Explained.expireClaim (h : Explained db) (now : Timestamp) (job : JobRow) :
    Explained (expireClaim now db job) := by
  have hlost : ∀ {lost : Database}, lost.jobs = db.jobs → Explained (lost.updateJobs
      (fun row => row.id = job.id) fun row => row.unclaimed (expiredClaimState job now).1 now
        (now + processingRetryDelay job.attemptCount) (expiredClaimState job now).2) := by
    intro lost hjobs
    refine (h.of_jobs hjobs).update fun row _ _ _ => isExplained_unclaimed ?_
    unfold expiredClaimState
    split
    · simp
    split
    · simp
    · split
      · exact fun _ => rfl
      · exact fun _ => rfl
  unfold Processing.expireClaim
  rcases job.currentClaimId with _ | claimId
  · exact hlost rfl
  · exact hlost rfl

theorem Explained.foldl_expireClaim {now : Timestamp} (jobs : List JobRow)
    (h : Explained db) : Explained (jobs.foldl (Processing.expireClaim now) db) :=
  List.foldlRecOn jobs _ h fun _ hbetween job _ => hbetween.expireClaim now job

theorem Explained.deleteJobs (h : Explained db) (gone : JobRow → Bool) :
    Explained (deleteJobs db gone) := by
  intro job' hjob'
  rcases mem_updateWhere.mp hjob' with ⟨job, hjob, ⟨_, rfl⟩ | ⟨_, rfl⟩⟩
  · exact (h job (List.mem_filter.mp hjob).1).congr rfl rfl rfl rfl
  · exact h _ (List.mem_filter.mp hjob).1

theorem Explained.maintainLifecycle (h : Explained db) (locked : List Uuid)
    (now : Timestamp) : Explained (maintainLifecycle locked db now) := by
  have hsessions : Explained (expireSessions db now) := h.of_jobs rfl
  have hclaims : Explained ((overdueJobs (expireSessions db now) locked now).foldl
      (Processing.expireClaim now) (expireSessions db now)) := hsessions.foldl_expireClaim _
  unfold Processing.maintainLifecycle
  dsimp only
  generalize (overdueJobs (expireSessions db now) locked now).foldl (Processing.expireClaim now)
    (expireSessions db now) = db₁ at hclaims ⊢
  have hqueue : Explained (expireQueue db₁ now) :=
    hclaims.update fun job _ _ _ => isExplained_ended job .expired now queueExpired
  have htransfers : Explained (expireTransfers (releaseEndedPins (expireQueue db₁ now)) now) :=
    hqueue.of_jobs rfl
  exact (htransfers.deleteJobs _).of_jobs rfl

theorem Explained.publish {db db' : Database} (h : Explained db) {publication : Publication}
    {updated : Bool} (hpublish : publish db publication = some (db', updated)) : Explained db' := by
  have hsucceeded : Explained (db.updateJobs publication.lease.owns fun job =>
      job.succeeded (publication.graph.map ProjectGraph.projectId) publication.now) := by
    refine h.update fun job _ _ _ => isExplained_of_state ?_ ?_
    · simp [JobRow.succeeded]
    · simp [JobRow.succeeded]
  exact hsucceeded.of_jobs (publish_frame hpublish).1

/-! ## Steps -/

/-- A worker releases its claim on the last attempt of a job that nobody cancelled. -/
def endsUnexplained (db : Database) : Action → Bool
  | .mutateFailedClaim worker sessionId claimId none now =>
    (db.claimOf worker sessionId claimId).any fun found =>
      found.1.state ≠ .failed && found.1.state ≠ .released && found.2.state = .running
        && found.2.currentClaimId = some claimId && decide (now < found.1.leaseExpiresAt)
        && !found.2.cancellationRequested && decide (found.2.maxAttempts ≤ found.2.attemptCount)
  | _ => false

theorem failedClaimState_bad {failure : Option ClaimFailure}
    (h : failedClaimState job failure = .failed ∨ failedClaimState job failure = .expired) :
    failedClaimState job failure = .failed := by
  rcases h with h | h
  · exact h
  rcases failedClaimState_cases job failure with ⟨_, heq⟩ | ⟨_, _, heq⟩ | ⟨_, heq⟩
  · rw [heq] at h; cases h
  · rw [heq] at h; cases h
  · exact heq

/-- A release ends a job as failed when it was the last attempt. -/
theorem failedClaimState_none :
    failedClaimState job none = .failed
      ↔ job.cancellationRequested = false ∧ job.maxAttempts ≤ job.attemptCount := by
  unfold failedClaimState
  split
  · next hflag => simp [hflag]
  rename_i hflag
  rw [Bool.not_eq_true] at hflag
  split
  · next hretry =>
    simp only [Option.all_none, Bool.true_and, decide_eq_true_eq] at hretry
    simp [hretry]
  · next hretry =>
    simp only [Option.all_none, Bool.true_and, decide_eq_true_eq] at hretry
    exact ⟨fun _ => ⟨hflag, not_lt.mp hretry⟩, fun _ => rfl⟩

/-- What a worker gives up is explained, the release of a last attempt apart. -/
theorem Explained.mutateFailedClaim (h : Explained db)
    (worker : AuthenticatedWorker) (sessionId claimId : Uuid) (failure : Option ClaimFailure)
    (now : Timestamp)
    (hguard : endsUnexplained db (.mutateFailedClaim worker sessionId claimId failure now) = false) :
    Explained (mutateFailedClaim worker db sessionId claimId failure now).2 := by
  unfold Processing.mutateFailedClaim
  split
  · exact h
  rename_i attempt job hclaim
  split
  · exact h
  rename_i hreplay
  split
  · exact h
  rename_i hlost
  simp only [ne_eq, not_or, not_not, Int.not_le] at hlost
  rw [not_or] at hreplay
  have hclosed : Explained (db.updateAttempts (fun row => row.id = attempt.id) fun row =>
      row.closed (if failure.isSome then .failed else .released)
        (failure.map ClaimFailure.texts)) := h.of_jobs rfl
  refine hclosed.update fun row _ _ _ => isExplained_unclaimed fun hbad => ?_
  have hfailed := failedClaimState_bad hbad
  rw [if_pos hfailed, Option.isSome_map]
  cases failure with
  | some failure => rfl
  | none =>
    have hlast := failedClaimState_none.mp hfailed
    rw [endsUnexplained, hclaim] at hguard
    simp [hreplay.1, hreplay.2, hlost.1, hlost.2.1, hlost.2.2, hlast.1, hlast.2] at hguard

variable {externals : Externals} {config : ProcessingConfig}

/-- A step keeps jobs explained unless it releases a last attempt. -/
theorem step_explained {s t : System} {action : Action} (h : Explained s.db)
    (hguard : endsUnexplained s.db action = false) (hstep : Step externals config s action t) :
    Explained t.db := by
  have hcases : ∀ db, Effect externals config s action db → t.db = db → Explained db := by
    intro db heffect hdb
    cases heffect with
    | inserted command hinsert =>
      -- only an ending has to be explained, and a new job has not ended
      intro job hjob
      rw [(insertJob_cases hinsert).2] at hjob
      rcases List.mem_append.mp hjob with hold | hnew
      · exact h job hold
      rw [List.mem_singleton.mp hnew]
      refine isExplained_of_state ?_ ?_
      · simp [ReserveJob.row]
      · simp [ReserveJob.row]
    | prepared jobId blobId input _ _ hstored =>
      refine Explained.of_jobs (Explained.update (h.of_jobs (storeBlob_jobs hstored))
        fun row _ _ _ => isExplained_of_state ?_ ?_) rfl
      · simp [JobRow.prepared]
      · simp [JobRow.prepared]
    | preparationFailed jobId code message now =>
      have hfailed : Explained (s.db.updateJobs (fun row => row.id = jobId && row.state = .preparing)
          fun row => row.ended .failed now (some ("internal".toList, code, message))) :=
        h.update fun row _ _ _ => isExplained_ended row .failed now _
      exact hfailed.of_jobs rfl
    | cancelledWaiting userId jobId now =>
      have hcancelled : Explained (s.db.updateJobs (fun row => row.id = jobId)
          fun row => row.cancelledWaiting now) := by
        refine h.update fun row _ _ _ => isExplained_of_state ?_ ?_
        · simp [JobRow.cancelledWaiting]
        · simp [JobRow.cancelledWaiting]
      exact hcancelled.of_jobs rfl
    | cancelling | leased => exact h.update fun row _ _ hrow => hrow.congr rfl rfl rfl rfl
    | cacheHit =>
      refine h.update fun row _ _ _ => isExplained_of_state ?_ ?_
      · simp [JobRow.cacheHitOf]
      · simp [JobRow.cacheHitOf]
    | @claimed job _ _ draw _ contract now =>
      have hclaimed : Explained (s.db.updateJobs (fun row => row.id = job.id) fun row =>
          row.claimed job.nextAttempt draw.claimId (now + config.claimLease) contract) := by
        refine h.update fun row _ _ _ => isExplained_of_state ?_ ?_
        · simp [JobRow.claimed]
        · simp [JobRow.claimed]
      exact hclaimed.of_jobs rfl
    | renewed =>
      exact Explained.update (h.of_jobs rfl) fun row _ _ hrow => hrow.congr rfl rfl rfl rfl
    | stored _ blobId upload _ hstored => exact (h.of_jobs (storeBlob_jobs hstored)).of_jobs rfl
    | delivered =>
      refine Explained.update (h.of_jobs rfl) fun row _ _ _ => isExplained_of_state ?_ ?_
      · simp [JobRow.delivered]
      · simp [JobRow.delivered]
    | @givenUp _ attempt _ failure now _ _ _ _ haction =>
      -- the guard is on the failure that the worker reports
      rcases haction with ⟨worker, sessionId, rfl⟩
      rw [← hdb, committed_db hstep]
      exact h.mutateFailedClaim worker sessionId attempt.claimId failure now hguard
    | tick locked now => exact h.maintainLifecycle locked now
    | rejected finalizer lease failure now =>
      exact h.update fun row _ _ _ => (isExplained_ended row .failed now _).congr rfl rfl rfl rfl
    | published finalizer publication _ hpublish => exact h.publish hpublish
    | deletedJobs gone => exact h.deleteJobs _
    | deletedProject projectId =>
      have hdetached : Explained ((deleteJobs s.db fun job => job.projectId = some projectId).updateJobs
          (fun job => job.resultProjectId = some projectId)
          fun job => { job with resultProjectId := none }) :=
        (h.deleteJobs _).update fun row _ _ hrow => hrow.congr rfl rfl rfl rfl
      exact hdetached.of_jobs rfl
    | _ => exact h.of_jobs rfl
  exact hcases t.db (step_effect hstep) rfl

/-- A step that releases a last attempt leaves its job failed, with nothing to say. -/
theorem step_unexplained {s t : System} {action : Action}
    (hguard : endsUnexplained s.db action = true) (hstep : Step externals config s action t) :
    ∃ job ∈ t.db.jobs, job.state = .failed ∧ job.failure = none := by
  unfold endsUnexplained at hguard
  split at hguard
  · next worker sessionId claimId now =>
    rcases (Option.any_eq_true_iff_get _ _).mp hguard with ⟨hsome, hfound⟩
    rcases Option.isSome_iff_exists.mp hsome with ⟨⟨attempt, job⟩, hclaim⟩
    simp only [hclaim, Option.get_some, Bool.and_eq_true, decide_eq_true_eq, ne_eq,
      Bool.not_eq_true'] at hfound
    rcases hfound with ⟨⟨⟨⟨⟨⟨hfailed, hreleased⟩, hstate⟩, hcurrent⟩, hlease⟩, hflag⟩, hlast⟩
    have hnext : failedClaimState job none = .failed := failedClaimState_none.mpr ⟨hflag, hlast⟩
    refine ⟨job.unclaimed .failed now (now + processingRetryDelay job.attemptCount) none, ?_, rfl,
      rfl⟩
    rw [committed_db hstep, mutateFailedClaim, hclaim]
    dsimp only
    rw [if_neg (by rw [not_or]; exact ⟨hfailed, hreleased⟩),
      if_neg (by rw [not_or, not_or, not_not, not_not, not_le]; exact ⟨hstate, hcurrent, hlease⟩),
      hnext]
    exact mem_updateWhere.mpr ⟨job, (claimOf_some hclaim).2.2.1, .inl ⟨decide_eq_true rfl, rfl⟩⟩
  · cases hguard

/-- In a run without the release of a last attempt, a job that failed or expired has a failure
class, code and message, and its requester reads them. A release of a last attempt ends its job
as failed without them. -/
theorem bad_ends_are_explained (formatUuid : Uuid → Text) {actions : List Action} {s : System}
    (hrun : Run (Guarded (fun s action => endsUnexplained s.db action = false)
      (Step externals config)) {} actions s) :
    (∀ job ∈ s.db.jobs, job.state = .failed ∨ job.state = .expired →
      ∃ failureClass code message, job.failureClass = some failureClass
        ∧ job.failureCode = some code ∧ job.failureMessage = some message
        ∧ ∀ artifacts, (job.intoPublic formatUuid artifacts).failure
          = some ⟨failureClass, code, message⟩)
    ∧ ∀ action t, endsUnexplained s.db action = true → Step externals config s action t →
      ∃ job ∈ t.db.jobs, job.state = .failed
        ∧ ∀ artifacts, (job.intoPublic formatUuid artifacts).failure = none := by
  have hexplained : Explained s.db := by
    refine hrun.invariant_of_guard (I := fun s => Explained s.db) ?_ ?_
    · intro s action t h hguard hstep
      exact step_explained h hguard hstep
    · exact fun job hjob => absurd hjob List.not_mem_nil
  constructor
  · intro job hjob hbad
    rcases hexplained job hjob hbad with ⟨failureClass, code, message, hclass, hcode, hmessage⟩
    refine ⟨failureClass, code, message, hclass, hcode, hmessage, fun artifacts => ?_⟩
    rw [JobRow.intoPublic, JobRow.failure, hclass, hcode, hmessage]
  · intro action t hguard hstep
    rcases step_unexplained hguard hstep with ⟨job, hjob, hstate, hfailure⟩
    exact ⟨job, hjob, hstate, fun artifacts => hfailure⟩

/-- Three workers take a job and release it again; the last does so after three attempts. -/
def releasedRun : List Action :=
  sampleClaim 1 ['k'] ⟨30, 31, 32, []⟩
    ++ [.mutateFailedClaim sampleWorker 20 31 none (seconds 2),
      .tryClaim sampleWorker ⟨40, 41, 42, []⟩ [] 20 [⟨.latexCompilePdfV1, ['c'], 1⟩] (seconds 5),
      .mutateFailedClaim sampleWorker 20 41 none (seconds 6),
      .tryClaim sampleWorker ⟨50, 51, 52, []⟩ [] 20 [⟨.latexCompilePdfV1, ['c'], 1⟩] (seconds 9),
      .mutateFailedClaim sampleWorker 20 51 none (seconds 10)]

theorem released_job_says_nothing :
    ∃ actions s, Run (Step sampleExternals .default) {} actions s
      ∧ ∃ job ∈ s.db.jobs, job.state = .failed ∧ job.failureClass = none
        ∧ job.failureCode = none ∧ job.failureMessage = none := by
  have hsome : (exec (step sampleExternals .default) {} releasedRun).isSome = true := by
    decide +kernel
  refine ⟨releasedRun, (exec (step sampleExternals .default) {} releasedRun).getD {},
    exec_run (eq_some_getD hsome {}), ?_⟩
  decide +kernel

/-- A worker gives a job up that it cannot process. -/
def rejectedRun : List Action :=
  sampleClaim 1 ['k'] ⟨30, 31, 32, []⟩
    ++ [.mutateFailedClaim sampleWorker 20 31 (some ⟨.processorRejected, ['c'], ['m']⟩) (seconds 2)]

theorem bad_ends_are_explained_when_rejected :
    ∃ s, Run (Guarded (fun s action => endsUnexplained s.db action = false)
        (Step sampleExternals .default)) {} rejectedRun s
      ∧ ∃ job ∈ s.db.jobs, job.state = .failed ∧ ∃ failureClass code message,
        (job.intoPublic (fun _ => []) []).failure = some ⟨failureClass, code, message⟩ := by
  have hsome : (exec (fun s action => if endsUnexplained s.db action = false then
      step sampleExternals .default s action else none) {} rejectedRun).isSome = true := by
    decide +kernel
  have hrun : Run (Guarded (fun s action => endsUnexplained s.db action = false)
      (Step sampleExternals .default)) {} rejectedRun
      ((exec (fun s action => if endsUnexplained s.db action = false then
        step sampleExternals .default s action else none) {} rejectedRun).getD {}) :=
    exec_guarded_run (eq_some_getD hsome {})
  have hfailed : ∃ job ∈ ((exec (fun s action => if endsUnexplained s.db action = false then
      step sampleExternals .default s action else none) {} rejectedRun).getD {}).db.jobs,
      job.state = .failed := by decide +kernel
  rcases hfailed with ⟨job, hjob, hstate⟩
  rcases (bad_ends_are_explained (fun _ => []) hrun).1 job hjob (.inl hstate) with
    ⟨failureClass, code, message, _, _, _, hpublic⟩
  exact ⟨_, hrun, job, hjob, hstate, failureClass, code, message, hpublic []⟩

end Toss.Processing
