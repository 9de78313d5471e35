import Toss.Processing.System

/-!
# What a statement can do to a job

Every statement of document processing moves each job it finds, with the
attempts of that job, along one edge of `JobMove`, or leaves both alone; the
only other thing that happens to `processing_jobs` is the insert of an admitted
job. The invariants of jobs are proved on `JobMove`, once for all statements.

* `JobMove` — the edges;
* `Moved` — a statement that moves jobs and keeps the keys of the tables;
* `…_moved` — each statement of the source is one.
-/

namespace Toss.Processing

open Toss.Foundation

/-- An edge of the job state machine: a job and its attempts, before and after. -/
inductive JobMove (config : ProcessingConfig) :
    JobRow → List AttemptRow → JobRow → List AttemptRow → Prop
  | same (job : JobRow) (attempts : List AttemptRow) : JobMove config job attempts job attempts
  | prepared {job : JobRow} {attempts : List AttemptRow} (input : PreparedInput) (blobId : Uuid)
      (hstate : job.state = .preparing) (hflag : job.cancellationRequested = false) :
      JobMove config job attempts (job.prepared input blobId) attempts
  | waitingEnded {job : JobRow} {attempts : List AttemptRow} (state : ProcessingJobState)
      (now : Timestamp) (failure : Option (Text × Text × Text))
      (hwaiting : job.state = .preparing ∨ job.state = .queued)
      (hstate : state = .failed ∨ state = .expired) :
      JobMove config job attempts (job.ended state now failure) attempts
  | cancelledWaiting {job : JobRow} {attempts : List AttemptRow} (now : Timestamp)
      (hwaiting : job.state = .preparing ∨ job.state = .queued) :
      JobMove config job attempts (job.cancelledWaiting now) attempts
  | cancelling {job : JobRow} {attempts : List AttemptRow} (hstate : job.state = .running) :
      JobMove config job attempts job.cancelling attempts
  | cacheHit {job : JobRow} {attempts : List AttemptRow} (processorContract : Text) (source : Uuid)
      (hstate : job.state = .queued) (hflag : job.cancellationRequested = false) :
      JobMove config job attempts (job.cacheHitOf processorContract source) attempts
  | claimed {job : JobRow} {attempts : List AttemptRow} (draw : ClaimDraw) (sessionId : Uuid)
      (processorContract : Text) (now : Timestamp) (hstate : job.state = .queued)
      (hflag : job.cancellationRequested = false) :
      JobMove config job attempts
        (job.claimed job.nextAttempt draw.claimId (now + config.claimLease) processorContract)
        (attempts ++ [job.openedAttempt config draw sessionId processorContract now])
  | renewed {job : JobRow} {attempts : List AttemptRow} (attempt : AttemptRow)
      (phase : ProcessingPhase) (now : Timestamp) (hmem : attempt ∈ attempts)
      (hholds : holdsClaim job attempt attempt.claimId now = true) :
      JobMove config job attempts (job.renewed phase (renewedLease config job attempt now))
        (updateWhere (fun row => row.id = attempt.id)
          (fun row => row.renewed phase (renewedLease config job attempt now)) attempts)
  | delivered {job : JobRow} {attempts : List AttemptRow} (attempt : AttemptRow) (now : Timestamp)
      (hmem : attempt ∈ attempts) (hholds : holdsClaim job attempt attempt.claimId now = true)
      (hflag : job.cancellationRequested = false) :
      JobMove config job attempts job.delivered
        (updateWhere (fun row => row.id = attempt.id) AttemptRow.delivered attempts)
  | givenUp {job : JobRow} {attempts : List AttemptRow} (attempt : AttemptRow)
      (failure : Option ClaimFailure) (state : AttemptState)
      (texts jobTexts : Option (Text × Text × Text)) (now nextAttemptAt : Timestamp)
      (hmem : attempt ∈ attempts) (hstate : job.state = .running)
      (hclaim : job.currentClaimId = some attempt.claimId)
      (hclosed : state = .failed ∨ state = .released) :
      JobMove config job attempts
        (job.unclaimed (failedClaimState job failure) now nextAttemptAt jobTexts)
        (updateWhere (fun row => row.id = attempt.id) (fun row => row.closed state texts) attempts)
  | lost {job : JobRow} {attempts : List AttemptRow} (claimId : Uuid) (now nextAttemptAt : Timestamp)
      (hstate : job.state = .running) (hclaim : job.currentClaimId = some claimId) :
      JobMove config job attempts
        (job.unclaimed (expiredClaimState job now).1 now nextAttemptAt
          (expiredClaimState job now).2)
        (updateWhere (fun row => row.claimId = claimId && row.state = .running)
          (fun row => row.closed .lost (some claimExpired)) attempts)
  | leased {job : JobRow} {attempts : List AttemptRow} (token : Uuid) (expiresAt : Timestamp)
      (hstate : job.state = .finalizing) :
      JobMove config job attempts (job.leased token expiresAt) attempts
  | succeeded {job : JobRow} {attempts : List AttemptRow} (resultProjectId : Option Uuid)
      (now : Timestamp) (hstate : job.state = .finalizing) :
      JobMove config job attempts (job.succeeded resultProjectId now) attempts
  | rejected {job : JobRow} {attempts : List AttemptRow} (failure : Option (Text × Text × Text))
      (now : Timestamp) (hstate : job.state = .finalizing) :
      JobMove config job attempts
        { job.ended .failed now failure with
          finalizationToken := none
          finalizationExpiresAt := none } attempts
  | detached {job : JobRow} {attempts : List AttemptRow} (source result : Option Uuid)
      (hsource : source = none ∨ source = job.cacheSourceJobId)
      (hresult : result = none ∨ result = job.resultProjectId) :
      JobMove config job attempts
        { job with
          cacheSourceJobId := source
          resultProjectId := result } attempts

/-- The columns that a job is admitted with and keeps. -/
structure SameJob (job job' : JobRow) : Prop where
  id : job'.id = job.id
  requesterUserId : job'.requesterUserId = job.requesterUserId
  projectId : job'.projectId = job.projectId
  idempotency : job'.idempotency = job.idempotency
  commandDigest : job'.commandDigest = job.commandDigest
  operation : job'.operation = job.operation
  maxAttempts : job'.maxAttempts = job.maxAttempts

variable {config : ProcessingConfig}

theorem JobMove.sameJob {job job' : JobRow} {attempts attempts' : List AttemptRow}
    (h : JobMove config job attempts job' attempts') : SameJob job job' := by
  cases h <;> exact ⟨rfl, rfl, rfl, rfl, rfl, rfl, rfl⟩

/-! ## Keys -/

/-- The keys and references of the tables. -/
structure WellKeyed (db : Database) : Prop where
  jobs : (db.jobs.map JobRow.id).Nodup
  attempts : (db.attempts.map AttemptRow.id).Nodup
  claims : (db.attempts.map AttemptRow.claimId).Nodup
  owned : ∀ attempt ∈ db.attempts, ∃ job ∈ db.jobs, job.id = attempt.jobId

/-- A statement that moves the jobs it finds, may delete some, and inserts none. -/
structure Moved (config : ProcessingConfig) (db db' : Database) : Prop where
  keyed : WellKeyed db'
  ids : (db'.jobs.map JobRow.id).Sublist (db.jobs.map JobRow.id)
  job : ∀ job' ∈ db'.jobs, ∃ job ∈ db.jobs,
    JobMove config job (db.attemptsOf job.id) job' (db'.attemptsOf job'.id)

/-- Any number of such statements. -/
abbrev Moves (config : ProcessingConfig) : Database → Database → Prop :=
  Relation.ReflTransGen (Moved config)

variable {attempt : AttemptRow}

namespace WellKeyed

variable {db : Database}

theorem job_eq (hkeys : WellKeyed db) {job row : JobRow} (hjob : job ∈ db.jobs)
    (hrow : row ∈ db.jobs) (hid : row.id = job.id) : row = job :=
  List.inj_on_of_nodup_map hkeys.jobs hrow hjob hid

variable {row : AttemptRow}

theorem attempt_eq (hkeys : WellKeyed db) (hattempt : attempt ∈ db.attempts)
    (hrow : row ∈ db.attempts) (hid : row.id = attempt.id) : row = attempt :=
  List.inj_on_of_nodup_map hkeys.attempts hrow hattempt hid

theorem claim_eq (hkeys : WellKeyed db) (hattempt : attempt ∈ db.attempts)
    (hrow : row ∈ db.attempts) (hid : row.claimId = attempt.claimId) : row = attempt :=
  List.inj_on_of_nodup_map hkeys.claims hrow hattempt hid

/-- Tables with the same keys are as well keyed. -/
theorem congr {db' : Database} (hkeys : WellKeyed db)
    (hjobs : db'.jobs.map JobRow.id = db.jobs.map JobRow.id)
    (hattempts : db'.attempts.map AttemptRow.id = db.attempts.map AttemptRow.id)
    (hclaims : db'.attempts.map AttemptRow.claimId = db.attempts.map AttemptRow.claimId)
    (howners : db'.attempts.map AttemptRow.jobId = db.attempts.map AttemptRow.jobId) :
    WellKeyed db' where
  jobs := by rw [hjobs]; exact hkeys.jobs
  attempts := by rw [hattempts]; exact hkeys.attempts
  claims := by rw [hclaims]; exact hkeys.claims
  owned := by
    intro attempt hattempt
    have howner : attempt.jobId ∈ db.attempts.map AttemptRow.jobId := by
      rw [← howners]
      exact List.mem_map_of_mem hattempt
    rcases List.mem_map.mp howner with ⟨old, hold, holdId⟩
    rcases hkeys.owned old hold with ⟨job, hjob, hid⟩
    have hids : job.id ∈ db'.jobs.map JobRow.id := by
      rw [hjobs]
      exact List.mem_map_of_mem hjob
    rcases List.mem_map.mp hids with ⟨job', hjob', hid'⟩
    exact ⟨job', hjob', by rw [hid', hid, holdId]⟩

end WellKeyed

theorem mem_attemptsOf {db : Database} {jobId : Uuid} :
    attempt ∈ db.attemptsOf jobId ↔ attempt ∈ db.attempts ∧ attempt.jobId = jobId := by
  simp [Database.attemptsOf]

variable {job : JobRow} {set : JobRow → JobRow}

theorem job?_some {db : Database} {id : Uuid} (h : db.job? id = some job) :
    job ∈ db.jobs ∧ job.id = id :=
  ⟨List.mem_of_find?_eq_some h, by simpa using List.find?_some h⟩

/-- A row that is there is found by its key. -/
theorem find?_of_key {db : Database} (hkeys : (db.jobs.map JobRow.id).Nodup)
    (hjob : job ∈ db.jobs) {id : Uuid} (hid : job.id = id) : db.job? id = some job := by
  have hthere : (db.job? id).isSome = true :=
    List.find?_isSome.mpr ⟨job, hjob, decide_eq_true hid⟩
  rcases Option.isSome_iff_exists.mp hthere with ⟨found, hsome⟩
  rcases job?_some hsome with ⟨hmem, hfoundId⟩
  rw [hsome, List.inj_on_of_nodup_map hkeys hmem hjob (hfoundId.trans hid.symm)]

/-- The attempts of a job after an update of attempts that keeps their job. -/
theorem attemptsOf_updateWhere {db db' : Database} {cond : AttemptRow → Bool}
    {set : AttemptRow → AttemptRow} (hset : ∀ row, (set row).jobId = row.jobId)
    (hattempts : db'.attempts = updateWhere cond set db.attempts) (jobId : Uuid) :
    db'.attemptsOf jobId = updateWhere cond set (db.attemptsOf jobId) := by
  rw [Database.attemptsOf, hattempts, filter_updateWhere]
  · rfl
  · intro row
    rw [hset]

/-! ## Statements that update rows -/

variable {attemptSet : AttemptRow → AttemptRow}

/-- An update of jobs by their identifier with an update of attempts: the jobs it
finds move, and it leaves the attempts of other jobs alone. -/
theorem Moved.of_update {db db' : Database} (hkeys : WellKeyed db) {cond : JobRow → Bool}
    {attemptCond : AttemptRow → Bool} (hjobs : db'.jobs = updateWhere cond set db.jobs)
    (hattempts : db'.attempts = updateWhere attemptCond attemptSet db.attempts)
    (hid : ∀ row, (set row).id = row.id)
    (hkept : ∀ row, (attemptSet row).id = row.id ∧ (attemptSet row).claimId = row.claimId
      ∧ (attemptSet row).jobId = row.jobId) (hmove : ∀ job ∈ db.jobs, cond job = true →
      JobMove config job (db.attemptsOf job.id) (set job)
        (updateWhere attemptCond attemptSet (db.attemptsOf job.id)))
    (hframe : ∀ job ∈ db.jobs, cond job = false →
      ∀ attempt ∈ db.attemptsOf job.id, attemptCond attempt = false) : Moved config db db' := by
  have hids : db'.jobs.map JobRow.id = db.jobs.map JobRow.id := by
    rw [hjobs]
    exact map_updateWhere (fun row _ => hid row) db.jobs
  constructor
  · refine hkeys.congr hids ?_ ?_ ?_
    · rw [hattempts]
      exact map_updateWhere (fun row _ => (hkept row).1) db.attempts
    · rw [hattempts]
      exact map_updateWhere (fun row _ => (hkept row).2.1) db.attempts
    · rw [hattempts]
      exact map_updateWhere (fun row _ => (hkept row).2.2) db.attempts
  · rw [hids]
  · intro job' hjob'
    rw [hjobs] at hjob'
    rcases mem_updateWhere.mp hjob' with ⟨job, hjob, ⟨hcond, heq⟩ | ⟨hcond, heq⟩⟩
    · refine ⟨job, hjob, ?_⟩
      have hsame : job'.id = job.id := by rw [heq, hid]
      rw [hsame, attemptsOf_updateWhere (fun row => (hkept row).2.2) hattempts, heq]
      exact hmove job hjob hcond
    · refine ⟨job, hjob, ?_⟩
      rw [heq, attemptsOf_updateWhere (fun row => (hkept row).2.2) hattempts,
        updateWhere_eq_self (hframe job hjob hcond)]
      exact .same job _

/-- A statement that updates jobs only. -/
theorem Moved.of_jobs {db db' : Database} (hkeys : WellKeyed db) {cond : JobRow → Bool}
    (hjobs : db'.jobs = updateWhere cond set db.jobs)
    (hattempts : db'.attempts = db.attempts) (hid : ∀ row, (set row).id = row.id)
    (hmove : ∀ job ∈ db.jobs, cond job = true →
      JobMove config job (db.attemptsOf job.id) (set job) (db.attemptsOf job.id)) :
    Moved config db db' := by
  have hnone : ∀ rows : List AttemptRow, updateWhere (fun _ => false) id rows = rows :=
    fun rows => updateWhere_eq_self fun _ _ => rfl
  have hkept : db'.attempts = updateWhere (fun _ => false) id db.attempts := by
    rw [hnone, hattempts]
  refine Moved.of_update hkeys hjobs hkept hid (fun row => ⟨rfl, rfl, rfl⟩) ?_
    (fun _ _ _ _ _ => rfl)
  intro job hjob hcond
  rw [hnone]
  exact hmove job hjob hcond

/-- A statement on other tables. -/
theorem Moved.of_frame {db db' : Database} (hkeys : WellKeyed db) (hjobs : db'.jobs = db.jobs)
    (hattempts : db'.attempts = db.attempts) : Moved config db db' := by
  have hkept : db'.jobs = updateWhere (fun _ => false) id db.jobs := by
    rw [hjobs, updateWhere_eq_self fun _ _ => rfl]
  refine Moved.of_jobs hkeys hkept hattempts (fun _ => rfl) ?_
  intro job _ hcond
  simp at hcond

/-- An update of the job that a call found. -/
theorem Moved.of_job {db db' : Database} (hkeys : WellKeyed db) (hjob : job ∈ db.jobs)
    (hjobs : db'.jobs = updateWhere (fun row => row.id = job.id) set db.jobs)
    (hattempts : db'.attempts = db.attempts) (hid : ∀ row, (set row).id = row.id)
    (hmove : JobMove config job (db.attemptsOf job.id) (set job) (db.attemptsOf job.id)) :
    Moved config db db' := by
  refine Moved.of_jobs hkeys hjobs hattempts hid ?_
  intro row hrow hcond
  obtain rfl := hkeys.job_eq hjob hrow (of_decide_eq_true hcond)
  exact hmove

/-- An update of the attempt and the job that a worker's call found. -/
theorem Moved.of_claim {db db' : Database} (hkeys : WellKeyed db) (hjob : job ∈ db.jobs)
    (hattempt : attempt ∈ db.attempts) (howner : attempt.jobId = job.id)
    (hjobs : db'.jobs = updateWhere (fun row => row.id = job.id) set db.jobs)
    (hattempts : db'.attempts = updateWhere (fun row => row.id = attempt.id) attemptSet db.attempts)
    (hid : ∀ row, (set row).id = row.id)
    (hkept : ∀ row, (attemptSet row).id = row.id ∧ (attemptSet row).claimId = row.claimId
      ∧ (attemptSet row).jobId = row.jobId)
    (hmove : attempt ∈ db.attemptsOf job.id → JobMove config job (db.attemptsOf job.id) (set job)
      (updateWhere (fun row => row.id = attempt.id) attemptSet (db.attemptsOf job.id))) :
    Moved config db db' := by
  refine Moved.of_update hkeys hjobs hattempts hid hkept ?_ ?_
  · intro row hrow hcond
    obtain rfl := hkeys.job_eq hjob hrow (of_decide_eq_true hcond)
    exact hmove (mem_attemptsOf.mpr ⟨hattempt, howner⟩)
  · intro row hrow hcond other hother
    have hother := mem_attemptsOf.mp hother
    have hne : row.id ≠ job.id := of_decide_eq_false hcond
    -- an attempt with the same identifier would be the same job's
    refine decide_eq_false fun hsame => hne ?_
    rw [← hother.2, hkeys.attempt_eq hattempt hother.1 hsame, howner]

/-! ## Statements that delete or insert -/

theorem Moved.of_deleteJobs {db : Database} (hkeys : WellKeyed db) (gone : JobRow → Bool) :
    Moved config db (deleteJobs db gone) := by
  have hids : (deleteJobs db gone).jobs.map JobRow.id
      = (db.jobs.filter fun job => !gone job).map JobRow.id := by
    refine map_updateWhere ?_ _
    intro _ _
    rfl
  have hgone : ∀ id, (db.jobs.any fun job => job.id = id && gone job) = false ↔
      ∀ job ∈ db.jobs, job.id = id → gone job = false := by
    intro id
    simp
  -- the jobs that are left, in their order
  have hsub : ((deleteJobs db gone).jobs.map JobRow.id).Sublist (db.jobs.map JobRow.id) := by
    rw [hids]
    exact List.filter_sublist.map _
  constructor
  · constructor
    · exact hkeys.jobs.sublist hsub
    · exact hkeys.attempts.sublist (List.filter_sublist.map _)
    · exact hkeys.claims.sublist (List.filter_sublist.map _)
    · intro attempt hattempt
      have hattempt := List.mem_filter.mp hattempt
      rcases hkeys.owned attempt hattempt.1 with ⟨job, hjob, hid⟩
      have hstays : gone job = false := by
        refine (hgone attempt.jobId).mp ?_ job hjob hid
        simpa using hattempt.2
      have hmem : job.id ∈ (deleteJobs db gone).jobs.map JobRow.id := by
        rw [hids]
        exact List.mem_map_of_mem (List.mem_filter.mpr ⟨hjob, by simp [hstays]⟩)
      rcases List.mem_map.mp hmem with ⟨job', hjob', hid'⟩
      exact ⟨job', hjob', by rw [hid', hid]⟩
  · exact hsub
  · intro job' hjob'
    rcases mem_updateWhere.mp hjob' with ⟨job, hjob, hcase⟩
    have hjob := List.mem_filter.mp hjob
    refine ⟨job, hjob.1, ?_⟩
    have hsame : job'.id = job.id := by
      rcases hcase with ⟨_, heq⟩ | ⟨_, heq⟩ <;> rw [heq]
    -- a job that stays keeps its attempts
    have hattempts : (deleteJobs db gone).attemptsOf job'.id = db.attemptsOf job.id := by
      rw [hsame]
      simp only [Database.attemptsOf, deleteJobs, List.filter_filter]
      refine List.filter_congr fun attempt _ => ?_
      by_cases howner : attempt.jobId = job.id
      · have hstays : (db.jobs.any fun row => row.id = attempt.jobId && gone row) = false := by
          refine (hgone _).mpr fun row hrow hid => ?_
          rw [hkeys.job_eq hjob.1 hrow (hid.trans howner)]
          simpa using hjob.2
        rw [hstays]
        simp
      · simp [howner]
    rw [hattempts]
    rcases hcase with ⟨_, heq⟩ | ⟨_, heq⟩
    · rw [heq]
      exact .detached none job.resultProjectId (.inl rfl) (.inr rfl)
    · rw [heq]
      exact .same job _

/-- The claim of a queued job: the insert of its attempt. -/
theorem Moved.of_claimed {db db' : Database} (hkeys : WellKeyed db)
    {draw : ClaimDraw} {sessionId : Uuid} {processorContract : Text} {now : Timestamp}
    (hjob : job ∈ db.jobs) (hstate : job.state = .queued)
    (hflag : job.cancellationRequested = false)
    (hfresh : ∀ row ∈ db.attempts, row.id ≠ draw.attemptId ∧ row.claimId ≠ draw.claimId)
    (hjobs : db'.jobs = updateWhere (fun row => row.id = job.id) (fun row =>
      row.claimed job.nextAttempt draw.claimId (now + config.claimLease) processorContract) db.jobs)
    (hattempts : db'.attempts
      = db.attempts ++ [job.openedAttempt config draw sessionId processorContract now]) :
    Moved config db db' := by
  have hids : db'.jobs.map JobRow.id = db.jobs.map JobRow.id := by
    rw [hjobs]
    refine map_updateWhere ?_ db.jobs
    intro _ _
    rfl
  -- the job has one attempt more, the others have theirs
  have hattemptsOf : ∀ id, db'.attemptsOf id = db.attemptsOf id ++ if job.id = id then
      [job.openedAttempt config draw sessionId processorContract now] else [] := by
    intro id
    rw [Database.attemptsOf, hattempts, List.filter_append, List.filter_singleton]
    congr 1
    by_cases hid : job.id = id <;> simp [JobRow.openedAttempt, hid]
  constructor
  · constructor
    · rw [hids]
      exact hkeys.jobs
    · rw [hattempts, List.map_append, List.nodup_append]
      refine ⟨hkeys.attempts, List.nodup_singleton _, ?_⟩
      intro id hid id' hid' heq
      rcases List.mem_map.mp hid with ⟨row, hrow, rfl⟩
      exact (hfresh row hrow).1 (heq.trans (List.mem_singleton.mp hid'))
    · rw [hattempts, List.map_append, List.nodup_append]
      refine ⟨hkeys.claims, List.nodup_singleton _, ?_⟩
      intro id hid id' hid' heq
      rcases List.mem_map.mp hid with ⟨row, hrow, rfl⟩
      exact (hfresh row hrow).2 (heq.trans (List.mem_singleton.mp hid'))
    · intro attempt hattempt
      have howner : ∃ row ∈ db.jobs, row.id = attempt.jobId := by
        rw [hattempts, List.mem_append] at hattempt
        rcases hattempt with hold | hnew
        · exact hkeys.owned attempt hold
        · exact ⟨job, hjob, by rw [List.mem_singleton.mp hnew]; rfl⟩
      rcases howner with ⟨row, hrow, hid⟩
      have hmem : row.id ∈ db'.jobs.map JobRow.id := by
        rw [hids]
        exact List.mem_map_of_mem hrow
      rcases List.mem_map.mp hmem with ⟨row', hrow', hid'⟩
      exact ⟨row', hrow', by rw [hid', hid]⟩
  · rw [hids]
  · intro job' hjob'
    rw [hjobs] at hjob'
    rcases mem_updateWhere.mp hjob' with ⟨row, hrow, ⟨hcond, heq⟩ | ⟨hcond, heq⟩⟩
    · obtain rfl := hkeys.job_eq hjob hrow (of_decide_eq_true hcond)
      refine ⟨row, hjob, ?_⟩
      have hid : job'.id = row.id := by rw [heq]; rfl
      rw [hattemptsOf, hid, heq, if_pos rfl]
      exact .claimed draw sessionId processorContract now hstate hflag
    · have hne : row.id ≠ job.id := of_decide_eq_false hcond
      refine ⟨row, hrow, ?_⟩
      rw [hattemptsOf, heq, if_neg (Ne.symm hne), List.append_nil]
      exact .same row _

end Toss.Processing
