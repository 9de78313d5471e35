import Toss.Processing.Effects

/-!
# Running attempts

Where the running attempts after a step come from: they ran before it, as they are, or a claim
opened one, or a heartbeat renewed one.

* `AttemptsEffect`, `step_attempts`;
* `step_operation` — a job keeps its operation;
* `step_workers` — only the calls on sessions change sessions and processors.
-/

namespace Toss.Processing

open Toss.Foundation

/-- The attempts after a step. -/
inductive AttemptsEffect (config : ProcessingConfig) (db : Database) :
    Action → List AttemptRow → Prop
  | fewer (action : Action) {attempts : List AttemptRow}
      (hkept : ∀ attempt ∈ attempts, attempt.state = .running → attempt ∈ db.attempts) :
      AttemptsEffect config db action attempts
  | claimed {job : JobRow} (worker : AuthenticatedWorker) (draw : ClaimDraw) (locked : List Uuid)
      (sessionId : Uuid) (offers : List ProcessorCapacityOffer) (processorContract : Text)
      (now : Timestamp) (hjob : job ∈ db.jobs) :
      AttemptsEffect config db (.tryClaim worker draw locked sessionId offers now)
        (db.attempts ++ [job.openedAttempt config draw sessionId processorContract now])
  | renewed {attempt : AttemptRow} {job : JobRow} (worker : AuthenticatedWorker)
      (sessionId claimId : Uuid) (phase : ProcessingPhase) (now : Timestamp)
      (hclaim : db.claimOf worker sessionId claimId = some (attempt, job))
      (hholds : holdsClaim job attempt claimId now = true)
      (hphase : phase = .processing ∨ phase = .uploadingResult) :
      AttemptsEffect config db (.heartbeatClaim worker sessionId claimId phase now)
        (updateWhere (fun row => row.id = attempt.id)
          (fun row => row.renewed phase (renewedLease config job attempt now)) db.attempts)

/-- An update that ends attempts leaves the others that run. -/
theorem running_updateWhere {attempts : List AttemptRow} {cond : AttemptRow → Bool}
    {set : AttemptRow → AttemptRow} (hset : ∀ row, (set row).state ≠ .running) :
    ∀ attempt ∈ updateWhere cond set attempts, attempt.state = .running → attempt ∈ attempts := by
  intro attempt hattempt hrunning
  rcases mem_updateWhere.mp hattempt with ⟨old, hold, ⟨_, rfl⟩ | ⟨_, rfl⟩⟩
  · exact absurd hrunning (hset old)
  · exact hold

theorem running_expireClaim (now : Timestamp) (db : Database) (job : JobRow) :
    ∀ attempt ∈ (expireClaim now db job).attempts, attempt.state = .running →
      attempt ∈ db.attempts := by
  unfold expireClaim
  rcases job.currentClaimId with _ | claimId
  · exact fun _ hattempt _ => hattempt
  · refine running_updateWhere ?_
    simp [AttemptRow.closed]

theorem running_foldl_expireClaim {now : Timestamp} (jobs : List JobRow) (db : Database) :
    ∀ attempt ∈ (jobs.foldl (expireClaim now) db).attempts, attempt.state = .running →
      attempt ∈ db.attempts := by
  induction jobs generalizing db with
  | nil => exact fun _ hattempt _ => hattempt
  | cons job jobs ih =>
    intro attempt hattempt hrunning
    exact running_expireClaim now db job attempt (ih _ attempt hattempt hrunning) hrunning

theorem running_maintainLifecycle (locked : List Uuid) (db : Database) (now : Timestamp) :
    ∀ attempt ∈ (maintainLifecycle locked db now).attempts, attempt.state = .running →
      attempt ∈ db.attempts := by
  intro attempt hattempt hrunning
  have hkept : attempt ∈ ((overdueJobs (expireSessions db now) locked now).foldl (expireClaim now)
      (expireSessions db now)).attempts := (List.mem_filter.mp hattempt).1
  exact running_foldl_expireClaim _ (expireSessions db now) attempt hkept hrunning

variable {externals : Externals} {config : ProcessingConfig}

variable {s t : System} {action : Action}

theorem step_attempts (h : Step externals config s action t) :
    AttemptsEffect config s.db action t.db.attempts := by
  have hsame : AttemptsEffect config s.db action s.db.attempts :=
    .fewer action fun _ hattempt _ => hattempt
  have heffect := step_effect h
  generalize t.db = db at heffect ⊢
  cases heffect with
  | claimed _ draw sessionId contract now hjob _ _ _ _ haction =>
    rcases haction with ⟨worker, locked, offers, rfl⟩
    exact .claimed worker draw locked sessionId offers contract now hjob
  | @renewed job attempt _ phase now _ _ _ hholds haction =>
    rcases haction with ⟨worker, sessionId, rfl, hclaim, hphase⟩
    exact .renewed worker sessionId attempt.claimId phase now hclaim hholds hphase
  | inserted command hinsert =>
    rw [(insertJob_cases hinsert).2]
    exact hsame
  | prepared jobId blobId input _ _ hstored | stored _ blobId upload _ hstored =>
    rcases storeBlob_cases hstored with ⟨blobs, rfl⟩
    exact hsame
  | delivered =>
    refine .fewer _ (running_updateWhere ?_)
    simp [AttemptRow.delivered]
  | givenUp _ failure =>
    refine .fewer _ (running_updateWhere fun row => ?_)
    cases failure <;> simp [AttemptRow.closed]
  | tick locked now => exact .fewer _ (running_maintainLifecycle locked s.db now)
  | published finalizer publication _ hpublish =>
    rw [(publish_frame hpublish).2.1]
    exact hsame
  | deletedJobs gone | deletedProject projectId =>
    exact .fewer _ fun _ hattempt _ => (List.mem_filter.mp hattempt).1
  | _ => exact hsame

theorem step_operation (hinv : Inv s.db) (h : Step externals config s action t)
    {job job' : JobRow} (hjob : job ∈ s.db.jobs) (hjob' : job' ∈ t.db.jobs)
    (hid : job'.id = job.id) : job'.operation = job.operation :=
  step_rel (r := fun job job' => job'.operation = job.operation) (fun _ => rfl)
    (fun _ _ _ hab hbc => hbc.trans hab) (fun _ _ _ _ hmove _ _ => hmove.sameJob.operation)
    hinv h hjob hjob' hid

/-! ## Sessions -/

/-- The processors of the sessions, and the sessions that there are, as they were. -/
structure SameWorkers (db db' : Database) : Prop where
  processors : db'.processors = db.processors
  sessions : db'.sessions.map SessionRow.id = db.sessions.map SessionRow.id

theorem SameWorkers.trans {a b c : Database} (hab : SameWorkers a b) (hbc : SameWorkers b c) :
    SameWorkers a c :=
  ⟨hbc.processors.trans hab.processors, hbc.sessions.trans hab.sessions⟩

theorem foldl_expireClaim_workers {now : Timestamp} (jobs : List JobRow) (db : Database) :
    SameWorkers db (jobs.foldl (expireClaim now) db) := by
  refine List.foldlRecOn jobs _ ?_ ?_
  · exact ⟨rfl, rfl⟩
  intro between h job _
  refine h.trans ?_
  unfold expireClaim
  cases job.currentClaimId <;> exact ⟨rfl, rfl⟩

theorem expireSessions_workers (db : Database) (now : Timestamp) :
    SameWorkers db (expireSessions db now) := by
  refine ⟨rfl, ?_⟩
  rw [expireSessions]
  rw [map_updateWhere, map_updateWhere]
  · exact fun _ _ => rfl
  · exact fun _ _ => rfl

theorem step_workers (h : Step externals config s action t)
    (haction : ∀ sessions processors, action ≠ .setWorkers sessions processors) :
    SameWorkers s.db t.db := by
  have heffect := step_effect h
  generalize t.db = db at heffect ⊢
  cases heffect with
  | workers sessions processors => exact absurd rfl (haction sessions processors)
  | inserted command hinsert =>
    rw [(insertJob_cases hinsert).2]
    exact ⟨rfl, rfl⟩
  | prepared jobId blobId input hjob hstate hstored
  | stored action blobId upload hupload hstored =>
    rcases storeBlob_cases hstored with ⟨blobs, rfl⟩
    exact ⟨rfl, rfl⟩
  | tick locked now =>
    have hsessions := expireSessions_workers s.db now
    have hclaims : SameWorkers (expireSessions s.db now)
        ((overdueJobs (expireSessions s.db now) locked now).foldl (expireClaim now)
          (expireSessions s.db now)) := foldl_expireClaim_workers _ _
    exact hsessions.trans (hclaims.trans ⟨rfl, rfl⟩)
  | published finalizer publication hfinalizer hpublish =>
    rcases publish_frame hpublish with ⟨-, -, -, hsessions, hprocessors⟩
    exact ⟨hprocessors, by rw [hsessions]⟩
  | _ => exact ⟨rfl, rfl⟩

end Toss.Processing
