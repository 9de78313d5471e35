import Mathlib.Data.List.Range
import Toss.Processing.JobStatements

/-!
# The invariant of jobs and their attempts

What ties a job to its attempts, kept by every edge of `JobMove` and so by every
step of the system.

* `JobInv` — one job with its attempts;
* `Inv` — every job, under the keys of the tables;
* `step_moves` — a step moves jobs, or inserts the admitted one;
* `reachable_inv` — the invariant over whole runs.
-/

namespace Toss.Processing

open Toss.Foundation

/-- The running attempts among those of a job. -/
def runningOf (attempts : List AttemptRow) : List AttemptRow :=
  attempts.filter fun attempt => attempt.state = .running

/-- A job and its attempts. -/
structure JobInv (job : JobRow) (attempts : List AttemptRow) : Prop where
  running : job.state = .running → ∃ attempt, runningOf attempts = [attempt]
    ∧ job.currentClaimId = some attempt.claimId
    ∧ job.claimExpiresAt = some attempt.leaseExpiresAt
    ∧ attempt.attemptNumber = job.attemptCount
  idle : job.state ≠ .running →
    runningOf attempts = [] ∧ job.currentClaimId = none ∧ job.claimExpiresAt = none
  numbers : attempts.map AttemptRow.attemptNumber = List.range' 1 job.attemptCount
  maximum : job.maxAttempts = 3
  bounded : job.attemptCount ≤ job.maxAttempts
  waiting : job.state = .preparing ∨ job.state = .queued → job.attemptCount < job.maxAttempts
  flag : job.cancellationRequested = true → job.state = .running ∨ job.state = .cancelled
  completed : job.completedAt.isSome = job.state.isTerminal
  uncached : job.state = .preparing ∨ job.state = .queued ∨ job.state = .running →
    job.cacheSourceJobId = none

namespace JobInv

variable {config : ProcessingConfig} {job job' : JobRow} {attempts attempts' : List AttemptRow}

theorem count (hinv : JobInv job attempts) : job.attemptCount = attempts.length := by
  have hlength := congrArg List.length hinv.numbers
  simp only [List.length_map, List.length_range'] at hlength
  exact hlength.symm

/-- A job's number of attempts never reaches the bound of its column. -/
theorem nextAttempt (hinv : JobInv job attempts) : job.nextAttempt = job.attemptCount + 1 := by
  have hbounded := hinv.bounded
  rw [hinv.maximum] at hbounded
  rw [JobRow.nextAttempt, i32Max]
  omega

variable {attempt : AttemptRow} {set : AttemptRow → AttemptRow} {cond : AttemptRow → Bool}

theorem mem_runningOf :
    attempt ∈ runningOf attempts ↔ attempt ∈ attempts ∧ attempt.state = .running := by
  simp [runningOf]

/-- An attempt that holds the claim of a running job is the running one. -/
theorem holder (hinv : JobInv job attempts) (hclaims : (attempts.map AttemptRow.claimId).Nodup)
    (hstate : job.state = .running) (hmem : attempt ∈ attempts)
    (hclaim : job.currentClaimId = some attempt.claimId) :
    runningOf attempts = [attempt] ∧ job.claimExpiresAt = some attempt.leaseExpiresAt
      ∧ attempt.attemptNumber = job.attemptCount := by
  rcases hinv.running hstate with ⟨running, hrunning, hcurrent, hlease, hnumber⟩
  have hthere : running ∈ runningOf attempts := by
    rw [hrunning]
    exact List.mem_singleton.mpr rfl
  have hsame : attempt = running := by
    refine List.inj_on_of_nodup_map hclaims hmem (mem_runningOf.mp hthere).1 ?_
    exact Option.some.inj (hclaim.symm.trans hcurrent)
  rw [hsame]
  exact ⟨hrunning, hlease, hnumber⟩

/-- A flagged job runs or has been cancelled, so any other is not flagged. -/
theorem unflagged (hinv : JobInv job attempts) (hrunning : job.state ≠ .running)
    (hcancelled : job.state ≠ .cancelled) : job.cancellationRequested ≠ true :=
  fun hflag => (hinv.flag hflag).elim hrunning hcancelled

/-- Closing the running attempt leaves none. -/
theorem runningOf_closed
    (hrunning : runningOf attempts = [attempt]) (hcond : cond attempt = true)
    (hset : ∀ row, (set row).state ≠ .running) :
    runningOf (updateWhere cond set attempts) = [] := by
  refine List.filter_eq_nil_iff.mpr ?_
  intro row hrow hstate
  have hstate : row.state = .running := of_decide_eq_true hstate
  rcases mem_updateWhere.mp hrow with ⟨old, hold, ⟨_, heq⟩ | ⟨hnot, heq⟩⟩
  · rw [heq] at hstate
    exact hset old hstate
  have hmem : old ∈ runningOf attempts := mem_runningOf.mpr ⟨hold, by rw [← heq]; exact hstate⟩
  rw [hrunning] at hmem
  rw [List.mem_singleton.mp hmem, hcond] at hnot
  simp at hnot

/-- An update that keeps states finds the running attempt again, updated. -/
theorem runningOf_kept (hrunning : runningOf attempts = [attempt]) (hcond : cond attempt = true)
    (hset : ∀ row, (set row).state = row.state) :
    runningOf (updateWhere cond set attempts) = [set attempt] := by
  have hfilter : runningOf (updateWhere cond set attempts)
      = updateWhere cond set (runningOf attempts) :=
    filter_updateWhere (fun row => by rw [hset]) attempts
  rw [hfilter, hrunning]
  simp [updateWhere, hcond]

/-- The numbers of attempts are kept by updates of other columns. -/
theorem numbers_kept (hinv : JobInv job attempts)
    (hset : ∀ row, (set row).attemptNumber = row.attemptNumber) :
    (updateWhere cond set attempts).map AttemptRow.attemptNumber
      = List.range' 1 job.attemptCount := by
  rw [map_updateWhere fun row _ => hset row]
  exact hinv.numbers

/-- A running job left for a state in which it has no claim. -/
theorem unclaimed (hinv : JobInv job attempts) (hrunning : runningOf attempts = [attempt])
    (hcond : cond attempt = true) (hset : ∀ row, (set row).state ≠ .running)
    (hnumber : ∀ row, (set row).attemptNumber = row.attemptNumber)
    {state : ProcessingJobState} (hstate : state ≠ .running) (hpreparing : state ≠ .preparing)
    (hfinalizing : state ≠ .finalizing)
    (hqueued : state = .queued → job.attemptCount < job.maxAttempts)
    (huncached : job.cacheSourceJobId = none)
    (hflag : job.cancellationRequested = true → state = .cancelled)
    (now nextAttemptAt : Timestamp) (texts : Option (Text × Text × Text)) :
    JobInv (job.unclaimed state now nextAttemptAt texts) (updateWhere cond set attempts) where
  running h := absurd h hstate
  idle _ := ⟨runningOf_closed hrunning hcond hset, rfl, rfl⟩
  numbers := hinv.numbers_kept hnumber
  maximum := hinv.maximum
  bounded := hinv.bounded
  waiting := by
    rintro (h | h)
    · exact absurd h hpreparing
    · exact hqueued h
  flag h := .inr (hflag h)
  completed := by
    show (if state = .queued then none else some now : Option Timestamp).isSome = state.isTerminal
    cases state <;> simp_all [ProcessingJobState.isTerminal]
  uncached _ := huncached

end JobInv

theorem failedClaimState_cases (job : JobRow) (failure : Option ClaimFailure) :
    (job.cancellationRequested = true ∧ failedClaimState job failure = .cancelled)
    ∨ (job.cancellationRequested = false ∧ job.attemptCount < job.maxAttempts
        ∧ failedClaimState job failure = .queued)
    ∨ (job.cancellationRequested = false ∧ failedClaimState job failure = .failed) := by
  unfold failedClaimState
  split
  · rename_i hflag
    exact .inl ⟨hflag, rfl⟩
  rename_i hflag
  have hflag : job.cancellationRequested = false := by simpa using hflag
  split
  · rename_i hretry
    simp only [Bool.and_eq_true, decide_eq_true_eq] at hretry
    exact .inr (.inl ⟨hflag, hretry.2, rfl⟩)
  · exact .inr (.inr ⟨hflag, rfl⟩)

theorem expiredClaimState_cases (job : JobRow) (now : Timestamp) :
    (job.cancellationRequested = true ∧ (expiredClaimState job now).1 = .cancelled)
    ∨ (job.cancellationRequested = false ∧ job.attemptCount < job.maxAttempts
        ∧ (expiredClaimState job now).1 = .queued)
    ∨ (job.cancellationRequested = false
        ∧ ((expiredClaimState job now).1 = .expired ∨ (expiredClaimState job now).1 = .failed)) := by
  unfold expiredClaimState
  split
  · rename_i hflag
    exact .inl ⟨hflag, rfl⟩
  rename_i hflag
  have hflag : job.cancellationRequested = false := by simpa using hflag
  split
  · rename_i hretry
    exact .inr (.inl ⟨hflag, hretry.1, rfl⟩)
  · split
    · exact .inr (.inr ⟨hflag, .inl rfl⟩)
    · exact .inr (.inr ⟨hflag, .inr rfl⟩)

variable {config : ProcessingConfig}

/-- Every edge keeps the invariant of its job. -/
theorem JobMove.inv {job job' : JobRow} {attempts attempts' : List AttemptRow}
    (hmove : JobMove config job attempts job' attempts') (hinv : JobInv job attempts)
    (hclaims : (attempts.map AttemptRow.claimId).Nodup) : JobInv job' attempts' := by
  -- one edge after the other; the fields stand in the order of `JobInv`
  cases hmove with
  | same => exact hinv
  | prepared input blobId hstate hflag =>
    have hidle := hinv.idle (by rw [hstate]; decide)
    exact ⟨fun h => by simp [JobRow.prepared] at h, fun _ => hidle, hinv.numbers, hinv.maximum,
      hinv.bounded, fun _ => hinv.waiting (.inl hstate),
      fun h => by simp [JobRow.prepared, hflag] at h,
      by rw [JobRow.prepared, hinv.completed, hstate]; rfl, fun _ => hinv.uncached (.inl hstate)⟩
  | waitingEnded state now failure hwaiting hstate =>
    have hnot : job.state ≠ .running := by rcases hwaiting with h | h <;> simp [h]
    have hunflagged := hinv.unflagged hnot (by rcases hwaiting with h | h <;> simp [h])
    have hidle := hinv.idle hnot
    refine ⟨?_, fun _ => hidle, hinv.numbers, hinv.maximum, hinv.bounded, ?_,
      fun h => absurd h hunflagged, ?_, ?_⟩
    · rcases hstate with rfl | rfl <;> simp [JobRow.ended]
    · rcases hstate with rfl | rfl <;> simp [JobRow.ended]
    · rcases hstate with rfl | rfl <;> rfl
    · rcases hstate with rfl | rfl <;> simp [JobRow.ended]
  | cancelledWaiting now hwaiting =>
    have hnot : job.state ≠ .running := by rcases hwaiting with h | h <;> simp [h]
    exact ⟨fun h => by simp [JobRow.cancelledWaiting] at h, fun _ => hinv.idle hnot, hinv.numbers,
      hinv.maximum, hinv.bounded, fun h => by simp [JobRow.cancelledWaiting] at h,
      fun _ => .inr rfl, rfl, fun h => by simp [JobRow.cancelledWaiting] at h⟩
  | cancelling hstate =>
    exact ⟨hinv.running, hinv.idle, hinv.numbers, hinv.maximum, hinv.bounded, hinv.waiting,
      fun _ => .inl hstate, hinv.completed, hinv.uncached⟩
  | cacheHit contract source hstate hflag =>
    have hidle := hinv.idle (by rw [hstate]; decide)
    exact ⟨fun h => by simp [JobRow.cacheHitOf] at h, fun _ => hidle, hinv.numbers, hinv.maximum,
      hinv.bounded, fun h => by simp [JobRow.cacheHitOf] at h,
      fun h => by simp [JobRow.cacheHitOf, hflag] at h,
      by rw [JobRow.cacheHitOf, hinv.completed, hstate]; rfl,
      fun h => by simp [JobRow.cacheHitOf] at h⟩
  | claimed draw sessionId contract now hstate hflag =>
    have hidle := hinv.idle (by rw [hstate]; decide)
    -- its number is the next, and there was room for it
    have hroom := hinv.waiting (.inr hstate)
    refine ⟨?_, fun h => absurd rfl h, ?_, hinv.maximum, ?_,
      fun h => by simp [JobRow.claimed] at h, fun _ => .inl rfl, ?_,
      fun _ => hinv.uncached (.inr (.inl hstate))⟩
    · intro _
      -- the opened attempt is the only one that runs
      refine ⟨job.openedAttempt config draw sessionId contract now, ?_, rfl, rfl, rfl⟩
      have hnone := hidle.1
      unfold runningOf at hnone ⊢
      rw [List.filter_append, hnone]
      rfl
    · show (attempts ++ [_]).map AttemptRow.attemptNumber = List.range' 1 job.nextAttempt
      rw [List.map_append, hinv.numbers, hinv.nextAttempt, List.range'_concat]
      simp only [List.map_cons, List.map_nil, JobRow.openedAttempt, hinv.nextAttempt]
      congr 2
      omega
    · show job.nextAttempt ≤ job.maxAttempts
      rw [hinv.nextAttempt]
      omega
    · rw [JobRow.claimed, hinv.completed, hstate]
      rfl
  | renewed attempt phase now hmem hholds =>
    simp only [holdsClaim, Bool.and_eq_true, decide_eq_true_eq] at hholds
    rcases hinv.holder hclaims hholds.2 hmem hholds.1.1.2 with ⟨hrunning, _, hnumber⟩
    exact ⟨fun _ => ⟨_, JobInv.runningOf_kept hrunning (by simp) fun _ => rfl, hholds.1.1.2, rfl,
        hnumber⟩,
      fun h => absurd hholds.2 h, hinv.numbers_kept fun _ => rfl, hinv.maximum, hinv.bounded,
      hinv.waiting, hinv.flag, hinv.completed, hinv.uncached⟩
  | delivered attempt now hmem hholds hflag =>
    simp only [holdsClaim, Bool.and_eq_true, decide_eq_true_eq] at hholds
    rcases hinv.holder hclaims hholds.2 hmem hholds.1.1.2 with ⟨hrunning, _⟩
    exact ⟨fun h => by simp [JobRow.delivered] at h,
      fun _ => ⟨JobInv.runningOf_closed hrunning (by simp)
        fun _ => by simp [AttemptRow.delivered], rfl, rfl⟩,
      hinv.numbers_kept fun _ => rfl, hinv.maximum, hinv.bounded,
      fun h => by simp [JobRow.delivered] at h, fun h => by simp [JobRow.delivered, hflag] at h,
      by rw [JobRow.delivered, hinv.completed, hholds.2]; rfl,
      fun h => by simp [JobRow.delivered] at h⟩
  | givenUp attempt failure state texts jobTexts now nextAttemptAt hmem hstate hclaim hclosed =>
    rcases hinv.holder hclaims hstate hmem hclaim with ⟨hrunning, _⟩
    have hset : ∀ row : AttemptRow, (row.closed state texts).state ≠ .running := by
      rcases hclosed with rfl | rfl <;> simp [AttemptRow.closed]
    refine hinv.unclaimed hrunning (by simp) hset (fun _ => rfl) ?_ ?_ ?_ ?_
      (hinv.uncached (.inr (.inr hstate))) ?_ _ _ _
    all_goals
      -- back to the queue while there is an attempt left, else ended
      rcases failedClaimState_cases job failure with
        ⟨hflag, heq⟩ | ⟨hflag, hroom, heq⟩ | ⟨hflag, heq⟩ <;> simp [heq, hflag]
    exact hroom
  | lost claimId now nextAttemptAt hstate hclaim =>
    rcases hinv.running hstate with ⟨running, hrunning, hcurrent, _, _⟩
    have hcond : (decide (running.claimId = claimId) && decide (running.state = .running)) = true := by
      have hmem : running ∈ runningOf attempts := by
        rw [hrunning]
        exact List.mem_singleton.mpr rfl
      rw [hcurrent] at hclaim
      simp [Option.some.inj hclaim, (JobInv.mem_runningOf.mp hmem).2]
    refine hinv.unclaimed hrunning ?_ ?_ ?_ ?_ ?_ ?_ ?_ (hinv.uncached (.inr (.inr hstate)))
      ?_ _ _ _
    · exact hcond
    · simp [AttemptRow.closed]
    · exact fun _ => rfl
    all_goals
      rcases expiredClaimState_cases job now with
        ⟨hflag, heq⟩ | ⟨hflag, hroom, heq⟩ | ⟨hflag, heq | heq⟩ <;> simp [heq, hflag]
    exact hroom
  | leased token expiresAt hstate =>
    exact ⟨hinv.running, hinv.idle, hinv.numbers, hinv.maximum, hinv.bounded, hinv.waiting,
      hinv.flag, hinv.completed, hinv.uncached⟩
  | succeeded resultProjectId now hstate =>
    have hunflagged := hinv.unflagged (by simp [hstate]) (by simp [hstate])
    exact ⟨fun h => by simp [JobRow.succeeded] at h,
      fun _ => hinv.idle (by rw [hstate]; decide), hinv.numbers, hinv.maximum, hinv.bounded,
      fun h => by simp [JobRow.succeeded] at h, fun h => absurd h hunflagged, rfl,
      fun h => by simp [JobRow.succeeded] at h⟩
  | rejected failure now hstate =>
    have hunflagged := hinv.unflagged (by simp [hstate]) (by simp [hstate])
    exact ⟨fun h => by simp [JobRow.ended] at h,
      fun _ => hinv.idle (by rw [hstate]; decide), hinv.numbers, hinv.maximum, hinv.bounded,
      fun h => by simp [JobRow.ended] at h, fun h => absurd h hunflagged, rfl,
      fun h => by simp [JobRow.ended] at h⟩
  | detached source result hsource _ =>
    refine ⟨hinv.running, hinv.idle, hinv.numbers, hinv.maximum, hinv.bounded, hinv.waiting,
      hinv.flag, hinv.completed, ?_⟩
    intro hstate
    rcases hsource with rfl | rfl
    · rfl
    · exact hinv.uncached hstate

/-! ## The invariant of the tables -/

structure Inv (db : Database) : Prop where
  keyed : WellKeyed db
  job : ∀ job ∈ db.jobs, JobInv job (db.attemptsOf job.id)

variable {db : Database} {s t : System}

theorem claims_attemptsOf (hkeys : WellKeyed db) (jobId : Uuid) :
    ((db.attemptsOf jobId).map AttemptRow.claimId).Nodup :=
  hkeys.claims.sublist (List.filter_sublist.map _)

theorem Moved.inv {db db' : Database} (hmoved : Moved config db db') (hinv : Inv db) : Inv db' where
  keyed := hmoved.keyed
  job := by
    intro job' hjob'
    rcases hmoved.job job' hjob' with ⟨job, hjob, hmove⟩
    exact hmove.inv (hinv.job job hjob) (claims_attemptsOf hinv.keyed job.id)

/-- Jobs and attempts are all that their invariant is about. -/
theorem Inv.of_tables {db db' : Database} (h : Inv db) (hjobs : db'.jobs = db.jobs)
    (hattempts : db'.attempts = db.attempts) : Inv db' where
  keyed := h.keyed.congr (by rw [hjobs]) (by rw [hattempts]) (by rw [hattempts])
    (by rw [hattempts])
  job := by
    intro job hjob
    rw [Database.attemptsOf, hattempts]
    rw [hjobs] at hjob
    exact h.job job hjob

theorem Moves.inv {db db' : Database} (hmoves : Moves config db db') (hinv : Inv db) : Inv db' := by
  induction hmoves with
  | refl => exact hinv
  | tail _ hmoved ih => exact hmoved.inv ih

theorem insertJob_cases {db db' : Database} {row : JobRow} (h : insertJob db row = some db') :
    (∀ job ∈ db.jobs, job.id ≠ row.id ∧ job.idempotency ≠ row.idempotency)
      ∧ db' = { db with jobs := db.jobs ++ [row] } := by
  unfold insertJob at h
  split at h
  · simp at h
  rename_i hfresh
  simp only [List.any_eq_true, Bool.or_eq_true, decide_eq_true_eq, not_exists, not_and,
    not_or] at hfresh
  exact ⟨fun job hjob => hfresh job hjob, (Option.some.inj h).symm⟩

/-- An admitted job starts in the invariant. -/
theorem insertJob_inv {db db' : Database} (hinv : Inv db) {command : ReserveJob}
    (h : insertJob db (command.row config) = some db') : Inv db' := by
  rcases insertJob_cases h with ⟨hfresh, rfl⟩
  have hnone : db.attemptsOf command.id = [] := by
    refine List.filter_eq_nil_iff.mpr ?_
    intro attempt hattempt howner
    rcases hinv.keyed.owned attempt hattempt with ⟨job, hjob, hid⟩
    exact (hfresh job hjob).1 (by rw [hid]; exact of_decide_eq_true howner)
  constructor
  · constructor
    · rw [List.map_append, List.nodup_append]
      refine ⟨hinv.keyed.jobs, List.nodup_singleton _, ?_⟩
      intro id hid id' hid' heq
      rcases List.mem_map.mp hid with ⟨job, hjob, rfl⟩
      exact (hfresh job hjob).1 (heq.trans (List.mem_singleton.mp hid'))
    · exact hinv.keyed.attempts
    · exact hinv.keyed.claims
    · intro attempt hattempt
      rcases hinv.keyed.owned attempt hattempt with ⟨job, hjob, hid⟩
      exact ⟨job, List.mem_append_left _ hjob, hid⟩
  · intro job hjob
    rcases List.mem_append.mp hjob with hold | hnew
    · exact hinv.job job hold
    rw [List.mem_singleton.mp hnew]
    show JobInv (command.row config) (db.attemptsOf command.id)
    rw [hnone]
    constructor <;> simp [ReserveJob.row, runningOf, ProcessingJobState.isTerminal]

/-! ## The lifecycle tick -/

theorem mem_runningAttempt (hinv : Inv db) {job : JobRow} (hjob : job ∈ db.jobs)
    (hstate : job.state = .running) : ∃ attempt ∈ db.attempts, attempt.jobId = job.id
      ∧ attempt.state = .running ∧ job.currentClaimId = some attempt.claimId
      ∧ job.claimExpiresAt = some attempt.leaseExpiresAt
      ∧ attempt.attemptNumber = job.attemptCount := by
  rcases (hinv.job job hjob).running hstate with ⟨attempt, hrunning, hclaim, hlease, hnumber⟩
  have hmem : attempt ∈ runningOf (db.attemptsOf job.id) := by
    rw [hrunning]
    exact List.mem_singleton.mpr rfl
  have hmem := JobInv.mem_runningOf.mp hmem
  have howner := mem_attemptsOf.mp hmem.1
  exact ⟨attempt, howner.1, howner.2, hmem.2, hclaim, hlease, hnumber⟩

theorem expireClaim_moved' (hinv : Inv db) {now : Timestamp} {job : JobRow}
    (hjob : job ∈ db.jobs) (hoverdue : job.claimOverdue now = true) :
    Moved config db (expireClaim now db job) := by
  have hstate : job.state = .running := by
    simp only [JobRow.claimOverdue, Bool.and_eq_true, decide_eq_true_eq] at hoverdue
    exact hoverdue.1
  rcases mem_runningAttempt hinv hjob hstate with ⟨attempt, hattempt, howner, _, hclaim, _⟩
  refine expireClaim_moved hinv.keyed hjob hoverdue ?_ (by rw [hclaim]; rfl)
  intro claimId hcurrent other hother hsame
  rw [hclaim] at hcurrent
  rw [hinv.keyed.claim_eq hattempt hother (by rw [hsame, Option.some.inj hcurrent]), howner]

/-- The overdue jobs of a tick, one after the other: each is still as it was read
when its turn comes. -/
theorem foldl_expireClaim_moves {now : Timestamp} (jobs : List JobRow)
    (hinv : Inv db) (hjobs : ∀ job ∈ jobs, job ∈ db.jobs ∧ job.claimOverdue now = true)
    (hnodup : (jobs.map JobRow.id).Nodup) : Moves config db (jobs.foldl (expireClaim now) db) := by
  induction jobs generalizing db with
  | nil => exact .refl
  | cons job jobs ih =>
    rw [List.map_cons, List.nodup_cons] at hnodup
    have hhead := hjobs job List.mem_cons_self
    have hmoved : Moved config db (expireClaim now db job) := expireClaim_moved' hinv hhead.1 hhead.2
    refine .trans (.single hmoved) (ih (hmoved.inv hinv) ?_ hnodup.2)
    intro other hother
    have hread := hjobs other (List.mem_cons_of_mem _ hother)
    have hne : other.id ≠ job.id := by
      intro hsame
      exact hnodup.1 (by rw [← hsame]; exact List.mem_map_of_mem hother)
    have hrows : (expireClaim now db job).jobs = updateWhere (fun row => row.id = job.id) (fun row =>
        row.unclaimed (expiredClaimState job now).1 now
          (now + processingRetryDelay job.attemptCount) (expiredClaimState job now).2) db.jobs := by
      unfold expireClaim
      cases job.currentClaimId <;> rfl
    refine ⟨?_, hread.2⟩
    rw [hrows]
    exact mem_updateWhere.mpr ⟨other, hread.1, .inr ⟨decide_eq_false hne, rfl⟩⟩

theorem overdueJobs_nodup (hkeys : WellKeyed db) (locked : List Uuid)
    (now : Timestamp) : ((overdueJobs db locked now).map JobRow.id).Nodup := by
  have hordered : ((orderBy (fun job : JobRow => job.claimExpiresAt.getD 0)
      (db.jobs.filter (JobRow.claimOverdue now))).map JobRow.id).Nodup := by
    rw [((orderBy_perm _ _).map JobRow.id).nodup_iff]
    exact hkeys.jobs.sublist (List.filter_sublist.map _)
  exact hordered.sublist (((List.take_sublist _ _).trans List.filter_sublist).map _)

theorem maintainLifecycle_moves (hinv : Inv db) (locked : List Uuid)
    (now : Timestamp) : Moves config db (maintainLifecycle locked db now) := by
  have hsessions : Moved config db (expireSessions db now) := .of_frame hinv.keyed rfl rfl
  have hinv := hsessions.inv hinv
  have hexpired : Moves config (expireSessions db now) _ :=
    foldl_expireClaim_moves (overdueJobs (expireSessions db now) locked now) hinv
      (fun job hjob => overdueJobs_subset hjob) (overdueJobs_nodup hinv.keyed locked now)
  have hinv := hexpired.inv hinv
  calc Moves config db (expireSessions db now) := .single hsessions
    Moves config _ _ := hexpired
    Moves config _ _ := tick_moves hinv.keyed now

/-- The tables keep their keys when the overdue claims have expired. -/
theorem expireClaims_keyed (hinv : Inv db) (locked : List Uuid) (now : Timestamp) :
    WellKeyed ((overdueJobs (expireSessions db now) locked now).foldl (expireClaim now)
      (expireSessions db now)) := by
  have hsessions : Moved ProcessingConfig.default db (expireSessions db now) :=
    .of_frame hinv.keyed rfl rfl
  have hinv := hsessions.inv hinv
  have hexpired : Moves ProcessingConfig.default (expireSessions db now) _ :=
    foldl_expireClaim_moves (overdueJobs (expireSessions db now) locked now) hinv
      (fun job hjob => overdueJobs_subset hjob) (overdueJobs_nodup hinv.keyed locked now)
  exact (hexpired.inv hinv).keyed

/-- And when the queue entries, the pins and the transfers have. -/
theorem expireQueue_keyed (hkeys : WellKeyed db) (now : Timestamp) :
    WellKeyed (expireTransfers (releaseEndedPins (expireQueue db now)) now) := by
  have hmoved : Moved ProcessingConfig.default db (expireQueue db now) :=
    expireQueue_moved hkeys now
  exact ⟨hmoved.keyed.jobs, hmoved.keyed.attempts, hmoved.keyed.claims, hmoved.keyed.owned⟩

/-! ## Steps of the system -/

theorem committed_some (h : s.committed db = some t) :
    s.keepsHeld db = true ∧ t = { s with db := db } := by
  unfold System.committed at h
  split at h
  · exact ⟨by assumption, (Option.some.inj h).symm⟩
  · simp at h

theorem committed_db (h : s.committed db = some t) : t.db = db := by
  rw [(committed_some h).2]

/-- What the last statement of an admission does to the tables. -/
theorem reserveStatement_answered {db db' : Database} {command : ReserveJob} {stage : ReserveStage}
    {reply : Except ReserveJobError ReserveJobOutcome}
    (h : reserveStatement config db command stage = .answered reply db') :
    (db' = db ∧ reply ≠ .ok .reserved) ∨
    (stage = .insert ∧ reply = .ok .reserved ∧ insertJob db (command.row config) = some db') := by
  cases stage with
  | find =>
    simp only [reserveStatement] at h
    split at h <;> simp at h
  | digest existing =>
    simp only [reserveStatement] at h
    split at h
    · simp only [ReserveProgress.answered.injEq] at h
      exact .inl ⟨h.2.symm, by simp [← h.1]⟩
    · split at h <;> simp only [ReserveProgress.answered.injEq] at h <;>
        exact .inl ⟨h.2.symm, by simp [← h.1]⟩
  | countGlobal | countRequester =>
    simp only [reserveStatement] at h
    split at h
    · simp only [ReserveProgress.answered.injEq] at h
      exact .inl ⟨h.2.symm, by simp [← h.1]⟩
    · simp at h
  | countProject =>
    simp only [reserveStatement] at h
    split at h
    · simp at h
    split at h
    · simp only [ReserveProgress.answered.injEq] at h
      exact .inl ⟨h.2.symm, by simp [← h.1]⟩
    · simp at h
  | insert =>
    simp only [reserveStatement] at h
    split at h
    · simp only [ReserveProgress.answered.injEq] at h
      exact .inl ⟨h.2.symm, by simp [← h.1]⟩
    rename_i inserted hinserted
    simp only [ReserveProgress.answered.injEq] at h
    rw [← h.2]
    exact .inr ⟨rfl, h.1.symm, hinserted⟩

variable {externals : Externals}

/-- The calls and stages that touch no table. -/
def Action.leavesTables : Action → Bool
  | .reserveBegin _ | .reserveAbort | .checkUpload .. | .abortUpload _ | .loadStagedArtifacts _
  | .validateFinalization .. | .lockFinalization .. | .writePublication .. | .stopFinalizer _ => true
  | _ => false

variable {action : Action}

theorem step_tables (h : Step externals config s action t)
    (hleaves : action.leavesTables = true) : t.db = s.db := by
  cases action with
  | reserveBegin command =>
    simp only [Step, step] at h
    split at h
    · cases h
    · rw [← Option.some.inj h]
  | reserveAbort =>
    rcases Option.map_eq_some_iff.mp h with ⟨admission, _, rfl⟩
    rfl
  | checkUpload transferId token content now =>
    simp only [Step, step] at h
    split at h
    · cases h
    · split at h
      · rw [← Option.some.inj h]
      · rw [← Option.some.inj h]
  | abortUpload transferId | stopFinalizer finalizer =>
    cases h
    rfl
  | loadStagedArtifacts finalizer =>
    simp only [Step, step] at h
    split at h
    · split at h
      · rw [← Option.some.inj h]; rfl
      · rw [← Option.some.inj h]; rfl
    · cases h
  | validateFinalization finalizer access projectId hasStorage assetIds =>
    simp only [Step, step] at h
    split at h
    · split at h
      · unfold validated at h
        split at h
        · rw [← Option.some.inj h]; rfl
        · split at h
          · rw [← Option.some.inj h]; rfl
          · cases h
        · rw [← Option.some.inj h]; rfl
        · rw [← Option.some.inj h]; rfl
      · cases h
    · cases h
  | lockFinalization finalizer now | writePublication finalizer artifactIds =>
    simp only [Step, step] at h
    split at h
    · split at h
      · cases h
      · split at h
        · rw [← Option.some.inj h]; rfl
        · rw [← Option.some.inj h]; rfl
    · cases h
  | _ => cases hleaves

/-- A step moves jobs, or inserts the job that is being admitted. -/
theorem step_moves (hinv : Inv s.db) (h : Step externals config s action t) :
    Moves config s.db t.db ∨ ∃ command, action = .reserveNext
      ∧ s.admission = some ⟨command, .insert⟩
      ∧ insertJob s.db (command.row config) = some t.db := by
  have hkeys := hinv.keyed
  have hmoved : ∀ {db : Database}, Moved config s.db db → t.db = db →
      Moves config s.db t.db ∨ ∃ command, action = .reserveNext
        ∧ s.admission = some ⟨command, .insert⟩
        ∧ insertJob s.db (command.row config) = some t.db := by
    intro db hmoved heq
    rw [heq]
    exact .inl (.single hmoved)
  have hsame : t.db = s.db → Moves config s.db t.db ∨ ∃ command, action = .reserveNext
      ∧ s.admission = some ⟨command, .insert⟩
      ∧ insertJob s.db (command.row config) = some t.db := by
    intro heq
    rw [heq]
    exact .inl .refl
  -- each statement has its lemma; the steps outside the tables are `hsame`
  cases action with
  | reserveNext =>
    simp only [Step, step, reserveNext] at h
    split at h
    · simp at h
    rename_i admission hadmission
    split at h
    · exact hsame (by rw [← Option.some.inj h])
    rename_i reply db hanswered
    split at h
    · have hdb : t.db = db := by rw [← Option.some.inj h]; rfl
      rcases reserveStatement_answered hanswered with ⟨heq, _⟩ | ⟨hstage, _, hinsert⟩
      · exact hsame (by rw [hdb, heq])
      · -- the row of a new job is no move of an old one
        refine .inr ⟨admission.command, rfl, ?_, by rw [hdb]; exact hinsert⟩
        rw [hadmission, ← hstage]
    · simp at h
  | pinProjectAssets jobId objectKeys =>
    rcases Option.bind_eq_some_iff.mp h with ⟨db, hpinned, hcommitted⟩
    rcases pinProjectAssets_frame hpinned with ⟨pins, heq⟩
    refine hmoved (.of_frame hkeys ?_ ?_) (committed_db hcommitted) <;> rw [heq]
  | releaseProjectAssetPins jobId =>
    have hdb : t.db = s.db.deletePins jobId := committed_db h
    have hmove : Moved config s.db t.db := by
      rw [hdb]
      exact .of_frame hkeys rfl rfl
    exact hmoved hmove rfl
  | storePreparedInput jobId blobId input =>
    exact hmoved (storePreparedInput_moved hkeys jobId blobId input) (committed_db h)
  | markPreparationFailed jobId code message now =>
    exact hmoved (markPreparationFailed_moved hkeys jobId code message now) (committed_db h)
  | cancelJob userId jobId now =>
    exact hmoved (cancelJob_moved hkeys userId jobId now) (committed_db h)
  | setWorkers sessions processors =>
    have hdb : t.db = { s.db with sessions := sessions, processors := processors } := by
      rw [← Option.some.inj h]
    have hmove : Moved config s.db t.db := by
      rw [hdb]
      exact .of_frame hkeys rfl rfl
    exact hmoved hmove rfl
  | tryClaim worker draw locked sessionId offers now =>
    exact hmoved (tryClaim_moved hkeys worker draw locked sessionId offers now) (committed_db h)
  | heartbeatClaim worker sessionId claimId phase now =>
    exact hmoved (heartbeatClaim_moved hkeys worker sessionId claimId phase now) (committed_db h)
  | createArtifactTransfer worker id token request now =>
    exact hmoved (.of_frame hkeys createArtifactTransfer_frame.1 createArtifactTransfer_frame.2)
      (committed_db h)
  | downloadTransfer transferId token now =>
    exact hmoved (.of_frame hkeys downloadTransfer_frame.1 downloadTransfer_frame.2)
      (committed_db h)
  | storeUpload transferId blobId =>
    simp only [Step, step, finishUpload] at h
    split at h
    · simp at h
    · exact hmoved (.of_frame hkeys storeUpload_frame.1 storeUpload_frame.2) (committed_db h)
  | completeClaim worker sessionId claimId artifacts now =>
    exact hmoved (completeClaim_moved hkeys worker sessionId claimId artifacts now) (committed_db h)
  | mutateFailedClaim worker sessionId claimId failure now =>
    exact hmoved (mutateFailedClaim_moved hkeys worker sessionId claimId failure now)
      (committed_db h)
  | maintainLifecycle locked now =>
    rw [committed_db h]
    exact .inl (maintainLifecycle_moves hinv locked now)
  | acquireFinalizationLease finalizer jobId token now =>
    simp only [Step, step] at h
    split at h
    · simp at h
    rcases Option.bind_eq_some_iff.mp h with ⟨acquired, hacquired, hrest⟩
    rcases Option.map_eq_some_iff.mp hrest with ⟨s', hcommitted, heq⟩
    have hdb : s'.db = acquired.2 := committed_db hcommitted
    refine hmoved (acquireFinalizationLease_moved hkeys hacquired) ?_
    rw [← heq]
    exact hdb
  | rejectArtifacts finalizer now =>
    simp only [Step, step] at h
    split at h
    · exact hmoved (rejectArtifacts_moved hkeys _ _ now) (committed_db h)
    · simp at h
  | commitPublication finalizer =>
    simp only [Step, step] at h
    split at h
    · split at h
      · rename_i hpublished
        exact hmoved (publish_moved hkeys hpublished) (committed_db h)
      · exact hsame (by rw [← Option.some.inj h]; rfl)
    · simp at h
  | deleteJobs gone => exact hmoved (.of_deleteJobs hkeys _) (committed_db h)
  | deleteProject projectId =>
    rw [committed_db h]
    exact .inl (deleteProject_moves hkeys projectId)
  | reserveBegin | reserveAbort | checkUpload | abortUpload | loadStagedArtifacts
  | validateFinalization | lockFinalization | writePublication | stopFinalizer =>
    exact hsame (step_tables h rfl)

/-- What a statement of an admission does: it leaves the tables alone and goes
on, answers without a row, or inserts the job. -/
theorem reserveNext_cases (h : Step externals config s .reserveNext t) :
    ∃ admission, s.admission = some admission ∧
      ((∃ stage, reserveStatement config s.db admission.command admission.stage = .next stage
          ∧ t = { s with admission := some { admission with stage := stage } })
        ∨ ∃ reply db, reserveStatement config s.db admission.command admission.stage
            = .answered reply db
          ∧ t = { s with db := db }.answer admission.command reply) := by
  simp only [Step, step, reserveNext] at h
  split at h
  · simp at h
  rename_i admission hadmission
  refine ⟨admission, hadmission, ?_⟩
  split at h
  · rename_i stage hnext
    exact .inl ⟨stage, hnext, (Option.some.inj h).symm⟩
  rename_i reply db hanswered
  split at h
  · exact .inr ⟨reply, db, hanswered, (Option.some.inj h).symm⟩
  · simp at h

/-- What is kept of the requests under way. -/
def System.calls (s : System) : Option Admission × List Uuid × List PendingUpload :=
  (s.admission, s.jobIds, s.uploads)

/-- The steps of admissions and uploads. -/
def Action.isCallStep : Action → Bool
  | .reserveBegin _ | .reserveNext | .reserveAbort | .checkUpload .. | .storeUpload ..
  | .abortUpload _ => true
  | _ => false

theorem step_calls (h : Step externals config s action t)
    (hother : action.isCallStep = false) : t.calls = s.calls := by
  have hcommitted : ∀ {s' : System} {db : Database}, s'.committed db = some t →
      s'.calls = s.calls → t.calls = s.calls := by
    intro s' db hdb hsame
    rw [(committed_some hdb).2]
    exact hsame
  have hsome : ∀ {s' : System}, some s' = some t → s'.calls = s.calls → t.calls = s.calls := by
    intro s' heq hsame
    cases heq
    exact hsame
  -- the steps of calls are excluded; the others return the calls as they are
  cases action with
  | reserveBegin | reserveNext | reserveAbort | checkUpload | storeUpload | abortUpload =>
    cases hother
  | pinProjectAssets jobId objectKeys =>
    rcases Option.bind_eq_some_iff.mp h with ⟨db, _, hdb⟩
    exact hcommitted hdb rfl
  | setWorkers sessions processors | stopFinalizer finalizer =>
    simp only [Step, step] at h
    exact hsome h rfl
  | acquireFinalizationLease finalizer jobId token now =>
    simp only [Step, step] at h
    split at h
    · simp at h
    rcases Option.bind_eq_some_iff.mp h with ⟨acquired, _, hrest⟩
    rcases Option.map_eq_some_iff.mp hrest with ⟨s', hdb, heq⟩
    rw [← heq]
    show s'.calls = s.calls
    rw [(committed_some hdb).2]
    rfl
  | loadStagedArtifacts finalizer =>
    simp only [Step, step] at h
    split at h
    · split at h <;> exact hsome h rfl
    · simp at h
  | validateFinalization finalizer access projectId hasStorage assetIds =>
    simp only [Step, step] at h
    split at h
    · split at h
      · unfold validated at h
        split at h
        · exact hsome h rfl
        · split at h
          · exact hsome h rfl
          · simp at h
        · exact hsome h rfl
        · exact hsome h rfl
      · simp at h
    · simp at h
  | rejectArtifacts finalizer now =>
    simp only [Step, step] at h
    split at h
    · exact hcommitted h rfl
    · simp at h
  | lockFinalization finalizer now | writePublication finalizer artifactIds =>
    simp only [Step, step] at h
    split at h
    · split at h
      · simp at h
      · split at h <;> exact hsome h rfl
    · simp at h
  | commitPublication finalizer =>
    simp only [Step, step] at h
    split at h
    · split at h
      · exact hcommitted h rfl
      · exact hsome h rfl
    · simp at h
  | _ =>
    simp only [Step, step] at h
    exact hcommitted h rfl

/-- A step that is not of an admission leaves the one under way alone, and draws
no identifier for a job. -/
theorem step_admission
    (hother : ∀ command, action ≠ .reserveBegin command) (hnext : action ≠ .reserveNext)
    (habort : action ≠ .reserveAbort) (h : Step externals config s action t) :
    t.admission = s.admission ∧ t.jobIds = s.jobIds := by
  have hcalls : action.isCallStep = false → t.admission = s.admission ∧ t.jobIds = s.jobIds := by
    intro hstep
    have hsame := step_calls h hstep
    exact ⟨congrArg Prod.fst hsame, congrArg (fun calls => calls.2.1) hsame⟩
  cases action with
  | reserveBegin command => exact absurd rfl (hother command)
  | reserveNext => exact absurd rfl hnext
  | reserveAbort => exact absurd rfl habort
  | checkUpload transferId token content now =>
    simp only [Step, step] at h
    split at h
    · simp at h
    · split at h
      · rw [← Option.some.inj h]; exact ⟨rfl, rfl⟩
      · rw [← Option.some.inj h]; exact ⟨rfl, rfl⟩
  | storeUpload transferId blobId =>
    simp only [Step, step, finishUpload] at h
    split at h
    · simp at h
    · rw [(committed_some h).2]
      exact ⟨rfl, rfl⟩
  | abortUpload transferId =>
    cases h
    exact ⟨rfl, rfl⟩
  | _ => exact hcalls rfl

theorem step_inv (hinv : Inv s.db) (h : Step externals config s action t) : Inv t.db := by
  rcases step_moves hinv h with hmoves | ⟨command, _, _, hinsert⟩
  · exact hmoves.inv hinv
  · exact insertJob_inv hinv hinsert

theorem initial_inv : Inv ({} : System).db where
  keyed := ⟨List.nodup_nil, List.nodup_nil, List.nodup_nil, fun _ h => absurd h List.not_mem_nil⟩
  job _ h := absurd h List.not_mem_nil

/-- In every reachable state each job is tied to its attempts. -/
theorem reachable_inv {actions : List Action} {s : System}
    (hrun : Run (Step externals config) {} actions s) : Inv s.db :=
  hrun.invariant (fun _ _ _ hinv h => step_inv hinv h) initial_inv

end Toss.Processing
