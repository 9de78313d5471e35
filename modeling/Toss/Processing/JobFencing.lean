import Toss.Processing.JobInvariant

/-!
# The job state machine is fenced

What a whole run can make of one job, from the edges of `JobMove` under the
invariant of jobs.

* `Moves.rel`, `run_rel` — a relation of jobs that every edge keeps, over any
  statements and over whole runs;
* `step_of_stale` — a call under a claim that is not the job's current one;
* `jobs_fenced` — the five properties, in every reachable state.
-/

namespace Toss.Processing

open Toss.Foundation

variable {externals : Externals} {config : ProcessingConfig}

/-! ## One job over several statements -/

variable {db db' : Database} {r : JobRow → JobRow → Prop} {id : Uuid} {now : Timestamp}
  {claimId : Uuid}

/-- A relation that each edge keeps under the invariant holds between a job with
its attempts and what any number of statements make of them. -/
theorem Moves.relAttempts {r : JobRow → List AttemptRow → JobRow → List AttemptRow → Prop}
    (hrefl : ∀ job attempts, r job attempts job attempts)
    (htrans : ∀ a as b bs c cs, r a as b bs → r b bs c cs → r a as c cs)
    (hmove : ∀ job attempts job' attempts', JobMove config job attempts job' attempts' →
      JobInv job attempts → (attempts.map AttemptRow.claimId).Nodup →
      (attempts.map AttemptRow.id).Nodup → r job attempts job' attempts')
    (hmoves : Moves config db db') (hinv : Inv db) :
    ∀ job' ∈ db'.jobs, ∃ job ∈ db.jobs, job'.id = job.id
      ∧ r job (db.attemptsOf job.id) job' (db'.attemptsOf job'.id) := by
  induction hmoves with
  | refl => exact fun job hjob => ⟨job, hjob, rfl, hrefl job _⟩
  | @tail mid db' hmoves hmoved ih =>
    intro job' hjob'
    have hmid : Inv mid := Moves.inv hmoves hinv
    rcases hmoved.job job' hjob' with ⟨between, hbetween, hedge⟩
    rcases ih between hbetween with ⟨job, hjob, hid, hr⟩
    exact ⟨job, hjob, by rw [hedge.sameJob.id, hid], htrans _ _ _ _ _ _ hr
      (hmove _ _ _ _ hedge (hmid.job between hbetween) (claims_attemptsOf hmid.keyed between.id)
        (hmid.keyed.attempts.sublist (List.filter_sublist.map _)))⟩

theorem Moves.rel (hrefl : ∀ job, r job job) (htrans : ∀ a b c, r a b → r b c → r a c)
    (hmove : ∀ job attempts job' attempts', JobMove config job attempts job' attempts' →
      JobInv job attempts → (attempts.map AttemptRow.claimId).Nodup → r job job')
    (hmoves : Moves config db db') (hinv : Inv db) :
    ∀ job' ∈ db'.jobs, ∃ job ∈ db.jobs, job'.id = job.id ∧ r job job' :=
  Moves.relAttempts (r := fun job _ job' _ => r job job') (fun job _ => hrefl job)
    (fun a _ b _ c _ => htrans a b c) (fun a as b bs h hinv hclaims _ => hmove a as b bs h hinv hclaims)
    hmoves hinv

variable {s t : System} {action : Action} {job job' : JobRow} {actions : List Action}

/-- What a step makes of a job that was there before it, and of its attempts. -/
theorem step_relAttempts {r : JobRow → List AttemptRow → JobRow → List AttemptRow → Prop}
    (hrefl : ∀ job attempts, r job attempts job attempts)
    (htrans : ∀ a as b bs c cs, r a as b bs → r b bs c cs → r a as c cs)
    (hmove : ∀ job attempts job' attempts', JobMove config job attempts job' attempts' →
      JobInv job attempts → (attempts.map AttemptRow.claimId).Nodup →
      (attempts.map AttemptRow.id).Nodup → r job attempts job' attempts')
    (hinv : Inv s.db) (hstep : Step externals config s action t)
    (hjob : job ∈ s.db.jobs) (hjob' : job' ∈ t.db.jobs) (hid : job'.id = job.id) :
    r job (s.db.attemptsOf job.id) job' (t.db.attemptsOf job'.id) := by
  rcases step_moves hinv hstep with hmoves | ⟨command, _, _, hinsert⟩
  · rcases Moves.relAttempts hrefl htrans hmove hmoves hinv job' hjob' with
      ⟨old, hold, hsame, hr⟩
    rwa [hinv.keyed.job_eq hjob hold (hsame.symm.trans hid)] at hr
  rcases insertJob_cases hinsert with ⟨hfresh, hdb⟩
  rw [hdb] at hjob' ⊢
  rcases List.mem_append.mp hjob' with hold | hnew
  · rw [hinv.keyed.job_eq hjob hold hid]
    exact hrefl job _
  · rw [List.mem_singleton.mp hnew] at hid
    exact absurd hid.symm (hfresh job hjob).1

theorem step_rel (hrefl : ∀ job, r job job) (htrans : ∀ a b c, r a b → r b c → r a c)
    (hmove : ∀ job attempts job' attempts', JobMove config job attempts job' attempts' →
      JobInv job attempts → (attempts.map AttemptRow.claimId).Nodup → r job job')
    (hinv : Inv s.db) (hstep : Step externals config s action t)
    (hjob : job ∈ s.db.jobs) (hjob' : job' ∈ t.db.jobs) (hid : job'.id = job.id) : r job job' :=
  step_relAttempts (r := fun job _ job' _ => r job job') (fun job _ => hrefl job)
    (fun a _ b _ c _ => htrans a b c) (fun a as b bs h hinv hclaims _ => hmove a as b bs h hinv hclaims)
    hinv hstep hjob hjob' hid

/-! ## One job over a run -/

theorem run_inv (hrun : Run (Step externals config) s actions t) (hinv : Inv s.db) : Inv t.db :=
  hrun.invariant (fun _ _ _ hinv h => step_inv hinv h) hinv

/-- An identifier that was drawn, for a job that is not being admitted. -/
structure Settled (s : System) (id : Uuid) : Prop where
  drawn : id ∈ s.jobIds
  admitted : ∀ admission ∈ s.admission, admission.command.id ≠ id

/-- A job that is not there any more. -/
structure Gone (s : System) (id : Uuid) : Prop where
  settled : Settled s id
  absent : ∀ job ∈ s.db.jobs, job.id ≠ id

/-- Identifiers of jobs are drawn once. -/
structure IdsInv (s : System) : Prop where
  jobs : ∀ job ∈ s.db.jobs, job.id ∈ s.jobIds
  admission : ∀ admission ∈ s.admission, admission.command.id ∈ s.jobIds
    ∧ ∀ job ∈ s.db.jobs, job.id ≠ admission.command.id

theorem Moves.ids (hmoves : Moves config db db') {job' : JobRow}
    (hjob' : job' ∈ db'.jobs) : ∃ job ∈ db.jobs, job.id = job'.id := by
  induction hmoves generalizing job' with
  | refl => exact ⟨job', hjob', rfl⟩
  | tail _ hmoved ih =>
    rcases hmoved.job job' hjob' with ⟨between, hbetween, hedge⟩
    rcases ih hbetween with ⟨job, hjob, hid⟩
    exact ⟨job, hjob, by rw [hid, hedge.sameJob.id]⟩

/-- How a step changes the admission under way and the identifiers drawn. -/
theorem step_ids (hinv : Inv s.db) (h : Step externals config s action t) :
    (Moves config s.db t.db ∧ t.jobIds = s.jobIds
      ∧ (t.admission = none ∨ ∃ admission ∈ s.admission, ∃ stage,
        t.admission = some { admission with stage := stage }))
    ∨ (∃ command, action = .reserveBegin command ∧ command.id ∉ s.jobIds ∧ t.db = s.db
      ∧ t.jobIds = command.id :: s.jobIds ∧ t.admission = some ⟨command, .find⟩)
    ∨ (∃ command, s.admission = some ⟨command, .insert⟩ ∧ t.admission = none
      ∧ t.jobIds = s.jobIds ∧ insertJob s.db (command.row config) = some t.db) := by
  by_cases hbegin : ∃ command, action = .reserveBegin command
  · rcases hbegin with ⟨command, rfl⟩
    simp only [Step, step] at h
    split at h
    · simp at h
    rename_i hfree
    have hfresh : command.id ∉ s.jobIds := by
      simp only [Bool.or_eq_true, not_or] at hfree
      simpa using hfree.2
    cases h
    exact .inr (.inl ⟨command, rfl, hfresh, rfl, rfl, rfl⟩)
  · by_cases hnext : action = .reserveNext
    · subst hnext
      rcases reserveNext_cases h with
        ⟨admission, hadmission, ⟨stage, _, rfl⟩ | ⟨reply, db, hanswered, rfl⟩⟩
      · exact .inl ⟨.refl, rfl, .inr ⟨admission, hadmission, stage, rfl⟩⟩
      rcases reserveStatement_answered hanswered with ⟨rfl, _⟩ | ⟨hstage, _, hinsert⟩
      · exact .inl ⟨.refl, rfl, .inl rfl⟩
      · refine .inr (.inr ⟨admission.command, ?_, rfl, rfl, hinsert⟩)
        rw [hadmission, ← hstage]
    · have hmoves : Moves config s.db t.db := by
        rcases step_moves hinv h with hmoves | ⟨_, heq, _⟩
        · exact hmoves
        · exact absurd heq hnext
      by_cases habort : action = .reserveAbort
      · subst habort
        rcases Option.map_eq_some_iff.mp h with ⟨_, _, rfl⟩
        exact .inl ⟨.refl, rfl, .inl rfl⟩
      have hframe := step_admission (fun command heq => hbegin ⟨command, heq⟩) hnext habort h
      refine .inl ⟨hmoves, hframe.2, ?_⟩
      rw [hframe.1]
      rcases hadmission : s.admission with _ | admission
      · exact .inl rfl
      · exact .inr ⟨admission, rfl, admission.stage, rfl⟩

theorem IdsInv.step (hids : IdsInv s) (hinv : Inv s.db)
    (h : Step externals config s action t) : IdsInv t := by
  rcases step_ids hinv h with ⟨hmoves, hdrawn, hadmission⟩ | ⟨command, _, hfresh, hdb, hdrawn, hat⟩
    | ⟨command, hat, hdone, hdrawn, hinsert⟩
  · constructor
    · intro job' hjob'
      rcases Moves.ids hmoves hjob' with ⟨job, hjob, hid⟩
      rw [hdrawn, ← hid]
      exact hids.jobs job hjob
    · intro admission' hsome
      rcases hadmission with hnone | ⟨admission, hadmission, stage, heq⟩
      · simp [hnone] at hsome
      rw [heq] at hsome
      rw [← Option.some.inj hsome, hdrawn]
      refine ⟨(hids.admission admission hadmission).1, ?_⟩
      intro job' hjob'
      rcases Moves.ids hmoves hjob' with ⟨job, hjob, hid⟩
      rw [← hid]
      exact (hids.admission admission hadmission).2 job hjob
  · constructor
    · intro job hjob
      rw [hdb] at hjob
      rw [hdrawn]
      exact List.mem_cons_of_mem _ (hids.jobs job hjob)
    · intro admission hsome
      rw [hat] at hsome
      rw [← Option.some.inj hsome, hdrawn, hdb]
      refine ⟨List.mem_cons_self, ?_⟩
      intro job hjob hid
      exact hfresh (by rw [← hid]; exact hids.jobs job hjob)
  · constructor
    · intro job hjob
      rw [(insertJob_cases hinsert).2] at hjob
      rw [hdrawn]
      rcases List.mem_append.mp hjob with hold | hnew
      · exact hids.jobs job hold
      · rw [List.mem_singleton.mp hnew]
        exact (hids.admission _ hat).1
    · intro admission hsome
      simp [hdone] at hsome

theorem IdsInv.settled {s : System} (hids : IdsInv s) {job : JobRow} (hjob : job ∈ s.db.jobs) :
    Settled s job.id :=
  ⟨hids.jobs job hjob, fun admission hsome hsame => (hids.admission admission hsome).2 job hjob hsame.symm⟩

/-- A step keeps an identifier settled, and brings no job back under it. -/
theorem Settled.step (hsettled : Settled s id)
    (hinv : Inv s.db) (h : Step externals config s action t) :
    Settled t id ∧ ∀ job' ∈ t.db.jobs, job'.id = id → ∃ job ∈ s.db.jobs, job.id = id := by
  rcases step_ids hinv h with ⟨hmoves, hdrawn, hadmission⟩ | ⟨command, _, hfresh, hdb, hdrawn, hat⟩
    | ⟨command, hat, hdone, hdrawn, hinsert⟩
  · refine ⟨⟨by rw [hdrawn]; exact hsettled.drawn, ?_⟩, ?_⟩
    · intro admission' hsome
      rcases hadmission with hnone | ⟨admission, hadmission, stage, heq⟩
      · simp [hnone] at hsome
      · rw [heq] at hsome
        cases hsome
        exact hsettled.admitted admission hadmission
    · intro job' hjob' hid
      rcases Moves.ids hmoves hjob' with ⟨job, hjob, hsame⟩
      exact ⟨job, hjob, hsame.trans hid⟩
  · refine ⟨⟨by rw [hdrawn]; exact List.mem_cons_of_mem _ hsettled.drawn, ?_⟩, ?_⟩
    · intro admission hsome hsame
      rw [hat] at hsome
      rw [← Option.some.inj hsome] at hsame
      exact hfresh (by rw [hsame]; exact hsettled.drawn)
    · intro job' hjob' hid
      rw [hdb] at hjob'
      exact ⟨job', hjob', hid⟩
  · refine ⟨⟨by rw [hdrawn]; exact hsettled.drawn, ?_⟩, ?_⟩
    · intro admission hsome
      simp [hdone] at hsome
    · intro job' hjob' hid
      rw [(insertJob_cases hinsert).2] at hjob'
      rcases List.mem_append.mp hjob' with hold | hnew
      · exact ⟨job', hold, hid⟩
      · rw [List.mem_singleton.mp hnew] at hid
        exact absurd hid (hsettled.admitted _ hat)

theorem Gone.step (hgone : Gone s id)
    (hinv : Inv s.db) (h : Step externals config s action t) : Gone t id := by
  rcases hgone.settled.step hinv h with ⟨hsettled, hback⟩
  refine ⟨hsettled, ?_⟩
  intro job' hjob' hid
  rcases hback job' hjob' hid with ⟨job, hjob, hsame⟩
  exact hgone.absent job hjob hsame

theorem initial_idsInv : IdsInv {} where
  jobs _ h := absurd h List.not_mem_nil
  admission _ h := by simp at h

theorem reachable_idsInv {s : System}
    (hrun : Run (Step externals config) {} actions s) : IdsInv s := by
  have hstep : ∀ (u : System) (action : Action) (v : System), IdsInv u ∧ Inv u.db →
      Step externals config u action v → IdsInv v ∧ Inv v.db :=
    fun _ _ _ hboth h => ⟨hboth.1.step hboth.2 h, step_inv hboth.2 h⟩
  exact (hrun.invariant hstep ⟨initial_idsInv, initial_inv⟩).1

/-- A job that is no longer there does not come back. -/
theorem Gone.run
    (hrun : Run (Step externals config) s actions t) (hgone : Gone s id) (hinv : Inv s.db) :
    Gone t id := by
  induction hrun with
  | nil s => exact hgone
  | cons hstep _ ih => exact ih (hgone.step hinv hstep) (step_inv hinv hstep)

/-- A relation that each edge keeps under the invariant holds between a job and
what any run makes of it. -/
theorem run_rel (hrefl : ∀ job, r job job) (htrans : ∀ a b c, r a b → r b c → r a c)
    (hmove : ∀ job attempts job' attempts', JobMove config job attempts job' attempts' →
      JobInv job attempts → (attempts.map AttemptRow.claimId).Nodup → r job job')
    (hrun : Run (Step externals config) s actions t)
    (hinv : Inv s.db) (hids : IdsInv s) (hjob : job ∈ s.db.jobs)
    (hjob' : job' ∈ t.db.jobs) (hid : job'.id = job.id) : r job job' := by
  induction hrun generalizing job with
  | nil s =>
    rw [hinv.keyed.job_eq hjob hjob' hid]
    exact hrefl job
  | @cons s mid t action rest hstep hrest ih =>
    by_cases hpresent : ∃ between ∈ mid.db.jobs, between.id = job.id
    · rcases hpresent with ⟨between, hbetween, hsame⟩
      exact htrans _ _ _ (step_rel hrefl htrans hmove hinv hstep hjob hbetween hsame)
        (ih (step_inv hinv hstep) (hids.step hinv hstep) hbetween hjob' (hid.trans hsame.symm))
    have hgone : Gone mid job.id :=
      ⟨((hids.settled hjob).step hinv hstep).1,
        fun between hbetween hsame => hpresent ⟨between, hbetween, hsame⟩⟩
    exact absurd hid ((hgone.run hrest (step_inv hinv hstep)).absent job' hjob')

/-! ## Terminal states -/

variable {attempts attempts' : List AttemptRow}

theorem JobMove.terminal (h : JobMove config job attempts job' attempts')
    (hterminal : job.state.isTerminal = true) : job'.state = job.state := by
  have hnot : ∀ state : ProcessingJobState, state.isTerminal = false → job.state ≠ state := by
    intro state hactive hstate
    rw [hstate, hactive] at hterminal
    simp at hterminal
  cases h with
  | same | renewed | leased | detached => rfl
  | prepared _ _ hstate | cancelling hstate | cacheHit _ _ hstate | claimed _ _ _ _ hstate
  | givenUp _ _ _ _ _ _ _ _ hstate | lost _ _ _ hstate | succeeded _ _ hstate
  | rejected _ _ hstate => exact absurd hstate (hnot _ rfl)
  | waitingEnded _ _ _ hwaiting | cancelledWaiting _ hwaiting =>
    rcases hwaiting with h | h
    · exact absurd h (hnot _ rfl)
    · exact absurd h (hnot _ rfl)
  | delivered _ _ _ hholds =>
    simp only [holdsClaim, Bool.and_eq_true, decide_eq_true_eq] at hholds
    exact absurd hholds.2 (hnot _ rfl)

/-! ## Cancellation -/

/-- What a cancellation that was requested still allows. -/
def CancellationKept (job job' : JobRow) : Prop :=
  job.cancellationRequested = true → job'.cancellationRequested = true
    ∧ ∀ lease' ∈ job'.claimExpiresAt, ∃ lease ∈ job.claimExpiresAt, lease' ≤ lease

theorem JobMove.cancellationKept (h : JobMove config job attempts job' attempts')
    (hinv : JobInv job attempts) (hclaims : (attempts.map AttemptRow.claimId).Nodup) :
    CancellationKept job job' := by
  intro hflag
  have hsame : ∀ lease' ∈ job.claimExpiresAt, ∃ lease ∈ job.claimExpiresAt, lease' ≤ lease :=
    fun lease' hlease => ⟨lease', hlease, le_rfl⟩
  have hnone : ∀ lease' ∈ (none : Option Timestamp), ∃ lease ∈ job.claimExpiresAt, lease' ≤ lease :=
    fun lease' hlease => by simp at hlease
  cases h with
  | same | prepared | waitingEnded | cacheHit | leased | succeeded | rejected | detached =>
    exact ⟨hflag, hsame⟩
  | cancelledWaiting | cancelling => exact ⟨rfl, hsame⟩
  | claimed _ _ _ _ _ hunflagged => exact absurd hflag (by simp [hunflagged])
  | renewed attempt phase now hmem hholds =>
    simp only [holdsClaim, Bool.and_eq_true, decide_eq_true_eq] at hholds
    rcases hinv.holder hclaims hholds.2 hmem hholds.1.1.2 with ⟨-, hlease, -⟩
    refine ⟨hflag, ?_⟩
    intro lease' hlease'
    -- the renewed lease is what is left of the attempt's, or less
    have hrenewed : min attempt.leaseExpiresAt (now + seconds 10) = lease' := by
      have h := Option.some.inj hlease'
      rwa [renewedLease, if_pos hflag] at h
    refine ⟨attempt.leaseExpiresAt, by rw [hlease]; rfl, ?_⟩
    rw [← hrenewed]
    exact min_le_left _ _
  | delivered | givenUp | lost => exact ⟨hflag, hnone⟩

/-! ## Stale claims -/

/-- The claim that a call presents, and the clock value it presents it at. -/
def Action.presents : Action → Option (Uuid × Timestamp)
  | .heartbeatClaim _ _ claimId _ now => some (claimId, now)
  | .createArtifactTransfer _ _ _ request now => some (request.claimId, now)
  | .completeClaim _ _ claimId _ now => some (claimId, now)
  | .mutateFailedClaim _ _ claimId _ now => some (claimId, now)
  | _ => none

/-- A claim that no job is running under, or no longer at this clock value. -/
def IsStale (db : Database) (claimId : Uuid) (now : Timestamp) : Prop :=
  ∀ job ∈ db.jobs, job.currentClaimId = some claimId → ∀ lease ∈ job.claimExpiresAt, lease ≤ now

variable {worker : AuthenticatedWorker}

/-- An attempt that a claim is presented for does not hold it once it is stale. -/
theorem not_current_of_stale {db : Database} (hinv : Inv db) (hstale : IsStale db claimId now)
    {sessionId : Uuid} {attempt : AttemptRow} {job : JobRow}
    (hclaim : db.claimOf worker sessionId claimId = some (attempt, job))
    (hstate : job.state = .running) (hcurrent : job.currentClaimId = some claimId)
    (hlease : now < attempt.leaseExpiresAt) : False := by
  rcases claimOf_some hclaim with ⟨hattempt, hsame, hjob, _⟩
  rcases mem_runningAttempt hinv hjob hstate with
    ⟨running, hrunning, _, _, hclaimed, hexpiry, _⟩
  have heq : attempt = running := by
    refine hinv.keyed.claim_eq hrunning hattempt ?_
    rw [hsame]
    rw [hclaimed] at hcurrent
    exact (Option.some.inj hcurrent).symm
  have hpast := hstale job hjob hcurrent running.leaseExpiresAt hexpiry
  rw [heq] at hlease
  exact absurd hlease (Int.not_lt.mpr hpast)

theorem not_holds_of_stale {db : Database} (hinv : Inv db) (hstale : IsStale db claimId now)
    {sessionId : Uuid} {attempt : AttemptRow} {job : JobRow}
    (hclaim : db.claimOf worker sessionId claimId = some (attempt, job)) :
    holdsClaim job attempt claimId now = false := by
  refine Bool.eq_false_iff.mpr fun hholds => ?_
  simp only [holdsClaim, Bool.and_eq_true, decide_eq_true_eq] at hholds
  exact not_current_of_stale hinv hstale hclaim hholds.2 hholds.1.1.2 hholds.1.2

/-- A call that presents a stale claim changes nothing. -/
theorem step_of_stale (hinv : Inv s.db) (hpresents : action.presents = some (claimId, now))
    (hstale : IsStale s.db claimId now) (hstep : Step externals config s action t) : t = s := by
  have hsame : s.committed s.db = some t → t = s := fun h => (committed_some h).2
  cases action with
  | heartbeatClaim worker sessionId claimId phase now =>
    simp only [Action.presents, Option.some.injEq, Prod.mk.injEq] at hpresents
    rcases hpresents with ⟨rfl, rfl⟩
    refine hsame ?_
    rcases heartbeatClaim_cases worker s.db sessionId claimId phase now with
      heq | ⟨attempt, job, hclaim, hholds, _⟩
    · rw [← hstep, step, heq]
    · rw [not_holds_of_stale hinv hstale hclaim] at hholds
      simp at hholds
  | createArtifactTransfer worker id token request now =>
    simp only [Action.presents, Option.some.injEq, Prod.mk.injEq] at hpresents
    rcases hpresents with ⟨rfl, rfl⟩
    refine hsame ?_
    rw [← hstep, step]
    congr 1
    unfold createArtifactTransfer
    split
    · rfl
    · rename_i attempt job hclaim
      rw [if_pos (.inl (not_holds_of_stale hinv hstale hclaim))]
  | completeClaim worker sessionId claimId artifacts now =>
    simp only [Action.presents, Option.some.injEq, Prod.mk.injEq] at hpresents
    rcases hpresents with ⟨rfl, rfl⟩
    refine hsame ?_
    rcases completeClaim_cases worker s.db sessionId claimId artifacts now with
      heq | ⟨attempt, job, hclaim, hholds, _⟩
    · rw [← hstep, step, heq]
    · rw [not_holds_of_stale hinv hstale hclaim] at hholds
      simp at hholds
  | mutateFailedClaim worker sessionId claimId failure now =>
    simp only [Action.presents, Option.some.injEq, Prod.mk.injEq] at hpresents
    rcases hpresents with ⟨rfl, rfl⟩
    refine hsame ?_
    rcases mutateFailedClaim_cases worker s.db sessionId claimId failure now with
      heq | ⟨attempt, job, hclaim, hstate, hcurrent, hlease, _⟩
    · rw [← hstep, step, heq]
    · exact (not_current_of_stale hinv hstale hclaim hstate hcurrent hlease).elim
  | _ => simp [Action.presents] at hpresents

/-! ## The state machine -/

/-- In every state that any interleaving of calls, ticks and finalizers reaches,
at any clock values: terminal states are absorbing; a job is running exactly when
one of its attempts is, under the claim and the lease of the job; a job has as
many attempts as it counts, and no more than it may have; a call under a claim
that is not the current unexpired one changes nothing; and a cancellation that
was requested is neither forgotten nor overtaken by a result, and the lease of
the worker that is to stop is not extended. -/
theorem jobs_fenced {actions : List Action} {s : System}
    (hrun : Run (Step externals config) {} actions s) :
    (∀ more t, Run (Step externals config) s more t → ∀ job ∈ s.db.jobs,
      job.state.isTerminal = true → ∀ job' ∈ t.db.jobs, job'.id = job.id → job'.state = job.state)
    ∧ (∀ job ∈ s.db.jobs, job.state = .running ↔
      ∃ attempt, runningOf (s.db.attemptsOf job.id) = [attempt]
        ∧ job.currentClaimId = some attempt.claimId
        ∧ job.claimExpiresAt = some attempt.leaseExpiresAt)
    ∧ (∀ job ∈ s.db.jobs, job.attemptCount = (s.db.attemptsOf job.id).length
      ∧ job.attemptCount ≤ job.maxAttempts)
    ∧ (∀ action claimId now, action.presents = some (claimId, now) → IsStale s.db claimId now →
      ∀ t, Step externals config s action t → t = s)
    ∧ (∀ job ∈ s.db.jobs, job.cancellationRequested = true →
      ∀ more t, Run (Step externals config) s more t → ∀ job' ∈ t.db.jobs, job'.id = job.id →
        job'.cancellationRequested = true ∧ job'.state ≠ .finalizing ∧ job'.state ≠ .succeeded
        ∧ ∀ lease' ∈ job'.claimExpiresAt, ∃ lease ∈ job.claimExpiresAt, lease' ≤ lease) := by
  have hinv := reachable_inv hrun
  have hids := reachable_idsInv hrun
  refine ⟨?_, ?_, ?_, ?_, ?_⟩
  · -- terminal states
    intro more t hmore job hjob hterminal job' hjob' hid
    refine run_rel (r := fun a b => a.state.isTerminal = true → b.state = a.state)
      (fun _ _ => rfl) ?_ (fun _ _ _ _ h _ _ => h.terminal) hmore hinv hids hjob hjob' hid hterminal
    intro a b c hab hbc ha
    rw [hbc (by rw [hab ha]; exact ha), hab ha]
  · intro job hjob
    constructor
    · intro hstate
      rcases (hinv.job job hjob).running hstate with ⟨attempt, hrunning, hclaim, hlease, _⟩
      exact ⟨attempt, hrunning, hclaim, hlease⟩
    · rintro ⟨attempt, hrunning, _⟩
      by_contra hstate
      rw [((hinv.job job hjob).idle hstate).1] at hrunning
      simp at hrunning
  · intro job hjob
    exact ⟨(hinv.job job hjob).count, (hinv.job job hjob).bounded⟩
  · intro action claimId now hpresents hstale t hstep
    exact step_of_stale hinv hpresents hstale hstep
  · -- a flag, through the relation that every edge keeps
    intro job hjob hflag more t hmore job' hjob' hid
    have hkept : CancellationKept job job' := by
      refine run_rel (r := CancellationKept) (fun _ h => ⟨h, fun l hl => ⟨l, hl, le_rfl⟩⟩) ?_
        (fun _ _ _ _ h => h.cancellationKept) hmore hinv hids hjob hjob' hid
      intro a b c hab hbc ha
      rcases hab ha with ⟨hb, hle⟩
      rcases hbc hb with ⟨hc, hle'⟩
      refine ⟨hc, ?_⟩
      intro lease hlease
      rcases hle' lease hlease with ⟨middle, hmiddle, hfst⟩
      rcases hle middle hmiddle with ⟨first, hfirst, hsnd⟩
      exact ⟨first, hfirst, le_trans hfst hsnd⟩
    rcases hkept hflag with ⟨hflag', hlease⟩
    have hinv' : Inv t.db := run_inv hmore hinv
    have hstate := (hinv'.job job' hjob').flag hflag'
    refine ⟨hflag', ?_, ?_, hlease⟩
    · rcases hstate with h | h <;> simp [h]
    · rcases hstate with h | h <;> simp [h]

/-- A job is cancelled while a worker has it, and the worker's next heartbeat is
given ten seconds instead of a new lease. -/
def cancelledRun : List Action :=
  sampleClaim 1 ['k'] ⟨30, 31, 32, []⟩
    ++ [.cancelJob 7 1 (seconds 2), .heartbeatClaim sampleWorker 20 31 .processing (seconds 3)]

theorem cancelledRun_fenced : ∃ s, exec (step sampleExternals .default) {} cancelledRun = some s
    ∧ (∃ job ∈ s.db.jobs, job.state = .running ∧ job.cancellationRequested = true
      ∧ job.claimExpiresAt = some (seconds 13))
    ∧ (∀ job ∈ s.db.jobs, job.attemptCount = (s.db.attemptsOf job.id).length
      ∧ job.attemptCount ≤ job.maxAttempts) := by
  rcases hexec : exec (step sampleExternals .default) {} cancelledRun with _ | s
  · have hsome : (exec (step sampleExternals .default) {} cancelledRun).isSome = true := by
      decide +kernel
    rw [hexec] at hsome
    simp at hsome
  · have hs : s = (exec (step sampleExternals .default) {} cancelledRun).getD {} := by
      rw [hexec]
      rfl
    refine ⟨s, rfl, ?_, (jobs_fenced (exec_run hexec)).2.2.1⟩
    rw [hs]
    decide +kernel

end Toss.Processing
