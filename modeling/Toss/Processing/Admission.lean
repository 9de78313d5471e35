import Toss.Processing.JobFencing

/-!
# Admission of jobs

The three limits on active jobs and the uniqueness of idempotency keys, with
admissions and every transition of jobs interleaved. The counts are taken under
the admission lock, in statements of their own; until the insert they can only
fall, since nothing makes a job active again.

* `Moved.countActive_le` — a statement of another call does not raise a count;
* `AdmissionInv` — the limits, and what the statements so far have established;
* `admission_controlled` — limits and keys in every reachable state.
-/

namespace Toss.Processing

open Toss.Foundation

variable {externals : Externals} {config : ProcessingConfig}

/-! ## Counts fall -/

/-- A condition on the columns that a job keeps. -/
def IsKept (cond : JobRow → Bool) : Prop :=
  ∀ job job' : JobRow, SameJob job job' → cond job' = cond job

theorem isKept_all : IsKept fun _ => true := fun _ _ _ => rfl

theorem isKept_requester (requesterUserId : Uuid) :
    IsKept fun job => decide (job.requesterUserId = requesterUserId) := by
  intro job job' hsame
  dsimp only
  rw [hsame.requesterUserId]

theorem isKept_project (projectId : Uuid) :
    IsKept fun job => decide (job.projectId = some projectId) := by
  intro job job' hsame
  dsimp only
  rw [hsame.projectId]

variable {db db' : Database} {command : ReserveJob} {s t : System}

theorem Moved.countActive_le (hmoved : Moved config db db')
    {cond : JobRow → Bool} (hkept : IsKept cond) : countActive db' cond ≤ countActive db cond := by
  simp only [countActive, List.countP_eq_length_filter]
  -- jobs counted after were counted before, under the same identifiers
  have hnodup : ((db'.jobs.filter fun job => job.state.isActive && cond job).map JobRow.id).Nodup :=
    hmoved.keyed.jobs.sublist (List.filter_sublist.map _)
  have hsubset : (db'.jobs.filter fun job => job.state.isActive && cond job).map JobRow.id
      ⊆ (db.jobs.filter fun job => job.state.isActive && cond job).map JobRow.id := by
    intro id hid
    rcases List.mem_map.mp hid with ⟨job', hjob', rfl⟩
    rcases List.mem_filter.mp hjob' with ⟨hmem, hcounted⟩
    rw [Bool.and_eq_true] at hcounted
    rcases hmoved.job job' hmem with ⟨job, hjob, hmove⟩
    rw [hmove.sameJob.id]
    refine List.mem_map_of_mem (List.mem_filter.mpr ⟨hjob, ?_⟩)
    rw [Bool.and_eq_true]
    refine ⟨?_, by rw [← hkept job job' hmove.sameJob]; exact hcounted.2⟩
    have hactive := hcounted.1
    by_contra hended
    have hterminal : job.state.isTerminal = true := by
      rw [ProcessingJobState.isActive_eq_not_isTerminal] at hended
      simpa using hended
    rw [hmove.terminal hterminal] at hactive
    exact hended hactive
  have hle := (List.subperm_of_subset hnodup hsubset).length_le
  rwa [List.length_map, List.length_map] at hle

theorem Moves.countActive_le (hmoves : Moves config db db')
    {cond : JobRow → Bool} (hkept : IsKept cond) : countActive db' cond ≤ countActive db cond := by
  induction hmoves with
  | refl => exact le_rfl
  | tail _ hmoved ih => exact le_trans (hmoved.countActive_le hkept) ih

theorem Moves.idempotency_subset (hmoves : Moves config db db') {job' : JobRow}
    (hjob' : job' ∈ db'.jobs) : ∃ job ∈ db.jobs, SameJob job job' := by
  induction hmoves generalizing job' with
  | refl => exact ⟨job', hjob', ⟨rfl, rfl, rfl, rfl, rfl, rfl, rfl⟩⟩
  | tail _ hmoved ih =>
    rcases hmoved.job job' hjob' with ⟨between, hbetween, hmove⟩
    rcases ih hbetween with ⟨job, hjob, hsame⟩
    have hlast := hmove.sameJob
    exact ⟨job, hjob, ⟨hlast.id.trans hsame.id, hlast.requesterUserId.trans hsame.requesterUserId,
      hlast.projectId.trans hsame.projectId, hlast.idempotency.trans hsame.idempotency,
      hlast.commandDigest.trans hsame.commandDigest, hlast.operation.trans hsame.operation,
      hlast.maxAttempts.trans hsame.maxAttempts⟩⟩

/-- An insert raises a count by one at most, and only if it counts the new job. -/
theorem countActive_insert {row : JobRow} (h : insertJob db row = some db')
    (cond : JobRow → Bool) :
    countActive db' cond = countActive db cond + if row.state.isActive && cond row then 1 else 0 := by
  rw [(insertJob_cases h).2]
  simp only [countActive, List.countP_append, List.countP_singleton]

/-! ## The invariant of admissions -/

/-- No job has the key of a command. -/
def KeyFree (db : Database) (command : ReserveJob) : Prop :=
  ∀ job ∈ db.jobs, job.idempotency ≠ command.idempotency

/-- What the statements before a stage have established, and other calls keep. -/
def StageInv (config : ProcessingConfig) (db : Database) (command : ReserveJob) :
    ReserveStage → Prop
  | .find => True
  | .digest existing => ∀ job ∈ db.jobs, job.id = existing.id →
      job.commandDigest = existing.commandDigest
  | .countGlobal => KeyFree db command
  | .countRequester => KeyFree db command ∧ globalActive db < config.maxQueuedJobs
  | .countProject => KeyFree db command ∧ globalActive db < config.maxQueuedJobs
      ∧ requesterActive db command.requesterUserId < config.maxActiveJobsPerUser
  | .insert => KeyFree db command ∧ globalActive db < config.maxQueuedJobs
      ∧ requesterActive db command.requesterUserId < config.maxActiveJobsPerUser
      ∧ ∀ projectId ∈ command.projectId,
        projectActive db projectId < config.maxActiveJobsPerProject

structure AdmissionInv (config : ProcessingConfig) (s : System) : Prop where
  inv : Inv s.db
  globalLimit : globalActive s.db ≤ config.maxQueuedJobs
  requesterLimit : ∀ requesterUserId,
    requesterActive s.db requesterUserId ≤ config.maxActiveJobsPerUser
  projectLimit : ∀ projectId, projectActive s.db projectId ≤ config.maxActiveJobsPerProject
  keys : (s.db.jobs.map JobRow.idempotency).Nodup
  stage : ∀ admission ∈ s.admission, StageInv config s.db admission.command admission.stage

theorem Moves.keyFree (hmoves : Moves config db db')
    (hfree : KeyFree db command) : KeyFree db' command := by
  intro job' hjob' hkey
  rcases Moves.idempotency_subset hmoves hjob' with ⟨job, hjob, hsame⟩
  exact hfree job hjob (hsame.idempotency.symm.trans hkey)

theorem Moves.stageInv (hmoves : Moves config db db')
    {stage : ReserveStage} (hstage : StageInv config db command stage) :
    StageInv config db' command stage := by
  have hglobal : globalActive db' ≤ globalActive db := Moves.countActive_le hmoves isKept_all
  have hrequester : ∀ id, requesterActive db' id ≤ requesterActive db id :=
    fun id => Moves.countActive_le hmoves (isKept_requester id)
  have hproject : ∀ id, projectActive db' id ≤ projectActive db id :=
    fun id => Moves.countActive_le hmoves (isKept_project id)
  cases stage with
  | find => trivial
  | digest existing =>
    intro job' hjob' hid
    rcases Moves.idempotency_subset hmoves hjob' with ⟨job, hjob, hsame⟩
    rw [hsame.commandDigest]
    exact hstage job hjob (hsame.id.symm.trans hid)
  | countGlobal => exact Moves.keyFree hmoves hstage
  | countRequester => exact ⟨Moves.keyFree hmoves hstage.1, lt_of_le_of_lt hglobal hstage.2⟩
  | countProject =>
    exact ⟨Moves.keyFree hmoves hstage.1, lt_of_le_of_lt hglobal hstage.2.1,
      lt_of_le_of_lt (hrequester _) hstage.2.2⟩
  | insert =>
    exact ⟨Moves.keyFree hmoves hstage.1, lt_of_le_of_lt hglobal hstage.2.1,
      lt_of_le_of_lt (hrequester _) hstage.2.2.1,
      fun id hid => lt_of_le_of_lt (hproject id) (hstage.2.2.2 id hid)⟩

theorem Moves.keys_nodup (hmoves : Moves config db db')
    (hids : (db'.jobs.map JobRow.id).Nodup) (hkeys : (db.jobs.map JobRow.idempotency).Nodup) :
    (db'.jobs.map JobRow.idempotency).Nodup := by
  refine List.Nodup.map_on ?_ (List.Nodup.of_map _ hids)
  intro left hleft right hright hsame
  rcases Moves.idempotency_subset hmoves hleft with ⟨oldLeft, holdLeft, hkeptLeft⟩
  rcases Moves.idempotency_subset hmoves hright with ⟨oldRight, holdRight, hkeptRight⟩
  have heq : oldLeft = oldRight := by
    refine List.inj_on_of_nodup_map hkeys holdLeft holdRight ?_
    rw [← hkeptLeft.idempotency, hsame, hkeptRight.idempotency]
  refine List.inj_on_of_nodup_map hids hleft hright ?_
  rw [hkeptLeft.id, heq, hkeptRight.id]

/-- Steps that move jobs keep the limits and what an admission has established. -/
theorem AdmissionInv.of_moves (hinv : AdmissionInv config s) (hmoves : Moves config s.db t.db)
    (hstage : ∀ admission ∈ t.admission, StageInv config t.db admission.command admission.stage) :
    AdmissionInv config t where
  inv := hmoves.inv hinv.inv
  globalLimit := le_trans (Moves.countActive_le hmoves isKept_all) hinv.globalLimit
  requesterLimit id :=
    le_trans (Moves.countActive_le hmoves (isKept_requester id)) (hinv.requesterLimit id)
  projectLimit id :=
    le_trans (Moves.countActive_le hmoves (isKept_project id)) (hinv.projectLimit id)
  keys := Moves.keys_nodup hmoves (hmoves.inv hinv.inv).keyed.jobs hinv.keys
  stage := hstage

/-- The insert of an admitted job stays within the limits. -/
theorem AdmissionInv.of_insert (hinv : AdmissionInv config s)
    (hadmission : s.admission = some ⟨command, .insert⟩)
    (hinsert : insertJob s.db (command.row config) = some t.db) (hdone : t.admission = none) :
    AdmissionInv config t := by
  have hstage : StageInv config s.db command .insert := hinv.stage ⟨command, .insert⟩ hadmission
  rcases hstage with ⟨hfree, hglobal, hrequester, hproject⟩
  have hcount := countActive_insert hinsert
  refine ⟨insertJob_inv hinv.inv hinsert, ?_, ?_, ?_, ?_, ?_⟩
  · have h := hcount fun _ => true
    simp only [ReserveJob.row, ProcessingJobState.isActive, Bool.and_self, if_true] at h
    rw [globalActive, h]
    exact hglobal
  · intro id
    have h := hcount fun job => job.requesterUserId = id
    rw [requesterActive, h]
    by_cases hid : command.requesterUserId = id
    · rw [hid] at hrequester
      simp only [ReserveJob.row, hid, ProcessingJobState.isActive, decide_true, Bool.and_self,
        if_true]
      exact hrequester
    · simp only [ReserveJob.row, hid, decide_false, Bool.and_false, Bool.false_eq_true, if_false,
        Nat.add_zero]
      exact hinv.requesterLimit id
  · intro id
    have h := hcount fun job => job.projectId = some id
    rw [projectActive, h]
    by_cases hid : command.projectId = some id
    · simp only [ReserveJob.row, hid, ProcessingJobState.isActive, decide_true, Bool.and_self,
        if_true]
      exact hproject id hid
    · simp only [ReserveJob.row, hid, decide_false, Bool.and_false, Bool.false_eq_true, if_false,
        Nat.add_zero]
      exact hinv.projectLimit id
  · rw [(insertJob_cases hinsert).2, List.map_append, List.nodup_append]
    refine ⟨hinv.keys, List.nodup_singleton _, ?_⟩
    intro key hkey key' hkey' heq
    rcases List.mem_map.mp hkey with ⟨job, hjob, rfl⟩
    exact hfree job hjob (heq.trans (List.mem_singleton.mp hkey'))
  · intro admission hsome
    rw [hdone] at hsome
    simp at hsome

/-! ## Steps -/

/-- What the next statement of an admission makes of what is established. -/
theorem reserveStatement_next {db : Database} {stage next : ReserveStage}
    (hstage : StageInv config db command stage) (hkeys : (db.jobs.map JobRow.id).Nodup)
    (h : reserveStatement config db command stage = .next next) :
    StageInv config db command next := by
  -- each count leaves room for one more, as the admission holds the lock
  cases stage with
  | find =>
    simp only [reserveStatement] at h
    split at h
    · rename_i existing hfound
      rw [← ReserveProgress.next.inj h]
      intro job hjob hid
      have hmem := List.mem_of_find?_eq_some hfound
      rw [List.inj_on_of_nodup_map hkeys hjob hmem hid]
    · rename_i hnone
      rw [← ReserveProgress.next.inj h]
      intro job hjob hkey
      have hnot := List.find?_eq_none.mp hnone job hjob
      exact hnot (decide_eq_true hkey)
  | digest existing =>
    simp only [reserveStatement] at h
    split at h
    · simp at h
    · split at h <;> simp at h
  | countGlobal =>
    simp only [reserveStatement] at h
    split at h
    · simp at h
    · rename_i hroom
      rw [← ReserveProgress.next.inj h]
      exact ⟨hstage, Nat.lt_of_not_le hroom⟩
  | countRequester =>
    simp only [reserveStatement] at h
    split at h
    · simp at h
    · rename_i hroom
      rw [← ReserveProgress.next.inj h]
      exact ⟨hstage.1, hstage.2, Nat.lt_of_not_le hroom⟩
  | countProject =>
    simp only [reserveStatement] at h
    split at h
    · rename_i hproject
      rw [← ReserveProgress.next.inj h]
      refine ⟨hstage.1, hstage.2.1, hstage.2.2, ?_⟩
      intro projectId hid
      rw [hproject] at hid
      simp at hid
    · rename_i projectId hproject
      split at h
      · simp at h
      rename_i hroom
      rw [← ReserveProgress.next.inj h]
      refine ⟨hstage.1, hstage.2.1, hstage.2.2, ?_⟩
      intro projectId' hid
      rw [hproject] at hid
      cases hid
      exact Nat.lt_of_not_le hroom
  | insert =>
    simp only [reserveStatement] at h
    split at h <;> simp at h

theorem AdmissionInv.step {action : Action} (hinv : AdmissionInv config s)
    (h : Step externals config s action t) : AdmissionInv config t := by
  by_cases hnext : action = .reserveNext
  · subst hnext
    rcases reserveNext_cases h with
      ⟨admission, hadmission, ⟨stage, hstatement, rfl⟩ | ⟨reply, db, hanswered, rfl⟩⟩
    · refine hinv.of_moves .refl ?_
      intro admission' heq
      cases heq
      exact reserveStatement_next (hinv.stage admission hadmission) hinv.inv.keyed.jobs hstatement
    · rcases reserveStatement_answered hanswered with ⟨rfl, _⟩ | ⟨hstage, _, hinsert⟩
      · exact hinv.of_moves .refl fun _ hnone => by simp [System.answer] at hnone
      · refine hinv.of_insert ?_ hinsert rfl
        rw [hadmission, ← hstage]
  · have hmoves : Moves config s.db t.db := by
      rcases step_moves hinv.inv h with hmoves | ⟨command, heq, _, _⟩
      · exact hmoves
      · exact absurd heq hnext
    refine hinv.of_moves hmoves ?_
    intro admission hadmission
    by_cases habort : action = .reserveAbort
    · subst habort
      rcases Option.map_eq_some_iff.mp h with ⟨_, _, rfl⟩
      simp [System.answer] at hadmission
    by_cases hbegin : ∃ command, action = .reserveBegin command
    · rcases hbegin with ⟨command, rfl⟩
      simp only [Step, Toss.Processing.step] at h
      split at h
      · simp at h
      · rw [← Option.some.inj h] at hadmission
        cases hadmission
        trivial
    · rw [(step_admission (fun command heq => hbegin ⟨command, heq⟩) hnext habort h).1] at hadmission
      exact Moves.stageInv hmoves (hinv.stage admission hadmission)

theorem initial_admissionInv : AdmissionInv config {} where
  inv := initial_inv
  globalLimit := Nat.zero_le _
  requesterLimit _ := Nat.zero_le _
  projectLimit _ := Nat.zero_le _
  keys := List.nodup_nil
  stage _ h := by simp at h

theorem reachable_admissionInv {actions : List Action} {s : System}
    (hrun : Run (Step externals config) {} actions s) : AdmissionInv config s :=
  hrun.invariant (fun _ _ _ hinv h => hinv.step h) initial_admissionInv

/-! ## Repeated and rejected calls -/

theorem findIdempotentJob_some {db : Database} {key : Uuid × Text × Text} {job : JobRow}
    (h : findIdempotentJob db key = some job) : job ∈ db.jobs ∧ job.idempotency = key := by
  unfold findIdempotentJob at h
  exact ⟨List.mem_of_find?_eq_some h, by simpa using List.find?_some h⟩

/-- The answer to a call whose key a job has. -/
def repeatedReply (job : JobRow) (command : ReserveJob) :
    Except ReserveJobError ReserveJobOutcome :=
  if job.commandDigest = command.commandDigest then .ok (.existing job)
  else .error .idempotencyConflict

/-- Steps of other calls between the two lookups of a call leave it where it is,
and the job as it was admitted. -/
theorem between_lookups {between : List Action} {job : JobRow}
    (hrun : Run (Step externals config) s between t)
    (hother : ∀ action ∈ between, action ≠ .reserveNext ∧ action ≠ .reserveAbort)
    (hinv : Inv s.db) (hadmission : s.admission = some ⟨command, .digest job⟩)
    (hdigest : ∀ row ∈ s.db.jobs, row.id = job.id → row.commandDigest = job.commandDigest) :
    t.admission = some ⟨command, .digest job⟩
      ∧ ∀ row ∈ t.db.jobs, row.id = job.id → row.commandDigest = job.commandDigest := by
  induction hrun with
  | nil s => exact ⟨hadmission, hdigest⟩
  | @cons s mid t action rest hstep hrest ih =>
    have hothers := hother action List.mem_cons_self
    have hbegin : ∀ command, action ≠ .reserveBegin command := by
      rintro command rfl
      simp [Step, step, hadmission] at hstep
    refine ih (fun a ha => hother a (List.mem_cons_of_mem _ ha)) (step_inv hinv hstep) ?_ ?_
    · rw [(step_admission hbegin hothers.1 hothers.2 hstep).1]
      exact hadmission
    · rcases step_moves hinv hstep with hmoves | ⟨_, heq, _, _⟩
      · intro row hrow hid
        rcases Moves.idempotency_subset hmoves hrow with ⟨old, hold, hsame⟩
        rw [hsame.commandDigest]
        exact hdigest old hold (hsame.id.symm.trans hid)
      · exact absurd heq hothers.1

/-- A call that finds a job under its key is answered with that job, or with a
conflict where its digest is another; the job may not be deleted meanwhile. -/
theorem repeated_call {s mid t : System} {between : List Action}
    {job : JobRow} (hinv : AdmissionInv config s)
    (hadmission : s.admission = some ⟨command, .find⟩) (hjob : job ∈ s.db.jobs)
    (hkey : job.idempotency = command.idempotency)
    (hother : ∀ action ∈ between, action ≠ .reserveNext ∧ action ≠ .reserveAbort)
    (hrun : Run (Step externals config) s (.reserveNext :: between) mid)
    (hkept : ∃ row ∈ mid.db.jobs, row.id = job.id)
    (hlast : Step externals config mid .reserveNext t) :
    t.answers = mid.answers ++ [⟨command, repeatedReply job command⟩] ∧ t.db = mid.db := by
  cases hrun with
  | @cons _ found _ _ _ hstep hrest =>
    -- the lookup by key finds the job
    have hlookup : findIdempotentJob s.db command.idempotency = some job := by
      rcases hfound : findIdempotentJob s.db command.idempotency with _ | other
      · have hnot := List.find?_eq_none.mp hfound job hjob
        exact absurd (decide_eq_true hkey) hnot
      · rcases findIdempotentJob_some hfound with ⟨hmem, hsame⟩
        rw [List.inj_on_of_nodup_map hinv.keys hmem hjob (hsame.trans hkey.symm)]
    rcases reserveNext_cases hstep with ⟨admission, hat, hcase⟩
    rw [hadmission] at hat
    rw [← Option.some.inj hat] at hcase
    simp only [reserveStatement, hlookup] at hcase
    rcases hcase with ⟨stage, hstage, rfl⟩ | ⟨_, _, habsurd, _⟩
    · rw [← ReserveProgress.next.inj hstage] at hrest
      rcases between_lookups hrest hother hinv.inv rfl
        (fun row hrow hid => by rw [hinv.inv.keyed.job_eq hjob hrow hid]) with
        ⟨hmid, hdigest⟩
      rcases reserveNext_cases hlast with ⟨admission, hat, hcase⟩
      rw [hmid] at hat
      rw [← Option.some.inj hat] at hcase
      rcases hkept with ⟨row, hrow, hid⟩
      rcases hrowed : mid.db.job? job.id with _ | current
      · have hnot := List.find?_eq_none.mp hrowed row hrow
        exact absurd (decide_eq_true hid) hnot
      rcases job?_some hrowed with ⟨hcurrent, hcurrentId⟩
      -- the digest that is compared is the one that was stored
      have hsame := hdigest current hcurrent hcurrentId
      simp only [reserveStatement, hrowed, hsame] at hcase
      unfold repeatedReply
      by_cases hequal : job.commandDigest = command.commandDigest
      · rw [if_neg (not_not.mpr hequal)] at hcase
        rw [if_pos hequal]
        rcases hcase with ⟨_, habsurd, _⟩ | ⟨reply, db, hanswered, rfl⟩
        · simp at habsurd
        · simp only [ReserveProgress.answered.injEq] at hanswered
          rw [← hanswered.1, ← hanswered.2]
          exact ⟨rfl, rfl⟩
      · rw [if_pos hequal] at hcase
        rw [if_neg hequal]
        rcases hcase with ⟨_, habsurd, _⟩ | ⟨reply, db, hanswered, rfl⟩
        · simp at habsurd
        · simp only [ReserveProgress.answered.injEq] at hanswered
          rw [← hanswered.1, ← hanswered.2]
          exact ⟨rfl, rfl⟩
    · simp at habsurd

/-- A step of an admission leaves the tables alone, unless it admits the job. -/
theorem admission_step_db {action : Action}
    (hcall : (∃ command, action = .reserveBegin command) ∨ action = .reserveNext
      ∨ action = .reserveAbort) (h : Step externals config s action t) :
    t.db = s.db ∨ ∃ command, t.answers = s.answers ++ [⟨command, .ok .reserved⟩]
      ∧ t.db = { s.db with jobs := s.db.jobs ++ [command.row config] } := by
  rcases hcall with ⟨command, rfl⟩ | rfl | rfl
  · simp only [Step, step] at h
    split at h
    · simp at h
    · cases h
      exact .inl rfl
  · rcases reserveNext_cases h with
      ⟨admission, hadmission, ⟨stage, _, rfl⟩ | ⟨reply, db, hanswered, rfl⟩⟩
    · exact .inl rfl
    · rcases reserveStatement_answered hanswered with ⟨rfl, _⟩ | ⟨_, rfl, hinsert⟩
      · exact .inl rfl
      · exact .inr ⟨admission.command, rfl, (insertJob_cases hinsert).2⟩
  · rcases Option.map_eq_some_iff.mp h with ⟨_, _, rfl⟩
    exact .inl rfl

/-- In every state that admissions and the transitions of jobs reach, in any
interleaving: the active jobs, those of a requester and those of a project stay
within their limits; no two jobs have the same requester, scope and key; a call
that repeats a key is answered with the job, or with a conflict for another
digest; and a call adds no row unless it is answered that the job is reserved. -/
theorem admission_controlled {actions : List Action} {s : System}
    (hrun : Run (Step externals config) {} actions s) :
    (globalActive s.db ≤ config.maxQueuedJobs
      ∧ (∀ requesterUserId,
        requesterActive s.db requesterUserId ≤ config.maxActiveJobsPerUser)
      ∧ ∀ projectId, projectActive s.db projectId ≤ config.maxActiveJobsPerProject)
    ∧ (s.db.jobs.map JobRow.idempotency).Nodup
    ∧ (∀ (command : ReserveJob) (job : JobRow) (between : List Action) (mid t : System),
      s.admission = some ⟨command, .find⟩ → job ∈ s.db.jobs →
      job.idempotency = command.idempotency →
      (∀ action ∈ between, action ≠ .reserveNext ∧ action ≠ .reserveAbort) →
      Run (Step externals config) s (.reserveNext :: between) mid →
      (∃ row ∈ mid.db.jobs, row.id = job.id) → Step externals config mid .reserveNext t →
      t.answers = mid.answers ++ [⟨command, repeatedReply job command⟩] ∧ t.db = mid.db)
    ∧ (∀ (action : Action) (t : System),
      ((∃ command, action = .reserveBegin command) ∨ action = .reserveNext
        ∨ action = .reserveAbort) →
      Step externals config s action t →
      t.db = s.db ∨ ∃ command, t.answers = s.answers ++ [⟨command, .ok .reserved⟩]
        ∧ t.db = { s.db with jobs := s.db.jobs ++ [command.row config] }) := by
  have hinv := reachable_admissionInv hrun
  refine ⟨⟨hinv.globalLimit, hinv.requesterLimit, hinv.projectLimit⟩, hinv.keys, ?_, ?_⟩
  · intro command job between mid t hadmission hjob hkey hother hbetween hkept hlast
    exact repeated_call hinv hadmission hjob hkey hother hbetween hkept hlast
  · intro action t hcall hstep
    exact admission_step_db hcall hstep

/-- A job is admitted and claimed, and its call is repeated under another
digest. -/
def repeatedRun : List Action :=
  sampleClaim 1 ['k'] ⟨30, 31, 32, []⟩
    ++ [.reserveBegin { sampleCommand 2 ['k'] with commandDigest := [8] }]

theorem repeatedRun_conflicts :
    ∃ s, exec (step sampleExternals .default) {} repeatedRun = some s
      ∧ s.db.jobs.length = 1
      ∧ globalActive s.db ≤ ProcessingConfig.default.maxQueuedJobs
      ∧ ∀ command job mid t, s.admission = some ⟨command, .find⟩ → job ∈ s.db.jobs →
        job.idempotency = command.idempotency →
        Run (Step sampleExternals .default) s [.reserveNext] mid →
        (∃ row ∈ mid.db.jobs, row.id = job.id) →
        Step sampleExternals .default mid .reserveNext t →
        t.answers = mid.answers ++ [⟨command, repeatedReply job command⟩] ∧ t.db = mid.db := by
  rcases hexec : exec (step sampleExternals .default) {} repeatedRun with _ | s
  · have hsome : (exec (step sampleExternals .default) {} repeatedRun).isSome = true := by
      decide +kernel
    rw [hexec] at hsome
    simp at hsome
  · have hs : s = (exec (step sampleExternals .default) {} repeatedRun).getD {} := by
      rw [hexec]
      rfl
    have hcontrolled := admission_controlled (exec_run hexec)
    refine ⟨s, rfl, ?_, hcontrolled.1.1, ?_⟩
    · rw [hs]
      decide +kernel
    · intro command job mid t hadmission hjob hkey hbetween hkept hlast
      exact hcontrolled.2.2.1 command job [] mid t hadmission hjob hkey
        (fun action haction => absurd haction List.not_mem_nil) hbetween hkept hlast

end Toss.Processing
