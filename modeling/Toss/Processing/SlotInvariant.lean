import Toss.Processing.SlotSteps

/-!
# The invariant of acquisitions

What holds in every run, at whatever clock values heartbeats renew claims: one job runs under one
claim, a running claim is of a processor that its session advertises, and its session has counted
claims before it.

* `ClaimInv`, `SlotInv` — an acquisition under way, and the system;
* `SlotInv.step`, `reachable_slotInv`.
-/

namespace Toss.Processing

open Toss.Foundation

/-- The processor that an acquisition found room with. -/
def PendingClaim.reserved (claim : PendingClaim) : Option ProcessorRow :=
  match claim.stage with
  | .counting _ => none
  | .selecting processor _ | .holding processor _ _ => some processor

/-- An acquisition under way. -/
structure ClaimInv (db : Database) (counted : List (Uuid × Timestamp)) (claim : PendingClaim) :
    Prop where
  session : claim.sessionId ∈ db.sessions.map SessionRow.id
  processors : ∀ processor ∈ claim.processors, processor.sessionId = claim.sessionId
    ∧ processor.advertised ∈ db.processors.map ProcessorRow.advertised
  reserved : ∀ processor, claim.reserved = some processor →
    processor ∈ claim.processors ∧ (claim.sessionId, claim.now) ∈ counted
  holding : ∀ processor job blob, claim.stage = .holding processor job blob →
    db.job? job.id = some job ∧ job.operation = processor.operation ∧ job.state = .queued
      ∧ job.cancellationRequested = false

/-- A running claim is of a processor of its session, which has counted claims. -/
structure AttemptInv (db : Database) (counted : List (Uuid × Timestamp)) (attempt : AttemptRow) :
    Prop where
  counted : ∃ clock, (attempt.workerSessionId, clock) ∈ counted
  advertised : ∀ job ∈ db.jobs, job.id = attempt.jobId →
    (attempt.workerSessionId, job.operation, attempt.processorContract)
      ∈ db.processors.map ProcessorRow.key

structure SlotInv (s : SlotSystem) : Prop where
  jobs : Inv s.system.db
  keys : (s.system.db.processors.map ProcessorRow.key).Nodup
  registered : ∀ processor ∈ s.system.db.processors,
    processor.sessionId ∈ s.system.db.sessions.map SessionRow.id
  attempts : ∀ attempt ∈ s.system.db.attempts, attempt.state = .running →
    AttemptInv s.system.db s.counted attempt
  sessions : (s.claims.map PendingClaim.sessionId).Nodup
  claims : ∀ claim ∈ s.claims, ClaimInv s.system.db s.counted claim

/-! ## Acquisitions under other calls -/

variable {claim : PendingClaim} {db db' : Database} {s : SlotSystem} {processor : ProcessorRow}
  {job : JobRow}

theorem ClaimInv.mono {counted counted' : List (Uuid × Timestamp)}
    (h : ClaimInv db counted claim)
    (hsessions : db.sessions.map SessionRow.id ⊆ db'.sessions.map SessionRow.id)
    (hprocessors : db.processors.map ProcessorRow.advertised
      ⊆ db'.processors.map ProcessorRow.advertised) (hcounted : counted ⊆ counted')
    (hjob : ∀ processor job blob, claim.stage = .holding processor job blob →
      db'.job? job.id = db.job? job.id) : ClaimInv db' counted' claim where
  session := hsessions h.session
  processors := by
    intro processor hprocessor
    rcases h.processors processor hprocessor with ⟨hsession, hrow⟩
    exact ⟨hsession, hprocessors hrow⟩
  reserved := by
    intro processor hreserved
    rcases h.reserved processor hreserved with ⟨hmem, hcounts⟩
    exact ⟨hmem, hcounted hcounts⟩
  holding := by
    intro processor job blob hstage
    rw [hjob processor job blob hstage]
    exact h.holding processor job blob hstage

/-- Another call leaves the rows that an acquisition holds. -/
theorem job?_of_keepsClaims {db : Database} (h : s.keepsClaims db = true)
    (hclaim : claim ∈ s.claims) (processor : ProcessorRow) (job : JobRow)
    (blob : BlobRow) (hstage : claim.stage = .holding processor job blob) :
    db.job? job.id = s.system.db.job? job.id := by
  have hkept := List.all_eq_true.mp h claim hclaim
  rw [Bool.and_eq_true] at hkept
  have hheld : claim.heldJob = some job.id := by
    rw [PendingClaim.heldJob, hstage]
  rw [hheld] at hkept
  simpa using hkept.2

theorem key_mem_of_advertised
    (h : db.processors.map ProcessorRow.advertised ⊆ db'.processors.map ProcessorRow.advertised) :
    db.processors.map ProcessorRow.key ⊆ db'.processors.map ProcessorRow.key := by
  rw [map_key, map_key]
  exact List.map_subset Prod.fst h

/-! ## Stages -/

theorem SlotInv.counting (h : SlotInv s) (entry : Uuid × Timestamp) :
    SlotInv { s with counted := entry :: s.counted } where
  jobs := h.jobs
  keys := h.keys
  registered := h.registered
  attempts := by
    intro attempt hattempt hrunning
    rcases h.attempts attempt hattempt hrunning with ⟨⟨clock, hclock⟩, hadvertised⟩
    exact ⟨⟨clock, List.mem_cons_of_mem _ hclock⟩, hadvertised⟩
  sessions := h.sessions
  claims := by
    intro claim hclaim
    exact (h.claims claim hclaim).mono (fun _ hid => hid) (fun _ hrow => hrow)
      (List.subset_cons_self _ _) fun _ _ _ _ => rfl

theorem SlotInv.dropClaim (h : SlotInv s) (sessionId : Uuid) :
    SlotInv (s.dropClaim sessionId) where
  jobs := h.jobs
  keys := h.keys
  registered := h.registered
  attempts := h.attempts
  sessions := h.sessions.sublist (List.filter_sublist.map _)
  claims := fun claim hclaim => h.claims claim (List.mem_filter.mp hclaim).1

theorem SlotInv.addClaim (h : SlotInv s)
    (hfresh : ∀ other ∈ s.claims, other.sessionId ≠ claim.sessionId)
    (hclaim : ClaimInv s.system.db s.counted claim) :
    SlotInv { s with claims := claim :: s.claims } where
  jobs := h.jobs
  keys := h.keys
  registered := h.registered
  attempts := h.attempts
  sessions := by
    rw [List.map_cons, List.nodup_cons]
    refine ⟨?_, h.sessions⟩
    intro hmem
    rcases List.mem_map.mp hmem with ⟨other, hother, heq⟩
    exact hfresh other hother heq
  claims := by
    intro other hother
    rcases List.mem_cons.mp hother with rfl | hold
    · exact hclaim
    · exact h.claims other hold

theorem SlotInv.setStage (h : SlotInv s)
    {stage : ClaimStage} (hclaim : ClaimInv s.system.db s.counted { claim with stage := stage }) :
    SlotInv (s.setStage claim stage) := by
  refine (h.dropClaim claim.sessionId).addClaim ?_ hclaim
  intro other hother
  exact of_decide_eq_true (List.mem_filter.mp hother).2

/-- An acquisition at its next statement. -/
theorem ClaimInv.restaged {db : Database} {counted : List (Uuid × Timestamp)}
    (h : ClaimInv db counted claim) {stage : ClaimStage}
    (hreserved : ∀ processor, PendingClaim.reserved { claim with stage := stage } = some processor →
      processor ∈ claim.processors ∧ (claim.sessionId, claim.now) ∈ counted)
    (hholding : ∀ processor job blob, stage = .holding processor job blob →
      db.job? job.id = some job ∧ job.operation = processor.operation ∧ job.state = .queued
        ∧ job.cancellationRequested = false) :
    ClaimInv db counted { claim with stage := stage } :=
  ⟨h.session, h.processors, hreserved, hholding⟩

theorem ClaimInv.toCounting {db : Database} {counted : List (Uuid × Timestamp)}
    (h : ClaimInv db counted claim) (offers : List ProcessorCapacityOffer) :
    ClaimInv db counted { claim with stage := .counting offers } :=
  h.restaged (fun _ hreserved => by cases hreserved) fun _ _ _ hstage => by cases hstage

/-! ## Calls -/

variable {externals : Externals} {config : ProcessingConfig}

theorem SlotInv.call {action : Action} {system : System} (h : SlotInv s)
    (hstaged : action.isStaged = false) (hstep : Step externals config s.system action system)
    (hkept : s.keepsClaims system.db = true) : SlotInv { s with system := system } := by
  have hworkers := step_workers hstep (by rintro sessions processors rfl; cases hstaged)
  -- no other call changes a processor or the operation of a job
  have hadvertised : ∀ attempt ∈ s.system.db.attempts, attempt.state = .running →
      AttemptInv system.db s.counted attempt := by
    intro attempt hattempt hrunning
    rcases h.attempts attempt hattempt hrunning with ⟨hcounted, hadvertised⟩
    refine ⟨hcounted, ?_⟩
    intro job' hjob' hid
    rcases h.jobs.keyed.owned attempt hattempt with ⟨job, hjob, howner⟩
    rw [step_operation h.jobs hstep hjob hjob' (hid.trans howner.symm), hworkers.processors]
    exact hadvertised job hjob howner
  constructor
  · exact step_inv h.jobs hstep
  · show (system.db.processors.map _).Nodup
    rw [hworkers.processors]
    exact h.keys
  · intro processor hprocessor
    show _ ∈ system.db.sessions.map _
    rw [hworkers.sessions]
    refine h.registered processor ?_
    rw [← hworkers.processors]
    exact hprocessor
  · intro attempt hattempt hrunning
    have heffect := step_attempts hstep
    have hmem : attempt ∈ system.db.attempts := hattempt
    generalize system.db.attempts = attempts at heffect hmem
    cases heffect with
    | fewer action hkept => exact hadvertised attempt (hkept attempt hmem hrunning) hrunning
    | claimed => cases hstaged
    | renewed worker sessionId claimId phase now hclaim hholds hphase =>
      rcases mem_updateWhere.mp hmem with ⟨old, hold, ⟨_, rfl⟩ | ⟨_, rfl⟩⟩
      · rcases hadvertised old hold hrunning with ⟨hcounted, hjobs⟩
        exact ⟨hcounted, hjobs⟩
      · exact hadvertised _ hold hrunning
  · exact h.sessions
  · intro claim hclaim
    refine (h.claims claim hclaim).mono ?_ ?_ (fun _ hentry => hentry)
      (job?_of_keepsClaims hkept hclaim)
    · show _ ⊆ system.db.sessions.map _
      rw [hworkers.sessions]
      exact fun _ hid => hid
    · show _ ⊆ system.db.processors.map _
      rw [hworkers.processors]
      exact fun _ hrow => hrow

theorem SlotInv.sessionsChanged {db : Database} (h : SlotInv s)
    (hchange : SessionsChange s.system.db db) :
    SlotInv { s with system := { s.system with db := db } } := by
  constructor
  · exact h.jobs.of_tables hchange.jobs hchange.attempts
  · exact hchange.keys h.registered h.keys
  · intro row hrow
    rcases hchange.origin row hrow with hold | ⟨_, hnew, _⟩
    · rcases List.mem_map.mp hold with ⟨processor, hprocessor, heq⟩
      rw [← (ProcessorRow.advertised_eq heq).1]
      exact hchange.sessions (h.registered processor hprocessor)
    · exact hnew
  · intro attempt hattempt hrunning
    have hold : attempt ∈ s.system.db.attempts := by
      rw [← hchange.attempts]
      exact hattempt
    rcases h.attempts attempt hold hrunning with ⟨hcounted, hadvertised⟩
    refine ⟨hcounted, ?_⟩
    intro job hjob hid
    refine key_mem_of_advertised hchange.kept (hadvertised job ?_ hid)
    rw [← hchange.jobs]
    exact hjob
  · exact h.sessions
  · intro claim hclaim
    refine (h.claims claim hclaim).mono hchange.sessions hchange.kept (fun _ hentry => hentry) ?_
    intro _ job _ _
    show Database.job? db job.id = _
    rw [Database.job?, hchange.jobs, Database.job?]

/-! ## Commits -/

/-- The tables after the writes of an acquisition. -/
structure ClaimOutcome (config : ProcessingConfig) (claim : PendingClaim) (processor : ProcessorRow)
    (job : JobRow) (db db' : Database) : Prop where
  inv : Inv db'
  jobs : db'.jobs.map (fun row => (row.id, row.operation))
    = db.jobs.map fun row => (row.id, row.operation)
  attempts : db'.attempts = db.attempts ∨ db'.attempts = db.attempts
    ++ [job.openedAttempt config claim.draw claim.sessionId processor.processorContract claim.now]
  workers : SameWorkers db db'

theorem ClaimWrites.outcome {sha256 : Bytes → Bytes} {blob : BlobRow}
    (h : ClaimWrites config sha256 claim processor job blob db db') (hinv : Inv db)
    (hjob : job ∈ db.jobs) (hstate : job.state = .queued)
    (hflag : job.cancellationRequested = false) :
    ClaimOutcome config claim processor job db db' := by
  cases h with
  | nothing => exact ⟨hinv, rfl, .inl rfl, rfl, rfl⟩
  | cached source =>
    have hmoved : Moved config db (db.updateJobs (fun row => row.id = job.id && row.state = .queued)
        fun row => row.cacheHitOf processor.processorContract source) := by
      refine .of_jobs hinv.keyed rfl rfl (fun _ => rfl) ?_
      intro row hrow hcond
      simp only [Bool.and_eq_true, decide_eq_true_eq] at hcond
      rw [hinv.keyed.job_eq hjob hrow hcond.1]
      exact .cacheHit processor.processorContract source hstate hflag
    refine ⟨hmoved.inv hinv, ?_, .inl rfl, rfl, rfl⟩
    refine map_updateWhere ?_ db.jobs
    exact fun _ _ => rfl
  | opened hopen =>
    rcases openClaim_cases hopen with ⟨hfresh, _, rfl⟩
    refine ⟨?_, ?_, .inr rfl, rfl, rfl⟩
    · exact (Moved.of_claimed hinv.keyed hjob hstate hflag hfresh rfl rfl).inv hinv
    · refine map_updateWhere ?_ db.jobs
      exact fun _ _ => rfl

theorem ClaimOutcome.operation
    (h : ClaimOutcome config claim processor job db db') {job' : JobRow}
    (hjob' : job' ∈ db'.jobs) :
    ∃ row ∈ db.jobs, row.id = job'.id ∧ row.operation = job'.operation := by
  have hmem : (job'.id, job'.operation) ∈ db.jobs.map fun row => (row.id, row.operation) := by
    rw [← h.jobs]
    exact List.mem_map.mpr ⟨job', hjob', rfl⟩
  rcases List.mem_map.mp hmem with ⟨row, hrow, heq⟩
  exact ⟨row, hrow, congrArg Prod.fst heq, congrArg Prod.snd heq⟩

/-- What an acquisition that holds a candidate knows. -/
theorem SlotInv.holding {blob : BlobRow} (h : SlotInv s) (hclaim : claim ∈ s.claims)
    (hstage : claim.stage = .holding processor job blob) :
    processor ∈ claim.processors ∧ (claim.sessionId, claim.now) ∈ s.counted
      ∧ job ∈ s.system.db.jobs ∧ job.operation = processor.operation ∧ job.state = .queued
      ∧ job.cancellationRequested = false := by
  have hclaims := h.claims claim hclaim
  have hreserved : claim.reserved = some processor := by
    rw [PendingClaim.reserved, hstage]
  rcases hclaims.reserved processor hreserved with ⟨hprocessor, hcounted⟩
  rcases hclaims.holding processor job blob hstage with ⟨hjob, hoperation, hstate, hflag⟩
  exact ⟨hprocessor, hcounted, (job?_some hjob).1, hoperation, hstate, hflag⟩

theorem SlotInv.commit
    {blob : BlobRow} {system : System} (h : SlotInv s) (hclaim : claim ∈ s.claims)
    (hstage : claim.stage = .holding processor job blob)
    (hwrites : ClaimWrites config externals.sha256 claim processor job blob s.system.db system.db)
    (hkept : (s.dropClaim claim.sessionId).keepsClaims system.db = true) :
    SlotInv { s.dropClaim claim.sessionId with system := system } := by
  rcases h.holding hclaim hstage with ⟨hprocessor, hcounted, hjob, hoperation, hstate, hflag⟩
  have houtcome := hwrites.outcome h.jobs hjob hstate hflag
  have hworkers := houtcome.workers
  constructor
  · exact houtcome.inv
  · show (system.db.processors.map _).Nodup
    rw [hworkers.processors]
    exact h.keys
  · intro row hrow
    show _ ∈ system.db.sessions.map _
    rw [hworkers.sessions]
    refine h.registered row ?_
    rw [← hworkers.processors]
    exact hrow
  · intro attempt hattempt hrunning
    have hold : attempt ∈ s.system.db.attempts → AttemptInv system.db s.counted attempt := by
      intro hold
      rcases h.attempts attempt hold hrunning with ⟨hcounted, hadvertised⟩
      refine ⟨hcounted, ?_⟩
      intro job' hjob' hid
      rcases houtcome.operation hjob' with ⟨row, hrow, hrowId, hrowOperation⟩
      rw [← hrowOperation, hworkers.processors]
      exact hadvertised row hrow (hrowId.trans hid)
    have hmem : attempt ∈ system.db.attempts := hattempt
    rcases houtcome.attempts with heq | heq
    · rw [heq] at hmem
      exact hold hmem
    rw [heq] at hmem
    rcases List.mem_append.mp hmem with hmem | hnew
    · exact hold hmem
    rcases List.mem_singleton.mp hnew with rfl
    refine ⟨⟨claim.now, hcounted⟩, ?_⟩
    intro job' hjob' hid
    rcases houtcome.operation hjob' with ⟨row, hrow, hrowId, hrowOperation⟩
    have hsame : row = job := h.jobs.keyed.job_eq hjob hrow (hrowId.trans hid)
    -- the processor that the acquisition read is still advertised
    rcases (h.claims claim hclaim).processors processor hprocessor with ⟨hsession, hadvertised⟩
    rcases List.mem_map.mp hadvertised with ⟨current, hcurrent, heq⟩
    rcases ProcessorRow.advertised_eq heq with ⟨hid, hop, hcontract, _⟩
    rw [hworkers.processors]
    refine List.mem_map.mpr ⟨current, hcurrent, ?_⟩
    show (current.sessionId, current.operation, current.processorContract)
      = (claim.sessionId, job'.operation, processor.processorContract)
    rw [hid, hop, hcontract, hsession, ← hrowOperation, hsame, hoperation]
  · exact (h.dropClaim claim.sessionId).sessions
  · intro other hother
    refine ((h.dropClaim claim.sessionId).claims other hother).mono ?_ ?_ (fun _ hentry => hentry)
      (job?_of_keepsClaims hkept hother)
    · show _ ⊆ system.db.sessions.map _
      rw [hworkers.sessions]
      exact fun _ hid => hid
    · show _ ⊆ system.db.processors.map _
      rw [hworkers.processors]
      exact fun _ hrow => hrow

/-! ## Steps and runs -/

theorem SlotInv.step {s t : SlotSystem} {action : SlotAction} (h : SlotInv s)
    (hstep : SlotStep externals config s action t) : SlotInv t := by
  have heffect := slotStep_effect hstep
  clear hstep
  cases heffect with
  | called hstaged hstep hkept => exact h.call hstaged hstep hkept
  | sessions hchange => exact h.sessionsChanged hchange
  | refused => exact h
  | begun claim offers hfresh hsession hprocessors hstage =>
    refine h.addClaim hfresh ⟨hsession, ?_, ?_, ?_⟩
    · intro processor hprocessor
      rw [hprocessors] at hprocessor
      rcases List.mem_filter.mp hprocessor with ⟨hmem, hid⟩
      exact ⟨of_decide_eq_true hid, List.mem_map_of_mem hmem⟩
    · intro processor hreserved
      rw [PendingClaim.reserved, hstage] at hreserved
      cases hreserved
    · intro processor job blob hholding
      rw [hstage] at hholding
      cases hholding
  | dropped _ sessionId => exact h.dropClaim sessionId
  | passed offers hclaim => exact h.setStage ((h.claims _ hclaim).toCounting offers)
  | @full _ claim offers hclaim =>
    -- a full processor is counted all the same
    have hcounting := h.counting (claim.sessionId, claim.now)
    exact hcounting.setStage ((hcounting.claims _ hclaim).toCounting offers)
  | @counted _ claim processor offers hclaim hprocessor hroom =>
    have hcounting := h.counting (claim.sessionId, claim.now)
    refine hcounting.setStage ((hcounting.claims _ hclaim).restaged ?_ fun _ _ _ hstage => by
      cases hstage)
    intro other hreserved
    cases hreserved
    exact ⟨hprocessor, List.mem_cons_self⟩
  | @held _ claim processor offers locked job blob hclaim hstage hcandidate =>
    -- the job is held from now on, as a candidate still queued
    have hinv := h.claims _ hclaim
    refine h.setStage (hinv.restaged ?_ ?_)
    · intro other hreserved
      refine hinv.reserved other ?_
      rw [PendingClaim.reserved, hstage]
      exact hreserved
    · intro other job' blob' hholding
      cases hholding
      rcases claimCandidate_some hcandidate with ⟨hmem, hcond, _⟩
      simp only [JobRow.isCandidate, Bool.and_eq_true, decide_eq_true_eq,
        Bool.not_eq_true'] at hcond
      exact ⟨find?_of_key h.jobs.keyed.jobs hmem rfl, hcond.1.1.1.1, hcond.1.1.1.2, hcond.1.1.2⟩
  | committed hclaim hstage hwrites hkept => exact h.commit hclaim hstage hwrites hkept

theorem reachable_slotInv {actions : List SlotAction}
    (h : Run (SlotStep externals config) {} actions s) : SlotInv s := by
  refine h.invariant (I := SlotInv) (fun _ _ _ hinv hstep => hinv.step hstep) ?_
  constructor
  · exact initial_inv
  · exact List.nodup_nil
  · exact fun _ hprocessor => by cases hprocessor
  · exact fun _ hattempt => by cases hattempt
  · exact List.nodup_nil
  · exact fun _ hclaim => by cases hclaim

end Toss.Processing
