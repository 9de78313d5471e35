import Toss.Processing.SlotInvariant

/-!
# The slot ceiling

The unexpired running claims that a session holds, against the slots that it advertised. Its own
acquisitions wait for each other, and what else runs ends claims or renews them. A renewal takes
room only when the claim it renews had expired already for an acquisition that counted: the
heartbeat read its clock before, and got to the rows after.

* `SlotSystem.IsPresent` — a clock value that no count is ahead of;
* `Bounded` — a bound on the claims of a session at every present clock value;
* `revivesClaim` — a heartbeat that renews an expired claim;
* `RoomInv`, `slots_are_a_ceiling`.
-/

namespace Toss.Processing

open Toss.Foundation

/-! ## Counting claims -/

/-- An attempt that `activeClaims` counts. -/
def AttemptRow.holdsSlot (db : Database) (sessionId : Uuid) (processor : ProcessorRow)
    (now : Timestamp) (attempt : AttemptRow) : Bool :=
  attempt.workerSessionId = sessionId && attempt.processorContract = processor.processorContract
    && attempt.state = .running && decide (now < attempt.leaseExpiresAt)
    && db.jobs.any fun job => job.id = attempt.jobId && job.operation = processor.operation

theorem activeClaims_eq (db : Database) (sessionId : Uuid) (processor : ProcessorRow)
    (now : Timestamp) : activeClaims db sessionId processor now
      = db.attempts.countP (AttemptRow.holdsSlot db sessionId processor now) := rfl

variable {sessionId : Uuid} {db : Database} {bound : Int}

variable {processor : ProcessorRow} {attempt : AttemptRow}

theorem holdsSlot_iff {now : Timestamp} :
    attempt.holdsSlot db sessionId processor now = true ↔
      attempt.workerSessionId = sessionId
        ∧ attempt.processorContract = processor.processorContract ∧ attempt.state = .running
        ∧ now < attempt.leaseExpiresAt
        ∧ ∃ job ∈ db.jobs, job.id = attempt.jobId ∧ job.operation = processor.operation := by
  simp only [AttemptRow.holdsSlot, Bool.and_eq_true, decide_eq_true_eq, List.any_eq_true, and_assoc]

variable {clock clock' : Timestamp} {action : Action} {system : System}

/-- Attempts that are counted are found again before, under their identifiers. -/
theorem activeClaims_le {db db' : Database} (hids : (db'.attempts.map AttemptRow.id).Nodup)
    (h : ∀ attempt' ∈ db'.attempts, attempt'.holdsSlot db' sessionId processor clock' = true →
      ∃ attempt ∈ db.attempts, attempt.id = attempt'.id
        ∧ attempt.holdsSlot db sessionId processor clock = true) :
    activeClaims db' sessionId processor clock' ≤ activeClaims db sessionId processor clock := by
  rw [activeClaims_eq, activeClaims_eq, List.countP_eq_length_filter, List.countP_eq_length_filter,
    ← List.length_map (f := AttemptRow.id), ← List.length_map (f := AttemptRow.id)]
  refine (List.subperm_of_subset (hids.sublist (List.filter_sublist.map _)) ?_).length_le
  intro id hid
  rcases List.mem_map.mp hid with ⟨attempt', hattempt', rfl⟩
  rcases List.mem_filter.mp hattempt' with ⟨hmem', hholds'⟩
  rcases h attempt' hmem' hholds' with ⟨attempt, hmem, hsame, hholds⟩
  exact List.mem_map.mpr ⟨attempt, List.mem_filter.mpr ⟨hmem, hholds⟩, hsame⟩

theorem activeClaims_antitone (h : clock ≤ clock') :
    activeClaims db sessionId processor clock' ≤ activeClaims db sessionId processor clock := by
  refine List.countP_mono_left fun attempt _ hholds => ?_
  rcases holdsSlot_iff.mp hholds with ⟨hsession, hcontract, hstate, hlease, hjob⟩
  exact holdsSlot_iff.mpr ⟨hsession, hcontract, hstate, lt_of_le_of_lt h hlease, hjob⟩

/-! ## Present clock values -/

/-- No claim of the session has been counted at a later clock value. -/
def SlotSystem.IsPresent (s : SlotSystem) (sessionId : Uuid) (clock : Timestamp) : Prop :=
  ∀ entry ∈ s.counted, entry.1 = sessionId → entry.2 ≤ clock

/-- The latest clock value at which claims of a session were counted. -/
theorem exists_latest {counted : List (Uuid × Timestamp)}
    (h : ∃ entry ∈ counted, entry.1 = sessionId) :
    ∃ latest, (sessionId, latest) ∈ counted
      ∧ ∀ entry ∈ counted, entry.1 = sessionId → entry.2 ≤ latest := by
  induction counted with
  | nil =>
    rcases h with ⟨entry, hentry, -⟩
    cases hentry
  | cons head counted ih =>
    by_cases htail : ∃ entry ∈ counted, entry.1 = sessionId
    · rcases ih htail with ⟨latest, hmem, hlatest⟩
      by_cases hhead : head.1 = sessionId ∧ latest < head.2
      · refine ⟨head.2, ?_, ?_⟩
        · rw [← hhead.1]
          exact List.mem_cons_self
        · intro entry hentry hsession
          rcases List.mem_cons.mp hentry with rfl | hold
          · exact le_refl _
          · exact (hlatest entry hold hsession).trans hhead.2.le
      · refine ⟨latest, List.mem_cons_of_mem _ hmem, ?_⟩
        intro entry hentry hsession
        rcases List.mem_cons.mp hentry with rfl | hold
        · exact not_lt.mp fun hlt => hhead ⟨hsession, hlt⟩
        · exact hlatest entry hold hsession
    · rcases h with ⟨entry, hentry, hsession⟩
      rcases List.mem_cons.mp hentry with rfl | hold
      · refine ⟨entry.2, by rw [← hsession]; exact List.mem_cons_self, ?_⟩
        intro other hother hsame
        rcases List.mem_cons.mp hother with rfl | hold
        · exact le_refl _
        · exact absurd ⟨other, hold, hsame⟩ htail
      · exact absurd ⟨entry, hold, hsession⟩ htail

/-- A bound on the claims of a session at every present clock value. -/
def Bounded (s : SlotSystem) (sessionId : Uuid) (processor : ProcessorRow) (bound : Int) : Prop :=
  ∀ clock, s.IsPresent sessionId clock →
    (activeClaims s.system.db sessionId processor clock : Int) ≤ bound

/-- A heartbeat that renews a claim which had expired when claims of its session were counted, to
a lease that is still to come. -/
def revivesClaim (config : ProcessingConfig) (s : SlotSystem) : SlotAction → Bool
  | .call (.heartbeatClaim worker sessionId claimId phase now) =>
    (phase = .processing || phase = .uploadingResult)
      && (s.system.db.claimOf worker sessionId claimId).any fun found =>
        holdsClaim found.2 found.1 claimId now && !found.2.cancellationRequested
          && (s.counted.any fun entry => entry.1 = found.1.workerSessionId
            && decide (found.1.leaseExpiresAt ≤ entry.2))
          && s.counted.all fun entry => entry.1 ≠ found.1.workerSessionId
            || decide (entry.2 < now + config.claimLease)
  | _ => false

/-! ## Bounds -/

variable {s : SlotSystem}

/-- Claims of a processor are counted by what its session advertised of it. -/
theorem Bounded.congr {row : ProcessorRow} (h : Bounded s sessionId processor bound)
    (hsame : row.advertised = processor.advertised) : Bounded s sessionId row bound := by
  intro clock hclock
  have heq : activeClaims s.system.db sessionId row clock
      = activeClaims s.system.db sessionId processor clock := by
    rcases ProcessorRow.advertised_eq hsame with ⟨_, hoperation, hcontract, _⟩
    unfold activeClaims
    rw [hoperation, hcontract]
  rw [heq]
  exact h clock hclock

/-- A count leaves fewer clock values that are present. -/
theorem Bounded.counting (h : Bounded s sessionId processor bound) (entry : Uuid × Timestamp) :
    Bounded { s with counted := entry :: s.counted } sessionId processor bound :=
  fun clock hclock => h clock fun other hother => hclock other (List.mem_cons_of_mem _ hother)

/-- A count at one clock value bounds the claims at every one that is present after it. -/
theorem Bounded.of_count {now : Timestamp}
    (h : (activeClaims s.system.db sessionId processor now : Int) ≤ bound) :
    Bounded { s with counted := (sessionId, now) :: s.counted } sessionId processor bound := by
  intro clock hclock
  have hnow : now ≤ clock := hclock (sessionId, now) List.mem_cons_self rfl
  have hle : activeClaims s.system.db sessionId processor clock
      ≤ activeClaims s.system.db sessionId processor now := activeClaims_antitone hnow
  exact le_trans (by exact_mod_cast hle) h

variable {externals : Externals} {config : ProcessingConfig}

/-- An attempt from before a step that holds a slot after it, under whatever lease. -/
theorem holdsSlot_before {s t : System} (hinv : Inv s.db)
    (hstep : Step externals config s action t) {attempt' : AttemptRow}
    (hattempt : attempt ∈ s.db.attempts) (hjob : attempt'.jobId = attempt.jobId)
    (hsession : attempt'.workerSessionId = attempt.workerSessionId)
    (hcontract : attempt'.processorContract = attempt.processorContract)
    (hrunning : attempt.state = .running) (hlease : clock < attempt.leaseExpiresAt)
    (hholds : attempt'.holdsSlot t.db sessionId processor clock' = true) :
    attempt.holdsSlot s.db sessionId processor clock = true := by
  rcases holdsSlot_iff.mp hholds with ⟨hsession', hcontract', _, _, job', hjob', hid, hoperation⟩
  rcases hinv.keyed.owned attempt hattempt with ⟨job, hmem, howner⟩
  have hsame : job'.id = job.id := calc
    job'.id = attempt'.jobId := hid
    _ = attempt.jobId := hjob
    _ = job.id := howner.symm
  refine holdsSlot_iff.mpr ⟨hsession.symm.trans hsession', hcontract.symm.trans hcontract',
    hrunning, hlease, job, hmem, howner, ?_⟩
  rw [← step_operation hinv hstep hmem hjob' hsame]
  exact hoperation

/-- A claim that is renewed past the latest count was unexpired for it. -/
theorem unexpired_of_not_revived {worker : AuthenticatedWorker} {sessionId claimId : Uuid}
    {phase : ProcessingPhase} {now latest clock : Timestamp} {job : JobRow}
    (hguard : revivesClaim config s (.call (.heartbeatClaim worker sessionId claimId phase now))
      = false) (hclaim : s.system.db.claimOf worker sessionId claimId = some (attempt, job))
    (hholds : holdsClaim job attempt claimId now = true)
    (hphase : phase = .processing ∨ phase = .uploadingResult)
    (hlatest : (attempt.workerSessionId, latest) ∈ s.counted)
    (hlast : ∀ entry ∈ s.counted, entry.1 = attempt.workerSessionId → entry.2 ≤ latest)
    (hclock : latest ≤ clock) (hlease : clock < renewedLease config job attempt now) :
    latest < attempt.leaseExpiresAt := by
  by_contra hexpired
  have hexpired : attempt.leaseExpiresAt ≤ latest := not_lt.mp hexpired
  unfold renewedLease at hlease
  split at hlease
  · -- under a cancellation the lease does not grow
    have hshrunk : clock < attempt.leaseExpiresAt := lt_of_lt_of_le hlease (min_le_left _ _)
    exact absurd (hexpired.trans hclock) (not_le.mpr hshrunk)
  rename_i hflag
  have hrevives : revivesClaim config s
      (.call (.heartbeatClaim worker sessionId claimId phase now)) = true := by
    rw [revivesClaim, hclaim]
    simp only [Option.any_some, Bool.and_eq_true, Bool.or_eq_true, decide_eq_true_eq,
      Bool.not_eq_true', List.any_eq_true, List.all_eq_true]
    refine ⟨hphase, ⟨⟨hholds, by simpa using hflag⟩, ?_⟩, ?_⟩
    · exact ⟨(attempt.workerSessionId, latest), hlatest, rfl, hexpired⟩
    · intro entry hentry
      by_cases hsession : entry.1 = attempt.workerSessionId
      · exact .inr (lt_of_le_of_lt ((hlast entry hentry hsession).trans hclock) hlease)
      · exact .inl hsession
  rw [hrevives] at hguard
  cases hguard

/-- A call that revives no claim leaves a bound as it is. -/
theorem Bounded.call (hinv : SlotInv s) (hstaged : action.isStaged = false)
    (hstep : Step externals config s.system action system)
    (hguard : revivesClaim config s (.call action) = false)
    (h : Bounded s sessionId processor bound) :
    Bounded { s with system := system } sessionId processor bound := by
  intro clock hclock
  have hids : (system.db.attempts.map AttemptRow.id).Nodup := (step_inv hinv.jobs hstep).keyed.attempts
  have hle : ∀ clock', s.IsPresent sessionId clock' →
      (∀ attempt' ∈ system.db.attempts,
        attempt'.holdsSlot system.db sessionId processor clock = true →
        ∃ attempt ∈ s.system.db.attempts, attempt.id = attempt'.id
          ∧ attempt.holdsSlot s.system.db sessionId processor clock' = true) →
      (activeClaims system.db sessionId processor clock : Int) ≤ bound := by
    intro clock' hclock' hfound
    exact le_trans (by exact_mod_cast activeClaims_le hids hfound) (h clock' hclock')
  have hsame : ∀ attempt ∈ s.system.db.attempts,
      attempt.holdsSlot system.db sessionId processor clock = true →
      attempt.holdsSlot s.system.db sessionId processor clock = true := by
    intro attempt hattempt hholds
    rcases holdsSlot_iff.mp hholds with ⟨_, _, hrunning, hlease, _⟩
    exact holdsSlot_before hinv.jobs hstep hattempt rfl rfl rfl hrunning hlease hholds
  have heffect := step_attempts hstep
  generalize hattempts : system.db.attempts = attempts at heffect
  cases heffect with
  | fewer action hkept =>
    refine hle clock hclock ?_
    intro attempt' hmem' hholds
    rw [hattempts] at hmem'
    have hold := hkept attempt' hmem' (holdsSlot_iff.mp hholds).2.2.1
    exact ⟨attempt', hold, rfl, hsame attempt' hold hholds⟩
  | claimed => cases hstaged
  | @renewed attempt job worker sessionId' claimId phase now hclaim hholds hphase =>
    rcases claimOf_some hclaim with ⟨hattempt, _, _, _⟩
    have hrunning : attempt.state = .running := by
      simp only [holdsClaim, Bool.and_eq_true, decide_eq_true_eq] at hholds
      exact hholds.1.1.1
    rcases (hinv.attempts attempt hattempt hrunning).counted with ⟨first, hfirst⟩
    -- another session's bound sees the same claims
    by_cases hsession : attempt.workerSessionId = sessionId
    · rcases exists_latest ⟨_, hfirst, rfl⟩ with ⟨latest, hlatest, hlast⟩
      have hle_clock : latest ≤ clock := hclock _ hlatest hsession
      refine hle latest ?_ ?_
      · intro entry hentry heq
        exact hlast entry hentry (heq.trans hsession.symm)
      · intro attempt' hmem' hslot
        rw [hattempts] at hmem'
        rcases mem_updateWhere.mp hmem' with ⟨old, hold, ⟨hcond, rfl⟩ | ⟨_, rfl⟩⟩
        · have heq : old = attempt :=
            hinv.jobs.keyed.attempt_eq hattempt hold (of_decide_eq_true hcond)
          subst heq
          have hlease : clock < renewedLease config job old now :=
            (holdsSlot_iff.mp hslot).2.2.2.1
          have hunexpired := unexpired_of_not_revived hguard hclaim hholds hphase hlatest hlast
            hle_clock hlease
          refine ⟨old, hattempt, rfl, ?_⟩
          refine holdsSlot_before hinv.jobs hstep hattempt ?_ ?_ ?_ hrunning hunexpired hslot
          · rfl
          · rfl
          · rfl
        · rcases holdsSlot_iff.mp hslot with ⟨_, _, hrunning', hlease, _⟩
          exact ⟨attempt', hold, rfl, holdsSlot_before hinv.jobs hstep hold rfl rfl rfl hrunning'
            (lt_of_le_of_lt hle_clock hlease) hslot⟩
    · refine hle clock hclock ?_
      intro attempt' hmem' hslot
      rw [hattempts] at hmem'
      rcases mem_updateWhere.mp hmem' with ⟨old, hold, ⟨hcond, rfl⟩ | ⟨_, rfl⟩⟩
      · have heq : old = attempt :=
          hinv.jobs.keyed.attempt_eq hattempt hold (of_decide_eq_true hcond)
        subst heq
        exact absurd (holdsSlot_iff.mp hslot).1 hsession
      · exact ⟨attempt', hold, rfl, hsame attempt' hold hslot⟩

/-! ## Calls on sessions -/

theorem Bounded.of_tables (h : Bounded s sessionId processor bound)
    (hjobs : db.jobs = s.system.db.jobs) (hattempts : db.attempts = s.system.db.attempts) :
    Bounded { s with system := { s.system with db := db } } sessionId processor bound := by
  intro clock hclock
  have heq : activeClaims db sessionId processor clock
      = activeClaims s.system.db sessionId processor clock := by
    rw [activeClaims, hjobs, hattempts, activeClaims]
  show (activeClaims db sessionId processor clock : Int) ≤ bound
  rw [heq]
  exact h clock hclock

/-- A session that is not there yet holds no claims. -/
theorem activeClaims_of_fresh (hinv : SlotInv s)
    (hfresh : sessionId ∉ s.system.db.sessions.map SessionRow.id) (processor : ProcessorRow)
    (clock : Timestamp) : activeClaims s.system.db sessionId processor clock = 0 := by
  refine List.countP_eq_zero.mpr ?_
  intro attempt hattempt hholds
  rcases holdsSlot_iff.mp hholds with ⟨hsession, _, hrunning, _, job, hjob, hid, _⟩
  have hkey := (hinv.attempts attempt hattempt hrunning).advertised job hjob hid
  rcases List.mem_map.mp hkey with ⟨row, hrow, heq⟩
  have hrowSession : row.sessionId = attempt.workerSessionId := congrArg Prod.fst heq
  refine hfresh ?_
  rw [← hsession, ← hrowSession]
  exact hinv.registered row hrow

/-! ## Commits -/

theorem holdsSlot_congr {db db' : Database}
    (hjobs : db'.jobs.map (fun row => (row.id, row.operation))
      = db.jobs.map fun row => (row.id, row.operation)) (sessionId : Uuid)
    (processor : ProcessorRow) (clock : Timestamp) :
    AttemptRow.holdsSlot db' sessionId processor clock
      = AttemptRow.holdsSlot db sessionId processor clock := by
  funext attempt
  have hany : ∀ tables : Database,
      (tables.jobs.any fun job => job.id = attempt.jobId && job.operation = processor.operation)
        = (tables.jobs.map fun row => (row.id, row.operation)).any fun pair =>
          pair.1 = attempt.jobId && pair.2 = processor.operation := by
    intro tables
    rw [List.any_map]
    rfl
  rw [AttemptRow.holdsSlot, AttemptRow.holdsSlot, hany, hany, hjobs]

/-- A commit takes one slot at most, and none of other processors. -/
theorem Bounded.commit {s : SlotSystem} {claim : PendingClaim} {processor row : ProcessorRow}
    {job : JobRow} {system : System} {sessionId : Uuid} {bound before : Int}
    (houtcome : ClaimOutcome config claim processor job s.system.db system.db)
    (h : Bounded s sessionId row before)
    (hroom : before + 1 ≤ bound ∨ before ≤ bound ∧ ∀ clock, (job.openedAttempt config claim.draw
      claim.sessionId processor.processorContract claim.now).holdsSlot s.system.db sessionId row clock
        = false) :
    Bounded { s.dropClaim claim.sessionId with system := system } sessionId row bound := by
  intro clock hclock
  have hbefore := h clock hclock
  show (activeClaims system.db sessionId row clock : Int) ≤ bound
  rw [activeClaims_eq, holdsSlot_congr houtcome.jobs]
  rw [activeClaims_eq] at hbefore
  rcases houtcome.attempts with heq | heq
  · rw [heq]
    omega
  rw [heq, List.countP_append, List.countP_singleton]
  rcases hroom with hroom | ⟨hroom, hother⟩
  · split <;> omega
  · rw [hother clock]
    simpa using hbefore.trans hroom

/-! ## The ceiling -/

/-- A session holds no more claims than it advertises slots, and less while one of its
acquisitions has found room. -/
structure RoomInv (s : SlotSystem) : Prop where
  room : ∀ processor ∈ s.system.db.processors,
    Bounded s processor.sessionId processor processor.slots
  reserved : ∀ claim ∈ s.claims, ∀ processor, claim.reserved = some processor →
    Bounded s claim.sessionId processor (processor.slots - 1)

theorem RoomInv.counting (h : RoomInv s) (entry : Uuid × Timestamp) :
    RoomInv { s with counted := entry :: s.counted } where
  room := fun processor hprocessor => (h.room processor hprocessor).counting entry
  reserved := fun claim hclaim processor hreserved =>
    (h.reserved claim hclaim processor hreserved).counting entry

theorem RoomInv.dropClaim (h : RoomInv s) (sessionId : Uuid) :
    RoomInv (s.dropClaim sessionId) where
  room := h.room
  reserved := fun claim hclaim => h.reserved claim (List.mem_filter.mp hclaim).1

theorem RoomInv.setStage (h : RoomInv s) {claim : PendingClaim} {stage : ClaimStage}
    (hstage : ∀ processor, PendingClaim.reserved { claim with stage := stage } = some processor →
      Bounded s claim.sessionId processor (processor.slots - 1)) :
    RoomInv (s.setStage claim stage) where
  room := h.room
  reserved := by
    intro other hother processor hreserved
    rcases List.mem_cons.mp hother with rfl | hold
    · exact hstage processor hreserved
    · exact (h.dropClaim claim.sessionId).reserved other hold processor hreserved

theorem RoomInv.call (h : RoomInv s) (hinv : SlotInv s) (hstaged : action.isStaged = false)
    (hstep : Step externals config s.system action system)
    (hguard : revivesClaim config s (.call action) = false) :
    RoomInv { s with system := system } where
  room := by
    intro processor hprocessor
    have hworkers := step_workers hstep (by rintro sessions processors rfl; cases hstaged)
    refine Bounded.call hinv hstaged hstep hguard (h.room processor ?_)
    rw [← hworkers.processors]
    exact hprocessor
  reserved := fun claim hclaim processor hreserved =>
    .call hinv hstaged hstep hguard (h.reserved claim hclaim processor hreserved)

theorem RoomInv.sessionsChanged (h : RoomInv s) (hinv : SlotInv s)
    (hchange : SessionsChange s.system.db db) :
    RoomInv { s with system := { s.system with db := db } } where
  room := by
    intro row hrow
    refine Bounded.of_tables ?_ hchange.jobs hchange.attempts
    rcases hchange.origin row hrow with hold | ⟨hfresh, _, hslots⟩
    · rcases List.mem_map.mp hold with ⟨processor, hprocessor, heq⟩
      rcases ProcessorRow.advertised_eq heq with ⟨hsession, _, _, hslots⟩
      rw [← hsession, ← hslots]
      exact (h.room processor hprocessor).congr heq.symm
    · intro clock _
      rw [activeClaims_of_fresh hinv hfresh]
      exact hslots
  reserved := fun claim hclaim processor hreserved =>
    (h.reserved claim hclaim processor hreserved).of_tables hchange.jobs hchange.attempts

theorem RoomInv.commit {s : SlotSystem} {claim : PendingClaim} {processor : ProcessorRow}
    {job : JobRow} {blob : BlobRow} (h : RoomInv s) (hinv : SlotInv s)
    (hclaim : claim ∈ s.claims) (hstage : claim.stage = .holding processor job blob)
    (hwrites : ClaimWrites config externals.sha256 claim processor job blob s.system.db system.db) :
    RoomInv { s.dropClaim claim.sessionId with system := system } := by
  rcases hinv.holding hclaim hstage with ⟨hprocessor, _, hjob, hoperation, hstate, hflag⟩
  have houtcome := hwrites.outcome hinv.jobs hjob hstate hflag
  rcases (hinv.claims claim hclaim).processors processor hprocessor with ⟨hsession, hadvertised⟩
  rcases List.mem_map.mp hadvertised with ⟨current, hcurrent, hsame⟩
  constructor
  · intro row hrow
    have hold : row ∈ s.system.db.processors := by
      rw [← houtcome.workers.processors]
      exact hrow
    -- the slot is taken at the processor that was reserved, and at no other
    by_cases hkey : row.key = current.key
    · have heq : row = current := List.inj_on_of_nodup_map hinv.keys hold hcurrent hkey
      have hreserved : claim.reserved = some processor := by
        rw [PendingClaim.reserved, hstage]
      rcases ProcessorRow.advertised_eq hsame with ⟨hid, _, _, hslots⟩
      rw [heq, hid, hsession, hslots]
      exact .commit houtcome ((h.reserved claim hclaim processor hreserved).congr hsame)
        (.inl (by omega))
    · refine .commit houtcome (h.room row hold) (.inr ⟨le_rfl, ?_⟩)
      intro clock
      rw [Bool.eq_false_iff]
      intro hholds
      rcases holdsSlot_iff.mp hholds with ⟨hid, hcontract, _, _, other, hother, hotherId, hop⟩
      have hothers : other = job := hinv.jobs.keyed.job_eq hjob hother hotherId
      rcases ProcessorRow.advertised_eq hsame with ⟨hid', hop', hcontract', _⟩
      refine hkey ?_
      have hsessions : row.sessionId = current.sessionId := calc
        row.sessionId = claim.sessionId := hid.symm
        _ = processor.sessionId := hsession.symm
        _ = current.sessionId := hid'.symm
      have hoperations : row.operation = current.operation := by
        rw [← hop, hothers, hoperation, hop']
      have hcontracts : row.processorContract = current.processorContract :=
        hcontract.symm.trans hcontract'.symm
      rw [ProcessorRow.key, hsessions, hoperations, hcontracts, ProcessorRow.key]
  · intro other hother row hreserved
    have hother := List.mem_filter.mp hother
    refine .commit houtcome (h.reserved other hother.1 row hreserved) (.inr ⟨le_rfl, ?_⟩)
    intro clock
    rw [Bool.eq_false_iff]
    intro hholds
    have hid : claim.sessionId = other.sessionId := (holdsSlot_iff.mp hholds).1
    exact of_decide_eq_true hother.2 hid.symm

theorem RoomInv.step {t : SlotSystem} {action : SlotAction} (h : RoomInv s) (hinv : SlotInv s)
    (hguard : revivesClaim config s action = false)
    (hstep : SlotStep externals config s action t) : RoomInv t := by
  have heffect := slotStep_effect hstep
  clear hstep
  cases heffect with
  | called hstaged hstep hkept => exact h.call hinv hstaged hstep hguard
  | sessions hchange => exact h.sessionsChanged hinv hchange
  | refused => exact h
  | begun claim offers hfresh hsession hprocessors hstage =>
    refine ⟨h.room, ?_⟩
    intro other hother processor hreserved
    rcases List.mem_cons.mp hother with rfl | hold
    · rw [PendingClaim.reserved, hstage] at hreserved
      cases hreserved
    · exact h.reserved other hold processor hreserved
  | dropped _ sessionId => exact h.dropClaim sessionId
  | passed offers hclaim => exact h.setStage fun _ hreserved => by cases hreserved
  | full offers hclaim =>
    exact (h.counting _).setStage fun _ hreserved => by cases hreserved
  | @counted _ claim processor offers hclaim hprocessor hroom =>
    refine (h.counting _).setStage ?_
    intro other hreserved
    cases hreserved
    exact .of_count (by omega)
  | @held _ claim processor offers locked job blob hclaim hstage hcandidate =>
    refine h.setStage ?_
    intro other hreserved
    refine h.reserved claim hclaim other ?_
    rw [PendingClaim.reserved, hstage]
    exact hreserved
  | committed hclaim hstage hwrites hkept => exact h.commit hinv hclaim hstage hwrites

/-- The running claim of a job is the only one. -/
theorem eq_of_running (hinv : Inv db) {other : AttemptRow} (hattempt : attempt ∈ db.attempts)
    (hother : other ∈ db.attempts) (hrunning : attempt.state = .running)
    (hotherRunning : other.state = .running) (hjob : other.jobId = attempt.jobId) :
    other = attempt := by
  rcases hinv.keyed.owned attempt hattempt with ⟨job, hmem, howner⟩
  have hof : ∀ row ∈ db.attempts, row.state = .running → row.jobId = job.id →
      row ∈ runningOf (db.attemptsOf job.id) := fun row hrow hstate hid =>
    JobInv.mem_runningOf.mpr ⟨mem_attemptsOf.mpr ⟨hrow, hid⟩, hstate⟩
  have hattempt' := hof attempt hattempt hrunning howner.symm
  have hother' := hof other hother hotherRunning (hjob.trans howner.symm)
  by_cases hstate : job.state = .running
  · rcases (hinv.job job hmem).running hstate with ⟨only, honly, _⟩
    rw [honly, List.mem_singleton] at hattempt' hother'
    rw [hattempt', hother']
  · rw [((hinv.job job hmem).idle hstate).1] at hattempt'
    cases hattempt'

/-- In every run two running claims are never of one job, and each is of a processor that its
session advertises. In every run in which no heartbeat revives an expired claim, a session holds
at most as many unexpired running claims of a processor as it advertised slots. -/
theorem slots_are_a_ceiling {actions : List SlotAction} {s : SlotSystem}
    (h : Run (SlotStep externals config) {} actions s) :
    (∀ attempt ∈ s.system.db.attempts, ∀ other ∈ s.system.db.attempts,
      attempt.state = .running → other.state = .running → other.jobId = attempt.jobId →
      other = attempt)
    ∧ (∀ attempt ∈ s.system.db.attempts, attempt.state = .running →
      ∀ job ∈ s.system.db.jobs, job.id = attempt.jobId →
      (attempt.workerSessionId, job.operation, attempt.processorContract)
        ∈ s.system.db.processors.map ProcessorRow.key)
    ∧ (Run (Guarded (fun s action => revivesClaim config s action = false)
        (SlotStep externals config)) {} actions s →
      ∀ processor ∈ s.system.db.processors, ∀ clock, s.IsPresent processor.sessionId clock →
        (activeClaims s.system.db processor.sessionId processor clock : Int) ≤ processor.slots) := by
  have hinv := reachable_slotInv h
  refine ⟨?_, ?_, ?_⟩
  · intro attempt hattempt other hother hrunning hotherRunning hjob
    exact eq_of_running hinv.jobs hattempt hother hrunning hotherRunning hjob
  · intro attempt hattempt hrunning
    exact (hinv.attempts attempt hattempt hrunning).advertised
  · intro hguarded
    have hroom : SlotInv s ∧ RoomInv s := by
      refine Run.invariant_of_guard (I := fun s => SlotInv s ∧ RoomInv s) ?_ hguarded ?_
      · intro s action t hboth hguard hstep
        exact ⟨hboth.1.step hstep, hboth.2.step hboth.1 hguard hstep⟩
      · have hinitial : Run (SlotStep externals config) {} [] {} := .nil _
        refine ⟨reachable_slotInv hinitial, ?_⟩
        constructor
        · exact fun _ hprocessor => by cases hprocessor
        · exact fun _ hclaim => by cases hclaim
    exact hroom.2.room

/-! ## Runs to evaluate -/

/-- A job is admitted and prepared. -/
def sampleQueued (id : Uuid) (key : Text) : List SlotAction :=
  [.call (.reserveBegin (sampleCommand id key)), .call .reserveNext, .call .reserveNext,
   .call .reserveNext, .call .reserveNext, .call .reserveNext,
   .call (.storePreparedInput id 50 sampleInput)]

def sampleAcquisition (draw : ClaimDraw) (now : Timestamp) : List SlotAction :=
  [.beginClaim sampleWorker draw 20 [⟨.latexCompilePdfV1, ['c'], 1⟩] now, .countOffer 20,
   .selectCandidate 20 [], .commitClaim 20]

/-- A session with one slot takes a second job when its claim on the first has expired. -/
def sampleSlots : List SlotAction :=
  sampleQueued 1 ['k'] ++ sampleQueued 2 ['l']
    ++ [.registerSession sampleWorker ['i'] [⟨.latexCompilePdfV1, ['c'], ['r'], 1⟩] (seconds 60) 20
      (seconds 0)]
    ++ sampleAcquisition ⟨30, 31, 32, []⟩ (seconds 0)
    ++ sampleAcquisition ⟨40, 41, 42, []⟩ (seconds 46)

theorem slots_are_a_ceiling_after_expiry : ∃ s,
    Run (SlotStep sampleExternals .default) {} sampleSlots s
      ∧ activeClaims s.system.db 20 ⟨20, .latexCompilePdfV1, ['c'], 1, true⟩ (seconds 46) = 1
      ∧ s.system.db.attempts.map AttemptRow.state = [.running, .running]
      ∧ ∀ processor ∈ s.system.db.processors, ∀ clock, s.IsPresent processor.sessionId clock →
        (activeClaims s.system.db processor.sessionId processor clock : Int) ≤ processor.slots := by
  have hsome : (exec (fun s action => if revivesClaim .default s action = false then
      slotStep sampleExternals .default s action else none) {} sampleSlots).isSome = true := by
    decide +kernel
  have hguarded : Run (Guarded (fun s action => revivesClaim .default s action = false)
      (SlotStep sampleExternals .default)) {} sampleSlots _ :=
    exec_guarded_run (eq_some_getD hsome {})
  have hrun := hguarded.mono fun _ _ _ hstep => hstep.2
  exact ⟨_, hrun, by decide +kernel, by decide +kernel, (slots_are_a_ceiling hrun).2.2 hguarded⟩

/-- The run with a heartbeat of the first claim at its end, which read its clock before the second
acquisition. -/
def sampleRevival : List SlotAction :=
  sampleSlots ++ [.call (.heartbeatClaim sampleWorker 20 31 .processing (seconds 44))]

theorem revived_claim_exceeds_the_slots : ∃ s,
    Run (SlotStep sampleExternals .default) {} sampleRevival s
      ∧ ∃ processor ∈ s.system.db.processors, ∃ clock, s.IsPresent processor.sessionId clock
        ∧ processor.slots < activeClaims s.system.db processor.sessionId processor clock := by
  have hsome : (exec (slotStep sampleExternals .default) {} sampleRevival).isSome = true := by
    decide +kernel
  have hcounted : ∀ entry ∈ ((exec (slotStep sampleExternals .default) {} sampleRevival).getD
      {}).counted, entry.2 ≤ seconds 46 := by
    decide +kernel
  exact ⟨_, exec_run (eq_some_getD hsome {}), ⟨20, .latexCompilePdfV1, ['c'], 1, true⟩,
    by decide +kernel, seconds 46, fun entry hentry _ => hcounted entry hentry, by decide +kernel⟩

end Toss.Processing
