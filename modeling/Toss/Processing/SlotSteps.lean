import Toss.Processing.RunningAttempts
import Toss.Processing.WorkerSessions

/-!
# What a step does to the acquisitions under way

* `ProcessorRow.advertised` — what a session has advertised of a processor;
* `SessionsChange` — what a call on sessions leaves of them;
* `ClaimWrites` — the tables that an acquisition leaves;
* `SlotEffect`, `slotStep_effect` — the steps of the system, one case each.
-/

namespace Toss.Processing

open Toss.Foundation

/-! ## Processors -/

/-- The primary key of processors. -/
def ProcessorRow.key (processor : ProcessorRow) : Uuid × ProcessingOperation × Text :=
  (processor.sessionId, processor.operation, processor.processorContract)

/-- The columns that a session advertises, its health apart. -/
def ProcessorRow.advertised (processor : ProcessorRow) :
    (Uuid × ProcessingOperation × Text) × Int :=
  (processor.key, processor.slots)

variable {processor : ProcessorRow}

theorem ProcessorRow.advertised_eq {row : ProcessorRow}
    (h : row.advertised = processor.advertised) :
    row.sessionId = processor.sessionId ∧ row.operation = processor.operation
      ∧ row.processorContract = processor.processorContract ∧ row.slots = processor.slots := by
  simp only [ProcessorRow.advertised, ProcessorRow.key, Prod.mk.injEq, and_assoc] at h
  exact h

theorem map_key (rows : List ProcessorRow) :
    rows.map ProcessorRow.key = (rows.map ProcessorRow.advertised).map Prod.fst := by
  rw [List.map_map]
  rfl

/-- A call on sessions: the processors that were there keep their slots, and those of a new session
have some. -/
structure SessionsChange (db db' : Database) : Prop where
  jobs : db'.jobs = db.jobs
  attempts : db'.attempts = db.attempts
  sessions : db.sessions.map SessionRow.id ⊆ db'.sessions.map SessionRow.id
  kept : db.processors.map ProcessorRow.advertised ⊆ db'.processors.map ProcessorRow.advertised
  origin : ∀ row ∈ db'.processors, row.advertised ∈ db.processors.map ProcessorRow.advertised
    ∨ (row.sessionId ∉ db.sessions.map SessionRow.id
      ∧ row.sessionId ∈ db'.sessions.map SessionRow.id ∧ 0 ≤ row.slots)
  keys : (∀ processor ∈ db.processors, processor.sessionId ∈ db.sessions.map SessionRow.id) →
    (db.processors.map ProcessorRow.key).Nodup → (db'.processors.map ProcessorRow.key).Nodup

/-- A call that leaves what is advertised. -/
theorem SessionsChange.of_advertised {db db' : Database} (hjobs : db'.jobs = db.jobs)
    (hattempts : db'.attempts = db.attempts)
    (hsessions : db'.sessions.map SessionRow.id = db.sessions.map SessionRow.id)
    (hprocessors : db'.processors.map ProcessorRow.advertised
      = db.processors.map ProcessorRow.advertised) : SessionsChange db db' where
  jobs := hjobs
  attempts := hattempts
  sessions := by rw [hsessions]; exact fun _ hid => hid
  kept := by rw [hprocessors]; exact fun _ hrow => hrow
  origin := by
    intro row hrow
    rw [← hprocessors]
    exact .inl (List.mem_map_of_mem hrow)
  keys := by
    intro _ hkeys
    rw [map_key, hprocessors, ← map_key]
    exact hkeys

theorem registerSession_change (worker : AuthenticatedWorker) (workerInstance : Text)
    (processors : List WorkerProcessorAdvertisement) (sessionLease : Int) (id : Uuid)
    (db : Database) (now : Timestamp) :
    SessionsChange db (registerSession worker workerInstance processors sessionLease id db now).2 := by
  have hsame : SessionsChange db db := .of_advertised rfl rfl rfl rfl
  unfold registerSession
  split
  · exact hsame
  split
  · exact hsame
  rename_i hvalid
  split
  · exact hsame
  rename_i hfresh
  simp only [Bool.or_eq_true, Bool.not_eq_true', not_or, Bool.not_eq_false,
    List.all_eq_true, decide_eq_true_eq] at hvalid
  have hfresh : id ∉ db.sessions.map SessionRow.id := by
    intro hid
    rcases List.mem_map.mp hid with ⟨session, hsession, heq⟩
    exact hfresh (List.any_eq_true.mpr ⟨session, hsession, decide_eq_true heq⟩)
  constructor
  · rfl
  · rfl
  · rw [List.map_append]
    exact List.subset_append_left _ _
  · rw [List.map_append]
    exact List.subset_append_left _ _
  · intro row hrow
    rcases List.mem_append.mp hrow with hold | hnew
    · exact .inl (List.mem_map_of_mem hold)
    rcases List.mem_map.mp hnew with ⟨processor, hprocessor, rfl⟩
    refine .inr ⟨hfresh, ?_, ?_⟩
    · rw [List.map_append]
      exact List.mem_append_right _ List.mem_cons_self
    · have hslots := hvalid.1 processor hprocessor
      simp only [WorkerProcessorAdvertisement.isValid, Bool.and_eq_true,
        decide_eq_true_eq] at hslots
      exact hslots.1.1.1.1.le
  · intro hregistered hkeys
    rw [List.map_append, List.nodup_append]
    refine ⟨hkeys, ?_, ?_⟩
    · -- the new keys are the advertised pairs, with the session in front
      have hpairs := hvalid.2.map (f := fun pair : ProcessingOperation × Text => (id, pair))
        fun _ _ heq => (Prod.mk.inj heq).2
      rw [List.map_map] at hpairs ⊢
      exact hpairs
    · intro key hold key' hnew heq
      rcases List.mem_map.mp hold with ⟨processor, hprocessor, rfl⟩
      rcases List.mem_map.mp hnew with ⟨row, hrow, rfl⟩
      rcases List.mem_map.mp hrow with ⟨advertised, _, rfl⟩
      refine hfresh ?_
      have hid : processor.sessionId = id := congrArg Prod.fst heq
      rw [← hid]
      exact hregistered processor hprocessor

variable {sessionId : Uuid}

/-- Reports change the health of processors only. -/
theorem reportHealth_advertised {rows rows' : List ProcessorRow}
    {reports : List (ProcessingOperation × Text × Bool)}
    (h : reportHealth sessionId rows reports = some rows') :
    rows'.map ProcessorRow.advertised = rows.map ProcessorRow.advertised := by
  induction reports generalizing rows with
  | nil => rw [← Option.some.inj h]
  | cons report reports ih =>
    rcases report with ⟨operation, processorContract, healthy⟩
    unfold reportHealth at h
    dsimp only at h
    split at h
    · rw [ih h]
      refine map_updateWhere ?_ rows
      exact fun _ _ => rfl
    · cases h

theorem heartbeatSession_change (worker : AuthenticatedWorker) (sessionId : Uuid)
    (reports : List (ProcessingOperation × Text × Bool)) (sessionLease : Int) (db : Database)
    (now : Timestamp) :
    SessionsChange db (heartbeatSession worker sessionId reports sessionLease db now).2 := by
  have hsame : SessionsChange db db := .of_advertised rfl rfl rfl rfl
  unfold heartbeatSession
  split
  · exact hsame
  split
  · exact hsame
  split
  · refine .of_advertised rfl rfl ?_ rfl
    refine map_updateWhere ?_ db.sessions
    exact fun _ _ => rfl
  split
  · exact hsame
  split
  · exact hsame
  rename_i processors hprocessors
  refine .of_advertised rfl rfl ?_ (reportHealth_advertised hprocessors)
  refine map_updateWhere ?_ db.sessions
  exact fun _ _ => rfl

theorem drainSession_change (worker : AuthenticatedWorker) (sessionId : Uuid) (db : Database) :
    SessionsChange db (drainSession worker sessionId db).2 := by
  unfold drainSession
  dsimp only
  split
  · refine .of_advertised rfl rfl ?_ rfl
    refine map_updateWhere ?_ db.sessions
    exact fun _ _ => rfl
  · exact .of_advertised rfl rfl rfl rfl

/-! ## Acquisitions -/

/-- What an acquisition writes for the candidate that it holds. -/
inductive ClaimWrites (config : ProcessingConfig) (sha256 : Bytes → Bytes) (claim : PendingClaim)
    (processor : ProcessorRow) (job : JobRow) (blob : BlobRow) (db : Database) : Database → Prop
  | nothing : ClaimWrites config sha256 claim processor job blob db db
  | cached (source : Uuid) : ClaimWrites config sha256 claim processor job blob db
      (db.updateJobs (fun row => row.id = job.id && row.state = .queued)
        fun row => row.cacheHitOf processor.processorContract source)
  | opened {db' : Database}
      (hopen : openClaim config sha256 claim.draw db claim.sessionId processor.processorContract
        claim.now job blob = some db') :
      ClaimWrites config sha256 claim processor job blob db db'

theorem claimJob_writes {config : ProcessingConfig} {sha256 : Bytes → Bytes} (claim : PendingClaim)
    (processor : ProcessorRow) (job : JobRow) (blob : BlobRow) (db : Database) :
    ClaimWrites config sha256 claim processor job blob db
      (claimJob config sha256 claim.draw db claim.sessionId processor.processorContract claim.now
        job blob).2 := by
  unfold claimJob
  split
  · next source _ => exact .cached source.id
  · split
    · next hopen => exact .opened hopen
    · exact .nothing

variable {externals : Externals} {config : ProcessingConfig}

/-- What a step leaves. -/
inductive SlotEffect (externals : Externals) (config : ProcessingConfig) (s : SlotSystem) :
    SlotAction → SlotSystem → Prop
  | called {action : Action} {system : System} (hstaged : action.isStaged = false)
      (hstep : Step externals config s.system action system)
      (hkept : s.keepsClaims system.db = true) :
      SlotEffect externals config s (.call action) { s with system := system }
  | sessions {action : SlotAction} {db : Database} (hchange : SessionsChange s.system.db db) :
      SlotEffect externals config s action { s with system := { s.system with db := db } }
  | refused (action : SlotAction) : SlotEffect externals config s action s
  | begun {action : SlotAction} (claim : PendingClaim) (offers : List ProcessorCapacityOffer)
      (hfresh : ∀ other ∈ s.claims, other.sessionId ≠ claim.sessionId)
      (hsession : claim.sessionId ∈ s.system.db.sessions.map SessionRow.id)
      (hprocessors : claim.processors
        = s.system.db.processors.filter fun processor => processor.sessionId = claim.sessionId)
      (hstage : claim.stage = .counting offers) :
      SlotEffect externals config s action { s with claims := claim :: s.claims }
  | dropped (action : SlotAction) (sessionId : Uuid) :
      SlotEffect externals config s action (s.dropClaim sessionId)
  | passed {action : SlotAction} {claim : PendingClaim} (offers : List ProcessorCapacityOffer)
      (hclaim : claim ∈ s.claims) :
      SlotEffect externals config s action (s.setStage claim (.counting offers))
  | full {action : SlotAction} {claim : PendingClaim} (offers : List ProcessorCapacityOffer)
      (hclaim : claim ∈ s.claims) :
      SlotEffect externals config s action
        ({ s with counted := (claim.sessionId, claim.now) :: s.counted }.setStage claim
          (.counting offers))
  | counted {action : SlotAction} {claim : PendingClaim} (processor : ProcessorRow)
      (offers : List ProcessorCapacityOffer) (hclaim : claim ∈ s.claims)
      (hprocessor : processor ∈ claim.processors)
      (hroom : activeClaims s.system.db claim.sessionId processor claim.now < processor.slots) :
      SlotEffect externals config s action
        ({ s with counted := (claim.sessionId, claim.now) :: s.counted }.setStage claim
          (.selecting processor offers))
  | held {action : SlotAction} {claim : PendingClaim} {processor : ProcessorRow}
      {offers : List ProcessorCapacityOffer} {locked : List Uuid} {job : JobRow} {blob : BlobRow}
      (hclaim : claim ∈ s.claims) (hstage : claim.stage = .selecting processor offers)
      (hcandidate : claimCandidate s.system.db locked processor.operation claim.now
        = some (job, blob)) :
      SlotEffect externals config s action (s.setStage claim (.holding processor job blob))
  | committed {action : SlotAction} {claim : PendingClaim} {processor : ProcessorRow}
      {job : JobRow} {blob : BlobRow} {system : System} (hclaim : claim ∈ s.claims)
      (hstage : claim.stage = .holding processor job blob)
      (hwrites : ClaimWrites config externals.sha256 claim processor job blob s.system.db system.db)
      (hkept : (s.dropClaim claim.sessionId).keepsClaims system.db = true) :
      SlotEffect externals config s action
        { s.dropClaim claim.sessionId with system := system }

variable {claim : PendingClaim} {s t : SlotSystem} {action : SlotAction}

theorem SlotSystem.claim?_some {s : SlotSystem} (h : s.claim? sessionId = some claim) :
    claim ∈ s.claims ∧ claim.sessionId = sessionId :=
  ⟨List.mem_of_find?_eq_some h, by simpa using List.find?_some h⟩

theorem SlotSystem.after_some {system : System} (h : s.after system = some t) :
    s.keepsClaims system.db = true ∧ t = { s with system := system } := by
  unfold SlotSystem.after at h
  split at h
  · next hkept => exact ⟨hkept, (Option.some.inj h).symm⟩
  · cases h

variable {offers : List ProcessorCapacityOffer}

theorem beginClaim_effect {worker : AuthenticatedWorker} {draw : ClaimDraw} {now : Timestamp}
    (h : beginClaim s worker draw sessionId offers now = some t) :
    SlotEffect externals config s action t := by
  unfold beginClaim at h
  split at h
  · cases h
  rename_i hfresh
  split at h
  · cases h
    exact .refused action
  rename_i session hsession
  split at h
  · cases h
    exact .refused action
  cases h
  have hfound := List.find?_some hsession
  simp only [Bool.and_eq_true, decide_eq_true_eq] at hfound
  refine .begun _ offers ?_ ?_ rfl rfl
  · intro other hother heq
    exact hfresh (List.any_eq_true.mpr ⟨other, hother, decide_eq_true heq⟩)
  · show sessionId ∈ _
    rw [← hfound.1]
    exact List.mem_map_of_mem (List.mem_of_find?_eq_some hsession)

theorem countOffer_effect {s : SlotSystem}
    (hclaim : claim ∈ s.claims) (offers : List ProcessorCapacityOffer) :
    SlotEffect externals config s action (countOffer s claim offers) := by
  cases offers with
  | nil => exact .dropped action claim.sessionId
  | cons offer offers =>
    rw [countOffer]
    split
    · exact .dropped action claim.sessionId
    split
    · exact .dropped action claim.sessionId
    rename_i processor hprocessor
    split
    · exact .dropped action claim.sessionId
    split
    · exact .passed offers hclaim
    dsimp only
    split
    · exact .full offers hclaim
    · next hroom =>
      exact .counted processor offers hclaim (List.mem_of_find?_eq_some hprocessor)
        (not_le.mp hroom)

theorem selectCandidate_effect {locked : List Uuid} (hclaim : claim ∈ s.claims)
    (hstage : claim.stage = .selecting processor offers)
    (h : selectCandidate s claim locked processor offers = some t) :
    SlotEffect externals config s action t := by
  unfold selectCandidate at h
  split at h
  · split at h
    · cases h
      exact .passed offers hclaim
    · next job blob hcandidate =>
      cases h
      exact .held hclaim hstage hcandidate
  · cases h

theorem commitClaim_effect {job : JobRow} {blob : BlobRow} (hclaim : claim ∈ s.claims)
    (hstage : claim.stage = .holding processor job blob)
    (h : commitClaim config externals.sha256 s claim processor job blob = some t) :
    SlotEffect externals config s action t := by
  rcases Option.bind_eq_some_iff.mp h with ⟨system, hcommitted, hafter⟩
  rcases SlotSystem.after_some hafter with ⟨hkept, rfl⟩
  refine .committed hclaim hstage ?_ hkept
  rw [committed_db hcommitted]
  exact claimJob_writes claim processor job blob s.system.db

theorem afterTables_effect {db : Database}
    (hchange : SessionsChange s.system.db db) (h : s.afterTables db = some t) :
    SlotEffect externals config s action t := by
  rw [(SlotSystem.after_some h).2]
  exact .sessions hchange

theorem slotStep_effect
    (h : SlotStep externals config s action t) : SlotEffect externals config s action t := by
  cases action with
  | call action =>
    simp only [SlotStep, slotStep] at h
    split at h
    · cases h
    rename_i hstaged
    rcases Option.bind_eq_some_iff.mp h with ⟨system, hstep, hafter⟩
    rcases SlotSystem.after_some hafter with ⟨hkept, rfl⟩
    exact .called (by simpa using hstaged) hstep hkept
  | registerSession worker workerInstance processors sessionLease id now =>
    exact afterTables_effect (registerSession_change worker workerInstance processors sessionLease
      id s.system.db now) h
  | heartbeatSession worker sessionId reports sessionLease now =>
    exact afterTables_effect (heartbeatSession_change worker sessionId reports sessionLease
      s.system.db now) h
  | drainSession worker sessionId =>
    exact afterTables_effect (drainSession_change worker sessionId s.system.db) h
  | beginClaim worker draw sessionId offers now => exact beginClaim_effect h
  | countOffer sessionId =>
    simp only [SlotStep, slotStep] at h
    split at h
    · next claim hclaim =>
      split at h
      · cases h
        exact countOffer_effect (SlotSystem.claim?_some hclaim).1 _
      · cases h
    · cases h
  | selectCandidate sessionId locked =>
    simp only [SlotStep, slotStep] at h
    split at h
    · next claim hclaim =>
      split at h
      · next hstage => exact selectCandidate_effect (SlotSystem.claim?_some hclaim).1 hstage h
      · cases h
    · cases h
  | commitClaim sessionId =>
    simp only [SlotStep, slotStep] at h
    split at h
    · next claim hclaim =>
      split at h
      · next hstage => exact commitClaim_effect (SlotSystem.claim?_some hclaim).1 hstage h
      · cases h
    · cases h
  | abortClaim sessionId =>
    cases h
    exact .dropped _ sessionId

end Toss.Processing
