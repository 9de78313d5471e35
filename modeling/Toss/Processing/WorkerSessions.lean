import Toss.Processing.System

/-!
# Worker sessions and their acquisitions

The calls on sessions, and `try_claim` statement by statement: it holds its session's row from its
first statement to its commit, counts the running claims of an offer in one statement, takes a
candidate's row in another, and writes the claim in those after. Heartbeats, completions, failures
and ticks of the lifecycle run in between; they take no row of the session.

* `registerSession`, `heartbeatSession`, `drainSession`;
* `PendingClaim`, `SlotSystem` — the acquisitions under way, over the tables they share;
* `slotStep` — one statement of an acquisition, or a whole call of another kind.
-/

namespace Toss.Processing

open Toss.Foundation
open Toss.Workspace (trim)

/-! ## Sessions -/

inductive WorkerSessionError
  | invalid
  | notFound
  | draining
  | expired
  | persistence
deriving DecidableEq, Repr

structure WorkerProcessorAdvertisement where
  operation : ProcessingOperation
  processorContract : Text
  runtimeVersion : Text
  slots : Int
deriving DecidableEq, Repr

def maxProcessorsPerSession : Nat := 16

def maxWorkerSlots : Int := 64

/-- An advertisement that `register_session` takes. -/
def WorkerProcessorAdvertisement.isValid (worker : AuthenticatedWorker)
    (processor : WorkerProcessorAdvertisement) : Bool :=
  decide (0 < processor.slots) && decide (processor.slots ≤ maxWorkerSlots)
    && !(trim processor.runtimeVersion).isEmpty && decide (utf8Len processor.runtimeVersion ≤ 256)
    && worker.approves processor.operation processor.processorContract

def WorkerProcessorAdvertisement.row (sessionId : Uuid) (processor : WorkerProcessorAdvertisement) :
    ProcessorRow :=
  ⟨sessionId, processor.operation, processor.processorContract, processor.slots, true⟩

/-- `register_session`, with the primary key of sessions. -/
def registerSession (worker : AuthenticatedWorker) (workerInstance : Text)
    (processors : List WorkerProcessorAdvertisement) (sessionLease : Int) (id : Uuid)
    (db : Database) (now : Timestamp) : Except WorkerSessionError Uuid × Database :=
  if (trim workerInstance).isEmpty || decide (128 < utf8Len workerInstance) || processors.isEmpty
      || decide (maxProcessorsPerSession < processors.length) then (.error .invalid, db)
  else if !processors.all (WorkerProcessorAdvertisement.isValid worker)
      || !decide (processors.map fun processor =>
        (processor.operation, processor.processorContract)).Nodup then (.error .invalid, db)
  else if db.sessions.any fun session => session.id = id then (.error .persistence, db)
  else
    (.ok id, { db with
      sessions := db.sessions ++ [⟨id, worker.identity, .active, now + sessionLease⟩]
      processors := db.processors ++ processors.map (WorkerProcessorAdvertisement.row id) })

/-- The processors of a session as a heartbeat reports them, one update each. -/
def reportHealth (sessionId : Uuid) :
    List ProcessorRow → List (ProcessingOperation × Text × Bool) → Option (List ProcessorRow)
  | rows, [] => some rows
  | rows, (operation, processorContract, healthy) :: reports =>
    let cond (row : ProcessorRow) : Bool :=
      row.sessionId = sessionId && row.operation = operation
        && row.processorContract = processorContract
    if rows.countP cond = 1 then
      reportHealth sessionId (updateWhere cond (fun row => { row with healthy := healthy }) rows)
        reports
    else none

/-- `heartbeat_session`. -/
def heartbeatSession (worker : AuthenticatedWorker) (sessionId : Uuid)
    (reports : List (ProcessingOperation × Text × Bool)) (sessionLease : Int) (db : Database)
    (now : Timestamp) : Except WorkerSessionError Timestamp × Database :=
  match db.sessions.find? fun session =>
    session.id = sessionId && session.workerIdentity = worker.identity with
  | none => (.error .notFound, db)
  | some session =>
    if session.state = .draining then (.error .draining, db)
    else if session.state ≠ .active ∨ session.expiresAt ≤ now then
      (.error .expired, { db with
        sessions := updateWhere (fun row => row.id = sessionId)
          (fun row => { row with state := .expired }) db.sessions })
    else if (db.processors.countP fun row => row.sessionId = sessionId) ≠ reports.length
        ∨ ¬(reports.map fun report => (report.1, report.2.1)).Nodup then (.error .invalid, db)
    else
      match reportHealth sessionId db.processors reports with
      | none => (.error .invalid, db)
      | some processors =>
        (.ok (now + sessionLease), { db with
          sessions := updateWhere (fun row => row.id = sessionId)
            (fun row => { row with expiresAt := now + sessionLease }) db.sessions
          processors := processors })

/-- `drain_session`. -/
def drainSession (worker : AuthenticatedWorker) (sessionId : Uuid) (db : Database) :
    Except WorkerSessionError Unit × Database :=
  let cond (row : SessionRow) : Bool :=
    row.id = sessionId && row.workerIdentity = worker.identity
      && (row.state = .active || row.state = .draining)
  if db.sessions.any cond then
    (.ok (), { db with
      sessions := updateWhere cond (fun row => { row with state := .draining }) db.sessions })
  else (.error .notFound, db)

/-! ## Acquisitions -/

/-- The statement that an acquisition carries out next. -/
inductive ClaimStage
  | counting (offers : List ProcessorCapacityOffer)
  | selecting (processor : ProcessorRow) (offers : List ProcessorCapacityOffer)
  | holding (processor : ProcessorRow) (job : JobRow) (blob : BlobRow)
deriving DecidableEq, Repr

/-- A call of `try_claim` that holds its session's row, with the processors it has read. -/
structure PendingClaim where
  worker : AuthenticatedWorker
  sessionId : Uuid
  draw : ClaimDraw
  now : Timestamp
  processors : List ProcessorRow
  stage : ClaimStage

/-- The job whose row an acquisition holds. -/
def PendingClaim.heldJob (claim : PendingClaim) : Option Uuid :=
  match claim.stage with
  | .holding _ job _ => some job.id
  | .counting _ | .selecting _ _ => none

/-- The system with the acquisitions under way. The clock values that claims of a session were
counted at are kept for statements about runs. -/
structure SlotSystem where
  system : System := {}
  claims : List PendingClaim := []
  counted : List (Uuid × Timestamp) := []

namespace SlotSystem

def claim? (s : SlotSystem) (sessionId : Uuid) : Option PendingClaim :=
  s.claims.find? fun claim => claim.sessionId = sessionId

def dropClaim (s : SlotSystem) (sessionId : Uuid) : SlotSystem :=
  { s with claims := s.claims.filter fun claim => claim.sessionId ≠ sessionId }

def setStage (s : SlotSystem) (claim : PendingClaim) (stage : ClaimStage) : SlotSystem :=
  { s with claims := { claim with stage := stage } :: (s.dropClaim claim.sessionId).claims }

/-- The rows that acquisitions hold are as they were. -/
def keepsClaims (s : SlotSystem) (db : Database) : Bool :=
  s.claims.all fun claim =>
    decide ((db.sessions.find? fun row => row.id = claim.sessionId)
      = s.system.db.sessions.find? fun row => row.id = claim.sessionId)
    && claim.heldJob.all fun id => decide (db.job? id = s.system.db.job? id)

/-- What another call leaves; it waits for the rows that acquisitions hold. -/
def after (s : SlotSystem) (system : System) : Option SlotSystem :=
  if s.keepsClaims system.db then some { s with system := system } else none

/-- What a call on sessions leaves. -/
def afterTables (s : SlotSystem) (db : Database) : Option SlotSystem :=
  s.after { s.system with db := db }

end SlotSystem

inductive SlotAction
  | call (action : Action)
  | registerSession (worker : AuthenticatedWorker) (workerInstance : Text)
      (processors : List WorkerProcessorAdvertisement) (sessionLease : Int) (id : Uuid)
      (now : Timestamp)
  | heartbeatSession (worker : AuthenticatedWorker) (sessionId : Uuid)
      (reports : List (ProcessingOperation × Text × Bool)) (sessionLease : Int) (now : Timestamp)
  | drainSession (worker : AuthenticatedWorker) (sessionId : Uuid)
  | beginClaim (worker : AuthenticatedWorker) (draw : ClaimDraw) (sessionId : Uuid)
      (offers : List ProcessorCapacityOffer) (now : Timestamp)
  | countOffer (sessionId : Uuid)
  | selectCandidate (sessionId : Uuid) (locked : List Uuid)
  | commitClaim (sessionId : Uuid)
  | abortClaim (sessionId : Uuid)

/-- The calls that are steps of their own here. -/
def Action.isStaged : Action → Bool
  | .tryClaim .. | .setWorkers .. => true
  | _ => false

/-- The first two statements: the session's row and its processors. -/
def beginClaim (s : SlotSystem) (worker : AuthenticatedWorker) (draw : ClaimDraw)
    (sessionId : Uuid) (offers : List ProcessorCapacityOffer) (now : Timestamp) :
    Option SlotSystem :=
  if s.claims.any fun claim => claim.sessionId = sessionId then none
  else
    match s.system.db.sessions.find? fun session =>
      session.id = sessionId && session.workerIdentity = worker.identity with
    | none => some s
    | some session =>
      if session.state ≠ .active ∨ session.expiresAt ≤ now then some s
      else
        some { s with
          claims := ⟨worker, sessionId, draw, now,
            s.system.db.processors.filter fun processor => processor.sessionId = sessionId,
            .counting offers⟩ :: s.claims }

/-- The next offer: an invalid one ends the call, and one without room is passed over. -/
def countOffer (s : SlotSystem) (claim : PendingClaim) : List ProcessorCapacityOffer → SlotSystem
  | [] => s.dropClaim claim.sessionId
  | offer :: offers =>
    if claim.worker.approves offer.operation offer.processorContract = false then
      s.dropClaim claim.sessionId
    else
      match claim.processors.find? fun processor =>
        processor.operation = offer.operation
          && processor.processorContract = offer.processorContract with
      | none => s.dropClaim claim.sessionId
      | some processor =>
        if offer.slots ≤ 0 ∨ processor.slots < offer.slots then s.dropClaim claim.sessionId
        else if processor.healthy = false then s.setStage claim (.counting offers)
        else
          let s := { s with counted := (claim.sessionId, claim.now) :: s.counted }
          if processor.slots ≤ activeClaims s.system.db claim.sessionId processor claim.now then
            s.setStage claim (.counting offers)
          else s.setStage claim (.selecting processor offers)

/-- The candidate of an offer with room; rows that others hold are skipped. -/
def selectCandidate (s : SlotSystem) (claim : PendingClaim) (locked : List Uuid)
    (processor : ProcessorRow) (offers : List ProcessorCapacityOffer) : Option SlotSystem :=
  if s.claims.all fun other => other.heldJob.all locked.contains then
    match claimCandidate s.system.db locked processor.operation claim.now with
    | none => some (s.setStage claim (.counting offers))
    | some (job, blob) => some (s.setStage claim (.holding processor job blob))
  else none

/-- The writes for the candidate, and the commit. -/
def commitClaim (config : ProcessingConfig) (sha256 : Bytes → Bytes) (s : SlotSystem)
    (claim : PendingClaim) (processor : ProcessorRow) (job : JobRow) (blob : BlobRow) :
    Option SlotSystem :=
  let db := (claimJob config sha256 claim.draw s.system.db claim.sessionId
    processor.processorContract claim.now job blob).2
  (s.system.committed db).bind (s.dropClaim claim.sessionId).after

def slotStep (externals : Externals) (config : ProcessingConfig) (s : SlotSystem) :
    SlotAction → Option SlotSystem
  | .call action =>
    if action.isStaged then none
    else (step externals config s.system action).bind s.after
  | .registerSession worker workerInstance processors sessionLease id now =>
    s.afterTables (registerSession worker workerInstance processors sessionLease id s.system.db
      now).2
  | .heartbeatSession worker sessionId reports sessionLease now =>
    s.afterTables (heartbeatSession worker sessionId reports sessionLease s.system.db now).2
  | .drainSession worker sessionId =>
    s.afterTables (drainSession worker sessionId s.system.db).2
  | .beginClaim worker draw sessionId offers now => beginClaim s worker draw sessionId offers now
  | .countOffer sessionId =>
    match s.claim? sessionId with
    | some claim =>
      match claim.stage with
      | .counting offers => some (countOffer s claim offers)
      | _ => none
    | none => none
  | .selectCandidate sessionId locked =>
    match s.claim? sessionId with
    | some claim =>
      match claim.stage with
      | .selecting processor offers => selectCandidate s claim locked processor offers
      | _ => none
    | none => none
  | .commitClaim sessionId =>
    match s.claim? sessionId with
    | some claim =>
      match claim.stage with
      | .holding processor job blob => commitClaim config externals.sha256 s claim processor job blob
      | _ => none
    | none => none
  | .abortClaim sessionId => some (s.dropClaim sessionId)

abbrev SlotStep (externals : Externals) (config : ProcessingConfig) (s : SlotSystem)
    (action : SlotAction) (t : SlotSystem) : Prop :=
  slotStep externals config s action = some t

end Toss.Processing
