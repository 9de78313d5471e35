import Toss.Foundation.Run
import Toss.Processing.Finalization
import Toss.Processing.Lifecycle

/-!
# Document processing as one system

The calls of requesters, workers and finalizers and the ticks of the lifecycle,
in any order and at any clock values, over the tables they share.

* `System` — the tables with the calls that are under way;
* `System.keepsHeld` — a transaction waits for the rows that another one holds;
* `step` — one statement, transaction or stage of a call.

A call that is one transaction is one step. Three are more: an admission holds
the advisory lock over its statements, an upload holds its transfer between its
check and its writes, and a finalizer holds no row until it takes its job's.
-/

namespace Toss.Processing

open Toss.Foundation

/-- A call of `reserve_job` that holds the admission lock. -/
structure Admission where
  command : ReserveJob
  stage : ReserveStage
deriving DecidableEq, Repr

/-- What a call of `reserve_job` was answered. -/
structure ReserveAnswer where
  command : ReserveJob
  reply : Except ReserveJobError ReserveJobOutcome
deriving Repr

/-- How far a finalizer has come with the job it leased. -/
inductive FinalizerStage
  | leased (lease : FinalizationLease)
  | loaded (lease : FinalizationLease) (staged : List StagedArtifact)
  | rejecting (lease : FinalizationLease) (failure : ValidationFailure)
  | validated (lease : FinalizationLease) (staged : List StagedArtifact)
      (graph : Option ProjectGraph)
  | locked (lease : FinalizationLease) (staged : List StagedArtifact)
      (graph : Option ProjectGraph) (now : Timestamp)
  | written (publication : Publication)
deriving DecidableEq, Repr

namespace FinalizerStage

def lease : FinalizerStage → FinalizationLease
  | leased lease => lease
  | loaded lease _ => lease
  | rejecting lease _ => lease
  | validated lease _ _ => lease
  | locked lease _ _ _ => lease
  | written publication => publication.lease

/-- The transaction of the stage holds its job's row. -/
def holdsRow : FinalizerStage → Bool
  | locked .. | written _ => true
  | leased _ | loaded .. | rejecting .. | validated .. => false

def graph : FinalizerStage → Option ProjectGraph
  | validated _ _ graph => graph
  | locked _ _ graph _ => graph
  | written publication => publication.graph
  | leased _ | loaded .. | rejecting .. => none

end FinalizerStage

/-- The tables and the calls under way. The identifiers drawn for jobs and the
publications committed so far are kept for statements about runs; no statement
of the source reads them. -/
structure System where
  db : Database := {}
  admission : Option Admission := none
  answers : List ReserveAnswer := []
  uploads : List PendingUpload := []
  finalizers : List (Nat × FinalizerStage) := []
  jobIds : List Uuid := []
  published : List Publication := []
deriving Repr

namespace System

def finalizer? (s : System) (finalizer : Nat) : Option FinalizerStage :=
  (s.finalizers.find? fun entry => entry.1 = finalizer).map Prod.snd

/-- A finalizer that has nothing under way any more. -/
def dropFinalizer (s : System) (finalizer : Nat) : System :=
  { s with finalizers := s.finalizers.filter fun entry => entry.1 ≠ finalizer }

def setFinalizer (s : System) (finalizer : Nat) (stage : FinalizerStage) : System :=
  { s with finalizers := (finalizer, stage) :: (s.dropFinalizer finalizer).finalizers }

def dropUpload (s : System) (transferId : Uuid) : System :=
  { s with uploads := s.uploads.filter fun upload => upload.transferId ≠ transferId }

/-- The rows that uploads and publications hold are as they were. -/
def keepsHeld (s : System) (db : Database) : Bool :=
  (s.uploads.all fun upload =>
    (db.transfers.find? fun row => row.id = upload.transferId)
      = s.db.transfers.find? fun row => row.id = upload.transferId)
  && s.finalizers.all fun entry =>
    !entry.2.holdsRow || decide (db.job? entry.2.lease.jobId = s.db.job? entry.2.lease.jobId)

/-- A transaction that leaves `db`; it waits for the rows that others hold. -/
def committed (s : System) (db : Database) : Option System :=
  if s.keepsHeld db then some { s with db := db } else none

def answer (s : System) (command : ReserveJob) (reply : Except ReserveJobError ReserveJobOutcome) :
    System :=
  { s with
    admission := none
    answers := s.answers ++ [⟨command, reply⟩] }

/-- A token that no job and no finalizer has, as `Uuid::new_v4()` draws it. -/
def isFreshToken (s : System) (token : Uuid) : Bool :=
  (s.db.jobs.all fun job => job.finalizationToken ≠ some token)
    && s.finalizers.all fun entry => entry.2.lease.token ≠ token

/-- A project identifier that no project, no finalizer and no publication has. -/
def isFreshProject (s : System) (projectId : Uuid) : Bool :=
  (s.db.projects.all fun project => project.id ≠ projectId)
    && (s.finalizers.all fun entry =>
      decide (∀ graph ∈ entry.2.graph, graph.projectId ≠ projectId))
    && s.published.all fun publication =>
      decide (∀ graph ∈ publication.graph, graph.projectId ≠ projectId)

end System

/-! ## Steps -/

inductive Action
  | reserveBegin (command : ReserveJob)
  | reserveNext
  | reserveAbort
  | pinProjectAssets (jobId : Uuid) (objectKeys : List Text)
  | releaseProjectAssetPins (jobId : Uuid)
  | storePreparedInput (jobId blobId : Uuid) (input : PreparedInput)
  | markPreparationFailed (jobId : Uuid) (code message : Text) (now : Timestamp)
  | cancelJob (userId jobId : Uuid) (now : Timestamp)
  | setWorkers (sessions : List SessionRow) (processors : List ProcessorRow)
  | tryClaim (worker : AuthenticatedWorker) (draw : ClaimDraw) (locked : List Uuid)
      (sessionId : Uuid) (offers : List ProcessorCapacityOffer) (now : Timestamp)
  | heartbeatClaim (worker : AuthenticatedWorker) (sessionId claimId : Uuid)
      (phase : ProcessingPhase) (now : Timestamp)
  | createArtifactTransfer (worker : AuthenticatedWorker) (id : Uuid) (token : Bytes)
      (request : ArtifactTransferRequest) (now : Timestamp)
  | downloadTransfer (transferId : Uuid) (token : Bytes) (now : Timestamp)
  | checkUpload (transferId : Uuid) (token content : Bytes) (now : Timestamp)
  | storeUpload (transferId blobId : Uuid)
  | abortUpload (transferId : Uuid)
  | completeClaim (worker : AuthenticatedWorker) (sessionId claimId : Uuid)
      (artifacts : List CompletedArtifactInput) (now : Timestamp)
  | mutateFailedClaim (worker : AuthenticatedWorker) (sessionId claimId : Uuid)
      (failure : Option ClaimFailure) (now : Timestamp)
  | maintainLifecycle (locked : List Uuid) (now : Timestamp)
  | acquireFinalizationLease (finalizer : Nat) (jobId token : Uuid) (now : Timestamp)
  | loadStagedArtifacts (finalizer : Nat)
  | validateFinalization (finalizer : Nat) (access : AccessCheck) (projectId : Uuid)
      (hasStorage : Bool) (assetIds : List Uuid)
  | rejectArtifacts (finalizer : Nat) (now : Timestamp)
  | lockFinalization (finalizer : Nat) (now : Timestamp)
  | writePublication (finalizer : Nat) (artifactIds : List Uuid)
  | commitPublication (finalizer : Nat)
  | stopFinalizer (finalizer : Nat)
  | deleteJobs (gone : List Uuid)
  | deleteProject (projectId : Uuid)

/-- One statement of the admission under way. -/
def reserveNext (config : ProcessingConfig) (s : System) : Option System :=
  match s.admission with
  | none => none
  | some admission =>
    match reserveStatement config s.db admission.command admission.stage with
    | .next stage => some { s with admission := some { admission with stage := stage } }
    | .answered reply db =>
      if s.keepsHeld db then some ({ s with db := db }.answer admission.command reply) else none

/-- The writes of an upload that passed its check, and its commit. -/
def finishUpload (s : System) (transferId blobId : Uuid) : Option System :=
  match s.uploads.find? fun upload => upload.transferId = transferId with
  | none => none
  | some upload => (s.dropUpload transferId).committed (storeUpload s.db blobId upload).2

/-- What a finalizer makes of its validated result: a publication, with the
project that a workspace becomes, or a rejection. Without an answer on the
requester's access it gives up. -/
def validated (externals : Externals) (config : ProcessingConfig) (s : System) (finalizer : Nat)
    (access : AccessCheck) (projectId : Uuid) (hasStorage : Bool) (assetIds : List Uuid)
    (lease : FinalizationLease) (staged : List StagedArtifact) : Option System :=
  match validateFinalization externals config access lease staged with
  | .ok .artifacts => some (s.setFinalizer finalizer (.validated lease staged none))
  | .ok (.workspace bundle projectName) =>
    if assetIds.length = bundle.assets.length then
      some (s.setFinalizer finalizer (.validated lease staged
        (some (projectGraph lease bundle projectName projectId hasStorage assetIds))))
    else none
  | .error (.rejected failure) => some (s.setFinalizer finalizer (.rejecting lease failure))
  | .error .unavailable => some (s.dropFinalizer finalizer)

/-- Deleting a project takes its jobs with it, and a job that made it keeps no
result. -/
def deleteProject (db : Database) (projectId : Uuid) : Database :=
  let db := deleteJobs db fun job => job.projectId = some projectId
  { db with
    jobs := updateWhere (fun job => job.resultProjectId = some projectId)
      (fun job => { job with resultProjectId := none }) db.jobs
    projects := db.projects.filter fun project => project.id ≠ projectId
    directories := db.directories.filter fun directory => directory.projectId ≠ projectId
    documents := db.documents.filter fun document => document.projectId ≠ projectId
    assets := db.assets.filter fun asset => asset.projectId ≠ projectId }

def step (externals : Externals) (config : ProcessingConfig) (s : System) : Action → Option System
  | .reserveBegin command =>
    if s.admission.isSome || s.jobIds.contains command.id then none
    else
      some { s with
        admission := some ⟨command, .find⟩
        jobIds := command.id :: s.jobIds }
  | .reserveNext => reserveNext config s
  | .reserveAbort =>
    s.admission.map fun admission => s.answer admission.command (.error .persistence)
  | .pinProjectAssets jobId objectKeys =>
    (pinProjectAssets s.db jobId objectKeys).bind s.committed
  | .releaseProjectAssetPins jobId => s.committed (s.db.deletePins jobId)
  | .storePreparedInput jobId blobId input =>
    s.committed (storePreparedInput s.db jobId blobId input).2
  | .markPreparationFailed jobId code message now =>
    s.committed (markPreparationFailed s.db jobId code message now)
  | .cancelJob userId jobId now => s.committed (cancelJob s.db userId jobId now).2
  | .setWorkers sessions processors =>
    some { s with db := { s.db with sessions := sessions, processors := processors } }
  | .tryClaim worker draw locked sessionId offers now =>
    s.committed (tryClaim config externals.sha256 worker draw locked s.db sessionId offers now).2
  | .heartbeatClaim worker sessionId claimId phase now =>
    s.committed (heartbeatClaim config worker s.db sessionId claimId phase now).2
  | .createArtifactTransfer worker id token request now =>
    s.committed (createArtifactTransfer config externals.sha256 worker id token s.db request now).2
  | .downloadTransfer transferId token now =>
    s.committed (downloadTransfer externals.sha256 s.db transferId token now).2
  | .checkUpload transferId token content now =>
    if s.uploads.any fun upload => upload.transferId = transferId then none
    else
      match checkUpload externals.sha256 s.db transferId token content now with
      | .error _ => some s
      | .ok upload => some { s with uploads := upload :: s.uploads }
  | .storeUpload transferId blobId => finishUpload s transferId blobId
  | .abortUpload transferId => some (s.dropUpload transferId)
  | .completeClaim worker sessionId claimId artifacts now =>
    s.committed (completeClaim worker s.db sessionId claimId artifacts now).2
  | .mutateFailedClaim worker sessionId claimId failure now =>
    s.committed (mutateFailedClaim worker s.db sessionId claimId failure now).2
  | .maintainLifecycle locked now => s.committed (maintainLifecycle locked s.db now)
  | .acquireFinalizationLease finalizer jobId token now =>
    if (s.finalizer? finalizer).isSome ∨ s.isFreshToken token = false then none
    else
      (acquireFinalizationLease config s.db jobId token now).bind fun acquired =>
        (s.committed acquired.2).map fun s => s.setFinalizer finalizer (.leased acquired.1)
  | .loadStagedArtifacts finalizer =>
    match s.finalizer? finalizer with
    | some (.leased lease) =>
      match loadStagedArtifacts s.db lease with
      | some staged => some (s.setFinalizer finalizer (.loaded lease staged))
      | none => some (s.dropFinalizer finalizer)
    | _ => none
  | .validateFinalization finalizer access projectId hasStorage assetIds =>
    match s.finalizer? finalizer with
    | some (.loaded lease staged) =>
      if s.isFreshProject projectId then
        validated externals config s finalizer access projectId hasStorage assetIds lease staged
      else none
    | _ => none
  | .rejectArtifacts finalizer now =>
    match s.finalizer? finalizer with
    | some (.rejecting lease failure) =>
      (s.dropFinalizer finalizer).committed (rejectArtifacts s.db lease failure now)
    | _ => none
  | .lockFinalization finalizer now =>
    match s.finalizer? finalizer with
    | some (.validated lease staged graph) =>
      if s.finalizers.any fun entry => entry.2.holdsRow && entry.2.lease.jobId = lease.jobId then
        none
      else if lockFinalization s.db lease now then
        some (s.setFinalizer finalizer (.locked lease staged graph now))
      else some (s.dropFinalizer finalizer)
    | _ => none
  | .writePublication finalizer artifactIds =>
    match s.finalizer? finalizer with
    | some (.locked lease staged graph now) =>
      if artifactIds.length ≠ staged.length then none
      else
        let publication : Publication := ⟨lease, staged, graph, artifactIds, now⟩
        match publish s.db publication with
        | some (_, true) => some (s.setFinalizer finalizer (.written publication))
        | _ => some (s.dropFinalizer finalizer)
    | _ => none
  | .commitPublication finalizer =>
    match s.finalizer? finalizer with
    | some (.written publication) =>
      match publish s.db publication with
      | some (db, _) =>
        { s.dropFinalizer finalizer with published := s.published ++ [publication] }.committed db
      | none => some (s.dropFinalizer finalizer)
    | _ => none
  | .stopFinalizer finalizer => some (s.dropFinalizer finalizer)
  | .deleteJobs gone => s.committed (deleteJobs s.db fun job => gone.contains job.id)
  | .deleteProject projectId => s.committed (deleteProject s.db projectId)

/-- A step of document processing. -/
abbrev Step (externals : Externals) (config : ProcessingConfig) (s : System) (action : Action)
    (t : System) : Prop :=
  step externals config s action = some t

/-! ## A run to evaluate -/

/-- Libraries that read no archive, with the content of a blob as its digest. -/
def sampleExternals : Externals where
  sha256 content := content
  openArchive _ := none
  parseManifest _ := none
  mimeEssence _ := none
  reportSchema _ := none
  validatePptx _ _ := false

def sampleWorker : AuthenticatedWorker where
  identity := ['w']
  operations := [(.latexCompilePdfV1, [['c']])]

def sampleCommand (id : Uuid) (key : Text) : ReserveJob where
  id := id
  operation := .latexCompilePdfV1
  requesterUserId := 7
  projectId := some 9
  idempotencyScope := ['s']
  idempotencyKey := key
  commandDigest := [1]
  normalizedOptions := ⟨none⟩
  optionsDigest := [2]
  now := 0

def sampleInput : PreparedInput where
  schema := ['p']
  mediaType := ['z']
  bytes := [3]
  digest := [3]
  normalizedOptions := ⟨none⟩
  optionsDigest := [2]

/-- A job is admitted, prepared and handed to a worker. -/
def sampleClaim (id : Uuid) (key : Text) (draw : ClaimDraw) : List Action :=
  [.reserveBegin (sampleCommand id key), .reserveNext, .reserveNext, .reserveNext, .reserveNext,
   .reserveNext, .storePreparedInput id 50 sampleInput,
   .setWorkers [⟨20, ['w'], .active, seconds 60⟩] [⟨20, .latexCompilePdfV1, ['c'], 2, true⟩],
   .tryClaim sampleWorker draw [] 20 [⟨.latexCompilePdfV1, ['c'], 1⟩] (seconds 1)]

/-- A document of the length of a digest, as its digest is its content. -/
def samplePdf : Bytes :=
  pdfHeader ++ List.replicate 22 0 ++ pdfTrailer

/-- The worker uploads its result and completes its claim. -/
def sampleDelivery : List Action :=
  sampleClaim 1 ['k'] ⟨30, 31, 32, []⟩ ++
  [.createArtifactTransfer sampleWorker 33 [9]
     ⟨20, 31, "pdf".toList, "application/pdf".toList, "out.pdf".toList, 32, samplePdf⟩ (seconds 2),
   .checkUpload 33 [9] samplePdf (seconds 3), .storeUpload 33 51,
   .completeClaim sampleWorker 20 31 [⟨33, "pdf".toList, 32, hexEncode samplePdf⟩] (seconds 4)]

example : ((exec (step sampleExternals .default) {} (sampleClaim 1 ['k'] ⟨30, 31, 32, []⟩)).map
    fun s => s.db.jobs.map fun job => (job.state, job.claimExpiresAt))
      = some [(.running, some (seconds 46))] := by
  decide +kernel

example : ((exec (step sampleExternals .default) {} sampleDelivery).map
    fun s => s.db.jobs.map JobRow.state) = some [.finalizing] := by
  decide +kernel

end Toss.Processing
