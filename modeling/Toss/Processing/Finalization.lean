import Toss.Processing.Jobs
import Toss.Processing.WorkspaceBundle

/-!
# Finalization

`finalization.rs`, after the lifecycle tick: a finalizer leases a job whose
result has been delivered, loads what was staged, validates it, and publishes or
rejects it.

* `acquireFinalizationLease`, `loadStagedArtifacts` — the lease and what it reads;
* `validateFinalization` — the check of a staged result against its contract;
* `lockFinalization`, `provisionProject`, `publish` — the publication, in the
  transaction that takes the job's row first;
* `rejectArtifacts`.
-/

namespace Toss.Processing

open Toss.Foundation Toss.Workspace

structure FinalizationLease where
  jobId : Uuid
  token : Uuid
  operation : ProcessingOperation
  requesterUserId : Uuid
  projectId : Option Uuid
  cacheSourceJobId : Option Uuid
  normalizedOptions : NormalizedOptions
deriving DecidableEq, Repr

structure StagedArtifact where
  transferId : Option Uuid
  blobId : Uuid
  role : Text
  mediaType : Text
  filename : Text
  sizeBytes : Int
  sha256 : Bytes
  content : Bytes
deriving DecidableEq, Repr

inductive ValidationFailure
  | accessRevoked
  | artifactSet
  | pdfInvalid
  | pptxInvalid
  | diagnosticInvalid
  | workspaceInvalid
deriving DecidableEq, Repr

namespace ValidationFailure

def failureClass : ValidationFailure → Text
  | accessRevoked => "authorization".toList
  | _ => "internal_contract_violation".toList

def code : ValidationFailure → Text
  | accessRevoked => "project_access_revoked".toList
  | artifactSet => "artifact_set_invalid".toList
  | pdfInvalid => "pdf_invalid".toList
  | pptxInvalid => "pptx_invalid".toList
  | diagnosticInvalid => "diagnostic_invalid".toList
  | workspaceInvalid => "workspace_bundle_invalid".toList

def message : ValidationFailure → Text
  | accessRevoked => "Project access was revoked before result publication".toList
  | artifactSet => "Processor output did not match the operation contract".toList
  | pdfInvalid => "Processor output was not a valid PDF artifact".toList
  | pptxInvalid => "Processor output was not a valid PPTX artifact".toList
  | diagnosticInvalid => "Processor diagnostic output was invalid".toList
  | workspaceInvalid => "Processor output was not a valid Workspace bundle".toList

end ValidationFailure

/-! ## The lease -/

/-- A job that a finalizer may take. -/
def JobRow.awaitsFinalizer (now : Timestamp) (job : JobRow) : Bool :=
  job.state = .finalizing
    && (job.finalizationToken = none
      || job.finalizationExpiresAt.any fun expiry => decide (expiry ≤ now))

def JobRow.leased (job : JobRow) (token : Uuid) (expiresAt : Timestamp) : JobRow :=
  { job with
    phase := .validatingResult
    finalizationToken := some token
    finalizationExpiresAt := some expiresAt }

def JobRow.lease (job : JobRow) (token : Uuid) : FinalizationLease where
  jobId := job.id
  token := token
  operation := job.operation
  requesterUserId := job.requesterUserId
  projectId := job.projectId
  cacheSourceJobId := job.cacheSourceJobId
  normalizedOptions := job.normalizedOptions

/-- `acquire_finalization_lease` of the job that the order of the query and the
rows held by others leave first. -/
def acquireFinalizationLease (config : ProcessingConfig) (db : Database) (jobId token : Uuid)
    (now : Timestamp) : Option (FinalizationLease × Database) :=
  match db.job? jobId with
  | none => none
  | some job =>
    if job.awaitsFinalizer now then
      some (job.lease token, db.updateJobs (fun row => row.id = jobId) fun row =>
        row.leased token (now + config.finalizationLease))
    else none

/-! ## The staged result -/

def sortStaged (staged : List StagedArtifact) : List StagedArtifact :=
  staged.insertionSort fun left right => pathLe left.role right.role = true

/-- The artifact of an earlier job as it is staged for one that takes it over. -/
def ArtifactRow.staged (artifact : ArtifactRow) (blob : BlobRow) : StagedArtifact where
  transferId := none
  blobId := artifact.blobId
  role := artifact.role
  mediaType := artifact.mediaType
  filename := artifact.filename
  sizeBytes := artifact.sizeBytes
  sha256 := artifact.sha256
  content := blob.content

/-- An uploaded transfer as it is staged; a column that is null fails the read. -/
def TransferRow.staged (transfer : TransferRow) (blob : BlobRow) : Option StagedArtifact := do
  let filename ← transfer.filename
  let sizeBytes ← transfer.exactSizeBytes
  let sha256 ← transfer.expectedSha256
  return {
    transferId := some transfer.id
    blobId := blob.id
    role := transfer.role
    mediaType := transfer.mediaType
    filename := filename
    sizeBytes := sizeBytes
    sha256 := sha256
    content := blob.content }

/-- A transfer of the delivered attempt that the staged result is read from. -/
def TransferRow.isStagedFor (attempt : AttemptRow) (transfer : TransferRow) : Bool :=
  transfer.attemptId = attempt.id && transfer.direction = .upload && transfer.state = .uploaded

/-- The attempt whose result a job is being finalized with. -/
def AttemptRow.isDeliveredOf (job : JobRow) (attempt : AttemptRow) : Bool :=
  attempt.jobId = job.id && attempt.attemptNumber = job.attemptCount && attempt.state = .delivered

/-- The transfers of the delivered attempt, each with its blob. -/
def stagedTransfers (db : Database) (job : JobRow) : List (TransferRow × BlobRow) :=
  (db.attempts.filter (AttemptRow.isDeliveredOf job)).flatMap fun attempt =>
    (db.transfers.filter (TransferRow.isStagedFor attempt)).filterMap fun transfer =>
      (transfer.blobId.bind db.blob?).map fun blob => (transfer, blob)

/-- `load_staged_artifacts`: nothing for a finalizer whose lease is lost. -/
def loadStagedArtifacts (db : Database) (lease : FinalizationLease) : Option (List StagedArtifact) :=
  match db.job? lease.jobId with
  | none => some []
  | some job =>
    if job.state ≠ .finalizing ∨ job.finalizationToken ≠ some lease.token then some []
    else
      match lease.cacheSourceJobId with
      | some sourceJobId =>
        if job.cacheSourceJobId = some sourceJobId ∧ (db.jobs.any fun source =>
            source.id = sourceJobId && source.state = .succeeded) = true then
          some (sortStaged ((db.artifacts.filter fun artifact => artifact.jobId = sourceJobId).filterMap
            fun artifact => (db.blob? artifact.blobId).map artifact.staged))
        else some []
      | none =>
        ((stagedTransfers db job).mapM fun entry : TransferRow × BlobRow =>
          entry.1.staged entry.2).map sortStaged

/-! ## Validation -/

def pdfHeader : Bytes := [0x25, 0x50, 0x44, 0x46, 0x2D]

def pdfTrailer : Bytes := [0x25, 0x25, 0x45, 0x4F, 0x46]

def pdfEofScanBytes : Nat := 1024

/-- `valid_pdf`. -/
def validPdf (content : Bytes) : Bool :=
  pdfHeader.isPrefixOf content && decide (8 ≤ content.length)
    && (content.drop (content.length - pdfEofScanBytes)).tails.any fun window =>
      pdfTrailer.isPrefixOf window

/-- What the check of the requester's access to the project comes to. -/
inductive AccessCheck
  | granted
  | denied
  | unavailable
deriving DecidableEq, Repr

inductive FinalizationCheckError
  | rejected (failure : ValidationFailure)
  | unavailable
deriving DecidableEq, Repr

/-- A name `ProjectName::parse` accepts, as it leaves it. -/
def parseProjectName (raw : Text) : Option Text :=
  let value := trim raw
  if value.isEmpty || 200 < value.length || value.any isControl then none else some value

inductive ValidatedFinalization
  | artifacts
  | workspace (bundle : ValidatedWorkspaceBundle) (projectName : Text)
deriving DecidableEq, Repr

/-- A staged artifact is what its operation's contract says of its role. -/
def StagedArtifact.isValid (config : ProcessingConfig) (sha256 : Bytes → Bytes)
    (contract : OperationContract) (artifact : StagedArtifact) : Bool :=
  match contract.artifact artifact.role with
  | none => false
  | some expected =>
    decide (artifact.sizeBytes = artifact.content.length)
      && artifact.sha256 = sha256 artifact.content && decide (0 < artifact.sizeBytes)
      && decide (artifact.sizeBytes ≤ config.artifactLimit expected.sizeClass)
      && artifact.mediaType = expected.mediaType
      && expected.filenameSuffix.isSuffixOf artifact.filename

/-- The staged set has the shape of its operation's contract. -/
def isArtifactSet (config : ProcessingConfig) (sha256 : Bytes → Bytes)
    (contract : OperationContract) (staged : List StagedArtifact) : Bool :=
  staged.all (StagedArtifact.isValid config sha256 contract)
    && decide (staged.map StagedArtifact.role).Nodup
    && contract.artifacts.all fun artifact =>
      !artifact.required || (staged.map StagedArtifact.role).contains artifact.role

def artifactOf (staged : List StagedArtifact) (role : Text) : Option StagedArtifact :=
  staged.find? fun artifact => artifact.role = role

/-- `validate_report`. -/
def validReport (externals : Externals) (staged : List StagedArtifact) (schema : Text) : Bool :=
  match artifactOf staged "report".toList with
  | none => false
  | some report => externals.reportSchema report.content = some schema

/-- The limit on what an archive may expand to. -/
def outputExpansionLimit (config : ProcessingConfig) : Nat :=
  min (config.maxOutputBytes.toNat * 4) 18446744073709551615

/-- The content of a staged set that has its contract's shape. -/
def validateContent (externals : Externals) (config : ProcessingConfig) (lease : FinalizationLease)
    (staged : List StagedArtifact) : Except ValidationFailure ValidatedFinalization :=
  match lease.operation.contract.finalization with
  | .pdfArtifacts =>
    if (artifactOf staged "pdf".toList).any (fun pdf => validPdf pdf.content) = false then
      .error .pdfInvalid
    else if (artifactOf staged "log".toList).any (fun log => (decodeUtf8 log.content).isNone) then
      .error .diagnosticInvalid
    else .ok .artifacts
  | .pptxArtifacts =>
    if (artifactOf staged "pptx".toList).any (fun pptx =>
        externals.validatePptx pptx.content (outputExpansionLimit config)) = false then
      .error .pptxInvalid
    else if validReport externals staged "pptx-export-report/v1".toList = false then
      .error .diagnosticInvalid
    else .ok .artifacts
  | .typstWorkspace =>
    match (artifactOf staged "workspace".toList).map fun workspace =>
        validateWorkspaceBundle externals workspace.content (outputExpansionLimit config) with
    | some (.ok bundle) =>
      if validReport externals staged "pptx-import-report/v1".toList = false then
        .error .diagnosticInvalid
      else
        match lease.normalizedOptions.projectName.bind parseProjectName with
        | none => .error .workspaceInvalid
        | some projectName => .ok (.workspace bundle projectName)
    | _ => .error .workspaceInvalid

/-- `validate_finalization`; a job without a project asks for no access. -/
def validateFinalization (externals : Externals) (config : ProcessingConfig) (access : AccessCheck)
    (lease : FinalizationLease) (staged : List StagedArtifact) :
    Except FinalizationCheckError ValidatedFinalization :=
  if lease.projectId.isSome ∧ access = .denied then .error (.rejected .accessRevoked)
  else if lease.projectId.isSome ∧ access = .unavailable then .error .unavailable
  else if isArtifactSet config externals.sha256 lease.operation.contract staged = false then
    .error (.rejected .artifactSet)
  else
    match validateContent externals config lease staged with
    | .error failure => .error (.rejected failure)
    | .ok validated => .ok validated

/-! ## Publication -/

/-- `lock_finalization`: the row of the job, if the lease still stands. -/
def lockFinalization (db : Database) (lease : FinalizationLease) (now : Timestamp) : Bool :=
  db.jobs.any fun job => job.id = lease.jobId && job.state = .finalizing
    && job.finalizationToken = some lease.token
    && job.finalizationExpiresAt.any fun expiry => decide (now < expiry)

/-- `CreateProjectGraph`, its assets staged. -/
structure ProjectGraph where
  projectId : Uuid
  ownerUserId : Uuid
  name : Text
  entryFilePath : Text
  directories : List Text
  documents : List WorkspaceDocument
  assets : List ResultAssetRow
deriving DecidableEq, Repr

/-- `stage_workspace_import_assets`: an asset under an identifier of its own; its
bytes go to object storage where there is one. -/
def stageAsset (projectId : Uuid) (hasStorage : Bool) (asset : WorkspaceBundleAsset) (id : Uuid) :
    ResultAssetRow where
  id := id
  projectId := projectId
  path := asset.path
  contentType := asset.mediaType
  sizeBytes := asset.bytes.length
  inlineData := if hasStorage then none else some asset.bytes

/-- The project a validated workspace becomes. -/
def projectGraph (lease : FinalizationLease) (bundle : ValidatedWorkspaceBundle)
    (projectName : Text) (projectId : Uuid) (hasStorage : Bool) (assetIds : List Uuid) :
    ProjectGraph where
  projectId := projectId
  ownerUserId := lease.requesterUserId
  name := projectName
  entryFilePath := bundle.entryFilePath
  directories := bundle.directories
  documents := bundle.documents
  assets := bundle.assets.zipWith (stageAsset projectId hasStorage) assetIds

/-- The rows that a project's graph is inserted as. -/
def ProjectGraph.insertInto (graph : ProjectGraph) (db : Database) : Database :=
  { db with
    projects := db.projects ++ [⟨graph.projectId, graph.ownerUserId, graph.name,
      graph.entryFilePath⟩]
    directories := db.directories ++ graph.directories.map (ResultDirectoryRow.mk graph.projectId)
    documents := db.documents ++ graph.documents.map fun document =>
      ⟨graph.projectId, document.path, document.content⟩
    assets := db.assets ++ graph.assets }

/-- The constraints on the rows of a graph: primary and unique keys, and text
that PostgreSQL can store. -/
def ProjectGraph.isInsertable (graph : ProjectGraph) (db : Database) : Bool :=
  (!db.projects.any fun project => project.id = graph.projectId)
    && isStorableText graph.name && isStorableText graph.entryFilePath
    && decide graph.directories.Nodup && graph.directories.all isStorableText
    && decide (graph.documents.map WorkspaceDocument.path).Nodup
    && (graph.documents.all fun document =>
      isStorableText document.path && isStorableText document.content)
    && decide (graph.assets.map ResultAssetRow.path).Nodup
    && decide (graph.assets.map ResultAssetRow.id).Nodup
    && graph.assets.all fun asset =>
      isStorableText asset.path && isStorableText asset.contentType
        && !db.assets.any fun row => row.id = asset.id

/-- `provision_project`, in the transaction of the publication. -/
def provisionProject (db : Database) (graph : ProjectGraph) : Option Database :=
  if graph.isInsertable db then some (graph.insertInto db) else none

def StagedArtifact.row (artifact : StagedArtifact) (jobId id : Uuid) : ArtifactRow where
  id := id
  jobId := jobId
  blobId := artifact.blobId
  role := artifact.role
  mediaType := artifact.mediaType
  filename := artifact.filename
  sizeBytes := artifact.sizeBytes
  sha256 := artifact.sha256

def TransferRow.consume (transfer : TransferRow) : TransferRow :=
  { transfer with state := .consumed }

/-- One artifact of `publish_staged_artifacts`: `on conflict (job_id, role) do
nothing`, and its transfer is consumed. -/
def publishArtifact (jobId : Uuid) (db : Database) (entry : StagedArtifact × Uuid) : Database :=
  let inserted :=
    if db.artifacts.any fun row => row.jobId = jobId && row.role = entry.1.role then db
    else { db with artifacts := db.artifacts ++ [entry.1.row jobId entry.2] }
  match entry.1.transferId with
  | none => inserted
  | some transferId => inserted.updateTransfers (fun row => row.id = transferId) TransferRow.consume

/-- `publish_staged_artifacts`, with an identifier for each artifact. -/
def publishStagedArtifacts (db : Database) (jobId : Uuid) (staged : List StagedArtifact)
    (ids : List Uuid) : Database :=
  (staged.zip ids).foldl (publishArtifact jobId) db

def JobRow.succeeded (job : JobRow) (resultProjectId : Option Uuid) (now : Timestamp) : JobRow :=
  { job with
    state := .succeeded
    phase := .complete
    resultProjectId := resultProjectId.orElse fun _ => job.resultProjectId
    finalizationToken := none
    finalizationExpiresAt := none
    completedAt := some now }

/-- `where id = $1 and state = 'finalizing' and finalization_token = $2`. -/
def FinalizationLease.owns (lease : FinalizationLease) (job : JobRow) : Bool :=
  job.id = lease.jobId && job.state = .finalizing && job.finalizationToken = some lease.token

/-- What a finalizer publishes: the staged result, and the project it becomes. -/
structure Publication where
  lease : FinalizationLease
  staged : List StagedArtifact
  graph : Option ProjectGraph
  artifactIds : List Uuid
  now : Timestamp
deriving DecidableEq, Repr

/-- The project of a publication, if its result becomes one. -/
def Publication.provision (publication : Publication) (db : Database) : Option Database :=
  match publication.graph with
  | none => some db
  | some graph => provisionProject db graph

/-- The rows of a publication, and whether its update of the job touches one;
`none` is a constraint that fails. -/
def publish (db : Database) (publication : Publication) : Option (Database × Bool) :=
  (publication.provision db).map fun provisioned =>
    let published := publishStagedArtifacts provisioned publication.lease.jobId publication.staged
      publication.artifactIds
    (published.updateJobs publication.lease.owns fun job =>
        job.succeeded (publication.graph.map ProjectGraph.projectId) publication.now,
      db.jobs.any publication.lease.owns)

/-- `reject_artifacts`. -/
def rejectArtifacts (db : Database) (lease : FinalizationLease) (failure : ValidationFailure)
    (now : Timestamp) : Database :=
  db.updateJobs
    (fun job => lease.owns job && job.finalizationExpiresAt.any fun expiry => decide (now < expiry))
    fun job => { job.ended .failed now
        (some (failure.failureClass, failure.code, failure.message)) with
      finalizationToken := none
      finalizationExpiresAt := none }

end Toss.Processing
