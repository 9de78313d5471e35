import Mathlib.Data.Nat.Log
import Toss.Basic

/-!
# Document-processing jobs: values and contracts

`model.rs`, `operation_contract.rs` and the parts of `config.rs` and
`worker_protocol.rs` that the job state machine reads.

Clock values and durations are microseconds; every call brings its own clock
value, and nothing is assumed about how they are ordered.
-/

namespace Toss.Processing

abbrev Timestamp := Int

/-- `Duration::seconds`. -/
def seconds (count : Int) : Int :=
  count * 1000000

/-- `i32::MAX`. -/
def i32Max : Nat := 2147483647

/-- `processing_retry_delay`: `1 << min(attempt_count - 1, 5)` seconds, thirty at
most. -/
def processingRetryDelay (attemptCount : Nat) : Int :=
  seconds (min (2 ^ min (attemptCount - 1) 5) 30)

inductive ProcessingOperation
  | latexCompilePdfV1
  | typstExportPptxV1
  | pptxImportTypstV1
deriving DecidableEq, Repr

inductive ProcessingJobState
  | preparing
  | queued
  | running
  | finalizing
  | succeeded
  | failed
  | cancelled
  | expired
deriving DecidableEq, Repr

namespace ProcessingJobState

def isTerminal : ProcessingJobState → Bool
  | succeeded | failed | cancelled | expired => true
  | preparing | queued | running | finalizing => false

/-- `state = any(array['preparing', 'queued', 'running', 'finalizing'])`. -/
def isActive : ProcessingJobState → Bool
  | preparing | queued | running | finalizing => true
  | succeeded | failed | cancelled | expired => false

theorem isActive_eq_not_isTerminal (state : ProcessingJobState) :
    state.isActive = !state.isTerminal := by
  cases state <;> rfl

end ProcessingJobState

inductive ProcessingPhase
  | capturingInput
  | waitingForWorker
  | processing
  | uploadingResult
  | validatingResult
  | publishingResult
  | complete
deriving DecidableEq, Repr

inductive WorkerFailureClass
  | invalidInput
  | processorRejected
  | unsupportedDependency
  | resourceLimit
  | transientInfrastructure
  | workerInterrupted
  | internalContractViolation
deriving DecidableEq, Repr

namespace WorkerFailureClass

def retryable : WorkerFailureClass → Bool
  | transientInfrastructure | workerInterrupted => true
  | _ => false

def asRef : WorkerFailureClass → Text
  | invalidInput => "invalid_input".toList
  | processorRejected => "processor_rejected".toList
  | unsupportedDependency => "unsupported_dependency".toList
  | resourceLimit => "resource_limit".toList
  | transientInfrastructure => "transient_infrastructure".toList
  | workerInterrupted => "worker_interrupted".toList
  | internalContractViolation => "internal_contract_violation".toList

end WorkerFailureClass

/-! ## Operation contracts -/

inductive ArtifactSizeClass
  | output
  | diagnostic
deriving DecidableEq, Repr

structure ArtifactContract where
  role : Text
  mediaType : Text
  filenameSuffix : Text
  sizeClass : ArtifactSizeClass
  required : Bool
deriving DecidableEq, Repr

inductive FinalizationKind
  | pdfArtifacts
  | pptxArtifacts
  | typstWorkspace
deriving DecidableEq, Repr

structure OperationContract where
  inputSchema : Text
  inputMediaType : Text
  artifacts : List ArtifactContract
  finalization : FinalizationKind

def pptxMediaType : Text :=
  "application/vnd.openxmlformats-officedocument.presentationml.presentation".toList

def projectBundleMediaType : Text :=
  "application/vnd.toss.project-bundle+zip".toList

def typstProjectBundleMediaType : Text :=
  "application/vnd.toss.typst-project-bundle+zip".toList

def workspaceBundleMediaType : Text :=
  "application/vnd.toss.workspace-bundle+zip".toList

def latexArtifacts : List ArtifactContract :=
  [{ role := "pdf".toList
     mediaType := "application/pdf".toList
     filenameSuffix := ".pdf".toList
     sizeClass := .output
     required := true },
   { role := "log".toList
     mediaType := "text/plain".toList
     filenameSuffix := ".log".toList
     sizeClass := .diagnostic
     required := false }]

/-- The report that both PPTX operations deliver beside their result. -/
def reportArtifact : ArtifactContract where
  role := "report".toList
  mediaType := "application/json".toList
  filenameSuffix := ".json".toList
  sizeClass := .diagnostic
  required := true

def pptxExportArtifacts : List ArtifactContract :=
  [{ role := "pptx".toList
     mediaType := pptxMediaType
     filenameSuffix := ".pptx".toList
     sizeClass := .output
     required := true },
   reportArtifact]

def pptxImportArtifacts : List ArtifactContract :=
  [{ role := "workspace".toList
     mediaType := workspaceBundleMediaType
     filenameSuffix := ".zip".toList
     sizeClass := .output
     required := true },
   reportArtifact]

def ProcessingOperation.contract : ProcessingOperation → OperationContract
  | latexCompilePdfV1 =>
    { inputSchema := "project-bundle/v1".toList
      inputMediaType := projectBundleMediaType
      artifacts := latexArtifacts
      finalization := .pdfArtifacts }
  | typstExportPptxV1 =>
    { inputSchema := "typst-project-bundle/v1".toList
      inputMediaType := typstProjectBundleMediaType
      artifacts := pptxExportArtifacts
      finalization := .pptxArtifacts }
  | pptxImportTypstV1 =>
    { inputSchema := "pptx-input/v1".toList
      inputMediaType := pptxMediaType
      artifacts := pptxImportArtifacts
      finalization := .typstWorkspace }

/-- `OperationContract::artifact`. -/
def OperationContract.artifact (contract : OperationContract) (role : Text) :
    Option ArtifactContract :=
  contract.artifacts.find? fun artifact => artifact.role = role

/-! ## Resource policy and workers -/

/-- `ProcessingConfig`: `from_config` refuses a limit, lease or lifetime that is
not positive. -/
structure ProcessingConfig where
  maxQueuedJobs : Nat
  maxActiveJobsPerUser : Nat
  maxActiveJobsPerProject : Nat
  maxOutputBytes : Int
  maxDiagnosticBytes : Int
  jobWallSeconds : Int
  queueWait : Int
  retention : Int
  claimLease : Int
  transferTtl : Int
  finalizationLease : Int
  maxQueuedJobs_pos : 0 < maxQueuedJobs
  maxActiveJobsPerUser_pos : 0 < maxActiveJobsPerUser
  maxActiveJobsPerProject_pos : 0 < maxActiveJobsPerProject
  maxOutputBytes_pos : 0 < maxOutputBytes
  maxDiagnosticBytes_pos : 0 < maxDiagnosticBytes
  jobWallSeconds_pos : 0 < jobWallSeconds
  queueWait_pos : 0 < queueWait
  retention_pos : 0 < retention
  claimLease_pos : 0 < claimLease
  transferTtl_pos : 0 < transferTtl
  finalizationLease_pos : 0 < finalizationLease

/-- `ProcessingConfigFile::default`, read by `from_config`. -/
def ProcessingConfig.default : ProcessingConfig where
  maxQueuedJobs := 100
  maxActiveJobsPerUser := 4
  maxActiveJobsPerProject := 2
  maxOutputBytes := 64 * 1024 * 1024
  maxDiagnosticBytes := 64 * 1024
  jobWallSeconds := 300
  queueWait := seconds (24 * 60 * 60)
  retention := seconds (7 * 24 * 60 * 60)
  claimLease := seconds 45
  transferTtl := seconds 300
  finalizationLease := seconds 60
  maxQueuedJobs_pos := by decide
  maxActiveJobsPerUser_pos := by decide
  maxActiveJobsPerProject_pos := by decide
  maxOutputBytes_pos := by decide
  maxDiagnosticBytes_pos := by decide
  jobWallSeconds_pos := by decide
  queueWait_pos := by decide
  retention_pos := by decide
  claimLease_pos := by decide
  transferTtl_pos := by decide
  finalizationLease_pos := by decide

structure WorkerClaimLimits where
  wallSeconds : Int
  outputBytes : Int
  diagnosticBytes : Int
deriving DecidableEq, Repr

/-- The limits a claim is handed out with. -/
def ProcessingConfig.claimLimits (config : ProcessingConfig) : WorkerClaimLimits where
  wallSeconds := config.jobWallSeconds
  outputBytes := config.maxOutputBytes
  diagnosticBytes := config.maxDiagnosticBytes

/-- The size an artifact of a class may have. -/
def ProcessingConfig.artifactLimit (config : ProcessingConfig) : ArtifactSizeClass → Int
  | .output => config.maxOutputBytes
  | .diagnostic => config.maxDiagnosticBytes

structure AuthenticatedWorker where
  identity : Text
  operations : List (ProcessingOperation × List Text)

def AuthenticatedWorker.approves (worker : AuthenticatedWorker) (operation : ProcessingOperation)
    (processorContract : Text) : Bool :=
  match worker.operations.find? fun entry => entry.1 = operation with
  | some entry => entry.2.contains processorContract
  | none => false

/-! ## Digests on the wire -/

def hexDigit (c : Char) : Option UInt8 :=
  if '0' ≤ c ∧ c ≤ '9' then some (c.toNat - '0'.toNat).toUInt8
  else if 'a' ≤ c ∧ c ≤ 'f' then some (c.toNat - 'a'.toNat + 10).toUInt8
  else if 'A' ≤ c ∧ c ≤ 'F' then some (c.toNat - 'A'.toNat + 10).toUInt8
  else none

/-- `hex::decode`. -/
def hexDecode : Text → Option Bytes
  | [] => some []
  | [_] => none
  | high :: low :: rest => do
    let high ← hexDigit high
    let low ← hexDigit low
    let bytes ← hexDecode rest
    return (high * 16 + low) :: bytes

/-- A digit of `hex::encode`. -/
def hexChar (digit : UInt8) : Char :=
  if digit < 10 then Char.ofNat (digit.toNat + '0'.toNat)
  else Char.ofNat (digit.toNat - 10 + 'a'.toNat)

/-- `hex::encode`. -/
def hexEncode (bytes : Bytes) : Text :=
  bytes.flatMap fun byte => [hexChar (byte / 16), hexChar (byte % 16)]

end Toss.Processing
