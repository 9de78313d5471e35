import Toss.Foundation.Entries
import Toss.Foundation.Run
import Toss.Web.WorkspaceTools

/-!
# The workspace port of the assistant

`createAiWorkspacePort` of `assistantWorkspacePort.ts`: tool calls that wait for digests, for a
compiler and for a review, while the workspace goes on. Between two waits a call runs alone.

* `Call`, `PortAction`, `step` — calls by what they wait for, and what can happen next;
* `PortInv` — what is known of the calls in flight and of the complete reads that are remembered;
* `full_write_follows_full_read` — a file is replaced only after a read of all of it.
-/

namespace Toss.Web.Assistant

open Toss.Foundation Toss.Workspace

/-! ## Verification -/

inductive Severity
  | error
  | warning
  | info
deriving DecidableEq, Repr

/-- A diagnostic of the compiler; a number that is no integer stands as none. -/
structure RawDiagnostic where
  severity : Severity
  message : JsString
  path : Option JsString
  line : Option Int
  column : Option Int
deriving DecidableEq, Repr

structure AiPatchCompileDiagnostic where
  severity : Severity
  message : JsString
  path : Option JsString
  line : Option Int
  column : Option Int
deriving DecidableEq, Repr

structure AiPatchCompileVerification where
  passed : Bool
  errors : List JsString
  diagnostics : List AiPatchCompileDiagnostic
  truncated : Bool
deriving DecidableEq, Repr

def maxCompileErrors : Nat := 20

def maxCompileDiagnostics : Nat := 100

def maxCompileMessageLength : Nat := 2048

/-- White space and line terminators. -/
def isWhiteSpace (unit : UInt16) : Bool :=
  (9 ≤ unit && unit ≤ 13) || unit = 32 || unit = 0xA0 || unit = 0x1680
    || (0x2000 ≤ unit && unit ≤ 0x200A) || unit = 0x2028 || unit = 0x2029 || unit = 0x202F
    || unit = 0x205F || unit = 0x3000 || unit = 0xFEFF

def trim (value : JsString) : JsString :=
  (value.dropWhile isWhiteSpace).rdropWhile isWhiteSpace

def boundedCompileMessage (value : JsString) : Option JsString :=
  let normalized := trim value
  if normalized = [] then none else some (normalized.take maxCompileMessageLength)

def boundedErrors : List JsString → Bool → List JsString → List JsString × Bool
  | errors, truncated, [] => (errors, truncated)
  | errors, truncated, raw :: rest =>
    match boundedCompileMessage raw with
    | none => boundedErrors errors truncated rest
    | some message =>
      let truncated := truncated || decide (message.length < (trim raw).length)
      if maxCompileErrors ≤ errors.length then (errors, true)
      else boundedErrors (errors ++ [message]) truncated rest

def positiveCoordinate (value : Option Int) : Option Int :=
  value.filter fun number => 0 < number && number ≤ 2 ^ 53 - 1

def boundedDiagnostics : List AiPatchCompileDiagnostic → Bool → List RawDiagnostic →
    List AiPatchCompileDiagnostic × Bool
  | diagnostics, truncated, [] => (diagnostics, truncated)
  | diagnostics, truncated, raw :: rest =>
    match boundedCompileMessage raw.message with
    | none => boundedDiagnostics diagnostics truncated rest
    | some message =>
      let truncated := truncated || decide (message.length < (trim raw.message).length)
      if maxCompileDiagnostics ≤ diagnostics.length then (diagnostics, true)
      else
        let truncated := truncated || raw.path.any fun path => decide (maxPathLength < path.length)
        let path := (raw.path.map fun path => path.take maxPathLength).filter fun path => path ≠ []
        boundedDiagnostics (diagnostics ++ [⟨raw.severity, message, path,
          positiveCoordinate raw.line, positiveCoordinate raw.column⟩]) truncated rest

def compileVerification (rawErrors : List JsString) (rawDiagnostics : List RawDiagnostic) :
    AiPatchCompileVerification :=
  let truncated := decide (maxCompileErrors < rawErrors.length)
    || decide (maxCompileDiagnostics < rawDiagnostics.length)
  let (errors, truncated) := boundedErrors [] truncated rawErrors
  let (diagnostics, truncated) := boundedDiagnostics [] truncated rawDiagnostics
  ⟨!(rawErrors.any fun error => 0 < (trim error).length)
      && !(rawDiagnostics.any fun diagnostic => diagnostic.severity = .error),
    errors, diagnostics, truncated⟩

/-! ## Requests and results -/

structure AiApplyPatchArguments where
  path : JsString
  baseSnapshot : JsString
  patch : JsString
deriving DecidableEq, Repr

structure AiWriteFileArguments where
  path : JsString
  baseSnapshot : JsString
  content : JsString
deriving DecidableEq, Repr

/-- The tools that neither read a file nor edit one. -/
inductive OtherTool
  | listProjectFiles
  | searchProjectText
  | inspectCompilation
  | listTypstPackageFiles
  | readTypstPackageFile
  | searchTypstPackageText
deriving DecidableEq, Repr

def OtherTool.isTypstPackageTool : OtherTool → Bool
  | .listTypstPackageFiles | .readTypstPackageFile | .searchTypstPackageText => true
  | .listProjectFiles | .searchProjectText | .inspectCompilation => false

inductive ToolRequest
  | readProjectFile (args : AiReadProjectFileArguments)
  | applyPatch (args : AiApplyPatchArguments)
  | writeFile (args : AiWriteFileArguments)
  /-- Another tool, and whether its arguments are valid. -/
  | other (tool : OtherTool) (valid : Bool)
deriving DecidableEq, Repr

def isBoundedString (value : JsString) (maxLength : Nat) : Bool :=
  value.length ≤ maxLength && 0 < value.length

def isSafePositiveInteger (value : Nat) : Bool := isSafeInteger value && 0 < value

def isAiWorkspaceToolArguments : ToolRequest → Bool
  | .readProjectFile args =>
    isBoundedString args.path maxPathLength && args.startLine.all isSafePositiveInteger
      && args.endLine.all isSafePositiveInteger
  | .applyPatch args =>
    isBoundedString args.path maxPathLength && isBoundedString args.baseSnapshot 128
      && isBoundedString args.patch maxPatchCharacters
  | .writeFile args =>
    isBoundedString args.path maxPathLength && isBoundedString args.baseSnapshot 128
      && args.content.length ≤ maxWriteFileCharacters
  | .other _ valid => valid

/-- An edit that is asked for; what the base is resolved from. -/
inductive EditRequest
  | patch (args : AiApplyPatchArguments)
  | fullFile (args : AiWriteFileArguments)
deriving DecidableEq, Repr

def EditRequest.path : EditRequest → JsString
  | .patch args => args.path
  | .fullFile args => args.path

def EditRequest.baseSnapshot : EditRequest → JsString
  | .patch args => args.baseSnapshot
  | .fullFile args => args.baseSnapshot

def EditRequest.request : EditRequest → ToolRequest
  | .patch args => .applyPatch args
  | .fullFile args => .writeFile args

inductive EditKind
  | patch
  | fullFile
deriving DecidableEq, Repr

structure AssistantEditProposal where
  editKind : EditKind
  path : JsString
  baseSnapshot : JsString
  baseText : JsString
  candidateText : JsString
  patch : JsString
  addedLines : Nat
  removedLines : Nat
  hunkCount : Nat
  verification : AiPatchCompileVerification
deriving DecidableEq, Repr

inductive EditStatus
  | reviewPending
  | compileFailed
deriving DecidableEq, Repr

structure AiEditResult where
  path : JsString
  baseSnapshot : JsString
  status : EditStatus
  reviewId : Option JsString
  verification : AiPatchCompileVerification
deriving DecidableEq, Repr

inductive ToolResult
  | read (result : AiReadProjectFileResult)
  | edit (result : AiEditResult)
  | other (tool : OtherTool)
deriving DecidableEq, Repr

inductive ToolExecution
  | success (result : ToolResult)
  | error (error : ToolError)
deriving DecidableEq, Repr

def toolError (code message : String) : ToolExecution := .error ⟨code, message⟩

/-! ## The port -/

structure PortConfig where
  scopeId : JsString
  projectType : ProjectType
  mode : WorkspaceMode
  allowEdits : Bool
  hasTypstPackageInspector : Bool
deriving DecidableEq, Repr

/-- `capabilities.tools.includes`. -/
def isAvailable (config : PortConfig) : ToolRequest → Bool
  | .readProjectFile _ => true
  | .applyPatch _ | .writeFile _ => config.allowEdits && config.mode = .live
  | .other tool _ => !tool.isTypstPackageTool || config.hasTypstPackageInspector

structure ActiveEditBase where
  path : JsString
  baseText : JsString
  currentSnapshot : JsString
deriving DecidableEq, Repr

/-- A call that waits: for a digest, for a function of its own that has returned, for the compiler
or for the package inspector. -/
inductive Call
  | reading (source : AiWorkspaceToolSource) (read : PendingRead)
  | read (result : AiReadProjectFileResult)
  | resolving (source : AiWorkspaceToolSource) (edit : EditRequest) (path baseText : JsString)
  | resolved (source : AiWorkspaceToolSource) (edit : EditRequest) (base : ActiveEditBase)
  | verifying (source : AiWorkspaceToolSource) (kind : EditKind) (base : ActiveEditBase)
      (candidate : AssistantPatchCandidate)
  | comparing (kind : EditKind) (base : ActiveEditBase) (candidate : AssistantPatchCandidate)
      (verification : AiPatchCompileVerification) (latest : SnapshotKey)
  | inspecting (tool : OtherTool)
  | finishing (execution : ToolExecution)
deriving DecidableEq, Repr

inductive PortEvent
  | called (id : Nat) (request : ToolRequest)
  | reviewed (id : Nat) (proposal : AssistantEditProposal)
  | returned (id : Nat) (execution : ToolExecution)
deriving DecidableEq, Repr

structure PortState where
  source : AiWorkspaceToolSource
  fullReadSnapshots : List (JsString × JsString)
  calls : List (Nat × Call)
  aborted : List Nat
  log : List PortEvent
deriving DecidableEq, Repr

inductive CandidateCompileResult
  | completed (errors : List JsString) (diagnostics : List RawDiagnostic)
  | workspaceSyncPending
  | compilerWorldStale
  | documentMissing
deriving DecidableEq, Repr

inductive EditReviewRequestResult
  | pending (reviewId : JsString)
  | cancelled
  | busy
deriving DecidableEq, Repr

/-- What a waiting call is answered. -/
inductive Reply
  | goOn
  | digestFailed
  | compiled (result : CandidateCompileResult)
  /-- The compiler threw; the flag tells an abort. -/
  | compileFailed (aborted : Bool)
  /-- The digest is there, and this is what the revision check and the review answer. -/
  | reviewed (revisionCurrent : Bool) (review : EditReviewRequestResult)
deriving DecidableEq, Repr

inductive PortAction
  | changeSource (source : AiWorkspaceToolSource)
  | abort (id : Nat)
  | execute (id : Nat) (request : ToolRequest)
  | resume (id : Nat) (reply : Reply)
deriving DecidableEq, Repr

def PortState.wait (s : PortState) (id : Nat) (call : Call) : PortState :=
  { s with calls := (id, call) :: s.calls.filter fun entry => entry.1 ≠ id }

def PortState.finish (s : PortState) (id : Nat) (execution : ToolExecution) : PortState :=
  { s with
    calls := s.calls.filter fun entry => entry.1 ≠ id
    log := s.log ++ [.returned id execution] }

/-- The `catch` of `execute`. -/
def PortState.throw (s : PortState) (id : Nat) (abortError : Bool) : PortState :=
  s.finish id (if id ∈ s.aborted ∨ abortError then
    toolError "workspace_request_cancelled" "The Workspace tool call was cancelled."
  else toolError "workspace_tool_internal_error" "The Workspace tool could not complete safely.")

/-- `resolveActiveEditBase` up to its digest. -/
def activeEditText (source : AiWorkspaceToolSource) (pathValue : JsString) :
    Except ToolError (JsString × JsString) :=
  match normalizeRelativePath pathValue false with
  | none => .error ⟨"workspace_invalid_path", "The file path is invalid."⟩
  | some path =>
    if source.mode ≠ .live then
      .error ⟨"workspace_permission_denied", "Historical revisions cannot be edited."⟩
    else
      match source.activeDocument.filter fun document => document.path = path with
      | none => .error ⟨"workspace_document_not_active",
          "The first edit slice can only review the active text document."⟩
      | some document =>
        match source.nodes.find? fun candidate => candidate.path = path with
        | none =>
          .error ⟨"workspace_file_not_found", "The requested project file does not exist."⟩
        | some node =>
          if node.kind ≠ .file then
            .error ⟨"workspace_file_not_found", "The requested project file does not exist."⟩
          else .ok (path, document.text)

/-- `applyPatch` and `writeFile` up to the digest of the base. -/
def startEdit (s : PortState) (id : Nat) (edit : EditRequest) : PortState :=
  match activeEditText s.source edit.path with
  | .error error => s.wait id (.finishing (.error error))
  | .ok (path, baseText) => s.wait id (.resolving s.source edit path baseText)

def execute (config : PortConfig) (s : PortState) (id : Nat) (request : ToolRequest) :
    Option PortState :=
  if (s.calls.lookup id).isSome then none
  else
    let s := { s with log := s.log ++ [PortEvent.called id request] }
    if id ∈ s.aborted then some (s.throw id false)
    else if !isAiWorkspaceToolArguments request then
      some (s.finish id
        (toolError "workspace_invalid_arguments" "The tool arguments are invalid."))
    else if !isAvailable config request then
      some (s.finish id
        (toolError "workspace_tool_not_available" "The Workspace tool is not available."))
    else if s.source.scopeId ≠ config.scopeId ∨ s.source.projectType ≠ config.projectType
        ∨ s.source.mode ≠ config.mode then
      some (s.finish id (toolError "workspace_scope_changed"
        "The Workspace scope changed before the tool ran."))
    else
      match request with
      | .readProjectFile args =>
        match readLines s.source args with
        | .error error => some (s.wait id (.finishing (.error error)))
        | .ok read => some (s.wait id (.reading s.source read))
      | .applyPatch args => some (startEdit s id (.patch args))
      | .writeFile args => some (startEdit s id (.fullFile args))
      | .other tool _ =>
        if tool.isTypstPackageTool then some (s.wait id (.inspecting tool))
        else some (s.finish id (.success (.other tool)))

section Digest

variable (digest : SnapshotKey → JsString)

/-- A read that is complete is remembered, and returned. -/
def resumeRead (config : PortConfig) (s : PortState) (id : Nat) (result : AiReadProjectFileResult) :
    PortState :=
  if s.source.scopeId ≠ config.scopeId then
    s.finish id (toolError "workspace_scope_changed"
      "The Workspace scope changed while the tool ran.")
  else
    let s := if isCompleteRead result then
      { s with fullReadSnapshots := (result.path, result.snapshotId)
          :: s.fullReadSnapshots.filter fun entry => entry.1 ≠ result.path }
      else s
    s.finish id (.success (.read result))

/-- What an edit makes of its base, before the candidate is compiled. -/
def editCandidate (fullReadSnapshots : List (JsString × JsString)) (base : ActiveEditBase) :
    EditRequest → Except ToolError (EditKind × AssistantPatchCandidate)
  | .patch args =>
    match parseAssistantUnifiedDiff base.path base.baseText args.patch with
    | .error failure => .error ⟨"workspace_patch_invalid",
        "The unified diff is invalid (" ++ failure.reason ++ ")."⟩
    | .ok candidate => .ok (.patch, candidate)
  | .fullFile args =>
    if fullReadSnapshots.lookup base.path ≠ some base.currentSnapshot then
      .error ⟨"workspace_full_read_required", "write_file requires one complete, untruncated "
        ++ "read_project_file result for this exact snapshot."⟩
    else
      match normalizeFullFileContent base.baseText args.content with
      | none => .error ⟨"workspace_invalid_arguments", "The replacement content has unsupported "
          ++ "line endings, NUL data, or exceeds the write limit."⟩
      | some candidateText =>
        match createAssistantUnifiedDiff base.path base.baseText candidateText with
        | .error failure => .error ⟨"workspace_invalid_arguments",
            "The full-file replacement cannot produce a bounded review diff (" ++ failure.reason
              ++ ")."⟩
        | .ok candidate => .ok (.fullFile, candidate)

def compileUnavailable (message : String) : Call :=
  .finishing (toolError "workspace_candidate_compile_unavailable" message)

/-- `completeCandidateEdit` behind the compiler. -/
def resumeVerifying (s : PortState) (id : Nat) (source : AiWorkspaceToolSource) (kind : EditKind)
    (base : ActiveEditBase) (candidate : AssistantPatchCandidate) :
    CandidateCompileResult → PortState
  | .workspaceSyncPending => s.wait id (compileUnavailable
      "The Workspace source or required assets are still synchronizing.")
  | .compilerWorldStale => s.wait id (compileUnavailable
      "The compiler World has not caught up with the active document yet.")
  | .documentMissing => s.wait id (compileUnavailable
      "The candidate document is not present in the compiler World.")
  | .completed errors diagnostics =>
    if s.source.scopeId ≠ source.scopeId then
      s.wait id (.finishing (toolError "workspace_scope_changed"
        "The Workspace scope changed while compiling the edit."))
    else
      match sourceDocument s.source base.path with
      | none => s.wait id (.finishing (toolError "workspace_snapshot_stale"
          "The project changed while the candidate edit was compiling. Read it again before retrying."))
      | some text =>
        if id ∈ s.aborted then s.throw id false
        else s.wait id (.comparing kind base candidate (compileVerification errors diagnostics)
          (snapshotKey s.source base.path text))

/-- `completeCandidateEdit` behind the digest of the latest text. -/
def resumeComparing (s : PortState) (id : Nat) (kind : EditKind) (base : ActiveEditBase)
    (candidate : AssistantPatchCandidate) (verification : AiPatchCompileVerification)
    (latestSnapshot : JsString) (revisionCurrent : Bool) (review : EditReviewRequestResult) :
    PortState :=
  if latestSnapshot ≠ base.currentSnapshot ∨ revisionCurrent = false then
    s.wait id (.finishing (toolError "workspace_snapshot_stale"
      "The project changed while the candidate edit was compiling. Read it again before retrying."))
  else if !verification.passed then
    s.wait id (.finishing (.success (.edit
      ⟨base.path, base.currentSnapshot, .compileFailed, none, verification⟩)))
  else
    let s := { s with log := s.log ++ [PortEvent.reviewed id
      ⟨kind, base.path, base.currentSnapshot, base.baseText, candidate.candidateText,
        candidate.canonicalPatch, candidate.addedLines, candidate.removedLines,
        candidate.hunkCount, verification⟩] }
    match review with
    | .cancelled => s.wait id (.finishing (toolError "workspace_request_cancelled"
        "The edit review was cancelled."))
    | .busy => s.wait id (.finishing (toolError "workspace_review_in_progress"
        "Another edit is already waiting for review."))
    | .pending reviewId => s.wait id (.finishing (.success (.edit
        ⟨base.path, base.currentSnapshot, .reviewPending, some reviewId, verification⟩)))

def resume (config : PortConfig) (s : PortState) (id : Nat) : Call → Reply → Option PortState
  | .reading source read, .goOn =>
    if id ∈ s.aborted then some (s.throw id false)
    else some (s.wait id (.read (read.result (digest (snapshotKey source read.path read.text)))))
  | .read result, .goOn => some (resumeRead config s id result)
  | .resolving source edit path baseText, .goOn =>
    if id ∈ s.aborted then some (s.throw id false)
    else
      let currentSnapshot := digest (snapshotKey source path baseText)
      if currentSnapshot ≠ edit.baseSnapshot then
        some (s.wait id (.finishing (toolError "workspace_snapshot_stale"
          "The file changed after it was read. Read it again before proposing another edit.")))
      else some (s.wait id (.resolved source edit ⟨path, baseText, currentSnapshot⟩))
  | .resolved source edit base, .goOn =>
    match editCandidate s.fullReadSnapshots base edit with
    | .error error => some (s.wait id (.finishing (.error error)))
    | .ok (kind, candidate) => some (s.wait id (.verifying source kind base candidate))
  | .verifying source kind base candidate, .compiled result =>
    some (resumeVerifying s id source kind base candidate result)
  | .verifying _ _ _ _, .compileFailed abortError =>
    if id ∈ s.aborted ∨ abortError then some (s.throw id abortError)
    else some (s.wait id (compileUnavailable
      "The isolated candidate compiler could not complete."))
  | .comparing kind base candidate verification latest, .reviewed revisionCurrent review =>
    if id ∈ s.aborted then some (s.throw id false)
    else some (resumeComparing s id kind base candidate verification (digest latest)
      revisionCurrent review)
  | .inspecting tool, .goOn =>
    if s.source.scopeId ≠ config.scopeId then
      some (s.finish id (toolError "workspace_scope_changed"
        "The Workspace scope changed while the package tool ran."))
    else some (s.finish id (.success (.other tool)))
  | .finishing execution, .goOn =>
    if s.source.scopeId ≠ config.scopeId then
      some (s.finish id (toolError "workspace_scope_changed"
        "The Workspace scope changed while the tool ran."))
    else some (s.finish id execution)
  | .reading _ _, .digestFailed | .resolving _ _ _ _, .digestFailed
  | .comparing _ _ _ _ _, .digestFailed => some (s.throw id false)
  | _, _ => none

def step (config : PortConfig) (s : PortState) : PortAction → Option PortState
  | .changeSource source => some { s with source := source }
  | .abort id => some { s with aborted := id :: s.aborted }
  | .execute id request => execute config s id request
  | .resume id reply => (s.calls.lookup id).bind fun call => resume digest config s id call reply

def initialPort (source : AiWorkspaceToolSource) : PortState := ⟨source, [], [], [], []⟩

/-! ## What is known -/

/-- A complete read of a text was returned: every line of it, uncut. -/
def WasReadInFull (log : List PortEvent) (path snapshot text : JsString) : Prop :=
  ∃ id result, .returned id (.success (.read result)) ∈ log ∧ result.path = path
    ∧ result.snapshotId = snapshot ∧ isCompleteRead result = true
    ∧ result.numberedContent = numberedText text

/-- A call that replaces a file, on the base it names and with what its content becomes. -/
def ReplacesWith (log : List PortEvent) (id : Nat) (base : ActiveEditBase)
    (candidateText : JsString) : Prop :=
  ∃ args, .called id (.writeFile args) ∈ log ∧ args.path = base.path
    ∧ args.baseSnapshot = base.currentSnapshot
    ∧ normalizeFullFileContent base.baseText args.content = some candidateText

/-- What a full-file write goes by. -/
def IsJustified (log : List PortEvent) (id : Nat) (base : ActiveEditBase) (candidateText : JsString) :
    Prop :=
  WasReadInFull log base.path base.currentSnapshot base.baseText
    ∧ ReplacesWith log id base candidateText

/-- A snapshot id of a text at a path. -/
def IsSnapshot (snapshot path text : JsString) : Prop :=
  ∃ source, snapshot = digest (snapshotKey source path text)

/-- What is known of a call by what it waits for. -/
def CallInv (log : List PortEvent) (id : Nat) : Call → Prop
  | .reading source read => IsReadOf read source
  | .read result => ∃ text, IsSnapshot digest result.snapshotId result.path text
      ∧ (isCompleteRead result = true → result.numberedContent = numberedText text)
  | .resolving _ edit path _ => .called id edit.request ∈ log ∧ edit.path = path
  | .resolved _ edit base => .called id edit.request ∈ log ∧ edit.path = base.path
      ∧ edit.baseSnapshot = base.currentSnapshot
      ∧ IsSnapshot digest base.currentSnapshot base.path base.baseText
  | .verifying _ kind base candidate => kind = .fullFile →
      IsJustified log id base candidate.candidateText
  | .comparing kind base candidate _ _ => kind = .fullFile →
      IsJustified log id base candidate.candidateText
  | .inspecting _ => True
  | .finishing _ => True

/-- The base of a proposal. -/
def AssistantEditProposal.base (proposal : AssistantEditProposal) : ActiveEditBase :=
  ⟨proposal.path, proposal.baseText, proposal.baseSnapshot⟩

def ReviewsJustified (log : List PortEvent) : Prop :=
  ∀ before after id proposal, log = before ++ .reviewed id proposal :: after →
    proposal.editKind = .fullFile → IsJustified before id proposal.base proposal.candidateText

structure PortInv (s : PortState) : Prop where
  calls : ∀ entry ∈ s.calls, CallInv digest s.log entry.1 entry.2
  reads : ∀ entry ∈ s.fullReadSnapshots, ∃ text, IsSnapshot digest entry.2 entry.1 text
    ∧ WasReadInFull s.log entry.1 entry.2 text
  reviews : ReviewsJustified s.log

/-! ## Logs that go on -/

variable {log more : List PortEvent}

theorem WasReadInFull.mono {path snapshot text : JsString}
    (h : WasReadInFull log path snapshot text) : WasReadInFull (log ++ more) path snapshot text := by
  rcases h with ⟨id, result, hreturned, hrest⟩
  exact ⟨id, result, List.mem_append_left _ hreturned, hrest⟩

theorem IsJustified.mono {id : Nat} {base : ActiveEditBase}
    {candidateText : JsString} (h : IsJustified log id base candidateText) :
    IsJustified (log ++ more) id base candidateText := by
  rcases h with ⟨hread, args, hcalled, hrest⟩
  exact ⟨hread.mono, args, List.mem_append_left _ hcalled, hrest⟩

theorem CallInv.mono {id : Nat} {call : Call}
    (h : CallInv digest log id call) : CallInv digest (log ++ more) id call := by
  cases call with
  | reading | read => exact h
  | resolving | resolved => exact ⟨List.mem_append_left _ h.1, h.2⟩
  | verifying | comparing => exact fun hkind => (h hkind).mono
  | inspecting | finishing => trivial

theorem ReviewsJustified.concat {log : List PortEvent} {event : PortEvent}
    (h : ReviewsJustified log)
    (hevent : ∀ id proposal, event = .reviewed id proposal → proposal.editKind = .fullFile →
      IsJustified log id proposal.base proposal.candidateText) :
    ReviewsJustified (log ++ [event]) := by
  intro before after id proposal hsplit hkind
  rcases List.eq_nil_or_concat after with rfl | ⟨rest, last, rfl⟩
  · have hlast := List.append_inj_right' hsplit rfl
    have hbefore := List.append_inj_left' hsplit rfl
    rw [← hbefore]
    exact hevent id proposal (List.singleton_inj.mp hlast) hkind
  · rw [List.concat_eq_append, ← List.cons_append, ← List.append_assoc] at hsplit
    exact h before rest id proposal (List.append_inj_left' hsplit rfl) hkind

/-- A step that logs one event that is no review keeps what is known. -/
theorem PortInv.logged {s : PortState} (h : PortInv digest s) (event : PortEvent)
    (hevent : ∀ id proposal, event ≠ .reviewed id proposal) :
    PortInv digest { s with log := s.log ++ [event] } := by
  refine ⟨fun entry hentry => (h.calls entry hentry).mono, fun entry hentry => ?_,
    h.reviews.concat fun id proposal heq => absurd heq (hevent id proposal)⟩
  rcases h.reads entry hentry with ⟨text, hsnapshot, hread⟩
  exact ⟨text, hsnapshot, hread.mono⟩

theorem PortInv.finish {s : PortState} (h : PortInv digest s) (id : Nat) (execution : ToolExecution) :
    PortInv digest (s.finish id execution) := by
  have hlogged := h.logged digest (.returned id execution) nofun
  exact ⟨fun entry hentry => hlogged.calls entry (List.mem_filter.mp hentry).1, hlogged.reads,
    hlogged.reviews⟩

theorem PortInv.throw {s : PortState} (h : PortInv digest s) (id : Nat) (abortError : Bool) :
    PortInv digest (s.throw id abortError) :=
  h.finish digest id _

theorem PortInv.wait {s : PortState} (h : PortInv digest s) {id : Nat} {call : Call}
    (hcall : CallInv digest s.log id call) : PortInv digest (s.wait id call) := by
  refine ⟨fun entry hentry => ?_, h.reads, h.reviews⟩
  rcases List.mem_cons.mp hentry with rfl | hold
  · exact hcall
  · exact h.calls entry (List.mem_filter.mp hold).1

/-! ## What a call does -/

variable {source : AiWorkspaceToolSource}

theorem activeEditText_path {pathValue path text : JsString}
    (h : activeEditText source pathValue = .ok (path, text)) : pathValue = path := by
  unfold activeEditText at h
  split at h
  · cases h
  rename_i hpath
  split at h
  · cases h
  split at h
  · cases h
  split at h
  · cases h
  split at h
  · cases h
  · cases h
    exact normalizeRelativePath_eq_some hpath

variable {edit : EditRequest}

theorem editCandidate_fullFile {reads : List (JsString × JsString)} {base : ActiveEditBase}
    {candidate : AssistantPatchCandidate}
    (h : editCandidate reads base edit = .ok (.fullFile, candidate)) :
    ∃ args, edit = .fullFile args ∧ reads.lookup base.path = some base.currentSnapshot
      ∧ normalizeFullFileContent base.baseText args.content = some candidate.candidateText := by
  unfold editCandidate at h
  cases edit with
  | patch args =>
    dsimp only at h
    split at h
    · cases h
    · cases h
  | fullFile args =>
    dsimp only at h
    split at h
    · cases h
    rename_i hread
    split at h
    · cases h
    rename_i candidateText htext
    split at h
    · cases h
    rename_i created hcreated
    cases h
    rcases createAssistantUnifiedDiff_ok hcreated with ⟨_, _, _, _, _, _, _, rfl⟩
    exact ⟨args, rfl, not_not.mp hread, htext⟩

section Calls

variable {config : PortConfig} {s t : PortState} {id : Nat}

theorem PortInv.startEdit (h : PortInv digest s) (hcalled : .called id edit.request ∈ s.log) :
    PortInv digest (startEdit s id edit) := by
  unfold Assistant.startEdit
  split
  · exact h.wait digest trivial
  · next hactive => exact h.wait digest ⟨hcalled, activeEditText_path hactive⟩

theorem PortInv.execute (h : PortInv digest s) {request : ToolRequest}
    (hstep : execute config s id request = some t) : PortInv digest t := by
  unfold Assistant.execute at hstep
  split at hstep
  · cases hstep
  have hlogged := h.logged digest (.called id request) nofun
  have hcalled : PortEvent.called id request ∈ s.log ++ [PortEvent.called id request] :=
    List.mem_append_right _ (List.mem_singleton.mpr rfl)
  dsimp only at hstep
  split at hstep
  · cases hstep
    exact hlogged.throw digest id _
  split at hstep
  · cases hstep
    exact hlogged.finish digest id _
  split at hstep
  · cases hstep
    exact hlogged.finish digest id _
  split at hstep
  · cases hstep
    exact hlogged.finish digest id _
  cases request with
  | readProjectFile args =>
    dsimp only at hstep
    split at hstep
    · cases hstep
      exact hlogged.wait digest trivial
    · next hread =>
      cases hstep
      exact hlogged.wait digest (readLines_ok hread)
  | applyPatch args | writeFile args =>
    cases hstep
    exact hlogged.startEdit digest hcalled
  | other tool valid =>
    dsimp only at hstep
    split at hstep
    · cases hstep
      exact hlogged.wait digest trivial
    · cases hstep
      exact hlogged.finish digest id _

theorem PortInv.resumeRead (h : PortInv digest s) {result : AiReadProjectFileResult}
    (hcall : CallInv digest s.log id (.read result)) :
    PortInv digest (resumeRead config s id result) := by
  unfold Assistant.resumeRead
  split
  · exact h.finish digest id _
  have hfinished := h.finish digest id (.success (.read result))
  by_cases hcomplete : isCompleteRead result = true
  · simp only [if_pos hcomplete]
    refine ⟨hfinished.calls, fun entry hentry => ?_, hfinished.reviews⟩
    rcases List.mem_cons.mp hentry with rfl | hold
    · rcases hcall with ⟨text, hsnapshot, hnumbered⟩
      exact ⟨text, hsnapshot, id, result, List.mem_append_right _ (List.mem_singleton.mpr rfl),
        rfl, rfl, hcomplete, hnumbered hcomplete⟩
    · exact hfinished.reads entry (List.mem_filter.mp hold).1
  · simp only [if_neg hcomplete]
    exact hfinished

variable {candidate : AssistantPatchCandidate} {base : ActiveEditBase}

/-- The remembered read is one of the very text that the edit starts from. -/
theorem PortInv.justified (h : PortInv digest s) (hdigest : Function.Injective digest)
    (hcall : CallInv digest s.log id (.resolved source edit base))
    (hcandidate : editCandidate s.fullReadSnapshots base edit = .ok (.fullFile, candidate)) :
    IsJustified s.log id base candidate.candidateText := by
  rcases editCandidate_fullFile hcandidate with ⟨args, rfl, hread, htext⟩
  rcases hcall with ⟨hcalled, hpath, hsnapshot, _, hbase⟩
  rcases h.reads _ (mem_of_lookup hread) with ⟨text, ⟨_, hdigested⟩, hfull⟩
  have hsame : text = base.baseText :=
    congrArg SnapshotKey.text (hdigest (hdigested.symm.trans hbase))
  exact ⟨hsame ▸ hfull, args, hcalled, hpath, hsnapshot, htext⟩

theorem PortInv.resumeComparing (h : PortInv digest s) {kind : EditKind}
    {verification : AiPatchCompileVerification}
    (hcall : kind = .fullFile → IsJustified s.log id base candidate.candidateText)
    (latestSnapshot : JsString) (revisionCurrent : Bool) (review : EditReviewRequestResult) :
    PortInv digest (resumeComparing s id kind base candidate verification latestSnapshot
      revisionCurrent review) := by
  unfold Assistant.resumeComparing
  split
  · exact h.wait digest trivial
  split
  · exact h.wait digest trivial
  have hreviewed : PortInv digest { s with log := s.log ++ [PortEvent.reviewed id
      ⟨kind, base.path, base.currentSnapshot, base.baseText, candidate.candidateText,
        candidate.canonicalPatch, candidate.addedLines, candidate.removedLines,
        candidate.hunkCount, verification⟩] } := by
    refine ⟨fun entry hentry => (h.calls entry hentry).mono, fun entry hentry => ?_,
      h.reviews.concat ?_⟩
    · rcases h.reads entry hentry with ⟨text, hsnapshot, hread⟩
      exact ⟨text, hsnapshot, hread.mono⟩
    · rintro _ _ ⟨⟩ hkind
      exact hcall hkind
  cases review with
  | pending reviewId | cancelled | busy => exact hreviewed.wait digest trivial

theorem PortInv.resumeVerifying (h : PortInv digest s) {kind : EditKind}
    (hcall : kind = .fullFile → IsJustified s.log id base candidate.candidateText)
    (result : CandidateCompileResult) :
    PortInv digest (resumeVerifying s id source kind base candidate result) := by
  cases result with
  | workspaceSyncPending | compilerWorldStale | documentMissing => exact h.wait digest trivial
  | completed errors diagnostics =>
    unfold Assistant.resumeVerifying
    dsimp only
    split
    · exact h.wait digest trivial
    split
    · exact h.wait digest trivial
    · split
      · exact h.throw digest id _
      · exact h.wait digest hcall

theorem PortInv.resume (h : PortInv digest s) (hdigest : Function.Injective digest) {call : Call}
    {reply : Reply} (hcall : CallInv digest s.log id call)
    (hstep : resume digest config s id call reply = some t) : PortInv digest t := by
  -- by the point at which the call waits
  unfold Assistant.resume at hstep
  split at hstep
  · next source read =>
    -- the text of a complete read
    split at hstep
    · cases hstep
      exact h.throw digest id _
    · cases hstep
      exact h.wait digest ⟨read.text, ⟨source, rfl⟩, hcall.complete _⟩
  · cases hstep
    exact h.resumeRead digest hcall
  · next source edit path baseText =>
    -- the text to edit, which must be the one that was read
    split at hstep
    · cases hstep
      exact h.throw digest id _
    dsimp only at hstep
    split at hstep
    · cases hstep
      exact h.wait digest trivial
    · next hcurrent =>
      cases hstep
      exact h.wait digest ⟨hcall.1, hcall.2, (not_not.mp hcurrent).symm, source, rfl⟩
  · next source edit base =>
    -- the candidate, justified by what was read
    split at hstep
    · cases hstep
      exact h.wait digest trivial
    rename_i kind candidate hcandidate
    cases hstep
    refine h.wait digest fun hkind => ?_
    rw [hkind] at hcandidate
    exact h.justified digest hdigest hcall hcandidate
  · cases hstep
    exact h.resumeVerifying digest hcall _
  · split at hstep
    · cases hstep
      exact h.throw digest id _
    · cases hstep
      exact h.wait digest trivial
  · split at hstep
    · cases hstep
      exact h.throw digest id _
    · cases hstep
      exact h.resumeComparing digest hcall _ _ _
  · split at hstep
    · cases hstep
      exact h.finish digest id _
    · cases hstep
      exact h.finish digest id _
  · split at hstep
    · cases hstep
      exact h.finish digest id _
    · cases hstep
      exact h.finish digest id _
  · cases hstep
    exact h.throw digest id _
  · cases hstep
    exact h.throw digest id _
  · cases hstep
    exact h.throw digest id _
  · cases hstep

theorem PortInv.step (h : PortInv digest s) (hdigest : Function.Injective digest)
    {action : PortAction} (hstep : step digest config s action = some t) : PortInv digest t := by
  cases action with
  | changeSource source | abort id =>
    cases hstep
    exact ⟨h.calls, h.reads, h.reviews⟩
  | execute id request => exact h.execute digest hstep
  | resume id reply =>
    rcases Option.bind_eq_some_iff.mp hstep with ⟨call, hcall, hresume⟩
    exact h.resume digest hdigest (h.calls _ (mem_of_lookup hcall)) hresume

theorem portInv_initialPort (source : AiWorkspaceToolSource) : PortInv digest (initialPort source) := by
  refine ⟨nofun, nofun, fun before after id proposal hsplit => ?_⟩
  cases before with
  | nil | cons => cases hsplit

end Calls

end Digest

/-- A review of a replaced file comes after a complete read of the text it replaces, and what the
content becomes keeps the style of that text. -/
theorem full_write_follows_full_read {digest : SnapshotKey → JsString}
    (hdigest : Function.Injective digest) {config : PortConfig} {source : AiWorkspaceToolSource}
    {actions : List PortAction} {s : PortState}
    (hrun : Run (fun s action t => step digest config s action = some t) (initialPort source)
      actions s) :
    ReviewsJustified s.log
      ∧ ∀ baseText content candidateText,
        normalizeFullFileContent baseText content = some candidateText →
          KeepsStyle baseText content candidateText :=
  ⟨(hrun.invariant (fun _ _ _ hinv hstep => PortInv.step digest hinv hdigest hstep)
    (portInv_initialPort digest source)).reviews, fun _ _ _ => normalizeFullFileContent_some⟩

/-- A string that tells its end. -/
def framed (units : JsString) : JsString := units.flatMap (fun unit => [1, unit]) ++ [0]

theorem framed_append_inj {a b x y : JsString} (h : framed a ++ x = framed b ++ y) : a = b ∧ x = y := by
  induction a generalizing b with
  | nil =>
    cases b with
    | nil => exact ⟨rfl, (List.cons.inj h).2⟩
    | cons unit b => exact absurd (List.cons.inj h).1 (by decide)
  | cons unit a ih =>
    cases b with
    | nil => exact absurd (List.cons.inj h).1 (by decide)
    | cons other b =>
      have hrest := List.cons.inj (List.cons.inj h).2
      have hab := ih hrest.2
      exact ⟨by rw [hrest.1, hab.1], hab.2⟩

def framedNumber (number : Int) : JsString :=
  framed (decimalDigits number.natAbs) ++ framed (if number < 0 then [45] else [])

theorem framedNumber_append_inj {a b : Int} {x y : JsString}
    (h : framedNumber a ++ x = framedNumber b ++ y) : a = b ∧ x = y := by
  unfold framedNumber at h
  rw [List.append_assoc, List.append_assoc] at h
  rcases framed_append_inj h with ⟨hdigits, hrest⟩
  rcases framed_append_inj hrest with ⟨hsign, rfl⟩
  have habs : a.natAbs = b.natAbs := by
    rw [← readDigits_decimalDigits a.natAbs, hdigits, readDigits_decimalDigits]
  refine ⟨?_, rfl⟩
  split at hsign
  · split at hsign
    · omega
    · cases hsign
  · split at hsign
    · cases hsign
    · omega

/-- A snapshot id that keeps all it is made of. -/
def framedKey (key : SnapshotKey) : JsString :=
  framed key.scopeId ++ (framed (if key.mode = .live then [] else [0]) ++ (framed key.path
    ++ (framed key.text ++ match key.identity with
      | none => [0]
      | some identity => 1 :: (framedNumber identity.id ++ (framedNumber identity.pathRevision
        ++ (framedNumber identity.collaborationRevision ++ []))))))

theorem framedKey_injective : Function.Injective framedKey := by
  rintro ⟨scopeId, mode, path, identity, text⟩ ⟨scopeId', mode', path', identity', text'⟩ h
  rcases framed_append_inj h with ⟨rfl, hmode⟩
  rcases framed_append_inj hmode with ⟨hmode, hpath⟩
  rcases framed_append_inj hpath with ⟨rfl, htext⟩
  rcases framed_append_inj htext with ⟨rfl, hidentity⟩
  have hsame : mode = mode' := by
    cases mode with
    | live =>
      cases mode' with
      | live => rfl
      | revision => cases hmode
    | revision =>
      cases mode' with
      | live => cases hmode
      | revision => rfl
  rcases hsame with rfl
  cases identity with
  | none =>
    cases identity' with
    | none => rfl
    | some => exact absurd (List.cons.inj hidentity).1 (by decide)
  | some identity =>
    cases identity' with
    | none => exact absurd (List.cons.inj hidentity).1 (by decide)
    | some identity' =>
      rcases framedNumber_append_inj (List.cons.inj hidentity).2 with ⟨hid, hpath⟩
      rcases framedNumber_append_inj hpath with ⟨hpath, hcontent⟩
      rcases framedNumber_append_inj hcontent with ⟨hcontent, _⟩
      congr
      cases identity
      cases identity'
      simp_all

/-- A file of one line that is read, and then replaced. -/
theorem full_write_of_one_line : ∃ s,
    exec (step framedKey ⟨[115], .typst, .live, true, false⟩)
      (initialPort ⟨[115], .typst, .live, [⟨[97], .file⟩], [], some ⟨[97], [120, 10]⟩, []⟩)
      [.execute 0 (.readProjectFile ⟨[97], none, none⟩), .resume 0 .goOn, .resume 0 .goOn,
        .execute 1 (.writeFile ⟨[97], framedKey ⟨[115], .live, [97], none, [120, 10]⟩, [121]⟩),
        .resume 1 .goOn, .resume 1 .goOn, .resume 1 (.compiled (.completed [] [])),
        .resume 1 (.reviewed true (.pending [49]))] = some s
    ∧ (s.log.any fun | .reviewed 1 proposal => proposal.editKind = .fullFile | _ => false) = true
    ∧ ReviewsJustified s.log ∧ KeepsStyle [120, 10] [121] [121, 10] := by
  have hreviewed : ((exec (step framedKey ⟨[115], .typst, .live, true, false⟩)
      (initialPort ⟨[115], .typst, .live, [⟨[97], .file⟩], [], some ⟨[97], [120, 10]⟩, []⟩)
      [.execute 0 (.readProjectFile ⟨[97], none, none⟩), .resume 0 .goOn, .resume 0 .goOn,
        .execute 1 (.writeFile ⟨[97], framedKey ⟨[115], .live, [97], none, [120, 10]⟩, [121]⟩),
        .resume 1 .goOn, .resume 1 .goOn, .resume 1 (.compiled (.completed [] [])),
        .resume 1 (.reviewed true (.pending [49]))]).any fun s =>
      s.log.any fun | .reviewed 1 proposal => proposal.editKind = .fullFile | _ => false) = true := by
    decide +kernel
  rcases (Option.any_eq_true _ _).mp hreviewed with ⟨s, hrun, hlog⟩
  have hfollows := full_write_follows_full_read framedKey_injective (exec_run hrun)
  exact ⟨s, hrun, hlog, hfollows.1, hfollows.2 _ _ _ (by decide +kernel)⟩

end Toss.Web.Assistant
