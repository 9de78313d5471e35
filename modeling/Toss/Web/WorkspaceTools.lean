import Toss.Web.AssistantPatch
import Toss.Web.WorkspaceSession

/-!
# The tools that read and replace a project file

`readProjectFile` and `normalizeFullFileContent` of `assistantWorkspacePort.ts`, over the projection
of the workspace that the tools are given.

* `AiWorkspaceToolSource`, `sourceDocument` — the projection;
* `readLines`, `isCompleteRead` — what a read returns before its snapshot id is known;
* `complete_of_isCompleteRead` — a read that is taken for a complete one has every line, uncut;
* `normalizeFullFileContent_some` — what becomes of the content that replaces a file.
-/

namespace Toss.Web.Assistant

open Toss.Foundation Toss.Workspace

/-! ## The projection -/

inductive NodeKind
  | file
  | directory
deriving DecidableEq, Repr

structure ProjectNode where
  path : JsString
  kind : NodeKind
deriving DecidableEq, Repr

inductive WorkspaceMode
  | live
  | revision
deriving DecidableEq, Repr

structure ActiveDocument where
  path : JsString
  text : JsString
deriving DecidableEq, Repr

structure AiWorkspaceToolSource where
  scopeId : JsString
  projectType : ProjectType
  mode : WorkspaceMode
  nodes : List ProjectNode
  documents : List (JsString × JsString)
  activeDocument : Option ActiveDocument
  documentIdentities : List (JsString × DocumentIdentity)
deriving DecidableEq, Repr

def maxPathLength : Nat := 1024

def slash : UInt16 := 47

def backslash : UInt16 := 92

def normalizeRelativePath (value : JsString) (allowEmpty : Bool) : Option JsString :=
  if value.length = 0 then if allowEmpty then some [] else none
  else if maxPathLength < value.length ∨ value.head? = some slash ∨ backslash ∈ value ∨ 0 ∈ value then
    none
  else
    let normalized := if allowEmpty then value.rdropWhile (· = slash) else value
    if normalized.length = 0 then if allowEmpty then some [] else none
    else
      let segments := normalized.splitOn slash
      if segments.any fun segment => segment = [] || segment = jsString "." || segment = jsString ".."
      then none
      else some normalized

/-- Where no path may be empty, none is changed. -/
theorem normalizeRelativePath_eq_some {value path : JsString}
    (h : normalizeRelativePath value false = some path) : value = path := by
  unfold normalizeRelativePath at h
  simp only [Bool.false_eq_true, ↓reduceIte, Option.ite_none_left_eq_some] at h
  exact Option.some.inj h.2.2.2.2

def sourceDocument (source : AiWorkspaceToolSource) (path : JsString) : Option JsString :=
  match source.activeDocument with
  | some document =>
    if document.path = path then some document.text else source.documents.lookup path
  | none => source.documents.lookup path

/-- What the id of a snapshot is made of. -/
structure SnapshotKey where
  scopeId : JsString
  mode : WorkspaceMode
  path : JsString
  identity : Option DocumentIdentity
  text : JsString
deriving DecidableEq, Repr

def snapshotKey (source : AiWorkspaceToolSource) (path text : JsString) : SnapshotKey :=
  ⟨source.scopeId, source.mode, path, source.documentIdentities.lookup path, text⟩

/-! ## Reading -/

structure ToolError where
  code : String
  message : String
deriving DecidableEq, Repr

structure AiReadProjectFileArguments where
  path : JsString
  startLine : Option Nat
  endLine : Option Nat
deriving DecidableEq, Repr

structure AiReadProjectFileResult where
  path : JsString
  snapshotId : JsString
  startLine : Nat
  endLine : Nat
  totalLines : Nat
  hasMore : Bool
  contentTruncated : Bool
  numberedContent : JsString
deriving DecidableEq, Repr

def maxReadCharacters : Nat := 65536

/-- `value.padStart(width, " ")`. -/
def padStart (width : Nat) (value : JsString) : JsString :=
  List.replicate (width - value.length) 32 ++ value

def renderLine (width lineNumber : Nat) (line : JsString) : JsString :=
  padStart width (decimalDigits lineNumber) ++ jsString " | " ++ line

/-- Where the loop over the lines is. -/
structure ReadProgress where
  numbered : List JsString
  characterCount : Nat
  contentTruncated : Bool
  actualEndLine : Nat
deriving DecidableEq, Repr

def readLoop (width : Nat) : ReadProgress → Nat → List JsString → ReadProgress
  | progress, _, [] => progress
  | progress, lineNumber, line :: lines =>
    let rendered := renderLine width lineNumber line
    let separatorLength : Nat := if progress.numbered = [] then 0 else 1
    let remaining : Int := maxReadCharacters - progress.characterCount - separatorLength
    if (rendered.length : Int) > remaining then
      if remaining > 0 then
        { progress with
          numbered := progress.numbered ++ [rendered.take remaining.toNat]
          actualEndLine := lineNumber
          contentTruncated := true }
      else { progress with contentTruncated := true }
    else
      readLoop width
        { progress with
          numbered := progress.numbered ++ [rendered]
          characterCount := progress.characterCount + separatorLength + rendered.length
          actualEndLine := lineNumber }
        (lineNumber + 1) lines

/-- A read whose snapshot id is being computed. -/
structure PendingRead where
  path : JsString
  text : JsString
  startLine : Nat
  endLine : Nat
  totalLines : Nat
  hasMore : Bool
  contentTruncated : Bool
  numberedContent : JsString
deriving DecidableEq, Repr

/-- `readProjectFile` up to its digest. -/
def readLines (source : AiWorkspaceToolSource) (args : AiReadProjectFileArguments) :
    Except ToolError PendingRead :=
  match normalizeRelativePath args.path false with
  | none => .error ⟨"workspace_invalid_path", "The file path is invalid."⟩
  | some path =>
    match source.nodes.find? fun candidate => candidate.path = path with
    | none =>
      .error ⟨"workspace_file_not_found", "The requested project file does not exist."⟩
    | some node =>
      if node.kind ≠ .file then
        .error ⟨"workspace_file_not_found", "The requested project file does not exist."⟩
      else
        match sourceDocument source path with
        | none =>
          if (source.documentIdentities.lookup path).isSome then
            .error ⟨"workspace_file_unavailable",
              "The text file is not available in this Workspace snapshot."⟩
          else
            .error ⟨"workspace_file_not_text",
              "The requested project file is not a text document."⟩
        | some text =>
          let lines := text.splitOn lineFeed
          let startLine := args.startLine.getD 1
          if lines.length < startLine then
            .error ⟨"workspace_invalid_arguments",
              "The requested start line is past the end of the file."⟩
          else
            let requestedEndLine :=
              args.endLine.getD (min lines.length (startLine + maxReadLines - 1))
            if requestedEndLine < startLine ∨ maxReadLines < requestedEndLine - startLine + 1 then
              .error ⟨"workspace_invalid_arguments",
                "The requested line range is invalid or too large."⟩
            else
              let boundedEndLine := min requestedEndLine lines.length
              let width := (decimalDigits boundedEndLine).length
              let read := readLoop width ⟨[], 0, false, startLine⟩ startLine
                ((lines.take boundedEndLine).drop (startLine - 1))
              .ok ⟨path, text, startLine, read.actualEndLine, lines.length,
                read.contentTruncated || read.actualEndLine < lines.length, read.contentTruncated,
                [lineFeed].intercalate read.numbered⟩

def PendingRead.result (read : PendingRead) (snapshotId : JsString) : AiReadProjectFileResult :=
  ⟨read.path, snapshotId, read.startLine, read.endLine, read.totalLines, read.hasMore,
    read.contentTruncated, read.numberedContent⟩

/-- The five fields by which the port takes a read for a complete one. -/
def isCompleteRead (result : AiReadProjectFileResult) : Bool :=
  result.startLine = 1 && result.endLine = result.totalLines && !result.hasMore
    && !result.contentTruncated

/-- All lines of a text, numbered from one on. -/
def numberedText (text : JsString) : JsString :=
  let lines := text.splitOn lineFeed
  [lineFeed].intercalate ((lines.zipIdx 1).map fun (line, lineNumber) =>
    renderLine (decimalDigits lines.length).length lineNumber line)

theorem readLoop_complete {width : Nat} {progress : ReadProgress} {lineNumber : Nat}
    {lines : List JsString} (hdone : progress.contentTruncated = false)
    (h : (readLoop width progress lineNumber lines).contentTruncated = false) :
    (readLoop width progress lineNumber lines).numbered = progress.numbered
        ++ (lines.zipIdx lineNumber).map fun (line, lineNumber) => renderLine width lineNumber line := by
  induction lines generalizing progress lineNumber with
  | nil => exact (List.append_nil _).symm
  | cons line lines ih =>
    unfold readLoop at h ⊢
    dsimp only at h ⊢
    generalize (if progress.numbered = [] then (0 : Nat) else 1) = separatorLength at h ⊢
    split at h
    · -- a line that is cut marks the read
      split at h
      · cases h
      · cases h
    · next hfits =>
      rw [if_neg hfits]
      have hrest := @ih ⟨progress.numbered ++ [renderLine width lineNumber line], _, _, _⟩
        (lineNumber + 1) hdone h
      rw [hrest, List.append_assoc, List.zipIdx_cons, List.map_cons]
      rfl

theorem readLoop_end_le {width : Nat} {progress : ReadProgress} {lineNumber last : Nat}
    {lines : List JsString} (hlast : progress.actualEndLine ≤ last)
    (hlines : lineNumber + lines.length ≤ last + 1) :
    (readLoop width progress lineNumber lines).actualEndLine ≤ last := by
  induction lines generalizing progress lineNumber with
  | nil => exact hlast
  | cons line lines ih =>
    rw [List.length_cons] at hlines
    unfold readLoop
    dsimp only
    generalize (if progress.numbered = [] then (0 : Nat) else 1) = separatorLength
    split
    · split
      · show lineNumber ≤ last
        omega
      · exact hlast
    · exact ih (show lineNumber ≤ last by omega) (by omega)

/-- What a read of a text is, whatever its range. -/
structure IsReadOf (read : PendingRead) (source : AiWorkspaceToolSource) : Prop where
  text : sourceDocument source read.path = some read.text
  complete : ∀ snapshotId, isCompleteRead (read.result snapshotId) = true →
    read.numberedContent = numberedText read.text

theorem readLines_ok {source : AiWorkspaceToolSource} {args : AiReadProjectFileArguments}
    {read : PendingRead} (h : readLines source args = .ok read) : IsReadOf read source := by
  unfold readLines at h
  split at h
  · cases h
  split at h
  · cases h
  split at h
  · cases h
  split at h
  · split at h
    · cases h
    · cases h
  rename_i text htext
  dsimp only at h
  split at h
  · cases h
  rename_i hstart
  split at h
  · cases h
  rename_i hrange
  cases h
  refine ⟨htext, fun snapshotId hcomplete => ?_⟩
  unfold isCompleteRead PendingRead.result at hcomplete
  simp only [Bool.and_eq_true, decide_eq_true_eq, Bool.not_eq_true'] at hcomplete
  rcases hcomplete with ⟨⟨⟨hfirst, hlast⟩, _⟩, hwhole⟩
  rw [hfirst] at hlast hwhole hstart hrange ⊢
  generalize args.endLine.getD _ = requestedEndLine at hlast hwhole hrange ⊢
  -- the last line that was read is the last one there is, so none was left out
  have hend : min requestedEndLine (text.splitOn lineFeed).length
      = (text.splitOn lineFeed).length := by
    have hle := @readLoop_end_le
      (decimalDigits (min requestedEndLine (text.splitOn lineFeed).length)).length
      ⟨[], 0, false, 1⟩ 1 (min requestedEndLine (text.splitOn lineFeed).length)
      (((text.splitOn lineFeed).take
        (min requestedEndLine (text.splitOn lineFeed).length)).drop (1 - 1))
      (show 1 ≤ _ by omega)
      (by rw [List.length_drop, List.length_take]; omega)
    omega
  rw [hend, List.take_length, Nat.sub_self, List.drop_zero] at hwhole ⊢
  rw [readLoop_complete rfl hwhole, List.nil_append]
  rfl

/-! ## Replacing -/

def maxWriteFileCharacters : Nat := 65536

/-- `replaceAll("\n", "\r\n")`. -/
def replaceLf (text : JsString) : JsString :=
  text.flatMap fun unit => if unit = lineFeed then [carriageReturn, lineFeed] else [unit]

def normalizeFullFileContent (baseText content : JsString) : Option JsString :=
  let baseWithoutCrLf := replaceCrLf [] baseText
  let baseHasCrLf := [carriageReturn, lineFeed] <:+: baseText
  if carriageReturn ∈ baseWithoutCrLf then none
  else if baseHasCrLf ∧ lineFeed ∈ baseWithoutCrLf then none
  else
    let normalized := normalizeCrLf content
    if carriageReturn ∈ normalized ∨ 0 ∈ normalized then none
    else
      let baseEndsWithNewline :=
        if baseHasCrLf then [carriageReturn, lineFeed].isSuffixOf baseText
        else [lineFeed].isSuffixOf baseText
      let normalized :=
        if 0 < normalized.length ∧ baseEndsWithNewline ∧ ¬[lineFeed].isSuffixOf normalized then
          normalized ++ [lineFeed]
        else normalized
      let candidateText := if baseHasCrLf then replaceLf normalized else normalized
      if candidateText.length ≤ maxWriteFileCharacters then some candidateText else none

/-- The line ending of a text whose line endings are all alike. -/
def lineEnding (baseText : JsString) : JsString :=
  if [carriageReturn, lineFeed] <:+: baseText then [carriageReturn, lineFeed] else [lineFeed]

/-- Content in the style of the text it replaces, and otherwise as it was. -/
structure KeepsStyle (baseText content candidateText : JsString) : Prop where
  /-- The candidate's line endings are those of the base. -/
  style : if [carriageReturn, lineFeed] <:+: baseText then
    carriageReturn ∉ replaceCrLf [] candidateText ∧ lineFeed ∉ replaceCrLf [] candidateText
    else carriageReturn ∉ candidateText
  finalNewline : content ≠ [] → lineEnding baseText <:+ baseText →
    lineEnding baseText <:+ candidateText
  /-- Up to its line endings, and to one that is put behind content that lacks the final one of
  the base, it is the content. -/
  content : normalizeCrLf candidateText = normalizeCrLf content
    ∨ content ≠ [] ∧ lineEnding baseText <:+ baseText ∧ ¬[lineFeed] <:+ normalizeCrLf content
      ∧ normalizeCrLf candidateText = normalizeCrLf content ++ [lineFeed]

theorem replaceCrLf_cons (replacement : JsString) {unit : UInt16} (h : unit ≠ carriageReturn)
    (text : JsString) :
    replaceCrLf replacement (unit :: text) = unit :: replaceCrLf replacement text := by
  cases text with
  | nil => rfl
  | cons next text => rw [replaceCrLf, if_neg fun heol => h heol.1]

variable {text : JsString}

/-- The line endings that were put in are the only ones. -/
theorem replaceCrLf_replaceLf (replacement : JsString) (h : carriageReturn ∉ text) :
    replaceCrLf replacement (replaceLf text)
      = text.flatMap fun unit => if unit = lineFeed then replacement else [unit] := by
  induction text with
  | nil => rfl
  | cons unit text ih =>
    rw [List.mem_cons, not_or] at h
    have hrest := ih h.2
    unfold replaceLf at hrest ⊢
    rw [List.flatMap_cons, List.flatMap_cons]
    by_cases hfeed : unit = lineFeed
    · rw [if_pos hfeed, if_pos hfeed, ← hrest]
      show replaceCrLf replacement (carriageReturn :: lineFeed :: _) = _
      rw [replaceCrLf, if_pos ⟨rfl, rfl⟩]
      rfl
    · rw [if_neg hfeed, if_neg hfeed, ← hrest]
      exact replaceCrLf_cons replacement (fun heq => h.1 heq.symm) _

theorem normalizeCrLf_replaceLf (h : carriageReturn ∉ text) :
    normalizeCrLf (replaceLf text) = text := by
  unfold normalizeCrLf
  rw [replaceCrLf_replaceLf _ h]
  have hsame : (fun unit => if unit = lineFeed then [lineFeed] else [unit])
      = fun unit : UInt16 => [unit] := by
    funext unit
    split
    · next hfeed => rw [hfeed]
    · rfl
  rw [hsame]
  exact List.flatMap_singleton' text

theorem no_lone_ending_replaceLf (h : carriageReturn ∉ text) :
    carriageReturn ∉ replaceCrLf [] (replaceLf text) ∧ lineFeed ∉ replaceCrLf [] (replaceLf text) := by
  rw [replaceCrLf_replaceLf _ h]
  constructor
  · intro hmem
    rcases List.mem_flatMap.mp hmem with ⟨unit, hunit, hin⟩
    split at hin
    · cases hin
    · exact h (List.mem_singleton.mp hin ▸ hunit)
  · intro hmem
    rcases List.mem_flatMap.mp hmem with ⟨unit, _, hin⟩
    split at hin
    · cases hin
    · next hne => exact hne (List.mem_singleton.mp hin).symm

theorem normalizeCrLf_ne_nil (h : text ≠ []) : normalizeCrLf text ≠ [] := by
  unfold normalizeCrLf
  fun_cases replaceCrLf [lineFeed] text with
  | case1 => exact absurd rfl h
  | case2 => exact List.cons_ne_nil _ _
  | case3 => exact List.cons_ne_nil _ _
  | case4 => exact List.cons_ne_nil _ _

theorem suffix_replaceLf (h : [lineFeed] <:+ text) :
    [carriageReturn, lineFeed] <:+ replaceLf text := by
  rcases h with ⟨before, rfl⟩
  unfold replaceLf
  rw [List.flatMap_append]
  exact List.suffix_append _ _

/-- A text that is ended with a line feed where it is asked for. -/
theorem ended_spec {normalized ended : JsString} {ends : Bool}
    (h : (if 0 < normalized.length ∧ ends = true ∧ ¬[lineFeed].isSuffixOf normalized = true then
      normalized ++ [lineFeed] else normalized) = ended) (hreturn : carriageReturn ∉ normalized) :
    carriageReturn ∉ ended ∧ (normalized ≠ [] → ends = true → [lineFeed] <:+ ended)
      ∧ (ended = normalized
        ∨ normalized ≠ [] ∧ ends = true ∧ ¬[lineFeed] <:+ normalized
          ∧ ended = normalized ++ [lineFeed]) := by
  simp only [List.isSuffixOf_iff_suffix] at h
  split at h
  · next hadd =>
    rw [← h]
    refine ⟨?_, fun _ _ => List.suffix_append _ _,
      .inr ⟨List.ne_nil_of_length_pos hadd.1, hadd.2.1, hadd.2.2, rfl⟩⟩
    rw [List.mem_append, not_or]
    exact ⟨hreturn, by decide⟩
  · next hadd =>
    rw [← h]
    refine ⟨hreturn, fun hne hends => ?_, .inl rfl⟩
    rw [not_and, not_and, not_not] at hadd
    exact hadd (List.length_pos_of_ne_nil hne) hends

theorem ne_nil_of_normalizeCrLf (h : normalizeCrLf text ≠ []) : text ≠ [] := by
  rintro rfl
  exact h rfl

theorem normalizeFullFileContent_some {baseText content candidateText : JsString}
    (h : normalizeFullFileContent baseText content = some candidateText) :
    KeepsStyle baseText content candidateText := by
  unfold normalizeFullFileContent at h
  dsimp only at h
  split at h
  · cases h
  split at h
  · cases h
  split at h
  · cases h
  rename_i hunits
  rw [not_or] at hunits
  -- the base decides between the two line endings
  by_cases hcrLf : [carriageReturn, lineFeed] <:+: baseText
  · simp only [if_pos hcrLf, Option.ite_none_right_eq_some] at h
    have hspec := @ended_spec (normalizeCrLf content) _
      ([carriageReturn, lineFeed].isSuffixOf baseText) rfl hunits.1
    rcases Option.some.inj h.2 with rfl
    have hback := normalizeCrLf_replaceLf hspec.1
    refine ⟨?_, fun hne hends => ?_, ?_⟩
    · rw [if_pos hcrLf]
      exact no_lone_ending_replaceLf hspec.1
    · unfold lineEnding at hends ⊢
      rw [if_pos hcrLf] at hends ⊢
      exact suffix_replaceLf (hspec.2.1 (normalizeCrLf_ne_nil hne)
        (List.isSuffixOf_iff_suffix.mpr hends))
    · unfold lineEnding
      rw [if_pos hcrLf, hback]
      exact hspec.2.2.imp_right fun ⟨hne, hends, hadd⟩ =>
        ⟨ne_nil_of_normalizeCrLf hne, List.isSuffixOf_iff_suffix.mp hends, hadd⟩
  · simp only [if_neg hcrLf, Option.ite_none_right_eq_some] at h
    have hspec := @ended_spec (normalizeCrLf content) _ ([lineFeed].isSuffixOf baseText) rfl
      hunits.1
    rcases Option.some.inj h.2 with rfl
    have hback := normalizeCrLf_eq_self hspec.1
    refine ⟨?_, fun hne hends => ?_, ?_⟩
    · rw [if_neg hcrLf]
      exact hspec.1
    · unfold lineEnding at hends ⊢
      rw [if_neg hcrLf] at hends ⊢
      exact hspec.2.1 (normalizeCrLf_ne_nil hne) (List.isSuffixOf_iff_suffix.mpr hends)
    · unfold lineEnding
      rw [if_neg hcrLf, hback]
      exact hspec.2.2.imp_right fun ⟨hne, hends, hadd⟩ =>
        ⟨ne_nil_of_normalizeCrLf hne, List.isSuffixOf_iff_suffix.mp hends, hadd⟩

end Toss.Web.Assistant
