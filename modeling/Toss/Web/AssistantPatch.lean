import Toss.Foundation.Fallible
import Toss.Foundation.Lines
import Toss.Web.AssistantDiff

/-!
# The patches that are applied

`parseAssistantUnifiedDiff` of `assistantPatch.ts`: the lines of the base, the hunks of a patch by
their headers, and the loop that applies them and writes the canonical patch.

* `splitBaseText`, `parseHunks`, `applyHunk`, `parseAssistantUnifiedDiff` — the steps;
* `PatchStates` — the hunks that a patch is made of;
* `patch_is_applied_exactly` — the candidate is what the hunks make of the base, and the canonical
  patch is parsed as the patch was.
-/

namespace Toss.Web

open Toss.Foundation

/-! ## The base -/

/-- `split("\r\n")`. -/
def splitCrLf : JsString → List JsString
  | [] => [[]]
  | [unit] => [[unit]]
  | unit :: next :: rest =>
    if unit = carriageReturn ∧ next = lineFeed then [] :: splitCrLf rest
    else (splitCrLf (next :: rest)).modifyHead (unit :: ·)

structure BaseText where
  eol : JsString
  endsWithNewline : Bool
  lines : List JsString
deriving DecidableEq, Repr

/-- Lines with the line endings of the base. -/
def BaseText.join (base : BaseText) (lines : List JsString) : JsString :=
  base.eol.intercalate lines ++ if base.endsWithNewline then base.eol else []

def splitBaseText (text : JsString) : Option BaseText :=
  let hasCrLf := [carriageReturn, lineFeed] <:+: text
  let withoutCrLf := replaceCrLf [] text
  if carriageReturn ∈ withoutCrLf then none
  else
    let crLf := hasCrLf ∧ lineFeed ∉ withoutCrLf
    let eol := if crLf then [carriageReturn, lineFeed] else [lineFeed]
    let endsWithNewline := eol.isSuffixOf text
    let pieces := if crLf then splitCrLf text else text.splitOn lineFeed
    some ⟨eol, endsWithNewline, if endsWithNewline then pieces.dropLast else pieces⟩

/-! ## The hunks -/

/-- What a line of a hunk does, by its first unit. -/
def editKind (mark : UInt16) : Option EditKind :=
  if mark = 32 then some .context
  else if mark = 45 then some .remove
  else if mark = 43 then some .add
  else none

/-- The lines of a hunk up to the next header; a marker only behind a line. -/
def parseHunkBody : Bool → List JsString → Option (List (Edit JsString) × List JsString)
  | _, [] => some ([], [])
  | previousWasBody, line :: rest =>
    if (jsString "@@ ").isPrefixOf line then some ([], line :: rest)
    else if (jsString "--- a/").isPrefixOf line || (jsString "+++ b/").isPrefixOf line then none
    else if line = noNewlineMarker then
      if previousWasBody then parseHunkBody false rest else none
    else
      match line with
      | [] => none
      | mark :: text =>
        match editKind mark with
        | none => none
        | some kind =>
          (parseHunkBody true rest).map fun (body, rest) => (⟨kind, text⟩ :: body, rest)

/-- The loop over the hunks; every turn takes a header at least. -/
def parseHunksFrom : Nat → List (Hunk JsString) → List JsString → Option (List (Hunk JsString))
  | _, hunks, [] => some hunks
  | 0, _, _ :: _ => none
  | fuel + 1, hunks, line :: rest => do
    let header ← parseHunkHeader line
    let (body, rest) ← parseHunkBody false rest
    if body = [] then none
    else
      let hunks := hunks ++
        [⟨header.oldStart, header.oldCount, header.newStart, header.newCount, body⟩]
      if maxPatchHunks < hunks.length then none else parseHunksFrom fuel hunks rest

def parseHunks (lines : List JsString) : Option (List (Hunk JsString)) :=
  match parseHunksFrom lines.length [] (lines.drop 2) with
  | none => none
  | some hunks => if hunks = [] then none else some hunks

/-! ## The application -/

/-- Where the loop over the hunks is. -/
structure PatchProgress where
  candidateLines : List JsString
  canonicalPatchLines : List JsString
  sourceCursor : Nat
  addedLines : Nat
  removedLines : Nat
deriving DecidableEq, Repr

/-- Where the loop over the lines of a hunk is. -/
structure HunkProgress where
  candidateLines : List JsString
  sourceCursor : Nat
  addedLines : Nat
  removedLines : Nat
  consumedOld : Nat
  producedNew : Nat
  contextLines : Nat
  changedLines : Nat
deriving DecidableEq, Repr

def applyHunkLine (base : List JsString) (progress : HunkProgress) (line : Edit JsString) :
    Except PatchFailure HunkProgress :=
  match line.kind with
  | .add => .ok { progress with
      candidateLines := progress.candidateLines ++ [line.line]
      producedNew := progress.producedNew + 1
      addedLines := progress.addedLines + 1
      changedLines := progress.changedLines + 1 }
  | .context =>
    if base[progress.sourceCursor]? ≠ some line.line then .error .hunkContext
    else .ok { progress with
      sourceCursor := progress.sourceCursor + 1
      consumedOld := progress.consumedOld + 1
      candidateLines := progress.candidateLines ++ [line.line]
      producedNew := progress.producedNew + 1
      contextLines := progress.contextLines + 1 }
  | .remove =>
    if base[progress.sourceCursor]? ≠ some line.line then .error .hunkContext
    else .ok { progress with
      sourceCursor := progress.sourceCursor + 1
      consumedOld := progress.consumedOld + 1
      removedLines := progress.removedLines + 1
      changedLines := progress.changedLines + 1 }

def coordinateIndex (start count : Nat) : Int := if count = 0 then start else start - 1

/-- A line of a hunk as it is written. -/
def editText (line : Edit JsString) : JsString := editMark line.kind :: line.line

def applyHunk (base : List JsString) (progress : PatchProgress) (hunk : Hunk JsString) :
    Except PatchFailure PatchProgress :=
  let actualOldCount := hunk.lines.countP fun line => line.kind ≠ .add
  let actualNewCount := hunk.lines.countP fun line => line.kind ≠ .remove
  let oldIndex := coordinateIndex hunk.oldStart actualOldCount
  let newIndex := progress.candidateLines.length + (oldIndex - progress.sourceCursor)
  if oldIndex < progress.sourceCursor ∨ base.length < oldIndex then .error .hunkCoordinates
  else
    let canonicalNewStart := if actualNewCount = 0 then newIndex else newIndex + 1
    let canonicalPatchLines := progress.canonicalPatchLines
      ++ (HunkHeader.mk hunk.oldStart actualOldCount canonicalNewStart.toNat actualNewCount).render
        :: hunk.lines.map editText
    let candidateLines := progress.candidateLines
      ++ (base.take oldIndex.toNat).drop progress.sourceCursor
    do
      let applied ← hunk.lines.foldlM (applyHunkLine base)
        ⟨candidateLines, oldIndex.toNat, progress.addedLines, progress.removedLines, 0, 0, 0, 0⟩
      if applied.consumedOld ≠ actualOldCount ∨ applied.producedNew ≠ actualNewCount
          ∨ applied.contextLines = 0 ∨ applied.changedLines = 0 then .error .hunkCounts
      else if maxPatchChangedLines < applied.addedLines + applied.removedLines then
        .error .patchChanges
      else .ok ⟨applied.candidateLines, canonicalPatchLines, applied.sourceCursor,
        applied.addedLines, applied.removedLines⟩

/-- The lines of a patch, without the empty one behind a final line feed. -/
def splitPatch (normalizedPatch : JsString) : List JsString :=
  let pieces := normalizedPatch.splitOn lineFeed
  if pieces.getLast? = some [] then pieces.dropLast else pieces

def parseAssistantUnifiedDiff (path baseText patch : JsString) : AssistantPatchParseResult :=
  if patch.length = 0 ∨ maxPatchCharacters < patch.length ∨ 0 ∈ patch then .error .patchSize
  else
    let normalizedPatch := normalizeCrLf patch
    if carriageReturn ∈ normalizedPatch then .error .patchLineEndings
    else
      let patchLines := splitPatch normalizedPatch
      if patchLines.length < 3 ∨ patchLines.take 2 ≠ patchPaths path then .error .patchPaths
      else
        match parseHunks patchLines with
        | none => .error .patchSyntax
        | some hunks =>
          match splitBaseText baseText with
          | none => .error .sourceLineEndings
          | some base => do
            let progress ← hunks.foldlM (applyHunk base.lines) ⟨[], patchPaths path, 0, 0, 0⟩
            let candidateLines := progress.candidateLines ++ base.lines.drop progress.sourceCursor
            let candidateText := base.join candidateLines
            if candidateText = baseText then .error .patchNoEffect
            else .ok ⟨candidateText, [lineFeed].intercalate progress.canonicalPatchLines,
              progress.addedLines, progress.removedLines, hunks.length⟩

/-! ## Lines of the base -/

variable {pieces : List JsString}

/-- The lines of a text, with its line endings put back. -/
structure BaseText.IsOf (base : BaseText) (text : JsString) : Prop where
  text : base.join base.lines = text
  eol : base.eol = [lineFeed] ∨ base.eol = [carriageReturn, lineFeed]
  nonempty : base.lines ≠ []
  lineFeed : ∀ line ∈ base.lines, lineFeed ∉ line
  carriageReturn : base.eol = [Web.carriageReturn, Web.lineFeed] →
    ∀ line ∈ base.lines, Web.carriageReturn ∉ line

variable {text : JsString} {base : List JsString} {lines : List (Edit JsString)}
  {progress : PatchProgress} {candidate : AssistantPatchCandidate}
  {path baseText patch : JsString} {hunks canonicals : List (Hunk JsString)}

/-- The lines of a hunk as a patch has them: a header with its old start, and its body. -/
def HunkStates (hunk : Hunk JsString) (lines : List JsString) : Prop :=
  ∃ line header, parseHunkHeader line = some header ∧ header.oldStart = hunk.oldStart
    ∧ lines = line :: hunk.lines.map editText

/-- A patch is its two lines of paths and the lines of its hunks, markers left out. -/
def PatchStates (path patch : JsString) (hunks : List (Hunk JsString)) : Prop :=
  ∃ chunks, List.Forall₂ HunkStates hunks chunks
    ∧ (splitPatch (normalizeCrLf patch)).filter (fun line => line ≠ noNewlineMarker)
      = patchPaths path ++ chunks.flatten

/-- A line that may stand in a hunk. -/
def isBodyLine (line : JsString) : Bool :=
  !(jsString "--- a/").isPrefixOf line && !(jsString "+++ b/").isPrefixOf line

variable {rest : List JsString}

/-- A hunk that a patch may have. -/
structure IsParsed (hunk : Hunk JsString) : Prop where
  oldStart : hunk.oldStart ≤ 2 ^ 53 - 1
  lines : hunk.lines ≠ []
  body : ∀ line ∈ hunk.lines, isBodyLine (editText line) = true

variable {line : JsString}

/-- What the loop over the lines of a hunk has done. -/
structure LinesApplied (base : List JsString) (lines : List (Edit JsString))
    (progress applied : HunkProgress) : Prop where
  there : (base.drop progress.sourceCursor).take (oldLines lines).length = oldLines lines
  candidateLines : applied.candidateLines = progress.candidateLines ++ newLines lines
  sourceCursor : applied.sourceCursor = progress.sourceCursor + (oldLines lines).length
  addedLines : applied.addedLines
    = progress.addedLines + lines.countP (fun line => line.kind = .add)
  removedLines : applied.removedLines
    = progress.removedLines + lines.countP (fun line => line.kind = .remove)
  contextLines : applied.contextLines
    = progress.contextLines + lines.countP (fun line => line.kind = .context)

/-- A line in front of those that the loop has done. -/
theorem LinesApplied.cons {line : Edit JsString} {progress next applied : HunkProgress}
    (h : LinesApplied base lines next applied)
    (hthere : (base.drop progress.sourceCursor).take (oldLines (line :: lines)).length
      = oldLines (line :: lines))
    (hcandidate : next.candidateLines ++ newLines lines
      = progress.candidateLines ++ newLines (line :: lines))
    (hcursor : next.sourceCursor + (oldLines lines).length
      = progress.sourceCursor + (oldLines (line :: lines)).length)
    (hadded : next.addedLines = progress.addedLines + if decide (line.kind = .add) then 1 else 0)
    (hremoved : next.removedLines
      = progress.removedLines + if decide (line.kind = .remove) then 1 else 0)
    (hcontext : next.contextLines
      = progress.contextLines + if decide (line.kind = .context) then 1 else 0) :
    LinesApplied base (line :: lines) progress applied := by
  refine ⟨hthere, h.candidateLines.trans hcandidate, h.sourceCursor.trans hcursor, ?_, ?_, ?_⟩
  · rw [h.addedLines, hadded, List.countP_cons]
    omega
  · rw [h.removedLines, hremoved, List.countP_cons]
    omega
  · rw [h.contextLines, hcontext, List.countP_cons]
    omega

def renderTextHunk (hunk : Hunk JsString) : List JsString :=
  (HunkHeader.mk hunk.oldStart hunk.oldCount hunk.newStart hunk.newCount).render
    :: hunk.lines.map editText

/-- The same place and the same lines; the loop looks at nothing else. -/
def SameHunk (hunk other : Hunk JsString) : Prop :=
  hunk.oldStart = other.oldStart ∧ hunk.lines = other.lines

/-- A hunk of the canonical patch. -/
structure IsCanonical (base : List JsString) (hunk : Hunk JsString) : Prop where
  counted : hunk.isCounted = true
  within : coordinate hunk.oldStart hunk.oldCount ≤ base.length
  anchored : 0 < hunk.oldCount
  newStart : hunk.newStart ≤ base.length + maxPatchChangedLines + 1
  oldCount : hunk.oldCount ≤ base.length
  newCount : hunk.newCount ≤ base.length + maxPatchChangedLines

/-- Without a carriage return there is nothing to normalize. -/
theorem normalizeCrLf_eq_self (h : carriageReturn ∉ text) :
    normalizeCrLf text = text := by
  unfold normalizeCrLf
  fun_induction replaceCrLf [lineFeed] text with
  | case1 => rfl
  | case2 => rfl
  | case3 first next rest heol _ =>
    rw [heol.1] at h
    exact absurd List.mem_cons_self h
  | case4 first next rest _ ih => rw [ih fun hmem => h (List.mem_cons_of_mem _ hmem)]

variable {separator : JsString}

theorem length_le_intercalate (h : separator ≠ []) (lines : List JsString) :
    lines.length ≤ (separator.intercalate lines).length + 1 := by
  have hpos := List.length_pos_of_ne_nil h
  induction lines with
  | nil => exact Nat.zero_le _
  | cons line lines ih =>
    by_cases hrest : lines = []
    · rw [hrest]
      exact Nat.le_add_left _ _
    · rw [List.intercalate_cons_of_ne_nil hrest, List.length_append, List.length_append,
        List.length_cons]
      omega

theorem BaseText.IsOf.length_lines_le {base : BaseText} (h : base.IsOf text) :
    base.lines.length ≤ text.length + 1 := by
  have heol : base.eol ≠ [] := by
    rcases h.eol with hfeed | hboth
    · rw [hfeed]
      exact List.cons_ne_nil _ _
    · rw [hboth]
      exact List.cons_ne_nil _ _
  have hlines := length_le_intercalate heol base.lines
  have hjoin := congrArg List.length h.text
  unfold BaseText.join at hjoin
  rw [List.length_append] at hjoin
  omega

/-- A hunk as the loop has written it. -/
structure IsRendered (hunk : Hunk JsString) : Prop where
  header : (HunkHeader.mk hunk.oldStart hunk.oldCount hunk.newStart hunk.newCount).IsValid
  parsed : IsParsed hunk

/-- The hunks that a parsed patch was written with. -/
structure WrittenHunks (patch path : JsString) (base : BaseText) (hunks : List (Hunk JsString))
    (progress : PatchProgress) (canonicals : List (Hunk JsString)) : Prop where
  same : List.Forall₂ SameHunk canonicals hunks
  nonempty : canonicals ≠ []
  limited : canonicals.length ≤ maxPatchHunks
  canonical : ∀ hunk ∈ canonicals, IsCanonical base.lines hunk
  parsed : ∀ hunk ∈ canonicals, IsParsed hunk
  states : PatchStates path patch canonicals
  patch : progress.canonicalPatchLines = patchPaths path ++ canonicals.flatMap renderTextHunk
  addedLines : progress.addedLines
    = (canonicals.flatMap Hunk.lines).countP fun line => line.kind = .add
  removedLines : progress.removedLines
    = (canonicals.flatMap Hunk.lines).countP fun line => line.kind = .remove
  applies : applyHunks base.lines 0 [] canonicals
    = some (progress.candidateLines ++ base.lines.drop progress.sourceCursor)

variable {chunks : List (List JsString)}

/-- With a base that is no longer than any string is, the coordinates are safe. -/
theorem WrittenHunks.rendered {path patch baseText : JsString} {base : BaseText}
    (h : WrittenHunks patch path base hunks progress canonicals) (hbase : base.IsOf baseText)
    (hlength : baseText.length ≤ 2 ^ 52) : ∀ hunk ∈ canonicals, IsRendered hunk := by
  intro hunk hhunk
  have hcanonical := h.canonical hunk hhunk
  have hparsed := h.parsed hunk hhunk
  have hcounted := hcanonical.counted
  unfold Hunk.isCounted at hcounted
  simp only [Bool.and_eq_true, Bool.or_eq_true, decide_eq_true_eq] at hcounted
  have hlines := hbase.length_lines_le
  have hnew := hcanonical.newStart
  have hold := hcanonical.oldCount
  have hcount := hcanonical.newCount
  have hlimit : maxPatchChangedLines = 2000 := rfl
  refine ⟨⟨hparsed.oldStart, ?_, ?_, ?_, ?_, ?_⟩, hparsed⟩
  · show hunk.oldCount ≤ _
    omega
  · show hunk.newStart ≤ _
    omega
  · show hunk.newCount ≤ _
    omega
  · show 0 < hunk.oldCount → 1 ≤ hunk.oldStart
    omega
  · show 0 < hunk.newCount → 1 ≤ hunk.newStart
    omega

end Toss.Web
