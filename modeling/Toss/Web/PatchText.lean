import Mathlib.Data.List.TakeDrop
import Mathlib.Data.Nat.Digits.Defs
import Toss.Foundation.EditScripts
import Toss.Web.EditorPane

/-!
# Unified diffs as text

The lines of a text and of a patch as `assistantPatch.ts` writes and reads them, and the reading of a
patch that goes by the counts of its hunks, as any other program reads it.

* `replaceCrLf` — line endings;
* `DiffLine`, `joinDiffLines` — lines that know whether they are ended;
* `parseHunkHeader`, `parseHunkHeader_render` — the line that a hunk begins with;
* `readPatch`, `readPatch_render` — a patch that was written is read as its hunks.
-/

namespace Toss.Web

open Toss.Foundation

/-! ## Line endings -/

/-- `replaceAll("\r\n", replacement)`. -/
def replaceCrLf (replacement : JsString) : JsString → JsString
  | [] => []
  | [unit] => [unit]
  | unit :: next :: rest =>
    if unit = carriageReturn ∧ next = lineFeed then replacement ++ replaceCrLf replacement rest
    else unit :: replaceCrLf replacement (next :: rest)

/-- `replaceAll("\r\n", "\n")`. -/
def normalizeCrLf (text : JsString) : JsString := replaceCrLf [lineFeed] text

/-- A line, and whether a line feed ends it. -/
structure DiffLine where
  text : JsString
  terminated : Bool
deriving DecidableEq, Repr

def joinDiffLines (lines : List DiffLine) : JsString :=
  lines.flatMap fun line => line.text ++ if line.terminated then [lineFeed] else []

/-! ## Numbers -/

/-- A number in a template string. -/
def decimalDigits (n : Nat) : JsString :=
  if n = 0 then [48] else (Nat.digits 10 n).reverse.map fun digit => (48 + digit).toUInt16

def isDecimalDigit (unit : UInt16) : Bool := 48 ≤ unit && unit ≤ 57

/-- `Number` of digits, before it is rounded. -/
def readDigits (digits : JsString) : Nat :=
  digits.foldl (fun number unit => number * 10 + (unit.toNat - 48)) 0

/-- `Number.isSafeInteger`; a number that is not safe is not safe after rounding. -/
def isSafeInteger (n : Nat) : Bool := n ≤ 2 ^ 53 - 1

/-! ## Hunk headers -/

structure HunkHeader where
  oldStart : Nat
  oldCount : Nat
  newStart : Nat
  newCount : Nat
deriving DecidableEq, Repr

/-- The text behind a literal part of the pattern. -/
def afterLiteral (literal text : JsString) : Option JsString :=
  if literal.isPrefixOf text then some (text.drop literal.length) else none

/-- `(\d+)`. -/
def matchDigits (text : JsString) : Option (Nat × JsString) :=
  match text.span isDecimalDigit with
  | ([], _) => none
  | (digits, rest) => some (readDigits digits, rest)

/-- `(?:,(\d+))?`. -/
def matchCount (text : JsString) : Option Nat × JsString :=
  match (afterLiteral (jsString ",") text).bind matchDigits with
  | some (count, rest) => (some count, rest)
  | none => (none, text)

/-- `(?: .*)?$`; a dot matches no line terminator. -/
def matchSection : JsString → Bool
  | [] => true
  | unit :: rest =>
    unit = 32 && rest.all fun unit =>
      unit ≠ lineFeed && unit ≠ carriageReturn && unit ≠ 0x2028 && unit ≠ 0x2029

def parseHunkHeader (line : JsString) : Option HunkHeader := do
  let (oldStart, rest) ← (afterLiteral (jsString "@@ -") line).bind matchDigits
  let (oldMatch, rest) := matchCount rest
  let (newStart, rest) ← (afterLiteral (jsString " +") rest).bind matchDigits
  let (newMatch, rest) := matchCount rest
  let rest ← afterLiteral (jsString " @@") rest
  let oldCount := oldMatch.getD 1
  let newCount := newMatch.getD 1
  if !matchSection rest then none
  else if !isSafeInteger oldStart || !isSafeInteger oldCount || !isSafeInteger newStart
      || !isSafeInteger newCount || (0 < oldCount && oldStart < 1) || (0 < newCount && newStart < 1)
    then none
  else some ⟨oldStart, oldCount, newStart, newCount⟩

def HunkHeader.render (header : HunkHeader) : JsString :=
  jsString "@@ -" ++ decimalDigits header.oldStart ++ jsString "," ++ decimalDigits header.oldCount
    ++ jsString " +" ++ decimalDigits header.newStart ++ jsString "," ++ decimalDigits header.newCount
    ++ jsString " @@"

/-- A header that is not refused. -/
structure HunkHeader.IsValid (header : HunkHeader) : Prop where
  oldSafe : header.oldStart ≤ 2 ^ 53 - 1
  oldCountSafe : header.oldCount ≤ 2 ^ 53 - 1
  newSafe : header.newStart ≤ 2 ^ 53 - 1
  newCountSafe : header.newCount ≤ 2 ^ 53 - 1
  oldFirst : 0 < header.oldCount → 1 ≤ header.oldStart
  newFirst : 0 < header.newCount → 1 ≤ header.newStart

theorem isDecimalDigit_digit {digit : Nat} (h : digit < 10) :
    isDecimalDigit (48 + digit).toUInt16 = true := by
  have hevery : ∀ digit : Fin 10, isDecimalDigit (48 + digit.val).toUInt16 = true := by decide
  exact hevery ⟨digit, h⟩

theorem toNat_digit {digit : Nat} (h : digit < 10) : (48 + digit).toUInt16.toNat - 48 = digit := by
  have hevery : ∀ digit : Fin 10, (48 + digit.val).toUInt16.toNat - 48 = digit.val := by decide
  exact hevery ⟨digit, h⟩

theorem isDecimalDigit_decimalDigits {n : Nat} {unit : UInt16} (h : unit ∈ decimalDigits n) :
    isDecimalDigit unit = true := by
  unfold decimalDigits at h
  split at h
  · rw [List.mem_singleton.mp h]
    decide
  · rcases List.mem_map.mp h with ⟨digit, hdigit, rfl⟩
    exact isDecimalDigit_digit (Nat.digits_lt_base (by omega) (List.mem_reverse.mp hdigit))

theorem decimalDigits_ne_nil (n : Nat) : decimalDigits n ≠ [] := by
  unfold decimalDigits
  split
  · exact List.cons_ne_nil _ _
  · next hne =>
    rw [ne_eq, List.map_eq_nil_iff, List.reverse_eq_nil_iff, Nat.digits_eq_nil_iff_eq_zero]
    exact hne

theorem readDigits_decimalDigits (n : Nat) : readDigits (decimalDigits n) = n := by
  unfold decimalDigits
  split
  · next hzero =>
    rw [hzero]
    rfl
  have hdigits : ∀ digit ∈ Nat.digits 10 n, digit < 10 :=
    fun digit hdigit => Nat.digits_lt_base (by omega) hdigit
  have hread : ∀ digits : List Nat, (∀ digit ∈ digits, digit < 10) →
      readDigits (digits.reverse.map fun digit => (48 + digit).toUInt16)
        = Nat.ofDigits 10 digits := by
    intro digits
    induction digits with
    | nil => exact fun _ => rfl
    | cons digit digits ih =>
      intro hbound
      have hrest := ih fun other hother => hbound other (List.mem_cons_of_mem _ hother)
      unfold readDigits at hrest ⊢
      rw [List.reverse_cons, List.map_append, List.foldl_append, hrest, Nat.ofDigits_cons]
      show Nat.ofDigits 10 digits * 10 + _ = _
      rw [toNat_digit (hbound digit List.mem_cons_self), Nat.mul_comm, Nat.add_comm]
  rw [hread _ hdigits, Nat.ofDigits_digits]

theorem afterLiteral_append (literal text : JsString) :
    afterLiteral literal (literal ++ text) = some text := by
  unfold afterLiteral
  rw [if_pos (List.isPrefixOf_iff_prefix.mpr (List.prefix_append _ _)), List.drop_left]

/-- Digits before a unit that is none. -/
theorem matchDigits_append (n : Nat) {rest : JsString}
    (h : ∀ unit, rest.head? = some unit → isDecimalDigit unit = false) :
    matchDigits (decimalDigits n ++ rest) = some (n, rest) := by
  have htake : (decimalDigits n ++ rest).takeWhile isDecimalDigit = decimalDigits n := by
    rw [List.takeWhile_append_of_pos fun unit hunit => isDecimalDigit_decimalDigits hunit]
    cases rest with
    | nil => exact List.append_nil _
    | cons unit rest => rw [List.takeWhile_cons, h unit rfl, if_neg Bool.false_ne_true, List.append_nil]
  have hdrop : (decimalDigits n ++ rest).dropWhile isDecimalDigit = rest := by
    rw [List.dropWhile_append_of_pos fun unit hunit => isDecimalDigit_decimalDigits hunit]
    cases rest with
    | nil => rfl
    | cons unit rest => rw [List.dropWhile_cons, h unit rfl, if_neg Bool.false_ne_true]
  unfold matchDigits
  rw [List.span_eq_takeWhile_dropWhile, htake, hdrop]
  cases hdigits : decimalDigits n with
  | nil => exact absurd hdigits (decimalDigits_ne_nil n)
  | cons digit digits =>
    show some (readDigits (digit :: digits), rest) = _
    rw [← hdigits, readDigits_decimalDigits]

theorem matchCount_append (n : Nat) {rest : JsString}
    (h : ∀ unit, rest.head? = some unit → isDecimalDigit unit = false) :
    matchCount (jsString "," ++ decimalDigits n ++ rest) = (some n, rest) := by
  unfold matchCount
  rw [List.append_assoc, afterLiteral_append]
  show (match matchDigits (decimalDigits n ++ rest) with
    | some (count, rest) => (some count, rest)
    | none => (none, _)) = _
  rw [matchDigits_append n h]

/-- A header that was written is read as it was. -/
theorem parseHunkHeader_render {header : HunkHeader} (h : header.IsValid) :
    parseHunkHeader header.render = some header := by
  have hcomma : ∀ (rest : JsString) unit, (jsString "," ++ rest).head? = some unit →
      isDecimalDigit unit = false := by
    intro rest unit hunit
    cases hunit
    decide
  have hplus : ∀ (rest : JsString) unit, (jsString " +" ++ rest).head? = some unit →
      isDecimalDigit unit = false := by
    intro rest unit hunit
    cases hunit
    decide
  have hend : ∀ unit, (jsString " @@").head? = some unit → isDecimalDigit unit = false := by
    intro unit hunit
    cases hunit
    decide
  unfold parseHunkHeader HunkHeader.render
  simp only [List.append_assoc, afterLiteral_append, Option.bind_eq_bind, Option.bind_some]
  rw [matchDigits_append _ (hcomma _)]
  simp only [Option.bind_some]
  rw [← List.append_assoc (jsString ","), matchCount_append _ (hplus _)]
  simp only [afterLiteral_append, Option.bind_some]
  rw [matchDigits_append _ (hcomma _)]
  simp only [Option.bind_some]
  rw [← List.append_assoc (jsString ","), matchCount_append _ hend]
  have hsection : afterLiteral (jsString " @@") (jsString " @@") = some [] := by decide
  simp only [hsection, Option.bind_some, Option.getD_some]
  rw [if_neg (by decide), if_neg]
  · simp only [isSafeInteger, Bool.or_eq_true, Bool.not_eq_true', decide_eq_false_iff_not,
      Bool.and_eq_true, decide_eq_true_eq, not_or, not_and, not_not, not_lt]
    exact ⟨⟨⟨⟨⟨h.oldSafe, h.oldCountSafe⟩, h.newSafe⟩, h.newCountSafe⟩, h.oldFirst⟩, h.newFirst⟩

/-! ## Patches -/

def noNewlineMarker : JsString := jsString "\\ No newline at end of file"

/-- A unit in front of a line. -/
def editMark : EditKind → UInt16
  | .context => 32
  | .remove => 45
  | .add => 43

/-- `renderDiffOperation`. -/
def renderDiffOperation (operation : Edit DiffLine) : List JsString :=
  if operation.line.terminated then [editMark operation.kind :: operation.line.text]
  else [editMark operation.kind :: operation.line.text, noNewlineMarker]

/-- The lines of a patch, each with the marker behind it. -/
def markLines : List JsString → List DiffLine
  | [] => []
  | [line] => [⟨line, true⟩]
  | line :: next :: rest =>
    if next.head? = some 92 then ⟨line, false⟩ :: markLines rest
    else ⟨line, true⟩ :: markLines (next :: rest)

/-- The lines of a hunk, as many as its counts say, and what is behind them. -/
def readHunkLines : List DiffLine → Nat → Nat → Option (List (Edit DiffLine) × List DiffLine)
  | [], old, new => if old = 0 ∧ new = 0 then some ([], []) else none
  | line :: rest, old, new =>
    if old = 0 ∧ new = 0 then some ([], line :: rest)
    else
      match line.text with
      | [] => none
      | mark :: text =>
        let read := fun kind (more : Option (List (Edit DiffLine) × List DiffLine)) =>
          more.map fun (lines, rest) => (⟨kind, ⟨text, line.terminated⟩⟩ :: lines, rest)
        if mark = 32 then
          if 0 < old ∧ 0 < new then read .context (readHunkLines rest (old - 1) (new - 1)) else none
        else if mark = 45 then
          if 0 < old then read .remove (readHunkLines rest (old - 1) new) else none
        else if mark = 43 then
          if 0 < new then read .add (readHunkLines rest old (new - 1)) else none
        else none

def readHunks : Nat → List DiffLine → Option (List (Hunk DiffLine))
  | _, [] => some []
  | 0, _ :: _ => none
  | fuel + 1, line :: rest => do
    let header ← parseHunkHeader line.text
    let (lines, rest) ← readHunkLines rest header.oldCount header.newCount
    let hunks ← readHunks fuel rest
    return ⟨header.oldStart, header.oldCount, header.newStart, header.newCount, lines⟩ :: hunks

/-- The hunks of a patch behind its two lines of paths. -/
def readPatch (body : JsString) : Option (List (Hunk DiffLine)) :=
  let lines := markLines (body.splitOn lineFeed)
  readHunks lines.length lines

/-! ### What was written -/

def hunkHeader (hunk : Hunk DiffLine) : HunkHeader :=
  ⟨hunk.oldStart, hunk.oldCount, hunk.newStart, hunk.newCount⟩

def renderHunk (hunk : Hunk DiffLine) : List JsString :=
  (hunkHeader hunk).render :: hunk.lines.flatMap renderDiffOperation

/-- A line of a hunk, as it is read. -/
def markedLine (operation : Edit DiffLine) : DiffLine :=
  ⟨editMark operation.kind :: operation.line.text, operation.line.terminated⟩

def markedHunk (hunk : Hunk DiffLine) : List DiffLine :=
  ⟨(hunkHeader hunk).render, true⟩ :: hunk.lines.map markedLine

/-- Lines of which the first one is no marker. -/
def startsLine (lines : List JsString) : Prop :=
  ∀ line, lines.head? = some line → line.head? ≠ some 92

theorem startsLine_renderDiffOperation (operation : Edit DiffLine) (rest : List JsString) :
    startsLine (renderDiffOperation operation ++ rest) := by
  have hmark : editMark operation.kind ≠ 92 := by
    cases operation.kind with
    | context | remove | add => decide
  intro line hline
  have hfirst : line = editMark operation.kind :: operation.line.text := by
    unfold renderDiffOperation at hline
    split at hline
    · exact (Option.some.inj hline).symm
    · exact (Option.some.inj hline).symm
  rw [hfirst]
  exact fun heq => hmark (Option.some.inj heq)

theorem startsLine_header (header : HunkHeader) (rest : List JsString) :
    startsLine (header.render :: rest) := by
  intro line hline
  cases hline
  have hfirst : header.render.head? = some 64 := by
    unfold HunkHeader.render
    rw [List.append_assoc, List.append_assoc, List.append_assoc, List.append_assoc,
      List.append_assoc, List.append_assoc, List.append_assoc]
    rfl
  rw [hfirst]
  decide

variable {rest : List JsString}

theorem markLines_cons {line : JsString} (h : startsLine rest) :
    markLines (line :: rest) = ⟨line, true⟩ :: markLines rest := by
  cases rest with
  | nil => rfl
  | cons next rest => rw [markLines, if_neg (h next rfl)]

theorem markLines_operation (operation : Edit DiffLine) (h : startsLine rest) :
    markLines (renderDiffOperation operation ++ rest) = markedLine operation :: markLines rest := by
  unfold renderDiffOperation markedLine
  cases hterminated : operation.line.terminated with
  | true =>
    rw [if_pos rfl]
    exact markLines_cons h
  | false =>
    rw [if_neg Bool.false_ne_true]
    show markLines (_ :: noNewlineMarker :: rest) = _
    rw [markLines, if_pos (by decide)]

theorem markLines_operations (operations : List (Edit DiffLine)) (h : startsLine rest) :
    startsLine (operations.flatMap renderDiffOperation ++ rest)
      ∧ markLines (operations.flatMap renderDiffOperation ++ rest)
        = operations.map markedLine ++ markLines rest := by
  induction operations with
  | nil => exact ⟨h, rfl⟩
  | cons operation operations ih =>
    rw [List.flatMap_cons, List.append_assoc]
    refine ⟨startsLine_renderDiffOperation operation _, ?_⟩
    rw [markLines_operation operation ih.1, ih.2]
    rfl

theorem markLines_hunks (hunks : List (Hunk DiffLine)) :
    startsLine (hunks.flatMap renderHunk)
      ∧ markLines (hunks.flatMap renderHunk) = hunks.flatMap markedHunk := by
  induction hunks with
  | nil => exact ⟨nofun, rfl⟩
  | cons hunk hunks ih =>
    have hlines := markLines_operations hunk.lines ih.1
    rw [List.flatMap_cons, List.flatMap_cons, renderHunk, List.cons_append]
    refine ⟨startsLine_header _ _, ?_⟩
    rw [markLines_cons hlines.1, hlines.2, ih.2]
    rfl

/-- The lines of a hunk are read by their counts. -/
theorem readHunkLines_marked (operations : List (Edit DiffLine)) (rest : List DiffLine) :
    readHunkLines (operations.map markedLine ++ rest) (oldLines operations).length
      (newLines operations).length = some (operations, rest) := by
  induction operations with
  | nil =>
    rw [List.map_nil, List.nil_append]
    cases rest with
    | nil => rfl
    | cons line rest => rfl
  | cons operation operations ih =>
    rcases operation with ⟨kind, text, terminated⟩
    rw [List.map_cons, List.cons_append]
    cases kind with
    | context =>
      rw [oldLines_context, newLines_context, List.length_cons, List.length_cons, readHunkLines,
        if_neg (by omega)]
      dsimp only [markedLine, editMark]
      rw [if_pos rfl, if_pos ⟨Nat.succ_pos _, Nat.succ_pos _⟩, Nat.add_sub_cancel, Nat.add_sub_cancel, ih]
      rfl
    | remove =>
      rw [oldLines_remove, newLines_remove, List.length_cons, readHunkLines, if_neg (by omega)]
      dsimp only [markedLine, editMark]
      rw [if_neg (by decide), if_pos rfl, if_pos (Nat.succ_pos _), Nat.add_sub_cancel, ih]
      rfl
    | add =>
      rw [oldLines_add, newLines_add, List.length_cons, readHunkLines, if_neg (by omega)]
      dsimp only [markedLine, editMark]
      rw [if_neg (by decide), if_neg (by decide), if_pos rfl, if_pos (Nat.succ_pos _), Nat.add_sub_cancel, ih]
      rfl

/-- A hunk that can be written. -/
structure IsWritable (hunk : Hunk DiffLine) : Prop where
  header : (hunkHeader hunk).IsValid
  oldCount : hunk.oldCount = (oldLines hunk.lines).length
  newCount : hunk.newCount = (newLines hunk.lines).length
  lines : ∀ operation ∈ hunk.lines, lineFeed ∉ operation.line.text

variable {hunks : List (Hunk DiffLine)}

theorem readHunks_marked (h : ∀ hunk ∈ hunks, IsWritable hunk) {fuel : Nat}
    (hfuel : hunks.length ≤ fuel) : readHunks fuel (hunks.flatMap markedHunk) = some hunks := by
  induction hunks generalizing fuel with
  | nil => cases fuel <;> rfl
  | cons hunk hunks ih =>
    have hfirst := h hunk List.mem_cons_self
    cases fuel with
    | zero => cases hfuel
    | succ fuel =>
      have hrest := ih (fun other hother => h other (List.mem_cons_of_mem _ hother))
        (Nat.le_of_succ_le_succ hfuel)
      have hlines := readHunkLines_marked hunk.lines (hunks.flatMap markedHunk)
      rw [← hfirst.oldCount, ← hfirst.newCount] at hlines
      rw [List.flatMap_cons, markedHunk, List.cons_append, readHunks,
        parseHunkHeader_render hfirst.header]
      show ((readHunkLines _ hunk.oldCount hunk.newCount).bind _) = _
      rw [hlines]
      show ((readHunks fuel _).bind _) = _
      rw [hrest]
      rfl

theorem lineFeed_not_mem_header (header : HunkHeader) : lineFeed ∉ header.render := by
  have hdigits : ∀ n, lineFeed ∉ decimalDigits n := by
    intro n hmem
    exact absurd (isDecimalDigit_decimalDigits hmem) (by decide)
  unfold HunkHeader.render
  simp only [List.mem_append, not_or]
  exact ⟨⟨⟨⟨⟨⟨⟨⟨by decide, hdigits _⟩, by decide⟩, hdigits _⟩, by decide⟩, hdigits _⟩, by decide⟩,
    hdigits _⟩, by decide⟩

theorem lineFeed_not_mem_renderHunk {hunk : Hunk DiffLine} (h : IsWritable hunk) :
    ∀ line ∈ renderHunk hunk, lineFeed ∉ line := by
  intro line hline
  rcases List.mem_cons.mp hline with rfl | hbody
  · exact lineFeed_not_mem_header _
  rcases List.mem_flatMap.mp hbody with ⟨operation, hoperation, hmem⟩
  have htext : lineFeed ∉ editMark operation.kind :: operation.line.text := by
    rw [List.mem_cons, not_or]
    refine ⟨?_, h.lines operation hoperation⟩
    cases operation.kind with
    | context | remove | add => decide
  unfold renderDiffOperation at hmem
  split at hmem
  · rw [List.mem_singleton.mp hmem]
    exact htext
  rcases List.mem_cons.mp hmem with rfl | hmarker
  · exact htext
  · rw [List.mem_singleton.mp hmarker]
    decide

/-- Hunks that were written are read as they were. -/
theorem readPatch_render (h : ∀ hunk ∈ hunks, IsWritable hunk) (hne : hunks ≠ []) :
    readPatch ([lineFeed].intercalate (hunks.flatMap renderHunk)) = some hunks := by
  have hlines : hunks.flatMap renderHunk ≠ [] := by
    cases hunks with
    | nil => exact absurd rfl hne
    | cons hunk hunks => exact List.cons_ne_nil _ _
  unfold readPatch
  rw [List.splitOn_intercalate lineFeed ?_ hlines, (markLines_hunks hunks).2]
  · refine readHunks_marked h ?_
    clear h hne hlines
    induction hunks with
    | nil => exact Nat.zero_le _
    | cons hunk hunks ih =>
      rw [List.flatMap_cons, List.length_append, markedHunk, List.length_cons, List.length_cons]
      omega
  · intro line hline
    rcases List.mem_flatMap.mp hline with ⟨hunk, hhunk, hmem⟩
    exact lineFeed_not_mem_renderHunk (h hunk hhunk) line hmem

end Toss.Web
