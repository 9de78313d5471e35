import Toss.Foundation.Lines
import Toss.Web.PatchText

/-!
# The review diff of a full-file replacement

`createAssistantUnifiedDiff` of `assistantPatch.ts`: a table of common subsequences, a walk along it,
ranges of three lines around what changes, and the hunks of the ranges as text.

* `diffOperations`, `diffHunkRanges`, `createAssistantUnifiedDiff` — the steps;
* `segments_diffHunkRanges` — nothing changes outside the ranges;
* `review_diff_is_faithful` — the patch makes one text the other, with as few changed lines as any.
-/

namespace Toss.Web

open Toss.Foundation

/-! ## Limits and outcomes -/

def maxReadLines : Nat := 400

def maxPatchCharacters : Nat := 131072

def maxPatchHunks : Nat := 64

def maxPatchChangedLines : Nat := 2000

structure AssistantPatchCandidate where
  candidateText : JsString
  canonicalPatch : JsString
  addedLines : Nat
  removedLines : Nat
  hunkCount : Nat
deriving DecidableEq, Repr

/-- The reasons of a failure. -/
inductive PatchFailure
  | patchNoEffect
  | sourceLineEndings
  | patchLines
  | patchHunks
  | patchChanges
  | patchSize
  | patchLineEndings
  | patchPaths
  | patchSyntax
  | hunkCoordinates
  | hunkContext
  | hunkCounts
deriving DecidableEq, Repr

def PatchFailure.reason : PatchFailure → String
  | .patchNoEffect => "patch_no_effect"
  | .sourceLineEndings => "source_line_endings"
  | .patchLines => "patch_lines"
  | .patchHunks => "patch_hunks"
  | .patchChanges => "patch_changes"
  | .patchSize => "patch_size"
  | .patchLineEndings => "patch_line_endings"
  | .patchPaths => "patch_paths"
  | .patchSyntax => "patch_syntax"
  | .hunkCoordinates => "hunk_coordinates"
  | .hunkContext => "hunk_context"
  | .hunkCounts => "hunk_counts"

abbrev AssistantPatchParseResult := Except PatchFailure AssistantPatchCandidate

/-! ## The diff -/

def splitDiffText (text : JsString) : Option (List DiffLine) :=
  let normalized := normalizeCrLf text
  if carriageReturn ∈ normalized then none
  else if normalized = [] then some []
  else
    let endsWithNewline := normalized.getLast? = some lineFeed
    let pieces := normalized.splitOn lineFeed
    let lines := if endsWithNewline then pieces.dropLast else pieces
    some (lines.zipIdx.map fun (line, index) =>
      ⟨line, decide (index < lines.length - 1) || decide endsWithNewline⟩)

/-- A row of the table; an entry is a `Uint16`. -/
def diffRow (line : DiffLine) (below : List DiffLine → Nat) : List DiffLine → Nat
  | [] => 0
  | other :: after =>
    if line = other then (below after + 1) % 2 ^ 16
    else max (below (other :: after)) (diffRow line below after)

/-- The entry of the table for what is left of both texts. -/
def diffLengths : List DiffLine → List DiffLine → Nat
  | [], _ => 0
  | line :: before, after => diffRow line (diffLengths before) after

def diffOperations (before after : List DiffLine) : List (Edit DiffLine) :=
  editWalk diffLengths before after

/-- One turn of the loop over the operations. -/
def extendRanges (operations : List (Edit DiffLine)) (ranges : List (Nat × Nat)) (index : Nat) :
    List (Nat × Nat) :=
  if operations[index]?.any fun operation => operation.kind = .context then ranges
  else
    let start := index - 3
    let stop := min operations.length (index + 3 + 1)
    match ranges.getLast? with
    | some previous =>
      if start ≤ previous.2 then ranges.dropLast ++ [(previous.1, max previous.2 stop)]
      else ranges ++ [(start, stop)]
    | none => ranges ++ [(start, stop)]

def diffHunkRanges (operations : List (Edit DiffLine)) : List (Nat × Nat) :=
  (List.range operations.length).foldl (extendRanges operations) []

/-- The lines of both texts at an operation. -/
def diffPositionBefore (operations : List (Edit DiffLine)) (stop : Nat) : Nat × Nat :=
  (operations.take stop).foldl (fun (oldLine, newLine) operation =>
    (if operation.kind ≠ .add then oldLine + 1 else oldLine,
      if operation.kind ≠ .remove then newLine + 1 else newLine)) (1, 1)

def patchPaths (path : JsString) : List JsString :=
  [jsString "--- a/" ++ path, jsString "+++ b/" ++ path]

/-- The lines of one range. -/
def renderRange (operations : List (Edit DiffLine)) (range : Nat × Nat) : List JsString :=
  let position := diffPositionBefore operations range.1
  let body := (operations.take range.2).drop range.1
  let oldCount := body.countP fun operation => operation.kind ≠ .add
  let newCount := body.countP fun operation => operation.kind ≠ .remove
  let oldStart := if oldCount = 0 then position.1 - 1 else position.1
  let newStart := if newCount = 0 then position.2 - 1 else position.2
  (HunkHeader.mk oldStart oldCount newStart newCount).render :: body.flatMap renderDiffOperation

def createAssistantUnifiedDiff (path baseText candidateText : JsString) :
    AssistantPatchParseResult :=
  if candidateText = baseText then .error .patchNoEffect
  else
    match splitDiffText baseText, splitDiffText candidateText with
    | some before, some after =>
      if maxReadLines < before.length ∨ maxReadLines < after.length then .error .patchLines
      else
        let operations := diffOperations before after
        let ranges := diffHunkRanges operations
        if ranges = [] then .error .patchNoEffect
        else if maxPatchHunks < ranges.length then .error .patchHunks
        else
          let addedLines := operations.countP fun operation => operation.kind = .add
          let removedLines := operations.countP fun operation => operation.kind = .remove
          if maxPatchChangedLines < addedLines + removedLines then .error .patchChanges
          else
            let canonicalPatch :=
              [lineFeed].intercalate (patchPaths path ++ ranges.flatMap (renderRange operations))
            if maxPatchCharacters < canonicalPatch.length then .error .patchSize
            else .ok ⟨candidateText, canonicalPatch, addedLines, removedLines, ranges.length⟩
    | _, _ => .error .sourceLineEndings

/-! ## Lines -/

/-- Lines of which all but the last are ended. -/
theorem joinDiffLines_unended {pieces : List JsString} (h : pieces ≠ []) (first : Nat) :
    joinDiffLines ((pieces.zipIdx first).map fun (line, index) =>
      ⟨line, decide (index < first + pieces.length - 1)⟩) = [lineFeed].intercalate pieces := by
  induction pieces generalizing first with
  | nil => exact absurd rfl h
  | cons piece rest ih =>
    rw [List.zipIdx_cons, List.map_cons, joinDiffLines, List.flatMap_cons]
    by_cases hrest : rest = []
    · rw [hrest]
      simp [List.intercalate]
    have hlength : first + (piece :: rest).length - 1 = first + 1 + rest.length - 1 := by
      rw [List.length_cons]
      omega
    have hpos := List.length_pos_of_ne_nil hrest
    have hended : decide (first < first + 1 + rest.length - 1) = true :=
      decide_eq_true (by omega)
    have hjoin := ih hrest (first + 1)
    rw [joinDiffLines] at hjoin
    rw [hlength, if_pos hended, hjoin, List.intercalate_cons_of_ne_nil hrest]

/-- Lines that are all ended. -/
theorem joinDiffLines_ended (pieces : List JsString) :
    joinDiffLines (pieces.map fun line => ⟨line, true⟩)
      = [lineFeed].intercalate (pieces ++ [[]]) := by
  induction pieces with
  | nil => rfl
  | cons piece pieces ih =>
    have hne : pieces ++ [[]] ≠ [] := List.append_ne_nil_of_right_ne_nil _ (List.cons_ne_nil _ _)
    rw [List.cons_append, List.intercalate_cons_of_ne_nil hne, ← ih]
    simp [joinDiffLines]

theorem splitDiffText_some {text : JsString} {lines : List DiffLine}
    (h : splitDiffText text = some lines) :
    joinDiffLines lines = normalizeCrLf text ∧ ∀ line ∈ lines, lineFeed ∉ line.text := by
  have hpiece : ∀ piece ∈ (normalizeCrLf text).splitOn lineFeed, lineFeed ∉ piece := by
    intro piece hmem hfeed
    rw [List.splitOn_eq_splitOnP] at hmem
    exact absurd (forall_of_mem_splitOnP hmem lineFeed hfeed) (by simp)
  unfold splitDiffText at h
  dsimp only at h
  split at h
  · cases h
  split at h
  · next hnil =>
    rw [← Option.some.inj h, hnil]
    exact ⟨rfl, nofun⟩
  rename_i hne
  cases h
  split
  · next hends =>
    -- a text that ends in a line feed has a last piece too many
    rcases List.getLast?_eq_some_iff.mp hends with ⟨before, hbefore⟩
    have hpieces : ((normalizeCrLf text).splitOn lineFeed).dropLast
        = before.splitOn lineFeed := by
      rw [hbefore, List.splitOn_append_cons_self, List.splitOn_nil, List.dropLast_concat]
    have hmap : ((before.splitOn lineFeed).zipIdx.map fun x : JsString × Nat =>
        (⟨x.1, decide (x.2 < (before.splitOn lineFeed).length - 1) || true⟩ : DiffLine))
          = (before.splitOn lineFeed).map fun line => ⟨line, true⟩ := by
      simp only [Bool.or_true]
      rw [show (fun x : JsString × Nat => (⟨x.1, true⟩ : DiffLine))
        = (fun line => ⟨line, true⟩) ∘ Prod.fst from rfl, ← List.map_map, List.zipIdx_map_fst]
    rw [hpieces, decide_eq_true hends]
    refine ⟨?_, ?_⟩
    · rw [hmap, joinDiffLines_ended, hbefore]
      have hall : [lineFeed].intercalate ((before ++ [lineFeed]).splitOn lineFeed)
          = before ++ [lineFeed] := List.intercalate_splitOn lineFeed
      rw [List.splitOn_append_cons_self, List.splitOn_nil] at hall
      exact hall
    · rw [hmap]
      intro line hline
      rcases List.mem_map.mp hline with ⟨piece, hmem, rfl⟩
      rw [← hpieces] at hmem
      exact hpiece piece (List.dropLast_subset _ hmem)
  · next hends =>
    -- a last line without an ending
    have hne : (normalizeCrLf text).splitOn lineFeed ≠ [] := List.splitOn_ne_nil _ _
    rw [decide_eq_false hends]
    refine ⟨?_, ?_⟩
    · simp only [Bool.or_false]
      have hjoin := joinDiffLines_unended hne 0
      rw [Nat.zero_add] at hjoin
      rw [hjoin, List.intercalate_splitOn]
    · intro line hline
      rcases List.mem_map.mp hline with ⟨⟨piece, index⟩, hmem, rfl⟩
      exact hpiece piece (List.fst_mem_of_mem_zipIdx hmem)

/-! ## Ranges -/

/-- The ranges after the first operations. -/
structure RangesInv (operations : List (Edit DiffLine)) (count : Nat) (ranges : List (Nat × Nat)) :
    Prop where
  sorted : ranges.Pairwise fun range later => range.2 < later.1
  within : ∀ range ∈ ranges, range.1 < count ∧ range.1 ≤ range.2 ∧ range.2 ≤ operations.length
  covers : ∀ index < count, ∀ operation, operations[index]? = some operation →
    operation.kind ≠ .context → ∃ range ∈ ranges, range.1 ≤ index ∧ index < range.2

variable {operations : List (Edit DiffLine)}

theorem RangesInv.extend {index : Nat}
    {ranges : List (Nat × Nat)} (h : RangesInv operations index ranges)
    (hindex : index < operations.length) :
    RangesInv operations (index + 1) (extendRanges operations ranges index) := by
  have hat : operations[index]? = some operations[index] := List.getElem?_eq_getElem hindex
  unfold extendRanges
  rw [hat, Option.any_some]
  split
  · next hcontext =>
    -- a line of context widens no range
    refine ⟨h.sorted, fun range hrange => ?_, fun other hother operation hoperation hchange => ?_⟩
    · have hwithin := h.within range hrange
      exact ⟨by omega, hwithin.2⟩
    · rcases Nat.lt_succ_iff_lt_or_eq.mp hother with hlt | rfl
      · exact h.covers other hlt operation hoperation hchange
      · rw [hat] at hoperation
        cases hoperation
        exact absurd (of_decide_eq_true hcontext) hchange
  · -- a change opens the first range
    rcases List.eq_nil_or_concat ranges with rfl | ⟨before, previous, hranges⟩
    · refine ⟨List.pairwise_singleton _ _, fun range hrange => ?_,
        fun other hother operation hoperation hchange => ?_⟩
      · rcases List.mem_singleton.mp hrange with rfl
        dsimp only
        omega
      · rcases Nat.lt_succ_iff_lt_or_eq.mp hother with hlt | rfl
        · rcases h.covers other hlt operation hoperation hchange with ⟨range, hrange, _⟩
          cases hrange
        · exact ⟨_, List.mem_singleton.mpr rfl, by dsimp only; omega, by dsimp only; omega⟩
    · rw [List.concat_eq_append] at hranges
      have hlast : ranges.getLast? = some previous := by
        rw [hranges, List.getLast?_append_of_ne_nil _ (List.cons_ne_nil _ _)]
        rfl
      have hsorted := h.sorted
      rw [hranges, List.pairwise_append] at hsorted
      have hprevious := h.within previous (by rw [hranges]; simp)
      rw [hlast]
      dsimp only
      split
      · next hmerge =>
        -- the new change is close enough to the last range to join it
        rw [hranges, List.dropLast_concat]
        refine ⟨?_, fun range hrange => ?_, fun other hother operation hoperation hchange => ?_⟩
        · rw [List.pairwise_append]
          refine ⟨hsorted.1, List.pairwise_singleton _ _, fun range hrange later hlater => ?_⟩
          rw [List.mem_singleton.mp hlater]
          exact hsorted.2.2 range hrange previous List.mem_cons_self
        · rcases List.mem_append.mp hrange with hbefore | hnew
          · have hwithin := h.within range (by rw [hranges]; exact List.mem_append_left _ hbefore)
            exact ⟨by omega, hwithin.2⟩
          · rcases List.mem_singleton.mp hnew with rfl
            dsimp only
            omega
        · have hlater : previous.1 ≤ other → other < max previous.2 (min operations.length (index + 3 + 1))
              → ∃ range ∈ before ++ [(previous.1, max previous.2 (min operations.length (index + 3 + 1)))],
                range.1 ≤ other ∧ other < range.2 := fun hfirst hstop =>
            ⟨_, List.mem_append_right _ (List.mem_singleton.mpr rfl), hfirst, hstop⟩
          rcases Nat.lt_succ_iff_lt_or_eq.mp hother with hlt | rfl
          · rcases h.covers other hlt operation hoperation hchange with ⟨range, hrange, hfirst, hstop⟩
            rw [hranges] at hrange
            rcases List.mem_append.mp hrange with hbefore | hsame
            · exact ⟨range, List.mem_append_left _ hbefore, hfirst, hstop⟩
            · rcases List.mem_singleton.mp hsame with rfl
              exact hlater hfirst (lt_max_of_lt_left hstop)
          · exact hlater (by omega) (lt_max_of_lt_right (by omega))
      · next hgap =>
        -- a range of its own, behind all others
        refine ⟨?_, fun range hrange => ?_, fun other hother operation hoperation hchange => ?_⟩
        · rw [List.pairwise_append]
          refine ⟨h.sorted, List.pairwise_singleton _ _, fun range hrange later hlater => ?_⟩
          rw [List.mem_singleton.mp hlater]
          dsimp only
          rw [hranges] at hrange
          rcases List.mem_append.mp hrange with hbefore | hsame
          · have hlt := hsorted.2.2 range hbefore previous List.mem_cons_self
            omega
          · rcases List.mem_singleton.mp hsame with rfl
            omega
        · rcases List.mem_append.mp hrange with hbefore | hnew
          · have hwithin := h.within range hbefore
            exact ⟨by omega, hwithin.2⟩
          · rcases List.mem_singleton.mp hnew with rfl
            dsimp only
            omega
        · rcases Nat.lt_succ_iff_lt_or_eq.mp hother with hlt | rfl
          · rcases h.covers other hlt operation hoperation hchange with ⟨range, hrange, hfirst, hstop⟩
            exact ⟨range, List.mem_append_left _ hrange, hfirst, hstop⟩
          · exact ⟨_, List.mem_append_right _ (List.mem_singleton.mpr rfl), by dsimp only; omega,
              by dsimp only; omega⟩

theorem diffHunkRanges_inv (operations : List (Edit DiffLine)) :
    RangesInv operations operations.length (diffHunkRanges operations) := by
  have hprefix : ∀ count, count ≤ operations.length →
      RangesInv operations count ((List.range count).foldl (extendRanges operations) []) := by
    intro count
    induction count with
    | zero =>
      intro _
      refine ⟨List.Pairwise.nil, nofun, ?_⟩
      intro index hindex
      omega
    | succ count ih =>
      intro hcount
      rw [List.range_succ, List.foldl_append]
      exact (ih (by omega)).extend (by omega)
  exact hprefix _ (Nat.le_refl _)

theorem segments_of_ranges {ranges : List (Nat × Nat)}
    {place : Nat} (hsorted : ranges.Pairwise fun range later => range.2 < later.1)
    (hwithin : ∀ range ∈ ranges, range.1 ≤ range.2) (hplace : ∀ range ∈ ranges, place ≤ range.1)
    (hcovers : ∀ index, place ≤ index → ∀ operation, operations[index]? = some operation →
      operation.kind ≠ .context → ∃ range ∈ ranges, range.1 ≤ index ∧ index < range.2) :
    Segments operations place ranges := by
  induction ranges generalizing place with
  | nil =>
    refine .nil fun edit hedit => ?_
    rcases List.mem_iff_getElem?.mp hedit with ⟨index, hat⟩
    rw [List.getElem?_drop] at hat
    by_contra hchange
    rcases hcovers (place + index) (Nat.le_add_right _ _) edit hat hchange with ⟨_, hrange, _⟩
    cases hrange
  | cons range ranges ih =>
    rcases List.pairwise_cons.mp hsorted with ⟨hfirst, hrest⟩
    have hrange := hwithin range List.mem_cons_self
    refine .cons (hplace range List.mem_cons_self) hrange ?_ (ih hrest
      (fun other hother => hwithin other (List.mem_cons_of_mem _ hother))
      (fun other hother => (hfirst other hother).le) ?_)
    · intro edit hedit
      rcases List.mem_iff_getElem?.mp hedit with ⟨index, hat⟩
      rw [List.getElem?_drop, List.getElem?_take] at hat
      split at hat
      · next hlt =>
        by_contra hchange
        rcases hcovers (place + index) (Nat.le_add_right _ _) edit hat hchange with
          ⟨other, hother, hstart, _⟩
        rcases List.mem_cons.mp hother with rfl | hlater
        · omega
        · have hbehind := hfirst other hlater
          omega
      · cases hat
    · intro index hindex operation hoperation hchange
      have hfar : place ≤ index := by
        have hstart := hplace range List.mem_cons_self
        omega
      rcases hcovers index hfar operation hoperation hchange with ⟨other, hother, hstart, hstop⟩
      rcases List.mem_cons.mp hother with rfl | hlater
      · omega
      · exact ⟨other, hlater, hstart, hstop⟩

theorem segments_diffHunkRanges (operations : List (Edit DiffLine)) :
    Segments operations 0 (diffHunkRanges operations) := by
  have hinv := diffHunkRanges_inv operations
  refine segments_of_ranges hinv.sorted (fun range hrange => (hinv.within range hrange).2.1)
    (fun _ _ => Nat.zero_le _) ?_
  intro index _ operation hoperation hchange
  have hindex : index < operations.length := by
    rcases List.getElem?_eq_some_iff.mp hoperation with ⟨hlt, _⟩
    exact hlt
  exact hinv.covers index hindex operation hoperation hchange

/-! ## The table -/

theorem lcsLength_le_length (before after : List DiffLine) :
    lcsLength before after ≤ before.length := by
  induction before with
  | nil => exact Nat.zero_le _
  | cons line before ih =>
    have hmore := ((lcsLength_bounds before after).2 line).2
    rw [List.length_cons]
    omega

/-- The entries of the table fit into its cells. -/
theorem diffLengths_eq {before : List DiffLine} (h : before.length < 2 ^ 16)
    (after : List DiffLine) : diffLengths before after = lcsLength before after := by
  induction before generalizing after with
  | nil => rfl
  | cons line before ih =>
    rw [List.length_cons] at h
    have hbelow := ih (Nat.lt_of_succ_lt h)
    rw [diffLengths, lcsLength]
    induction after with
    | nil => rfl
    | cons other after ihafter =>
      have hbound := lcsLength_le_length before after
      rw [diffRow, lcsRow, ihafter, hbelow, hbelow, Nat.mod_eq_of_lt (by omega)]

/-! ## The patch -/

section

variable (operations : List (Edit DiffLine))

theorem count_old :
    (operations.countP fun operation => operation.kind ≠ .add) = (oldLines operations).length := by
  rw [oldLines, List.length_map, List.countP_eq_length_filter]

theorem count_new : (operations.countP fun operation => operation.kind ≠ .remove)
      = (newLines operations).length := by
  rw [newLines, List.length_map, List.countP_eq_length_filter]

theorem added_add_removed : (operations.countP fun operation => operation.kind = .add)
      + (operations.countP fun operation => operation.kind = .remove) = changes operations := by
  unfold changes
  induction operations with
  | nil => rfl
  | cons operation operations ih =>
    rcases operation with ⟨kind, line⟩
    rw [List.countP_cons, List.countP_cons, List.countP_cons, ← ih]
    cases kind with
    | context => simp
    | remove | add =>
      simp
      omega

/-- The position before an operation counts the lines of both sides. -/
theorem diffPositionBefore_eq (stop : Nat) :
    diffPositionBefore operations stop = ((oldLines (operations.take stop)).length + 1,
      (newLines (operations.take stop)).length + 1) := by
  unfold diffPositionBefore
  generalize operations.take stop = script
  have hfold : ∀ old new : Nat, script.foldl (fun (oldLine, newLine) operation =>
      (if operation.kind ≠ .add then oldLine + 1 else oldLine,
        if operation.kind ≠ .remove then newLine + 1 else newLine)) (old, new)
        = (old + (oldLines script).length, new + (newLines script).length) := by
    induction script with
    | nil => exact fun _ _ => rfl
    | cons operation script ih =>
      intro old new
      rcases operation with ⟨kind, line⟩
      rw [List.foldl_cons]
      cases kind with
      | context =>
        rw [oldLines_context, newLines_context, List.length_cons, List.length_cons]
        refine (ih (old + 1) (new + 1)).trans ?_
        rw [Nat.add_right_comm old, Nat.add_right_comm new]
        rfl
      | remove =>
        rw [oldLines_remove, newLines_remove, List.length_cons]
        refine (ih (old + 1) new).trans ?_
        rw [Nat.add_right_comm old]
        rfl
      | add =>
        rw [oldLines_add, newLines_add, List.length_cons]
        refine (ih old (new + 1)).trans ?_
        rw [Nat.add_right_comm new]
        rfl
  rw [hfold, Nat.add_comm 1, Nat.add_comm 1]

/-- A range is written as its hunk. -/
theorem renderRange_eq (range : Nat × Nat) :
    renderRange operations range = renderHunk (hunkOf operations range) := by
  unfold renderRange renderHunk hunkHeader hunkOf
  dsimp only
  rw [diffPositionBefore_eq, count_old, count_new, Nat.add_sub_cancel, Nat.add_sub_cancel]

end

variable {before after : List DiffLine} {path baseText candidateText : JsString}

/-- The lines of an operation are lines of a text. -/
theorem line_mem_of_isScript (h : IsScript before after operations) {operation : Edit DiffLine}
    (hmem : operation ∈ operations) : operation.line ∈ before ∨ operation.line ∈ after := by
  rw [← h.old, ← h.new]
  cases hkind : operation.kind with
  | context | remove =>
    refine .inl (List.mem_map_of_mem (List.mem_filter.mpr ⟨hmem, ?_⟩))
    rw [hkind]
    rfl
  | add =>
    refine .inr (List.mem_map_of_mem (List.mem_filter.mpr ⟨hmem, ?_⟩))
    rw [hkind]
    rfl

theorem isWritable_hunkOf
    (h : IsScript before after operations) (hbefore : before.length ≤ maxReadLines)
    (hafter : after.length ≤ maxReadLines)
    (hlines : ∀ line, line ∈ before ∨ line ∈ after → lineFeed ∉ line.text) (range : Nat × Nat) :
    IsWritable (hunkOf operations range) := by
  have hbefore' := List.take_sublist range.1 operations
  have hwithin := (List.drop_sublist range.1 _).trans (List.take_sublist range.2 operations)
  have hold := (oldLines_sublist hbefore').length_le
  have hnew := (newLines_sublist hbefore').length_le
  have hbodyOld := (oldLines_sublist hwithin).length_le
  have hbodyNew := (newLines_sublist hwithin).length_le
  rw [h.old] at hold hbodyOld
  rw [h.new] at hnew hbodyNew
  have hsafe : maxReadLines + 1 ≤ 2 ^ 53 - 1 := by decide
  have hstart : ∀ length count : Nat, length ≤ maxReadLines →
      (if count = 0 then length else length + 1) ≤ 2 ^ 53 - 1 := by
    intro length count hlength
    split
    · omega
    · omega
  have hfirst : ∀ length count : Nat, 0 < count →
      1 ≤ if count = 0 then length else length + 1 := by
    intro length count hcount
    rw [if_neg (Nat.ne_of_gt hcount)]
    exact Nat.succ_pos _
  refine ⟨⟨hstart _ _ (hold.trans hbefore), ?_, hstart _ _ (hnew.trans hafter), ?_, hfirst _ _,
    hfirst _ _⟩, rfl, rfl, ?_⟩
  · calc _ ≤ before.length := hbodyOld
      _ ≤ maxReadLines := hbefore
      _ ≤ 2 ^ 53 - 1 := Nat.le_of_succ_le hsafe
  · calc _ ≤ after.length := hbodyNew
      _ ≤ maxReadLines := hafter
      _ ≤ 2 ^ 53 - 1 := Nat.le_of_succ_le hsafe
  · intro operation hoperation
    exact hlines _ (line_mem_of_isScript h
      (List.mem_of_mem_take (List.mem_of_mem_drop hoperation)))

/-! ## Every review diff -/

/-- A patch that makes one text the other, with no more changed lines than needed. -/
structure FaithfulDiff (path baseText candidateText : JsString)
    (candidate : AssistantPatchCandidate) : Prop where
  text : candidate.candidateText = candidateText
  /-- The hunks as they are read from the patch, applied to the lines of the base. -/
  applies : ∃ body hunks before after,
    candidate.canonicalPatch = jsString "--- a/" ++ path ++ [lineFeed] ++ (jsString "+++ b/" ++ path)
        ++ [lineFeed] ++ body
      ∧ readPatch body = some hunks ∧ hunks.length = candidate.hunkCount
      ∧ splitDiffText baseText = some before ∧ joinDiffLines before = normalizeCrLf baseText
      ∧ applyHunks before 0 [] hunks = some after
      ∧ joinDiffLines after = normalizeCrLf candidateText
  /-- The counts are those of a script, and no script has fewer changes. -/
  counts : ∃ before after script, splitDiffText baseText = some before
    ∧ splitDiffText candidateText = some after ∧ IsScript before after script
    ∧ candidate.addedLines = script.countP (fun operation => operation.kind = .add)
    ∧ candidate.removedLines = script.countP (fun operation => operation.kind = .remove)
    ∧ ∀ other, IsScript before after other →
      candidate.addedLines + candidate.removedLines ≤ changes other

/-- Without ranges nothing changes. -/
theorem eq_of_no_ranges
    (h : IsScript before after operations) (hnone : diffHunkRanges operations = []) :
    before = after := by
  have hsegments := segments_diffHunkRanges operations
  rw [hnone] at hsegments
  cases hsegments with
  | nil hcontext =>
    rw [← h.old, ← h.new]
    exact (newLines_eq_oldLines hcontext).symm

/-- The patch of a script. -/
def reviewPatch (path : JsString) (operations : List (Edit DiffLine)) : JsString :=
  [lineFeed].intercalate (patchPaths path
    ++ (diffHunkRanges operations).flatMap (renderRange operations))

/-- What a diff is made of. -/
theorem createAssistantUnifiedDiff_ok {candidate : AssistantPatchCandidate}
    (h : createAssistantUnifiedDiff path baseText candidateText = .ok candidate) :
    ∃ before after, splitDiffText baseText = some before ∧ splitDiffText candidateText = some after
      ∧ before.length ≤ maxReadLines ∧ after.length ≤ maxReadLines
      ∧ diffHunkRanges (diffOperations before after) ≠ []
      ∧ candidate = ⟨candidateText, reviewPatch path (diffOperations before after),
        (diffOperations before after).countP fun operation => operation.kind = .add,
        (diffOperations before after).countP fun operation => operation.kind = .remove,
        (diffHunkRanges (diffOperations before after)).length⟩ := by
  unfold createAssistantUnifiedDiff at h
  split at h
  · cases h
  split at h
  · next before after hbefore hafter =>
    split at h
    · cases h
    rename_i hlines
    rw [not_or, not_lt, not_lt] at hlines
    dsimp only at h
    split at h
    · cases h
    rename_i hranges
    split at h
    · cases h
    split at h
    · cases h
    split at h
    · cases h
    · exact ⟨before, after, hbefore, hafter, hlines.1, hlines.2, hranges,
        (Except.ok.inj h).symm⟩
  · cases h

/-- The patch is its two lines of paths and its hunks. -/
theorem reviewPatch_eq (path : JsString) (h : diffHunkRanges operations ≠ []) :
    reviewPatch path operations = jsString "--- a/" ++ path ++ [lineFeed]
      ++ (jsString "+++ b/" ++ path) ++ [lineFeed] ++ [lineFeed].intercalate
        (((diffHunkRanges operations).map (hunkOf operations)).flatMap renderHunk) := by
  have hne : (diffHunkRanges operations).flatMap (renderRange operations) ≠ [] := by
    cases hcases : diffHunkRanges operations with
    | nil => exact absurd hcases h
    | cons range ranges => exact List.cons_ne_nil _ _
  have hsame : ((diffHunkRanges operations).map (hunkOf operations)).flatMap renderHunk
      = (diffHunkRanges operations).flatMap (renderRange operations) := by
    rw [List.flatMap_map]
    congr 1
    funext range
    exact (renderRange_eq operations range).symm
  rw [hsame, reviewPatch, patchPaths, List.cons_append, List.cons_append, List.nil_append,
    List.intercalate_cons_cons, List.intercalate_cons_of_ne_nil hne]
  simp only [List.append_assoc]

theorem faithful_of_ok {candidate : AssistantPatchCandidate}
    (h : createAssistantUnifiedDiff path baseText candidateText = .ok candidate) :
    FaithfulDiff path baseText candidateText candidate := by
  rcases createAssistantUnifiedDiff_ok h with
    ⟨before, after, hbefore, hafter, hbeforeLines, hafterLines, hranges, rfl⟩
  have hscript : IsScript before after (diffOperations before after) :=
    editWalk_isScript diffLengths before after
  refine ⟨rfl, ?_, ?_⟩
  · refine ⟨_, (diffHunkRanges (diffOperations before after)).map
      (hunkOf (diffOperations before after)), before, after, reviewPatch_eq path hranges, ?_,
      List.length_map _, hbefore, (splitDiffText_some hbefore).1, ?_, (splitDiffText_some hafter).1⟩
    · refine readPatch_render ?_ fun hnil => hranges (List.map_eq_nil_iff.mp hnil)
      intro hunk hhunk
      rcases List.mem_map.mp hhunk with ⟨range, _, rfl⟩
      refine isWritable_hunkOf hscript hbeforeLines hafterLines ?_ range
      rintro line (hline | hline)
      · exact (splitDiffText_some hbefore).2 line hline
      · exact (splitDiffText_some hafter).2 line hline
    · have happlied := applyHunks_of_segments (segments_diffHunkRanges (diffOperations before after))
      rw [hscript.old, hscript.new] at happlied
      exact happlied
  · refine ⟨before, after, diffOperations before after, hbefore, hafter, hscript, rfl, rfl,
      fun other hother => ?_⟩
    rw [added_add_removed]
    refine changes_editWalk_le ?_ hother
    intro rest hrest
    have hbound : maxReadLines < 2 ^ 16 := by decide
    exact diffLengths_eq (by omega)

theorem normalized_eq_of_no_effect
    (h : createAssistantUnifiedDiff path baseText candidateText = .error .patchNoEffect) :
    normalizeCrLf baseText = normalizeCrLf candidateText := by
  unfold createAssistantUnifiedDiff at h
  split at h
  · next hsame => rw [hsame]
  split at h
  · next before after hbefore hafter =>
    split at h
    · cases h
    dsimp only at h
    split at h
    · next hranges =>
      have heq := eq_of_no_ranges (editWalk_isScript diffLengths before after) hranges
      rw [← (splitDiffText_some hbefore).1, ← (splitDiffText_some hafter).1, heq]
    split at h
    · cases h
    split at h
    · cases h
    · split at h
      · cases h
      · cases h
  · cases h

/-- Every review diff makes the one text the other, and only texts with the same lines have none. -/
theorem review_diff_is_faithful (path baseText candidateText : JsString) :
    (∀ candidate, createAssistantUnifiedDiff path baseText candidateText = .ok candidate →
      FaithfulDiff path baseText candidateText candidate)
    ∧ (createAssistantUnifiedDiff path baseText candidateText = .error .patchNoEffect →
      normalizeCrLf baseText = normalizeCrLf candidateText) :=
  ⟨fun _ => faithful_of_ok, normalized_eq_of_no_effect⟩

/-- A line that is changed, another one added behind it without a line feed. -/
theorem review_diff_of_two_lines : ∃ candidate,
    createAssistantUnifiedDiff [112] [97, 10, 98, 10] [97, 10, 99, 10, 100] = .ok candidate
      ∧ candidate.addedLines = 2 ∧ candidate.removedLines = 1 ∧ candidate.hunkCount = 1
      ∧ FaithfulDiff [112] [97, 10, 98, 10] [97, 10, 99, 10, 100] candidate := by
  have hok : (createAssistantUnifiedDiff [112] [97, 10, 98, 10] [97, 10, 99, 10, 100]).toOption.map
      (fun candidate => (candidate.addedLines, candidate.removedLines, candidate.hunkCount))
      = some (2, 1, 1) := by
    decide +kernel
  cases hresult : createAssistantUnifiedDiff [112] [97, 10, 98, 10] [97, 10, 99, 10, 100] with
  | ok candidate =>
    rw [hresult] at hok
    have hcounts := Option.some.inj hok
    simp only [Prod.mk.injEq] at hcounts
    exact ⟨candidate, rfl, hcounts.1, hcounts.2.1, hcounts.2.2,
      (review_diff_is_faithful _ _ _).1 _ hresult⟩
  | error reason =>
    rw [hresult] at hok
    cases hok

/-- Texts that differ in a line ending only. -/
theorem line_endings_have_no_diff :
    createAssistantUnifiedDiff [112] [97, 13, 10] [97, 10] = .error .patchNoEffect
      ∧ ([97, 13, 10] : JsString) ≠ [97, 10] := by
  decide +kernel

end Toss.Web
