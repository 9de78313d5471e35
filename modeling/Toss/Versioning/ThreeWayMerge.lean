import Toss.Versioning.Merging
import Toss.Versioning.HeadMirrors

/-!
# Which side a three-way merge takes

What the loop of `merge_online_over_pushed` leaves a path with, over the paths in the order
a hash set gives them. The base and the pushed side are read by
`load_git_state_from_commit`, the online side is what the workspace stores.

* `outcome_mergeLoop` — a path is merged by itself;
* `mergeWorkspace_perm` — the order of the paths does not matter;
* `merges_by_content_iff` — when the merge decides by the contents of the files.
-/

namespace Toss.Versioning

open Toss.Foundation Toss.Workspace
open Toss.Processing (decodeUtf8)

/-! ## What is left at a path -/

/-- What the loop leaves at a path: a conflict, or the file there. -/
def MergeLoop.outcome (loop : MergeLoop) (path : Text) : Option (Option Bytes) :=
  if path ∈ loop.conflicts then none else some ((loop.merged.lookup path).map MergeFileValue.bytes)

section Loop

variable (git : GitLibrary) {base pushed online : List (Text × MergeFileValue)} {keys : List Text}

/-- A path is merged by itself. -/
theorem outcome_mergeLoop (hkeys : keys.Perm (mergePaths base pushed online)) (path : Text) :
    (mergeLoop git base pushed online keys).outcome path
      = (mergeValue git (base.lookup path) (pushed.lookup path) (online.lookup path)).map
        (Option.map MergeFileValue.bytes) := by
  have hnodup : keys.Nodup := hkeys.nodup_iff.mpr (List.nodup_dedup _)
  unfold MergeLoop.outcome
  rw [conflicts_mergeLoop]
  by_cases hpath : path ∈ keys
  · rw [lookup_merged_mergeLoop git hnodup hpath]
    rcases hvalue : mergeValue git (base.lookup path) (pushed.lookup path) (online.lookup path) with
      _ | value
    · simp [hpath, hvalue]
    · simp [hvalue]
  · have habsent := hkeys.mem_iff.not.mp hpath
    rw [mergePaths, List.mem_dedup, List.mem_append, List.mem_append, not_or, not_or] at habsent
    rw [lookup_eq_none_of_not_mem habsent.1.1, lookup_eq_none_of_not_mem habsent.1.2,
      lookup_eq_none_of_not_mem habsent.2, mergeValue_none]
    simp [hpath, lookup_mergeLoop_of_not_mem git hpath]

/-! ## The order of the paths -/

theorem pathLe_total (left right : Text) : pathLe left right = true ∨ pathLe right left = true := by
  induction left generalizing right with
  | nil => exact .inl rfl
  | cons a as ih =>
    rcases right with _ | ⟨b, bs⟩
    · exact .inr rfl
    by_cases heq : a = b
    · subst heq
      simpa [pathLe] using ih bs
    · have hne : a.toNat ≠ b.toNat := fun hsame => heq (Char.toNat_inj.mp hsame)
      simp only [pathLe, if_neg heq, if_neg (Ne.symm heq), decide_eq_true_eq]
      omega

theorem pathLe_antisymm {left right : Text} (h : pathLe left right = true)
    (h' : pathLe right left = true) : left = right := by
  induction left generalizing right with
  | nil =>
    rcases right with _ | ⟨b, bs⟩
    · rfl
    · simp [pathLe] at h'
  | cons a as ih =>
    rcases right with _ | ⟨b, bs⟩
    · simp [pathLe] at h
    by_cases heq : a = b
    · subst heq
      simp only [pathLe, if_true] at h h'
      rw [ih h h']
    · simp only [pathLe, if_neg heq, if_neg (Ne.symm heq), decide_eq_true_eq] at h h'
      omega

theorem pathLe_trans {left middle right : Text} (h : pathLe left middle = true)
    (h' : pathLe middle right = true) : pathLe left right = true := by
  induction left generalizing middle right with
  | nil => rfl
  | cons a as ih =>
    rcases middle with _ | ⟨b, bs⟩
    · simp [pathLe] at h
    rcases right with _ | ⟨c, cs⟩
    · simp [pathLe] at h'
    simp only [pathLe] at h h' ⊢
    by_cases hab : a = b
    · subst hab
      rw [if_pos rfl] at h
      split at h'
      · next hac =>
        rw [if_pos hac]
        exact ih h h'
      · next hac => rwa [if_neg hac]
    · rw [if_neg hab, decide_eq_true_eq] at h
      by_cases hbc : b = c
      · subst hbc
        rw [if_neg hab, decide_eq_true_eq]
        exact h
      rw [if_neg hbc, decide_eq_true_eq] at h'
      have hac : a ≠ c := by
        rintro rfl
        omega
      rw [if_neg hac, decide_eq_true_eq]
      omega

/-- Sorted paths do not show the order they came in. -/
theorem sortPaths_perm {paths paths' : List Text} (h : paths.Perm paths') :
    sortPaths paths = sortPaths paths' := by
  have : Std.Total fun left right : Text => pathLe left right = true := ⟨pathLe_total⟩
  have : IsTrans Text fun left right => pathLe left right = true :=
    ⟨fun _ _ _ h h' => pathLe_trans h h'⟩
  unfold sortPaths
  refine List.Perm.eq_of_pairwise ?_ (List.pairwise_insertionSort _ _)
    (List.pairwise_insertionSort _ _) ?_
  · intro left right _ _ hle hge
    exact pathLe_antisymm hle hge
  · calc List.Perm _ paths := List.perm_insertionSort _ _
      List.Perm _ paths' := h
      List.Perm _ _ := (List.perm_insertionSort _ _).symm

/-- The same files, or the same list of conflicts. -/
def MergeWorkspaceResult.Same : MergeWorkspaceResult → MergeWorkspaceResult → Prop
  | .merged files, .merged files' => SameEntries files files'
  | .conflicts paths, .conflicts paths' => paths = paths'
  | _, _ => False

/-- The result does not show the order in which the paths were visited. -/
theorem mergeWorkspace_perm {keys' : List Text} (hkeys : keys.Nodup) (h : keys.Perm keys') :
    (mergeWorkspace git base pushed online keys).Same
      (mergeWorkspace git base pushed online keys') := by
  have hconflicts : (mergeLoop git base pushed online keys).conflicts.Perm
      (mergeLoop git base pushed online keys').conflicts := by
    rw [conflicts_mergeLoop, conflicts_mergeLoop]
    exact h.filter _
  have hmerged : (mergeLoop git base pushed online keys).merged.Perm
      (mergeLoop git base pushed online keys').merged := by
    rw [merged_mergeLoop, merged_mergeLoop]
    exact h.filterMap _
  unfold mergeWorkspace
  dsimp only
  by_cases hnone : (mergeLoop git base pushed online keys).conflicts = []
  · have hnone' : (mergeLoop git base pushed online keys').conflicts = [] := by
      rw [hnone] at hconflicts
      exact hconflicts.nil_eq.symm
    rw [hnone, hnone']
    exact SameEntries.of_perm (nodup_mergeLoop git base pushed online hkeys) hmerged
  · have hsome' : (mergeLoop git base pushed online keys').conflicts ≠ [] := by
      intro hempty
      rw [hempty] at hconflicts
      exact hnone hconflicts.eq_nil
    rw [if_neg (by simpa using hnone), if_neg (by simpa using hsome')]
    exact sortPaths_perm hconflicts

end Loop

/-! ## What the loaders make of a file -/

/-- The file at a path as the loader of a commit classifies it. -/
def asCommitted (git : GitLibrary) (path : Text) (value : Option MergeFileValue) :
    Option MergeFileValue :=
  value.map fun value => blobValue git path value.bytes

/-- The file of a value. -/
abbrev fileOf (value : Option MergeFileValue) : Option Bytes :=
  value.map MergeFileValue.bytes

/-- A commit is read with the kinds and content types of its paths. -/
theorem asCommitted_of_loadGitState {git : GitLibrary} {tree : Tree}
    {state : List (Text × MergeFileValue)} (h : loadGitState git tree = some state) (path : Text) :
    asCommitted git path (state.lookup path) = state.lookup path := by
  rcases hvalue : state.lookup path with _ | value
  · rfl
  rcases (blob_of_loadGitState h (mem_of_lookup hvalue)).2 with ⟨bytes, rfl⟩
  simp [asCommitted]

/-- Values that the loader classifies differ only in their bytes. -/
theorem eq_iff_of_asCommitted {git : GitLibrary} {path : Text} {left right : Option MergeFileValue}
    (hleft : asCommitted git path left = left) (hright : asCommitted git path right = right) :
    left = right ↔ fileOf left = fileOf right := by
  constructor
  · rintro rfl
    rfl
  · intro hfile
    have hmap := congrArg (Option.map (blobValue git path)) hfile
    rw [fileOf, fileOf, Option.map_map, Option.map_map] at hmap
    rw [← hleft, ← hright]
    exact hmap

/-- A value with a file that the loader reads is that value where it is classified so. -/
theorem eq_iff_classified {git : GitLibrary} {path : Text} {stored read : Option MergeFileValue}
    (hread : asCommitted git path read = read) :
    stored = read ↔ asCommitted git path stored = stored ∧ fileOf stored = fileOf read := by
  constructor
  · rintro rfl
    exact ⟨hread, rfl⟩
  · rintro ⟨hstored, hfile⟩
    exact (eq_iff_of_asCommitted hstored hread).mpr hfile

/-! ## The merge by contents -/

/-- The merge of three texts, where the three sides are texts. -/
def mergedText (git : GitLibrary) (base pushed online : Option MergeFileValue) : Option Text :=
  match base, pushed, online with
  | some (.text baseText), some (.text pushedText), some (.text onlineText) =>
    git.mergeFile baseText pushedText onlineText
  | _, _, _ => none

/-- The merge decides a path by the contents of its files: the workspace that the base was
made from, the base, what was pushed and what is stored online. -/
structure MergesByContent (git : GitLibrary) (before base pushed online : Option MergeFileValue)
    (outcome : Option (Option Bytes)) : Prop where
  unchanged_online : fileOf online = fileOf before → outcome = some (fileOf pushed)
  unchanged_pushed : fileOf pushed = fileOf base → outcome = some (fileOf online)
  same_change : fileOf online = fileOf pushed → outcome = some (fileOf pushed)
  conflict : outcome = none → fileOf online ≠ fileOf before ∧ fileOf pushed ≠ fileOf base
    ∧ fileOf online ≠ fileOf pushed ∧ mergedText git base pushed online = none

/-- Where nothing was changed online the commit holds the file, and a pushed change meets a
file that is stored as the loader classifies it; so does a change that both made. -/
def IsStoredAsRead (git : GitLibrary) (path : Text)
    (before base pushed online : Option MergeFileValue) : Prop :=
  if fileOf online = fileOf before then
    if fileOf pushed = fileOf base then fileOf online = fileOf base
    else
      asCommitted git path online = online
          ∧ (fileOf online = fileOf base ∨ fileOf online = fileOf pushed)
        ∨ ∃ text, mergedText git base pushed online = some text
          ∧ fileOf pushed = some (encodeUtf8 text)
  else fileOf pushed ≠ fileOf base → fileOf online = fileOf pushed →
    asCommitted git path online = online

section Values

variable {git : GitLibrary} {before base pushed online : Option MergeFileValue}

/-- Both sides changed a path: their texts are merged, or they agree, or they conflict. -/
theorem mergeValue_of_both_changed
    (hagree : ∀ base text, git.mergeFile base text text = some text)
    (honline : online ≠ base) (hpushed : pushed ≠ base) :
    mergeValue git base pushed online
      = match mergedText git base pushed online with
        | some text => some (some (.text text))
        | none => if online = pushed then some pushed else none := by
  unfold mergeValue
  rw [if_neg honline, if_neg hpushed]
  split
  · next baseText pushedText onlineText =>
    -- three texts: those that agree merge, so a conflict differs
    rcases hmerged : git.mergeFile baseText pushedText onlineText with _ | text
    · have hne : (some (.text onlineText) : Option MergeFileValue) ≠ some (.text pushedText) := by
        intro heq
        rw [Option.some.injEq, MergeFileValue.text.injEq] at heq
        rw [heq, hagree] at hmerged
        simp at hmerged
      simp [mergedText, hmerged, hne]
    · simp [mergedText, hmerged]
  · next left right hne =>
    have hnone : mergedText git base (some left) (some right) = none := by
      unfold mergedText
      split
      · next baseText pushedText onlineText hleft hright =>
        rw [Option.some.injEq] at hleft hright
        exact absurd hright (hne baseText pushedText onlineText rfl hleft)
      · rfl
    rw [hnone]
    by_cases heq : left = right
    · simp [heq]
    · simp [heq, Ne.symm heq]
  · simp [mergedText]
  · next hsome hnone _ =>
    have hmerged : mergedText git base pushed online = none := by
      unfold mergedText
      split
      · exact absurd rfl (hsome _ _ rfl)
      · rfl
    rw [hmerged]
    have hne : online ≠ pushed := by
      rintro rfl
      rcases online with _ | value
      · exact hnone rfl rfl
      · exact hsome value value rfl rfl
    simp [hne]

/-- Texts that are merged and have the same file are the same. -/
theorem eq_of_mergedText {text : Text} (h : mergedText git base pushed online = some text)
    (hfile : fileOf online = fileOf pushed) : online = pushed := by
  unfold mergedText at h
  split at h
  · rw [fileOf, fileOf, Option.map_some, Option.map_some, Option.some.injEq] at hfile
    rw [encodeUtf8_injective' hfile]
  · simp at h

section

variable (hagree : ∀ base text, git.mergeFile base text text = some text)
include hagree

/-- A text that both sides wrote is the merged one. -/
theorem mergedText_self {text : Text}
    (h : mergedText git base pushed pushed = some text) : pushed = some (.text text) := by
  rcases base with _ | (baseText | _)
  · simp [mergedText] at h
  · rcases pushed with _ | (pushedText | _)
    · simp [mergedText] at h
    · have htext : git.mergeFile baseText pushedText pushedText = some text := h
      rw [hagree, Option.some.injEq] at htext
      rw [htext]
    · simp [mergedText] at h
  · simp [mergedText] at h

/-- A path with the same value on both sides is left with it. -/
theorem mergeValue_self (hpushed : pushed ≠ base)
    : mergeValue git base pushed pushed = some pushed := by
  rw [mergeValue_of_both_changed hagree hpushed hpushed]
  split
  · next text htext => rw [mergedText_self hagree htext]
  · rw [if_pos rfl]

/-- The merge of values as the merge of their files. -/
theorem mergesByContent_iff {path : Text}
    (hbase : asCommitted git path base = base) (hpushed : asCommitted git path pushed = pushed) :
    MergesByContent git before base pushed online
        ((mergeValue git base pushed online).map fileOf)
      ↔ IsStoredAsRead git path before base pushed online := by
  have honlineBase : online = base ↔ _ := eq_iff_classified hbase
  have honlinePushed : online = pushed ↔ _ := eq_iff_classified hpushed
  have hpushedBase := eq_iff_of_asCommitted hpushed hbase
  by_cases hsame : online = base
  · -- the path is as it was committed
    have hfile : fileOf online = fileOf base := by rw [hsame]
    have hstored := (honlineBase.mp hsame).1
    have hvalue : mergeValue git base pushed online = some pushed := by
      unfold mergeValue
      rw [if_pos hsame]
    rw [hvalue]
    constructor
    · intro _
      unfold IsStoredAsRead
      split
      · split
        · exact hfile
        · exact .inl ⟨hstored, .inl hfile⟩
      · exact fun _ _ => hstored
    · intro _
      constructor
      · exact fun _ => rfl
      · intro h
        rw [Option.map_some, hfile, h]
      · exact fun _ => rfl
      · intro h
        simp at h
  by_cases hunchanged : pushed = base
  · -- nothing was pushed at the path
    have hfile : fileOf pushed = fileOf base := by rw [hunchanged]
    have hvalue : mergeValue git base pushed online = some online := by
      unfold mergeValue
      rw [if_neg hsame, if_pos hunchanged]
    rw [hvalue, Option.map_some]
    constructor
    · intro h
      unfold IsStoredAsRead
      split
      · next hbefore =>
        exact (Option.some.inj (h.unchanged_online hbefore)).trans hfile
      · exact fun hchanged => absurd hfile hchanged
    · intro h
      constructor
      · intro hbefore
        unfold IsStoredAsRead at h
        rw [if_pos hbefore, if_pos hfile] at h
        rw [h, hfile]
      · exact fun _ => rfl
      · intro h
        rw [h]
      · intro h
        simp at h
  -- both sides differ from the commit
  have hchanged : fileOf pushed ≠ fileOf base := fun h => hunchanged (hpushedBase.mpr h)
  constructor
  · intro h
    have hclassified : fileOf online = fileOf pushed → asCommitted git path online = online := by
      intro hfile
      have houtcome := h.same_change hfile
      rw [mergeValue_of_both_changed hagree hsame hunchanged] at houtcome
      split at houtcome
      · next text htext => exact (honlinePushed.mp (eq_of_mergedText htext hfile)).1
      · split at houtcome
        · next heq => exact (honlinePushed.mp heq).1
        · simp at houtcome
    unfold IsStoredAsRead
    split
    · next hbefore =>
      have houtcome := h.unchanged_online hbefore
      rw [mergeValue_of_both_changed hagree hsame hunchanged] at houtcome
      split at houtcome
      · next text htext => exact .inr ⟨text, htext, (Option.some.inj houtcome).symm⟩
      split at houtcome
      · next heq =>
        rcases honlinePushed.mp heq with ⟨hstored, hfile⟩
        exact .inl ⟨hstored, .inr hfile⟩
      · simp at houtcome
    · exact fun _ => hclassified
  · intro h
    unfold IsStoredAsRead at h
    -- a change that both made is stored as the loader classifies it
    have hequal : fileOf online = fileOf pushed → online = pushed := by
      intro hfile
      split at h
      · rcases h with ⟨hstored, -⟩ | ⟨text, htext, -⟩
        · exact honlinePushed.mpr ⟨hstored, hfile⟩
        · exact eq_of_mergedText htext hfile
      · exact honlinePushed.mpr ⟨h hchanged hfile, hfile⟩
    have hboth : fileOf online = fileOf pushed →
        (mergeValue git base pushed online).map fileOf = some (fileOf pushed) := by
      intro hfile
      rw [hequal hfile, mergeValue_self hagree hunchanged, Option.map_some]
    have honline : fileOf online = fileOf before →
        (mergeValue git base pushed online).map fileOf = some (fileOf pushed) := by
      intro hbefore
      rw [if_pos hbefore, if_neg hchanged] at h
      rcases h with ⟨hstored, hfile | hfile⟩ | ⟨text, htext, hfile⟩
      · exact absurd (honlineBase.mpr ⟨hstored, hfile⟩) hsame
      · exact hboth hfile
      · rw [mergeValue_of_both_changed hagree hsame hunchanged, htext, hfile]
        rfl
    constructor
    · exact honline
    · exact fun hfile => absurd hfile hchanged
    · exact hboth
    · intro hnone
      refine ⟨?_, hchanged, ?_, ?_⟩
      · intro hbefore
        rw [honline hbefore] at hnone
        simp at hnone
      · intro hfile
        rw [hboth hfile] at hnone
        simp at hnone
      · rw [mergeValue_of_both_changed hagree hsame hunchanged] at hnone
        split at hnone
        · simp at hnone
        · next hmerged => exact hmerged

end

end Values

/-- What the result of a merge says about a path is what the loop left there. -/
def MergeWorkspaceResult.Shows (loop : MergeLoop) : MergeWorkspaceResult → Prop
  | .merged files => ∀ path, loop.outcome path = some (fileOf (files.lookup path))
  | .conflicts paths => ∀ path, path ∈ paths ↔ loop.outcome path = none

theorem shows_mergeWorkspace (git : GitLibrary) {base pushed online : List (Text × MergeFileValue)}
    (keys : List Text) :
    (mergeWorkspace git base pushed online keys).Shows (mergeLoop git base pushed online keys) := by
  unfold mergeWorkspace MergeWorkspaceResult.Shows MergeLoop.outcome
  by_cases hnone : (mergeLoop git base pushed online keys).conflicts = []
  · simp [hnone]
  · rw [if_neg (by simpa using hnone)]
    intro path
    simp [sortPaths, List.mem_insertionSort]

/-- A path is merged by the contents of its files exactly where the workspace stores it as
the commit of the workspace is read; neither depends on the order of the paths. -/
theorem merges_by_content_iff (git : GitLibrary)
    (hagree : ∀ base text, git.mergeFile base text text = some text)
    {before online : ProjectContent} {index pushedTree : Tree}
    {base pushed : List (Text × MergeFileValue)}
    (hbase : loadGitState git (git.stage index (fileTree (contentFiles before))) = some base)
    (hpushed : loadGitState git pushedTree = some pushed) {keys : List Text}
    (hkeys : keys.Perm (mergePaths base pushed (mergeMap online))) :
    (∀ path, MergesByContent git ((mergeMap before).lookup path) (base.lookup path)
        (pushed.lookup path) ((mergeMap online).lookup path)
        ((mergeLoop git base pushed (mergeMap online) keys).outcome path)
      ↔ IsStoredAsRead git path ((mergeMap before).lookup path) (base.lookup path)
        (pushed.lookup path) ((mergeMap online).lookup path))
    ∧ (mergeWorkspace git base pushed (mergeMap online) keys).Shows
        (mergeLoop git base pushed (mergeMap online) keys)
    ∧ ∀ keys' : List Text, keys'.Perm (mergePaths base pushed (mergeMap online)) →
      (mergeWorkspace git base pushed (mergeMap online) keys).Same
        (mergeWorkspace git base pushed (mergeMap online) keys') := by
  refine ⟨?_, shows_mergeWorkspace git keys, ?_⟩
  · intro path
    rw [outcome_mergeLoop git hkeys]
    exact mergesByContent_iff hagree (asCommitted_of_loadGitState hbase path)
      (asCommitted_of_loadGitState hpushed path)
  · intro keys' hkeys'
    exact mergeWorkspace_perm git (hkeys.nodup_iff.mpr (List.nodup_dedup _))
      (hkeys.trans hkeys'.symm)

/-- A library that guesses no type of the paths below and stages every file. -/
def octetGit : GitLibrary where
  stage _ worktree := worktree
  checkoutHead _ index worktree := (index, worktree)
  checkout _ tree _ := tree
  reset tree _ := tree
  mergeFile _ pushed online := if pushed = online then some pushed else none
  contentType _ := "application/octet-stream".toList

theorem octetGit_agrees (base text : Text) : octetGit.mergeFile base text text = some text :=
  if_pos rfl

theorem pushed_text_is_taken :
    ((mergeLoop octetGit [(mainFile, .text ['x'])] [(mainFile, .text ['y'])]
      (mergeMap oneDocument.content) [mainFile]).outcome mainFile) = some (some [0x79]) := by
  have h := @merges_by_content_iff octetGit octetGit_agrees oneDocument.content oneDocument.content
    [] (fileTree [(mainFile, [0x79])]) [(mainFile, .text ['x'])] [(mainFile, .text ['y'])]
    (by decide +kernel) (by decide +kernel) [mainFile] (by decide +kernel)
  have hstored : IsStoredAsRead octetGit mainFile ((mergeMap oneDocument.content).lookup mainFile)
      (some (.text ['x'])) (some (.text ['y'])) ((mergeMap oneDocument.content).lookup mainFile) := by
    unfold IsStoredAsRead
    rw [if_pos rfl, if_neg (by decide +kernel)]
    exact .inl ⟨by decide +kernel, .inl (by decide +kernel)⟩
  exact ((h.1 mainFile).mpr hstored).unchanged_online rfl

/-- A figure that was uploaded as an image under a path without an extension. -/
def storedFigure : ProjectContent :=
  ⟨[⟨mainFile, ['x']⟩], [], [⟨['f', 'i', 'g'], "image/png".toList, [1]⟩], none⟩

theorem unchanged_asset_conflicts :
    ¬ ∀ (git : GitLibrary), (∀ base text, git.mergeFile base text text = some text) →
      ∀ (before online : ProjectContent) (index pushedTree : Tree)
        (base pushed : List (Text × MergeFileValue)) (keys : List Text),
      loadGitState git (git.stage index (fileTree (contentFiles before))) = some base →
      loadGitState git pushedTree = some pushed →
      keys.Perm (mergePaths base pushed (mergeMap online)) →
      ∀ path, MergesByContent git ((mergeMap before).lookup path) (base.lookup path)
        (pushed.lookup path) ((mergeMap online).lookup path)
        ((mergeLoop git base pushed (mergeMap online) keys).outcome path) := by
  intro hclaim
  let base := (loadGitState octetGit (fileTree (contentFiles storedFigure))).getD []
  let pushed := (loadGitState octetGit
    (fileTree [(mainFile, encodeUtf8 ['x']), (['f', 'i', 'g'], [2])])).getD []
  have h := hclaim octetGit octetGit_agrees storedFigure storedFigure []
    (fileTree [(mainFile, encodeUtf8 ['x']), (['f', 'i', 'g'], [2])]) base pushed
    (mergePaths base pushed (mergeMap storedFigure)) (by decide +kernel) (by decide +kernel)
    (List.Perm.refl _) ['f', 'i', 'g']
  have houtcome := h.unchanged_online rfl
  have hconflict : (mergeLoop octetGit base pushed (mergeMap storedFigure)
      (mergePaths base pushed (mergeMap storedFigure))).outcome ['f', 'i', 'g'] = none := by
    decide +kernel
  rw [hconflict] at houtcome
  simp at houtcome

end Toss.Versioning
