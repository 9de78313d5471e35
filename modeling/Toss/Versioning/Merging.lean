import Toss.Foundation.Fallible
import Toss.Versioning.Mirroring

/-!
# Merging what was pushed with what was edited

The three-way merge of a push, path by path: a file that was changed online is kept, or
merged with the text that was pushed.

* `loadGitState_of_mirrors` — a tree that mirrors a workspace is read as its files;
* `mergeLoop`, `mergeWorkspace` — the loop of `merge_online_over_pushed`, over the paths in any
  order, and its result;
* `mergeOnlineOverPushed_eq` — the merge, path by path, is that result;
* `lookup_mergeOnlineOverPushed` — the merge is the merge of every path;
* `keepsOnline_of_merge` — what becomes of the files that were changed online.
-/

namespace Toss.Versioning

open Toss.Foundation Toss.Workspace
open Toss.Processing (decodeUtf8)

/-! ## The directories of a path -/

theorem encodeUtf8_append (text text' : Text) :
    encodeUtf8 (text ++ text') = encodeUtf8 text ++ encodeUtf8 text' := by
  simp [encodeUtf8]

/-- Only the slash has its byte. -/
theorem slash_not_mem_utf8EncodeChar {c : Char} (h : c ≠ '/') :
    (0x2F : UInt8) ∉ String.utf8EncodeChar c :=
  fun hmem => h (eq_ofNat_of_mem_utf8EncodeChar (by decide) hmem)

/-- The directories of a path are text as well. -/
theorem treeRoot_encodeUtf8 (path : Text) :
    ∃ directories, treeRoot (encodeUtf8 path) = encodeUtf8 directories := by
  induction path using List.reverseRecOn with
  | nil => exact ⟨[], rfl⟩
  | append_singleton path c ih =>
    by_cases hc : c = '/'
    · refine ⟨path ++ [c], ?_⟩
      have hslash : encodeUtf8 [c] = [0x2F] := by
        rw [hc]
        decide
      rw [encodeUtf8_append, hslash]
      simp [treeRoot]
    · rcases ih with ⟨directories, hdirectories⟩
      refine ⟨directories, ?_⟩
      rw [← hdirectories, encodeUtf8_append]
      unfold treeRoot
      rw [List.reverse_append, List.dropWhile_append_of_pos]
      intro b hb
      have hbyte : b ∈ String.utf8EncodeChar c := by simpa [encodeUtf8] using hb
      simp only [ne_eq, decide_not, Bool.not_eq_eq_eq_not, Bool.not_true, decide_eq_false_iff_not]
      rintro rfl
      exact slash_not_mem_utf8EncodeChar hc hbyte

/-! ## Reading a commit -/

/-- The value of a blob holds its bytes. -/
@[simp] theorem bytes_blobValue (git : GitLibrary) (path : Text) (bytes : Bytes) :
    (blobValue git path bytes).bytes = bytes := by
  unfold blobValue
  split
  · split
    · next text hdecode => exact encodeUtf8_of_decodeUtf8 hdecode
    · rfl
  · rfl

/-- The file that a plain entry of a tree is read as. -/
def plainEntry (git : GitLibrary) (entry : Bytes × TreeFile) : Text × MergeFileValue :=
  let path := (decodeUtf8 entry.1).getD []
  (path, blobValue git path entry.2.bytes)

variable {path : Text}

theorem loadTreeEntry_of_plain (git : GitLibrary) {entry : Bytes × TreeFile}
    (hpath : entry.1 = encodeUtf8 path) (hproject : IsProjectPath path)
    (hmode : entry.2.mode.isFile = true) :
    loadTreeEntry git entry = some (some (plainEntry git entry)) := by
  rcases treeRoot_encodeUtf8 path with ⟨directories, hroot⟩
  have hdirectories : (decodeUtf8 (treeRoot entry.1)).isNone = false := by
    rw [hpath, hroot, decodeUtf8_encodeUtf8]
    rfl
  have hlink : entry.2.mode ≠ .gitlink := by
    intro hlink
    rw [hlink] at hmode
    exact absurd hmode (by decide)
  have hdecode : decodeUtf8 entry.1 = some path := by rw [hpath, decodeUtf8_encodeUtf8]
  have hsanitized : sanitizeProjectPath path = some path := hproject
  simp [loadTreeEntry, plainEntry, hdirectories, hlink, hdecode, hsanitized]

variable {tree : Tree} {git : GitLibrary}

variable {content : ProjectContent}

/-- A tree that mirrors a stored workspace is read as its files. -/
theorem loadGitState_of_mirrors (git : GitLibrary)
    (hpaths : ∀ file ∈ workspaceFiles content, IsProjectPath file.1)
    (hmirrors : Mirrors tree content) :
    ∃ state, loadGitState git tree = some state ∧ ∀ path,
      (state.lookup path).map MergeFileValue.bytes = (workspaceFiles content).lookup path := by
  -- every entry is a file of the workspace
  have hentry : ∀ entry ∈ dedupKeys tree, ∃ path, IsProjectPath path
      ∧ entry.1 = encodeUtf8 path ∧ entry.2.file = some entry.2.bytes := by
    rintro ⟨key, file⟩ hmem
    have hlookup : (treeFiles tree).lookup key = some file.file := by
      have hmap := lookup_map (Function.injective_id) TreeFile.file tree key
      rw [mem_dedupKeys.mp hmem] at hmap
      exact hmap
    rw [hmirrors.2 key] at hlookup
    rcases List.mem_map.mp (mem_of_lookup hlookup) with ⟨⟨path, bytes⟩, hfile, heq⟩
    rw [Prod.mk.injEq] at heq
    refine ⟨path, hpaths _ hfile, heq.1.symm, ?_⟩
    have hsome := heq.2.symm
    unfold TreeFile.file at hsome ⊢
    split at hsome
    · next hmode => rw [if_pos hmode]
    · simp at hsome
  set files := (dedupKeys tree).map (plainEntry git) with hfiles
  have hload : (dedupKeys tree).mapM (loadTreeEntry git) = some (files.map some) := by
    rw [hfiles, List.map_map]
    refine mapM_eq_map ?_
    intro entry hmem
    rcases hentry entry hmem with ⟨path, hproject, hpath, hfile⟩
    refine loadTreeEntry_of_plain git hpath hproject ?_
    unfold TreeFile.file at hfile
    split at hfile
    · next hmode => exact hmode
    · simp at hfile
  -- under their encoded paths the files are those of the tree
  have hencoded : files.map (fun file => (encodeUtf8 file.1, some file.2.bytes))
      = treeFiles (dedupKeys tree) := by
    rw [hfiles, List.map_map]
    refine List.map_congr_left ?_
    intro entry hmem
    rcases hentry entry hmem with ⟨path, -, hpath, hfile⟩
    simp [plainEntry, hpath, decodeUtf8_encodeUtf8, hfile]
  have hkeys : (files.map Prod.fst).Nodup := by
    have hnodup : ((files.map Prod.fst).map encodeUtf8).Nodup := by
      have hsame : (files.map Prod.fst).map encodeUtf8 = (dedupKeys tree).map Prod.fst := by
        have hfst := congrArg (List.map Prod.fst) hencoded
        simpa [treeFiles, Function.comp_def] using hfst
      rw [hsame]
      exact nodup_dedupKeys tree
    exact hnodup.of_map encodeUtf8
  -- what is walked last counts, but no path is walked twice
  have hreverse : (files.reverse.map Prod.fst).Nodup := by
    rw [List.map_reverse]
    exact List.nodup_reverse.mpr hkeys
  have hread : (files.map some).filterMap id = files := by simp [List.filterMap_map]
  refine ⟨dedupKeys (files.reverse.filter (fun file => !file.2.isText)
    ++ files.reverse.filter fun file => file.2.isText), ?_, ?_⟩
  · rw [loadGitState, hload, Option.map_some, hread]
  · intro path
    rw [lookup_partition hreverse (fun file => file.2.isText),
      SameEntries.of_perm hreverse (List.reverse_perm files) path]
    have hfile := lookup_map encodeUtf8_injective' (fun value : MergeFileValue => some value.bytes)
      files path
    have hworkspace := lookup_map encodeUtf8_injective' (some : Bytes → Option Bytes)
      (workspaceFiles content) path
    have htree : (treeFiles (dedupKeys tree)).lookup (encodeUtf8 path)
        = (treeFiles tree).lookup (encodeUtf8 path) :=
      (sameEntries_treeFiles (lookup_dedupKeys tree)) _
    rw [hencoded, htree, hmirrors.2 (encodeUtf8 path)] at hfile
    have hsome : ((files.lookup path).map MergeFileValue.bytes).map some
        = ((workspaceFiles content).lookup path).map some := by
      rw [Option.map_map]
      exact hfile.symm.trans hworkspace
    exact Option.map_injective (Option.some_injective _) hsome

/-- A file that a commit is read with is a blob under its sanitized path. -/
theorem blob_of_loadGitState {state : List (Text × MergeFileValue)} {value : MergeFileValue}
    (h : loadGitState git tree = some state) (hfile : (path, value) ∈ state) :
    IsProjectPath path ∧ ∃ bytes, value = blobValue git path bytes := by
  rcases Option.map_eq_some_iff.mp h with ⟨entries, hentries, rfl⟩
  have hmem := mem_of_lookup (mem_dedupKeys.mp hfile)
  have hentry : some (path, value) ∈ entries := by
    simp only [List.mem_append, List.mem_filter, List.mem_reverse, List.mem_filterMap, id] at hmem
    rcases hmem with ⟨⟨entry, hmem, rfl⟩, -⟩ | ⟨⟨entry, hmem, rfl⟩, -⟩
    · exact hmem
    · exact hmem
  rcases (mem_of_mapM hentries).mp hentry with ⟨entry, -, hload⟩
  unfold loadTreeEntry at hload
  split at hload
  · simp at hload
  split at hload
  · simp at hload
  split at hload
  · simp at hload
  rcases Option.map_eq_some_iff.mp hload with ⟨clean, hclean, heq⟩
  rw [Option.some.injEq, Prod.mk.injEq] at heq
  rw [← heq.2, ← heq.1]
  exact ⟨isProjectPath_of_sanitizeProjectPath hclean, _, rfl⟩

/-! ## Merging -/

/-- The accumulators of `merge_online_over_pushed`. -/
structure MergeLoop where
  merged : List (Text × MergeFileValue)
  conflicts : List Text
deriving DecidableEq, Repr

inductive MergeWorkspaceResult
  | merged (files : List (Text × MergeFileValue))
  | conflicts (paths : List Text)
deriving DecidableEq, Repr

/-- The body of the loop. -/
def mergeKey (git : GitLibrary) (base pushed online : List (Text × MergeFileValue))
    (loop : MergeLoop) (key : Text) : MergeLoop :=
  match mergeValue git (base.lookup key) (pushed.lookup key) (online.lookup key) with
  | none => { loop with conflicts := loop.conflicts ++ [key] }
  | some none => loop
  | some (some value) => { loop with merged := loop.merged ++ [(key, value)] }

def mergeLoop (git : GitLibrary) (base pushed online : List (Text × MergeFileValue))
    (keys : List Text) : MergeLoop :=
  keys.foldl (mergeKey git base pushed online) ⟨[], []⟩

/-- The keys of the three maps, in some order. -/
def mergePaths (base pushed online : List (Text × MergeFileValue)) : List Text :=
  (base.map Prod.fst ++ pushed.map Prod.fst ++ online.map Prod.fst).dedup

theorem nodup_mergePaths {base pushed online : List (Text × MergeFileValue)} :
    (mergePaths base pushed online).Nodup := List.nodup_dedup _

def mergeWorkspace (git : GitLibrary) (base pushed online : List (Text × MergeFileValue))
    (keys : List Text) : MergeWorkspaceResult :=
  let loop := mergeLoop git base pushed online keys
  if loop.conflicts.isEmpty then .merged loop.merged else .conflicts (sortPaths loop.conflicts)

variable {merged : List (Text × MergeFileValue)}

section Loop

variable (git : GitLibrary) (base pushed online : List (Text × MergeFileValue))

/-- The paths that conflict stay in the order they were visited. -/
theorem conflicts_mergeLoop (keys : List Text) :
    (mergeLoop git base pushed online keys).conflicts
      = keys.filter fun key =>
        (mergeValue git (base.lookup key) (pushed.lookup key) (online.lookup key)).isNone := by
  induction keys using List.reverseRecOn with
  | nil => rfl
  | append_singleton keys key ih =>
    unfold mergeLoop at ih ⊢
    rw [List.foldl_append, List.foldl_cons, List.foldl_nil, List.filter_append, ← ih]
    unfold mergeKey
    split
    · next hconflict => simp [hconflict]
    · next hnone => simp [hnone]
    · next hvalue => simp [hvalue]

theorem merged_mergeLoop (keys : List Text) :
    (mergeLoop git base pushed online keys).merged
      = keys.filterMap fun key =>
        (mergeValue git (base.lookup key) (pushed.lookup key) (online.lookup key)).join.map
          (key, ·) := by
  induction keys using List.reverseRecOn with
  | nil => rfl
  | append_singleton keys key ih =>
    unfold mergeLoop at ih ⊢
    rw [List.foldl_append, List.foldl_cons, List.foldl_nil, List.filterMap_append, ← ih]
    unfold mergeKey
    split
    · next hconflict => simp [hconflict]
    · next hnone => simp [hnone]
    · next hvalue => simp [hvalue]

/-- No path is merged twice. -/
theorem nodup_mergeLoop {keys : List Text} (hkeys : keys.Nodup) :
    ((mergeLoop git base pushed online keys).merged.map Prod.fst).Nodup := by
  rw [merged_mergeLoop]
  refine hkeys.sublist ?_
  clear hkeys
  induction keys with
  | nil => exact List.Sublist.slnil
  | cons key keys ih =>
    rw [List.filterMap_cons]
    split
    · exact ih.trans (List.sublist_cons_self key _)
    · next entry hentry =>
      rcases Option.map_eq_some_iff.mp hentry with ⟨value, -, rfl⟩
      exact ih.cons_cons key

variable {base pushed online} {keys : List Text}

theorem lookup_merged_mergeLoop (hkeys : keys.Nodup) (hpath : path ∈ keys) :
    (mergeLoop git base pushed online keys).merged.lookup path
      = (mergeValue git (base.lookup path) (pushed.lookup path) (online.lookup path)).join := by
  have hnodup := nodup_mergeLoop git base pushed online hkeys
  apply Option.ext
  intro value
  rw [lookup_eq_some_iff hnodup, merged_mergeLoop, List.mem_filterMap]
  constructor
  · rintro ⟨key, -, hvalue⟩
    rcases Option.map_eq_some_iff.mp hvalue with ⟨value', hvalue', heq⟩
    rw [Prod.mk.injEq] at heq
    rw [← heq.1, ← heq.2]
    exact hvalue'
  · intro hvalue
    exact ⟨path, hpath, by rw [hvalue]; rfl⟩

/-- A path that no side holds is left with nothing. -/
theorem mergeValue_none : mergeValue git none none none = some none := by
  simp [mergeValue]

/-- The loop merges the paths it visits. -/
theorem mem_of_mem_mergeLoop
    (h : path ∈ (mergeLoop git base pushed online keys).merged.map Prod.fst) : path ∈ keys := by
  rw [merged_mergeLoop] at h
  rcases List.mem_map.mp h with ⟨entry, hentry, rfl⟩
  rcases List.mem_filterMap.mp hentry with ⟨key, hkey, hvalue⟩
  rcases Option.map_eq_some_iff.mp hvalue with ⟨value, -, rfl⟩
  exact hkey

theorem lookup_mergeLoop_of_not_mem (hpath : path ∉ keys) :
    (mergeLoop git base pushed online keys).merged.lookup path = none :=
  lookup_eq_none_of_not_mem fun hmem => hpath (mem_of_mem_mergeLoop git hmem)

/-- The result of the loop is that of the merge, path by path. -/
theorem mergeOnlineOverPushed_eq :
    mergeOnlineOverPushed git base pushed online
      = match mergeWorkspace git base pushed online (mergePaths base pushed online) with
        | .merged files => some files
        | .conflicts _ => none := by
  have hkeys : ∀ keys : List Text,
      ((keys.mapM fun key =>
          (mergeValue git (base.lookup key) (pushed.lookup key) (online.lookup key)).map
            fun value => (key, value)).map fun merged =>
          merged.filterMap fun entry => entry.2.map (entry.1, ·))
        = if (mergeLoop git base pushed online keys).conflicts = [] then
            some (mergeLoop git base pushed online keys).merged else none := by
    intro keys
    rw [conflicts_mergeLoop, merged_mergeLoop]
    induction keys with
    | nil => rfl
    | cons key keys ih =>
      rw [List.mapM_cons, List.filter_cons, List.filterMap_cons]
      rcases hvalue : mergeValue git (base.lookup key) (pushed.lookup key) (online.lookup key)
        with _ | value
      · -- a conflict, whatever the other paths are left with
        simp
      · split at ih
        · next hnone =>
          rcases Option.map_eq_some_iff.mp ih with ⟨merged, hmerged, heq⟩
          cases value <;> simp [hmerged, hnone, heq]
        · next hsome =>
          rw [Option.map_eq_none_iff] at ih
          simp [ih, hsome]
  have hmerge := hkeys (mergePaths base pushed online)
  unfold mergeWorkspace
  dsimp only
  rw [mergeOnlineOverPushed, ← mergePaths, hmerge]
  split
  · next hnone => simp [hnone]
  · next hsome => simp [hsome]

variable {git}

/-- A merge that goes through is what the loop has merged, without a conflict. -/
theorem merged_of_mergeOnlineOverPushed
    (h : mergeOnlineOverPushed git base pushed online = some merged) :
    (mergeLoop git base pushed online (mergePaths base pushed online)).conflicts = []
      ∧ (mergeLoop git base pushed online (mergePaths base pushed online)).merged = merged := by
  rw [mergeOnlineOverPushed_eq] at h
  unfold mergeWorkspace at h
  dsimp only at h
  split at h
  · next heq =>
    split at heq
    · next hnone =>
      cases heq
      exact ⟨List.isEmpty_iff.mp hnone, Option.some.inj h⟩
    · cases heq
  · cases h

/-- A merge merges every path. -/
theorem lookup_mergeOnlineOverPushed
    (h : mergeOnlineOverPushed git base pushed online = some merged) (path : Text) :
    mergeValue git (base.lookup path) (pushed.lookup path) (online.lookup path)
      = some (merged.lookup path) := by
  rcases merged_of_mergeOnlineOverPushed h with ⟨hnone, rfl⟩
  by_cases hpath : path ∈ mergePaths base pushed online
  · rw [lookup_merged_mergeLoop git nodup_mergePaths hpath]
    rw [conflicts_mergeLoop, List.filter_eq_nil_iff] at hnone
    rcases hvalue : mergeValue git (base.lookup path) (pushed.lookup path) (online.lookup path)
      with _ | value
    · exact absurd (by rw [hvalue]; rfl) (hnone path hpath)
    · rfl
  · rw [lookup_mergeLoop_of_not_mem git hpath]
    rw [mergePaths, List.mem_dedup, List.mem_append, List.mem_append, not_or, not_or] at hpath
    rw [lookup_eq_none_of_not_mem hpath.1.1, lookup_eq_none_of_not_mem hpath.1.2,
      lookup_eq_none_of_not_mem hpath.2, mergeValue_none]

/-- The paths of a merge are distinct, and are paths of one of its sides. -/
theorem paths_mergeOnlineOverPushed
    (h : mergeOnlineOverPushed git base pushed online = some merged) :
    (merged.map Prod.fst).Nodup
      ∧ ∀ path ∈ merged.map Prod.fst,
        path ∈ base.map Prod.fst ++ pushed.map Prod.fst ++ online.map Prod.fst := by
  rcases merged_of_mergeOnlineOverPushed h with ⟨-, rfl⟩
  refine ⟨nodup_mergeLoop git base pushed online nodup_mergePaths, ?_⟩
  intro path hpath
  exact List.mem_dedup.mp (mem_of_mem_mergeLoop git hpath)

end Loop

/-- A value that was changed online is kept, or merged with the text that was pushed. -/
theorem mergeValue_of_changed {base pushed online merged : Option MergeFileValue}
    (h : mergeValue git base pushed online = some merged) (hchanged : online ≠ base) :
    merged = online ∨ ∃ baseText pushedText onlineText mergedText,
      git.mergeFile baseText pushedText onlineText = some mergedText
        ∧ base = some (.text baseText) ∧ online = some (.text onlineText)
        ∧ merged = some (.text mergedText) := by
  unfold mergeValue at h
  rw [if_neg hchanged] at h
  split at h
  · exact .inl (Option.some.inj h).symm
  split at h
  · next baseText pushedText onlineText _ =>
    rcases Option.map_eq_some_iff.mp h with ⟨mergedText, hmerged, rfl⟩
    exact .inr ⟨baseText, pushedText, onlineText, mergedText, hmerged, rfl, rfl, rfl⟩
  · split at h
    · next left right hsame =>
      rw [← hsame]
      exact .inl (Option.some.inj h).symm
    · simp at h
  · exact .inl (Option.some.inj h).symm
  · simp at h

/-! ## What becomes of the files online -/

/-- The file of a workspace at a path. -/
def workspaceFile (content : ProjectContent) (path : Text) : Option Bytes :=
  (workspaceFiles content).lookup path

/-- The file at a path that a tree is read with. -/
def headFile (git : GitLibrary) (tree : Tree) (path : Text) : Option Bytes :=
  ((loadGitState git tree).bind fun state => state.lookup path).map MergeFileValue.bytes

/-- Every file that differs online from the one in a tree is kept, or its text is merged with
what was pushed. -/
def KeepsOnline (git : GitLibrary) (tree : Tree) (online result : ProjectContent) : Prop :=
  ∀ path, workspaceFile online path ≠ headFile git tree path →
    workspaceFile result path = workspaceFile online path
      ∨ ∃ baseText pushedText onlineText mergedText,
        git.mergeFile baseText pushedText onlineText = some mergedText
          ∧ headFile git tree path = some (encodeUtf8 baseText)
          ∧ workspaceFile online path = some (encodeUtf8 onlineText)
          ∧ workspaceFile result path = some (encodeUtf8 mergedText)

/-- A tree that mirrors the workspace differs nowhere. -/
theorem keepsOnline_of_mirrors {online : ProjectContent}
    (hpaths : ∀ file ∈ workspaceFiles online, IsProjectPath file.1)
    (hmirrors : Mirrors tree online) (result : ProjectContent) :
    KeepsOnline git tree online result := by
  rcases loadGitState_of_mirrors git hpaths hmirrors with ⟨state, hload, hfiles⟩
  intro path hdiffers
  refine absurd ?_ hdiffers
  rw [workspaceFile, headFile, hload, ← hfiles path]
  rfl

/-- The merge map of a workspace holds its files. -/
theorem lookup_mergeMap (hdistinct : HasDistinctPaths content) (path : Text) :
    ((mergeMap content).lookup path).map MergeFileValue.bytes = workspaceFile content path := by
  have hperm := contentFiles_perm hdistinct
  have hsame := SameEntries.of_perm ((hperm.map Prod.fst).nodup_iff.mpr hdistinct) hperm path
  have hmap := lookup_map Function.injective_id MergeFileValue.bytes (mergeMap content) path
  rw [workspaceFile, ← hsame, ← hmap]
  rfl

theorem mem_paths_mergeMap (h : path ∈ (mergeMap content).map Prod.fst) :
    path ∈ (workspaceFiles content).map Prod.fst := by
  rcases List.mem_map.mp h with ⟨⟨key, value⟩, hmem, rfl⟩
  have hentry := mem_of_lookup (mem_dedupKeys.mp hmem)
  simp only [List.mem_append, List.mem_map] at hentry
  rcases hentry with ⟨asset, hasset, heq⟩ | ⟨document, hdocument, heq⟩
  · rw [Prod.mk.injEq] at heq
    rw [← heq.1]
    exact List.mem_map_of_mem (List.mem_append_right _ (List.mem_map_of_mem hasset))
  · rw [Prod.mk.injEq] at heq
    rw [← heq.1]
    exact List.mem_map_of_mem (List.mem_append_left _ (List.mem_map_of_mem hdocument))

/-- A merge that was imported keeps what was changed online. -/
theorem keepsOnline_of_merge {projectType : ProjectType} {entryFilePath : Text}
    {online : ProjectContent} {base pushed : List (Text × MergeFileValue)}
    {files : List (Text × Bytes)} {prepared : PreparedRepoImport}
    (hpaths : ∀ file ∈ workspaceFiles online, IsProjectPath file.1)
    (hdistinct : HasDistinctPaths online) (hbase : loadGitState git tree = some base)
    (hpushed : ∀ file ∈ pushed, IsProjectPath file.1)
    (hmerged : mergeOnlineOverPushed git base pushed (mergeMap online) = some merged)
    (hfiles : materializeMergeMapToDir merged = some files)
    (hprepared : prepareRepoImport git projectType entryFilePath files = .ok prepared) :
    KeepsOnline git tree online prepared.content := by
  rcases paths_mergeOnlineOverPushed hmerged with ⟨hnodup, hsides⟩
  have hwritten : files = mergeFiles merged := by
    unfold materializeMergeMapToDir at hfiles
    split at hfiles
    · exact (Option.some.inj hfiles).symm
    · simp at hfiles
  have hproject : ∀ file ∈ files, IsProjectPath file.1 := by
    intro file hfile
    rw [hwritten] at hfile
    rcases List.mem_map.mp hfile with ⟨entry, hentry, rfl⟩
    rcases List.mem_append.mp (hsides entry.1 (List.mem_map_of_mem hentry)) with hside | honline
    · rcases List.mem_append.mp hside with hside | hside
      · rcases List.mem_map.mp hside with ⟨other, hother, heq⟩
        exact heq ▸ (blob_of_loadGitState hbase hother).1
      · rcases List.mem_map.mp hside with ⟨other, hother, heq⟩
        exact heq ▸ hpushed other hother
    · rcases List.mem_map.mp (mem_paths_mergeMap honline) with ⟨other, hother, heq⟩
      exact heq ▸ hpaths other hother
  -- the imported workspace has the files of the merge
  have hresult : ∀ path, workspaceFile prepared.content path
      = (merged.lookup path).map MergeFileValue.bytes := by
    intro path
    have hperm := workspaceFiles_of_prepareRepoImport hproject hprepared
    have hkeys : (files.map Prod.fst).Nodup := by
      rw [hwritten]
      simpa [mergeFiles, Function.comp_def] using hnodup
    have hsame := SameEntries.of_perm hkeys hperm.symm path
    have hmap := lookup_map Function.injective_id MergeFileValue.bytes merged path
    rw [workspaceFile, ← hsame, ← hmap, hwritten]
    rfl
  intro path hdiffers
  have hhead : headFile git tree path = (base.lookup path).map MergeFileValue.bytes := by
    rw [headFile, hbase]
    rfl
  have honline := lookup_mergeMap hdistinct path
  have hchanged : (mergeMap online).lookup path ≠ base.lookup path := by
    intro hsame
    rw [← honline, hhead, hsame] at hdiffers
    exact hdiffers rfl
  rcases mergeValue_of_changed (lookup_mergeOnlineOverPushed hmerged path) hchanged with
    hkept | ⟨baseText, pushedText, onlineText, mergedText, hmerge, hbaseText, honlineText, htext⟩
  · left
    rw [hresult, hkept, honline]
  right
  refine ⟨baseText, pushedText, onlineText, mergedText, hmerge, ?_, ?_, ?_⟩
  · rw [hhead, hbaseText]
    rfl
  · rw [← honline, honlineText]
    rfl
  · rw [hresult, htext]
    rfl

end Toss.Versioning
