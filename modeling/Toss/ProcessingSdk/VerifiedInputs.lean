import Mathlib.Algebra.Order.BigOperators.Group.List
import Mathlib.Algebra.Order.Group.Nat
import Toss.ProcessingSdk.Extraction

/-!
# Verified inputs

What `verify_input` accepts is what the claim and the manifest say, and lies where it should.

* `ExtractsExactly` — the files of a project bundle are those its manifest declares;
* `InputLaw`, `verifyInput_law` — what `verify_input` accepts;
* `BundleLaw`, `extraction_is_confined_and_exact` — the same for the archive that a worker delivers.
-/

namespace Toss.ProcessingSdk

open Toss.Foundation
open Toss.Processing (ArchiveEntry BundleExact Externals ValidatedWorkspaceBundle
  WorkspaceBundleManifest append_of_stripPrefix hexEncode manifestName projectPrefix
  validateWorkspaceBundle validateWorkspaceBundle_exact)
open Toss.Workspace

/-- The files below `root` are those that `manifest` declares, from the entries of the archive. -/
structure ExtractsExactly (libraries : InputLibraries) (limits : InputLimits)
    (entries : List ArchiveEntry) (manifest : ProjectBundleManifest) (before : Files)
    (root : List Text) (after : Files) : Prop where
  outside : FileTree.SameOutside root before after
  plain : ∀ place, root <+: place → after place ≠ none →
    place = root ∨ ∃ rest, place = root ++ [projectName] ++ rest ∧ ∀ name ∈ rest, IsPlainName name
  /-- A file has nothing below it. -/
  apart : ∀ place bytes below, after place = some (.file bytes) → below ≠ [] →
    after (place ++ below) = none
  declared : ∀ record ∈ manifest.files, ∃ entry ∈ entries,
    entry.name = projectPrefix ++ record.path
      ∧ after (root ++ [projectName] ++ segments record.path) = some (.file entry.bytes)
      ∧ (entry.bytes.length : Int) = record.sizeBytes
      ∧ hexEncode (libraries.sha256 entry.bytes) = record.sha256
  only : ∀ place bytes, root <+: place → after place = some (.file bytes) →
    ∃ record ∈ manifest.files, place = root ++ [projectName] ++ segments record.path
  once : (manifest.files.map (·.path)).Nodup
    ∧ (entries.filterMap writtenPath).Perm (manifest.files.map (·.path))
  manifest : ∃ entry ∈ entries, entry.name = manifestName
    ∧ libraries.parseManifest entry.bytes = some manifest
  expanded : (entries.map expandedBytes).sum ≤ limits.maxExpandedBytes
  count : entries.length ≤ limits.maxBundleFiles + 1

/-! ## The manifest -/

/-- A record that has been checked. -/
def IsChecked (libraries : InputLibraries) (projectDir : List Text) (extraction : Extraction)
    (record : ProjectBundleFile) : Prop :=
  safeRelativePath record.path = true
    ∧ projectPrefix ++ record.path ∈ extraction.materializedFiles
    ∧ ∃ bytes, extraction.files (resolve projectDir record.path) = some (.file bytes)
      ∧ (bytes.length : Int) = record.sizeBytes ∧ hexEncode (libraries.sha256 bytes) = record.sha256

variable {files : Files}

theorem readFile_eq_some {place : List Text} {bytes : Bytes}
    (h : readFile files place = some bytes) : files place = some (.file bytes) := by
  rw [readFile] at h
  split at h
  · next hfile =>
    cases h
    exact hfile
  · cases h

variable {libraries : InputLibraries} {extraction : Extraction}

variable {paths projectDir : List Text}

theorem checkRecord_ok {paths' : List Text} {record : ProjectBundleFile}
    (h : checkRecord libraries projectDir extraction paths record = .ok paths') :
    IsChecked libraries projectDir extraction record ∧ record.path ∉ paths
      ∧ paths' = record.path :: paths := by
  rw [checkRecord] at h
  split at h
  · cases h
  rename_i hrecord
  simp only [Bool.or_eq_true, not_or, Bool.not_eq_true', Bool.not_eq_false,
    List.contains_iff_mem] at hrecord
  rcases hrecord with ⟨⟨⟨⟨⟨hsafe, hnew⟩, hmaterialized⟩, -⟩, -⟩, -⟩
  split at h
  · cases h
  rename_i bytes hread
  split at h
  · cases h
  rename_i hsame
  simp only [not_or, ne_eq, not_not] at hsame
  exact ⟨⟨hsafe, hmaterialized, bytes, readFile_eq_some hread, hsame⟩, hnew,
    (Except.ok.inj h).symm⟩

theorem checkRecords_ok {records : List ProjectBundleFile}
    (h : records.foldlM (checkRecord libraries projectDir extraction) [] = .ok paths) :
    (∀ record ∈ records, IsChecked libraries projectDir extraction record)
      ∧ (records.map (·.path)).Nodup := by
  have hall : (∀ record ∈ records, IsChecked libraries projectDir extraction record)
      ∧ (∀ path, path ∈ paths ↔ path ∈ records.map (·.path)) ∧ (records.map (·.path)).Nodup := by
    refine foldlM_ok (P := fun done paths =>
      (∀ record ∈ done, IsChecked libraries projectDir extraction record)
        ∧ (∀ path, path ∈ paths ↔ path ∈ done.map (·.path)) ∧ (done.map (·.path)).Nodup) h
      ⟨fun _ hrecord => absurd hrecord List.not_mem_nil, fun _ => .rfl, List.nodup_nil⟩ ?_
    rintro done record paths paths' ⟨hchecked, hpaths, hnodup⟩ - hrecord
    rcases checkRecord_ok hrecord with ⟨hone, hnew, rfl⟩
    refine ⟨?_, ?_, ?_⟩
    · intro other hother
      rcases List.mem_append.mp hother with hold | hlast
      · exact hchecked other hold
      · rw [List.mem_singleton.mp hlast]
        exact hone
    · intro path
      rw [List.mem_cons, hpaths, List.map_append, List.mem_append, List.map_singleton,
        List.mem_singleton, or_comm]
    · rw [List.map_append, List.map_singleton]
      refine List.nodup_append.mpr ⟨hnodup, List.nodup_singleton _, ?_⟩
      intro a ha b hb
      rw [List.mem_singleton.mp hb]
      rintro rfl
      exact hnew ((hpaths _).mpr ha)
  exact ⟨hall.1, hall.2.2⟩

variable {manifest : ProjectBundleManifest} {inputSchema : Text}

theorem validateManifest_ok
    (h : validateManifest libraries manifest inputSchema projectDir extraction = .ok ()) :
    manifest.files.length = extraction.materializedFiles.length
      ∧ (∀ record ∈ manifest.files, IsChecked libraries projectDir extraction record)
      ∧ (manifest.files.map (·.path)).Nodup := by
  rw [validateManifest] at h
  split at h
  · cases h
  rename_i hheader
  simp only [Bool.or_eq_true, not_or, decide_eq_true_eq, ne_eq, not_not] at hheader
  rcases bind_eq_ok.mp h with ⟨paths, hrecords, -⟩
  exact ⟨hheader.1.1.1.1.1.2, checkRecords_ok hrecords⟩

/-! ## The bundle -/

variable {before : Files} {entries : List ArchiveEntry}

/-- The files of the entries and the records of the manifest are the same. -/
theorem Extracted.extractsExactly {limits : InputLimits} {root : List Text}
    (h : Extracted limits before root entries extraction)
    (hcount : entries.length ≤ limits.maxBundleFiles + 1)
    (hmanifest : extraction.manifestBytes.bind libraries.parseManifest = some manifest)
    (hvalid : validateManifest libraries manifest inputSchema (root ++ [projectName]) extraction
      = .ok ()) :
    ExtractsExactly libraries limits entries manifest before root extraction.files := by
  rcases validateManifest_ok hvalid with ⟨hlength, hchecked, hnodup⟩
  have hsubset : manifest.files.map (·.path) ⊆ entries.filterMap writtenPath := by
    intro path hpath
    rcases List.mem_map.mp hpath with ⟨record, hrecord, rfl⟩
    rcases List.mem_map.mp (h.materialized.mem_iff.mp (hchecked record hrecord).2.1) with
      ⟨other, hother, hsame⟩
    rw [← List.append_cancel_left hsame]
    exact hother
  -- as many files as records, and each record has one
  have honce : (entries.filterMap writtenPath).Perm (manifest.files.map (·.path)) := by
    refine ((List.subperm_of_subset hnodup hsubset).perm_of_length_le ?_).symm
    rw [List.length_map, hlength, h.materialized.length_eq, List.length_map]
  refine ⟨h.confined.outside, h.confined.plain, ?_, ?_, ?_, ⟨hnodup, honce⟩, ?_, ?_, hcount⟩
  · intro place bytes below hfile hbelow
    exact h.confined.shaped.below_file hfile hbelow
  · intro record hrecord
    rcases hchecked record hrecord with ⟨hsafe, -, bytes, hfile, hsame⟩
    rcases List.mem_filterMap.mp (hsubset (List.mem_map_of_mem hrecord)) with
      ⟨entry, hentry, hpath⟩
    rcases h.written entry hentry record.path hpath with ⟨-, hplain, hwritten⟩
    rw [(resolve_of_plain hplain _).1, hwritten] at hfile
    rcases FileNode.file.inj (Option.some.inj hfile) with rfl
    refine ⟨entry, hentry, ?_, hwritten, hsame⟩
    rw [writtenPath] at hpath
    split at hpath
    · cases hpath
    · exact append_of_stripPrefix (Option.filter_eq_some_iff.mp hpath).1
  · intro place bytes hbelow hfile
    rcases h.files place bytes hbelow hfile with ⟨entry, hentry, path, hpath, hplace⟩
    have hmem : path ∈ manifest.files.map (·.path) :=
      honce.mem_iff.mp (List.mem_filterMap.mpr ⟨entry, hentry, hpath⟩)
    rcases List.mem_map.mp hmem with ⟨record, hrecord, rfl⟩
    exact ⟨record, hrecord, hplace⟩
  · rcases Option.bind_eq_some_iff.mp hmanifest with ⟨bytes, hbytes, hparsed⟩
    rcases h.manifest bytes hbytes with ⟨entry, hentry, hname, rfl⟩
    exact ⟨entry, hentry, hname, hparsed⟩
  · rw [← h.actual]
    exact h.limit

variable {tempDir : List Text} {temp : Text}

/-- The two directories that are there before the archive is read. -/
theorem confined_createDirs {files' : Files} (hshaped : before.Shaped)
    (htemp : createDir before tempDir temp = some files)
    (hproject : createDir files (tempDir ++ [temp]) projectName = some files') :
    Confined before (tempDir ++ [temp]) files'
      ∧ ∀ place bytes, tempDir ++ [temp] <+: place → files' place ≠ some (.file bytes) := by
  rw [createDir] at htemp hproject
  split at htemp
  next hfree =>
    cases htemp
    split at hproject
    next hfree' =>
      cases hproject
      have hshaped' := hshaped.put hfree.1 hfree.2 .directory
      -- nothing was below the new directory
      have hempty : ∀ place, tempDir ++ [temp] <+: place → before place = none := by
        rintro place ⟨below, rfl⟩
        by_contra hsome
        by_cases hbelow : below = []
        · rw [hbelow, List.append_nil] at hsome
          exact hsome hfree.2
        · have hdirectory := hshaped _ below hbelow hsome
          rw [hfree.2] at hdirectory
          cases hdirectory
      have hne : tempDir ++ [temp] ≠ tempDir ++ [temp] ++ [projectName] := by simp
      have hplaces : ∀ place, tempDir ++ [temp] <+: place →
          ((before.put (tempDir ++ [temp]) .directory).put (tempDir ++ [temp] ++ [projectName])
            .directory) place ≠ none →
          place = tempDir ++ [temp] ∨ place = tempDir ++ [temp] ++ [projectName] := by
        intro place hbelow hsome
        by_cases hproject : place = tempDir ++ [temp] ++ [projectName]
        · exact .inr hproject
        refine .inl ?_
        by_contra htemp
        rw [FileTree.put_of_ne hproject, FileTree.put_of_ne htemp, hempty place hbelow] at hsome
        exact hsome rfl
      refine ⟨⟨hshaped'.put hfree'.1 hfree'.2 .directory, ?_, ?_, FileTree.put_self _ _ _, ?_⟩, ?_⟩
      · intro place hplace
        have htemp : place ≠ tempDir ++ [temp] := by
          rintro rfl
          exact hplace (List.prefix_refl _)
        have hproject : place ≠ tempDir ++ [temp] ++ [projectName] := by
          rintro rfl
          exact hplace (List.prefix_append _ _)
        rw [FileTree.put_of_ne hproject, FileTree.put_of_ne htemp]
      · rw [FileTree.put_of_ne hne]
        exact FileTree.put_self _ _ _
      · intro place hbelow hsome
        rcases hplaces place hbelow hsome with htemp | hproject
        · exact .inl htemp
        · exact .inr ⟨[], by rw [hproject, List.append_nil],
            fun _ hname => absurd hname List.not_mem_nil⟩
      · intro place bytes hbelow hfile
        rcases hplaces place hbelow (by rw [hfile]; exact Option.some_ne_none _) with rfl | rfl
        · rw [FileTree.put_of_ne hne, FileTree.put_self] at hfile
          cases hfile
        · rw [FileTree.put_self] at hfile
          cases hfile
    next => cases hproject
  next => cases htemp

/-- A presentation is passed on as it is, and makes nothing. A project bundle becomes the files
that its manifest declares, in a fresh directory. -/
def InputLaw (libraries : InputLibraries) (limits : InputLimits) (before : Files)
    (tempDir : List Text) (temp : Text) (content : Bytes) (input : WorkerClaimInput) :
    ProcessorInput → Files → Prop
  | .binary schema bytes, after => schema = input.schema ∧ bytes = content ∧ after = before
  | .project projectDir manifest, after => projectDir = tempDir ++ [temp] ++ [projectName]
      ∧ ∃ entries, libraries.openArchive content = some (entries.map some)
        ∧ ExtractsExactly libraries limits entries manifest before (tempDir ++ [temp]) after

theorem verifyInput_law {limits : InputLimits} {after : Files} {content : Bytes}
    {input : WorkerClaimInput} {verified : ProcessorInput} (hshaped : before.Shaped)
    (h : verifyInput libraries limits before tempDir temp content input = .ok (verified, after)) :
    InputLaw libraries limits before tempDir temp content input verified after := by
  rw [verifyInput] at h
  split at h
  · cases h
  split at h
  · cases h
  split at h
  · rw [verifyAndExtractProject] at h
    split at h
    · cases h
    next files hdirs =>
    rcases Option.bind_eq_some_iff.mp hdirs with ⟨tempFiles, htemp, hproject⟩
    rcases confined_createDirs hshaped htemp hproject with ⟨hconfined, hnoFile⟩
    split at h
    · cases h
    next entries hopen =>
    split at h
    · cases h
    next hcount =>
    rcases bind_eq_ok.mp h with ⟨extraction, hextract, hrest⟩
    -- before the first entry there is only the new directory
    have hstart : Extracted limits before (tempDir ++ [temp]) [] ⟨[], 0, 0, none, [], files⟩ := by
      refine ⟨?_, List.nodup_nil, hconfined, ?_, ?_, .nil, rfl, Nat.zero_le _, ⟨rfl, Nat.zero_le _⟩,
        nofun⟩
      · simp
      · intro place bytes hbelow hfile
        exact absurd hfile (hnoFile place bytes hbelow)
      · simp
    rcases hstart.extractEntries hextract with ⟨opened, rfl, hextracted⟩
    split at hrest
    · cases hrest
    next manifest hmanifest =>
    rcases bind_eq_ok.mp hrest with ⟨_, hvalid, hdone⟩
    rcases Prod.mk.inj (Except.ok.inj hdone) with ⟨rfl, rfl⟩
    refine ⟨rfl, opened, hopen, hextracted.extractsExactly ?_ hmanifest hvalid⟩
    rw [not_or, List.length_map] at hcount
    exact not_lt.mp hcount.2
  · split at h
    · rcases Prod.mk.inj (Except.ok.inj h) with ⟨rfl, rfl⟩
      exact ⟨rfl, rfl, rfl⟩
    · cases h

/-! ## Result archives -/

/-- The law of an input, for the archive that a worker delivers. -/
structure BundleLaw (externals : Externals) (maxExpandedBytes : Nat) (entries : List ArchiveEntry)
    (manifest : WorkspaceBundleManifest) (bundle : ValidatedWorkspaceBundle) : Prop
    extends BundleExact externals maxExpandedBytes entries manifest bundle where
  expanded : (entries.map (·.bytes.length)).sum ≤ maxExpandedBytes

theorem sum_bytes_le (h : ∀ entry ∈ entries, entry.bytes.length ≤ entry.size) :
    (entries.map (·.bytes.length)).sum ≤ (entries.map (·.size)).sum :=
  List.sum_le_sum h

/-- What `verify_input` accepts is confined and exact. What `validate_workspace_bundle` accepts is
exact as well, but it counts the sizes that the archive declares: it keeps the limit when the
entries yield no more than that. -/
theorem extraction_is_confined_and_exact (libraries : InputLibraries) (limits : InputLimits)
    (externals : Externals) (maxExpandedBytes : Nat) {before : Files} (hshaped : before.Shaped) :
    (∀ tempDir temp content input verified after,
      verifyInput libraries limits before tempDir temp content input = .ok (verified, after) →
        InputLaw libraries limits before tempDir temp content input verified after)
    ∧ ∀ content bundle, validateWorkspaceBundle externals content maxExpandedBytes = .ok bundle →
        ∃ entries manifest, externals.openArchive content = some (entries.map some)
          ∧ BundleExact externals maxExpandedBytes entries manifest bundle
          ∧ (BundleLaw externals maxExpandedBytes entries manifest bundle
            ↔ (entries.map (·.bytes.length)).sum ≤ maxExpandedBytes)
          ∧ ((∀ entry ∈ entries, entry.bytes.length ≤ entry.size) →
            BundleLaw externals maxExpandedBytes entries manifest bundle) := by
  constructor
  · intro tempDir temp content input verified after h
    exact verifyInput_law hshaped h
  · intro content bundle h
    rcases validateWorkspaceBundle_exact h with ⟨entries, manifest, hopen, hexact⟩
    refine ⟨entries, manifest, hopen, hexact, ⟨fun hlaw => hlaw.expanded, ?_⟩, ?_⟩
    · intro hexpanded
      exact ⟨hexact, hexpanded⟩
    · intro hhonest
      exact ⟨hexact, (sum_bytes_le hhonest).trans hexact.declaredExpanded⟩

section Examples

/-- A presentation's bytes stand for every archive; its digest is thirty-two zeros. -/
def zeroDigest : Bytes → Bytes := fun _ => List.replicate 32 0

def zeroHex : Text := List.replicate 64 '0'

/-- A manifest and one document, in entries that declare `size` bytes each. -/
def twoEntries (size : Nat) : List ArchiveEntry :=
  [⟨manifestName, false, none, size, [1, 2], false⟩,
    ⟨projectPrefix ++ ['a', '.', 't', 'y', 'p'], false, none, size, [97, 98], false⟩]

def twoEntriesExternals (size : Nat) : Externals where
  sha256 := zeroDigest
  openArchive _ := some ((twoEntries size).map some)
  parseManifest _ := some ⟨Processing.bundleSchema, .typst, ['a', '.', 't', 'y', 'p'],
    [⟨['a', '.', 't', 'y', 'p'], "document".toList, none, 2, zeroHex⟩]⟩
  mimeEssence := some
  reportSchema _ := none
  validatePptx _ _ := false

def twoEntriesLibraries : InputLibraries where
  sha256 := zeroDigest
  openArchive _ := some ((twoEntries 2).map some)
  parseManifest _ := some ⟨"project-bundle/v1".toList, ['t'], ['a', '.', 't', 'y', 'p'], none,
    0, 0, 0, [⟨['a', '.', 't', 'y', 'p'], "document".toList, 2, zeroHex⟩]⟩

def emptyFiles : Files := fun place => if place = [] then some .directory else none

theorem emptyFiles_shaped : emptyFiles.Shaped := by
  intro path below hbelow hsome
  refine absurd (if_neg ?_) hsome
  rw [List.append_eq_nil_iff]
  exact fun hnil => hbelow hnil.2

/-- Two entries of two bytes each declare nothing, and pass a limit of three. -/
theorem lying_archive_exceeds_the_limit :
    ∃ bundle, validateWorkspaceBundle (twoEntriesExternals 0) [] 3 = .ok bundle
      ∧ ¬∃ entries manifest, (twoEntriesExternals 0).openArchive [] = some (entries.map some)
        ∧ BundleLaw (twoEntriesExternals 0) 3 entries manifest bundle := by
  refine ⟨⟨['a', '.', 't', 'y', 'p'], [], [⟨['a', '.', 't', 'y', 'p'], ['a', 'b']⟩], []⟩,
    by decide +kernel, ?_⟩
  rintro ⟨entries, manifest, hopen, hlaw⟩
  have hentries : twoEntries 0 = entries :=
    List.map_injective_iff.mpr (Option.some_injective _) (Option.some.inj hopen)
  have hexpanded := hlaw.expanded
  rw [← hentries] at hexpanded
  exact absurd hexpanded (by decide)

theorem extraction_is_confined_and_exact_of_two :
    (∃ verified after, verifyInput twoEntriesLibraries inputLimits emptyFiles [] ['t'] []
        ⟨"project-bundle/v1".toList, 0, zeroHex⟩ = .ok (verified, after)
      ∧ InputLaw twoEntriesLibraries inputLimits emptyFiles [] ['t'] []
        ⟨"project-bundle/v1".toList, 0, zeroHex⟩ verified after)
    ∧ ∃ bundle entries manifest,
      validateWorkspaceBundle (twoEntriesExternals 2) [] 4 = .ok bundle
        ∧ BundleLaw (twoEntriesExternals 2) 4 entries manifest bundle := by
  have hlaws := extraction_is_confined_and_exact twoEntriesLibraries inputLimits
    (twoEntriesExternals 2) 4 emptyFiles_shaped
  constructor
  · have hok : (verifyInput twoEntriesLibraries inputLimits emptyFiles [] ['t'] []
        ⟨"project-bundle/v1".toList, 0, zeroHex⟩).isOk = true := by decide +kernel
    cases hrun : verifyInput twoEntriesLibraries inputLimits emptyFiles [] ['t'] []
        ⟨"project-bundle/v1".toList, 0, zeroHex⟩ with
    | error => rw [hrun] at hok; cases hok
    | ok pair => exact ⟨pair.1, pair.2, rfl, hlaws.1 _ _ _ _ _ _ hrun⟩
  · have hok : validateWorkspaceBundle (twoEntriesExternals 2) [] 4 = .ok
        ⟨['a', '.', 't', 'y', 'p'], [], [⟨['a', '.', 't', 'y', 'p'], ['a', 'b']⟩], []⟩ := by
      decide +kernel
    rcases hlaws.2 _ _ hok with ⟨entries, manifest, hopen, -, hlaw, -⟩
    have hentries : twoEntries 2 = entries :=
      List.map_injective_iff.mpr (Option.some_injective _) (Option.some.inj hopen)
    refine ⟨_, entries, manifest, hok, hlaw.mpr ?_⟩
    rw [← hentries]
    decide

end Examples

end Toss.ProcessingSdk
