import Toss.Processing.BundleArchives
import Toss.ProcessingSdk.Input

/-!
# What extraction makes

The names that pass `safe_archive_name` stay below the directory they are joined to, and what
`extractEntries` has made so far is what the entries so far say.

* `resolve_of_plain` — a path of plain names is the place below its base that it spells;
* `Confined` — nothing is made outside the temporary directory, and only under plain names;
* `Extracted` — the invariant of the extraction.
-/

namespace Toss.ProcessingSdk

open Toss.Foundation
open Toss.Processing (ArchiveEntry append_of_stripPrefix hexEncode isControl manifestName
  projectPrefix stripPrefix)
open Toss.Workspace

/-! ## Paths -/

/-- A name that stands for itself. -/
def IsPlainName (name : Text) : Prop :=
  name ≠ [] ∧ name ≠ ['.'] ∧ name ≠ ['.', '.'] ∧ '/' ∉ name

variable {path : Text} {root : List Text} {entry : ArchiveEntry} {limits : InputLimits}
  {done : List ArchiveEntry} {before : Files}

theorem segments_plain (h : safeRelativePath path = true) :
    ∀ name ∈ segments path, IsPlainName name := by
  intro name hname
  simp only [safeRelativePath, Bool.and_eq_true, List.all_eq_true, decide_eq_true_eq] at h
  have hcomponent := h.2 name hname
  exact ⟨hcomponent.1.1, hcomponent.1.2, hcomponent.2, slash_not_mem_segment hname⟩

theorem foldl_enter {names : List Text} (h : ∀ name ∈ names, IsPlainName name)
    (place : List Text) : names.foldl enter place = place ++ names := by
  induction names generalizing place with
  | nil => rw [List.foldl_nil, List.append_nil]
  | cons name names ih =>
    rcases h name List.mem_cons_self with ⟨hempty, hdot, hdots, -⟩
    have henter : enter place name = place ++ [name] := by
      rw [enter, if_neg (by simp [hempty, hdot]), if_neg hdots]
    rw [List.foldl_cons, henter, ih fun other hother => h other (List.mem_cons_of_mem _ hother),
      List.append_assoc, List.singleton_append]

theorem head?_ne_slash (h : ∀ name ∈ segments path, IsPlainName name) :
    path.head? ≠ some '/' := by
  intro hhead
  rcases path with _ | ⟨c, rest⟩
  · cases hhead
  cases hhead
  have hsegments : segments ('/' :: rest) = [] :: segments rest := segments_append_slash [] rest
  rw [hsegments] at h
  exact (h [] List.mem_cons_self).1 rfl

/-- A path of plain names is below its base; a slash at its end changes nothing. -/
theorem resolve_of_plain (h : ∀ name ∈ segments path, IsPlainName name) (base : List Text) :
    resolve base path = base ++ segments path
      ∧ resolve base (path ++ ['/']) = base ++ segments path := by
  have hhead := head?_ne_slash h
  constructor
  · rw [resolve, if_neg hhead, foldl_enter h]
  · have hne : path ≠ [] := by
      rintro rfl
      exact (h [] List.mem_cons_self).1 rfl
    have hhead' : (path ++ ['/']).head? ≠ some '/' := by
      rw [List.head?_append_of_ne_nil _ hne]
      exact hhead
    have hsegments : segments (path ++ ['/']) = segments path ++ [[]] :=
      segments_append_slash path []
    rw [resolve, if_neg hhead', hsegments, List.foldl_append, foldl_enter h]
    rfl

def projectName : Text := "project".toList

theorem projectPrefix_eq : projectPrefix = projectName ++ ['/'] := by decide

theorem segments_projectPrefix (path : Text) :
    segments (projectPrefix ++ path) = projectName :: segments path := by
  have hname : segments projectName = [projectName] := by decide
  have hsplit : projectPrefix ++ path = projectName ++ '/' :: path := by
    rw [projectPrefix_eq, List.append_assoc, List.singleton_append]
  rw [hsplit, segments_append_slash, hname, List.singleton_append]

/-- What an archive name can say below `project/`: a path of plain names, perhaps with a slash
at its end. -/
theorem relative_cases {name relative : Text} (hsafe : safeArchiveName name = true)
    (h : stripPrefix projectPrefix name = some relative) (hne : relative ≠ []) :
    ∃ path, (∀ part ∈ segments path, IsPlainName part)
      ∧ stripSlash name = projectPrefix ++ path
      ∧ ((relative = path ∧ relative.getLast? ≠ some '/')
        ∨ (relative = path ++ ['/'] ∧ relative.getLast? = some '/')) := by
  rcases append_of_stripPrefix h with rfl
  have hplain : ∀ part ∈ segments (stripSlash (projectPrefix ++ relative)), IsPlainName part := by
    rw [safeArchiveName] at hsafe
    split at hsafe
    · cases hsafe
    · exact segments_plain hsafe
  have hlast : (projectPrefix ++ relative).getLast? = relative.getLast? :=
    List.getLast?_append_of_ne_nil _ hne
  by_cases hslash : relative.getLast? = some '/'
  · rcases List.eq_nil_or_concat relative with rfl | ⟨path, c, rfl⟩
    · exact absurd rfl hne
    · rw [List.concat_eq_append] at *
      rw [List.getLast?_concat, Option.some.injEq] at hslash
      subst hslash
      have hstrip : stripSlash (projectPrefix ++ (path ++ ['/'])) = projectPrefix ++ path := by
        rw [stripSlash, if_pos (by rw [hlast, List.getLast?_concat]), ← List.append_assoc,
          List.dropLast_concat]
      rw [hstrip, segments_projectPrefix] at hplain
      exact ⟨path, fun part hpart => hplain part (List.mem_cons_of_mem _ hpart), hstrip,
        .inr ⟨rfl, List.getLast?_concat⟩⟩
  · have hstrip : stripSlash (projectPrefix ++ relative) = projectPrefix ++ relative := by
      rw [stripSlash, if_neg (by rw [hlast]; exact hslash)]
    rw [hstrip, segments_projectPrefix] at hplain
    exact ⟨relative, fun part hpart => hplain part (List.mem_cons_of_mem _ hpart), hstrip,
      .inl ⟨rfl, hslash⟩⟩

/-! ## The tree -/

/-- What is made lies below the temporary directory, under plain names. -/
structure Confined (before : Files) (root : List Text) (files : Files) : Prop where
  shaped : files.Shaped
  outside : FileTree.SameOutside root before files
  rootDir : files root = some .directory
  projectDir : files (root ++ [projectName]) = some .directory
  plain : ∀ place, root <+: place → files place ≠ none →
    place = root ∨ ∃ rest, place = root ++ [projectName] ++ rest ∧ ∀ name ∈ rest, IsPlainName name

theorem Confined.empty_dir {before files : Files}
    (h : Confined before root files) : files [] = some .directory := by
  refine h.shaped [] (root ++ [projectName]) (by simp) ?_
  rw [List.nil_append, h.projectDir]
  exact Option.some_ne_none _

/-- Directories are made below the project directory. -/
theorem Confined.createDirAll {before files files' : Files} {root rest : List Text}
    (h : Confined before root files) (hplain : ∀ name ∈ rest, IsPlainName name)
    (hmake : files.createDirAll (root ++ [projectName] ++ rest) = some files') :
    Confined before root files'
      ∧ (∀ place, files place ≠ none → files' place = files place)
      ∧ (∀ place bytes, files' place = some (.file bytes) → files place = some (.file bytes))
      ∧ files' (root ++ [projectName] ++ rest) = some .directory := by
  have hmade := FileTree.createDirsFrom_made h.shaped h.empty_dir hmake
  have hsome : ∀ {place : List Text}, files place = some .directory → files' place = some .directory :=
    fun {place} hplace => (hmade.kept place (by rw [hplace]; exact Option.some_ne_none _)).trans hplace
  refine ⟨⟨hmade.shaped, ?_, hsome h.rootDir, hsome h.projectDir, ?_⟩, hmade.kept, ?_, hmade.made⟩
  · rw [List.append_assoc] at hmade
    exact h.outside.trans (hmade.sameOutside h.shaped h.rootDir)
  · intro place hbelow hplace
    by_cases hold : files place = none
    · rcases (hmade.added place hold hplace).2 with ⟨tail, -, htail, hprefix⟩
      rcases (htail : place = tail) with rfl
      -- it is longer than the project directory, which was there
      rcases List.prefix_or_prefix_of_prefix hprefix
        (List.prefix_append (root ++ [projectName]) rest) with habove | hunder
      · rcases habove with ⟨gap, hgap⟩
        by_cases hempty : gap = []
        · rw [hempty, List.append_nil] at hgap
          rw [hgap, h.projectDir] at hold
          cases hold
        · rw [h.shaped place gap hempty (by rw [hgap, h.projectDir]; exact Option.some_ne_none _)]
            at hold
          cases hold
      · rcases hunder with ⟨names, rfl⟩
        have hnames := (List.prefix_append_right_inj _).mp hprefix
        exact .inr ⟨names, rfl, fun name hname => hplain name (hnames.subset hname)⟩
    · exact h.plain place hbelow hold
  · intro place bytes hfile
    by_cases hold : files place = none
    · have hdirectory := (hmade.added place hold (by rw [hfile]; exact Option.some_ne_none _)).1
      rw [hfile] at hdirectory
      cases hdirectory
    · rw [← hmade.kept place hold]
      exact hfile

/-- A file is made below the project directory, and written. -/
theorem Confined.createFile {before files files' : Files} {root rest : List Text} {name : Text}
    (h : Confined before root files) (hplain : ∀ name ∈ rest, IsPlainName name)
    (hname : IsPlainName name)
    (hmake : files.createFile (root ++ [projectName] ++ rest) name [] = some files')
    (bytes : Bytes) :
    Confined before root
        (files'.put (root ++ [projectName] ++ rest ++ [name]) (.file bytes))
      ∧ ∀ place, place ≠ root ++ [projectName] ++ rest ++ [name] →
        files'.put (root ++ [projectName] ++ rest ++ [name]) (.file bytes) place = files place := by
  rcases FileTree.createFile_eq_some hmake with ⟨hparent, hnode, hfiles⟩
  have hother : ∀ place, place ≠ root ++ [projectName] ++ rest ++ [name] →
      files'.put (root ++ [projectName] ++ rest ++ [name]) (.file bytes) place = files place := by
    intro place hplace
    rw [FileTree.put_of_ne hplace, hfiles, FileTree.put_of_ne hplace]
  have hcreated : files' (root ++ [projectName] ++ rest ++ [name]) = some (.file []) := by
    rw [hfiles, FileTree.put_self]
  refine ⟨⟨(FileTree.createFile_shaped h.shaped hmake).put_file hcreated bytes, ?_, ?_, ?_, ?_⟩,
    hother⟩
  · intro place hplace
    rw [hother, h.outside place hplace]
    rintro rfl
    exact hplace (by simp [List.append_assoc])
  · rw [hother, h.rootDir]
    intro heq
    have hlength := congrArg List.length heq
    simp at hlength
  · rw [hother, h.projectDir]
    intro heq
    have hlength := congrArg List.length heq
    simp at hlength
  · intro place hbelow hplace
    by_cases hnew : place = root ++ [projectName] ++ rest ++ [name]
    · refine .inr ⟨rest ++ [name], by rw [hnew]; simp, ?_⟩
      intro part hpart
      rcases List.mem_append.mp hpart with hrest | hlast
      · exact hplain part hrest
      · rw [List.mem_singleton.mp hlast]
        exact hname
    · rw [hother place hnew] at hplace
      exact h.plain place hbelow hplace

/-! ## The entries so far -/

/-- The path below `project/` at which an entry's bytes are written, if they are. -/
def writtenPath (entry : ArchiveEntry) : Option Text :=
  if entry.name = manifestName ∨ entry.isDir = true then none
  else (stripPrefix projectPrefix entry.name).filter (· ≠ [])

/-- The bytes that an entry takes: those of the manifest, and those that are written. -/
def expandedBytes (entry : ArchiveEntry) : Nat :=
  if entry.name = manifestName ∨ (writtenPath entry).isSome then entry.bytes.length else 0

structure Extracted (limits : InputLimits) (before : Files) (root : List Text)
    (done : List ArchiveEntry) (extraction : Extraction) : Prop where
  names : ∀ name, name ∈ extraction.names ↔ ∃ entry ∈ done, stripSlash entry.name = name
  distinct : (done.map fun entry => stripSlash entry.name).Nodup
  confined : Confined before root extraction.files
  files : ∀ place bytes, root <+: place → extraction.files place = some (.file bytes) →
    ∃ entry ∈ done, ∃ path, writtenPath entry = some path
      ∧ place = root ++ [projectName] ++ segments path
  written : ∀ entry ∈ done, ∀ path, writtenPath entry = some path →
    stripSlash entry.name = projectPrefix ++ path
      ∧ (∀ name ∈ segments path, IsPlainName name)
      ∧ extraction.files (root ++ [projectName] ++ segments path) = some (.file entry.bytes)
  materialized : extraction.materializedFiles.Perm
    ((done.filterMap writtenPath).map (projectPrefix ++ ·))
  actual : extraction.actualExpanded = (done.map expandedBytes).sum
  limit : extraction.actualExpanded ≤ limits.maxExpandedBytes
  declared : (done.map (·.size)).sum = extraction.declaredExpanded
    ∧ extraction.declaredExpanded ≤ limits.maxExpandedBytes
  manifest : ∀ bytes, extraction.manifestBytes = some bytes →
    ∃ entry ∈ done, entry.name = manifestName ∧ entry.bytes = bytes

theorem readBounded_ok {limit : Nat} {bytes : Bytes}
    (h : readBounded entry limit = .ok bytes) : bytes = entry.bytes ∧ entry.bytes.length ≤ limit := by
  rw [readBounded] at h
  split at h
  · cases h
  rename_i hle
  split at h
  · cases h
  · exact ⟨(Except.ok.inj h).symm, not_lt.mp hle⟩

/-- An entry whose bytes are written is not called as one before it. -/
theorem Extracted.other_path {extraction : Extraction}
    (h : Extracted limits before root done extraction)
    (hnew : stripSlash entry.name ∉ extraction.names)
    (hname : stripSlash entry.name = projectPrefix ++ path) {old : ArchiveEntry} (hold : old ∈ done)
    {oldPath : Text} (hwritten : writtenPath old = some oldPath) : oldPath ≠ path := by
  rintro rfl
  rw [hname, ← (h.written old hold oldPath hwritten).1] at hnew
  exact hnew ((h.names _).mpr ⟨old, hold, rfl⟩)

/-- One more entry, whose files are those it says. -/
theorem Extracted.extend {extraction : Extraction}
    (h : Extracted limits before root done extraction)
    (hnew : stripSlash entry.name ∉ extraction.names)
    (hsize : extraction.declaredExpanded + entry.size ≤ limits.maxExpandedBytes) {files : Files}
    {actual : Nat} {manifestBytes : Option Bytes} {materializedFiles : List Text}
    (hactual : actual = extraction.actualExpanded + expandedBytes entry)
    (hlimit : actual ≤ limits.maxExpandedBytes) (hconfined : Confined before root files)
    (hmaterialized : materializedFiles.Perm
      ((writtenPath entry).toList.map (projectPrefix ++ ·) ++ extraction.materializedFiles))
    (hfiles : ∀ place bytes, files place = some (.file bytes) →
      extraction.files place = some (.file bytes) ∨ ∃ path, writtenPath entry = some path
        ∧ place = root ++ [projectName] ++ segments path)
    (hkept : ∀ old ∈ done, ∀ path, writtenPath old = some path →
      files (root ++ [projectName] ++ segments path)
        = extraction.files (root ++ [projectName] ++ segments path))
    (hwritten : ∀ path, writtenPath entry = some path →
      stripSlash entry.name = projectPrefix ++ path
        ∧ (∀ name ∈ segments path, IsPlainName name)
        ∧ files (root ++ [projectName] ++ segments path) = some (.file entry.bytes))
    (hmanifest : ∀ bytes, manifestBytes = some bytes → extraction.manifestBytes = some bytes
      ∨ entry.name = manifestName ∧ entry.bytes = bytes) :
    Extracted limits before root (done ++ [entry])
      ⟨stripSlash entry.name :: extraction.names, extraction.declaredExpanded + entry.size, actual,
        manifestBytes, materializedFiles, files⟩ where
  names := by
    intro name
    rw [List.mem_cons, h.names]
    constructor
    · rintro (rfl | ⟨old, hold, rfl⟩)
      · exact ⟨entry, by simp, rfl⟩
      · exact ⟨old, List.mem_append_left _ hold, rfl⟩
    · rintro ⟨old, hold, rfl⟩
      rcases List.mem_append.mp hold with hold | hlast
      · exact .inr ⟨old, hold, rfl⟩
      · rw [List.mem_singleton.mp hlast]
        exact .inl rfl
  distinct := by
    rw [List.map_append, List.map_singleton]
    refine List.nodup_append.mpr ⟨h.distinct, List.nodup_singleton _, ?_⟩
    intro a ha b hb
    rcases List.mem_map.mp ha with ⟨old, hold, rfl⟩
    rcases List.mem_singleton.mp hb with rfl
    intro hsame
    exact hnew ((h.names _).mpr ⟨old, hold, hsame⟩)
  confined := hconfined
  files := by
    intro place bytes hbelow hfile
    rcases hfiles place bytes hfile with hold | ⟨path, hpath⟩
    · rcases h.files place bytes hbelow hold with ⟨old, hold, hpath⟩
      exact ⟨old, List.mem_append_left _ hold, hpath⟩
    · exact ⟨entry, by simp, path, hpath⟩
  written := by
    intro old hold path hpath
    rcases List.mem_append.mp hold with hold | hlast
    · rcases h.written old hold path hpath with ⟨hname, hplain, hfile⟩
      exact ⟨hname, hplain, (hkept old hold path hpath).trans hfile⟩
    · rw [List.mem_singleton.mp hlast] at hpath ⊢
      exact hwritten path hpath
  materialized := by
    have hlast : (done ++ [entry]).filterMap writtenPath
        = done.filterMap writtenPath ++ (writtenPath entry).toList := by
      rw [List.filterMap_append]
      congr 1
    rw [hlast, List.map_append]
    calc List.Perm materializedFiles _ := hmaterialized
      List.Perm _ _ := List.Perm.append_left _ h.materialized
      List.Perm _ _ := List.perm_append_comm
  actual := by
    rw [List.map_append, List.sum_append, List.map_singleton, List.sum_singleton, ← h.actual,
      hactual]
  limit := hlimit
  declared := by
    rw [List.map_append, List.sum_append, List.map_singleton, List.sum_singleton, h.declared.1]
    exact ⟨rfl, hsize⟩
  manifest := by
    intro bytes hbytes
    rcases hmanifest bytes hbytes with hold | hown
    · rcases h.manifest bytes hold with ⟨old, hmem, hname⟩
      exact ⟨old, List.mem_append_left _ hmem, hname⟩
    · exact ⟨entry, by simp, hown⟩

variable {extraction extraction' : Extraction}

/-- An entry whose bytes are written, to a place of its own. -/
theorem Extracted.materializeFile
    (h : Extracted limits before root done extraction) {relative : Text}
    (hsafe : safeArchiveName entry.name = true)
    (hrelative : stripPrefix projectPrefix entry.name = some relative) (hne : relative ≠ [])
    (hwritten : writtenPath entry = some relative)
    (hnew : stripSlash entry.name ∉ extraction.names)
    (hsize : extraction.declaredExpanded + entry.size ≤ limits.maxExpandedBytes)
    (hfile : materializeFile limits (root ++ [projectName])
      { extraction with
        names := stripSlash entry.name :: extraction.names
        declaredExpanded := extraction.declaredExpanded + entry.size } entry relative
      = .ok extraction') :
    Extracted limits before root (done ++ [entry]) extraction' := by
  rcases relative_cases hsafe hrelative hne with ⟨path, hplain, hname, ⟨rfl, hslash⟩ | ⟨rfl, hslash⟩⟩
  · rcases List.eq_nil_or_concat (segments relative) with hnil | ⟨rest, last, hsegments⟩
    · exact absurd hnil (segments_ne_nil relative)
    · rw [List.concat_eq_append] at hsegments
      rw [hsegments] at hplain
      rw [ProcessingSdk.materializeFile, (resolve_of_plain (by rw [hsegments]; exact hplain) _).1,
        hsegments, ← List.append_assoc] at hfile
      simp only [List.getLast?_concat, List.dropLast_concat] at hfile
      split at hfile
      · cases hfile
      rename_i files hdirs
      rw [if_neg hslash] at hfile
      split at hfile
      · cases hfile
      rename_i created hcreate
      rcases bind_eq_ok.mp hfile with ⟨bytes, hcopy, hrest⟩
      rcases readBounded_ok hcopy with ⟨rfl, hlimit⟩
      cases hrest
      have hrestPlain : ∀ name ∈ rest, IsPlainName name :=
        fun name hmem => hplain name (List.mem_append_left _ hmem)
      rcases h.confined.createDirAll hrestPlain hdirs with ⟨hdirsConfined, hkept, hold, -⟩
      rcases hdirsConfined.createFile hrestPlain
        (hplain last (List.mem_append_right _ (List.mem_singleton_self _))) hcreate entry.bytes
        with ⟨hconfined, hother⟩
      have hactual : expandedBytes entry = entry.bytes.length := by
        rw [expandedBytes, if_pos (.inr (by rw [hwritten]; rfl))]
      have hplace : root ++ [projectName] ++ rest ++ [last]
          = root ++ [projectName] ++ segments relative := by
        rw [hsegments, List.append_assoc _ rest]
      -- another entry has another path, as the names are distinct
      have hmaterialized : projectPrefix ++ relative ∉ extraction.materializedFiles := by
        intro hmem
        rcases List.mem_map.mp (h.materialized.mem_iff.mp hmem) with ⟨oldPath, hmem, hsame⟩
        rcases List.mem_filterMap.mp hmem with ⟨old, hold, hpath⟩
        exact h.other_path hnew hname hold hpath (List.append_cancel_left hsame)
      have hfits := h.limit
      refine h.extend hnew hsize (by rw [hactual]) (by omega) hconfined ?_ ?_ ?_ ?_
        (fun bytes hbytes => .inl hbytes)
      · rw [hwritten, List.insert_of_not_mem hmaterialized]
        exact .refl _
      · intro place bytes hfile
        by_cases hsame : place = root ++ [projectName] ++ rest ++ [last]
        · exact .inr ⟨relative, hwritten, hsame.trans hplace⟩
        · rw [hother place hsame] at hfile
          exact .inl (hold place bytes hfile)
      · intro old hmem oldPath hpath
        -- files of earlier entries are other files
        have hne : root ++ [projectName] ++ segments oldPath
            ≠ root ++ [projectName] ++ rest ++ [last] := by
          rw [hplace]
          intro hsame
          exact h.other_path hnew hname hmem hpath
            (segments_injective (List.append_cancel_left hsame))
        rw [hother _ hne]
        refine hkept _ ?_
        rw [(h.written old hmem oldPath hpath).2.2]
        exact Option.some_ne_none _
      · intro path hpath
        rcases Option.some.inj (hwritten.symm.trans hpath) with rfl
        refine ⟨hname, by rw [hsegments]; exact hplain, ?_⟩
        rw [← hplace]
        exact FileTree.put_self _ _ _
  · rw [ProcessingSdk.materializeFile] at hfile
    split at hfile
    · cases hfile
    split at hfile
    · cases hfile
    · rw [if_pos hslash] at hfile
      cases hfile

/-- One entry of the archive. -/
theorem Extracted.extractEntry (h : Extracted limits before root done extraction)
    (hentry : extractEntry limits (root ++ [projectName]) extraction entry = .ok extraction') :
    Extracted limits before root (done ++ [entry]) extraction' := by
  rw [ProcessingSdk.extractEntry] at hentry
  split at hentry
  · cases hentry
  next hname =>
  rw [Bool.or_eq_true, not_or, Bool.not_eq_true', Bool.not_eq_false, List.contains_iff_mem] at hname
  rcases hname with ⟨hsafe, hnew⟩
  split at hentry
  · cases hentry
  split at hentry
  · cases hentry
  next hsize =>
  have hsize : extraction.declaredExpanded + entry.size ≤ limits.maxExpandedBytes := not_lt.mp hsize
  -- an entry that writes nothing and makes no directory
  have hquiet : writtenPath entry = none → ∀ (actual : Nat) (manifestBytes : Option Bytes),
      actual = extraction.actualExpanded + expandedBytes entry →
      actual ≤ limits.maxExpandedBytes →
      (∀ bytes, manifestBytes = some bytes → extraction.manifestBytes = some bytes
        ∨ entry.name = manifestName ∧ entry.bytes = bytes) →
      Extracted limits before root (done ++ [entry])
        ⟨stripSlash entry.name :: extraction.names, extraction.declaredExpanded + entry.size,
          actual, manifestBytes, extraction.materializedFiles, extraction.files⟩ := by
    intro hwritten actual manifestBytes hactual hlimit hmanifest
    refine h.extend hnew hsize hactual hlimit h.confined ?_ (fun _ _ hfile => .inl hfile)
      (fun _ _ _ _ => rfl) ?_ hmanifest
    · rw [hwritten]
      exact .refl _
    · intro path hpath
      rw [hwritten] at hpath
      cases hpath
  dsimp only at hentry
  split at hentry
  · next hmanifest =>
    -- the manifest is read, not written
    split at hentry
    · cases hentry
    rcases bind_eq_ok.mp hentry with ⟨bytes, hread, hrest⟩
    rcases readBounded_ok hread with ⟨rfl, hlimit⟩
    cases hrest
    have hroom := h.limit
    refine hquiet (if_pos (.inl hmanifest)) _ _ ?_ (by omega) ?_
    · rw [expandedBytes, if_pos (.inl hmanifest)]
    · intro bytes hbytes
      exact .inr ⟨hmanifest, Option.some.inj hbytes⟩
  · next hother =>
    split at hentry
    · cases hentry
    rename_i relative hrelative
    split at hentry
    · next hempty =>
      -- the directory of the project itself
      cases hentry
      rw [List.isEmpty_iff] at hempty
      have hwritten : writtenPath entry = none := by
        rw [writtenPath, hrelative, hempty]
        exact ite_self none
      refine hquiet hwritten _ _ ?_ h.limit fun bytes hbytes => .inl hbytes
      rw [expandedBytes, if_neg (by simp [hother, hwritten]), Nat.add_zero]
    · next hne =>
      rw [List.isEmpty_iff] at hne
      split at hentry
      · next hdir =>
        -- a directory within it
        have hwritten : writtenPath entry = none := if_pos (.inr hdir)
        split at hentry
        · cases hentry
        split at hentry
        · cases hentry
        rename_i files hmake
        cases hentry
        rcases relative_cases hsafe hrelative hne with ⟨path, hplain, -, hspelled⟩
        have hplace : resolve (root ++ [projectName]) relative
            = root ++ [projectName] ++ segments path := by
          rcases hspelled with ⟨rfl, -⟩ | ⟨rfl, -⟩
          · exact (resolve_of_plain hplain _).1
          · exact (resolve_of_plain hplain _).2
        have hmake : extraction.files.createDirAll (root ++ [projectName] ++ segments path)
            = some files := by
          rw [← hplace]
          exact hmake
        rcases h.confined.createDirAll hplain hmake with ⟨hconfined, hkept, hold, -⟩
        refine h.extend hnew hsize ?_ h.limit hconfined ?_
          (fun place bytes hfile => .inl (hold place bytes hfile)) ?_ ?_
          (fun bytes hbytes => .inl hbytes)
        · rw [expandedBytes, if_neg (by simp [hother, hwritten]), Nat.add_zero]
        · rw [hwritten]
          exact .refl _
        · intro old hmem oldPath hpath
          refine hkept _ ?_
          rw [(h.written old hmem oldPath hpath).2.2]
          exact Option.some_ne_none _
        · intro other hpath
          rw [hwritten] at hpath
          cases hpath
      · next hfile =>
        have hwritten : writtenPath entry = some relative := by
          rw [writtenPath, if_neg (by simp [hother, hfile]), hrelative, Option.filter_some,
            if_pos (decide_eq_true hne)]
        exact h.materializeFile hsafe hrelative hne hwritten hnew hsize hentry

/-- All entries: they could all be opened. -/
theorem Extracted.extractEntries (h : Extracted limits before root [] extraction)
    {entries : List (Option ArchiveEntry)}
    (hentries : extractEntries limits (root ++ [projectName]) extraction entries
      = .ok extraction') :
    ∃ opened : List ArchiveEntry, entries = opened.map some
      ∧ Extracted limits before root opened extraction' := by
  refine foldlM_ok (P := fun entries extraction => ∃ opened : List ArchiveEntry,
    entries = opened.map some ∧ Extracted limits before root opened extraction) hentries
    ⟨[], rfl, h⟩ ?_
  rintro done entry extraction extraction' ⟨opened, rfl, hdone⟩ - hentry
  cases entry with
  | none => cases hentry
  | some entry =>
    exact ⟨opened ++ [entry], by rw [List.map_append]; rfl, hdone.extractEntry hentry⟩

end Toss.ProcessingSdk
