import Toss.Processing.AcceptedWorkspace

/-!
# What an accepted archive says

The archive behind an accepted workspace: its entries, the records of its manifest and the files
of the workspace are the same files.

* `Entries` — what the entries of an archive, so far, have come to;
* `Recorded` — what the records of its manifest have;
* `BundleExact`, `validateWorkspaceBundle_exact`.
-/

namespace Toss.Processing

open Toss.Foundation
open Toss.Workspace

/-! ## Entries -/

/-- The path and the bytes of an entry below `project/`. -/
def ArchiveEntry.projectFile (entry : ArchiveEntry) : Option (Text × Bytes) :=
  if entry.name = manifestName then none
  else (stripPrefix projectPrefix entry.name).map fun path => (path, entry.bytes)

/-- A regular file with a name that an archive may use. -/
def ArchiveEntry.IsPlain (entry : ArchiveEntry) : Prop :=
  entry.isDir = false ∧ entry.isRegular = true
    ∧ (entry.name = manifestName
      ∨ ∃ path, entry.name = projectPrefix ++ path ∧ IsProjectPath path)

theorem append_of_stripPrefix {head text rest : Text} (h : stripPrefix head text = some rest) :
    text = head ++ rest := by
  rw [stripPrefix] at h
  split at h
  · next hprefix =>
    rcases List.isPrefixOf_iff_prefix.mp hprefix with ⟨tail, rfl⟩
    rw [List.drop_left, Option.some.injEq] at h
    rw [h]
  · cases h

/-- A safe name is that of the manifest, or spells a path below `project/`. -/
theorem safeArchiveName_cases {name : Text} (h : safeArchiveName name = true) :
    name = manifestName
      ∨ ∃ path, stripPrefix projectPrefix name = some path ∧ IsProjectPath path := by
  rw [safeArchiveName, Bool.or_eq_true, decide_eq_true_eq] at h
  rcases h with hmanifest | hpath
  · exact .inl hmanifest
  split at hpath
  · cases hpath
  · next path hstrip =>
    simp only [Bool.and_eq_true, decide_eq_true_eq] at hpath
    exact .inr ⟨path, hstrip, hpath.2⟩

/-- What the entries so far have come to. -/
structure Entries (maxExpandedBytes : Nat) (done : List ArchiveEntry) (content : ArchiveContent) :
    Prop where
  names : ∀ name, name ∈ content.names ↔ name ∈ done.map (·.name)
  distinct : (done.map (·.name)).Nodup
  plain : ∀ entry ∈ done, entry.IsPlain ∧ entry.broken = false
  declared : content.expandedBytes = (done.map (·.size)).sum
    ∧ content.expandedBytes ≤ maxExpandedBytes
  manifest : ∀ bytes, content.manifest = some bytes →
    ∃ entry ∈ done, entry.name = manifestName ∧ entry.bytes = bytes
  files : content.files = (done.filterMap (·.projectFile)).reverse

theorem initial_entries (maxExpandedBytes : Nat) : Entries maxExpandedBytes [] {} where
  names _ := .rfl
  distinct := List.nodup_nil
  plain _ h := absurd h List.not_mem_nil
  declared := ⟨rfl, Nat.zero_le _⟩
  manifest := nofun
  files := rfl

variable {maxExpandedBytes : Nat} {files : List (Text × Bytes)}

/-- One more entry. -/
theorem Entries.extend {done : List ArchiveEntry} {content : ArchiveContent}
    (h : Entries maxExpandedBytes done content) {entry : ArchiveEntry} (hplain : entry.IsPlain)
    (hbroken : entry.broken = false) (hnew : entry.name ∉ content.names)
    (hsize : content.expandedBytes + entry.size ≤ maxExpandedBytes) {manifest : Option Bytes}
    (hmanifest : ∀ bytes, manifest = some bytes → content.manifest = some bytes
      ∨ entry.name = manifestName ∧ entry.bytes = bytes)
    (hfiles : files = entry.projectFile.toList ++ content.files) :
    Entries maxExpandedBytes (done ++ [entry])
      ⟨entry.name :: content.names, content.expandedBytes + entry.size, manifest, files⟩ where
  names := by
    intro name
    rw [List.mem_cons, h.names, List.map_append, List.mem_append, List.map_singleton,
      List.mem_singleton, or_comm]
  distinct := by
    rw [List.map_append, List.map_singleton]
    refine List.nodup_append.mpr ⟨h.distinct, List.nodup_singleton _, ?_⟩
    intro a ha b hb
    rw [List.mem_singleton.mp hb]
    rintro rfl
    exact hnew ((h.names _).mpr ha)
  plain := by
    intro other hother
    rcases List.mem_append.mp hother with hold | hlast
    · exact h.plain other hold
    · rw [List.mem_singleton.mp hlast]
      exact ⟨hplain, hbroken⟩
  declared := by
    rw [List.map_append, List.sum_append, List.map_singleton, List.sum_singleton, h.declared.1]
    rw [h.declared.1] at hsize
    exact ⟨rfl, hsize⟩
  manifest := by
    intro bytes hbytes
    rcases hmanifest bytes hbytes with hold | hown
    · rcases h.manifest bytes hold with ⟨other, hother, hname⟩
      exact ⟨other, List.mem_append_left _ hother, hname⟩
    · exact ⟨entry, by simp, hown⟩
  files := by
    have hlast : ([entry].filterMap (·.projectFile)).reverse = entry.projectFile.toList := by
      cases hfile : entry.projectFile <;> simp [hfile]
    rw [hfiles, h.files, List.filterMap_append, List.reverse_append, hlast]

variable {bytes : Bytes} {externals : Externals}

theorem ArchiveEntry.readBounded_ok {entry : ArchiveEntry} {limit : Nat}
    (h : entry.readBounded limit = .ok bytes) : bytes = entry.bytes ∧ entry.broken = false := by
  rw [ArchiveEntry.readBounded] at h
  split at h
  · cases h
  · split at h
    · cases h
    · next hbroken => exact ⟨(Except.ok.inj h).symm, Bool.eq_false_iff.mpr hbroken⟩

/-- All entries: they could all be opened. -/
theorem Entries.readEntries {done : List ArchiveEntry} {content content' : ArchiveContent}
    (h : Entries maxExpandedBytes done content) {entries : List (Option ArchiveEntry)}
    (hread : readEntries maxExpandedBytes content entries = .ok content') :
    ∃ opened : List ArchiveEntry, entries = opened.map some
      ∧ Entries maxExpandedBytes (done ++ opened) content' := by
  induction entries generalizing done content with
  | nil =>
    rw [Processing.readEntries, Except.ok.injEq] at hread
    rw [← hread]
    exact ⟨[], rfl, by rw [List.append_nil]; exact h⟩
  | cons entry entries ih =>
    rcases entry with _ | entry
    · rw [Processing.readEntries] at hread
      cases hread
    rw [Processing.readEntries] at hread
    split at hread
    · cases hread
    next hsafe =>
    simp only [Bool.or_eq_true, not_or, Bool.not_eq_true', Bool.not_eq_false, Bool.not_eq_true,
      List.contains_iff_mem] at hsafe
    rcases hsafe with ⟨⟨hdir, hname⟩, hnew⟩
    split at hread
    · cases hread
    next hregular =>
    rw [Bool.not_eq_true', Bool.not_eq_false] at hregular
    split at hread
    · cases hread
    next hsize =>
    rcases bind_eq_ok.mp hread with ⟨bytes, hbytes, hrest⟩
    rcases ArchiveEntry.readBounded_ok hbytes with ⟨rfl, hbroken⟩
    -- what the rest of the archive comes to
    have hnext : ∀ {content'' : ArchiveContent},
        Entries maxExpandedBytes (done ++ [entry]) content'' →
        Processing.readEntries maxExpandedBytes content'' entries = .ok content' →
        ∃ opened : List ArchiveEntry, some entry :: entries = opened.map some
          ∧ Entries maxExpandedBytes (done ++ opened) content' := by
      intro content'' hone hread
      rcases ih hone hread with ⟨opened, rfl, hall⟩
      rw [List.append_assoc] at hall
      exact ⟨entry :: opened, rfl, hall⟩
    split at hrest
    · next hmanifest =>
      refine hnext (h.extend ⟨hdir, hregular, .inl hmanifest⟩ hbroken hnew (not_lt.mp hsize) ?_ ?_)
        hrest
      · intro bytes hbytes
        exact .inr ⟨hmanifest, Option.some.inj hbytes⟩
      · rw [ArchiveEntry.projectFile, if_pos hmanifest]
        rfl
    · next hother =>
      rcases safeArchiveName_cases hname with hmanifest | ⟨path, hstrip, hpath⟩
      · exact absurd hmanifest hother
      have hsanitized : sanitizeProjectPath path = some path := hpath
      rw [hstrip, Option.bind_some, hsanitized] at hrest
      dsimp only at hrest
      split at hrest
      · cases hrest
      refine hnext (h.extend
        ⟨hdir, hregular, .inr ⟨path, append_of_stripPrefix hstrip, hpath⟩⟩ hbroken hnew
        (not_lt.mp hsize) (fun bytes hbytes => .inl hbytes) ?_) hrest
      rw [ArchiveEntry.projectFile, if_neg hother, hstrip]
      rfl

/-! ## Records -/

/-- A file of a workspace is what a record and its bytes say. -/
def IsFileOf (documents : List WorkspaceDocument) (assets : List WorkspaceBundleAsset)
    (record : WorkspaceBundleFile) (bytes : Bytes) : Prop :=
  (record.kind = "document".toList ∧ record.mediaType = none
      ∧ ∃ text, decodeUtf8 bytes = some text ∧ ⟨record.path, text⟩ ∈ documents)
    ∨ (record.kind = "asset".toList
      ∧ ∃ mediaType, record.mediaType = some mediaType ∧ ⟨record.path, mediaType, bytes⟩ ∈ assets)

theorem IsFileOf.mono {documents documents' : List WorkspaceDocument}
    {assets assets' : List WorkspaceBundleAsset} {record : WorkspaceBundleFile}
    (h : IsFileOf documents assets record bytes) (hdocuments : documents ⊆ documents')
    (hassets : assets ⊆ assets') : IsFileOf documents' assets' record bytes := by
  rcases h with ⟨hkind, hnone, text, htext, hmem⟩ | ⟨hkind, mediaType, hmediaType, hmem⟩
  · exact .inl ⟨hkind, hnone, text, htext, hdocuments hmem⟩
  · exact .inr ⟨hkind, mediaType, hmediaType, hassets hmem⟩

/-- A record, the bytes of its file, and the file of the workspace. -/
def IsRecorded (externals : Externals) (files : List (Text × Bytes))
    (documents : List WorkspaceDocument) (assets : List WorkspaceBundleAsset)
    (record : WorkspaceBundleFile) : Prop :=
  ∃ bytes, (record.path, bytes) ∈ files ∧ (bytes.length : Int) = record.sizeBytes
    ∧ hexEncode (externals.sha256 bytes) = record.sha256 ∧ IsFileOf documents assets record bytes

/-- What the records so far have come to, with the files that none of them has named. -/
structure Recorded (externals : Externals) (files : List (Text × Bytes))
    (records : List WorkspaceBundleFile) (content : BundleContent) (left : List (Text × Bytes)) :
    Prop where
  recorded : ∀ record ∈ records,
    IsRecorded externals files content.documents content.assets record
  paths : content.paths = (records.map (·.path)).reverse
  directories : ∀ directory, directory ∈ content.directories
    ↔ ∃ path ∈ content.paths, directory ∈ parentDirectories path
  left : ∀ file, file ∈ left ↔ file ∈ files ∧ file.1 ∉ content.paths

theorem initial_recorded (externals : Externals) (files : List (Text × Bytes)) :
    Recorded externals files [] {} files where
  recorded _ h := absurd h List.not_mem_nil
  paths := rfl
  directories directory := by simp
  left file := by simp

variable {entryFilePath : Text} {content content' : BundleContent}

/-- A record adds its file, its path and the directories above it. -/
theorem materializeRecord_some {record : WorkspaceBundleFile}
    (h : materializeRecord externals entryFilePath content record record.path bytes
      = some content') :
    content'.paths = record.path :: content.paths
      ∧ content'.directories = parentDirectories record.path ++ content.directories
      ∧ content.documents ⊆ content'.documents ∧ content.assets ⊆ content'.assets
      ∧ IsFileOf content'.documents content'.assets record bytes := by
  unfold materializeRecord at h
  split at h
  · next hdocument =>
    rcases Option.map_eq_some_iff.mp h with ⟨text, htext, rfl⟩
    exact ⟨rfl, rfl, fun _ hmem => List.mem_cons_of_mem _ hmem, fun _ hmem => hmem,
      .inl ⟨hdocument.1, hdocument.2.1, text, htext, List.mem_cons_self⟩⟩
  · split at h
    · next hasset =>
      rcases Option.map_eq_some_iff.mp h with ⟨mediaType, hmediaType, rfl⟩
      exact ⟨rfl, rfl, fun _ hmem => hmem, fun _ hmem => List.mem_cons_of_mem _ hmem,
        .inr ⟨hasset, mediaType, (Option.filter_eq_some_iff.mp hmediaType).1,
          List.mem_cons_self⟩⟩
    · cases h

variable {left : List (Text × Bytes)}

/-- One more record. -/
theorem Recorded.record {records : List WorkspaceBundleFile} {record : WorkspaceBundleFile}
    (hinv : Recorded externals files records content left) (hfile : (record.path, bytes) ∈ files)
    (hsize : (bytes.length : Int) = record.sizeBytes)
    (hsha256 : hexEncode (externals.sha256 bytes) = record.sha256)
    (h : materializeRecord externals entryFilePath content record record.path bytes
      = some content') :
    Recorded externals files (records ++ [record]) content'
      (left.filter fun file => file.1 ≠ record.path) := by
  rcases materializeRecord_some h with ⟨hpaths, hdirectories, hdocuments, hassets, hof⟩
  constructor
  · intro other hother
    rcases List.mem_append.mp hother with hold | hlast
    · rcases hinv.recorded other hold with ⟨otherBytes, hmem, hsize, hsha256, hof⟩
      exact ⟨otherBytes, hmem, hsize, hsha256, hof.mono hdocuments hassets⟩
    · rw [List.mem_singleton.mp hlast]
      exact ⟨bytes, hfile, hsize, hsha256, hof⟩
  · rw [hpaths, hinv.paths, List.map_append, List.reverse_append]
    rfl
  · intro directory
    simp only [hdirectories, hpaths, List.mem_append, hinv.directories, List.mem_cons,
      exists_eq_or_imp]
  · intro file
    rw [List.mem_filter, hinv.left, hpaths, List.mem_cons, not_or, decide_eq_true_eq, and_assoc,
      and_comm (a := file.1 ∉ content.paths)]

/-- All records. -/
theorem Recorded.materializeRecords {rest : List (Text × Bytes)}
    {done records : List WorkspaceBundleFile} (hinv : Recorded externals files done content left)
    (h : materializeRecords externals entryFilePath content left records
      = some (content', rest)) : Recorded externals files (done ++ records) content' rest := by
  induction records generalizing done content left with
  | nil =>
    rw [Processing.materializeRecords, Option.some.injEq, Prod.mk.injEq] at h
    rw [List.append_nil, ← h.1, ← h.2]
    exact hinv
  | cons record records ih =>
    simp only [Processing.materializeRecords, Option.bind_eq_bind, Option.bind_eq_some_iff,
      guard_eq_some, exists_const] at h
    rcases h with ⟨path, _, ⟨rfl, _⟩, file, hfile, ⟨hsize, hsha256⟩, next, hnext, hrest⟩
    have hkey : file.1 = record.path := by simpa using List.find?_some hfile
    have hmem : (record.path, file.2) ∈ files := by
      rw [← hkey]
      exact ((hinv.left file).mp (List.mem_of_find?_eq_some hfile)).1
    have hlast := ih (hinv.record hmem hsize hsha256 hnext) hrest
    rw [List.append_assoc] at hlast
    exact hlast

/-! ## The workspace -/

/-- The paths of the files of a workspace. -/
def ValidatedWorkspaceBundle.filePaths (bundle : ValidatedWorkspaceBundle) : List Text :=
  bundle.documents.map (·.path) ++ bundle.assets.map (·.path)

/-- The entries, the records of the manifest and the files of the workspace are the same. -/
structure BundleExact (externals : Externals) (maxExpandedBytes : Nat) (entries : List ArchiveEntry)
    (manifest : WorkspaceBundleManifest) (bundle : ValidatedWorkspaceBundle) : Prop where
  plain : ∀ entry ∈ entries, entry.IsPlain ∧ entry.broken = false
  names : (entries.map (·.name)).Nodup
  sanitized : ∀ path ∈ bundle.filePaths, IsProjectPath path
  paths : bundle.filePaths.Nodup
  directories : ∀ directory, directory ∈ bundle.directories
    ↔ ∃ path ∈ bundle.filePaths, directory ∈ parentDirectories path
  /-- A file has nothing below it. -/
  apart : ∀ path ∈ bundle.filePaths, path ∉ bundle.directories
  declared : ∀ record ∈ manifest.files, ∃ entry ∈ entries,
    entry.name = projectPrefix ++ record.path
      ∧ (entry.bytes.length : Int) = record.sizeBytes
      ∧ hexEncode (externals.sha256 entry.bytes) = record.sha256
      ∧ IsFileOf bundle.documents bundle.assets record entry.bytes
  once : bundle.filePaths.Perm (manifest.files.map (·.path))
    ∧ ((entries.filterMap (·.projectFile)).map Prod.fst).Perm (manifest.files.map (·.path))
  manifest : ∃ entry ∈ entries, entry.name = manifestName
    ∧ externals.parseManifest entry.bytes = some manifest
  declaredExpanded : (entries.map (·.size)).sum ≤ maxExpandedBytes
  count : entries.length ≤ maxFiles + 1

theorem mem_of_projectFile {entries : List ArchiveEntry} {path : Text}
    (h : (path, bytes) ∈ entries.filterMap (·.projectFile)) :
    ∃ entry ∈ entries, entry.name = projectPrefix ++ path ∧ entry.bytes = bytes := by
  rcases List.mem_filterMap.mp h with ⟨entry, hentry, hfile⟩
  rw [ArchiveEntry.projectFile] at hfile
  split at hfile
  · cases hfile
  · rcases Option.map_eq_some_iff.mp hfile with ⟨other, hstrip, hpair⟩
    rcases Prod.mk.inj hpair with ⟨rfl, rfl⟩
    exact ⟨entry, hentry, append_of_stripPrefix hstrip, rfl⟩

variable {bundle : ValidatedWorkspaceBundle}

/-- An accepted workspace is what its archive and the manifest in it say. -/
theorem validateWorkspaceBundle_exact {content : Bytes}
    (h : validateWorkspaceBundle externals content maxExpandedBytes = .ok bundle) :
    ∃ entries manifest, externals.openArchive content = some (entries.map some)
      ∧ BundleExact externals maxExpandedBytes entries manifest bundle := by
  have hcount : ∀ entries, externals.openArchive content = some entries →
      entries.length ≤ maxFiles + 1 := by
    intro entries hopen
    rw [validateWorkspaceBundle, hopen] at h
    dsimp only at h
    split at h
    · cases h
    · next hlimit =>
      rw [not_or] at hlimit
      exact not_lt.mp hlimit.2
  rcases validateWorkspaceBundle_ok h with
    ⟨opened, archive, manifest, hopen, hread, hmanifest, hbundle⟩
  rcases (initial_entries maxExpandedBytes).readEntries hread with ⟨entries, rfl, hentries⟩
  rw [List.nil_append] at hentries
  rcases materializeManifest_some hbundle with
    ⟨recorded, hrecords, hinv, -, hapart, hdirectories, hdocuments, hassets⟩
  have hrecorded := (initial_recorded externals archive.files).materializeRecords hrecords
  rw [List.nil_append] at hrecorded
  -- the bundle, the manifest and the archive have the same paths, in some order
  have hpaths : bundle.filePaths.Perm recorded.paths :=
    ((hdocuments.map _).append (hassets.map _)).trans hinv.split
  have hrecords : recorded.paths.Perm (manifest.files.map (·.path)) := by
    rw [hrecorded.paths]
    exact List.reverse_perm _
  have hdirectory : ∀ directory, directory ∈ bundle.directories ↔ directory ∈ recorded.directories :=
    fun directory => hdirectories.mem_iff.trans List.mem_dedup
  have hfiles : archive.files.Perm (entries.filterMap (·.projectFile)) := by
    rw [hentries.files]
    exact List.reverse_perm _
  refine ⟨entries, manifest, hopen, hentries.plain, hentries.distinct, ?_, ?_, ?_, ?_, ?_,
    ⟨hpaths.trans hrecords, ?_⟩, ?_, ?_, ?_⟩
  · intro path hpath
    exact hinv.sanitized path (hpaths.mem_iff.mp hpath)
  · exact hpaths.nodup_iff.mpr hinv.paths
  · intro directory
    rw [hdirectory, hrecorded.directories]
    simp only [hpaths.mem_iff]
  · intro path hpath hmem
    exact hapart path (hpaths.mem_iff.mp hpath) ((hdirectory path).mp hmem)
  · intro record hrecord
    rcases hrecorded.recorded record hrecord with ⟨bytes, hmem, hsize, hsha256, hof⟩
    rcases mem_of_projectFile (hfiles.mem_iff.mp hmem) with ⟨entry, hentry, hname, rfl⟩
    exact ⟨entry, hentry, hname, hsize, hsha256,
      hof.mono (fun _ hmem => hdocuments.mem_iff.mpr hmem) fun _ hmem => hassets.mem_iff.mpr hmem⟩
  · -- no file is left over, and none is missing
    calc List.Perm _ (archive.files.map Prod.fst) := (hfiles.map Prod.fst).symm
      List.Perm _ recorded.paths := ?_
      List.Perm _ (manifest.files.map (·.path)) := hrecords
    refine (List.perm_ext_iff_of_nodup (readEntries_files_nodup hread List.nodup_nil)
      hinv.paths).mpr fun path => ⟨?_, ?_⟩
    · intro hmem
      rcases List.mem_map.mp hmem with ⟨file, hfile, rfl⟩
      by_contra hother
      exact absurd ((hrecorded.left file).mpr ⟨hfile, hother⟩) List.not_mem_nil
    · intro hmem
      rcases List.mem_map.mp (hrecords.mem_iff.mp hmem) with ⟨record, hrecord, rfl⟩
      rcases hrecorded.recorded record hrecord with ⟨bytes, hfile, -⟩
      exact List.mem_map.mpr ⟨_, hfile, rfl⟩
  · rcases Option.bind_eq_some_iff.mp hmanifest with ⟨bytes, hbytes, hparsed⟩
    rcases hentries.manifest bytes hbytes with ⟨entry, hentry, hname, rfl⟩
    exact ⟨entry, hentry, hname, hparsed⟩
  · rw [← hentries.declared.1]
    exact hentries.declared.2
  · have hlimit := hcount _ hopen
    rw [List.length_map] at hlimit
    exact hlimit

end Toss.Processing
