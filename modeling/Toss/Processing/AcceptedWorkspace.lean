import Mathlib.Data.List.Dedup
import Mathlib.Data.List.Infix
import Toss.Processing.Finalization
import Toss.Versioning.TextEncoding

/-!
# What an accepted workspace holds

The archive validator against the constraints of the tables its result is
inserted into: keys, an entry file among the documents, and text without U+0000.
The validator sees to all of them but one: what a document says is checked for
UTF-8 only.

* `decodeUtf8_nul` — a text has U+0000 where its bytes have a zero;
* `ContentInv` — what the records of a manifest have come to, record by record;
* `HasZeroByte` — a document file of the archive with a zero byte;
* `accepted_storable` — an accepted workspace can be inserted unless it has one.
-/

namespace Toss.Processing

open Toss.Foundation Toss.Workspace
open Toss.Versioning (encodeUtf8_of_decodeUtf8 eq_ofNat_of_mem_utf8EncodeChar)

/-! ## Text and bytes -/

/-- A text has U+0000 where its bytes have a zero. -/
theorem decodeUtf8_nul {bytes : Bytes} {text : Text} (h : decodeUtf8 bytes = some text) :
    '\x00' ∈ text ↔ 0 ∈ bytes := by
  rw [← encodeUtf8_of_decodeUtf8 h]
  constructor
  · exact fun hmem => List.mem_flatMap.mpr ⟨_, hmem, by decide⟩
  · intro hmem
    rcases List.mem_flatMap.mp hmem with ⟨c, hc, hbyte⟩
    have hnul : c = '\x00' := eq_ofNat_of_mem_utf8EncodeChar (by decide) hbyte
    exact hnul ▸ hc

/-! ## Sanitized paths -/

theorem nul_not_mem_of_segments {parts : List Text}
    (h : ∀ part ∈ parts, isAllowedSegment part = true) : '\x00' ∉ joinSegments parts := by
  intro hmem
  rcases mem_joinSegments hmem with heq | ⟨part, hpart, hc⟩
  · exact absurd heq (by decide)
  · have hallowed := h part hpart
    simp [isAllowedSegment, hc] at hallowed

variable {path : Text}

theorem isStorableText_of_path (h : IsProjectPath path) : isStorableText path = true := by
  have hparts := (isProjectPath_iff.mp h).1
  have hnul := nul_not_mem_of_segments fun part hpart => (hparts part hpart).1
  rw [joinSegments_segments] at hnul
  simp [isStorableText, hnul]

/-- The directories above a sanitized path are storable. -/
theorem isStorableText_of_parent {directory : Text} (h : IsProjectPath path)
    (hparent : directory ∈ parentDirectories path) : isStorableText directory = true := by
  have hparts := (isProjectPath_iff.mp h).1
  rcases List.mem_map.mp hparent with ⟨parts, hinit, rfl⟩
  have hinits := (List.mem_inits _ _).mp (List.mem_filter.mp hinit).1
  have hnul := nul_not_mem_of_segments fun part hpart => (hparts part (hinits.subset hpart)).1
  simp [isStorableText, hnul]

/-! ## The records of a manifest -/

/-- A record and the document it has become. -/
def IsDocumentOf (files : List (Text × Bytes)) (record : WorkspaceBundleFile)
    (document : WorkspaceDocument) : Prop :=
  document.path = record.path
    ∧ ∃ bytes, (record.path, bytes) ∈ files ∧ decodeUtf8 bytes = some document.content

/-- What the records read so far have come to. -/
structure ContentInv (externals : Externals) (entryFilePath : Text) (files : List (Text × Bytes))
    (records : List WorkspaceBundleFile) (content : BundleContent) : Prop where
  paths : content.paths.Nodup
  split : (content.documents.map WorkspaceDocument.path
    ++ content.assets.map WorkspaceBundleAsset.path).Perm content.paths
  sanitized : ∀ path ∈ content.paths, IsProjectPath path
  directories : ∀ directory ∈ content.directories,
    ∃ path ∈ content.paths, directory ∈ parentDirectories path
  mediaTypes : ∀ asset ∈ content.assets, isMediaType externals asset.mediaType = true
  documents : ∀ document ∈ content.documents, ∃ record ∈ records,
    record.kind = "document".toList ∧ IsDocumentOf files record document
  records : ∀ record ∈ records, record.kind = "document".toList →
    ∃ document ∈ content.documents, IsDocumentOf files record document
  entry : content.entryIsDocument = true →
    entryFilePath ∈ content.documents.map WorkspaceDocument.path

theorem initial_contentInv (externals : Externals) (entryFilePath : Text)
    (files : List (Text × Bytes)) : ContentInv externals entryFilePath files [] {} where
  paths := List.nodup_nil
  split := .nil
  sanitized _ h := absurd h List.not_mem_nil
  directories _ h := absurd h List.not_mem_nil
  mediaTypes _ h := absurd h List.not_mem_nil
  documents _ h := absurd h List.not_mem_nil
  records _ h := absurd h List.not_mem_nil
  entry h := by simp at h

variable {externals : Externals} {maxExpandedBytes : Nat} {bundle : ValidatedWorkspaceBundle}

variable {entryFilePath : Text} {files : List (Text × Bytes)}

/-- One more record. -/
theorem ContentInv.record {records : List WorkspaceBundleFile} {content content' : BundleContent}
    {record : WorkspaceBundleFile}
    (hinv : ContentInv externals entryFilePath files records content)
    (hpath : IsProjectPath record.path) (hnew : record.path ∉ content.paths)
    (hfile : (record.path, bytes) ∈ files)
    (h : materializeRecord externals entryFilePath content record record.path bytes
      = some content') :
    ContentInv externals entryFilePath files (records ++ [record]) content' := by
  have hsanitized : ∀ path ∈ record.path :: content.paths, IsProjectPath path := by
    intro path hmem
    rcases List.mem_cons.mp hmem with rfl | hold
    · exact hpath
    · exact hinv.sanitized path hold
  have hdirectories : ∀ directory ∈ parentDirectories record.path ++ content.directories,
      ∃ path ∈ record.path :: content.paths, directory ∈ parentDirectories path := by
    intro directory hmem
    rcases List.mem_append.mp hmem with hown | hold
    · exact ⟨record.path, List.mem_cons_self, hown⟩
    · rcases hinv.directories directory hold with ⟨path, hpathMem, hparent⟩
      exact ⟨path, List.mem_cons_of_mem _ hpathMem, hparent⟩
  unfold materializeRecord at h
  split at h
  · next hdocument =>
    -- a document, decoded as it is in the archive
    rcases Option.map_eq_some_iff.mp h with ⟨text, htext, rfl⟩
    have hone : IsDocumentOf files record ⟨record.path, text⟩ := ⟨rfl, bytes, hfile, htext⟩
    constructor
    · exact List.nodup_cons.mpr ⟨hnew, hinv.paths⟩
    · exact .cons _ hinv.split
    · exact hsanitized
    · exact hdirectories
    · exact hinv.mediaTypes
    · intro document hmem
      rcases List.mem_cons.mp hmem with rfl | hold
      · exact ⟨record, List.mem_append_right _ List.mem_cons_self, hdocument.1, hone⟩
      · rcases hinv.documents document hold with ⟨other, hother, hkind, hof⟩
        exact ⟨other, List.mem_append_left _ hother, hkind, hof⟩
    · intro other hother hkind
      rcases List.mem_append.mp hother with hold | hlast
      · rcases hinv.records other hold hkind with ⟨document, hmem, hof⟩
        exact ⟨document, List.mem_cons_of_mem _ hmem, hof⟩
      · rw [List.mem_singleton.mp hlast]
        exact ⟨_, List.mem_cons_self, hone⟩
    · intro hentry
      simp only [Bool.or_eq_true, decide_eq_true_eq] at hentry
      rcases hentry with hold | heq
      · exact List.mem_cons_of_mem _ (hinv.entry hold)
      · rw [← heq]
        exact List.mem_cons_self
  · split at h
    · next hasset =>
      -- an asset, with its media type
      rcases Option.map_eq_some_iff.mp h with ⟨mediaType, hmediaType, rfl⟩
      constructor
      · exact List.nodup_cons.mpr ⟨hnew, hinv.paths⟩
      · exact List.perm_middle.trans (.cons _ hinv.split)
      · exact hsanitized
      · exact hdirectories
      · intro asset hmem
        rcases List.mem_cons.mp hmem with rfl | hold
        · exact (Option.filter_eq_some_iff.mp hmediaType).2
        · exact hinv.mediaTypes asset hold
      · intro document hmem
        rcases hinv.documents document hmem with ⟨other, hother, hkind, hof⟩
        exact ⟨other, List.mem_append_left _ hother, hkind, hof⟩
      · intro other hother hkind
        rcases List.mem_append.mp hother with hold | hlast
        · exact hinv.records other hold hkind
        · rw [List.mem_singleton.mp hlast, hasset] at hkind
          exact absurd hkind (by decide)
      · exact hinv.entry
    · simp at h

/-- All records. -/
theorem ContentInv.records_of_materialize {left rest : List (Text × Bytes)}
    {done records : List WorkspaceBundleFile} {content content' : BundleContent}
    (hinv : ContentInv externals entryFilePath files done content)
    (hfiles : ∀ file ∈ left, file ∈ files)
    (h : materializeRecords externals entryFilePath content left records = some (content', rest)) :
    ContentInv externals entryFilePath files (done ++ records) content' := by
  induction records generalizing done content left with
  | nil =>
    rw [materializeRecords, Option.some.injEq, Prod.mk.injEq] at h
    rw [List.append_nil, ← h.1]
    exact hinv
  | cons record records ih =>
    simp only [materializeRecords, Option.bind_eq_bind, Option.bind_eq_some_iff, guard_eq_some,
      exists_const] at h
    rcases h with ⟨path, hpath, ⟨rfl, hnew, _⟩, file, hfile, _, next, hnext, hrest⟩
    have hkey : file.1 = record.path := by simpa using List.find?_some hfile
    have hmem : (record.path, file.2) ∈ files := by
      rw [← hkey]
      exact hfiles file (List.mem_of_find?_eq_some hfile)
    have hnew : record.path ∉ content.paths := by simpa using hnew
    have hlast := ih (hinv.record hpath hnew hmem hnext)
      (fun other hother => hfiles other (List.mem_filter.mp hother).1) hrest
    rw [List.append_assoc] at hlast
    exact hlast

/-! ## Accepted workspaces -/

/-- The files read from an archive have different paths. -/
theorem readEntries_files_nodup {content content' : ArchiveContent}
    {entries : List (Option ArchiveEntry)}
    (h : readEntries maxExpandedBytes content entries = .ok content')
    (hnodup : (content.files.map Prod.fst).Nodup) : (content'.files.map Prod.fst).Nodup := by
  induction entries generalizing content with
  | nil =>
    rw [readEntries, Except.ok.injEq] at h
    rw [← h]
    exact hnodup
  | cons entry entries ih =>
    rcases entry with _ | entry
    · simp [readEntries] at h
    rw [readEntries] at h
    split at h
    · simp at h
    split at h
    · simp at h
    split at h
    · simp at h
    rcases bind_eq_ok.mp h with ⟨bytes, _, hrest⟩
    dsimp only at hrest
    split at hrest
    · exact ih hrest hnodup
    split at hrest
    · simp at hrest
    rename_i path _
    split at hrest
    · simp at hrest
    rename_i hnew
    refine ih hrest ?_
    rw [List.map_cons, List.nodup_cons]
    refine ⟨?_, hnodup⟩
    intro hmem
    rcases List.mem_map.mp hmem with ⟨file, hfile, hkey⟩
    exact hnew (List.any_eq_true.mpr ⟨file, hfile, decide_eq_true hkey⟩)

/-- A file that the manifest of an archive records as a document has a zero byte. -/
def HasZeroByte (externals : Externals) (maxExpandedBytes : Nat) (content : Bytes) : Prop :=
  ∃ entries archive manifest, externals.openArchive content = some entries
    ∧ readEntries maxExpandedBytes {} entries = .ok archive
    ∧ archive.manifest.bind externals.parseManifest = some manifest
    ∧ ∃ record ∈ manifest.files, record.kind = "document".toList
      ∧ ∃ bytes, (record.path, bytes) ∈ archive.files ∧ 0 ∈ bytes

/-- What the tables ask of a workspace, the texts of its documents apart. -/
structure WorkspaceSound (externals : Externals) (bundle : ValidatedWorkspaceBundle) : Prop where
  /-- No two files of a project have one path. -/
  paths : (bundle.documents.map WorkspaceDocument.path
    ++ bundle.assets.map WorkspaceBundleAsset.path).Nodup
  sanitized : ∀ path ∈ bundle.documents.map WorkspaceDocument.path
    ++ bundle.assets.map WorkspaceBundleAsset.path, IsProjectPath path
  directories : bundle.directories.Nodup
  parents : ∀ directory ∈ bundle.directories, isStorableText directory = true
  mediaTypes : ∀ asset ∈ bundle.assets, isMediaType externals asset.mediaType = true
  entry : bundle.entryFilePath ∈ bundle.documents.map WorkspaceDocument.path

variable {content : Bytes}

theorem validateWorkspaceBundle_ok
    (h : validateWorkspaceBundle externals content maxExpandedBytes = .ok bundle) :
    ∃ entries archive manifest, externals.openArchive content = some entries
      ∧ readEntries maxExpandedBytes {} entries = .ok archive
      ∧ archive.manifest.bind externals.parseManifest = some manifest
      ∧ materializeManifest externals manifest archive.files = some bundle := by
  unfold validateWorkspaceBundle at h
  split at h
  · simp at h
  rename_i entries hentries
  split at h
  · simp at h
  rcases bind_eq_ok.mp h with ⟨archive, harchive, hrest⟩
  split at hrest
  · simp at hrest
  rename_i manifest hmanifest
  split at hrest
  · simp at hrest
  · rename_i accepted haccepted
    rw [← Except.ok.inj hrest]
    exact ⟨entries, archive, manifest, hentries, harchive, hmanifest, haccepted⟩

/-- The lists of an accepted workspace are those of the records, sorted. -/
theorem materializeManifest_some {manifest : WorkspaceBundleManifest}
    (h : materializeManifest externals manifest files = some bundle) :
    ∃ content, materializeRecords externals bundle.entryFilePath {} files manifest.files
        = some (content, [])
      ∧ ContentInv externals bundle.entryFilePath files manifest.files content
      ∧ content.entryIsDocument = true ∧ (∀ path ∈ content.paths, path ∉ content.directories)
      ∧ bundle.directories.Perm content.directories.dedup
      ∧ bundle.documents.Perm content.documents ∧ bundle.assets.Perm content.assets := by
  simp only [materializeManifest, Option.bind_eq_bind, Option.bind_eq_some_iff, guard_eq_some,
    exists_const, Option.pure_def, Option.some.injEq] at h
  rcases h with ⟨entryFilePath, _, _, ⟨content, left⟩, hrecords, ⟨hleft, hentry, hapart⟩, rfl⟩
  rcases (hleft : left = []) with rfl
  have hinv := (initial_contentInv externals entryFilePath files).records_of_materialize
    (fun _ hfile => hfile) hrecords
  rw [List.nil_append] at hinv
  refine ⟨content, hrecords, hinv, hentry, ?_, List.perm_insertionSort _ _,
    List.perm_insertionSort _ _, List.perm_insertionSort _ _⟩
  intro path hpath hdirectory
  exact List.any_eq_false.mp hapart path hpath (List.contains_iff_mem.mpr hdirectory)

/-- An accepted workspace has the keys and paths that the tables ask for, and an
entry file among its documents. A document's text has U+0000 exactly when a
document file of the archive has a zero byte. -/
theorem accepted_sound
    (h : validateWorkspaceBundle externals content maxExpandedBytes = .ok bundle) :
    WorkspaceSound externals bundle
    ∧ ((∃ document ∈ bundle.documents, '\x00' ∈ document.content)
        ↔ HasZeroByte externals maxExpandedBytes content) := by
  rcases validateWorkspaceBundle_ok h with
    ⟨entries, archive, manifest, hentries, harchive, hmanifest, hbundle⟩
  rcases materializeManifest_some hbundle with
    ⟨read, -, hinv, hentry, -, hdirectories, hdocuments, hassets⟩
  have hfiles := readEntries_files_nodup harchive List.nodup_nil
  have hpaths : (bundle.documents.map WorkspaceDocument.path
      ++ bundle.assets.map WorkspaceBundleAsset.path).Perm read.paths :=
    ((hdocuments.map _).append (hassets.map _)).trans hinv.split
  refine ⟨⟨?_, ?_, ?_, ?_, ?_, ?_⟩, ?_⟩
  · exact hpaths.nodup_iff.mpr hinv.paths
  · intro path hmem
    exact hinv.sanitized path (hpaths.mem_iff.mp hmem)
  · exact hdirectories.nodup_iff.mpr (List.nodup_dedup _)
  · intro directory hmem
    have hmem := List.mem_dedup.mp (hdirectories.mem_iff.mp hmem)
    rcases hinv.directories directory hmem with ⟨path, hpath, hparent⟩
    exact isStorableText_of_parent (hinv.sanitized path hpath) hparent
  · intro asset hmem
    exact hinv.mediaTypes asset (hassets.mem_iff.mp hmem)
  · exact (hdocuments.map _).mem_iff.mpr (hinv.entry hentry)
  · constructor
    · rintro ⟨document, hdocument, hnul⟩
      rcases hinv.documents document (hdocuments.mem_iff.mp hdocument) with
        ⟨record, hrecord, hkind, _, bytes, hbytes, hdecoded⟩
      exact ⟨entries, archive, manifest, hentries, harchive, hmanifest, record, hrecord, hkind,
        bytes, hbytes, (decodeUtf8_nul hdecoded).mp hnul⟩
    · rintro ⟨entries', archive', manifest', hentries', harchive', hmanifest', record, hrecord,
        hkind, bytes, hbytes, hzero⟩
      -- the archive is read in one way
      rw [hentries, Option.some.injEq] at hentries'
      rw [← hentries', harchive, Except.ok.injEq] at harchive'
      rw [← harchive', hmanifest, Option.some.injEq] at hmanifest'
      rw [← hmanifest'] at hrecord
      rw [← harchive'] at hbytes
      rcases hinv.records record hrecord hkind with ⟨document, hdocument, _, other, hother, hdecoded⟩
      have hsame := List.inj_on_of_nodup_map hfiles hbytes hother rfl
      have hbytesEq : bytes = other := congrArg Prod.snd hsame
      exact ⟨document, hdocuments.mem_iff.mpr hdocument,
        (decodeUtf8_nul hdecoded).mpr (by rw [← hbytesEq]; exact hzero)⟩

theorem stageAssets_zip (projectId : Uuid) (hasStorage : Bool) (assets : List WorkspaceBundleAsset)
    (ids : List Uuid) : assets.zipWith (stageAsset projectId hasStorage) ids
      = (assets.zip ids).map fun entry => stageAsset projectId hasStorage entry.1 entry.2 := by
  rw [← List.map_uncurry_zip_eq_zipWith]
  rfl

/-- A workspace fails the constraints of the tables only with U+0000 in the text of
a document: its graph can be inserted, under identifiers that are not taken, exactly
when no document file of the archive has a zero byte. -/
theorem accepted_storable
    (hessence : ∀ text essence, externals.mimeEssence text = some essence → '\x00' ∉ essence)
    (h : validateWorkspaceBundle externals content maxExpandedBytes = .ok bundle) {db : Database}
    {lease : FinalizationLease} {projectName : Text} (hname : isStorableText projectName = true)
    {projectId : Uuid} (hproject : ∀ project ∈ db.projects, project.id ≠ projectId)
    {hasStorage : Bool} {assetIds : List Uuid} (hlength : assetIds.length = bundle.assets.length)
    (hids : assetIds.Nodup) (hassets : ∀ id ∈ assetIds, ∀ row ∈ db.assets, row.id ≠ id) :
    (projectGraph lease bundle projectName projectId hasStorage assetIds).isInsertable db = true
      ↔ ¬ HasZeroByte externals maxExpandedBytes content := by
  rcases accepted_sound h with ⟨hsound, hzero⟩
  have hstorable : ∀ path ∈ bundle.documents.map WorkspaceDocument.path
      ++ bundle.assets.map WorkspaceBundleAsset.path, isStorableText path = true :=
    fun path hpath => isStorableText_of_path (hsound.sanitized path hpath)
  have hdocument : ∀ document ∈ bundle.documents, isStorableText document.path = true :=
    fun document hmem => hstorable _ (List.mem_append_left _ (List.mem_map_of_mem hmem))
  have hentry : isStorableText bundle.entryFilePath = true :=
    hstorable _ (List.mem_append_left _ hsound.entry)
  have hpaths := List.nodup_append.mp hsound.paths
  have hstaged := stageAssets_zip projectId hasStorage bundle.assets assetIds
  have hstagedPaths : (bundle.assets.zipWith (stageAsset projectId hasStorage) assetIds).map
      ResultAssetRow.path = bundle.assets.map WorkspaceBundleAsset.path := by
    have hfst : (bundle.assets.zip assetIds).map Prod.fst = bundle.assets :=
      List.map_fst_zip (by omega)
    rw [hstaged, List.map_map]
    conv_rhs => rw [← hfst, List.map_map]
    rfl
  have hstagedIds : (bundle.assets.zipWith (stageAsset projectId hasStorage) assetIds).map
      ResultAssetRow.id = assetIds := by
    have hsnd : (bundle.assets.zip assetIds).map Prod.snd = assetIds :=
      List.map_snd_zip (by omega)
    rw [hstaged, List.map_map]
    exact hsnd
  have hrows : (bundle.assets.zipWith (stageAsset projectId hasStorage) assetIds).all (fun asset =>
      isStorableText asset.path && isStorableText asset.contentType
        && !db.assets.any fun row => row.id = asset.id) = true := by
    rw [List.all_eq_true, hstaged]
    intro row hrow
    rcases List.mem_map.mp hrow with ⟨⟨asset, id⟩, hmem, rfl⟩
    rcases List.of_mem_zip hmem with ⟨hasset, hid⟩
    have htype := hsound.mediaTypes asset hasset
    simp only [isMediaType, Bool.and_eq_true, decide_eq_true_eq] at htype
    have hnul : isStorableText asset.mediaType = true := by
      simp [isStorableText, hessence _ _ htype.2]
    have hfresh : (db.assets.any fun row => row.id = id) = false :=
      List.any_eq_false.mpr fun row hrow' hrowId =>
        hassets id hid row hrow' (of_decide_eq_true hrowId)
    simp [stageAsset, hnul, hfresh,
      hstorable _ (List.mem_append_right _ (List.mem_map_of_mem hasset))]
  have hfreshProject : (!db.projects.any fun project => project.id = projectId) = true := by
    rw [Bool.not_eq_true', List.any_eq_false]
    exact fun project hmem hid => hproject project hmem (of_decide_eq_true hid)
  have hparents : bundle.directories.all isStorableText = true :=
    List.all_eq_true.mpr hsound.parents
  -- all constraints hold but the one on the texts of documents
  have hall : (projectGraph lease bundle projectName projectId hasStorage assetIds).isInsertable db
      = bundle.documents.all fun document => isStorableText document.content := by
    simp only [ProjectGraph.isInsertable, projectGraph, hname, hentry, hsound.directories, hparents,
      hpaths.1, hstagedPaths, hpaths.2.1, hstagedIds, hids, hrows, decide_true, Bool.and_true]
    refine Bool.eq_iff_iff.mpr ?_
    simp only [List.all_eq_true, Bool.and_eq_true]
    exact ⟨fun hboth document hmem => (hboth.2 document hmem).2,
      fun htext => ⟨hfreshProject, fun document hmem =>
        ⟨hdocument document hmem, htext document hmem⟩⟩⟩
  rw [hall, ← hzero, List.all_eq_true]
  constructor
  · rintro htext ⟨document, hmem, hnul⟩
    have hone := htext document hmem
    simp [isStorableText, hnul] at hone
  · intro hnone document hmem
    have hnul : '\x00' ∉ document.content := fun hnul => hnone ⟨document, hmem, hnul⟩
    simp [isStorableText, hnul]

end Toss.Processing
