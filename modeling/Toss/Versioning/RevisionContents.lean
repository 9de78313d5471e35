import Toss.Versioning.Mirroring
import Toss.Versioning.RevisionTransfer

/-!
# What a revision shows

The documents and assets that a tree shows, path by path, and the transfers that send them.

* `blobPaths`, `shownDocument`, `shownAsset` — a tree as a reader sees it;
* `Sends` — a transfer names some paths, and holds what the tree shows at each of them;
* `sends_of_materialize` — so does every transfer that is made;
* `revisionDocuments_full` — the full transfer.
-/

namespace Toss.Versioning

open Toss.Foundation Toss.Workspace
open Toss.Processing (decodeUtf8)

/-! ## Trees -/

/-- The path of a blob, sanitized. -/
def blobPath (entry : Bytes × TreeFile) : Option Text :=
  if entry.2.mode = .gitlink then none else (decodeUtf8 entry.1).bind sanitizeProjectPath

def blobPaths (tree : Tree) : List Text :=
  (dedupKeys tree).filterMap blobPath

def shownBytes (tree : Tree) (path : Text) : Option Bytes :=
  if path ∈ blobPaths tree then (loadBlobBytesAtPath tree path).toOption else none

def shownDocument (tree : Tree) (path : Text) : Option Text :=
  if isDocumentTextPath path then (shownBytes tree path).bind decodeUtf8 else none

def shownAsset (tree : Tree) (path : Text) : Option Bytes :=
  if isDocumentTextPath path then none else shownBytes tree path

theorem toOption_eq_some {ε α : Type*} {result : Except ε α} {value : α} :
    result.toOption = some value ↔ result = .ok value := by
  cases result <;> simp [Except.toOption]

variable {path : Text}

theorem shownBytes_eq_some {tree : Tree} {bytes : Bytes} :
    shownBytes tree path = some bytes
      ↔ path ∈ blobPaths tree ∧ loadBlobBytesAtPath tree path = .ok bytes := by
  unfold shownBytes
  split
  · next hmem => simp [hmem, toOption_eq_some]
  · next hmem => simp [hmem]

theorem shownDocument_eq_some {tree : Tree} {path content : Text} :
    shownDocument tree path = some content
      ↔ isDocumentTextPath path = true ∧ path ∈ blobPaths tree
        ∧ ∃ bytes, loadBlobBytesAtPath tree path = .ok bytes ∧ decodeUtf8 bytes = some content := by
  unfold shownDocument
  split
  · next htext =>
    rw [Option.bind_eq_some_iff]
    constructor
    · rintro ⟨bytes, hbytes, hdecode⟩
      rcases shownBytes_eq_some.mp hbytes with ⟨hmem, hload⟩
      exact ⟨htext, hmem, bytes, hload, hdecode⟩
    · rintro ⟨-, hmem, bytes, hload, hdecode⟩
      exact ⟨bytes, shownBytes_eq_some.mpr ⟨hmem, hload⟩, hdecode⟩
  · next htext => simp [htext]

theorem shownAsset_eq_some {tree : Tree} {bytes : Bytes} :
    shownAsset tree path = some bytes
      ↔ isDocumentTextPath path = false ∧ path ∈ blobPaths tree
        ∧ loadBlobBytesAtPath tree path = .ok bytes := by
  unfold shownAsset
  split
  · next htext => simp [htext]
  · next htext => rw [shownBytes_eq_some, eq_false_of_ne_true htext]; simp

theorem isProjectPath_of_mem_blobPaths {tree : Tree} (h : path ∈ blobPaths tree) :
    IsProjectPath path := by
  rcases List.mem_filterMap.mp h with ⟨entry, -, hpath⟩
  unfold blobPath at hpath
  split at hpath
  · simp at hpath
  · rcases Option.bind_eq_some_iff.mp hpath with ⟨raw, -, hclean⟩
    exact isProjectPath_of_sanitizeProjectPath hclean

/-! ## Manifests -/

theorem manifestPath_ok {entry : Bytes × TreeFile} {path : Option Text}
    (h : manifestPath entry = .ok path) : path = blobPath entry := by
  unfold manifestPath at h
  unfold blobPath
  split at h
  · simp at h
  split at h
  · next hmode => simpa [hmode] using h.symm
  next hmode =>
  rw [if_neg hmode]
  split at h
  · next hdecode => simpa [hdecode] using h.symm
  rename_i raw hdecode
  split at h
  · simp at h
  · next clean hclean =>
    rw [hdecode, ← Except.ok.inj h]
    exact hclean.symm

theorem manifest_of_load {git : GitLibrary} {tree : Tree} {manifest : CommitManifest}
    (h : loadCommitManifest git tree = .ok manifest) :
    manifest.files = (blobPaths tree).dedup.map fun path => (path, commitPathMeta git path) := by
  rcases bind_eq_ok.mp h with ⟨paths, hpaths, hmanifest⟩
  have hsame : paths.filterMap id = blobPaths tree := by
    have hall := mapM_eq_ok.mp hpaths
    unfold blobPaths
    clear h hpaths hmanifest
    generalize dedupKeys tree = entries at hall ⊢
    induction hall with
    | nil => rfl
    | @cons entry path entries paths hentry _ ih =>
      rw [List.filterMap_cons, List.filterMap_cons, ih, ← manifestPath_ok hentry]
      rfl
  rw [← Except.ok.inj hmanifest, hsame]

section Manifest

variable {git : GitLibrary} {tree : Tree} {manifest : CommitManifest}

theorem paths_of_load (h : loadCommitManifest git tree = .ok manifest) :
    manifest.files.map Prod.fst = (blobPaths tree).dedup := by
  rw [manifest_of_load h, List.map_map]
  exact List.map_id _

theorem lookup_of_load (h : loadCommitManifest git tree = .ok manifest) (path : Text) :
    manifest.files.lookup path
      = if path ∈ blobPaths tree then some (commitPathMeta git path) else none := by
  split
  · next hmem =>
    refine lookup_of_mem ?_ ?_
    · rw [paths_of_load h]
      exact List.nodup_dedup _
    · rw [manifest_of_load h]
      exact List.mem_map.mpr ⟨path, List.mem_dedup.mpr hmem, rfl⟩
  · next hmem =>
    refine lookup_eq_none_of_not_mem ?_
    rw [paths_of_load h, List.mem_dedup]
    exact hmem

/-- A path takes part by its name, and by whether the tree has it. -/
theorem pathTransfer_of_load (h : loadCommitManifest git tree = .ok manifest) (path : Text) :
    manifest.pathTransfer path =
      if path ∈ blobPaths tree then
        if isDocumentTextPath path then .document else .asset
      else if isDocumentTextPath path then .deletedDocument else .deletedAsset := by
  unfold CommitManifest.pathTransfer
  rw [lookup_of_load h]
  by_cases hmem : path ∈ blobPaths tree
  · by_cases htext : isDocumentTextPath path = true <;> simp [hmem, htext, commitPathMeta]
  · simp [hmem]

end Manifest

/-! ## Lists of paths -/

variable {paths : List Text}

theorem mem_sortPaths : path ∈ sortPaths paths ↔ path ∈ paths :=
  (List.perm_insertionSort _ paths).mem_iff

theorem nodup_sortPaths : (sortPaths paths).Nodup ↔ paths.Nodup :=
  (List.perm_insertionSort _ paths).nodup_iff

theorem cleanPath_of_isProjectPath (h : IsProjectPath path) :
    cleanPath path = .ok path := by
  unfold cleanPath
  rw [h]

/-- Sanitized paths are cleaned to themselves. -/
theorem cleanTransferPaths_eq (h : ∀ path ∈ paths, IsProjectPath path) :
    cleanTransferPaths paths = .ok (sortPaths paths.dedup) := by
  unfold cleanTransferPaths
  rw [mapM_ok_self fun path hpath => cleanPath_of_isProjectPath (h path hpath)]
  rfl

/-! ## Transfers -/

/-- A transfer holds what a tree shows at some paths, and names those at which it shows
nothing. -/
structure Sends (git : GitLibrary) (tree : Tree) (paths : List Text) (transfer : RevisionTransfer) :
    Prop where
  documents : ∀ document, document ∈ transfer.documents
    ↔ document.path ∈ paths ∧ shownDocument tree document.path = some document.content
  documents_nodup : (transfer.documents.map RevisionDocument.path).Nodup
  deletedDocuments : ∀ path, path ∈ transfer.deletedDocuments
    ↔ path ∈ paths ∧ isDocumentTextPath path = true ∧ path ∉ blobPaths tree
  assets : ∀ asset, asset ∈ transfer.assets
    ↔ asset.path ∈ paths ∧ shownAsset tree asset.path = some asset.bytes
      ∧ asset.contentType = git.contentType asset.path ∧ asset.sizeBytes = asset.bytes.length
  assets_nodup : (transfer.assets.map RevisionAsset.path).Nodup
  deletedAssets : ∀ path, path ∈ transfer.deletedAssets
    ↔ path ∈ paths ∧ isDocumentTextPath path = false ∧ path ∉ blobPaths tree
  shown : ∀ path ∈ paths, path ∈ blobPaths tree →
    (shownDocument tree path).isSome = true ∨ (shownAsset tree path).isSome = true

theorem Sends.congr {git : GitLibrary} {tree : Tree} {paths' : List Text}
    {transfer : RevisionTransfer} (h : Sends git tree paths transfer)
    (hpaths : ∀ path, path ∈ paths ↔ path ∈ paths') : Sends git tree paths' transfer := by
  refine ⟨?_, h.documents_nodup, ?_, ?_, h.assets_nodup, ?_, ?_⟩
  · exact fun document => by rw [h.documents, hpaths]
  · exact fun path => by rw [h.deletedDocuments, hpaths]
  · exact fun asset => by rw [h.assets, hpaths]
  · exact fun path => by rw [h.deletedAssets, hpaths]
  · exact fun path hpath => h.shown path ((hpaths path).mpr hpath)

theorem loadRevisionDocument_ok {tree : Tree} {document : RevisionDocument} :
    loadRevisionDocument tree path = .ok document
      ↔ document.path = path ∧ ∃ bytes, loadBlobBytesAtPath tree path = .ok bytes
        ∧ decodeUtf8 bytes = some document.content := by
  unfold loadRevisionDocument
  rw [bind_eq_ok]
  constructor
  · rintro ⟨bytes, hbytes, hcontent⟩
    split at hcontent
    · next content hdecode =>
      rw [← Except.ok.inj hcontent]
      exact ⟨rfl, bytes, hbytes, hdecode⟩
    · simp at hcontent
  · rintro ⟨hpath, bytes, hbytes, hdecode⟩
    refine ⟨bytes, hbytes, ?_⟩
    rw [hdecode, ← hpath]

theorem loadRevisionAsset_ok {git : GitLibrary} {tree : Tree} {manifest : CommitManifest}
    {asset : RevisionAsset} (hmanifest : loadCommitManifest git tree = .ok manifest)
    (hpath : path ∈ blobPaths tree) :
    loadRevisionAsset manifest tree path = .ok (some asset)
      ↔ asset.path = path ∧ loadBlobBytesAtPath tree path = .ok asset.bytes
        ∧ asset.contentType = git.contentType path ∧ asset.sizeBytes = asset.bytes.length := by
  unfold loadRevisionAsset
  rw [lookup_of_load hmanifest, if_pos hpath]
  rw [bind_eq_ok]
  constructor
  · rintro ⟨bytes, hbytes, hasset⟩
    rw [← Option.some.inj (Except.ok.inj hasset)]
    exact ⟨rfl, hbytes, rfl, rfl⟩
  · rintro ⟨rfl, hbytes, htype, hsize⟩
    refine ⟨asset.bytes, hbytes, ?_⟩
    rw [show (commitPathMeta git asset.path).contentType = git.contentType asset.path from rfl,
      ← htype, ← hsize]

section Materialize

variable {git : GitLibrary} {repository : Repository} {revisionId : Oid} {entryFilePath : Text}
  {prepared : PreparedRevisionTransfer} {object : CommitObject} {changed : Option (List Text)}
  {anchorKind : RevisionAnchorKind} {transfer : RevisionTransfer}

/-- The paths that a candidate is built of. -/
def transferPaths (manifest : CommitManifest) (changed : Option (List Text)) : List Text :=
  changed.getD (manifest.files.map Prod.fst)

/-- The paths of a candidate that take part in one way, as they are cleaned. -/
theorem clean_taking {manifest : CommitManifest} (part : PathTransfer)
    (hpaths : ∀ path ∈ transferPaths manifest changed, IsProjectPath path) :
    ∃ paths, cleanTransferPaths
        ((sortPaths (transferPaths manifest changed).dedup).filter fun path =>
          manifest.pathTransfer path = part) = .ok paths
      ∧ paths.Nodup
      ∧ ∀ path, path ∈ paths
        ↔ path ∈ transferPaths manifest changed ∧ manifest.pathTransfer path = part := by
  have hmem : ∀ path, path ∈ (sortPaths (transferPaths manifest changed).dedup).filter
      (fun path => manifest.pathTransfer path = part)
      ↔ path ∈ transferPaths manifest changed ∧ manifest.pathTransfer path = part := by
    intro path
    rw [List.mem_filter, mem_sortPaths, List.mem_dedup, decide_eq_true_eq]
  refine ⟨_, cleanTransferPaths_eq fun path hpath => hpaths path ((hmem path).mp hpath).1, ?_, ?_⟩
  · rw [nodup_sortPaths]
    exact List.nodup_dedup _
  · intro path
    rw [mem_sortPaths, List.mem_dedup]
    exact hmem path

/-- The documents and assets at some paths, one for each. -/
theorem nodup_of_mapM {α : Type} {f : Text → Except RevisionTransferError α} {values : List α}
    {path : α → Text} (h : paths.mapM f = .ok values)
    (hpath : ∀ name value, f name = .ok value → path value = name) (hnodup : paths.Nodup) :
    (values.map path).Nodup := by
  have hall := mapM_eq_ok.mp h
  have hsame : values.map path = paths := by
    clear h hnodup
    induction hall with
    | nil => rfl
    | cons hvalue _ ih => rw [List.map_cons, ih, hpath _ _ hvalue]
  rw [hsame]
  exact hnodup

/-- The assets at some paths, at most one for each. -/
theorem assets_sublist {manifest : CommitManifest} {tree : Tree}
    {assets : List (Option RevisionAsset)}
    (h : paths.mapM (loadRevisionAsset manifest tree) = .ok assets) :
    ((assets.filterMap id).map RevisionAsset.path).Sublist paths := by
  have hall := mapM_eq_ok.mp h
  clear h
  induction hall with
  | nil => exact List.Sublist.refl _
  | @cons path asset paths assets hasset _ ih =>
    cases asset with
    | none => exact ih.cons path
    | some asset =>
      have hpath : asset.path = path := by
        unfold loadRevisionAsset at hasset
        split at hasset
        · simp at hasset
        · rcases bind_eq_ok.mp hasset with ⟨bytes, -, hloaded⟩
          rw [← Option.some.inj (Except.ok.inj hloaded)]
      rw [List.filterMap_cons]
      show (asset.path :: _).Sublist _
      rw [hpath]
      exact ih.cons_cons path

theorem sends_of_materialize (hfind : repository.find revisionId = some object)
    (hmanifest : loadCommitManifest git object.tree = .ok prepared.targetManifest)
    (hpaths : ∀ path ∈ transferPaths prepared.targetManifest changed, IsProjectPath path)
    (h : materializeRevisionTransfer repository revisionId entryFilePath prepared
      (buildTransferCandidate prepared.targetManifest changed anchorKind) = .ok transfer) :
    Sends git object.tree (transferPaths prepared.targetManifest changed) transfer
      ∧ transfer.transferMode = (if changed.isSome then .delta else .full)
      ∧ transfer.baseAnchor = anchorKind.baseAnchor
      ∧ transfer.baseRevisionId = anchorKind.baseRevisionId := by
  have hpart := pathTransfer_of_load hmanifest
  rcases bind_eq_ok.mp h with ⟨object', hfound, h⟩
  rw [findRevision, hfind] at hfound
  cases hfound
  -- the four lists are filters of the same paths, and cleaning keeps each
  rcases clean_taking .document hpaths with ⟨documentPaths, hclean, hdocNodup, hdocs⟩
  rcases bind_eq_ok.mp h with ⟨paths, hpaths₁, h⟩
  rcases Except.ok.inj (hclean.symm.trans hpaths₁) with rfl
  rcases bind_eq_ok.mp h with ⟨documents, hdocuments, h⟩
  rcases clean_taking .asset hpaths with ⟨assetPaths, hclean, hassetNodup, hassets⟩
  rcases bind_eq_ok.mp h with ⟨paths, hpaths₂, h⟩
  rcases Except.ok.inj (hclean.symm.trans hpaths₂) with rfl
  rcases bind_eq_ok.mp h with ⟨assets, hloaded, h⟩
  rcases clean_taking .deletedDocument hpaths with ⟨deletedDocuments, hclean, -, hdeleted⟩
  rcases bind_eq_ok.mp h with ⟨paths, hpaths₃, h⟩
  rcases Except.ok.inj (hclean.symm.trans hpaths₃) with rfl
  rcases clean_taking .deletedAsset hpaths with ⟨deletedAssets, hclean, -, hremoved⟩
  rcases bind_eq_ok.mp h with ⟨paths, hpaths₄, h⟩
  rcases Except.ok.inj (hclean.symm.trans hpaths₄) with rfl
  rw [← Except.ok.inj h]
  refine ⟨⟨?_, ?_, ?_, ?_, ?_, ?_, ?_⟩, rfl, rfl, rfl⟩
  · -- documents are the text paths with a blob, and its bytes as text
    intro document
    show document ∈ documents ↔ _
    rw [mem_mapM_ok hdocuments, shownDocument_eq_some]
    constructor
    · rintro ⟨path, hpath, hloaded⟩
      rcases loadRevisionDocument_ok.mp hloaded with ⟨rfl, hbytes⟩
      rcases (hdocs _).mp hpath with ⟨hmem, hclass⟩
      rw [hpart] at hclass
      split at hclass
      · next hblob =>
        split at hclass
        · next htext => exact ⟨hmem, htext, hblob, hbytes⟩
        · simp at hclass
      · split at hclass <;> simp at hclass
    · rintro ⟨hmem, htext, hblob, hbytes⟩
      refine ⟨document.path, (hdocs _).mpr ⟨hmem, ?_⟩, loadRevisionDocument_ok.mpr ⟨rfl, hbytes⟩⟩
      rw [hpart, if_pos hblob, if_pos htext]
  · exact nodup_of_mapM hdocuments
      (fun _ _ hloaded => (loadRevisionDocument_ok.mp hloaded).1) hdocNodup
  · -- deleted documents are the text paths without a blob
    intro path
    rw [hdeleted path, hpart]
    by_cases hblob : path ∈ blobPaths object.tree
    · by_cases htext : isDocumentTextPath path = true <;> simp [hblob, htext]
    · by_cases htext : isDocumentTextPath path = true <;> simp [hblob, htext]
  · -- assets are the other paths with a blob
    intro asset
    show asset ∈ assets.filterMap id ↔ _
    have hmemAsset : asset ∈ assets.filterMap id ↔ some asset ∈ assets := by
      simp
    rw [hmemAsset, mem_mapM_ok hloaded, shownAsset_eq_some]
    constructor
    · rintro ⟨path, hpath, hasset⟩
      rcases (hassets _).mp hpath with ⟨hmem, hclass⟩
      rw [hpart] at hclass
      split at hclass
      · next hblob =>
        split at hclass
        · simp at hclass
        · next htext =>
          rcases (loadRevisionAsset_ok hmanifest hblob).mp hasset with ⟨rfl, hbytes, hmeta⟩
          exact ⟨hmem, ⟨eq_false_of_ne_true htext, hblob, hbytes⟩, hmeta⟩
      · split at hclass <;> simp at hclass
    · rintro ⟨hmem, ⟨htext, hblob, hbytes⟩, hmeta⟩
      refine ⟨asset.path, (hassets _).mpr ⟨hmem, ?_⟩,
        (loadRevisionAsset_ok hmanifest hblob).mpr ⟨rfl, hbytes, hmeta⟩⟩
      rw [hpart, if_pos hblob, htext]
      rfl
  · exact (assets_sublist hloaded).nodup hassetNodup
  · intro path
    rw [hremoved path, hpart]
    by_cases hblob : path ∈ blobPaths object.tree
    · by_cases htext : isDocumentTextPath path = true <;> simp [hblob, htext]
    · by_cases htext : isDocumentTextPath path = true <;> simp [hblob, htext]
  · -- so a path with a blob is sent as the one or as the other
    intro path hmem hblob
    by_cases htext : isDocumentTextPath path = true
    · have hpath := (hdocs path).mpr ⟨hmem, by rw [hpart, if_pos hblob, if_pos htext]⟩
      rcases exists_of_mapM_ok hdocuments hpath with ⟨document, hdocument⟩
      rcases loadRevisionDocument_ok.mp hdocument with ⟨-, hbytes⟩
      exact .inl (Option.isSome_iff_exists.mpr
        ⟨_, shownDocument_eq_some.mpr ⟨htext, hblob, hbytes⟩⟩)
    · have hpath := (hassets path).mpr ⟨hmem, by rw [hpart, if_pos hblob, if_neg htext]⟩
      rcases exists_of_mapM_ok hloaded hpath with ⟨asset, hasset⟩
      unfold loadRevisionAsset at hasset
      rw [lookup_of_load hmanifest, if_pos hblob] at hasset
      rcases bind_eq_ok.mp hasset with ⟨bytes, hbytes, -⟩
      exact .inr (Option.isSome_iff_exists.mpr
        ⟨bytes, shownAsset_eq_some.mpr ⟨eq_false_of_ne_true htext, hblob, hbytes⟩⟩)

end Materialize

/-! ## Full transfers -/

/-- A tree that can be opened: its directories are named in UTF-8, its blobs have project paths
under which they are found again, and those that are documents by name hold text. -/
structure Opens (tree : Tree) : Prop where
  roots : ∀ entry ∈ dedupKeys tree, (decodeUtf8 (treeRoot entry.1)).isSome = true
  paths : ∀ entry ∈ dedupKeys tree, entry.2.mode ≠ .gitlink →
    ∀ raw ∈ decodeUtf8 entry.1, (sanitizeProjectPath raw).isSome = true
  shown : ∀ path ∈ blobPaths tree,
    (shownDocument tree path).isSome = true ∨ (shownAsset tree path).isSome = true

instance (tree : Tree) : Decidable (Opens tree) :=
  decidable_of_iff
    ((∀ entry ∈ dedupKeys tree, (decodeUtf8 (treeRoot entry.1)).isSome = true)
      ∧ (∀ entry ∈ dedupKeys tree, entry.2.mode ≠ .gitlink →
        ∀ raw ∈ decodeUtf8 entry.1, (sanitizeProjectPath raw).isSome = true)
      ∧ ∀ path ∈ blobPaths tree,
        (shownDocument tree path).isSome = true ∨ (shownAsset tree path).isSome = true)
    ⟨fun h => ⟨h.1, h.2.1, h.2.2⟩, fun h => ⟨h.1, h.2, h.3⟩⟩

theorem load_of_opens (git : GitLibrary) {tree : Tree} (h : Opens tree) :
    ∃ manifest, loadCommitManifest git tree = .ok manifest := by
  have hpath : ∀ entry ∈ dedupKeys tree, ∃ path, manifestPath entry = .ok path := by
    intro entry hentry
    unfold manifestPath
    rw [if_neg (by simp [Option.isSome_iff_ne_none.mp (h.roots entry hentry)])]
    split
    · exact ⟨_, rfl⟩
    next hmode =>
    split
    · exact ⟨_, rfl⟩
    next raw hdecode =>
    rcases Option.isSome_iff_exists.mp (h.paths entry hentry hmode raw hdecode) with ⟨path, hclean⟩
    rw [hclean]
    exact ⟨_, rfl⟩
  rcases exists_mapM_ok hpath with ⟨paths, hpaths⟩
  exact ⟨_, bind_eq_ok.mpr ⟨paths, hpaths, rfl⟩⟩

theorem directories_of_load {git : GitLibrary} {tree : Tree} {manifest : CommitManifest}
    (h : loadCommitManifest git tree = .ok manifest) :
    ∀ directory ∈ manifest.directories, IsProjectPath directory := by
  have hfiles := paths_of_load h
  rcases bind_eq_ok.mp h with ⟨paths, -, hmanifest⟩
  rw [← Except.ok.inj hmanifest] at hfiles ⊢
  intro directory hdirectory
  rcases List.mem_flatMap.mp (List.mem_dedup.mp hdirectory) with ⟨path, hpath, hparent⟩
  have hblob : path ∈ blobPaths tree := by
    rw [← List.mem_dedup, ← hfiles, List.map_map]
    exact List.mem_map.mpr ⟨path, hpath, rfl⟩
  exact isProjectPath_of_mem_parentDirectories (isProjectPath_of_mem_blobPaths hblob) hparent

theorem nodes_of_load {git : GitLibrary} {tree : Tree} {manifest : CommitManifest}
    (h : loadCommitManifest git tree = .ok manifest) :
    ∃ nodes, buildNodesFromManifest manifest = .ok nodes := by
  have hfiles : ∀ path ∈ manifest.files.map Prod.fst, cleanPath path = .ok path := by
    intro path hpath
    rw [paths_of_load h, List.mem_dedup] at hpath
    exact cleanPath_of_isProjectPath (isProjectPath_of_mem_blobPaths hpath)
  have hdirectories : ∀ directory ∈ manifest.directories, cleanPath directory = .ok directory :=
    fun directory hmem => cleanPath_of_isProjectPath (directories_of_load h directory hmem)
  unfold buildNodesFromManifest
  rw [mapM_ok_self hfiles, mapM_ok_self hdirectories]
  exact ⟨_, rfl⟩

/-- A candidate of a tree that can be opened is materialized. -/
theorem exists_materialize {git : GitLibrary} {repository : Repository} {revisionId : Oid}
    {object : CommitObject} {changed : Option (List Text)} (entryFilePath : Text)
    (prepared : PreparedRevisionTransfer) (anchorKind : RevisionAnchorKind)
    (hfind : repository.find revisionId = some object)
    (hmanifest : loadCommitManifest git object.tree = .ok prepared.targetManifest)
    (hpaths : ∀ path ∈ transferPaths prepared.targetManifest changed, IsProjectPath path)
    (hopens : Opens object.tree) :
    ∃ transfer, materializeRevisionTransfer repository revisionId entryFilePath prepared
      (buildTransferCandidate prepared.targetManifest changed anchorKind) = .ok transfer := by
  have hpart := pathTransfer_of_load hmanifest
  rcases clean_taking .document hpaths with ⟨documentPaths, hclean₁, -, hdocs⟩
  rcases clean_taking .asset hpaths with ⟨assetPaths, hclean₂, -, hassets⟩
  rcases clean_taking .deletedDocument hpaths with ⟨deletedDocuments, hclean₃, -, -⟩
  rcases clean_taking .deletedAsset hpaths with ⟨deletedAssets, hclean₄, -, -⟩
  -- every document that is sent can be read
  have hdocuments : ∀ path ∈ documentPaths, ∃ document,
      loadRevisionDocument object.tree path = .ok document := by
    intro path hpath
    have hclass := ((hdocs path).mp hpath).2
    rw [hpart] at hclass
    split at hclass
    · next hblob =>
      split at hclass
      · next htext =>
        rcases hopens.shown path hblob with hshown | hshown
        · rcases Option.isSome_iff_exists.mp hshown with ⟨content, hcontent⟩
          exact ⟨⟨path, content⟩,
            loadRevisionDocument_ok.mpr ⟨rfl, (shownDocument_eq_some.mp hcontent).2.2⟩⟩
        · simp [shownAsset, htext] at hshown
      · simp at hclass
    · split at hclass <;> simp at hclass
  -- and every asset
  have hloaded : ∀ path ∈ assetPaths, ∃ asset,
      loadRevisionAsset prepared.targetManifest object.tree path = .ok asset := by
    intro path hpath
    have hclass := ((hassets path).mp hpath).2
    rw [hpart] at hclass
    split at hclass
    · next hblob =>
      split at hclass
      · simp at hclass
      rename_i htext
      rcases hopens.shown path hblob with hshown | hshown
      · simp [shownDocument, htext] at hshown
      rcases Option.isSome_iff_exists.mp hshown with ⟨bytes, hbytes⟩
      exact ⟨some ⟨path, git.contentType path, bytes.length, bytes⟩,
        (loadRevisionAsset_ok hmanifest hblob).mpr
          ⟨rfl, (shownAsset_eq_some.mp hbytes).2.2, rfl, rfl⟩⟩
    · split at hclass <;> simp at hclass
  rcases exists_mapM_ok hdocuments with ⟨documents, hdocuments⟩
  rcases exists_mapM_ok hloaded with ⟨assets, hloaded⟩
  have hfound : findRevision repository revisionId = .ok object := by rw [findRevision, hfind]
  let candidate := buildTransferCandidate prepared.targetManifest changed anchorKind
  have hclean₁ : cleanTransferPaths candidate.documentPaths = .ok documentPaths := hclean₁
  have hclean₂ : cleanTransferPaths candidate.assetPaths = .ok assetPaths := hclean₂
  have hclean₃ : cleanTransferPaths candidate.deletedDocuments = .ok deletedDocuments := hclean₃
  have hclean₄ : cleanTransferPaths candidate.deletedAssets = .ok deletedAssets := hclean₄
  show ∃ transfer, materializeRevisionTransfer repository revisionId entryFilePath prepared candidate
    = .ok transfer
  unfold materializeRevisionTransfer
  rw [hfound, ok_bind, hclean₁, ok_bind, hdocuments, ok_bind, hclean₂, ok_bind, hloaded, ok_bind,
    hclean₃, ok_bind, hclean₄]
  exact ⟨_, rfl⟩

/-- The request for the full transfer. -/
def fullRequest : RevisionTransferRequest := ⟨none, false⟩

/-- The full transfer of a tree that can be opened holds all that the tree shows. -/
theorem revisionDocuments_full (git : GitLibrary) {repository : Repository} {revisionId : Oid}
    {object : CommitObject} (entryFilePath : Text) (live : Option RevisionPathSnapshot)
    (hfind : repository.find revisionId = some object) (hopens : Opens object.tree)
    (hhead : ∀ head ∈ repository.headCommit, Opens head.tree) :
    ∃ transfer, revisionDocuments git repository entryFilePath live revisionId fullRequest
        = .ok transfer
      ∧ Sends git object.tree (blobPaths object.tree) transfer := by
  rcases load_of_opens git hopens with ⟨manifest, hmanifest⟩
  rcases nodes_of_load hmanifest with ⟨nodes, hnodes⟩
  have hprepared : ∃ liveBaseContext, prepareRevisionTransfer git repository revisionId none
      = .ok ⟨manifest, nodes, [buildTransferCandidate manifest none .none], liveBaseContext⟩ := by
    unfold prepareRevisionTransfer
    rw [show findRevision repository revisionId = .ok object by rw [findRevision, hfind], ok_bind,
      hmanifest, ok_bind, hnodes, ok_bind]
    cases hcommit : repository.headCommit with
    | none => exact ⟨_, by cases repository.head <;> rfl⟩
    | some head =>
      rcases load_of_opens git (hhead head hcommit) with ⟨headManifest, hload⟩
      dsimp only
      rw [hload, ok_bind, ok_bind]
      refine ⟨some (headManifest, if repository.head = some revisionId then []
        else diffChangedPathsBetween head.tree object.tree), ?_⟩
      cases repository.head <;> simp
  rcases hprepared with ⟨liveBaseContext, hprepared⟩
  have hpaths : transferPaths manifest none = (blobPaths object.tree).dedup := paths_of_load hmanifest
  have hclean : ∀ path ∈ transferPaths manifest none, IsProjectPath path := by
    intro path hpath
    rw [hpaths, List.mem_dedup] at hpath
    exact isProjectPath_of_mem_blobPaths hpath
  let prepared : PreparedRevisionTransfer :=
    ⟨manifest, nodes, [buildTransferCandidate manifest none .none], liveBaseContext⟩
  rcases exists_materialize entryFilePath prepared .none hfind hmanifest hclean hopens with
    ⟨transfer, htransfer⟩
  have hsends := (sends_of_materialize hfind hmanifest hclean htransfer).1
  rw [hpaths] at hsends
  refine ⟨transfer, ?_, hsends.congr fun path => List.mem_dedup⟩
  unfold revisionDocuments
  rw [show fullRequest.currentRevisionId = none from rfl, hprepared, ok_bind]
  exact htransfer

/-- A commit of a document and an asset. -/
def sampleTree : Tree :=
  [(encodeUtf8 ['a', '/', 'm', '.', 't', 'y', 'p'], ⟨.regular, encodeUtf8 ['x']⟩),
    (encodeUtf8 ['b'], ⟨.regular, [0]⟩)]

def sampleGit : GitLibrary where
  stage _ worktree := worktree
  checkoutHead _ index worktree := (index, worktree)
  checkout _ tree _ := tree
  reset tree _ := tree
  mergeFile _ _ _ := none
  contentType _ := []

theorem revisionDocuments_full_of_sample :
    ∃ transfer, revisionDocuments sampleGit ⟨[⟨sampleTree, []⟩], some 0, [], []⟩ [] none 0
        fullRequest = .ok transfer
      ∧ Sends sampleGit sampleTree (blobPaths sampleTree) transfer := by
  have hopens : Opens sampleTree := by decide +kernel
  have hfind : Repository.find ⟨[⟨sampleTree, []⟩], some 0, [], []⟩ 0
      = some ⟨sampleTree, []⟩ := rfl
  refine revisionDocuments_full sampleGit [] none hfind hopens ?_
  rintro _ ⟨rfl⟩
  exact hopens

end Toss.Versioning
