import Toss.Versioning.Materialization

/-!
# A tree that mirrors the workspace

What it means that a tree holds exactly the documents and assets of a project, and which
ways between the two keep it.

* `Mirrors` — the relation, up to the order of the rows and what is no file;
* `mirrors_of_materialize` — a worktree that was written from a content mirrors it;
* `mirrors_of_prepareRepoImport` — what is imported from plain files is mirrored by them;
* `workspaceFiles_of_restore` — a content restored from its own files keeps them.
-/

namespace Toss.Versioning

open Toss.Foundation Toss.Workspace
open Toss.Processing (decodeUtf8)

/-! ## Files of a workspace and of a tree -/

/-- The documents and assets of a project as files. -/
def workspaceFiles (content : ProjectContent) : List (Text × Bytes) :=
  content.documents.map (fun document => (document.path, encodeUtf8 document.content))
    ++ content.assets.map fun asset => (asset.path, asset.bytes)

/-- The bytes of a regular file. -/
def TreeFile.file (entry : TreeFile) : Option Bytes :=
  if entry.mode.isFile then some entry.bytes else none

/-- The paths of a tree with their files. -/
def treeFiles (tree : Tree) : List (Bytes × Option Bytes) :=
  tree.map fun entry => (entry.1, entry.2.file)

/-- The paths of some files as a tree names them. -/
def encodedFiles (files : List (Text × Bytes)) : List (Bytes × Option Bytes) :=
  files.map fun file => (encodeUtf8 file.1, some file.2)

/-- No path is held twice by the documents and assets. -/
def HasDistinctPaths (content : ProjectContent) : Prop :=
  ((workspaceFiles content).map Prod.fst).Nodup

instance (content : ProjectContent) : Decidable (HasDistinctPaths content) :=
  inferInstanceAs (Decidable (List.Nodup _))

/-- The tree holds exactly the documents and assets: the same paths, the same bytes. -/
def Mirrors (tree : Tree) (content : ProjectContent) : Prop :=
  HasDistinctPaths content ∧
    SameEntries (treeFiles tree) (encodedFiles (workspaceFiles content))

instance (tree : Tree) (content : ProjectContent) : Decidable (Mirrors tree content) :=
  inferInstanceAs (Decidable (_ ∧ _))

theorem treeFiles_fileTree (files : List (Text × Bytes)) :
    treeFiles (fileTree files) = encodedFiles files := by
  simp [treeFiles, fileTree, encodedFiles, TreeFile.file, FileMode.isFile]

theorem sameEntries_treeFiles {tree tree' : Tree} (h : SameEntries tree tree') :
    SameEntries (treeFiles tree) (treeFiles tree') :=
  h.map Function.injective_id TreeFile.file

theorem encodeUtf8_injective' : Function.Injective encodeUtf8 :=
  fun _ _ h => encodeUtf8_injective h

theorem sameEntries_encodedFiles {files files' : List (Text × Bytes)}
    (hpaths : (files.map Prod.fst).Nodup) (h : files.Perm files') :
    SameEntries (encodedFiles files) (encodedFiles files') :=
  (SameEntries.of_perm hpaths h).map encodeUtf8_injective' some

namespace Mirrors

variable {tree tree' : Tree} {content content' : ProjectContent}

theorem congr_tree (h : Mirrors tree content) (htree : SameEntries tree tree') :
    Mirrors tree' content :=
  ⟨h.1, (sameEntries_treeFiles htree).symm.trans h.2⟩

theorem congr_content (h : Mirrors tree content)
    (hfiles : (workspaceFiles content).Perm (workspaceFiles content')) : Mirrors tree content' :=
  ⟨(hfiles.map Prod.fst).nodup_iff.mp h.1, h.2.trans (sameEntries_encodedFiles h.1 hfiles)⟩

end Mirrors

/-! ## Writing -/

/-- With distinct paths the merge map of a content is its files. -/
theorem contentFiles_perm {content : ProjectContent} (h : HasDistinctPaths content) :
    (contentFiles content).Perm (workspaceFiles content) := by
  have hpaths : ((content.assets.map fun asset =>
      (asset.path, MergeFileValue.binary asset.bytes asset.contentType))
        ++ content.documents.map fun document =>
      (document.path, MergeFileValue.text document.content)).map Prod.fst
      = content.assets.map WorkspaceAsset.path ++ content.documents.map WorkspaceDocument.path := by
    simp [Function.comp_def]
  have hnodup : (content.assets.map WorkspaceAsset.path
      ++ content.documents.map WorkspaceDocument.path).Nodup := by
    refine (List.perm_append_comm.nodup_iff).mpr ?_
    simpa [HasDistinctPaths, workspaceFiles, Function.comp_def] using h
  unfold contentFiles mergeFiles mergeMap
  rw [dedupKeys_eq_self (by rw [hpaths]; exact hnodup), List.map_append, List.map_map,
    List.map_map]
  exact List.perm_append_comm

/-- A worktree written from a content mirrors it, if no path is held twice. -/
theorem mirrors_of_materialize {content : ProjectContent} {tree : Tree}
    (hdistinct : HasDistinctPaths content)
    (htree : SameEntries tree (fileTree (contentFiles content))) : Mirrors tree content := by
  refine ⟨hdistinct, (sameEntries_treeFiles htree).trans ?_⟩
  rw [treeFiles_fileTree]
  have hperm := contentFiles_perm hdistinct
  exact sameEntries_encodedFiles ((hperm.map Prod.fst).nodup_iff.mpr hdistinct) hperm

theorem worktree_of_materialize {content : ProjectContent} {tree : Tree}
    (h : materialize content = some tree) : tree = fileTree (contentFiles content) := by
  unfold materialize at h
  dsimp only at h
  split at h
  · exact (Option.some.inj h).symm
  · simp at h

/-! ## Reading -/

/-- The row that an imported file becomes holds its path and its bytes. -/
theorem importedDocument_file {file : Text × Bytes} {document : WorkspaceDocument}
    (h : importedDocument file = some document) :
    (document.path, encodeUtf8 document.content) = file := by
  unfold importedDocument at h
  split at h
  · rcases Option.map_eq_some_iff.mp h with ⟨text, htext, rfl⟩
    rw [encodeUtf8_of_decodeUtf8 htext]
  · simp at h

/-- Every imported file becomes a document or an asset. -/
theorem imported_perm (git : GitLibrary) (files : List (Text × Bytes)) :
    ((files.filterMap importedDocument).map
        (fun document => (document.path, encodeUtf8 document.content))
      ++ (files.filterMap (importedAsset git)).map fun asset => (asset.path, asset.bytes)).Perm
      files := by
  induction files with
  | nil => exact List.Perm.nil
  | cons file files ih =>
    by_cases htext : (isDocumentTextPath file.1 && looksLikeText file.2) = true
    · have hdecoded : (decodeUtf8 file.2).isSome = true := by
        simp only [looksLikeText, Bool.and_eq_true] at htext
        exact htext.2.2
      rcases Option.isSome_iff_exists.mp hdecoded with ⟨text, hdecode⟩
      have hdocument : importedDocument file = some ⟨file.1, text⟩ := by
        simp [importedDocument, htext, hdecode]
      have hasset : importedAsset git file = none := by simp [importedAsset, htext]
      have hfile := importedDocument_file hdocument
      simp only [List.filterMap_cons, hdocument, hasset, List.map_cons, List.cons_append, hfile]
      exact ih.cons file
    · have hdocument : importedDocument file = none := by simp [importedDocument, htext]
      have hasset : importedAsset git file = some ⟨file.1, git.contentType file.1, file.2⟩ := by
        simp [importedAsset, htext]
      simp only [List.filterMap_cons, hdocument, hasset, List.map_cons]
      exact List.perm_middle.trans (ih.cons file)

variable {prepared : PreparedRepoImport} {projectType : ProjectType}
  {files : List (Text × Bytes)} {entryFilePath : Text} {git : GitLibrary}

/-- The files that an import accepts, with sanitized paths. -/
theorem prepareRepoImport_ok
    (h : prepareRepoImport git projectType entryFilePath files = .ok prepared) :
    ∃ clean : List (Text × Bytes),
      (files.insertionSort fun left right => pathLe left.1 right.1 = true).mapM
          (fun file => (sanitizeProjectPath file.1).map (·, file.2)) = some clean
        ∧ prepared.documents = clean.filterMap importedDocument
        ∧ prepared.assets = clean.filterMap (importedAsset git)
        ∧ prepared.directories
          = sortPaths (clean.flatMap fun file => parentDirectories file.1).dedup
        ∧ projectType.chooseEntryFilePath entryFilePath
          (prepared.documents.map WorkspaceDocument.path) = some prepared.entryFilePath := by
  unfold prepareRepoImport at h
  dsimp only at h
  split at h
  · simp at h
  next clean hclean =>
  refine ⟨clean, hclean, ?_⟩
  split at h
  · simp at h
  next chosen hchosen =>
  rw [← Except.ok.inj h]
  exact ⟨rfl, rfl, rfl, hchosen⟩

/-- Files whose paths are sanitized are accepted as they are. -/
theorem clean_of_prepareRepoImport (hpaths : ∀ file ∈ files, IsProjectPath file.1)
    (h : prepareRepoImport git projectType entryFilePath files = .ok prepared) :
    ∃ clean : List (Text × Bytes), clean.Perm files
      ∧ prepared.documents = clean.filterMap importedDocument
      ∧ prepared.assets = clean.filterMap (importedAsset git)
      ∧ prepared.directories
        = sortPaths (clean.flatMap fun file => parentDirectories file.1).dedup
      ∧ projectType.chooseEntryFilePath entryFilePath
        (prepared.documents.map WorkspaceDocument.path) = some prepared.entryFilePath := by
  rcases prepareRepoImport_ok h with ⟨clean, hclean, hrows⟩
  refine ⟨clean, ?_, hrows⟩
  have hsorted := List.perm_insertionSort
    (fun left right : Text × Bytes => pathLe left.1 right.1 = true) files
  have hmap : ∀ sorted : List (Text × Bytes), (∀ file ∈ sorted, IsProjectPath file.1) →
      sorted.mapM (fun file => (sanitizeProjectPath file.1).map (·, file.2)) = some sorted := by
    intro sorted hsorted
    induction sorted with
    | nil => rfl
    | cons file sorted ih =>
      have hfile : sanitizeProjectPath file.1 = some file.1 := hsorted file List.mem_cons_self
      simp [List.mapM_cons, hfile,
        ih fun other hother => hsorted other (List.mem_cons_of_mem _ hother)]
  rw [hmap _ fun file hfile => hpaths file (hsorted.mem_iff.mp hfile)] at hclean
  cases hclean
  exact hsorted

/-- Files whose paths are sanitized are imported with their bytes. -/
theorem workspaceFiles_of_prepareRepoImport (hpaths : ∀ file ∈ files, IsProjectPath file.1)
    (h : prepareRepoImport git projectType entryFilePath files = .ok prepared) :
    (workspaceFiles prepared.content).Perm files := by
  rcases clean_of_prepareRepoImport hpaths h with ⟨clean, hclean, hdocuments, hassets, -, -⟩
  have hfiles : workspaceFiles prepared.content
      = (clean.filterMap importedDocument).map
          (fun document => (document.path, encodeUtf8 document.content))
        ++ (clean.filterMap (importedAsset git)).map fun asset => (asset.path, asset.bytes) := by
    simp [workspaceFiles, PreparedRepoImport.content, hdocuments, hassets]
  rw [hfiles]
  exact (imported_perm git clean).trans hclean

/-- Regular files under sanitized paths. -/
def IsPlain (tree : Tree) : Prop :=
  ∀ entry ∈ tree,
    entry.2.mode.isFile = true ∧ (decodeUtf8 entry.1).any (fun path => IsProjectPath path) = true

instance (tree : Tree) : Decidable (IsPlain tree) :=
  inferInstanceAs (Decidable (∀ entry ∈ tree, _))

theorem isPlain_entry {tree : Tree} (h : IsPlain tree) {entry : Bytes × TreeFile}
    (hentry : entry ∈ tree) :
    ∃ path, IsProjectPath path ∧ entry.1 = encodeUtf8 path ∧ entry.2.file = some entry.2.bytes := by
  rcases h entry hentry with ⟨hmode, hpath⟩
  rcases (Option.any_eq_true _ _).mp hpath with ⟨path, hdecode, hproject⟩
  refine ⟨path, by simpa using hproject, encodeUtf8_of_decodeUtf8 hdecode |>.symm, ?_⟩
  simp [TreeFile.file, hmode]

/-- Plain files are collected under their own paths. -/
theorem collectRepositoryFiles_of_isPlain {worktree : Tree} (h : IsPlain worktree) :
    (∀ file ∈ collectRepositoryFiles worktree, IsProjectPath file.1)
      ∧ SameEntries (encodedFiles (collectRepositoryFiles worktree)) (treeFiles worktree) := by
  have hfilter : worktree.filter (fun entry => entry.2.mode.isFile) = worktree := by
    rw [List.filter_eq_self]
    exact fun entry hentry => (h entry hentry).1
  unfold collectRepositoryFiles
  rw [hfilter]
  constructor
  · rintro ⟨path, bytes⟩ hfile
    rcases List.mem_map.mp (mem_of_lookup (mem_dedupKeys.mp hfile)) with ⟨entry, hentry, heq⟩
    rcases isPlain_entry h hentry with ⟨path', hproject, hpath, -⟩
    rw [hpath, fromUtf8Lossy_encodeUtf8, Prod.mk.injEq] at heq
    rwa [← heq.1]
  · have hnames : treeFiles worktree
        = encodedFiles (worktree.map fun entry => (fromUtf8Lossy entry.1, entry.2.bytes)) := by
      simp only [treeFiles, encodedFiles, List.map_map]
      refine List.map_congr_left ?_
      intro entry hentry
      rcases isPlain_entry h hentry with ⟨path, -, hpath, hfile⟩
      simp [hpath, hfile]
    rw [hnames]
    refine SameEntries.map encodeUtf8_injective' some ?_
    exact lookup_dedupKeys _

/-- What is imported from a plain worktree is mirrored by its files. -/
theorem mirrors_of_prepareRepoImport {worktree tree : Tree}
    (hplain : IsPlain worktree) (htree : SameEntries worktree tree)
    (h : prepareRepoImport git projectType entryFilePath (collectRepositoryFiles worktree)
      = .ok prepared) : Mirrors tree prepared.content := by
  rcases collectRepositoryFiles_of_isPlain hplain with ⟨hpaths, hfiles⟩
  have hperm := workspaceFiles_of_prepareRepoImport hpaths h
  have hkeys : ((collectRepositoryFiles worktree).map Prod.fst).Nodup := nodup_dedupKeys _
  refine ⟨(hperm.map Prod.fst).nodup_iff.mpr hkeys, ?_⟩
  exact (sameEntries_treeFiles htree).symm.trans
    (hfiles.symm.trans (sameEntries_encodedFiles hkeys hperm.symm))

/-- A content that is imported from its own files keeps them. -/
theorem workspaceFiles_of_restore {content : ProjectContent}
    (hdistinct : HasDistinctPaths content)
    (hpaths : ∀ file ∈ workspaceFiles content, IsProjectPath file.1)
    (hfiles : materializeMergeMapToDir (mergeMap content) = some files)
    (h : prepareRepoImport git projectType entryFilePath files = .ok prepared) :
    (workspaceFiles prepared.content).Perm (workspaceFiles content) := by
  have hcontent : files = contentFiles content := by
    unfold materializeMergeMapToDir at hfiles
    split at hfiles
    · exact (Option.some.inj hfiles).symm
    · simp at hfiles
  have hperm := contentFiles_perm hdistinct
  rw [hcontent] at h
  refine (workspaceFiles_of_prepareRepoImport ?_ h).trans hperm
  exact fun file hfile => hpaths file (hperm.mem_iff.mp hfile)

end Toss.Versioning
