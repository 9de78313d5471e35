import Toss.Foundation.Run
import Toss.Workspace.DocumentPaths
import Toss.Workspace.ProjectFiles

/-!
# The files of a project on a file system

Documents, assets and directories are rows of three tables, and an index keeps a path unique in
each of them alone. A file system holds a path once and nothing below a file.

* `ProjectFiles.Layable` — the tree can be laid out on a file system;
* `FileAction.Fits` — what an operation adds stands beside what it leaves;
* `ProjectFiles.execute_ordinary` — the tree holds what an operation left and what it added;
* `layable_of_fits` — a run of operations that fit, from an empty project.
-/

namespace Toss.Workspace

open Toss.Foundation

inductive EntryKind
  | document
  | asset
  | directory
deriving DecidableEq, Repr

structure FileEntry where
  kind : EntryKind
  path : Text
deriving DecidableEq, Repr

/-- A table of the project has the path. -/
def ProjectFiles.Holds (files : ProjectFiles) : FileEntry → Prop
  | ⟨.document, path⟩ => ∃ row ∈ files.documents, row.projectId = files.project.id ∧ row.path = path
  | ⟨.asset, path⟩ => ∃ row ∈ files.assets, row.path = path
  | ⟨.directory, path⟩ => path ∈ files.directories

/-- Where a document or an asset is, and below it, there is nothing else. -/
def FileEntry.Spares (entry other : FileEntry) : Prop :=
  entry.kind ≠ .directory → segments entry.path <+: segments other.path → other = entry

def ProjectFiles.Layable (files : ProjectFiles) : Prop :=
  ∀ entry other, files.Holds entry → files.Holds other → entry.Spares other

/-! ## What the operations add -/

def PreparedProjectFile.entryKind : PreparedProjectFile → EntryKind
  | .directory => .directory
  | .text _ => .document
  | .asset _ => .asset

/-- The kind that is deleted at the path of a created file. -/
def PreparedProjectFile.replacedKind : PreparedProjectFile → Option EntryKind
  | .directory => none
  | .text _ => some .asset
  | .asset _ => some .document

def FileAction.Adds (files : ProjectFiles) : FileAction → FileEntry → Prop
  | .createDocument path _, entry | .upsertDocumentByPath path _ _, entry =>
    entry = ⟨.document, path⟩
  | .createProjectFile path kind content object, entry =>
    entry = ⟨(prepareProjectFile kind path content object).entryKind, path⟩
  | .uploadProjectAsset path _, entry => entry = ⟨.asset, path⟩
  | .moveProjectFile fromPath toPath, entry =>
    ∃ old, files.Holds old ∧ pathInSubtree fromPath old.path = true
      ∧ entry = ⟨old.kind, pathMovedTo fromPath toPath old.path⟩
  | _, _ => False

/-- What an operation that adds takes away. -/
def FileAction.Clears : FileAction → FileEntry → Prop
  | .createProjectFile path kind content object, entry =>
    entry.path = path ∧ (prepareProjectFile kind path content object).replacedKind = some entry.kind
  | .moveProjectFile fromPath _, entry => pathInSubtree fromPath entry.path = true
  | _, _ => False

/-- What the operation adds and what it leaves spare each other. -/
def FileAction.Fits (files : ProjectFiles) (action : FileAction) : Prop :=
  ∀ entry other, action.Adds files entry → files.Holds other → ¬ action.Clears other →
    entry.Spares other ∧ other.Spares entry

/-- Any operation but a replacement of the whole content. -/
def FileStep (files : ProjectFiles) (action : FileAction) (next : ProjectFiles) : Prop :=
  ¬ action.Replaces ∧ files.execute action = .ok next

variable {files next : ProjectFiles} {action : FileAction} {entry other : FileEntry} {path : Text}

/-! ## Statements -/

/-- A writing statement changes a row or leaves it. -/
theorem ProjectFiles.mem_writeDocuments {statement : DocumentWrite} {changed : List DocumentRow}
    (h : files.writeDocuments statement = .ok (next, changed)) {row : DocumentRow}
    (hrow : row ∈ next.documents) :
    row ∈ changed ∨ row ∈ files.documents ∧ ∀ new ∈ changed, new.id ≠ row.id := by
  rcases writeDocuments_ok h with ⟨-, rfl, -⟩
  simpa [documentsWith, or_comm] using hrow

theorem ProjectFiles.holds_of_subset (hentry : next.Holds entry)
    (hproject : next.project.id = files.project.id)
    (hdocuments : ∀ row ∈ next.documents, row ∈ files.documents)
    (hassets : ∀ row ∈ next.assets, row ∈ files.assets)
    (hdirectories : ∀ path ∈ next.directories, path ∈ files.directories) : files.Holds entry := by
  rcases entry with ⟨_ | _ | _, place⟩
  · rcases hentry with ⟨row, hrow, hrowProject, hplace⟩
    exact ⟨row, hdocuments row hrow, hrowProject.trans hproject, hplace⟩
  · rcases hentry with ⟨row, hrow, hplace⟩
    exact ⟨row, hassets row hrow, hplace⟩
  · exact hdirectories place hentry

/-- A writing statement puts documents where they were or where it adds them. -/
theorem ProjectFiles.holds_writeDocuments {statement : DocumentWrite} {changed : List DocumentRow}
    (h : files.writeDocuments statement = .ok (next, changed)) {p : FileEntry → Prop}
    (hrows : ∀ row ∈ (files.changedDocuments statement).1, p ⟨.document, row.path⟩)
    (hentry : next.Holds entry) : files.Holds entry ∨ p entry := by
  rcases writeDocuments_ok h with ⟨hchanged, hnext, -⟩
  rcases entry with ⟨_ | _ | _, place⟩
  · rcases hentry with ⟨row, hrow, hproject, rfl⟩
    rw [writeDocuments_project h] at hproject
    rcases mem_writeDocuments h hrow with hnew | ⟨hold, -⟩
    · exact .inr (hrows row (hchanged ▸ hnew))
    · exact .inl ⟨row, hold, hproject, rfl⟩
  all_goals
    subst hnext
    exact .inl hentry

theorem DocumentWrite.upserted_path (id : Uuid) (content : Text) (projectId : Uuid)
    (drawn number : Int) (rows : List DocumentRow) :
    ∀ row ∈ ((DocumentWrite.upsertByPath id path content).changed projectId drawn number rows).1,
      row.path = path := by
  intro row hrow
  simp only [DocumentWrite.changed] at hrow
  split at hrow
  · rw [List.mem_singleton.mp hrow]
    rfl
  rcases mem_numbered hrow with ⟨old, hold, number, rfl⟩
  simp only [List.mem_filter, decide_eq_true_eq] at hold
  exact hold.2.2

theorem ProjectFiles.holds_upsertAsset {row : ProjectAssetRow}
    (h : files.upsertAsset row = .ok next) (hentry : next.Holds entry) :
    files.Holds entry ∨ entry = ⟨.asset, row.path⟩ := by
  rcases upsertAsset_ok h with ⟨hnext, hassets⟩
  rw [hnext] at hentry
  rcases entry with ⟨_ | _ | _, place⟩
  · exact .inl hentry
  · rcases hentry with ⟨asset, hasset, rfl⟩
    rcases hassets asset hasset with hold | hpath
    · exact .inl ⟨asset, hold, rfl⟩
    · exact .inr (by rw [hpath])
  · exact .inl hentry

/-- Every row that an update numbers has a new version. -/
theorem exists_mem_numbered (set : Int → DocumentRow → DocumentRow)
    (hset : ∀ number row, (set number row).id = row.id) (number : Int) {rows : List DocumentRow}
    {row : DocumentRow} (h : row ∈ rows) :
    ∃ new ∈ (numbered set number rows).1, new.id = row.id := by
  have hids : (numbered set number rows).1.map DocumentRow.id = rows.map DocumentRow.id :=
    map_updateDrawing hset number rows
  have hid := List.mem_map_of_mem (f := DocumentRow.id) h
  rw [← hids] at hid
  exact List.mem_map.mp hid

/-- Of a moved tree an entry is in its new place, or outside. -/
theorem ProjectFiles.holds_moveSubtree {fromPath toPath : Text} {changed : Bool}
    (h : files.moveSubtree fromPath toPath = .ok (next, changed)) (hentry : next.Holds entry) :
    (files.Holds entry ∧ ¬ pathInSubtree fromPath entry.path = true)
      ∨ (FileAction.moveProjectFile fromPath toPath).Adds files entry := by
  have hproject := moveSubtree_project h
  -- the rows that one `case` expression moves or leaves
  have hplaced : ∀ {kind old path}, files.Holds ⟨kind, old⟩ →
      (if pathInSubtree fromPath old then pathMovedTo fromPath toPath old else old) = path →
      (files.Holds ⟨kind, path⟩ ∧ ¬ pathInSubtree fromPath path = true)
        ∨ (FileAction.moveProjectFile fromPath toPath).Adds files ⟨kind, path⟩ := by
    intro kind old path hold hpath
    split at hpath
    · next hin => exact .inr ⟨⟨kind, old⟩, hold, hin, by rw [hpath]⟩
    · next hout => exact .inl (hpath ▸ ⟨hold, hout⟩)
  unfold moveSubtree at h
  rcases bind_eq_ok.mp h with ⟨⟨written, documents⟩, hwrite, h⟩
  dsimp only at h
  split at h
  · cases h
  cases h
  rcases entry with ⟨_ | _ | _, place⟩
  · rcases hentry with ⟨row, hrow, hrowProject, rfl⟩
    rw [hproject] at hrowProject
    rcases writeDocuments_ok hwrite with ⟨hchanged, -⟩
    rcases mem_writeDocuments hwrite hrow with hnew | ⟨hold, hother⟩
    · rw [hchanged] at hnew
      rcases mem_numbered hnew with ⟨old, hold, number, rfl⟩
      simp only [List.mem_filter, decide_eq_true_eq] at hold
      exact .inr ⟨⟨.document, old.path⟩, ⟨old, hold.1, hold.2.1, rfl⟩, hold.2.2, rfl⟩
    · refine .inl ⟨⟨row, hold, hrowProject, rfl⟩, fun hin => ?_⟩
      -- in the subtree the row would have been written again
      have hmem : row ∈ files.documents.filter fun row =>
          row.projectId = files.project.id ∧ pathInSubtree fromPath row.path := by
        simp [hold, hrowProject, hin]
      rcases exists_mem_numbered (.moved fromPath toPath) (fun _ _ => rfl) files.nextChangeSequence
        hmem with ⟨new, hnew, hid⟩
      exact hother new (hchanged ▸ hnew) hid
  · rcases hentry with ⟨row, hrow, rfl⟩
    rcases List.mem_map.mp hrow with ⟨old, hold, rfl⟩
    exact @hplaced .asset _ _ ⟨old, hold, rfl⟩ rfl
  · rcases List.mem_map.mp hentry with ⟨old, hold, hpath⟩
    exact @hplaced .directory _ _ hold hpath

/-! ## Runs -/

/-- A file is created over what its kind replaces. -/
theorem ProjectFiles.createProjectFile_ordinary {kind : ProjectFileKind} {content : Text}
    {object : StoredObject}
    (h : files.execute (.createProjectFile path kind content object) = .ok next) :
    next.project.contentEpoch = files.project.contentEpoch ∧ ∀ entry, next.Holds entry →
      (files.Holds entry ∧ ¬ (FileAction.createProjectFile path kind content object).Clears entry)
        ∨ (FileAction.createProjectFile path kind content object).Adds files entry := by
  unfold execute Workspace.createProjectFile at h
  unfold FileAction.Clears FileAction.Adds
  dsimp only at h ⊢
  cases hprepared : prepareProjectFile kind path content object with
  | directory =>
    -- a directory replaces nothing
    rw [hprepared] at h
    unfold createPrepared at h
    dsimp only at h
    have hkept : ∀ entry : FileEntry, ¬ (entry.path = path
        ∧ PreparedProjectFile.directory.replacedKind = some entry.kind) := fun _ hclears => by
      cases hclears.2
    split at h
    · cases h
      exact ⟨rfl, fun entry hentry => .inl ⟨hentry, hkept entry⟩⟩
    split at h
    · cases h
      refine ⟨rfl, ?_⟩
      rintro ⟨_ | _ | _, place⟩ hentry
      · exact .inl ⟨hentry, hkept _⟩
      · exact .inl ⟨hentry, hkept _⟩
      rcases List.mem_append.mp hentry with hold | hnew
      · exact .inl ⟨hold, hkept _⟩
      · rw [List.mem_singleton.mp hnew]
        exact .inr rfl
    · cases h
  | text content =>
    -- a text file replaces an asset
    rw [hprepared] at h
    rcases bind_eq_ok.mp h with ⟨⟨written, changed⟩, hwrite, h⟩
    cases h
    have hepoch := congrArg ProjectRow.contentEpoch (writeDocuments_project hwrite)
    refine ⟨hepoch, fun entry hentry => ?_⟩
    have hwritten : written.Holds entry := holds_of_subset hentry rfl (fun _ => id)
      (fun _ => List.mem_of_mem_filter) fun _ => id
    refine (holds_writeDocuments (p := (· = ⟨.document, path⟩)) hwrite (fun row hrow => ?_)
      hwritten).imp_left fun hold => ⟨hold, ?_⟩
    · rw [DocumentWrite.upserted_path _ _ _ _ _ _ row hrow]
    · rcases entry with ⟨kind, place⟩
      rintro ⟨rfl, hkind⟩
      cases hkind
      rcases hentry with ⟨row, hrow, hplace⟩
      exact of_decide_eq_true (List.mem_filter.mp hrow).2 hplace
  | asset object =>
    -- an asset replaces a document
    rw [hprepared] at h
    rcases bind_eq_ok.mp h with ⟨written, hwrite, h⟩
    cases h
    have hepoch := congrArg ProjectRow.contentEpoch (upsertAsset_project hwrite)
    refine ⟨hepoch, fun entry hentry => ?_⟩
    have hwritten : written.Holds entry := holds_of_subset hentry rfl
      (fun _ => List.mem_of_mem_filter) (fun _ => id) fun _ => id
    refine (holds_upsertAsset hwrite hwritten).imp_left fun hold => ⟨hold, ?_⟩
    rcases entry with ⟨kind, place⟩
    rintro ⟨rfl, hkind⟩
    cases hkind
    rcases hentry with ⟨row, hrow, hproject, hplace⟩
    have hproject : row.projectId = written.project.id := hproject
    have hkept := (List.mem_filter.mp hrow).2
    simp [DocumentDelete.removes, hproject, hplace] at hkept

/-- An operation other than a replacement stays in the content epoch, and the tree then holds
what the operation left and what it added. -/
theorem ProjectFiles.execute_ordinary (h : files.execute action = .ok next)
    (hordinary : ¬ action.Replaces) :
    next.project.contentEpoch = files.project.contentEpoch ∧ ∀ entry, next.Holds entry →
      (files.Holds entry ∧ ¬ action.Clears entry) ∨ action.Adds files entry := by
  cases action with
  | createDocument path content =>
    rcases bind_eq_ok.mp h with ⟨⟨written, changed⟩, hwrite, h⟩
    cases h
    -- the row that is written is the new document's
    have hepoch := congrArg ProjectRow.contentEpoch (writeDocuments_project hwrite)
    refine ⟨hepoch, fun entry hentry => ?_⟩
    refine (holds_writeDocuments hwrite (fun row hrow => ?_) hentry).imp_left fun hold => ⟨hold, id⟩
    rw [List.mem_singleton.mp hrow]
    rfl
  | upsertDocumentByPath path content expectedContentEpoch =>
    unfold execute Workspace.upsertDocumentByPath at h
    dsimp only at h
    split at h
    · rcases bind_eq_ok.mp h with ⟨⟨written, changed⟩, hwrite, h⟩
      cases h
      -- the row that is written is the one of the path
      have hepoch := congrArg ProjectRow.contentEpoch (writeDocuments_project hwrite)
      refine ⟨hepoch, fun entry hentry => ?_⟩
      refine (holds_writeDocuments hwrite (fun row hrow => ?_) hentry).imp_left
        fun hold => ⟨hold, id⟩
      rw [DocumentWrite.upserted_path _ _ _ _ _ _ row hrow]
      rfl
    · cases h
  | updateDocument documentId expectedContentEpoch pathRevision collaborationRevision content =>
    unfold execute Workspace.updateDocument at h
    dsimp only at h
    split at h
    · rcases bind_eq_ok.mp h with ⟨⟨written, changed⟩, hwrite, h⟩
      dsimp only at h
      split at h
      · cases h
      cases h
      have hepoch := congrArg ProjectRow.contentEpoch (writeDocuments_project hwrite)
      refine ⟨hepoch, fun entry hentry => .inl ⟨?_, id⟩⟩
      -- an edited document is where it was
      refine or_self_iff.mp (holds_writeDocuments hwrite (fun row hrow => ?_) hentry)
      rcases mem_numbered hrow with ⟨old, hold, number, rfl⟩
      simp only [List.mem_filter, decide_eq_true_eq] at hold
      exact ⟨old, hold.1, hold.2.1, rfl⟩
    · cases h
  | deleteDocument documentId =>
    unfold execute Workspace.deleteDocument at h
    dsimp only at h
    split at h
    · cases h
    split at h
    · cases h
    cases h
    -- deletions leave rows out
    exact ⟨rfl, fun entry hentry => .inl ⟨holds_of_subset hentry rfl
      (fun _ => List.mem_of_mem_filter) (fun _ => id) fun _ => id, id⟩⟩
  | createProjectFile path kind content object => exact createProjectFile_ordinary h
  | moveProjectFile fromPath toPath =>
    unfold execute Workspace.moveProjectFile at h
    dsimp only at h
    split at h
    · cases h
    rcases bind_eq_ok.mp h with ⟨⟨moved, changed⟩, hmove, h⟩
    -- the entry file moves along, and no row of the tree with it
    have hmoved : next.project.contentEpoch = moved.project.contentEpoch
        ∧ ∀ entry, next.Holds entry → moved.Holds entry := by
      dsimp only at h
      split at h
      · cases h
        cases movePathWithSubtree files.entryPoint fromPath toPath with
        | none | some place => exact ⟨rfl, fun _ hentry => hentry⟩
      · cases h
        exact ⟨rfl, fun _ hentry => hentry⟩
    exact ⟨hmoved.1.trans (congrArg _ (moveSubtree_project hmove)),
      fun entry hentry => holds_moveSubtree hmove (hmoved.2 entry hentry)⟩
  | deleteProjectFile path =>
    unfold execute Workspace.deleteProjectFile at h
    dsimp only at h
    split at h
    · cases h
    cases h
    have hdeleted : ∀ entry, (files.deleteSubtree path).1.Holds entry → files.Holds entry :=
      fun entry hentry => holds_of_subset hentry rfl (fun _ => List.mem_of_mem_filter)
        (fun _ => List.mem_of_mem_filter) fun _ => List.mem_of_mem_filter
    split
    · exact ⟨rfl, fun entry hentry => .inl ⟨hdeleted entry hentry, id⟩⟩
    · exact ⟨rfl, fun entry hentry => .inl ⟨hdeleted entry hentry, id⟩⟩
  | uploadProjectAsset path object =>
    rcases bind_eq_ok.mp h with ⟨written, hwrite, h⟩
    cases h
    have hepoch := congrArg ProjectRow.contentEpoch (upsertAsset_project hwrite)
    exact ⟨hepoch, fun entry hentry =>
      (holds_upsertAsset hwrite hentry).imp_left fun hold => ⟨hold, id⟩⟩
  | deleteProjectAsset assetId =>
    unfold execute Workspace.deleteProjectAsset at h
    dsimp only at h
    split at h
    · cases h
      exact ⟨rfl, fun entry hentry => .inl ⟨holds_of_subset hentry rfl (fun _ => id)
        (fun _ => List.mem_of_mem_filter) fun _ => id, id⟩⟩
    · cases h
  | changeProjectSetting change =>
    unfold execute Workspace.changeProjectSetting at h
    cases change with
    | entryFilePath path =>
      dsimp only at h
      split at h
      · cases h
      split at h
      · cases h
      · cases h
        exact ⟨rfl, fun entry hentry => .inl ⟨hentry, id⟩⟩
    | latexEngine engine =>
      dsimp only at h
      split at h
      · cases h
      · cases h
        exact ⟨rfl, fun entry hentry => .inl ⟨hentry, id⟩⟩
  | getOrCreateProjectSettings =>
    cases h
    exact ⟨rfl, fun entry hentry => .inl ⟨hentry, id⟩⟩
  | replaceContent content => exact absurd trivial hordinary

/-- What one operation adds was apart before. -/
theorem FileAction.Adds.spares (hlayable : files.Layable) (hentry : action.Adds files entry)
    (hother : action.Adds files other) : entry.Spares other := by
  cases action with
  | moveProjectFile fromPath toPath =>
    rcases hentry with ⟨old, hold, hin, rfl⟩
    rcases hother with ⟨old', hold', hin', rfl⟩
    intro hkind hprefix
    have hroot := pathInSubtree_iff_segments.mp hin
    have hroot' := pathInSubtree_iff_segments.mp hin'
    rw [segments_pathMovedTo toPath hin, segments_pathMovedTo toPath hin',
      List.prefix_append_right_inj] at hprefix
    -- below the old root they extended each other as they do below the new
    have hbefore : segments old.path <+: segments old'.path := by
      rw [← List.take_append_drop (segments fromPath).length (segments old.path),
        ← List.take_append_drop (segments fromPath).length (segments old'.path),
        ← List.prefix_iff_eq_take.mp hroot, ← List.prefix_iff_eq_take.mp hroot',
        List.prefix_append_right_inj]
      exact hprefix
    rw [hlayable old old' hold hold' hkind hbefore]
  | createDocument | upsertDocumentByPath | createProjectFile | uploadProjectAsset =>
    exact fun _ _ => hother.trans hentry.symm
  | updateDocument | deleteDocument | deleteProjectFile | deleteProjectAsset | changeProjectSetting
  | getOrCreateProjectSettings | replaceContent => exact hentry.elim

theorem FileStep.layable (hlayable : files.Layable) (hfits : action.Fits files)
    (hstep : FileStep files action next) : next.Layable := by
  intro entry other hentry hother
  rcases (files.execute_ordinary hstep.2 hstep.1).2 entry hentry with ⟨hold, hkept⟩ | hadd
  · rcases (files.execute_ordinary hstep.2 hstep.1).2 other hother with ⟨hold', -⟩ | hadd'
    · exact hlayable entry other hold hold'
    · exact (hfits other entry hadd' hold hkept).2
  · rcases (files.execute_ordinary hstep.2 hstep.1).2 other hother with ⟨hold, hkept⟩ | hadd'
    · exact (hfits entry other hadd hold hkept).1
    · exact hadd.spares hlayable hadd'

theorem ProjectFiles.not_holds_emptied (files : ProjectFiles) : ¬ files.emptied.Holds entry := by
  rcases entry with ⟨_ | _ | _, place⟩ <;> simp [emptied, Holds]

/-- Operations that fit build a tree that a file system can hold. -/
theorem layable_of_fits {actions : List FileAction}
    (hrun : Run (Guarded (fun files action => action.Fits files) FileStep) files.emptied actions
      next) : next.Layable :=
  hrun.invariant_of_guard (fun _ _ _ hlayable hfits hstep => hstep.layable hlayable hfits)
    fun _ _ hentry => absurd hentry files.not_holds_emptied

def emptyProject : ProjectFiles where
  project := ⟨0, 1, 1, 0⟩
  projectType := .typst
  settings := none
  documents := []
  directories := []
  assets := []
  nextChangeSequence := 1
  nextId := 1

def bareObject : StoredObject := ⟨[], [], 0, none⟩

/-- A directory, and a document in it. -/
theorem layable_directory : ∃ next : ProjectFiles,
    Run (Guarded (fun files action => action.Fits files) FileStep) emptyProject.emptied
        [.createProjectFile ['a'] .directory [] bareObject, .createDocument ['a', '/', 'b'] []] next
      ∧ next.Layable := by
  refine Exists.imp (fun next hrun => ⟨hrun, layable_of_fits hrun⟩)
    ⟨_, .cons ⟨?_, not_false, rfl⟩ (.cons ⟨?_, not_false, rfl⟩ (.nil _))⟩
  · exact fun _ _ _ hother => absurd hother (ProjectFiles.not_holds_emptied _)
  · rintro _ ⟨_ | _ | _, place⟩ rfl hother -
    · rcases hother with ⟨row, hrow, -⟩
      cases hrow
    · rcases hother with ⟨row, hrow, -⟩
      cases hrow
    · rw [List.mem_singleton.mp hother]
      exact ⟨fun _ hprefix => absurd hprefix (by decide), fun hkind => absurd rfl hkind⟩

/-- An upload looks at the assets alone. -/
theorem upload_over_document : IsProjectPath ['a'] ∧ ∃ next : ProjectFiles,
    Run FileStep emptyProject.emptied
        [.createDocument ['a'] [], .uploadProjectAsset ['a'] bareObject] next
      ∧ ¬ next.Layable := by
  refine ⟨by decide, _, .cons ⟨not_false, rfl⟩ (.cons ⟨not_false, rfl⟩ (.nil _)), ?_⟩
  intro hlayable
  have hsame := hlayable ⟨.document, ['a']⟩ ⟨.asset, ['a']⟩ ⟨_, List.mem_cons_self, rfl, rfl⟩
    ⟨_, List.mem_cons_self, rfl⟩ (by decide) List.prefix_rfl
  cases hsame

end Toss.Workspace
