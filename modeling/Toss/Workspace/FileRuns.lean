import Toss.Workspace.FileNamespace

/-!
# Runs of file operations

What any operations on the files of a project keep, in the order in which they commit.

* `ProjectFiles.Identified` — a document has an identifier of its own;
* `ProjectFiles.Compiles` — the entry file is a document that the project type accepts;
* `ProjectFiles.Versioned` — an operation has a new version, or a snapshot cannot tell it;
* `entry_stays_valid`, `workspace_version_identifies_content` — over whole runs.
-/

namespace Toss.Workspace

open Toss.Foundation

variable {files next : ProjectFiles} {action : FileAction}

/-! ## Documents -/

/-- Where a writing statement leaves a document. -/
def DocumentWrite.place : DocumentWrite → Text → Text
  | .moveSubtree fromPath toPath, path =>
    if pathInSubtree fromPath path then pathMovedTo fromPath toPath path else path
  | _, path => path

structure ProjectFiles.Identified (files : ProjectFiles) : Prop where
  ids : (files.documents.map DocumentRow.id).Nodup
  drawn : ∀ row ∈ files.documents, row.id < files.nextId
  project : ∀ row ∈ files.documents, row.projectId = files.project.id

variable {statement : DocumentWrite} {rows : List DocumentRow}

/-- A changed row is a new version of one that was there, or the row that is inserted. -/
theorem DocumentWrite.changed_cases {projectId : Uuid} {drawn number : Int} {new : DocumentRow}
    (h : new ∈ (statement.changed projectId drawn number rows).1) :
    (∃ old ∈ rows, new.id = old.id ∧ new.path = statement.place old.path)
      ∨ Feed.newId statement = some new.id := by
  cases statement with
  | insert id path content =>
    rw [List.mem_singleton.mp h]
    exact .inr rfl
  | upsertByPath id path content =>
    simp only [DocumentWrite.changed] at h
    split at h
    · rw [List.mem_singleton.mp h]
      exact .inr rfl
    · obtain ⟨old, hold, number, rfl⟩ := mem_numbered h
      exact .inl ⟨old, List.mem_of_mem_filter hold, rfl, rfl⟩
  | updateContent documentId pathRevision collaborationRevision content =>
    obtain ⟨old, hold, number, rfl⟩ := mem_numbered h
    exact .inl ⟨old, List.mem_of_mem_filter hold, rfl, rfl⟩
  | updateProjectedContent documentId collaborationRevision content =>
    obtain ⟨old, hold, number, rfl⟩ := mem_numbered h
    exact .inl ⟨old, List.mem_of_mem_filter hold, rfl, rfl⟩
  | moveSubtree fromPath toPath =>
    obtain ⟨old, hold, number, rfl⟩ := mem_numbered h
    simp only [List.mem_filter, decide_eq_true_eq] at hold
    refine .inl ⟨old, hold.1, rfl, ?_⟩
    simp [DocumentWrite.place, hold.2.2, DocumentRow.moved]

/-- A document that a statement does not change stays in place. -/
theorem DocumentWrite.place_of_not_changed {projectId : Uuid} {drawn number : Int}
    {row : DocumentRow} (hrow : row ∈ rows) (hproject : row.projectId = projectId)
    (hkept : ∀ new ∈ (statement.changed projectId drawn number rows).1, new.id ≠ row.id) :
    statement.place row.path = row.path := by
  cases statement with
  | moveSubtree fromPath toPath =>
    by_cases hin : pathInSubtree fromPath row.path = true
    · have hmem : row ∈ rows.filter fun row =>
          row.projectId = projectId ∧ pathInSubtree fromPath row.path := by
        simp [hrow, hproject, hin]
      obtain ⟨new, hnew, hid⟩ :=
        exists_mem_numbered (.moved fromPath toPath) (fun _ _ => rfl) number hmem
      exact absurd hid (hkept new hnew)
    · simp [DocumentWrite.place, hin]
  | insert | upsertByPath | updateContent | updateProjectedContent => rfl

/-- What `lock_project_content_snapshot` reads of the content. -/
structure ContentSnapshot where
  entryFilePath : Text
  latexEngine : Option LatexEngine
  documents : List (Text × Text)
  directories : List Text
  /-- Paths, object keys, content types and bytes. -/
  assets : List (Text × Text × Text × Option Bytes)
deriving DecidableEq, Repr

namespace ProjectFiles

variable {changed : List DocumentRow}

/-- A writing statement leaves every document, in the place that it gives it. -/
theorem Identified.write (h : files.Identified)
    (hwrite : files.writeDocuments statement = .ok (next, changed))
    (hnew : ∀ id ∈ Feed.newId statement, id < files.nextId ∧ ∀ row ∈ files.documents, row.id ≠ id) :
    next.Identified ∧ next.nextId = files.nextId ∧ next.settings = files.settings
      ∧ next.projectType = files.projectType
      ∧ ∀ row ∈ files.documents, ∃ row' ∈ next.documents,
        row'.path = statement.place row.path := by
  obtain ⟨hchanged, hnext, -, -⟩ := writeDocuments_ok hwrite
  have hcases : ∀ new ∈ changed, (∃ old ∈ files.documents, new.id = old.id
      ∧ new.path = statement.place old.path) ∨ Feed.newId statement = some new.id := by
    rw [hchanged]
    exact fun new hmem => DocumentWrite.changed_cases hmem
  have hchangedIds : (changed.map DocumentRow.id).Nodup := by
    rw [hchanged]
    exact statement.changed_ids_nodup _ _ _ h.ids
  subst hnext
  refine ⟨⟨?_, ?_, ?_⟩, rfl, rfl, rfl, ?_⟩
  · -- a changed row takes the place of the one with its identifier
    rw [documentsWith, List.map_append, List.nodup_append]
    refine ⟨h.ids.sublist (List.filter_sublist.map _), hchangedIds, ?_⟩
    intro id hkept other hother heq
    obtain ⟨row, hrow, rfl⟩ := List.mem_map.mp hkept
    obtain ⟨new, hnew, rfl⟩ := List.mem_map.mp hother
    have hdropped := (List.mem_filter.mp hrow).2
    simp only [Bool.not_eq_true', List.any_eq_false, decide_eq_true_eq] at hdropped
    exact hdropped new hnew heq.symm
  · intro row hrow
    rcases List.mem_append.mp hrow with hrow | hrow
    · exact h.drawn row (List.mem_of_mem_filter hrow)
    · rcases hcases row hrow with ⟨old, hold, hid, -⟩ | hid
      · rw [hid]
        exact h.drawn old hold
      · exact (hnew row.id hid).1
  · intro row hrow
    rcases List.mem_append.mp hrow with hrow | hrow
    · exact h.project row (List.mem_of_mem_filter hrow)
    · rw [hchanged] at hrow
      exact statement.changed_projectId _ _ _ _ row hrow
  · -- a document is changed, or it stays as it was
    intro row hrow
    by_cases hsame : ∃ new ∈ changed, new.id = row.id
    · obtain ⟨new, hmem, hid⟩ := hsame
      refine ⟨new, List.mem_append_right _ hmem, ?_⟩
      rcases hcases new hmem with ⟨old, hold, hold', hpath⟩ | hinserted
      · -- one identifier is one document
        have heq : old = row := List.inj_on_of_nodup_map h.ids hold hrow (hold'.symm.trans hid)
        rw [hpath, heq]
      · exact absurd hid.symm ((hnew new.id hinserted).2 row hrow)
    · have hkept : ∀ new ∈ changed, new.id ≠ row.id :=
        fun new hmem hid => hsame ⟨new, hmem, hid⟩
      refine ⟨row, List.mem_append_left _ ?_, ?_⟩
      · simp only [List.mem_filter, Bool.not_eq_true', List.any_eq_false, decide_eq_true_eq]
        exact ⟨hrow, hkept⟩
      · rw [hchanged] at hkept
        exact (DocumentWrite.place_of_not_changed hrow (h.project row hrow) hkept).symm

theorem Identified.draw (h : files.Identified) : files.drawn.Identified
    ∧ ∀ id ∈ some files.nextId, id < files.drawn.nextId
      ∧ ∀ row ∈ files.drawn.documents, row.id ≠ id := by
  refine ⟨⟨h.ids, ?_, h.project⟩, ?_⟩
  · exact fun row hrow => Nat.lt_succ_of_lt (h.drawn row hrow)
  · rintro id ⟨rfl⟩
    exact ⟨Nat.lt_succ_self _, fun row hrow => Nat.ne_of_lt (h.drawn row hrow)⟩

/-- The documents may become fewer, and other columns may change. -/
theorem Identified.of_sublist (h : files.Identified)
    (hdocuments : next.documents.Sublist files.documents) (hid : files.nextId ≤ next.nextId)
    (hproject : next.project.id = files.project.id) : next.Identified where
  ids := h.ids.sublist (hdocuments.map _)
  drawn := fun row hrow => Nat.lt_of_lt_of_le (h.drawn row (hdocuments.subset hrow)) hid
  project := by
    rw [hproject]
    exact fun row hrow => h.project row (hdocuments.subset hrow)

/-! ## The entry file and the version -/

/-- The entry file of the project is a document that may be one. -/
def Compiles (files : ProjectFiles) : Prop :=
  files.projectType.acceptsEntryFilePath files.entryPoint = true
    ∧ ∃ row ∈ files.documents, row.path = files.entryPoint

@[simp] theorem entryFilePath_ensureSettings (files : ProjectFiles) :
    files.ensureSettings.entryFilePath = files.entryPoint := by
  unfold ensureSettings entryPoint
  cases files.settings <;> rfl

variable {path : Text}

theorem isDocumentTextPath_of_accepts {projectType : ProjectType}
    (h : projectType.acceptsEntryFilePath path = true) : isDocumentTextPath path = true := by
  unfold isDocumentTextPath textExtensions
  cases projectType with
  | typst =>
    simp only [ProjectType.acceptsEntryFilePath] at h
    simp [h]
  | latex =>
    simp only [ProjectType.acceptsEntryFilePath, Bool.or_eq_true] at h
    rcases h with h | h <;> simp [h]

theorem Compiles.keep (h : files.Compiles) (hentry : next.entryPoint = files.entryPoint)
    (htype : next.projectType = files.projectType)
    (hkept : ∀ row ∈ files.documents, row.path = files.entryPoint →
      ∃ row' ∈ next.documents, row'.path = row.path) : next.Compiles := by
  obtain ⟨haccepted, row, hrow, hpath⟩ := h
  obtain ⟨row', hrow', hpath'⟩ := hkept row hrow hpath
  refine ⟨?_, row', hrow', ?_⟩
  · rw [hentry, htype]
    exact haccepted
  · rw [hentry, hpath', hpath]

def snapshot (files : ProjectFiles) : ContentSnapshot where
  entryFilePath := files.entryPoint
  latexEngine :=
    if files.projectType = .latex then
      some ((files.settings.bind (·.latexEngine)).getD .xetex)
    else none
  documents := files.documents.map fun row => (row.path, row.content)
  directories := files.directories
  assets := files.assets.map fun row => (row.path, row.objectKey, row.contentType, row.inlineData)

/-- An operation has a new version, or nothing for a snapshot to tell. -/
def Versioned (files next : ProjectFiles) : Prop :=
  next.project.workspaceVersion = files.project.workspaceVersion + 1
    ∨ next.project.workspaceVersion = files.project.workspaceVersion
      ∧ next.snapshot = files.snapshot

/-- Only documents away from the entry file are removed. -/
theorem Compiles.remove (h : files.Compiles) {removes : DocumentRow → Bool}
    (hdocuments : next.documents = files.documents.filter fun row => !removes row)
    (hentry : next.entryPoint = files.entryPoint) (htype : next.projectType = files.projectType)
    (hspared : ∀ row ∈ files.documents, row.path = files.entryPoint → removes row = false) :
    next.Compiles := by
  refine h.keep hentry htype ?_
  intro row hrow hpath
  refine ⟨row, ?_, rfl⟩
  rw [hdocuments, List.mem_filter, hspared row hrow hpath]
  exact ⟨hrow, rfl⟩

/-- An asset leaves the documents. -/
theorem Identified.upsertAsset (h : files.Identified) {row : ProjectAssetRow}
    (hwrite : files.upsertAsset row = .ok next) :
    next.Identified ∧ (files.Compiles → next.Compiles) ∧ next.project = files.project := by
  rw [(upsertAsset_ok hwrite).1]
  exact ⟨⟨h.ids, h.drawn, h.project⟩, id, rfl⟩

/-- The pure function and the statement agree on what is in a subtree. -/
theorem pathIsInSubtree_eq (path subtree : Text) :
    pathIsInSubtree path subtree = pathInSubtree subtree path := by
  rw [Bool.eq_iff_iff, pathInSubtree_iff]
  simp only [pathIsInSubtree, subtreeSuffix, Bool.or_eq_true, decide_eq_true_eq]
  refine or_congr_right ?_
  constructor
  · intro hsuffix
    split at hsuffix
    · next hstart =>
      obtain ⟨rest, hrest⟩ := List.isPrefixOf_iff_prefix.mp hstart
      exact ⟨rest, by simp [← hrest]⟩
    · cases hsuffix
  · rintro ⟨rest, rfl⟩
    have hstart : (subtree ++ ['/']).isPrefixOf (subtree ++ '/' :: rest) = true :=
      List.isPrefixOf_iff_prefix.mpr ⟨rest, by simp⟩
    rw [if_pos hstart]
    rfl

/-- So do they on where a path is moved. -/
theorem movePathWithSubtree_eq (path fromPath toPath : Text) :
    movePathWithSubtree path fromPath toPath
      = if pathInSubtree fromPath path then some (pathMovedTo fromPath toPath path) else none := by
  rw [← pathIsInSubtree_eq, movePathWithSubtree, pathIsInSubtree, pathMovedTo]
  by_cases hroot : path = fromPath
  · simp [hroot]
  · by_cases hstart : (fromPath ++ ['/']).isPrefixOf path = true
    · simp [hroot, subtreeSuffix, hstart]
    · simp [hroot, subtreeSuffix, hstart]

variable {fromPath toPath : Text}

theorem moveSubtree_kept {changed : Bool} (h : files.Identified)
    (hmove : files.moveSubtree fromPath toPath = .ok (next, changed)) :
    next.Identified ∧ next.settings = files.settings ∧ next.projectType = files.projectType
      ∧ ((∃ row ∈ files.documents, pathInSubtree fromPath row.path = true) → changed = true)
      ∧ ∀ row ∈ files.documents, ∃ row' ∈ next.documents,
        row'.path = (DocumentWrite.moveSubtree fromPath toPath).place row.path := by
  unfold moveSubtree at hmove
  obtain ⟨⟨written, documents⟩, hwrite, hmove⟩ := bind_eq_ok.mp hmove
  obtain ⟨hidentified, -, hsettings, htype, hkept⟩ := h.write hwrite fun id hid => by cases hid
  dsimp only at hmove
  split at hmove
  · cases hmove
  · cases hmove
    refine ⟨⟨hidentified.ids, hidentified.drawn, hidentified.project⟩, hsettings, htype, ?_, hkept⟩
    rintro ⟨row, hrow, hin⟩
    -- a row of the subtree is written
    obtain ⟨hchanged, -⟩ := writeDocuments_ok hwrite
    have hmem : row ∈ files.documents.filter fun row =>
        row.projectId = files.project.id ∧ pathInSubtree fromPath row.path := by
      simp [hrow, h.project row hrow, hin]
    obtain ⟨new, hnew, -⟩ :=
      exists_mem_numbered (.moved fromPath toPath) (fun _ _ => rfl) files.nextChangeSequence hmem
    have hne : documents ≠ [] := by
      rw [hchanged]
      exact List.ne_nil_of_mem hnew
    cases hdocuments : documents with
    | nil => exact absurd hdocuments hne
    | cons new rest => simp

/-- The statements of a move that find nothing change nothing. -/
theorem snapshot_moveSubtree (h : files.moveSubtree fromPath toPath = .ok (next, false)) :
    next.project = files.project ∧ next.snapshot = files.snapshot := by
  refine ⟨moveSubtree_project h, ?_⟩
  unfold moveSubtree at h
  obtain ⟨⟨written, documents⟩, hwrite, h⟩ := bind_eq_ok.mp h
  dsimp only at h
  split at h
  · cases h
  simp only [pure_eq_ok, Except.ok.injEq, Prod.mk.injEq, Bool.or_eq_false_iff,
    List.any_eq_false, Bool.not_eq_false'] at h
  obtain ⟨rfl, ⟨hdirectories, hdocuments⟩, hassets⟩ := h
  obtain ⟨-, hwritten, -⟩ := writeDocuments_ok hwrite
  have hplaces : ∀ path, ¬ pathInSubtree fromPath path = true →
      (if pathInSubtree fromPath path = true then pathMovedTo fromPath toPath path else path)
        = path := fun path hout => if_neg hout
  have hmap : files.directories.map (fun path =>
      if pathInSubtree fromPath path = true then pathMovedTo fromPath toPath path else path)
      = files.directories := by
    refine (List.map_congr_left fun path hpath => ?_).trans (List.map_id _)
    exact hplaces path (hdirectories path hpath)
  rw [List.isEmpty_iff.mp hdocuments] at hwritten
  simp only [snapshot, hwritten, entryPoint, ContentSnapshot.mk.injEq, hmap, List.map_map, true_and]
  refine ⟨by simp [documentsWith], List.map_congr_left fun row hrow => ?_⟩
  simp only [Function.comp_apply, hplaces _ (hassets row hrow)]

theorem snapshot_ensureSettings (files : ProjectFiles) :
    (getOrCreateProjectSettings files).snapshot = files.snapshot := by
  have hentry : (getOrCreateProjectSettings files).entryPoint = files.entryPoint :=
    entryFilePath_ensureSettings files
  unfold snapshot
  rw [hentry]
  cases hsettings : files.settings with
  | some settings => simp [getOrCreateProjectSettings, ensureSettings, hsettings]
  | none =>
    cases htype : files.projectType <;>
      simp [getOrCreateProjectSettings, ensureSettings, hsettings, htype,
        ProjectType.defaultLatexEngine]

/-! ## Operations -/

structure Keeps (files next : ProjectFiles) : Prop where
  identified : next.Identified
  compiles : files.Compiles → next.Compiles
  versioned : Versioned files next

/-- An operation that marks the project is told by the version. -/
theorem Keeps.markDirty (hidentified : next.Identified) (hcompiles : files.Compiles → next.Compiles)
    (hproject : next.project = files.project) : Keeps files next.markDirty where
  identified := ⟨hidentified.ids, hidentified.drawn, hidentified.project⟩
  compiles := hcompiles
  versioned := .inl (congrArg (fun project => project.workspaceVersion + 1) hproject)

/-- A statement that gives every document its place. -/
theorem Identified.write_compiles (h : files.Identified)
    (hwrite : files.writeDocuments statement = .ok (next, changed))
    (hnew : ∀ id ∈ Feed.newId statement, id < files.nextId ∧ ∀ row ∈ files.documents, row.id ≠ id)
    (hplace : ∀ path, statement.place path = path) :
    next.Identified ∧ (files.Compiles → next.Compiles) ∧ next.project = files.project := by
  obtain ⟨hidentified, -, hsettings, htype, hkept⟩ := h.write hwrite hnew
  refine ⟨hidentified, fun hcompiles => hcompiles.keep ?_ htype ?_, writeDocuments_project hwrite⟩
  · rw [entryPoint, entryPoint, hsettings, htype]
  · intro row hrow _
    obtain ⟨row', hrow', hpath⟩ := hkept row hrow
    exact ⟨row', hrow', hpath.trans (hplace _)⟩

/-- A statement under a new identifier, told by the version. -/
theorem Identified.write_drawn (h : files.Identified)
    (hwrite : files.drawn.writeDocuments statement = .ok (next, changed))
    (hnew : Feed.newId statement = some files.nextId)
    (hplace : ∀ path, statement.place path = path) : Keeps files next.markDirty := by
  obtain ⟨hidentified, hcompiles, hproject⟩ :=
    h.draw.1.write_compiles hwrite (by rw [hnew]; exact h.draw.2) hplace
  exact .markDirty hidentified hcompiles hproject

theorem Identified.move (h : files.Identified)
    (hmove : moveProjectFile files fromPath toPath = .ok next) : Keeps files next := by
  unfold moveProjectFile at hmove
  rw [movePathWithSubtree_eq] at hmove
  by_cases hin : pathInSubtree fromPath files.entryPoint = true
  · -- the entry file moves with its subtree
    simp only [hin, if_true, Option.any_some, Option.elim_some, Bool.not_eq_true'] at hmove
    split at hmove
    · cases hmove
    next haccepted =>
    obtain ⟨⟨moved, changed⟩, hstatement, hmove⟩ := bind_eq_ok.mp hmove
    obtain ⟨hidentified, -, htype, hchanged, hkept⟩ := moveSubtree_kept h hstatement
    have hproject := moveSubtree_project hstatement
    cases changed with
    | true =>
      cases hmove
      refine Keeps.markDirty ⟨hidentified.ids, hidentified.drawn, hidentified.project⟩ ?_ hproject
      rintro ⟨-, row, hrow, hpath⟩
      obtain ⟨row', hrow', hpath'⟩ := hkept row hrow
      rw [hpath, DocumentWrite.place, if_pos hin] at hpath'
      refine ⟨?_, row', hrow', hpath'⟩
      show moved.projectType.acceptsEntryFilePath _ = true
      rw [htype]
      exact Bool.eq_true_of_not_eq_false haccepted
    | false =>
      cases hmove
      obtain ⟨-, hsnapshot⟩ := snapshot_moveSubtree hstatement
      refine ⟨hidentified, ?_, .inr ⟨congrArg ProjectRow.workspaceVersion hproject, hsnapshot⟩⟩
      rintro ⟨-, row, hrow, hpath⟩
      have hwritten := hchanged ⟨row, hrow, by rw [hpath]; exact hin⟩
      cases hwritten
  · simp only [hin, Bool.false_eq_true, if_false, Option.any_none, Option.elim_none] at hmove
    obtain ⟨⟨moved, changed⟩, hstatement, hmove⟩ := bind_eq_ok.mp hmove
    obtain ⟨hidentified, hsettings, htype, -, hkept⟩ := moveSubtree_kept h hstatement
    -- the entry file stays where it is
    have hproject := moveSubtree_project hstatement
    have hcompiles : files.Compiles → moved.Compiles := by
      intro hcompiles
      refine hcompiles.keep ?_ htype ?_
      · rw [entryPoint, entryPoint, hsettings, htype]
      · intro row hrow hpath
        obtain ⟨row', hrow', hpath'⟩ := hkept row hrow
        refine ⟨row', hrow', hpath'.trans ?_⟩
        rw [hpath, DocumentWrite.place, if_neg hin]
    cases changed with
    | true =>
      cases hmove
      exact .markDirty hidentified hcompiles hproject
    | false =>
      cases hmove
      obtain ⟨-, hsnapshot⟩ := snapshot_moveSubtree hstatement
      exact ⟨hidentified, hcompiles,
        .inr ⟨congrArg ProjectRow.workspaceVersion hproject, hsnapshot⟩⟩

theorem Identified.deleteDocument (h : files.Identified) {documentId : Uuid}
    (hdelete : Workspace.deleteDocument files documentId = .ok next) : Keeps files next := by
  unfold Workspace.deleteDocument at hdelete
  split at hdelete
  · cases hdelete
  next document hfound =>
  split at hdelete
  · cases hdelete
  next hother =>
  cases hdelete
  refine .markDirty (h.of_sublist List.filter_sublist le_rfl rfl) (fun hcompiles => ?_) rfl
  refine hcompiles.remove rfl rfl rfl ?_
  intro row hrow hpath
  simp only [DocumentDelete.removes, decide_eq_false_iff_not]
  rintro ⟨-, hid⟩
  -- it would be the document that was found
  have hsame : row = document := by
    apply List.inj_on_of_nodup_map h.ids hrow (List.mem_of_find?_eq_some hfound)
    have hfoundId := List.find?_some hfound
    rw [hid]
    exact (of_decide_eq_true hfoundId).symm
  rw [hsame] at hpath
  exact hother hpath.symm

theorem Identified.deleteProjectFile (h : files.Identified)
    (hdelete : Workspace.deleteProjectFile files path = .ok next) : Keeps files next := by
  unfold Workspace.deleteProjectFile at hdelete
  dsimp only at hdelete
  split at hdelete
  · cases hdelete
  next houtside =>
  cases hdelete
  rw [pathIsInSubtree_eq] at houtside
  have hidentified : (files.deleteSubtree path).1.Identified :=
    h.of_sublist List.filter_sublist le_rfl rfl
  have hcompiles : files.Compiles → (files.deleteSubtree path).1.Compiles := by
    intro hcompiles
    refine hcompiles.remove rfl rfl rfl ?_
    intro row hrow hpath
    simp only [DocumentDelete.removes, decide_eq_false_iff_not]
    rintro ⟨-, hin⟩
    rw [hpath] at hin
    exact houtside hin
  split
  · exact .markDirty hidentified hcompiles rfl
  · -- nothing was in the subtree, so the version may stay
    next hnothing =>
    simp only [deleteSubtree, Bool.not_eq_true, Bool.or_eq_false_iff, List.any_eq_false]
      at hnothing
    obtain ⟨⟨hdirectories, hdocuments⟩, hassets⟩ := hnothing
    have hkept : (files.deleteSubtree path).1 = files := by
      unfold deleteSubtree deleteDocuments
      simp only
      rw [List.filter_eq_self.mpr fun row hrow => by simpa using hdocuments row hrow,
        List.filter_eq_self.mpr fun row hrow => by simpa using hdirectories row hrow,
        List.filter_eq_self.mpr fun row hrow => by simpa using hassets row hrow]
    exact ⟨hidentified, hcompiles, .inr ⟨rfl, congrArg snapshot hkept⟩⟩

theorem Identified.createProjectFile (h : files.Identified) {content : Text}
    {kind : ProjectFileKind} {object : StoredObject}
    (hcreate : Workspace.createProjectFile files path kind content object = .ok next) :
    Keeps files next := by
  unfold Workspace.createProjectFile at hcreate
  cases hprepared : prepareProjectFile kind path content object with
  | directory =>
    rw [hprepared] at hcreate
    unfold createPrepared at hcreate
    dsimp only at hcreate
    split at hcreate
    · cases hcreate
      exact ⟨h, id, .inr ⟨rfl, rfl⟩⟩
    · split at hcreate
      · cases hcreate
        exact .markDirty ⟨h.ids, h.drawn, h.project⟩ id rfl
      · cases hcreate
  | text content =>
    rw [hprepared] at hcreate
    obtain ⟨⟨written, changed⟩, hwrite, hcreate⟩ := bind_eq_ok.mp hcreate
    cases hcreate
    obtain ⟨hidentified, hcompiles, hproject⟩ :=
      h.draw.1.write_compiles hwrite h.draw.2 fun _ => rfl
    exact .markDirty ⟨hidentified.ids, hidentified.drawn, hidentified.project⟩ hcompiles hproject
  | asset object =>
    rw [hprepared] at hcreate
    obtain ⟨written, hwrite, hcreate⟩ := bind_eq_ok.mp hcreate
    cases hcreate
    obtain ⟨hidentified, hcompiles, hproject⟩ := h.draw.1.upsertAsset hwrite
    have hplain : isDocumentTextPath path = false := by
      cases kind with
      | directory => cases hprepared
      | file =>
        simp only [prepareProjectFile] at hprepared
        split at hprepared
        · cases hprepared
        · next hplain => exact Bool.eq_false_iff.mpr hplain
    refine .markDirty (hidentified.of_sublist List.filter_sublist le_rfl rfl) ?_ hproject
    intro hbefore
    have hwritten := hcompiles hbefore
    refine hwritten.remove rfl rfl rfl ?_
    intro row hrow hpath
    simp only [DocumentDelete.removes, decide_eq_false_iff_not]
    rintro ⟨-, hsame⟩
    -- an asset takes the place of no text
    have htext := isDocumentTextPath_of_accepts hwritten.1
    rw [← hpath, hsame, hplain] at htext
    cases htext

/-- A replacement has the documents that it names, and its entry file is one of them. -/
theorem keeps_replaceContent {content : ContentReplacement}
    (hreplace : replaceContent files content = .ok next) : Keeps files next := by
  unfold replaceContent at hreplace
  split at hreplace
  · cases hreplace
  split at hreplace
  · cases hreplace
  next hentry =>
  simp only [Bool.or_eq_true, Bool.not_eq_true', not_or, Bool.not_eq_false, List.any_eq_true,
    decide_eq_true_eq] at hentry
  obtain ⟨withDocuments, hdocuments, hreplace⟩ := bind_eq_ok.mp hreplace
  obtain ⟨withAssets, hassets, hreplace⟩ := bind_eq_ok.mp hreplace
  obtain ⟨filled, hdirectories, hreplace⟩ := bind_eq_ok.mp hreplace
  cases hreplace
  -- the documents are there after the first loop, and the other two leave them
  let Filled (done : List WorkspaceDocument) (state : ProjectFiles) : Prop :=
    state.Identified ∧ state.project = files.project ∧ state.projectType = files.projectType
      ∧ ∀ document ∈ done, ∃ row ∈ state.documents, row.path = document.path
  have hinserted : Filled content.documents withDocuments := by
    refine foldlM_ok (P := Filled) hdocuments ?_ ?_
    · exact ⟨⟨List.nodup_nil, by simp [emptied], by simp [emptied]⟩, rfl, rfl, by simp⟩
    · rintro done document state state' ⟨hidentified, hproject, htype, hdone⟩ - hstep
      obtain ⟨⟨written, changed⟩, hwrite, hstep⟩ := bind_eq_ok.mp hstep
      cases hstep
      obtain ⟨hidentified', -, -, htype', hkept⟩ :=
        hidentified.draw.1.write hwrite hidentified.draw.2
      refine ⟨hidentified', (writeDocuments_project hwrite).trans hproject, htype'.trans htype, ?_⟩
      intro other hother
      rcases List.mem_append.mp hother with hother | hother
      · obtain ⟨row, hrow, hpath⟩ := hdone other hother
        obtain ⟨row', hrow', hpath'⟩ := hkept row hrow
        exact ⟨row', hrow', hpath'.trans hpath⟩
      · rw [List.mem_singleton.mp hother]
        obtain ⟨hchanged, hnext, -⟩ := writeDocuments_ok hwrite
        refine ⟨insertedDocument state.nextId state.project.id document.path document.content
          state.nextChangeSequence, ?_, rfl⟩
        rw [hnext, hchanged]
        exact List.mem_append_right _ (List.mem_singleton.mpr rfl)
  have hwithAssets : Filled content.documents withAssets := by
    refine foldlM_ok (P := fun _ => Filled content.documents) hassets hinserted ?_
    rintro _ asset state state' ⟨hidentified, hproject, htype, hdone⟩ - hstep
    unfold insertAsset at hstep
    split at hstep
    · cases hstep
    obtain ⟨hidentified', -, hproject'⟩ := hidentified.draw.1.upsertAsset hstep
    refine ⟨hidentified', hproject'.trans hproject, ?_, ?_⟩
    · rw [(upsertAsset_ok hstep).1]
      exact htype
    · rw [(upsertAsset_ok hstep).1]
      exact hdone
  obtain ⟨hidentified, hproject, htype, hdone⟩ : Filled content.documents filled := by
    refine foldlM_ok (P := fun _ => Filled content.documents) hdirectories hwithAssets ?_
    rintro _ path state state' ⟨hidentified, hrest⟩ - hstep
    unfold insertDirectory at hstep
    split at hstep
    · cases hstep
    split at hstep
    · cases hstep
      exact ⟨⟨hidentified.ids, hidentified.drawn, hidentified.project⟩, hrest⟩
    · cases hstep
  refine ⟨⟨hidentified.ids, hidentified.drawn, hidentified.project⟩, fun _ => ⟨?_, ?_⟩, .inl ?_⟩
  · show filled.projectType.acceptsEntryFilePath _ = true
    rw [htype]
    exact hentry.1
  · obtain ⟨document, hmem, hpath⟩ := hentry.2
    obtain ⟨row, hrow, hrowPath⟩ := hdone document hmem
    exact ⟨row, hrow, hrowPath.trans hpath⟩
  · show filled.project.workspaceVersion + 1 = _
    rw [hproject]

/-- One operation. -/
theorem Identified.execute (h : files.Identified) (hstep : files.execute action = .ok next) :
    Keeps files next := by
  cases action with
  | createDocument path content =>
    obtain ⟨⟨written, changed⟩, hwrite, hstep⟩ := bind_eq_ok.mp hstep
    cases hstep
    exact h.write_drawn hwrite rfl fun _ => rfl
  | upsertDocumentByPath path content expectedContentEpoch =>
    unfold ProjectFiles.execute Workspace.upsertDocumentByPath at hstep
    dsimp only at hstep
    split at hstep
    · obtain ⟨⟨written, changed⟩, hwrite, hstep⟩ := bind_eq_ok.mp hstep
      cases hstep
      exact h.write_drawn hwrite rfl fun _ => rfl
    · cases hstep
  | updateDocument documentId expectedContentEpoch pathRevision collaborationRevision content =>
    unfold ProjectFiles.execute Workspace.updateDocument at hstep
    dsimp only at hstep
    split at hstep
    · obtain ⟨⟨written, changed⟩, hwrite, hstep⟩ := bind_eq_ok.mp hstep
      dsimp only at hstep
      split at hstep <;> cases hstep
      obtain ⟨hidentified, hcompiles, hproject⟩ :=
        h.write_compiles hwrite (fun id hid => by cases hid) fun _ => rfl
      exact .markDirty hidentified hcompiles hproject
    · cases hstep
  | deleteDocument documentId => exact h.deleteDocument hstep
  | createProjectFile path kind content object => exact h.createProjectFile hstep
  | moveProjectFile fromPath toPath => exact h.move hstep
  | deleteProjectFile path => exact h.deleteProjectFile hstep
  | uploadProjectAsset path object =>
    -- two identifiers are drawn before the row is written
    obtain ⟨written, hwrite, hstep⟩ := bind_eq_ok.mp hstep
    cases hstep
    obtain ⟨hidentified, hcompiles, hproject⟩ := h.draw.1.draw.1.upsertAsset hwrite
    exact .markDirty hidentified hcompiles hproject
  | deleteProjectAsset assetId =>
    unfold ProjectFiles.execute Workspace.deleteProjectAsset at hstep
    dsimp only at hstep
    split at hstep <;> cases hstep
    exact .markDirty ⟨h.ids, h.drawn, h.project⟩ id rfl
  | changeProjectSetting change =>
    unfold ProjectFiles.execute Workspace.changeProjectSetting at hstep
    cases change with
    | entryFilePath path =>
      dsimp only at hstep
      split at hstep
      · cases hstep
      next haccepted =>
      split at hstep <;> cases hstep
      next hfound =>
      refine .markDirty ⟨h.ids, h.drawn, h.project⟩ (fun _ => ⟨?_, ?_⟩) rfl
      · show files.projectType.acceptsEntryFilePath path = true
        simpa using haccepted
      · show ∃ row ∈ files.documents, row.path = path
        simpa using hfound
    | latexEngine engine =>
      dsimp only at hstep
      split at hstep <;> cases hstep
      refine .markDirty ⟨h.ids, h.drawn, h.project⟩ (fun hcompiles => hcompiles.keep ?_ rfl ?_) rfl
      · exact entryFilePath_ensureSettings files
      · exact fun row hrow _ => ⟨row, hrow, rfl⟩
  | getOrCreateProjectSettings =>
    -- a missing settings row is made, which no snapshot shows
    cases hstep
    refine ⟨⟨h.ids, h.drawn, h.project⟩, fun hcompiles => hcompiles.keep ?_ rfl ?_,
      .inr ⟨rfl, snapshot_ensureSettings files⟩⟩
    · exact entryFilePath_ensureSettings files
    · exact fun row hrow _ => ⟨row, hrow, rfl⟩
  | replaceContent content => exact keeps_replaceContent hstep

end ProjectFiles

/-! ## Runs -/

/-- After any operations the entry file of the project is still a document that its type accepts,
wherever it was moved. -/
theorem entry_stays_valid {actions : List FileAction}
    (hrun : Run (fun files action next => ProjectFiles.execute files action = .ok next) files
      actions next) (hidentified : files.Identified) (hcompiles : files.Compiles) :
    next.Compiles := by
  have hboth : next.Identified ∧ next.Compiles := by
    refine hrun.invariant (I := fun files => files.Identified ∧ files.Compiles) ?_
      ⟨hidentified, hcompiles⟩
    rintro files action next ⟨hidentified, hcompiles⟩ hstep
    have hkeeps := hidentified.execute hstep
    exact ⟨hkeeps.identified, hkeeps.compiles hcompiles⟩
  exact hboth.2

/-- A project with the entry file that it has by default. -/
def enteredProject : ProjectFiles :=
  { emptyProject with
    documents := [insertedDocument 0 0 emptyProject.entryPoint [] 0] }

theorem identified_enteredProject : enteredProject.Identified where
  ids := by decide
  drawn := by decide
  project := by decide

/-- The entry file is moved into a directory, and what is left is deleted. -/
theorem entry_stays_valid_of_move : ∃ next : ProjectFiles,
    Run (fun files action next => ProjectFiles.execute files action = .ok next) enteredProject
        [.moveProjectFile enteredProject.entryPoint ['a', '.', 't', 'y', 'p'],
          .deleteProjectFile enteredProject.entryPoint] next
      ∧ next.Compiles := by
  refine Exists.imp (fun _ hrun => ⟨hrun, entry_stays_valid hrun identified_enteredProject ?_⟩)
    ⟨_, .cons rfl (.cons rfl (.nil _))⟩
  exact ⟨by decide, _, List.mem_singleton.mpr rfl, rfl⟩

/-- The version of the workspace does not go back, and two snapshots of a run with one version
have the same content. -/
theorem workspace_version_identifies_content {actions : List FileAction}
    (hrun : Run (fun files action next => ProjectFiles.execute files action = .ok next) files
      actions next) (hidentified : files.Identified) :
    files.project.workspaceVersion ≤ next.project.workspaceVersion
      ∧ (next.project.workspaceVersion = files.project.workspaceVersion →
        next.snapshot = files.snapshot) := by
  have hrest : next.Identified ∧ files.project.workspaceVersion ≤ next.project.workspaceVersion
      ∧ (next.project.workspaceVersion = files.project.workspaceVersion →
        next.snapshot = files.snapshot) := by
    refine hrun.invariant (I := fun later => later.Identified
      ∧ files.project.workspaceVersion ≤ later.project.workspaceVersion
      ∧ (later.project.workspaceVersion = files.project.workspaceVersion →
        later.snapshot = files.snapshot)) ?_ ⟨hidentified, le_rfl, fun _ => rfl⟩
    rintro later action last ⟨hidentified, hle, hsame⟩ hstep
    have hkeeps := hidentified.execute hstep
    refine ⟨hkeeps.identified, ?_⟩
    rcases hkeeps.versioned with hnew | ⟨hversion, hsnapshot⟩
    · exact ⟨by omega, fun heq => by omega⟩
    · exact ⟨by omega, fun heq => hsnapshot.trans (hsame (by omega))⟩
  exact hrest.2

/-- An asset that is uploaded is told by the version. -/
theorem workspace_version_identifies_content_of_upload : ∃ next : ProjectFiles,
    Run (fun files action next => ProjectFiles.execute files action = .ok next) enteredProject
        [.getOrCreateProjectSettings, .uploadProjectAsset ['b'] bareObject] next
      ∧ 1 ≤ next.project.workspaceVersion
      ∧ (next.project.workspaceVersion = 1 → next.snapshot = enteredProject.snapshot) :=
  Exists.imp
    (fun _ hrun => ⟨hrun, workspace_version_identifies_content hrun identified_enteredProject⟩)
    ⟨_, .cons rfl (.cons rfl (.nil _))⟩

end Toss.Workspace
