import Toss.Workspace.DocumentTransactions
import Toss.Workspace.ProjectContent

/-!
# The operations on the files of a project

`document_mutations.rs`, `project_file_creation.rs`, `project_file_move.rs`,
`project_file_deletion.rs`, `project_asset_upload.rs`, `project_asset_deletion.rs` and
`project_settings.rs`, with the statements that they make, on the rows of one project. Every
operation is one transaction, which here is taken whole: it commits, or fails and changes
nothing. Identifiers are drawn and never drawn again.

* `ProjectFiles` — the rows of one project;
* `createDocument`, `upsertDocumentByPath`, `updateDocument`, `deleteDocument`,
  `createProjectFile`, `moveProjectFile`, `deleteProjectFile`, `uploadProjectAsset`,
  `deleteProjectAsset`, `changeProjectSetting`, `replaceContent` — the operations;
* `ProjectFiles.execute` — all of them.
-/

namespace Toss.Workspace

open Toss.Foundation

/-! ## Rows -/

/-- A row of `project_assets`. -/
structure ProjectAssetRow where
  id : Uuid
  path : Text
  contentRevision : Uuid
  objectKey : Text
  contentType : Text
  sizeBytes : Int
  inlineData : Option Bytes
deriving DecidableEq, Repr

/-- A row of `project_settings`. -/
structure ProjectSettingsRow where
  entryFilePath : Text
  latexEngine : Option LatexEngine
  settingsRevision : Int
deriving DecidableEq, Repr

structure ProjectFiles where
  project : ProjectRow
  projectType : ProjectType
  settings : Option ProjectSettingsRow
  documents : List DocumentRow
  directories : List Text
  assets : List ProjectAssetRow
  nextChangeSequence : Int
  /-- The next identifier that `Uuid::new_v4` draws. -/
  nextId : Uuid
deriving DecidableEq, Repr

inductive FileMutationError
  /-- `sanitize_project_path` refuses the path of the request. -/
  | invalidPath
  | pathConflict
  | contentEpochChanged
  | documentNotFound
  | documentRevisionChanged
  | assetNotFound
  | entryFileDeletion
  | entryFileTypeMismatch
  | entryFileNotFound
  | latexEngineNotApplicable
  | workspaceVersionChanged
  | invalidEntryFile
  /-- A statement that fails for another reason. -/
  | persistence
deriving DecidableEq, Repr

/-- An object as it was put before the transaction. -/
structure StoredObject where
  objectKey : Text
  contentType : Text
  sizeBytes : Int
  inlineData : Option Bytes
deriving DecidableEq, Repr

inductive PreparedProjectFile
  | directory
  | text (content : Text)
  | asset (object : StoredObject)
deriving DecidableEq, Repr

inductive ProjectSettingChange
  | entryFilePath (path : Text)
  | latexEngine (engine : LatexEngine)
deriving DecidableEq, Repr

def ProjectType.defaultLatexEngine : ProjectType → Option LatexEngine
  | .typst => none
  | .latex => some .xetex

/-! ## Statements -/

namespace ProjectFiles

/-- The entry point as `find_project_entry_point_in_transaction` coalesces it. -/
def entryPoint (files : ProjectFiles) : Text :=
  (files.settings.map (·.entryFilePath)).getD files.projectType.defaultEntryFilePath

/-- `mark_project_dirty`. -/
def markDirty (files : ProjectFiles) : ProjectFiles :=
  { files with
    project := { files.project with workspaceVersion := files.project.workspaceVersion + 1 } }

def drawn (files : ProjectFiles) : ProjectFiles :=
  { files with nextId := files.nextId + 1 }

/-- What a statement changes among the documents, and the next value of the sequence; an
`insert` draws its default first. -/
def changedDocuments (files : ProjectFiles) (statement : DocumentWrite) : List DocumentRow × Int :=
  statement.changed files.project.id files.nextChangeSequence
    (if statement.insertsRow then files.nextChangeSequence + 1 else files.nextChangeSequence)
    files.documents

/-- The documents after some of them are changed. -/
def documentsWith (files : ProjectFiles) (changed : List DocumentRow) : List DocumentRow :=
  files.documents.filter (fun row => !changed.any fun new => new.id = row.id) ++ changed

/-- A writing statement on `documents`, with the rows that it changed. -/
def writeDocuments (files : ProjectFiles) (statement : DocumentWrite) :
    Except FileMutationError (ProjectFiles × List DocumentRow) :=
  let (changed, next) := files.changedDocuments statement
  let documents := files.documentsWith changed
  if !changed.all Feed.isStorable then .error .persistence
  else if !Feed.pathsUnique documents then .error .pathConflict
  else .ok ({ files with documents, nextChangeSequence := next }, changed)

def deleteDocuments (files : ProjectFiles) (statement : DocumentDelete) : ProjectFiles :=
  { files with
    documents := files.documents.filter fun row => !statement.removes files.project.id row }

/-- `assets_persistence::upsert`: an asset at the path keeps its identifier. -/
def upsertAsset (files : ProjectFiles) (row : ProjectAssetRow) :
    Except FileMutationError ProjectFiles :=
  if !(isStorableText row.path && isStorableText row.contentType) then .error .persistence
  else if files.assets.any (·.path = row.path) then
    .ok { files with
      assets := updateWhere (·.path = row.path) (fun old => { row with id := old.id }) files.assets }
  else .ok { files with assets := files.assets ++ [row] }

/-- `settings_persistence::ensure`. -/
def ensureSettings (files : ProjectFiles) : ProjectSettingsRow :=
  files.settings.getD
    { entryFilePath := files.projectType.defaultEntryFilePath
      latexEngine := files.projectType.defaultLatexEngine
      settingsRevision := 0 }

/-- `update_entry_file_path`, after `ensure`. -/
def updateEntryFilePath (files : ProjectFiles) (entryFilePath : Text) : ProjectFiles :=
  let settings := files.ensureSettings
  { files with
    settings := some
      { settings with entryFilePath, settingsRevision := settings.settingsRevision + 1 } }

def updateLatexEngine (files : ProjectFiles) (engine : LatexEngine) : ProjectFiles :=
  let settings := files.ensureSettings
  { files with
    settings := some
      { settings with
        latexEngine := some engine
        settingsRevision := settings.settingsRevision + 1 } }

/-- `files_persistence::move_subtree`; the flag is `counts.changed()`. -/
def moveSubtree (files : ProjectFiles) (fromPath toPath : Text) :
    Except FileMutationError (ProjectFiles × Bool) := do
  let moved := fun path => if pathInSubtree fromPath path then pathMovedTo fromPath toPath path else path
  let directories := files.directories.map moved
  let assets := files.assets.map fun row => { row with path := moved row.path }
  let (written, documents) ← files.writeDocuments (.moveSubtree fromPath toPath)
  if !decide directories.Nodup || !decide (assets.map ProjectAssetRow.path).Nodup then
    .error .pathConflict
  else
    return ({ written with directories, assets },
      files.directories.any (pathInSubtree fromPath) || !documents.isEmpty
        || files.assets.any fun row => pathInSubtree fromPath row.path)

/-- `files_persistence::delete_subtree`. -/
def deleteSubtree (files : ProjectFiles) (path : Text) : ProjectFiles × Bool :=
  let deleted := files.deleteDocuments (.subtree path)
  ({ deleted with
      directories := files.directories.filter fun directory => !pathInSubtree path directory
      assets := files.assets.filter fun row => !pathInSubtree path row.path },
    files.directories.any (pathInSubtree path)
      || files.documents.any (DocumentDelete.removes (.subtree path) files.project.id)
      || files.assets.any fun row => pathInSubtree path row.path)

end ProjectFiles

/-! ## Documents -/

def createDocument (files : ProjectFiles) (path content : Text) :
    Except FileMutationError ProjectFiles := do
  let (written, _) ← files.drawn.writeDocuments (.insert files.nextId path content)
  return written.markDirty

def upsertDocumentByPath (files : ProjectFiles) (path content : Text) (expectedContentEpoch : Int) :
    Except FileMutationError ProjectFiles :=
  if files.project.contentEpoch = expectedContentEpoch then do
    let (written, _) ← files.drawn.writeDocuments (.upsertByPath files.nextId path content)
    return written.markDirty
  else .error .contentEpochChanged

def updateDocument (files : ProjectFiles) (documentId : Uuid) (expectedContentEpoch : Int)
    (expectedPathRevision expectedCollaborationRevision : Int) (content : Text) :
    Except FileMutationError ProjectFiles :=
  if files.project.contentEpoch = expectedContentEpoch then do
    let (written, changed) ← files.writeDocuments
      (.updateContent documentId expectedPathRevision expectedCollaborationRevision content)
    if changed.isEmpty then
      .error (if files.documents.any fun row => row.id = documentId then .documentRevisionChanged
        else .documentNotFound)
    else return written.markDirty
  else .error .contentEpochChanged

def deleteDocument (files : ProjectFiles) (documentId : Uuid) :
    Except FileMutationError ProjectFiles :=
  match files.documents.find? (·.id = documentId) with
  | none => .error .documentNotFound
  | some document =>
    if files.entryPoint = document.path then .error .entryFileDeletion
    else .ok (files.deleteDocuments (.byId documentId)).markDirty

/-! ## Files -/

/-- What `create_project_file` prepares before its transaction. -/
def prepareProjectFile (kind : ProjectFileKind) (path content : Text) (object : StoredObject) :
    PreparedProjectFile :=
  match kind with
  | .directory => .directory
  | .file => if isDocumentTextPath path then .text content else .asset object

def createPrepared (files : ProjectFiles) (path : Text) :
    PreparedProjectFile → Except FileMutationError ProjectFiles
  | .directory =>
    if path ∈ files.directories then .ok files
    else if isStorableText path then
      .ok { files with directories := files.directories ++ [path] }.markDirty
    else .error .persistence
  | .text content => do
    let (written, _) ← files.drawn.writeDocuments (.upsertByPath files.nextId path content)
    return { written with assets := written.assets.filter (·.path ≠ path) }.markDirty
  | .asset object => do
    let written ← files.drawn.upsertAsset
      { id := files.nextId
        path
        contentRevision := files.nextId
        objectKey := object.objectKey
        contentType := object.contentType
        sizeBytes := 0
        inlineData := object.inlineData }
    return (written.deleteDocuments (.atPath path)).markDirty

def createProjectFile (files : ProjectFiles) (path : Text) (kind : ProjectFileKind)
    (content : Text) (object : StoredObject) : Except FileMutationError ProjectFiles :=
  createPrepared files path (prepareProjectFile kind path content object)

def moveProjectFile (files : ProjectFiles) (fromPath toPath : Text) :
    Except FileMutationError ProjectFiles :=
  let movedEntry := movePathWithSubtree files.entryPoint fromPath toPath
  if movedEntry.any fun path => !files.projectType.acceptsEntryFilePath path then
    .error .entryFileTypeMismatch
  else do
    let (moved, changed) ← files.moveSubtree fromPath toPath
    if changed then return (movedEntry.elim moved moved.updateEntryFilePath).markDirty
    else return moved

def deleteProjectFile (files : ProjectFiles) (path : Text) :
    Except FileMutationError ProjectFiles :=
  if pathIsInSubtree files.entryPoint path then .error .entryFileDeletion
  else
    let (deleted, changed) := files.deleteSubtree path
    .ok (if changed then deleted.markDirty else deleted)

/-! ## Assets -/

/-- The object is stored under a key that the content revision makes. -/
def uploadProjectAsset (files : ProjectFiles) (path : Text) (object : StoredObject) :
    Except FileMutationError ProjectFiles := do
  let written ← files.drawn.drawn.upsertAsset
    { id := files.nextId
      path
      contentRevision := files.nextId + 1
      objectKey := object.objectKey
      contentType := object.contentType
      sizeBytes := object.sizeBytes
      inlineData := object.inlineData }
  return written.markDirty

def deleteProjectAsset (files : ProjectFiles) (assetId : Uuid) :
    Except FileMutationError ProjectFiles :=
  if files.assets.any (·.id = assetId) then
    .ok { files with assets := files.assets.filter (·.id ≠ assetId) }.markDirty
  else .error .assetNotFound

/-! ## Settings and replacement -/

def changeProjectSetting (files : ProjectFiles) :
    ProjectSettingChange → Except FileMutationError ProjectFiles
  | .entryFilePath path =>
    if !files.projectType.acceptsEntryFilePath path then .error .entryFileTypeMismatch
    else if !files.documents.any (·.path = path) then .error .entryFileNotFound
    else .ok (files.updateEntryFilePath path).markDirty
  | .latexEngine engine =>
    if files.projectType ≠ .latex then .error .latexEngineNotApplicable
    else .ok (files.updateLatexEngine engine).markDirty

/-- `get_or_create_project_settings`. -/
def getOrCreateProjectSettings (files : ProjectFiles) : ProjectFiles :=
  { files with settings := some files.ensureSettings }

structure ReplacementAsset where
  path : Text
  object : StoredObject
deriving DecidableEq, Repr

structure ContentReplacement where
  expectedWorkspaceVersion : Option Int
  documents : List WorkspaceDocument
  directories : List Text
  assets : List ReplacementAsset
  entryFilePath : Text
deriving DecidableEq, Repr

def insertDocument (files : ProjectFiles) (document : WorkspaceDocument) :
    Except FileMutationError ProjectFiles := do
  let (written, _) ← files.drawn.writeDocuments
    (.insert files.nextId document.path document.content)
  return written

def insertAsset (files : ProjectFiles) (asset : ReplacementAsset) :
    Except FileMutationError ProjectFiles :=
  if files.assets.any (·.path = asset.path) then .error .pathConflict
  else files.drawn.upsertAsset
    { id := files.nextId
      path := asset.path
      contentRevision := files.nextId
      objectKey := asset.object.objectKey
      contentType := asset.object.contentType
      sizeBytes := asset.object.sizeBytes
      inlineData := asset.object.inlineData }

def insertDirectory (files : ProjectFiles) (path : Text) : Except FileMutationError ProjectFiles :=
  if path ∈ files.directories then .error .pathConflict
  else if isStorableText path then .ok { files with directories := files.directories ++ [path] }
  else .error .persistence

def ProjectFiles.emptied (files : ProjectFiles) : ProjectFiles :=
  { files with documents := [], directories := [], assets := [] }

/-- `replace_project_content`. -/
def replaceContent (files : ProjectFiles) (content : ContentReplacement) :
    Except FileMutationError ProjectFiles :=
  if content.expectedWorkspaceVersion.any (· ≠ files.project.workspaceVersion) then
    .error .workspaceVersionChanged
  else if !files.projectType.acceptsEntryFilePath content.entryFilePath
      || !content.documents.any (fun document => document.path = content.entryFilePath) then
    .error .invalidEntryFile
  else do
    let withDocuments ← content.documents.foldlM insertDocument files.emptied
    let withAssets ← content.assets.foldlM insertAsset withDocuments
    let filled ← content.directories.foldlM insertDirectory withAssets
    let entered := filled.updateEntryFilePath content.entryFilePath
    .ok { entered with
      project :=
        { entered.project with
          workspaceVersion := entered.project.workspaceVersion + 1
          contentEpoch := entered.project.contentEpoch + 1 } }

/-! ## All of them -/

inductive FileAction
  | createDocument (path content : Text)
  | upsertDocumentByPath (path content : Text) (expectedContentEpoch : Int)
  | updateDocument (documentId : Uuid) (expectedContentEpoch : Int)
      (expectedPathRevision expectedCollaborationRevision : Int) (content : Text)
  | deleteDocument (documentId : Uuid)
  | createProjectFile (path : Text) (kind : ProjectFileKind) (content : Text)
      (object : StoredObject)
  | moveProjectFile (fromPath toPath : Text)
  | deleteProjectFile (path : Text)
  | uploadProjectAsset (path : Text) (object : StoredObject)
  | deleteProjectAsset (assetId : Uuid)
  | changeProjectSetting (change : ProjectSettingChange)
  | getOrCreateProjectSettings
  | replaceContent (content : ContentReplacement)
deriving DecidableEq, Repr

def ProjectFiles.execute (files : ProjectFiles) :
    FileAction → Except FileMutationError ProjectFiles
  | .createDocument path content => Workspace.createDocument files path content
  | .upsertDocumentByPath path content expectedContentEpoch =>
    Workspace.upsertDocumentByPath files path content expectedContentEpoch
  | .updateDocument documentId expectedContentEpoch expectedPathRevision
      expectedCollaborationRevision content =>
    Workspace.updateDocument files documentId expectedContentEpoch expectedPathRevision
      expectedCollaborationRevision content
  | .deleteDocument documentId => Workspace.deleteDocument files documentId
  | .createProjectFile path kind content object =>
    Workspace.createProjectFile files path kind content object
  | .moveProjectFile fromPath toPath => Workspace.moveProjectFile files fromPath toPath
  | .deleteProjectFile path => Workspace.deleteProjectFile files path
  | .uploadProjectAsset path object => Workspace.uploadProjectAsset files path object
  | .deleteProjectAsset assetId => Workspace.deleteProjectAsset files assetId
  | .changeProjectSetting change => Workspace.changeProjectSetting files change
  | .getOrCreateProjectSettings => .ok (Workspace.getOrCreateProjectSettings files)
  | .replaceContent content => Workspace.replaceContent files content

/-! ## The content epoch -/

/-- The operation exchanges the content of the project as a whole. -/
def FileAction.Replaces : FileAction → Prop
  | .replaceContent _ => True
  | _ => False

variable {files next : ProjectFiles}

/-- What a writing statement that goes through does. -/
theorem ProjectFiles.writeDocuments_ok {statement : DocumentWrite} {changed : List DocumentRow}
    (h : files.writeDocuments statement = .ok (next, changed)) :
    changed = (files.changedDocuments statement).1
      ∧ next = { files with
        documents := files.documentsWith changed
        nextChangeSequence := (files.changedDocuments statement).2 }
      ∧ changed.all Feed.isStorable = true ∧ Feed.pathsUnique next.documents = true := by
  unfold writeDocuments at h
  dsimp only at h
  split at h
  · cases h
  next hstorable =>
  split at h
  · cases h
  next hunique =>
  cases h
  exact ⟨rfl, rfl, by simpa using hstorable, by simpa using hunique⟩

theorem ProjectFiles.writeDocuments_project {statement : DocumentWrite} {changed : List DocumentRow}
    (h : files.writeDocuments statement = .ok (next, changed)) : next.project = files.project := by
  rcases writeDocuments_ok h with ⟨-, rfl, -⟩
  rfl

/-- An upsert leaves the other assets, and the one that it leaves last is at its path. -/
theorem ProjectFiles.upsertAsset_ok {row : ProjectAssetRow} (h : files.upsertAsset row = .ok next) :
    next = { files with assets := next.assets }
      ∧ ∀ asset ∈ next.assets, asset ∈ files.assets ∨ asset.path = row.path := by
  unfold upsertAsset at h
  split at h
  · cases h
  split at h
  · cases h
    refine ⟨rfl, fun asset hasset => ?_⟩
    rcases mem_updateWhere.mp hasset with ⟨old, hold, ⟨-, rfl⟩ | ⟨-, rfl⟩⟩
    · exact .inr rfl
    · exact .inl hold
  · cases h
    refine ⟨rfl, fun asset hasset => ?_⟩
    rcases List.mem_append.mp hasset with hold | hnew
    · exact .inl hold
    · exact .inr (by rw [List.mem_singleton.mp hnew])

theorem ProjectFiles.upsertAsset_project {row : ProjectAssetRow}
    (h : files.upsertAsset row = .ok next) : next.project = files.project := by
  rw [(upsertAsset_ok h).1]

theorem ProjectFiles.moveSubtree_project {fromPath toPath : Text} {changed : Bool}
    (h : files.moveSubtree fromPath toPath = .ok (next, changed)) :
    next.project = files.project := by
  unfold moveSubtree at h
  rcases bind_eq_ok.mp h with ⟨⟨written, documents⟩, hwrite, h⟩
  dsimp only at h
  split at h
  · cases h
  · cases h
    show written.project = _
    exact writeDocuments_project hwrite

end Toss.Workspace
