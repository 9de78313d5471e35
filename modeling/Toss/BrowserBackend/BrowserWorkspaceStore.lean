import Toss.BrowserBackend.BrowserPaths
import Toss.Foundation.Table
import Toss.Web.WorkspaceSession
import Toss.Workspace.ProjectModel
import Mathlib.Order.BoundedOrder.Basic
import Mathlib.Order.Lattice

/-!
# The projects of a browser

`browserWorkspaceStore.ts` over the object stores of `browserDatabase.ts`. Every operation is
one IndexedDB transaction: it commits all its writes, or throws and leaves the stores as they
were. Primary keys are drawn and never drawn again; how they compare is the platform's.

* `BrowserDatabase` — the object stores of projects, documents and assets;
* `createSeededProject`, `copyProject`, `createFile`, `moveTree`, `deletePath`, `upsertText`,
  `uploadAsset`, `updateEntryFile`, `mergeDocumentUpdate` — the operations;
* `loadWorkspace` — what a bootstrap and a delta show;
* `transact` — an operation as a transaction.
-/

namespace Toss.BrowserBackend

open Toss.Foundation Toss.Workspace Toss.Web

/-! ## Records -/

structure StoredBrowserProject where
  id : Uuid
  name : Text
  projectType : ProjectType
  latexEngine : Option LatexEngine
  entryFilePath : Text
  settingsRevision : Int
  contentEpoch : Int
  documentsChangeSequence : Int
  directories : List Text
deriving DecidableEq, Repr

structure StoredBrowserDocument (Y : Type) where
  id : Uuid
  projectId : Uuid
  path : Text
  content : Text
  yUpdate : Y
  pathRevision : Int
  collaborationRevision : Int
  changeSequence : Int
deriving DecidableEq, Repr

structure StoredBrowserAsset where
  id : Uuid
  projectId : Uuid
  path : Text
  contentRevision : Uuid
  contentType : Text
  createdAt : Text
  bytes : Bytes
deriving DecidableEq, Repr

structure BrowserDatabase (Y : Type) where
  /-- The next key that `crypto.randomUUID` draws. -/
  nextId : Uuid
  projects : List StoredBrowserProject
  documents : List (StoredBrowserDocument Y)
  assets : List StoredBrowserAsset
deriving DecidableEq, Repr

/-- What the store calls of the browser and of Yjs. -/
structure BrowserPlatform (Y : Type) where
  /-- The order of the primary keys in an index. -/
  rank : Uuid → Nat
  uuidText : Uuid → Text
  /-- The time at which a key was drawn. -/
  clock : Uuid → Text
  /-- `left.localeCompare(right) <= 0`. -/
  localeLe : Text → Text → Bool
  /-- A new document, under a client of its own, with a text inserted. -/
  insertText : Uuid → Text → Y
  /-- The string of the shared text `"main"`. -/
  textOf : Y → Text
  textOf_insertText : ∀ client content, textOf (insertText client content) = content

inductive BrowserTemplateContent
  | text (content : Text)
  /-- `none` stands for a text that is not Base64. -/
  | base64 (bytes : Option Bytes) (contentType : Text)
deriving DecidableEq, Repr

structure BrowserTemplateFile where
  path : Text
  content : BrowserTemplateContent
deriving DecidableEq, Repr

structure BrowserProjectSeed where
  projectType : ProjectType
  latexEngine : Option LatexEngine
  entryFilePath : Text
  files : List BrowserTemplateFile
deriving DecidableEq, Repr

structure CreateProjectFileInput where
  kind : ProjectFileKind
  path : Text
  content : Option Text
deriving DecidableEq, Repr

structure UploadAssetInput where
  path : Text
  content : Option Bytes
  contentType : Option Text
deriving DecidableEq, Repr

variable {Y : Type}

/-! ## Object stores -/

namespace BrowserDatabase

def drawn (db : BrowserDatabase Y) : BrowserDatabase Y :=
  { db with nextId := db.nextId + 1 }

def getProject (db : BrowserDatabase Y) (projectId : Uuid) :
    Except BrowserStoreError StoredBrowserProject :=
  match db.projects.find? (·.id = projectId) with
  | some project => .ok project
  | none => .error .projectNotFound

def putProject (db : BrowserDatabase Y) (row : StoredBrowserProject) : BrowserDatabase Y :=
  { db with projects := upsertRow StoredBrowserProject.id row db.projects }

/-- `put` under the unique index `projectPath`. -/
def putDocument (db : BrowserDatabase Y) (row : StoredBrowserDocument Y) :
    Except BrowserStoreError (BrowserDatabase Y) :=
  if db.documents.any fun other =>
      other.id ≠ row.id && other.projectId = row.projectId && other.path = row.path then
    .error .constraint
  else .ok { db with documents := upsertRow StoredBrowserDocument.id row db.documents }

def putAsset (db : BrowserDatabase Y) (row : StoredBrowserAsset) :
    Except BrowserStoreError (BrowserDatabase Y) :=
  if db.assets.any fun other =>
      other.id ≠ row.id && other.projectId = row.projectId && other.path = row.path then
    .error .constraint
  else .ok { db with assets := upsertRow StoredBrowserAsset.id row db.assets }

def deleteDocument (db : BrowserDatabase Y) (id : Uuid) : BrowserDatabase Y :=
  { db with documents := db.documents.filter (·.id ≠ id) }

def deleteAsset (db : BrowserDatabase Y) (id : Uuid) : BrowserDatabase Y :=
  { db with assets := db.assets.filter (·.id ≠ id) }

/-- `getAllByIndex(documents, "projectId", …)`. -/
def documentsOf (platform : BrowserPlatform Y) (db : BrowserDatabase Y) (projectId : Uuid) :
    List (StoredBrowserDocument Y) :=
  orderBy (fun row => platform.rank row.id) (db.documents.filter (·.projectId = projectId))

def assetsOf (platform : BrowserPlatform Y) (db : BrowserDatabase Y) (projectId : Uuid) :
    List StoredBrowserAsset :=
  orderBy (fun row => platform.rank row.id) (db.assets.filter (·.projectId = projectId))

/-- `getRecord(documents.index("projectPath"), …)`. -/
def documentAt (db : BrowserDatabase Y) (projectId : Uuid) (path : Text) :
    Option (StoredBrowserDocument Y) :=
  db.documents.find? fun row => row.projectId = projectId && row.path = path

def assetAt (db : BrowserDatabase Y) (projectId : Uuid) (path : Text) :
    Option StoredBrowserAsset :=
  db.assets.find? fun row => row.projectId = projectId && row.path = path

end BrowserDatabase

/-! ## Creating projects -/

def projectName (value : Text) : Except BrowserStoreError Text :=
  let normalized := trimBlanks value
  if normalized.isEmpty || 200 < (normalized.flatMap codeUnits).length then
    .error .projectNameInvalid
  else .ok normalized

def seedFiles (seed : BrowserProjectSeed) : List BrowserTemplateFile :=
  if seed.files.any (·.path = seed.entryFilePath) then seed.files
  else ⟨seed.entryFilePath, .text []⟩ :: seed.files

variable [SemilatticeSup Y] [OrderBot Y] (platform : BrowserPlatform Y)

def stateForText (client : Uuid) (content : Text) : Y :=
  if content.isEmpty then ⊥ else platform.insertText client content

/-- What the loop over the files of a seed has so far. -/
structure SeedLoop (Y : Type) where
  db : BrowserDatabase Y
  documentsChangeSequence : Int
  paths : List Text
  directories : List Text

def seedFile (projectId : Uuid) (loop : SeedLoop Y) (file : BrowserTemplateFile) :
    Except BrowserStoreError (SeedLoop Y) := do
  let path ← validPath file.path
  if path ∈ loop.paths then .error .projectPathConflict
  else
    let paths := path :: loop.paths
    let directories := loop.directories ++ ancestors path
    match file.content with
    | .text content =>
      let changeSequence := loop.documentsChangeSequence + 1
      let db ← loop.db.drawn.putDocument
        { id := loop.db.nextId
          projectId
          path
          content
          yUpdate := stateForText platform loop.db.nextId content
          pathRevision := 0
          collaborationRevision := 0
          changeSequence }
      return ⟨db, changeSequence, paths, directories⟩
    | .base64 bytes contentType =>
      match bytes with
      | none => .error .invalidBase64
      | some bytes =>
        let db ← loop.db.drawn.putAsset
          { id := loop.db.nextId
            projectId
            path
            contentRevision := loop.db.nextId
            contentType
            createdAt := platform.clock loop.db.nextId
            bytes }
        return ⟨db, loop.documentsChangeSequence, paths, directories⟩

def createSeededProject (db : BrowserDatabase Y) (name : Text) (seed : BrowserProjectSeed) :
    Except BrowserStoreError (BrowserDatabase Y) := do
  let id := db.nextId
  let name ← projectName name
  let entryFilePath ← validPath seed.entryFilePath
  let normalizedFiles ← (seedFiles seed).mapM fun file =>
    (validPath file.path).map fun path => { file with path }
  validatePathNamespace [] (normalizedFiles.map (·.path))
  let loop ← normalizedFiles.foldlM (seedFile platform id) ⟨db.drawn, 0, [], []⟩
  return loop.db.putProject
    { id
      name
      projectType := seed.projectType
      latexEngine :=
        if seed.projectType = .latex then some (seed.latexEngine.getD .xetex) else none
      entryFilePath
      settingsRevision := 0
      contentEpoch := 1
      documentsChangeSequence := loop.documentsChangeSequence
      directories := sortTexts loop.directories.dedup }

def copyDocument (projectId : Uuid) (db : BrowserDatabase Y) (document : StoredBrowserDocument Y) :
    Except BrowserStoreError (BrowserDatabase Y) :=
  db.drawn.putDocument { document with id := db.nextId, projectId }

def copyAsset (projectId : Uuid) (db : BrowserDatabase Y) (asset : StoredBrowserAsset) :
    Except BrowserStoreError (BrowserDatabase Y) :=
  db.drawn.putAsset
    { asset with
      id := db.nextId
      projectId
      contentRevision := db.nextId
      createdAt := platform.clock db.nextId }

def copyProject (db : BrowserDatabase Y) (sourceProjectId : Uuid) (name : Text) :
    Except BrowserStoreError (BrowserDatabase Y) := do
  let source ← db.getProject sourceProjectId
  let documents := db.documentsOf platform sourceProjectId
  let assets := db.assetsOf platform sourceProjectId
  let projectId := db.nextId
  let name ← projectName name
  let copied := db.drawn.putProject { source with id := projectId, name }
  let copied ← documents.foldlM (copyDocument projectId) copied
  assets.foldlM (copyAsset platform projectId) copied

/-! ## The tree -/

def createFile (db : BrowserDatabase Y) (projectId : Uuid) (input : CreateProjectFileInput) :
    Except BrowserStoreError (BrowserDatabase Y) := do
  let path ← validPath input.path
  let project ← db.getProject projectId
  let documentPaths := (db.documentsOf platform projectId).map (·.path)
  let assetPaths := (db.assetsOf platform projectId).map (·.path)
  let filePaths := if input.kind = .file then [path] else []
  let nextDirectories ← normalizedDirectories
    (if input.kind = .directory then project.directories ++ [path] else project.directories)
    filePaths
  if path ∈ documentPaths || path ∈ assetPaths || path ∈ project.directories then
    .error .projectPathConflict
  else
    validatePathNamespace nextDirectories (documentPaths ++ assetPaths ++ filePaths)
    let nextProject :=
      { project with directories := nextDirectories, contentEpoch := project.contentEpoch + 1 }
    match input.kind with
    | .file =>
      let content := input.content.getD []
      let changeSequence := project.documentsChangeSequence + 1
      let next ← db.drawn.putDocument
        { id := db.nextId
          projectId
          path
          content
          yUpdate := stateForText platform db.nextId content
          pathRevision := 0
          collaborationRevision := 0
          changeSequence }
      return next.putProject { nextProject with documentsChangeSequence := changeSequence }
    | .directory => return db.putProject nextProject

/-- The loop of `movePath` over the documents, with the sequence. -/
def moveDocument (fromPath toPath : Text) (loop : BrowserDatabase Y × Int)
    (document : StoredBrowserDocument Y) : Except BrowserStoreError (BrowserDatabase Y × Int) :=
  if within document.path fromPath then do
    let db ← loop.1.putDocument
      { document with
        path := movePath document.path fromPath toPath
        pathRevision := document.pathRevision + 1
        changeSequence := loop.2 + 1 }
    return (db, loop.2 + 1)
  else .ok loop

def moveAsset (fromPath toPath : Text) (db : BrowserDatabase Y) (asset : StoredBrowserAsset) :
    Except BrowserStoreError (BrowserDatabase Y) :=
  if within asset.path fromPath then
    db.putAsset { asset with path := movePath asset.path fromPath toPath }
  else .ok db

/-- The paths within a path, moved. -/
def movedIn (fromPath toPath : Text) (paths : List Text) : List Text :=
  paths.map fun path => if within path fromPath then movePath path fromPath toPath else path

/-- `BrowserWorkspaceStore.movePath`. -/
def moveTree (db : BrowserDatabase Y) (projectId : Uuid) (fromValue toValue : Text) :
    Except BrowserStoreError (BrowserDatabase Y) := do
  let fromPath ← validPath fromValue
  let toPath ← validPath toValue
  if fromPath = toPath then return db
  else
    let project ← db.getProject projectId
    let documents := db.documentsOf platform projectId
    let assets := db.assetsOf platform projectId
    let documentPaths := documents.map (·.path)
    let assetPaths := assets.map (·.path)
    let paths := project.directories ++ documentPaths ++ assetPaths
    if !paths.any (within · fromPath) then .error .notFound
    else if within toPath fromPath then .error .projectPathInvalid
    else
      let externalPaths := paths.filter (!within · fromPath)
      let movedPaths := (paths.filter (within · fromPath)).map (movePath · fromPath toPath)
      if movedPaths.any (· ∈ externalPaths) then .error .projectPathConflict
      else
        let nextDirectories ←
          normalizedDirectories (movedIn fromPath toPath project.directories) movedPaths
        validatePathNamespace nextDirectories
          (movedIn fromPath toPath documentPaths ++ movedIn fromPath toPath assetPaths)
        let loop ← documents.foldlM (moveDocument fromPath toPath)
          (db, project.documentsChangeSequence)
        let moved ← assets.foldlM (moveAsset fromPath toPath) loop.1
        return moved.putProject
          { project with
            entryFilePath :=
              if within project.entryFilePath fromPath then
                movePath project.entryFilePath fromPath toPath
              else project.entryFilePath
            settingsRevision :=
              if within project.entryFilePath fromPath then project.settingsRevision + 1
              else project.settingsRevision
            documentsChangeSequence := loop.2
            directories := nextDirectories
            contentEpoch := project.contentEpoch + 1 }

/-- `/\.(?:typ|tex)$/i`. -/
def isEntryCandidate (path : Text) : Bool :=
  [['.', 't', 'y', 'p'], ['.', 't', 'e', 'x']].any fun extension =>
    extension.isSuffixOf (path.map toAsciiLowercase)

def deletePath (db : BrowserDatabase Y) (projectId : Uuid) (value : Text) :
    Except BrowserStoreError (BrowserDatabase Y) := do
  let path ← validPath value
  let project ← db.getProject projectId
  let documents := db.documentsOf platform projectId
  let assets := db.assetsOf platform projectId
  let removedDocuments := documents.filter fun document => within document.path path
  let removedAssets := assets.filter fun asset => within asset.path path
  if removedDocuments.isEmpty && removedAssets.isEmpty
      && !project.directories.any (within · path) then .error .notFound
  else
    let remaining := (documents.filter fun document => !within document.path path).map (·.path)
    let remainingPaths :=
      remaining ++ (assets.filter fun asset => !within asset.path path).map (·.path)
    let entryRemoved := within project.entryFilePath path
    let directories ←
      normalizedDirectories (project.directories.filter (!within · path)) remainingPaths
    let deleted := removedAssets.foldl (fun db asset => db.deleteAsset asset.id)
      (removedDocuments.foldl (fun db document => db.deleteDocument document.id) db)
    return deleted.putProject
      { project with
        entryFilePath :=
          if entryRemoved then (remaining.find? isEntryCandidate).getD project.entryFilePath
          else project.entryFilePath
        settingsRevision :=
          if entryRemoved then project.settingsRevision + 1 else project.settingsRevision
        directories
        contentEpoch := project.contentEpoch + 1 }

/-! ## Content -/

/-- The paths of a project's files, less the document and the asset that are replaced. -/
def otherFilePaths (db : BrowserDatabase Y) (projectId : Uuid) (documentId assetId : Option Uuid) :
    List Text :=
  ((db.documentsOf platform projectId).filter (some ·.id ≠ documentId)).map (·.path)
    ++ ((db.assetsOf platform projectId).filter (some ·.id ≠ assetId)).map (·.path)

def upsertText (db : BrowserDatabase Y) (projectId : Uuid) (value content : Text)
    (expectedContentEpoch : Option Int) :
    Except BrowserStoreError (BrowserDatabase Y × StoredBrowserDocument Y) := do
  let path ← validPath value
  let project ← db.getProject projectId
  if expectedContentEpoch.any (· ≠ project.contentEpoch) then .error .projectContentChanged
  else
    let existing := db.documentAt projectId path
    let replacedAsset := db.assetAt projectId path
    if path ∈ project.directories then .error .projectPathConflict
    else
      let nextFilePaths :=
        otherFilePaths platform db projectId (existing.map (·.id)) (replacedAsset.map (·.id))
          ++ [path]
      let nextDirectories ← normalizedDirectories project.directories [path]
      validatePathNamespace nextDirectories nextFilePaths
      let kept := replacedAsset.elim db fun asset => db.deleteAsset asset.id
      let changeSequence := project.documentsChangeSequence + 1
      let changed : StoredBrowserDocument Y :=
        { id := (existing.map (·.id)).getD db.nextId
          projectId
          path
          content
          yUpdate := stateForText platform db.nextId content
          pathRevision := (existing.map (·.pathRevision)).getD 0
          collaborationRevision := (existing.map (·.collaborationRevision)).getD (-1) + 1
          changeSequence }
      let next ← kept.drawn.putDocument changed
      return (next.putProject
        { project with
          directories := nextDirectories
          contentEpoch :=
            if existing.isSome && replacedAsset.isNone then project.contentEpoch
            else project.contentEpoch + 1
          documentsChangeSequence := changeSequence }, changed)

def uploadAsset (db : BrowserDatabase Y) (projectId : Uuid) (input : UploadAssetInput) :
    Except BrowserStoreError (BrowserDatabase Y) := do
  let path ← validPath input.path
  match input.content with
  | none => .error .invalidBase64
  | some bytes =>
    let project ← db.getProject projectId
    let replacedDocument := db.documentAt projectId path
    let existing := db.assetAt projectId path
    if path ∈ project.directories then .error .projectPathConflict
    else
      let nextFilePaths :=
        otherFilePaths platform db projectId (replacedDocument.map (·.id)) (existing.map (·.id))
          ++ [path]
      let nextDirectories ← normalizedDirectories project.directories [path]
      validatePathNamespace nextDirectories nextFilePaths
      let kept := replacedDocument.elim db fun document => db.deleteDocument document.id
      let next ← kept.drawn.putAsset
        { id := (existing.map (·.id)).getD db.nextId
          projectId
          path
          contentRevision := db.nextId
          contentType := input.contentType.getD "application/octet-stream".toList
          createdAt := platform.clock db.nextId
          bytes }
      return next.putProject
        { project with
          directories := nextDirectories
          contentEpoch :=
            if existing.isSome && replacedDocument.isNone then project.contentEpoch
            else project.contentEpoch + 1 }

omit [SemilatticeSup Y] [OrderBot Y] in
def updateEntryFile (db : BrowserDatabase Y) (projectId : Uuid) (value : Text) :
    Except BrowserStoreError (BrowserDatabase Y) := do
  let entryFilePath ← validPath value
  let project ← db.getProject projectId
  return db.putProject
    { project with entryFilePath, settingsRevision := project.settingsRevision + 1 }

def loadDocumentState (db : BrowserDatabase Y) (projectId documentId : Uuid) :
    Except BrowserStoreError (StoredBrowserDocument Y) :=
  match db.documents.find? (·.id = documentId) with
  | none => .error .projectDocumentNotFound
  | some document =>
    if document.projectId = projectId then .ok document else .error .projectDocumentNotFound

def mergeDocumentUpdate (db : BrowserDatabase Y) (projectId documentId : Uuid) (update : Y) :
    Except BrowserStoreError (BrowserDatabase Y × StoredBrowserDocument Y) := do
  let project ← db.getProject projectId
  let document ← loadDocumentState db projectId documentId
  let merged := document.yUpdate ⊔ update
  let changed :=
    { document with
      content := platform.textOf merged
      yUpdate := merged
      changeSequence := project.documentsChangeSequence + 1 }
  let next ← db.putDocument changed
  return (next.putProject { project with documentsChangeSequence := changed.changeSequence },
    changed)

/-! ## Transactions -/

inductive BrowserAction (Y : Type)
  | createSeededProject (name : Text) (seed : BrowserProjectSeed)
  | copyProject (sourceProjectId : Uuid) (name : Text)
  | createFile (projectId : Uuid) (input : CreateProjectFileInput)
  | movePath (projectId : Uuid) (fromPath toPath : Text)
  | deletePath (projectId : Uuid) (path : Text)
  | upsertText (projectId : Uuid) (path content : Text) (expectedContentEpoch : Option Int)
  | uploadAsset (projectId : Uuid) (input : UploadAssetInput)
  | updateEntryFile (projectId : Uuid) (entryFilePath : Text)
  | mergeDocumentUpdate (projectId documentId : Uuid) (update : Y)

def BrowserDatabase.execute (db : BrowserDatabase Y) :
    BrowserAction Y → Except BrowserStoreError (BrowserDatabase Y)
  | .createSeededProject name seed => BrowserBackend.createSeededProject platform db name seed
  | .copyProject sourceProjectId name =>
    BrowserBackend.copyProject platform db sourceProjectId name
  | .createFile projectId input => BrowserBackend.createFile platform db projectId input
  | .movePath projectId fromPath toPath => moveTree platform db projectId fromPath toPath
  | .deletePath projectId path => BrowserBackend.deletePath platform db projectId path
  | .upsertText projectId path content expectedContentEpoch =>
    (BrowserBackend.upsertText platform db projectId path content expectedContentEpoch).map
      Prod.fst
  | .uploadAsset projectId input => BrowserBackend.uploadAsset platform db projectId input
  | .updateEntryFile projectId entryFilePath =>
    BrowserBackend.updateEntryFile db projectId entryFilePath
  | .mergeDocumentUpdate projectId documentId update =>
    (BrowserBackend.mergeDocumentUpdate platform db projectId documentId update).map Prod.fst

/-- `withBrowserTransaction`: an operation that throws aborts its transaction. -/
def BrowserDatabase.transact (db : BrowserDatabase Y) (action : BrowserAction Y) :
    BrowserDatabase Y :=
  match db.execute platform action with
  | .ok next => next
  | .error _ => db

/-! ## Loading -/

/-- `loadWorkspace`; a delta has the documents after a sequence, and the whole tree. -/
def loadWorkspace (db : BrowserDatabase Y) (projectId : Uuid) (afterSequence : Option Int) :
    Except BrowserStoreError WorkspaceBootstrap := do
  let project ← db.getProject projectId
  let allDocuments := db.documentsOf platform projectId
  let assets := db.assetsOf platform projectId
  let documents := allDocuments.filter fun document =>
    afterSequence.all (· < document.changeSequence)
  let nodes := project.directories.map (ProjectFileNode.mk · .directory)
    ++ allDocuments.map (fun document => ⟨document.path, .file⟩)
    ++ assets.map (fun asset => ⟨asset.path, .file⟩)
  .ok
    { projectType := project.projectType
      latexEngine := project.latexEngine.getD .xetex
      entryFilePath := project.entryFilePath
      settingsRevision := project.settingsRevision
      nodes := nodes.insertionSort fun left right => platform.localeLe left.path right.path = true
      contentEpoch := project.contentEpoch
      documents := byName StoredBrowserDocument.path StoredBrowserDocument.content documents
      documentIdentities := byName StoredBrowserDocument.path
        (fun document => ⟨document.id, document.pathRevision, document.collaborationRevision⟩)
        documents
      documentsChangeSequence := some project.documentsChangeSequence
      assetMeta := byName StoredBrowserAsset.path
        (fun asset =>
          { id := asset.id
            contentRevision := platform.uuidText asset.contentRevision
            contentType := asset.contentType
            sizeBytes := asset.bytes.length
            createdAt := asset.createdAt })
        assets }

def loadBootstrap (db : BrowserDatabase Y) (projectId : Uuid) :
    Except BrowserStoreError WorkspaceBootstrap :=
  loadWorkspace platform db projectId none

def loadDelta (db : BrowserDatabase Y) (projectId : Uuid) (afterDocumentsChangeSequence : Int) :
    Except BrowserStoreError WorkspaceDelta :=
  loadWorkspace platform db projectId (some afterDocumentsChangeSequence)

end Toss.BrowserBackend
