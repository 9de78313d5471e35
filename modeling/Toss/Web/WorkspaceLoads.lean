import Toss.Foundation.Run
import Toss.Web.WorkspaceSession
import Toss.Workspace.DocumentPaths
import Toss.Workspace.FeedCompleteness

/-!
# A project and a browser session that loads it

`loaders.ts` against the server. A bootstrap or a delta is a set of reads that
run side by side, the document pages one after another; each read is a step of
its own and sees what is committed when it is made. The server's document
transactions take their steps in between.

* `Load` — the reads of one bootstrap or delta;
* `World` — one project and generation of content on the server, one session, its
  loads;
* `step` — a step of the server, a read, or an event of the session;
* `WorldStep`, `worldStep_of_eq` — all that a step can do.

No document of the session is dirty.
-/

namespace Toss.Web

open Toss.Foundation Toss.Workspace

/-! ## Loads -/

structure ProjectSettings where
  projectType : ProjectType
  entryFilePath : Text
  latexEngine : Option LatexEngine
  settingsRevision : Int
deriving DecidableEq, Repr

structure LoadedDocuments where
  documents : List DocumentRow
  changeSequence : Option Int
deriving DecidableEq, Repr

inductive LoadRequest
  | bootstrap (projectTypeHint : ProjectType) (canWrite : Bool)
  | delta (entryFilePath : Text) (afterDocumentsChangeSequence : Option Int)
deriving DecidableEq, Repr

/-- `documents` starts out empty at this cursor. -/
def LoadRequest.after : LoadRequest → Option Int
  | .bootstrap .. => none
  | .delta _ afterDocumentsChangeSequence => afterDocumentsChangeSequence

/-- What `load_tree` reads of the project itself. -/
structure TreeProject where
  projectType : ProjectType
  entryFilePath : Option Text
  contentEpoch : Int
deriving DecidableEq, Repr

/-- The reads of a load, `none` while one is not answered. -/
structure Load where
  generation : Text
  request : LoadRequest
  treeProject : Option TreeProject
  treeDocuments : Option (List Text)
  treeDirectories : Option (List Text)
  treeAssets : Option (List Text)
  settings : Option ProjectSettings
  loaded : LoadedDocuments
  hasMoreDocuments : Bool
  assets : Option (List ProjectAsset)
  /-- A bootstrap that found no file has read the tree and the documents again. -/
  hasReread : Bool
  isOver : Bool
deriving DecidableEq, Repr

namespace Load

def start (generation : Text) (request : LoadRequest) : Load where
  generation := generation
  request := request
  treeProject := none
  treeDocuments := none
  treeDirectories := none
  treeAssets := none
  settings := none
  loaded := { documents := [], changeSequence := request.after }
  hasMoreDocuments := true
  assets := none
  hasReread := false
  isOver := false

/-- The response of `get_project_tree`. -/
def tree (load : Load) : Option ProjectTreeResponse := do
  let project ← load.treeProject
  let documentPaths ← load.treeDocuments
  let directoryPaths ← load.treeDirectories
  let assetPaths ← load.treeAssets
  loadProjectTree
    { documentPaths := documentPaths
      directoryPaths := directoryPaths
      assetPaths := assetPaths
      entryFilePath := project.entryFilePath
      projectType := project.projectType
      contentEpoch := project.contentEpoch }

/-- One turn of `loadDocumentPages`; `none` when the cursor does not advance. -/
def takePage (load : Load) (page : DocumentPage) : Option Load :=
  let changeSequence := page.cursor <|> load.loaded.changeSequence
  if page.hasMore && changeSequence = load.loaded.changeSequence then none
  else some
    { load with
      loaded := { documents := load.loaded.documents ++ page.documents, changeSequence }
      hasMoreDocuments := page.hasMore }

/-- The tree and the documents are read again after the first file was made. -/
def reread (load : Load) : Load :=
  { load with
    treeProject := none
    treeDocuments := none
    treeDirectories := none
    treeAssets := none
    loaded := { documents := [], changeSequence := none }
    hasMoreDocuments := true
    hasReread := true }

/-- `canWrite && !tree.nodes.some((node) => node.kind === "file")`, before the file
is made. -/
def needsReread (load : Load) (tree : ProjectTreeResponse) : Bool :=
  match load.request with
  | .bootstrap _ canWrite => canWrite && !load.hasReread && (filePaths tree.nodes).isEmpty
  | .delta .. => false

def entryFilePath (load : Load) (tree : ProjectTreeResponse) (settings : ProjectSettings) : Text :=
  let default := settings.projectType.defaultEntryFilePath
  match load.request with
  | .bootstrap .. => orElse (orElse settings.entryFilePath tree.entryFilePath) default
  | .delta entryFilePath _ =>
    orElse (orElse (orElse settings.entryFilePath tree.entryFilePath) entryFilePath) default

def assemble (load : Load) (tree : ProjectTreeResponse) (settings : ProjectSettings)
    (assets : List ProjectAsset) : WorkspaceBootstrap where
  projectType := settings.projectType
  latexEngine := settings.latexEngine.getD .xetex
  entryFilePath := load.entryFilePath tree settings
  settingsRevision := settings.settingsRevision
  nodes := tree.nodes
  contentEpoch := tree.contentEpoch
  documents := mapDocumentsByPath load.loaded.documents
  documentIdentities := mapDocumentIdentitiesByPath load.loaded.documents
  documentsChangeSequence := load.loaded.changeSequence
  assetMeta := mapAssetMetaByPath assets

@[simp] theorem assemble_nodes (load : Load) (tree : ProjectTreeResponse)
    (settings : ProjectSettings) (assets : List ProjectAsset) :
    (load.assemble tree settings assets).nodes = tree.nodes := rfl

@[simp] theorem assemble_documents (load : Load) (tree : ProjectTreeResponse)
    (settings : ProjectSettings) (assets : List ProjectAsset) :
    (load.assemble tree settings assets).documents
      = mapDocumentsByPath load.loaded.documents := rfl

/-- What the load delivers once every read is answered. -/
def result (load : Load) : Option WorkspaceBootstrap := do
  let tree ← load.tree
  let settings ← load.settings
  let assets ← load.assets
  if load.hasMoreDocuments || load.needsReread tree then none
  else some (load.assemble tree settings assets)

end Load

/-! ## The world -/

structure World where
  projectId : Uuid
  contentEpoch : Int
  /-- The document tables of the server and the transactions on them. -/
  store : Feed.Store
  settings : ProjectSettings
  directories : List Text
  assets : List ProjectAsset
  session : WorkspaceSession
  loads : List Load

abbrev LoadId := Nat

inductive LoadRead
  | treeProject
  | treeDocuments
  | treeDirectories
  | treeAssets
  | settings
  | documentPage
  | assets
deriving DecidableEq, Repr

inductive Action
  /-- A step of a document transaction; its paths are sanitized. -/
  | server (action : Feed.Action)
  | setSettings (settings : ProjectSettings)
  | setDirectories (directories : List Text)
  | setAssets (assets : List ProjectAsset)
  | startSession (scope : WorkspaceSessionScope) (seed : Option CachedProjectSnapshot)
  | startLoad (request : LoadRequest)
  | read (load : LoadId) (part : LoadRead)
  /-- `getProjectSettings` of a bootstrap fails. -/
  | assumeSettings (load : LoadId)
  /-- `listProjectAssets` of a bootstrap fails. -/
  | assumeNoAssets (load : LoadId)
  | reread (load : LoadId)
  | succeed (load : LoadId) (activeDocumentText : Text)
  | fail (load : LoadId) (fallback : Option CachedProjectSnapshot) (message : Text)
  | selectActivePath (path : Text)
  | synchronizeSettings (projectType : ProjectType) (latexEngine : LatexEngine)
      (entryFilePath : Text) (settingsRevision : Int)

/-- The read has its answer. Document pages are read while there are more. -/
def LoadRead.isAnswered (load : Load) : LoadRead → Bool
  | .treeProject => load.treeProject.isSome
  | .treeDocuments => load.treeDocuments.isSome
  | .treeDirectories => load.treeDirectories.isSome
  | .treeAssets => load.treeAssets.isSome
  | .settings => load.settings.isSome
  | .documentPage => !load.hasMoreDocuments
  | .assets => load.assets.isSome

def LoadRead.answer (world : World) (load : Load) : LoadRead → Option Load
  | .treeProject =>
    some
      { load with
        treeProject := some
          { projectType := world.settings.projectType
            entryFilePath := some world.settings.entryFilePath
            contentEpoch := world.contentEpoch } }
  | .treeDocuments =>
    some
      { load with
        treeDocuments :=
          some ((documentsOf world.projectId world.store.documents).map (·.path)) }
  | .treeDirectories => some { load with treeDirectories := some world.directories }
  | .treeAssets => some { load with treeAssets := some (world.assets.map (·.path)) }
  | .settings => some { load with settings := some world.settings }
  | .documentPage =>
    load.takePage
      (listProjectDocuments world.store.documents world.projectId load.loaded.changeSequence)
  | .assets => some { load with assets := some world.assets }

/-- The settings that a bootstrap goes on with when it cannot read them. -/
def hintedSettings (projectTypeHint : ProjectType) : ProjectSettings where
  projectType := projectTypeHint
  entryFilePath := projectTypeHint.defaultEntryFilePath
  latexEngine := none
  settingsRevision := -1

namespace World

def generation (world : World) : Text :=
  world.session.context.scope.generation

def setLoad (world : World) (id : LoadId) (load : Load) : World :=
  { world with loads := world.loads.set id load }

def send (world : World) (event : WorkspaceSessionEvent) : World :=
  { world with session := transition world.session event }

/-- The event of a load whose reads are all answered. The active document is not
dirty. -/
def succeeded (world : World) (load : Load) (result : WorkspaceBootstrap)
    (activeDocumentText : Text) : WorkspaceSessionEvent :=
  match load.request with
  | .bootstrap .. => .bootstrapSucceeded load.generation result
  | .delta .. =>
    .deltaSucceeded load.generation result
      { path := world.session.context.activePath, dirty := false, text := activeDocumentText }

def failed (load : Load) (fallback : Option CachedProjectSnapshot) (message : Text) :
    WorkspaceSessionEvent :=
  match load.request with
  | .bootstrap .. => .bootstrapFailed load.generation fallback message
  | .delta .. => .deltaFailed load.generation

end World

/-- A step of a load that is not over. -/
def stepLoad (world : World) (id : LoadId) (load : Load) : Action → Option World
  | .read _ part =>
    if part.isAnswered load then none else (part.answer world load).map (world.setLoad id)
  | .assumeSettings _ =>
    match load.request, load.settings with
    | .bootstrap projectTypeHint _, none =>
      some (world.setLoad id { load with settings := some (hintedSettings projectTypeHint) })
    | _, _ => none
  | .assumeNoAssets _ =>
    match load.request, load.assets with
    | .bootstrap .., none => some (world.setLoad id { load with assets := some [] })
    | _, _ => none
  | .reread _ =>
    match load.tree with
    | some tree => if load.needsReread tree then some (world.setLoad id load.reread) else none
    | none => none
  | .succeed _ activeDocumentText =>
    load.result.map fun result =>
      (world.setLoad id { load with isOver := true }).send
        (world.succeeded load result activeDocumentText)
  | .fail _ fallback message =>
    some ((world.setLoad id { load with isOver := true }).send
      (World.failed load fallback message))
  | _ => none

/-- A delta starts where the session is, a bootstrap at the beginning. -/
def LoadRequest.isCurrent (world : World) : LoadRequest → Bool
  | .bootstrap .. => true
  | .delta _ afterDocumentsChangeSequence =>
    world.session.isOpen
      && afterDocumentsChangeSequence = world.session.context.documentsChangeSequence

def Action.load : Action → Option LoadId
  | .read load _ | .assumeSettings load | .assumeNoAssets load | .reread load | .succeed load _
  | .fail load _ _ => some load
  | _ => none

def step (world : World) (action : Action) : Option World :=
  match action with
  -- other readers of the documents are no part of the world
  | .server (.openReader _) | .server (.read _) => none
  | .server action =>
    if Feed.IsSanitized action then
      (Feed.step world.store action).map fun store => { world with store }
    else none
  | .setSettings settings => some { world with settings }
  | .setDirectories directories => some { world with directories }
  | .setAssets assets => some { world with assets }
  | .startSession scope seed => some (world.send (.sessionStarted scope seed))
  | .startLoad request =>
    if request.isCurrent world then
      some { world with loads := world.loads ++ [Load.start world.generation request] }
    else none
  | .selectActivePath path => some (world.send (.activePathSelected world.generation path))
  | .synchronizeSettings projectType latexEngine entryFilePath settingsRevision =>
    some (world.send
      (.settingsSynchronized world.generation projectType latexEngine entryFilePath
        settingsRevision))
  | action =>
    match action.load with
    | none => none
    | some id =>
      match world.loads[id]? with
      | none => none
      | some load => if load.isOver then none else stepLoad world id load action

/-! ## What a step can do -/

/-- The events that the world makes without a load; they bring no document. -/
def WorkspaceSessionEvent.isLocal : WorkspaceSessionEvent → Bool
  | .sessionStarted .. | .activePathSelected .. | .settingsSynchronized .. => true
  | _ => false

/-- A load with a read answered or assumed; what it has of the documents stays. -/
structure Load.Goes (load load' : Load) : Prop where
  generation : load'.generation = load.generation
  request : load'.request = load.request
  treeProject : load'.treeProject = load.treeProject
  treeDocuments : load'.treeDocuments = load.treeDocuments
  loaded : load'.loaded = load.loaded
  hasMoreDocuments : load'.hasMoreDocuments = load.hasMoreDocuments

inductive LoadStep (world : World) (id : LoadId) (load : Load) : Action → World → Prop
  | treeProject (hnone : load.treeProject = none) (projectType : ProjectType)
      (entryFilePath : Option Text) :
      LoadStep world id load (.read id .treeProject)
        (world.setLoad id
          { load with
            treeProject := some
              { projectType, entryFilePath, contentEpoch := world.contentEpoch } })
  | treeDocuments (hnone : load.treeDocuments = none) :
      LoadStep world id load (.read id .treeDocuments)
        (world.setLoad id
          { load with
            treeDocuments :=
              some ((documentsOf world.projectId world.store.documents).map (·.path)) })
  | documentPage (hmore : load.hasMoreDocuments = true) {load' : Load}
      (hpage : load.takePage (listProjectDocuments world.store.documents world.projectId
        load.loaded.changeSequence) = some load') :
      LoadStep world id load (.read id .documentPage) (world.setLoad id load')
  | go {action : Action} {load' : Load} (hpage : action ≠ .read id .documentPage)
      (hgoes : load.Goes load') : LoadStep world id load action (world.setLoad id load')
  | reread {tree : ProjectTreeResponse} (htree : load.tree = some tree)
      (hneeds : load.needsReread tree = true) :
      LoadStep world id load (.reread id) (world.setLoad id load.reread)
  | succeed {result : WorkspaceBootstrap} (hresult : load.result = some result) (text : Text) :
      LoadStep world id load (.succeed id text)
        ((world.setLoad id { load with isOver := true }).send (world.succeeded load result text))
  | fail (fallback : Option CachedProjectSnapshot) (message : Text) :
      LoadStep world id load (.fail id fallback message)
        ((world.setLoad id { load with isOver := true }).send (World.failed load fallback message))

inductive WorldStep (world : World) : Action → World → Prop
  | server (action : Feed.Action) {store : Feed.Store} (hsanitized : Feed.IsSanitized action)
      (hstep : Feed.step world.store action = some store)
      (hread : ∀ reader, action ≠ .read reader) :
      WorldStep world (.server action) { world with store }
  | setSettings (settings : ProjectSettings) :
      WorldStep world (.setSettings settings) { world with settings }
  | setDirectories (directories : List Text) :
      WorldStep world (.setDirectories directories) { world with directories }
  | setAssets (assets : List ProjectAsset) : WorldStep world (.setAssets assets) { world with assets }
  | send {action : Action} (event : WorkspaceSessionEvent) (hlocal : event.isLocal = true)
      (hload : action.load = none) : WorldStep world action (world.send event)
  | startLoad (request : LoadRequest) (hcurrent : request.isCurrent world = true) :
      WorldStep world (.startLoad request)
        { world with loads := world.loads ++ [Load.start world.generation request] }
  | load {action : Action} {id : LoadId} {load : Load} (hload : world.loads[id]? = some load)
      (hover : load.isOver = false) {world' : World} (hid : action.load = some id)
      (hstep : LoadStep world id load action world') : WorldStep world action world'

theorem loadStep_of_eq {world world' : World} {id : LoadId} {load : Load} {action : Action}
    (hid : action.load = some id) (hstep : stepLoad world id load action = some world') :
    LoadStep world id load action world' := by
  cases action <;> simp only [stepLoad, reduceCtorEq] at hstep <;>
    cases hid
  case read part =>
    split at hstep
    · simp at hstep
    next hanswered =>
    rcases Option.map_eq_some_iff.mp hstep with ⟨load', hanswer, rfl⟩
    cases part with
    | treeProject =>
      cases hanswer
      exact .treeProject (by simpa [LoadRead.isAnswered] using hanswered) _ _
    | treeDocuments =>
      cases hanswer
      exact .treeDocuments (by simpa [LoadRead.isAnswered] using hanswered)
    | documentPage =>
      exact .documentPage (by simpa [LoadRead.isAnswered] using hanswered) hanswer
    | _ =>
      cases hanswer
      exact .go (by simp) ⟨rfl, rfl, rfl, rfl, rfl, rfl⟩
  case assumeSettings =>
    split at hstep
    · cases hstep
      exact .go (by simp) ⟨rfl, rfl, rfl, rfl, rfl, rfl⟩
    · simp at hstep
  case assumeNoAssets =>
    split at hstep
    · cases hstep
      exact .go (by simp) ⟨rfl, rfl, rfl, rfl, rfl, rfl⟩
    · simp at hstep
  case reread =>
    split at hstep
    · next tree htree =>
      split at hstep
      · next hneeds =>
        cases hstep
        exact .reread htree hneeds
      · simp at hstep
    · simp at hstep
  case succeed text =>
    rcases Option.map_eq_some_iff.mp hstep with ⟨result, hresult, rfl⟩
    exact .succeed hresult text
  case fail fallback message =>
    cases hstep
    exact .fail fallback message

theorem worldStep_of_eq {world world' : World} {action : Action}
    (hstep : step world action = some world') : WorldStep world action world' := by
  have hload : ∀ action : Action, (match action.load with
      | none => none
      | some id =>
        match world.loads[id]? with
        | none => none
        | some load => if load.isOver then none else stepLoad world id load action) = some world' →
      WorldStep world action world' := by
    intro action hstep
    split at hstep
    · simp at hstep
    next id hid =>
    split at hstep
    · simp at hstep
    next load hload =>
    split at hstep
    · simp at hstep
    next hover =>
    exact .load hload (by simpa using hover) hid (loadStep_of_eq hid hstep)
  cases action with
  | server action =>
    cases action with
    | openReader projectId | read reader => simp [step] at hstep
    | _ =>
      simp only [step] at hstep
      split at hstep
      · next hsanitized =>
        rcases Option.map_eq_some_iff.mp hstep with ⟨store, hstore, rfl⟩
        exact .server _ hsanitized hstore (by simp)
      · simp at hstep
  | setSettings settings =>
    cases hstep
    exact .setSettings settings
  | setDirectories directories =>
    cases hstep
    exact .setDirectories directories
  | setAssets assets =>
    cases hstep
    exact .setAssets assets
  | startSession scope seed | selectActivePath path | synchronizeSettings =>
    cases hstep
    exact .send _ rfl rfl
  | startLoad request =>
    simp only [step] at hstep
    split at hstep
    · next hcurrent =>
      cases hstep
      exact .startLoad request hcurrent
    · simp at hstep
  | read | assumeSettings | assumeNoAssets | reread | succeed | fail => exact hload _ hstep

end Toss.Web
