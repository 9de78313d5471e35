import Toss.Foundation.Mirror
import Toss.Web.WorkspaceSync

/-!
# The workspace session of a browser

`workspaceSessionActor.ts` with `pickWorkspaceOpenPath` and the maps of
`mappers.ts`. An event that the machine has no transition for is dropped.

* `Context` — the projection that the editor reads;
* `transition` — the machine;
* `transition_delta` — when a delta is applied, and to what.
-/

namespace Toss.Web

open Toss.Foundation Toss.Workspace

/-! ## What the session holds -/

structure DocumentIdentity where
  id : Uuid
  pathRevision : Int
  collaborationRevision : Int
deriving DecidableEq, Repr

structure AssetMeta where
  id : Uuid
  contentRevision : Text
  contentType : Text
  sizeBytes : Int
  createdAt : Text
deriving DecidableEq, Repr

/-- A `ProjectAsset` of the server: an asset and the path it lies at. -/
structure ProjectAsset where
  path : Text
  info : AssetMeta
deriving DecidableEq, Repr

def mapDocumentsByPath (documents : List DocumentRow) : Record Text :=
  byName DocumentRow.path DocumentRow.content documents

def mapDocumentIdentitiesByPath (documents : List DocumentRow) : Record DocumentIdentity :=
  byName DocumentRow.path
    (fun document => ⟨document.id, document.pathRevision, document.collaborationRevision⟩) documents

def mapAssetMetaByPath (assets : List ProjectAsset) : Record AssetMeta :=
  byName ProjectAsset.path ProjectAsset.info assets

structure WorkspaceSessionScope where
  generation : Text
  projectId : Uuid
  cacheIdentity : Text
  projectTypeHint : ProjectType
  latexEngineHint : LatexEngine
  defaultEntry : Text
  isUnavailable : Bool
deriving DecidableEq, Repr

structure WorkspaceSessionContext where
  scope : WorkspaceSessionScope
  nodes : List ProjectNode
  projectType : ProjectType
  latexEngine : LatexEngine
  entryFilePath : Text
  settingsRevision : Int
  contentEpoch : Option Int
  activePath : Text
  documents : Record Text
  documentIdentities : Record DocumentIdentity
  documentsChangeSequence : Option Int
  assetMeta : Record AssetMeta
  offlineMessage : Option Text

structure WorkspaceBootstrap where
  projectType : ProjectType
  latexEngine : LatexEngine
  entryFilePath : Text
  settingsRevision : Int
  nodes : List ProjectNode
  contentEpoch : Int
  documents : Record Text
  documentIdentities : Record DocumentIdentity
  documentsChangeSequence : Option Int
  assetMeta : Record AssetMeta

abbrev WorkspaceDelta := WorkspaceBootstrap

structure CachedProjectSnapshot where
  entryFilePath : Text
  nodes : List ProjectNode
  docs : Record Text

structure ActiveDocumentProjection where
  path : Text
  dirty : Bool
  text : Text
deriving DecidableEq, Repr

/-! ## Projections -/

def filePaths (nodes : List ProjectNode) : List Text :=
  (nodes.filter fun node => node.kind = .file).map (·.path)

/-- `a || b` on strings. -/
def orElse (a b : Text) : Text :=
  if a.isEmpty then b else a

def pickWorkspaceOpenPath (nodes : List ProjectNode) (preferredEntryPath currentActivePath : Text) :
    Text :=
  let paths := filePaths nodes
  if !currentActivePath.isEmpty && currentActivePath ∈ paths then currentActivePath
  else if !preferredEntryPath.isEmpty && preferredEntryPath ∈ paths then preferredEntryPath
  else orElse (orElse (paths.headD []) preferredEntryPath) ProjectType.typst.defaultEntryFilePath

def createEmptyWorkspaceSession (scope : WorkspaceSessionScope) : WorkspaceSessionContext where
  scope := scope
  nodes := []
  projectType := scope.projectTypeHint
  latexEngine := scope.latexEngineHint
  entryFilePath := scope.defaultEntry
  settingsRevision := -1
  contentEpoch := none
  activePath := scope.defaultEntry
  documents := ∅
  documentIdentities := ∅
  documentsChangeSequence := none
  assetMeta := ∅
  offlineMessage := none

def projectionFromSeed (scope : WorkspaceSessionScope) (seed : CachedProjectSnapshot) :
    WorkspaceSessionContext :=
  let entryFilePath := orElse seed.entryFilePath scope.defaultEntry
  { createEmptyWorkspaceSession scope with
    nodes := seed.nodes
    entryFilePath := entryFilePath
    activePath := pickWorkspaceOpenPath seed.nodes entryFilePath scope.defaultEntry
    documents := seed.docs }

/-- The open path stays while the tree has it. -/
def keepActivePath (nodes : List ProjectNode) (entryFilePath activePath : Text) : Text :=
  if activePath ∈ filePaths nodes then activePath
  else pickWorkspaceOpenPath nodes entryFilePath activePath

def applyBootstrap (context : WorkspaceSessionContext) (bootstrap : WorkspaceBootstrap) :
    WorkspaceSessionContext :=
  let acceptsSettings := context.settingsRevision ≤ bootstrap.settingsRevision
  let entryFilePath := if acceptsSettings then bootstrap.entryFilePath else context.entryFilePath
  { scope := context.scope
    nodes := bootstrap.nodes
    projectType := bootstrap.projectType
    latexEngine := if acceptsSettings then bootstrap.latexEngine else context.latexEngine
    entryFilePath := entryFilePath
    settingsRevision :=
      if acceptsSettings then bootstrap.settingsRevision else context.settingsRevision
    contentEpoch := some bootstrap.contentEpoch
    activePath := keepActivePath bootstrap.nodes entryFilePath context.activePath
    documents := bootstrap.documents
    documentIdentities := bootstrap.documentIdentities
    documentsChangeSequence := bootstrap.documentsChangeSequence
    assetMeta := bootstrap.assetMeta
    offlineMessage := none }

/-- `{ ...current, ...incoming }` less the keys that are not kept. -/
def mergeKept {V : Type} (current incoming : Record V) (keep : Text → Bool) : Record V :=
  let merged := incoming.entries.foldl (fun next entry => next.insert entry.1 entry.2) current
  merged.keys.foldl (fun next path => if keep path then next else next.erase path) merged

def applyDelta (context : WorkspaceSessionContext) (delta : WorkspaceDelta)
    (activeDocument : ActiveDocumentProjection) : WorkspaceSessionContext :=
  let acceptsSettings := context.settingsRevision ≤ delta.settingsRevision
  let entryFilePath := if acceptsSettings then delta.entryFilePath else context.entryFilePath
  let documents := mergeWorkspaceDocumentDelta
    { current := context.documents
      incoming := delta.documents
      nodes := delta.nodes
      activePath := activeDocument.path
      activeDocumentDirty := activeDocument.dirty
      activeDocumentText := activeDocument.text }
  { scope := context.scope
    -- `sameProjectNodeList` keeps the old list where it equals the new one
    nodes := delta.nodes
    projectType := delta.projectType
    latexEngine := if acceptsSettings then delta.latexEngine else context.latexEngine
    entryFilePath := entryFilePath
    settingsRevision :=
      if acceptsSettings then delta.settingsRevision else context.settingsRevision
    contentEpoch := some delta.contentEpoch
    activePath := keepActivePath delta.nodes entryFilePath context.activePath
    documents := documents
    documentIdentities := mergeKept context.documentIdentities delta.documentIdentities
      fun path => (documents.lookup path).isSome
    documentsChangeSequence := delta.documentsChangeSequence
    assetMeta := delta.assetMeta
    offlineMessage := none }

/-! ## The machine -/

inductive Availability
  | cached
  | online
  | offline
deriving DecidableEq, Repr

inductive WorkspaceSessionState
  | loading
  | available (substate : Availability)
  | unavailable
  | replaced
deriving DecidableEq, Repr

structure WorkspaceSession where
  state : WorkspaceSessionState
  context : WorkspaceSessionContext

inductive WorkspaceSessionEvent
  | sessionStarted (scope : WorkspaceSessionScope) (seed : Option CachedProjectSnapshot)
  | bootstrapSucceeded (generation : Text) (bootstrap : WorkspaceBootstrap)
  | bootstrapFailed (generation : Text) (fallback : Option CachedProjectSnapshot) (message : Text)
  | deltaSucceeded (generation : Text) (delta : WorkspaceDelta)
      (activeDocument : ActiveDocumentProjection)
  | deltaFailed (generation : Text)
  | activePathSelected (generation path : Text)
  | documentContentUpdated (generation path content : Text)
  | settingsSynchronized (generation : Text) (projectType : ProjectType)
      (latexEngine : LatexEngine) (entryFilePath : Text) (settingsRevision : Int)

def applyBootstrapFailure (context : WorkspaceSessionContext)
    (fallback : Option CachedProjectSnapshot) (message : Text) : WorkspaceSessionContext :=
  let projection := match fallback with
    | some seed => projectionFromSeed context.scope seed
    | none => context
  { projection with offlineMessage := some message }

def updateDocumentContent (context : WorkspaceSessionContext) (path content : Text) :
    WorkspaceSessionContext :=
  if context.documents.lookup path = some content then context
  else { context with documents := context.documents.insert path content }

def synchronizeSettings (context : WorkspaceSessionContext) (projectType : ProjectType)
    (latexEngine : LatexEngine) (entryFilePath : Text) (settingsRevision : Int) :
    WorkspaceSessionContext :=
  if context.settingsRevision ≤ settingsRevision then
    { context with projectType, latexEngine, entryFilePath, settingsRevision }
  else context

def startSession (scope : WorkspaceSessionScope) (seed : Option CachedProjectSnapshot) :
    WorkspaceSession :=
  if scope.isUnavailable then ⟨.unavailable, createEmptyWorkspaceSession scope⟩
  else match seed with
    | some seed => ⟨.available .cached, projectionFromSeed scope seed⟩
    | none => ⟨.loading, createEmptyWorkspaceSession scope⟩

def transition (session : WorkspaceSession) (event : WorkspaceSessionEvent) : WorkspaceSession :=
  let context := session.context
  match session.state, event with
  | _, .sessionStarted scope seed => startSession scope seed
  | .loading, .bootstrapSucceeded generation bootstrap
  | .available _, .bootstrapSucceeded generation bootstrap =>
    if generation = context.scope.generation then
      ⟨.available .online, applyBootstrap context bootstrap⟩
    else session
  | .loading, .bootstrapFailed generation fallback message
  | .available _, .bootstrapFailed generation fallback message =>
    if generation = context.scope.generation then
      ⟨.available .offline, applyBootstrapFailure context fallback message⟩
    else session
  | .available _, .deltaSucceeded generation delta activeDocument =>
    if generation = context.scope.generation then
      if context.contentEpoch.any fun epoch => delta.contentEpoch ≠ epoch then
        ⟨.replaced, context⟩
      else ⟨.available .online, applyDelta context delta activeDocument⟩
    else session
  | .available _, .deltaFailed generation =>
    if generation = context.scope.generation then ⟨.available .offline, context⟩ else session
  | .available _, .activePathSelected generation path =>
    if generation = context.scope.generation then
      { session with context := { context with activePath := path } }
    else session
  | .available _, .documentContentUpdated generation path content =>
    if generation = context.scope.generation then
      { session with context := updateDocumentContent context path content }
    else session
  | .available _, .settingsSynchronized generation projectType latexEngine entryFilePath
      settingsRevision =>
    if generation = context.scope.generation then
      { session with
        context :=
          synchronizeSettings context projectType latexEngine entryFilePath settingsRevision }
    else session
  | _, _ => session

/-- With no dirty document: what the delta brought, else what there was, for the
text files of its tree. -/
theorem lookup_applyDelta {context : WorkspaceSessionContext} {delta : WorkspaceDelta}
    {activeDocument : ActiveDocumentProjection} (hclean : activeDocument.dirty = false)
    (path : Text) :
    (applyDelta context delta activeDocument).documents.lookup path
      = if path ∈ textFilePaths delta.nodes then
          (delta.documents.lookup path).or (context.documents.lookup path)
        else none :=
  lookup_mergeWorkspaceDocumentDelta hclean path

/-! ## Events of other generations -/

/-- The generation an event is for; a session that starts has one of its own. -/
def WorkspaceSessionEvent.generation : WorkspaceSessionEvent → Option Text
  | .sessionStarted .. => none
  | .bootstrapSucceeded generation _ | .bootstrapFailed generation _ _
  | .deltaSucceeded generation _ _ | .deltaFailed generation | .activePathSelected generation _
  | .documentContentUpdated generation _ _ | .settingsSynchronized generation .. => some generation

/-- What is left over from an earlier session changes nothing. -/
theorem transition_of_generation_ne {session : WorkspaceSession} {event : WorkspaceSessionEvent}
    {generation : Text} (h : event.generation = some generation)
    (hne : generation ≠ session.context.scope.generation) : transition session event = session := by
  rcases session with ⟨state, context⟩
  cases event with
  | sessionStarted => simp [WorkspaceSessionEvent.generation] at h
  | _ =>
    cases h
    cases state <;> simp [transition, hne]

/-- The session is where events of its server are taken. -/
def WorkspaceSession.isOpen (session : WorkspaceSession) : Bool :=
  match session.state with
  | .available _ => true
  | _ => false

theorem transition_delta {session : WorkspaceSession} (hopen : session.isOpen = true)
    {delta : WorkspaceDelta}
    (hepoch : ∀ epoch ∈ session.context.contentEpoch, delta.contentEpoch = epoch)
    (activeDocument : ActiveDocumentProjection) :
    transition session
        (.deltaSucceeded session.context.scope.generation delta activeDocument)
      = ⟨.available .online, applyDelta session.context delta activeDocument⟩ := by
  rcases session with ⟨state, context⟩
  have hsame : (context.contentEpoch.any fun epoch => delta.contentEpoch ≠ epoch) = false := by
    cases hcontext : context.contentEpoch with
    | none => rfl
    | some epoch => simp [hepoch epoch hcontext]
  cases state with
  | available substate => simp only [transition, if_true, hsame, Bool.false_eq_true, if_false]
  | _ => simp [WorkspaceSession.isOpen] at hopen

end Toss.Web
