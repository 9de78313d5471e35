import Toss.Web.WorkspaceLoads

/-!
# The invariant of a session and its loads

Up to its cursor a session holds the committed text documents, and a load has
been given those from its start on. A delta breaks this when it was given a
document that its tree does not list: the merge drops the document and the cursor
has passed it.

* `SessionInv`, `LoadInv`, `WorldInv` — what is held, delivered and in flight;
* `KeepsDelivered`, `StartsWithin` — the two things asked of a delta;
* `worldInv_step` — the invariant over every step that meets `Meets`.
-/

namespace Toss.Web

open Toss.Foundation Toss.Workspace

def isTextRow (row : DocumentRow) : Bool :=
  isDocumentTextPath row.path

/-! ## Cursors -/

/-- Whatever is in flight for the project will commit above the cursor. -/
structure Settled (store : Feed.Store) (projectId : Uuid) (cursor : Int) : Prop where
  nonneg : 0 ≤ cursor
  lt : cursor < store.nextChangeSequence
  pending : ∀ txn ∈ store.transactions, txn.projectId = projectId → ∀ q ∈ txn.numbers, cursor < q

namespace Settled

variable {store store' : Feed.Store} {projectId : Uuid} {cursor : Int}

theorem zero (hinv : Feed.Inv store) : Settled store projectId 0 where
  nonneg := le_rfl
  lt := hinv.first
  pending := fun txn htxn _ q hq => (hinv.inFlight txn htxn q hq).1

theorem advance (h : Settled store projectId cursor) (hadvances : Feed.Advances store store') :
    Settled store' projectId cursor := by
  have hlt := h.lt
  have hle := hadvances.le
  refine { nonneg := h.nonneg, lt := by omega, pending := ?_ }
  intro txn htxn hproject q hq
  rcases hadvances.numbers txn htxn q hq with hdrawn | ⟨old, hold, heq, hqOld⟩
  · omega
  · exact h.pending old hold (heq.trans hproject) q hqOld

/-- What becomes visible lies above the cursor. -/
theorem rows (h : Settled store projectId cursor) (hadvances : Feed.Advances store store') :
    ∀ row ∈ documentsOf projectId store'.documents,
      row ∈ documentsOf projectId store.documents ∨ cursor < row.changeSequence := by
  intro row hrow
  rcases mem_documentsOf.mp hrow with ⟨hmem, hproject⟩
  rcases hadvances.rows row hmem with hold | ⟨txn, htxn, heq, hq⟩
  · exact .inl (mem_documentsOf.mpr ⟨hold, hproject⟩)
  · exact .inr (h.pending txn htxn (heq.trans hproject) _ hq)

end Settled

/-! ## The invariant -/

section Invariant

variable (store : Feed.Store) (projectId : Uuid) (contentEpoch : Int)

structure LoadInv (load : Load) : Prop where
  settled : Settled store projectId (load.loaded.changeSequence.getD 0)
  delivered : Delivered DocumentRow.changeSequence DocumentRow.path isTextRow
    (load.request.after.getD 0) (load.loaded.changeSequence.getD 0) load.loaded.documents
    (documentsOf projectId store.documents)
  /-- What the session held when the load started is in the tree while it is there. -/
  tree : ∀ paths ∈ load.treeDocuments, ∀ row ∈ documentsOf projectId store.documents,
    row.changeSequence ≤ load.request.after.getD 0 → row.path ∈ paths
  epoch : ∀ project ∈ load.treeProject, project.contentEpoch = contentEpoch

structure SessionInv (context : WorkspaceSessionContext) : Prop where
  settled : Settled store projectId (context.documentsChangeSequence.getD 0)
  current : ∀ row ∈ documentsOf projectId store.documents, isTextRow row = true →
    row.changeSequence ≤ context.documentsChangeSequence.getD 0 →
      context.documents.lookup row.path = some row.content
  epoch : ∀ epoch ∈ context.contentEpoch, epoch = contentEpoch

end Invariant

structure WorldInv (world : World) : Prop where
  feed : Feed.Inv world.store
  paths : Feed.PathInv world.store
  session : SessionInv world.store world.projectId world.contentEpoch world.session.context
  loads : ∀ load ∈ world.loads, LoadInv world.store world.projectId world.contentEpoch load

namespace WorldInv

variable {world : World}

theorem documents_distinct (hinv : WorldInv world) :
    KeyDistinct DocumentRow.changeSequence (documentsOf world.projectId world.store.documents) :=
  Feed.documentsOf_distinct hinv.feed world.projectId

theorem documents_row_eq (hinv : WorldInv world) :
    ∀ row ∈ documentsOf world.projectId world.store.documents,
      ∀ other ∈ documentsOf world.projectId world.store.documents,
        row.path = other.path → row = other := by
  intro row hrow other hother hpath
  rcases mem_documentsOf.mp hrow with ⟨hrow, hproject⟩
  rcases mem_documentsOf.mp hother with ⟨hother, hproject'⟩
  exact hinv.paths.row_eq hrow hother (hproject.trans hproject'.symm) hpath

end WorldInv

/-! ## Server steps -/

variable {context : WorkspaceSessionContext}

section Server

variable {store store' : Feed.Store} {projectId : Uuid} {contentEpoch : Int}

theorem LoadInv.advance {load : Load} (h : LoadInv store projectId contentEpoch load)
    (hadvances : Feed.Advances store store') : LoadInv store' projectId contentEpoch load := by
  have hrows := h.settled.rows hadvances
  have hle := h.delivered.le
  refine
    { settled := h.settled.advance hadvances, delivered := h.delivered.change hrows, tree := ?_,
      epoch := h.epoch }
  intro paths hpaths row hrow hbefore
  rcases hrows row hrow with hold | hnew
  · exact h.tree paths hpaths row hold hbefore
  · omega

theorem SessionInv.advance (h : SessionInv store projectId contentEpoch context)
    (hadvances : Feed.Advances store store') :
    SessionInv store' projectId contentEpoch context := by
  refine { settled := h.settled.advance hadvances, current := ?_, epoch := h.epoch }
  intro row hrow htext hle
  rcases h.settled.rows hadvances row hrow with hold | hnew
  · exact h.current row hold htext hle
  · omega

end Server

/-! ## Page reads -/

/-- The store with one reader, that stands where the load does. -/
def watched (store : Feed.Store) (projectId : Uuid) (cursor : Option Int) : Feed.Store :=
  { store with
    readers := [{ projectId, cursor, received := store.documents, hasMore := true }] }

/-- No number in flight is passed by the next page of the load. -/
def PageIsSettled (world : World) (load : Load) : Prop :=
  Feed.ReadIsSettled (watched world.store world.projectId load.loaded.changeSequence) 0

instance (world : World) (load : Load) : Decidable (PageIsSettled world load) :=
  inferInstanceAs (Decidable (Feed.ReadIsSettled _ _))

section Page

variable {store : Feed.Store} {projectId : Uuid} {cursor : Option Int}

theorem watched_inv (hinv : Feed.Inv store) (hsettled : Settled store projectId (cursor.getD 0)) :
    Feed.Inv (watched store projectId cursor) := by
  refine hinv.readers ?_ ?_ ?_
  · intro reader hreader
    rcases List.mem_singleton.mp hreader with rfl
    exact ⟨hsettled.nonneg, hsettled.lt⟩
  · intro reader hreader
    rcases List.mem_singleton.mp hreader with rfl
    exact fun row hrow _ => (mem_documentsOf.mp hrow).1
  · intro reader hreader txn htxn hproject q hq
    rcases List.mem_singleton.mp hreader with rfl
    exact hsettled.pending txn htxn hproject q hq

theorem listDocuments_cursor_getD (rows : List DocumentRow) (projectId : Uuid)
    (cursor : Option Int) :
    ((listDocuments rows projectId cursor).cursor <|> cursor).getD 0
      = (pageCursor DocumentRow.changeSequence (page DocumentRow.changeSequence (cursor.getD 0)
          documentPageSize (documentsOf projectId rows))).getD (cursor.getD 0) := by
  rw [listDocuments_cursor, listAfterChangeSequence]
  rcases pageCursor DocumentRow.changeSequence (page DocumentRow.changeSequence (cursor.getD 0)
    documentPageSize (documentsOf projectId rows)) with _ | next <;> rfl

/-- A settled page leaves what is in flight above the cursor. -/
theorem settled_page (hinv : Feed.Inv store) (hsettled : Settled store projectId (cursor.getD 0))
    (hread : Feed.ReadIsSettled (watched store projectId cursor) 0) :
    Settled store projectId
      (((listDocuments store.documents projectId cursor).cursor <|> cursor).getD 0) := by
  have hwatched := watched_inv hinv hsettled
  have hreader : (watched store projectId cursor).readers[0]?
      = some { projectId, cursor, received := store.documents, hasMore := true } := rfl
  have hposition := Feed.readPage_position hwatched (List.mem_of_getElem? hreader)
  have hpending := (Feed.readIsSettled_iff hwatched hreader).mp hread
  have hnonneg := hsettled.nonneg
  refine { nonneg := ?_, lt := hposition.2, pending := hpending }
  exact le_trans hnonneg hposition.1

end Page

theorem takePage_some {load load' : Load} {page : DocumentPage}
    (h : load.takePage page = some load') :
    load' = { load with
      loaded :=
        { documents := load.loaded.documents ++ page.documents
          changeSequence := page.cursor <|> load.loaded.changeSequence }
      hasMoreDocuments := page.hasMore } := by
  unfold Load.takePage at h
  dsimp only at h
  split at h
  · simp at h
  · exact (Option.some.inj h).symm

theorem LoadInv.page {world : World} {load load' : Load} (hworld : WorldInv world)
    (h : LoadInv world.store world.projectId world.contentEpoch load)
    (hread : PageIsSettled world load)
    (hpage : load.takePage (listProjectDocuments world.store.documents world.projectId
      load.loaded.changeSequence) = some load') :
    LoadInv world.store world.projectId world.contentEpoch load' := by
  rcases takePage_some hpage with rfl
  refine
    { settled := settled_page hworld.feed h.settled hread, delivered := ?_, tree := h.tree,
      epoch := h.epoch }
  simp only [listProjectDocuments, listDocuments_documents, listAfterChangeSequence,
    listDocuments_cursor_getD]
  exact h.delivered.page hworld.documents_distinct hworld.documents_row_eq

/-! ## Loads -/

variable {tree : ProjectTreeResponse}

section Loads

variable {store : Feed.Store} {projectId : Uuid} {contentEpoch : Int}

theorem LoadInv.start (generation : Text) (request : LoadRequest)
    (hsettled : Settled store projectId (request.after.getD 0)) :
    LoadInv store projectId contentEpoch (Load.start generation request) where
  settled := hsettled
  delivered := Delivered.start _ _ _ _ _
  tree := by simp [Load.start]
  epoch := by simp [Load.start]

theorem LoadInv.goes {load load' : Load} (h : LoadInv store projectId contentEpoch load)
    (hgoes : load.Goes load') : LoadInv store projectId contentEpoch load' := by
  refine { settled := ?_, delivered := ?_, tree := ?_, epoch := ?_ }
  · rw [hgoes.loaded]
    exact h.settled
  · rw [hgoes.loaded, hgoes.request]
    exact h.delivered
  · rw [hgoes.treeDocuments, hgoes.request]
    exact h.tree
  · rw [hgoes.treeProject]
    exact h.epoch

theorem LoadInv.readTreeDocuments {load : Load} (h : LoadInv store projectId contentEpoch load) :
    LoadInv store projectId contentEpoch
      { load with
        treeDocuments := some ((documentsOf projectId store.documents).map (·.path)) } := by
  refine { h with tree := ?_ }
  intro paths hpaths row hrow _
  cases hpaths
  exact List.mem_map_of_mem hrow

/-- A bootstrap that reads again starts where it did. -/
theorem LoadInv.reread (hinv : Feed.Inv store) {load : Load}
    (hneeds : load.needsReread tree = true) : LoadInv store projectId contentEpoch load.reread := by
  have hafter : load.request.after.getD 0 = 0 := by
    unfold Load.needsReread at hneeds
    split at hneeds
    · next hrequest =>
      rw [hrequest]
      rfl
    · simp at hneeds
  refine
    { settled := Settled.zero hinv, delivered := ?_, tree := by simp [Load.reread],
      epoch := by simp [Load.reread] }
  show Delivered _ _ _ (load.request.after.getD 0) 0 [] _
  rw [hafter]
  exact Delivered.start _ _ _ _ _

end Loads

/-! ## Results -/

theorem Load.result_some {load : Load} {result : WorkspaceBootstrap}
    (h : load.result = some result) :
    ∃ tree settings assets, load.tree = some tree ∧ load.hasMoreDocuments = false
      ∧ result = load.assemble tree settings assets := by
  simp only [Load.result, Option.bind_eq_bind, Option.bind_eq_some_iff] at h
  rcases h with ⟨tree, htree, settings, -, assets, -, hresult⟩
  split at hresult
  · simp at hresult
  rename_i hdone
  refine ⟨tree, settings, assets, htree, ?_, (Option.some.inj hresult).symm⟩
  simp only [Bool.or_eq_true, not_or, Bool.not_eq_true] at hdone
  exact hdone.1

theorem Load.tree_some {load : Load} (h : load.tree = some tree) :
    ∃ project documentPaths assetPaths directoryPaths, load.treeProject = some project
      ∧ load.treeDocuments = some documentPaths ∧ load.treeAssets = some assetPaths
      ∧ loadProjectTree
          { documentPaths, directoryPaths, assetPaths, entryFilePath := project.entryFilePath,
            projectType := project.projectType, contentEpoch := project.contentEpoch }
        = some tree := by
  simp only [Load.tree, Option.bind_eq_bind, Option.bind_eq_some_iff] at h
  rcases h with ⟨project, hproject, documentPaths, hdocuments, directoryPaths, -, assetPaths,
    hassets, htree⟩
  exact ⟨project, documentPaths, assetPaths, directoryPaths, hproject, hdocuments, hassets, htree⟩

/-- A text file of a tree: a sanitized path of a document or an asset. -/
theorem mem_textFilePaths {nodes : List ProjectNode} {path : Text} :
    path ∈ textFilePaths nodes ↔ isDocumentTextPath path = true ∧ ⟨path, .file⟩ ∈ nodes := by
  simp only [textFilePaths, List.mem_map, List.mem_filter, Bool.and_eq_true, decide_eq_true_eq,
    isTextFile_eq_isDocumentTextPath]
  constructor
  · rintro ⟨⟨path', kind⟩, ⟨hmem, rfl, htext⟩, rfl⟩
    exact ⟨htext, hmem⟩
  · rintro ⟨htext, hmem⟩
    exact ⟨⟨path, .file⟩, ⟨hmem, rfl, htext⟩, rfl⟩

theorem Load.mem_textFilePaths_of_document {load : Load} (htree : load.tree = some tree)
    {paths : List Text} (hpaths : load.treeDocuments = some paths) {path : Text}
    (hpath : path ∈ paths) (hsanitized : IsProjectPath path)
    (htext : isDocumentTextPath path = true) : path ∈ textFilePaths tree.nodes := by
  rcases Load.tree_some htree with ⟨project, documentPaths, assetPaths, directoryPaths, -,
    hdocuments, -, hnodes⟩
  rw [hpaths] at hdocuments
  cases hdocuments
  rw [mem_textFilePaths, mem_loadProjectTree hnodes]
  exact ⟨htext, .inl ⟨htext, path, hpath, hsanitized⟩⟩

/-! ## What is asked of a delta -/

/-- The tree of the delta lists the documents it delivers and the server still has
as they were delivered. -/
def KeepsDelivered (world : World) (load : Load) : Prop :=
  ∀ tree ∈ load.tree, ∀ row ∈ load.loaded.documents, row ∈ world.store.documents →
    row.path ∈ textFilePaths tree.nodes

instance (world : World) (load : Load) : Decidable (KeepsDelivered world load) :=
  inferInstanceAs (Decidable (∀ tree ∈ load.tree, _))

/-- No document lies above the session's cursor and at or below the one that the
delta started from. -/
def StartsWithin (world : World) (load : Load) : Prop :=
  ∀ row ∈ documentsOf world.projectId world.store.documents, isTextRow row = true →
    row.changeSequence ≤ load.request.after.getD 0 →
      row.changeSequence ≤ world.session.context.documentsChangeSequence.getD 0

instance (world : World) (load : Load) : Decidable (StartsWithin world load) :=
  inferInstanceAs (Decidable (∀ row ∈ documentsOf _ _, _))

/-- The session applies the delta of the load. -/
def Applies (world : World) (load : Load) : Bool :=
  match load.request with
  | .delta .. => world.session.isOpen && load.generation = world.generation
  | .bootstrap .. => false

def Meets (world : World) : Action → Prop
  | .read id .documentPage => ∀ load ∈ world.loads[id]?, PageIsSettled world load
  | .succeed id _ => ∀ load ∈ world.loads[id]?, Applies world load = true →
      KeepsDelivered world load ∧ StartsWithin world load
  | _ => True

instance (world : World) : (action : Action) → Decidable (Meets world action)
  | .read id .documentPage => inferInstanceAs (Decidable (∀ load ∈ world.loads[id]?, _))
  | .succeed id _ => inferInstanceAs (Decidable (∀ load ∈ world.loads[id]?, _))
  | .server _ | .setSettings _ | .setDirectories _ | .setAssets _ | .startSession .. | .startLoad _
  | .read _ .treeProject | .read _ .treeDocuments | .read _ .treeDirectories | .read _ .treeAssets
  | .read _ .settings | .read _ .assets | .assumeSettings _ | .assumeNoAssets _ | .reread _
  | .fail .. | .selectActivePath _ | .synchronizeSettings .. => .isTrue trivial

/-! ## Events of the session -/

variable {event : WorkspaceSessionEvent}

section Events

variable {store : Feed.Store} {projectId : Uuid} {contentEpoch : Int}

/-- A context that starts over, or whose documents and cursor stay. -/
theorem SessionInv.of_empty (hinv : Feed.Inv store)
    (hcursor : context.documentsChangeSequence = none) (hepoch : context.contentEpoch = none) :
    SessionInv store projectId contentEpoch context := by
  refine { settled := ?_, current := ?_, epoch := by simp [hepoch] }
  · rw [hcursor]
    exact Settled.zero hinv
  · intro row hrow _ hle
    have hpositive := (hinv.committed row (mem_documentsOf.mp hrow).1).1
    rw [hcursor, Option.getD_none] at hle
    omega

theorem SessionInv.of_same {context' : WorkspaceSessionContext}
    (h : SessionInv store projectId contentEpoch context)
    (hdocuments : context'.documents = context.documents)
    (hcursor : context'.documentsChangeSequence = context.documentsChangeSequence)
    (hepoch : context'.contentEpoch = context.contentEpoch) :
    SessionInv store projectId contentEpoch context' := by
  refine { settled := ?_, current := ?_, epoch := ?_ }
  · rw [hcursor]
    exact h.settled
  · rw [hcursor, hdocuments]
    exact h.current
  · rw [hepoch]
    exact h.epoch

theorem startSession_inv (hinv : Feed.Inv store) (scope : WorkspaceSessionScope)
    (seed : Option CachedProjectSnapshot) :
    SessionInv store projectId contentEpoch (startSession scope seed).context := by
  unfold startSession
  split
  · exact .of_empty hinv rfl rfl
  · cases seed with
    | none | some seed => exact .of_empty hinv rfl rfl

theorem applyBootstrapFailure_inv (hinv : Feed.Inv store)
    (h : SessionInv store projectId contentEpoch context)
    (fallback : Option CachedProjectSnapshot) (message : Text) :
    SessionInv store projectId contentEpoch (applyBootstrapFailure context fallback message) := by
  cases fallback with
  | none => exact h.of_same rfl rfl rfl
  | some seed => exact .of_empty hinv rfl rfl

theorem transition_local_inv (hinv : Feed.Inv store) {session : WorkspaceSession}
    (h : SessionInv store projectId contentEpoch session.context)
    (hlocal : event.isLocal = true) :
    SessionInv store projectId contentEpoch (transition session event).context := by
  rcases session with ⟨state, context⟩
  cases event with
  | sessionStarted scope seed =>
    have heq : transition ⟨state, context⟩ (.sessionStarted scope seed) = startSession scope seed := by
      cases state <;> rfl
    rw [heq]
    exact startSession_inv hinv scope seed
  | activePathSelected generation path =>
    cases state with
    | available substate =>
      simp only [transition]
      split
      · exact h.of_same rfl rfl rfl
      · exact h
    | _ => exact h
  | settingsSynchronized generation projectType latexEngine entryFilePath settingsRevision =>
    cases state with
    | available substate =>
      simp only [transition]
      split
      · unfold synchronizeSettings
        split
        · exact h.of_same rfl rfl rfl
        · exact h
      · exact h
    | _ => exact h
  | _ => simp [WorkspaceSessionEvent.isLocal] at hlocal

end Events

section Apply

variable {world : World} {load : Load} {result : WorkspaceBootstrap}

/-- What a load delivers is at the generation of content of its server. -/
theorem LoadInv.result_epoch (h : LoadInv world.store world.projectId world.contentEpoch load)
    (hresult : load.result = some result) : result.contentEpoch = world.contentEpoch := by
  rcases Load.result_some hresult with ⟨tree, settings, assets, htree, -, rfl⟩
  rcases Load.tree_some htree with ⟨project, documentPaths, assetPaths, directoryPaths, hproject,
    -, -, hnodes⟩
  show tree.contentEpoch = world.contentEpoch
  rw [loadProjectTree_contentEpoch hnodes]
  exact h.epoch project hproject

/-- A bootstrap replaces everything by what it was given from the beginning. -/
theorem applyBootstrap_inv (hinv : WorldInv world)
    (h : LoadInv world.store world.projectId world.contentEpoch load)
    (hafter : load.request.after = none) (hresult : load.result = some result)
    (context : WorkspaceSessionContext) :
    SessionInv world.store world.projectId world.contentEpoch (applyBootstrap context result) := by
  have hepoch := h.result_epoch hresult
  rcases Load.result_some hresult with ⟨tree, settings, assets, htree, -, rfl⟩
  refine { settled := h.settled, current := ?_, epoch := ?_ }
  · intro row hrow htext hle
    have hpositive := (hinv.feed.committed row (mem_documentsOf.mp hrow).1).1
    refine h.delivered.lookup_new hrow htext ?_ hle
    rw [hafter]
    exact hpositive
  · intro epoch hmem
    cases hmem
    exact hepoch

/-- A delta adds what it was given to what the session held at its start, less what
its tree does not list. -/
theorem applyDelta_inv (hinv : WorldInv world)
    (h : LoadInv world.store world.projectId world.contentEpoch load)
    (hkeeps : KeepsDelivered world load) (hwithin : StartsWithin world load)
    (hresult : load.result = some result) (activeDocument : ActiveDocumentProjection)
    (hclean : activeDocument.dirty = false) :
    SessionInv world.store world.projectId world.contentEpoch
      (applyDelta world.session.context result activeDocument) := by
  have hepoch := h.result_epoch hresult
  rcases Load.result_some hresult with ⟨tree, settings, assets, htree, -, rfl⟩
  refine { settled := h.settled, current := ?_, epoch := ?_ }
  · intro row hrow htext hle
    have hmem := (mem_documentsOf.mp hrow).1
    rw [lookup_applyDelta hclean, Load.assemble_nodes, Load.assemble_documents]
    rcases lt_or_ge (load.request.after.getD 0) row.changeSequence with hafter | hbefore
    · -- delivered, and so in the tree
      have hreceived := h.delivered.covers row hrow htext hafter hle
      have hlookup : (mapDocumentsByPath load.loaded.documents).lookup row.path
          = some row.content := h.delivered.lookup_new hrow htext hafter hle
      rw [if_pos (hkeeps tree htree row hreceived hmem), hlookup, Option.some_or]
    · -- held before, and not delivered since
      have hcurrent := hinv.session.current row hrow htext (hwithin row hrow htext hbefore)
      have hnone : (mapDocumentsByPath load.loaded.documents).lookup row.path = none :=
        h.delivered.lookup_old hrow hbefore
      rcases Load.tree_some htree with ⟨_, documentPaths, _, _, _, hdocuments, _, _⟩
      have hlisted := Load.mem_textFilePaths_of_document htree hdocuments
        (h.tree documentPaths hdocuments row hrow hbefore) (hinv.paths.sanitized row hmem) htext
      rw [if_pos hlisted, hnone, Option.none_or]
      exact hcurrent
  · intro epoch hmem'
    cases hmem'
    exact hepoch

end Apply

/-! ## Steps -/

namespace WorldInv

variable {world world' : World} {id : LoadId} {load load' : Load}

theorem setLoad (hinv : WorldInv world)
    (h : LoadInv world.store world.projectId world.contentEpoch load') :
    WorldInv (world.setLoad id load') := by
  refine { hinv with loads := ?_ }
  intro other hother
  rcases List.mem_or_eq_of_mem_set hother with hold | rfl
  · exact hinv.loads other hold
  · exact h

theorem send (hinv : WorldInv world)
    (h : SessionInv world.store world.projectId world.contentEpoch
      (transition world.session event).context) : WorldInv (world.send event) :=
  { hinv with session := h }

/-- A load delivers what the session then holds. -/
theorem succeeded (hinv : WorldInv world)
    (h : LoadInv world.store world.projectId world.contentEpoch load)
    {result : WorkspaceBootstrap} (hresult : load.result = some result) (text : Text)
    (hmeets : Applies world load = true → KeepsDelivered world load ∧ StartsWithin world load) :
    SessionInv world.store world.projectId world.contentEpoch
      (transition world.session (world.succeeded load result text)).context := by
  rcases hrequest : load.request with ⟨projectTypeHint, canWrite⟩ | ⟨entryFilePath, after⟩
  · have hevent : world.succeeded load result text
        = .bootstrapSucceeded load.generation result := by simp [World.succeeded, hrequest]
    have hafter : load.request.after = none := by rw [hrequest]; rfl
    have happly := applyBootstrap_inv hinv h hafter hresult world.session.context
    rw [hevent]
    cases hstate : world.session.state with
    | loading | available substate =>
      simp only [transition, hstate]
      split
      · exact happly
      · exact hinv.session
    | unavailable | replaced =>
      simp only [transition, hstate]
      exact hinv.session
  · have hevent : world.succeeded load result text
        = .deltaSucceeded load.generation result
          { path := world.session.context.activePath, dirty := false, text } := by
      simp [World.succeeded, hrequest]
    rw [hevent]
    -- a delta of another generation is dropped
    by_cases hgeneration : load.generation = world.session.context.scope.generation
    · by_cases hopen : world.session.isOpen = true
      · have happlies : Applies world load = true := by
          simp [Applies, hrequest, hopen, hgeneration, World.generation]
        rcases hmeets happlies with ⟨hkeeps, hwithin⟩
        rw [hgeneration, transition_delta hopen]
        · exact applyDelta_inv hinv h hkeeps hwithin hresult _ rfl
        · intro epoch hepoch
          rw [h.result_epoch hresult, hinv.session.epoch epoch hepoch]
      · cases hstate : world.session.state with
        | available substate => simp [WorkspaceSession.isOpen, hstate] at hopen
        | _ =>
          simp only [transition, hstate]
          exact hinv.session
    · rw [transition_of_generation_ne rfl hgeneration]
      exact hinv.session

theorem failed (hinv : WorldInv world) (load : Load) (fallback : Option CachedProjectSnapshot)
    (message : Text) :
    SessionInv world.store world.projectId world.contentEpoch
      (transition world.session (World.failed load fallback message)).context := by
  have hfailure := applyBootstrapFailure_inv hinv.feed hinv.session fallback message
  unfold World.failed
  split
  all_goals
    cases hstate : world.session.state
    all_goals
      simp only [transition, hstate]
      first
        | exact hinv.session
        | split <;> first | exact hfailure | exact hinv.session

theorem loadStep {action : Action} (hinv : WorldInv world) (hload : world.loads[id]? = some load)
    (hmeets : Meets world action) (hid : action.load = some id)
    (hstep : LoadStep world id load action world') : WorldInv world' := by
  have h := hinv.loads load (List.mem_of_getElem? hload)
  have hover : LoadInv world.store world.projectId world.contentEpoch
      { load with isOver := true } := h.goes ⟨rfl, rfl, rfl, rfl, rfl, rfl⟩
  cases hstep with
  | treeProject hnone projectType entryFilePath =>
    refine hinv.setLoad { h with epoch := ?_ }
    intro project hproject
    cases hproject
    rfl
  | treeDocuments hnone => exact hinv.setLoad h.readTreeDocuments
  | documentPage hmore hpage => exact hinv.setLoad (h.page hinv (hmeets load hload) hpage)
  | go hpage hgoes => exact hinv.setLoad (h.goes hgoes)
  | reread htree hneeds => exact hinv.setLoad (LoadInv.reread hinv.feed hneeds)
  | succeed hresult text =>
    exact (hinv.setLoad hover).send (hinv.succeeded h hresult text (hmeets load hload))
  | fail fallback message =>
    exact (hinv.setLoad hover).send (hinv.failed load fallback message)

end WorldInv

theorem worldInv_step {world world' : World} {action : Action} (hinv : WorldInv world)
    (hmeets : Meets world action) (hstep : step world action = some world') : WorldInv world' := by
  cases worldStep_of_eq hstep with
  | server action hsanitized hstore hread =>
    have hadvances := Feed.step_advances hinv.feed hstore
    have hsettled : Feed.IsSettled world.store action := by
      cases action with
      | read reader => exact absurd rfl (hread reader)
      | _ => trivial
    exact
      { feed := Feed.step_inv hinv.feed hsettled hstore
        paths := Feed.pathInv_step hinv.paths hsanitized hstore
        session := hinv.session.advance hadvances
        loads := fun load hload => (hinv.loads load hload).advance hadvances }
  | setSettings settings | setDirectories directories | setAssets assets => exact { hinv with }
  | send event hlocal _ => exact hinv.send (transition_local_inv hinv.feed hinv.session hlocal)
  | startLoad request hcurrent =>
    refine { hinv with loads := ?_ }
    intro load hload
    rcases List.mem_append.mp hload with hold | hnew
    · exact hinv.loads load hold
    rcases List.mem_singleton.mp hnew with rfl
    refine LoadInv.start world.generation request ?_
    cases request with
    | bootstrap projectTypeHint canWrite => exact Settled.zero hinv.feed
    | delta entryFilePath after =>
      simp only [LoadRequest.isCurrent, Bool.and_eq_true, decide_eq_true_eq] at hcurrent
      show Settled _ _ (after.getD 0)
      rw [hcurrent.2]
      exact hinv.session.settled
  | load hload _ hid hload' => exact hinv.loadStep hload hmeets hid hload'

end Toss.Web
