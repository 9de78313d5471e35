import Toss.Web.SessionInvariant

/-!
# The browser converges to the server

* `Fresh` — what a load has read is what the server has;
* `fresh_step` — it stays so until the server commits;
* `Converged` — the documents of the session are the server's text documents;
* `delta_converges` — after a last delta the session has converged unless an asset
  stands in for a document that it still holds.
-/

namespace Toss.Web

open Toss.Foundation Toss.Workspace

abbrev WorldStepTo (world : World) (action : Action) (world' : World) : Prop :=
  step world action = some world'

/-- A project without documents, and a session that has not loaded it. -/
def World.init (projectId : Uuid) (contentEpoch : Int) (settings : ProjectSettings)
    (directories : List Text) (assets : List ProjectAsset) (scope : WorkspaceSessionScope) :
    World where
  projectId := projectId
  contentEpoch := contentEpoch
  store := Feed.Store.empty
  settings := settings
  directories := directories
  assets := assets
  session := { state := .loading, context := createEmptyWorkspaceSession scope }
  loads := []

theorem init_worldInv (projectId : Uuid) (contentEpoch : Int) (settings : ProjectSettings)
    (directories : List Text) (assets : List ProjectAsset) (scope : WorkspaceSessionScope) :
    WorldInv (World.init projectId contentEpoch settings directories assets scope) where
  feed := Feed.init_inv
  paths := Feed.init_pathInv
  session := .of_empty Feed.init_inv rfl rfl
  loads := by simp [World.init]

theorem run_worldInv {world world' : World} {actions : List Action}
    (hrun : Run (Guarded Meets WorldStepTo) world actions world') (hinv : WorldInv world) :
    WorldInv world' :=
  hrun.invariant_of_guard (fun _ _ _ hinv hmeets hstep => worldInv_step hinv hmeets hstep) hinv

/-! ## A load that reads after the last change -/

/-- The load was answered from the documents that the server has. -/
structure Fresh (store : Feed.Store) (projectId : Uuid) (load : Load) : Prop where
  tree : ∀ paths ∈ load.treeDocuments, ∀ path,
    path ∈ paths ↔ ∃ row ∈ documentsOf projectId store.documents, row.path = path
  received : ∀ row ∈ load.loaded.documents,
    row ∈ documentsOf projectId store.documents ∧ isTextRow row = true
  complete : load.hasMoreDocuments = false → ∀ row ∈ documentsOf projectId store.documents,
    row.changeSequence ≤ load.loaded.changeSequence.getD 0

namespace Fresh

variable {store : Feed.Store} {projectId : Uuid} {load load' : Load}

theorem start (store : Feed.Store) (projectId : Uuid) (generation : Text)
    (request : LoadRequest) : Fresh store projectId (Load.start generation request) := by
  constructor <;> simp [Load.start]

theorem of_documents {store' : Feed.Store} (h : Fresh store projectId load)
    (hdocuments : store'.documents = store.documents) : Fresh store' projectId load := by
  refine { tree := ?_, received := ?_, complete := ?_ }
  · rw [hdocuments]
    exact h.tree
  · rw [hdocuments]
    exact h.received
  · rw [hdocuments]
    exact h.complete

theorem goes (h : Fresh store projectId load) (hgoes : load.Goes load') :
    Fresh store projectId load' := by
  refine { tree := ?_, received := ?_, complete := ?_ }
  · rw [hgoes.treeDocuments]
    exact h.tree
  · rw [hgoes.loaded]
    exact h.received
  · rw [hgoes.loaded, hgoes.hasMoreDocuments]
    exact h.complete

theorem readTreeDocuments (h : Fresh store projectId load) :
    Fresh store projectId
      { load with
        treeDocuments := some ((documentsOf projectId store.documents).map (·.path)) } := by
  refine { h with tree := ?_ }
  intro paths hpaths path
  cases hpaths
  exact List.mem_map

/-- A page that has no more ends with every document at or below the cursor. -/
theorem page (h : Fresh store projectId load)
    (hpage : load.takePage (listProjectDocuments store.documents projectId
      load.loaded.changeSequence) = some load') : Fresh store projectId load' := by
  rcases takePage_some hpage with rfl
  refine { tree := h.tree, received := ?_, complete := ?_ }
  · intro row hrow
    rcases List.mem_append.mp hrow with hbefore | hnew
    · exact h.received row hbefore
    · rcases List.mem_filter.mp hnew with ⟨hmem, htext⟩
      rw [listDocuments_documents] at hmem
      exact ⟨(mem_of_mem_page hmem).1, htext⟩
  · intro hdone
    have hshort : (rowsAfter DocumentRow.changeSequence (load.loaded.changeSequence.getD 0)
        (documentsOf projectId store.documents)).length ≤ documentPageSize := by
      rw [← not_lt]
      intro hlong
      have hmore := (listDocuments_hasMore store.documents projectId
        load.loaded.changeSequence).mpr hlong
      simp only [listProjectDocuments] at hdone
      rw [hmore] at hdone
      simp at hdone
    simp only [listProjectDocuments, listDocuments_cursor_getD]
    exact le_of_short_page hshort

end Fresh

/-- A delta of the world, answered afresh. -/
def FreshAt (id : LoadId) (generation entryFilePath : Text) (after : Option Int) (world : World) :
    Prop :=
  ∃ load, world.loads[id]? = some load ∧ load.generation = generation
    ∧ load.request = .delta entryFilePath after ∧ Fresh world.store world.projectId load

/-- The step commits to the tables of the documents. -/
def Action.commits : Action → Bool
  | .server (.commit _) => true
  | _ => false

section FreshSteps

variable {world world' : World} {id : LoadId} {generation entryFilePath : Text} {after : Option Int}

theorem FreshAt.setLoad_other (h : FreshAt id generation entryFilePath after world)
    {other : LoadId} (hne : other ≠ id) (load : Load) :
    FreshAt id generation entryFilePath after (world.setLoad other load) := by
  rcases h with ⟨mine, hmine, hgeneration, hrequest, hfresh⟩
  refine ⟨mine, ?_, hgeneration, hrequest, hfresh⟩
  simp only [World.setLoad, List.getElem?_set_ne hne, hmine]

theorem FreshAt.setLoad_self {load load' : Load} (hload : world.loads[id]? = some load)
    (hgeneration : load'.generation = generation)
    (hrequest : load'.request = .delta entryFilePath after)
    (hfresh : Fresh world.store world.projectId load') :
    FreshAt id generation entryFilePath after (world.setLoad id load') := by
  have hlt : id < world.loads.length := (List.getElem?_eq_some_iff.mp hload).1
  refine ⟨load', ?_, hgeneration, hrequest, hfresh⟩
  simp [World.setLoad, hlt]

theorem FreshAt.loadStep {other : LoadId} {load : Load} {action : Action}
    (h : FreshAt id generation entryFilePath after world) (hload : world.loads[other]? = some load)
    (hstep : LoadStep world other load action world') :
    FreshAt id generation entryFilePath after world' := by
  by_cases hid : other = id
  · -- a read of the load itself
    subst hid
    rcases h with ⟨mine, hmine, hgeneration, hrequest, hfresh⟩
    rw [hload] at hmine
    cases hmine
    have hgoes : ∀ load', load.Goes load' →
        FreshAt other generation entryFilePath after (world.setLoad other load') :=
      fun load' hgoes => .setLoad_self hload (hgoes.generation.trans hgeneration)
        (hgoes.request.trans hrequest) (hfresh.goes hgoes)
    cases hstep with
    | treeProject hnone projectType entryFilePath =>
      exact .setLoad_self hload hgeneration hrequest { hfresh with }
    | treeDocuments hnone =>
      exact .setLoad_self hload hgeneration hrequest hfresh.readTreeDocuments
    | documentPage hmore hpage =>
      have hnext := hfresh.page hpage
      rcases takePage_some hpage with rfl
      exact .setLoad_self hload hgeneration hrequest hnext
    | go hpage hgoes' => exact hgoes _ hgoes'
    | reread htree hneeds => simp [Load.needsReread, hrequest] at hneeds
    | succeed hresult text | fail fallback message => exact hgoes _ ⟨rfl, rfl, rfl, rfl, rfl, rfl⟩
  · cases hstep with
    | succeed hresult text | fail fallback message => exact h.setLoad_other hid _
    | _ => exact h.setLoad_other hid _

theorem fresh_step {action : Action} (h : FreshAt id generation entryFilePath after world)
    (hquiet : action.commits = false) (hstep : step world action = some world') :
    FreshAt id generation entryFilePath after world' := by
  cases worldStep_of_eq hstep with
  | server action hsanitized hstore hread =>
    rcases h with ⟨load, hload, hgeneration, hrequest, hfresh⟩
    refine ⟨load, hload, hgeneration, hrequest, hfresh.of_documents ?_⟩
    refine Feed.step_documents hstore ?_
    rintro i rfl
    simp [Action.commits] at hquiet
  | setSettings settings | setDirectories directories | setAssets assets | send event hlocal _ =>
    exact h
  | startLoad request hcurrent =>
    rcases h with ⟨load, hload, hgeneration, hrequest, hfresh⟩
    refine ⟨load, ?_, hgeneration, hrequest, hfresh⟩
    rw [List.getElem?_append_left]
    · exact hload
    · exact (List.getElem?_eq_some_iff.mp hload).1
  | load hload _ hid hload' => exact h.loadStep hload hload'

theorem fresh_run {actions : List Action} (hrun : Run (Guarded Meets WorldStepTo) world actions world')
    (hquiet : ∀ action ∈ actions, action.commits = false)
    (h : FreshAt id generation entryFilePath after world) :
    FreshAt id generation entryFilePath after world' := by
  induction hrun with
  | nil world => exact h
  | cons hstep _ ih =>
    refine ih (fun action haction => hquiet action (List.mem_cons_of_mem _ haction)) ?_
    exact fresh_step h (hquiet _ List.mem_cons_self) hstep.2

end FreshSteps

/-! ## Convergence -/

/-- The session holds the text documents of the server: the same paths, with the
same contents. -/
def Converged (world : World) : Prop :=
  ∀ path content, world.session.context.documents.lookup path = some content ↔
    ∃ row ∈ documentsOf world.projectId world.store.documents,
      isTextRow row = true ∧ row.path = path ∧ row.content = content

/-- A text file of the delta's tree that is no document, and so an asset, is at no
path where the session holds one. -/
def NoAssetStandsIn (world : World) (id : LoadId) : Prop :=
  ∀ load ∈ world.loads[id]?, ∀ tree ∈ load.tree, ∀ path ∈ textFilePaths tree.nodes,
    (∃ row ∈ documentsOf world.projectId world.store.documents, row.path = path)
      ∨ world.session.context.documents.lookup path = none

section LastDelta

variable {world world' : World} {id : LoadId} {load : Load} {entryFilePath : Text}
  {after : Option Int} {text : Text}

/-- The step applies what the delta of the current session delivers. -/
theorem succeed_delta (hinv : WorldInv world) (hload : world.loads[id]? = some load)
    (hrequest : load.request = .delta entryFilePath after)
    (hgeneration : load.generation = world.generation) (hopen : world.session.isOpen = true)
    (hstep : step world (.succeed id text) = some world') :
    ∃ result, load.result = some result ∧ world' =
      { world.setLoad id { load with isOver := true } with
        session :=
          { state := .available .online
            context := applyDelta world.session.context result
              { path := world.session.context.activePath, dirty := false, text := text } } } := by
  simp only [step, Action.load, hload] at hstep
  split at hstep
  · simp at hstep
  rcases Option.map_eq_some_iff.mp hstep with ⟨result, hresult, rfl⟩
  refine ⟨result, hresult, ?_⟩
  have hevent : world.succeeded load result text
      = .deltaSucceeded world.session.context.scope.generation result
        { path := world.session.context.activePath, dirty := false, text } := by
    simp only [World.succeeded, hrequest, hgeneration, World.generation]
  have hepoch : ∀ epoch ∈ world.session.context.contentEpoch, result.contentEpoch = epoch := by
    intro epoch hepoch
    rw [(hinv.loads load (List.mem_of_getElem? hload)).result_epoch hresult,
      hinv.session.epoch epoch hepoch]
  rw [hevent]
  simp only [World.send, World.setLoad, transition_delta hopen hepoch]

/-- Where the server has no text document, a fresh delta leaves what the session
held at a file of the tree, and nothing elsewhere. -/
theorem lookup_of_no_row (hfresh : Fresh world.store world.projectId load)
    (tree : ProjectTreeResponse) (settings : ProjectSettings) (assets : List ProjectAsset)
    (text : Text) {path : Text} (hnone : ∀ row ∈ documentsOf world.projectId world.store.documents,
      row.path = path → isTextRow row = false) :
    (applyDelta world.session.context (load.assemble tree settings assets)
        { path := world.session.context.activePath, dirty := false, text := text }).documents.lookup
          path
      = if path ∈ textFilePaths tree.nodes then world.session.context.documents.lookup path
        else none := by
  have hincoming : (mapDocumentsByPath load.loaded.documents).lookup path = none := by
    cases hlookup : (mapDocumentsByPath load.loaded.documents).lookup path with
    | none => rfl
    | some content =>
      rcases Delivered.exists_of_lookup hlookup with ⟨row, hrow, hpath, -⟩
      rcases hfresh.received row hrow with ⟨hmem, htext⟩
      simp [hnone row hmem hpath] at htext
  rw [lookup_applyDelta rfl, Load.assemble_nodes, Load.assemble_documents, hincoming,
    Option.none_or]

end LastDelta

/-- The run of a session up to its last delta, none of whose reads is made before
the server has committed its last change. Every page is read while no number in
flight lies below it, and every delta applied lists in its tree what it delivers
and starts within what the session holds. Then the session has converged, unless
an asset stands in for a document that it held. -/
theorem delta_converges {projectId : Uuid} {contentEpoch : Int} {settings : ProjectSettings}
    {directories : List Text} {assets : List ProjectAsset} {scope : WorkspaceSessionScope}
    {earlier later : List Action} {changed read applied : World} {id : LoadId}
    {generation entryFilePath text : Text} {after : Option Int}
    (hearlier : Run (Guarded Meets WorldStepTo)
      (World.init projectId contentEpoch settings directories assets scope) earlier changed)
    (hload : changed.loads[id]? = some (Load.start generation (.delta entryFilePath after)))
    (hlater : Run (Guarded Meets WorldStepTo) changed later read)
    (hquiet : ∀ action ∈ later, action.commits = false)
    (hlast : Guarded Meets WorldStepTo read (.succeed id text) applied)
    (hopen : read.session.isOpen = true) (hgeneration : generation = read.generation) :
    Converged applied ↔ NoAssetStandsIn read id := by
  have hinv := run_worldInv (hearlier.append hlater)
    (init_worldInv projectId contentEpoch settings directories assets scope)
  have hafter := worldInv_step hinv hlast.1 hlast.2
  rcases fresh_run hlater hquiet ⟨_, hload, rfl, rfl, Fresh.start _ _ _ _⟩
    with ⟨load, hread, hloadGeneration, hrequest, hfresh⟩
  rcases succeed_delta hinv hread hrequest (hloadGeneration.trans hgeneration) hopen hlast.2
    with ⟨result, hresult, rfl⟩
  rcases Load.result_some hresult with ⟨tree, resultSettings, resultAssets, htree, hdone, rfl⟩
  -- every text document is held, by the invariant
  have hheld : ∀ row ∈ documentsOf read.projectId read.store.documents, isTextRow row = true →
      (applyDelta read.session.context (load.assemble tree resultSettings resultAssets)
        { path := read.session.context.activePath, dirty := false, text := text }).documents.lookup
          row.path = some row.content :=
    fun row hrow htext => hafter.session.current row hrow htext (hfresh.complete hdone row hrow)
  constructor
  · intro hconverged load' hload' tree' htree' path hpath
    rw [hread] at hload'
    cases hload'
    rw [htree] at htree'
    cases htree'
    by_cases hrow : ∃ row ∈ documentsOf read.projectId read.store.documents, row.path = path
    · exact .inl hrow
    right
    cases hlookup : read.session.context.documents.lookup path with
    | none => rfl
    | some content =>
      have hnone : ∀ row ∈ documentsOf read.projectId read.store.documents,
          row.path = path → isTextRow row = false :=
        fun row hmem heq => absurd ⟨row, hmem, heq⟩ hrow
      have hstale := lookup_of_no_row hfresh tree resultSettings resultAssets text hnone
      rw [if_pos hpath, hlookup] at hstale
      rcases (hconverged path content).mp hstale with ⟨row, hmem, -, heq, -⟩
      exact absurd ⟨row, hmem, heq⟩ hrow
  · intro hnoAsset path content
    constructor
    · intro hlookup
      by_cases hrow : ∃ row ∈ documentsOf read.projectId read.store.documents,
          row.path = path ∧ isTextRow row = true
      · rcases hrow with ⟨row, hmem, rfl, htext⟩
        have hcurrent := hheld row hmem htext
        exact ⟨row, hmem, htext, rfl, Option.some.inj (hcurrent.symm.trans hlookup)⟩
      have hnone : ∀ row ∈ documentsOf read.projectId read.store.documents,
          row.path = path → isTextRow row = false := by
        intro row hmem heq
        by_contra htext
        exact hrow ⟨row, hmem, heq, by simpa using htext⟩
      have hstale := lookup_of_no_row hfresh tree resultSettings resultAssets text hnone
      have hstale := hstale.symm.trans hlookup
      split at hstale
      · next hpath =>
        -- a document at a text path would be a text document
        rcases hnoAsset load hread tree htree path hpath with ⟨row, hmem, heq⟩ | hempty
        · refine absurd ⟨row, hmem, heq, ?_⟩ hrow
          rw [isTextRow, heq]
          exact (mem_textFilePaths.mp hpath).1
        · rw [hempty] at hstale
          simp at hstale
      · simp at hstale
    · rintro ⟨row, hmem, htext, rfl, rfl⟩
      exact hheld row hmem htext

/-! ## A document dropped for good -/

def emptyWorld : World :=
  World.init 0 0
    { projectType := .typst, entryFilePath := ['m'], latexEngine := none, settingsRevision := 0 }
    [] []
    { generation := ['g'], projectId := 0, cacheIdentity := [], projectTypeHint := .typst,
      latexEngineHint := .xetex, defaultEntry := ['m'], isUnavailable := false }

def readAll (id : LoadId) : List Action :=
  [.read id .treeProject, .read id .treeDocuments, .read id .treeDirectories, .read id .treeAssets,
   .read id .settings, .read id .documentPage, .read id .assets]

def createDocument : List Action :=
  [.server (.begin 0 false), .server (.draw 0),
   .server (.write 0 (.insert 10 ['a', '.', 't', 'y', 'p'] ['x'])), .server (.markDirty 0),
   .server (.commit 0)]

/-- The project is loaded while it is empty, and a delta is started. -/
def bootstrapped : List Action :=
  [.startLoad (.bootstrap .typst false)] ++ readAll 0
    ++ [.succeed 0 [], .startLoad (.delta ['m'] none)]

/-- The delta reads the document paths, a document is made, the delta reads the
rest and is applied; another is started. -/
def overlooked : List Action :=
  bootstrapped ++ [.read 1 .treeDocuments] ++ createDocument
    ++ [.read 1 .treeProject, .read 1 .treeDirectories, .read 1 .treeAssets, .read 1 .settings,
        .read 1 .documentPage, .read 1 .assets, .succeed 1 [], .startLoad (.delta ['m'] (some 1))]

/-- The last delta reads everything after the only change, its tree lists the
document, and the session does not hold it. -/
theorem overlooked_missed :
    ∃ changed read applied, exec step emptyWorld overlooked = some changed
      ∧ changed.loads[2]? = some (Load.start ['g'] (.delta ['m'] (some 1)))
      ∧ exec step changed (readAll 2) = some read
      ∧ (∀ action ∈ readAll 2, action.commits = false)
      ∧ step read (.succeed 2 []) = some applied
      ∧ read.session.isOpen = true ∧ read.generation = ['g'] ∧ read.assets = []
      ∧ ¬ Converged applied := by
  let changed := (exec step emptyWorld overlooked).getD emptyWorld
  have hchanged : exec step emptyWorld overlooked = some changed :=
    eq_some_getD (by decide +kernel) _
  let read := (exec step changed (readAll 2)).getD emptyWorld
  have hread : exec step changed (readAll 2) = some read := eq_some_getD (by decide +kernel) _
  let applied := (step read (.succeed 2 [])).getD emptyWorld
  have happlied : step read (.succeed 2 []) = some applied := eq_some_getD (by decide +kernel) _
  refine ⟨changed, read, applied, hchanged, by decide +kernel, hread, by decide, happlied,
    by decide +kernel, by decide +kernel, by decide +kernel, ?_⟩
  intro hconverged
  have hlookup : applied.session.context.documents.lookup ['a', '.', 't', 'y', 'p'] = none := by
    decide +kernel
  have hrow : ∃ row ∈ documentsOf applied.projectId applied.store.documents,
      isTextRow row = true ∧ row.path = ['a', '.', 't', 'y', 'p'] ∧ row.content = ['x'] := by
    decide +kernel
  rw [(hconverged _ _).mpr hrow] at hlookup
  cases hlookup

/-- The same with the document made before the delta reads anything. -/
def listed : List Action :=
  bootstrapped ++ createDocument ++ readAll 1 ++ [.succeed 1 [], .startLoad (.delta ['m'] (some 1))]

/-- Take only steps that meet the condition. -/
def guardedStep (world : World) (action : Action) : Option World :=
  if Meets world action then step world action else none

theorem listed_converges :
    ∃ changed read applied,
      Run (Guarded Meets WorldStepTo) emptyWorld listed changed
      ∧ Run (Guarded Meets WorldStepTo) changed (readAll 2) read
      ∧ Guarded Meets WorldStepTo read (.succeed 2 []) applied
      ∧ (documentsOf 0 applied.store.documents).length = 1
      ∧ (Converged applied ↔ NoAssetStandsIn read 2) ∧ Converged applied := by
  let changed := (exec guardedStep emptyWorld listed).getD emptyWorld
  have hchanged : exec guardedStep emptyWorld listed = some changed :=
    eq_some_getD (by decide +kernel) _
  let read := (exec guardedStep changed (readAll 2)).getD emptyWorld
  have hread : exec guardedStep changed (readAll 2) = some read :=
    eq_some_getD (by decide +kernel) _
  let applied := (guardedStep read (.succeed 2 [])).getD emptyWorld
  have happlied : guardedStep read (.succeed 2 []) = some applied :=
    eq_some_getD (by decide +kernel) _
  have hearlier : Run (Guarded Meets WorldStepTo) emptyWorld listed changed :=
    exec_guarded_run hchanged
  have hlater : Run (Guarded Meets WorldStepTo) changed (readAll 2) read := exec_guarded_run hread
  have hlast : Guarded Meets WorldStepTo read (.succeed 2 []) applied := by
    unfold guardedStep at happlied
    split at happlied
    · next hmeets => exact ⟨hmeets, happlied⟩
    · simp at happlied
  have hload : changed.loads[2]? = some (Load.start ['g'] (.delta ['m'] (some 1))) := by
    decide +kernel
  have hopen : read.session.isOpen = true := by decide +kernel
  have hgeneration : ['g'] = read.generation := by decide +kernel
  have hiff := delta_converges hearlier hload hlater (by decide) hlast hopen hgeneration
  have hnoAsset : NoAssetStandsIn read 2 := by
    unfold NoAssetStandsIn
    decide +kernel
  exact ⟨changed, read, applied, hearlier, hlater, hlast, by decide +kernel, hiff,
    hiff.mpr hnoAsset⟩

end Toss.Web
