import Toss.BrowserBackend.BrowserMoves
import Toss.BrowserBackend.BrowserSeeds
import Mathlib.Data.Char
import Mathlib.Data.List.Lex
import Mathlib.Data.Prod.Lex
import Mathlib.Order.WithBot

/-!
# The browser store over its runs

Every operation is one transaction, in any order and on any project. The tree of a project is
laid out, and its change feed is complete, as long as the operations that commit meet
`TreeGuard`.

* `BrowserHistory` — the store, with the paths at which projects ever had documents;
* `TreeGuard` — what the operations do not check;
* `Laid` — the invariant, `Fed` — what a run tells the readers of the feed;
* `merged_delta` — a delta brings a projection up to date;
* `browser_store_keeps_trees` — the store over its runs.
-/

namespace Toss.BrowserBackend

open Toss.Foundation Toss.Workspace Toss.Web

variable {Y : Type}

/-! ## Runs -/

/-- The store, and every path at which a project has had a document. -/
structure BrowserHistory (Y : Type) where
  db : BrowserDatabase Y
  documentPaths : List (Uuid × Text)
deriving DecidableEq

def BrowserHistory.empty : BrowserHistory Y :=
  ⟨⟨0, [], [], []⟩, []⟩

def documentEntries (db : BrowserDatabase Y) : List (Uuid × Text) :=
  db.documents.map fun document => (document.projectId, document.path)

def BrowserHistory.holding (history : BrowserHistory Y) (db : BrowserDatabase Y) :
    BrowserHistory Y :=
  ⟨db, history.documentPaths ++ documentEntries db⟩

/-- A transaction, which commits or aborts. -/
def BrowserHistory.step [SemilatticeSup Y] [OrderBot Y] (platform : BrowserPlatform Y)
    (history : BrowserHistory Y) (action : BrowserAction Y) : Option (BrowserHistory Y) :=
  some (history.holding (history.db.transact platform action))

/-- What the operations do not check of the paths they are given. -/
def TreeGuard (history : BrowserHistory Y) : BrowserAction Y → Prop
  | .createSeededProject _ seed => SeedGuard seed
  | .copyProject _ _ => True
  | .createFile _ input => ∀ path, validPath input.path = .ok path →
    (∀ parent ∈ ancestors path, IsPlainPath parent)
      ∧ (input.kind = .file → isTextFile path = true) ∧ (input.kind = .directory → IsPlainPath path)
  | .movePath projectId fromValue toValue => ∀ fromPath toPath, validPath fromValue = .ok fromPath →
    validPath toValue = .ok toPath →
    (∀ parent ∈ ancestors toPath, IsPlainPath parent)
      ∧ (∀ project ∈ history.db.projects, project.id = projectId →
        fromPath ∈ project.directories → IsPlainPath toPath)
      ∧ (∀ document ∈ history.db.documents, document.projectId = projectId →
        within document.path fromPath = true →
        isTextFile (BrowserBackend.movePath document.path fromPath toPath) = true)
      ∧ ∀ asset ∈ history.db.assets, asset.projectId = projectId →
        within asset.path fromPath = true →
        (projectId, BrowserBackend.movePath asset.path fromPath toPath) ∉ history.documentPaths
  | .deletePath projectId value => ∀ path, validPath value = .ok path →
    ∀ project ∈ history.db.projects, project.id = projectId →
      within project.entryFilePath path = true →
      ∃ document ∈ history.db.documents, document.projectId = projectId
        ∧ within document.path path = false ∧ isEntryCandidate document.path = true
  | .upsertText _ value _ _ => ∀ path, validPath value = .ok path →
    (∀ parent ∈ ancestors path, IsPlainPath parent) ∧ isTextFile path = true
  | .uploadAsset projectId input => ∀ path, validPath input.path = .ok path →
    (∀ parent ∈ ancestors path, IsPlainPath parent) ∧ (projectId, path) ∉ history.documentPaths
  | .updateEntryFile projectId value => ∀ path, validPath value = .ok path →
    ∀ project ∈ history.db.projects, project.id = projectId →
      ∃ document ∈ history.db.documents, document.projectId = projectId ∧ document.path = path
  | .mergeDocumentUpdate _ _ _ => True

/-- The same of the operations that commit; one that fails is free. -/
def CommitGuard [SemilatticeSup Y] [OrderBot Y] (platform : BrowserPlatform Y)
    (history : BrowserHistory Y) (action : BrowserAction Y) : Prop :=
  ∀ db, history.db.execute platform action = .ok db → TreeGuard history action

/-! ## The invariant -/

/-- Every project is laid out, and the paths of its documents are recorded. -/
structure Laid (history : BrowserHistory Y) : Prop where
  keyed : history.db.Keyed
  trees : ∀ project ∈ history.db.projects, ProjectTree history.documentPaths history.db project
  drawn : ∀ entry ∈ history.documentPaths, entry.1 < history.db.nextId
  recorded : ∀ document ∈ history.db.documents,
    (document.projectId, document.path) ∈ history.documentPaths

theorem laid_empty : Laid (BrowserHistory.empty : BrowserHistory Y) := by
  have hnone : ∀ {ρ : Type} {P : ρ → Prop}, ∀ row ∈ ([] : List ρ), P row :=
    fun row hrow => absurd hrow List.not_mem_nil
  exact ⟨⟨hnone, ⟨hnone, hnone⟩, ⟨hnone, hnone⟩, hnone, hnone, hnone⟩, hnone, hnone, hnone⟩

variable {project : StoredBrowserProject}

/-- A tree stays laid out when the paths of its own documents are recorded. -/
theorem ProjectTree.recording {ever : List (Uuid × Text)} {db : BrowserDatabase Y}
    (h : ProjectTree ever db project) : ProjectTree (ever ++ documentEntries db) db project := by
  refine ⟨h.paths, h.distinct, h.entry, h.sequence, h.text_documents, ?_⟩
  intro asset hasset hproject hmem
  rcases List.mem_append.mp hmem with hold | hnew
  · exact h.fresh_assets asset hasset hproject hold
  · rcases List.mem_map.mp hnew with ⟨document, hdocument, heq⟩
    rw [Prod.mk.injEq] at heq
    exact h.distinct document hdocument heq.1 asset hasset hproject heq.2

theorem Laid.holding {history : BrowserHistory Y} {db : BrowserDatabase Y} (h : Laid history)
    (hkeyed : db.Keyed) (htrees : ∀ row ∈ db.projects, ProjectTree history.documentPaths db row)
    (hnext : history.db.nextId ≤ db.nextId) : Laid (history.holding db) := by
  refine ⟨hkeyed, fun row hrow => (htrees row hrow).recording, ?_, ?_⟩
  · intro entry hentry
    rcases List.mem_append.mp hentry with hold | hnew
    · exact (h.drawn entry hold).trans_le hnext
    · rcases List.mem_map.mp hnew with ⟨document, hdocument, rfl⟩
      exact (hkeyed.documents_drawn document hdocument).2
  · exact fun document hdocument =>
      List.mem_append_right _ (List.mem_map.mpr ⟨document, hdocument, rfl⟩)

/-- What the readers of a feed may rely on between two states. -/
structure Fed (history now : BrowserHistory Y) : Prop where
  paths : ∀ entry ∈ history.documentPaths, entry ∈ now.documentPaths
  projects : ∀ project ∈ history.db.projects, ∃ next ∈ now.db.projects, next.id = project.id
    ∧ project.documentsChangeSequence ≤ next.documentsChangeSequence
    ∧ ∀ document ∈ now.db.documents, document.projectId = project.id →
      document ∈ history.db.documents
        ∨ project.documentsChangeSequence < document.changeSequence

namespace Fed

theorem refl (history : BrowserHistory Y) : Fed history history :=
  ⟨fun _ h => h, fun project hproject => ⟨project, hproject, rfl, le_rfl, fun _ hdocument _ =>
    .inl hdocument⟩⟩

theorem trans {history middle now : BrowserHistory Y} (h : Fed history middle)
    (h' : Fed middle now) : Fed history now := by
  refine ⟨fun entry hentry => h'.paths entry (h.paths entry hentry), ?_⟩
  intro project hproject
  rcases h.projects project hproject with ⟨next, hnext, hid, hle, hfed⟩
  rcases h'.projects next hnext with ⟨last, hlast, hlastId, hlastLe, hlastFed⟩
  refine ⟨last, hlast, hlastId.trans hid, hle.trans hlastLe, ?_⟩
  intro document hdocument hdocumentProject
  rcases hlastFed document hdocument (hdocumentProject.trans hid.symm) with hmiddle | hlater
  · exact hfed document hmiddle hdocumentProject
  · exact .inr (hle.trans_lt hlater)

end Fed

/-- A project written, and no row of another. -/
theorem Laid.keeps {history : BrowserHistory Y} {db : BrowserDatabase Y} {projectId : Uuid}
    (h : Laid history) (hkeeps : KeepsTree history.documentPaths history.db db projectId) :
    Laid (history.holding db) ∧ Fed history (history.holding db) := by
  rcases hkeeps with ⟨project, hproject, rfl, project', hrewrites, htree⟩
  constructor
  · refine h.holding hrewrites.keyed ?_ hrewrites.nextId
    intro row hrow
    rcases (hrewrites.projects row).mp hrow with rfl | ⟨hold, hne⟩
    · exact htree (h.trees project hproject)
    · refine (h.trees row hold).frame (fun document hdocument => ?_) fun asset hasset => ?_
      · exact hrewrites.documents document (hdocument.trans_ne hne)
      · exact hrewrites.assets asset (hasset.trans_ne hne)
  · refine ⟨fun entry hentry => List.mem_append_left _ hentry, fun row hrow => ?_⟩
    by_cases hsame : row.id = project.id
    · rw [h.keyed.projects row hrow project hproject hsame]
      exact ⟨project', (hrewrites.projects project').mpr (.inl rfl), hrewrites.id_eq,
        hrewrites.sequence, hrewrites.fed⟩
    · refine ⟨row, (hrewrites.projects row).mpr (.inr ⟨hrow, hsame⟩), rfl, le_rfl, ?_⟩
      intro document hdocument hdocumentProject
      exact .inl ((hrewrites.documents document (hdocumentProject.trans_ne hsame)).mp hdocument)

/-- A project added. -/
theorem Laid.adds {history : BrowserHistory Y} {db : BrowserDatabase Y} (h : Laid history)
    (hadds : Adds history.db db project) (htree : ProjectTree history.documentPaths db project) :
    Laid (history.holding db) ∧ Fed history (history.holding db) := by
  have hother : ∀ row ∈ history.db.projects, row.id ≠ history.db.nextId :=
    fun row hrow => (h.keyed.projects_drawn row hrow).ne
  constructor
  · refine h.holding hadds.keyed ?_ hadds.nextId.le
    intro row hrow
    rcases (hadds.projects row).mp hrow with rfl | hold
    · exact htree
    · refine (h.trees row hold).frame (fun document hdocument => ?_) fun asset hasset => ?_
      · exact hadds.documents document (hdocument.trans_ne (hother row hold))
      · exact hadds.assets asset (hasset.trans_ne (hother row hold))
  · refine ⟨fun entry hentry => List.mem_append_left _ hentry, fun row hrow => ?_⟩
    refine ⟨row, (hadds.projects row).mpr (.inr hrow), rfl, le_rfl, ?_⟩
    intro document hdocument hdocumentProject
    exact .inl ((hadds.documents document (hdocumentProject.trans_ne (hother row hrow))).mp hdocument)

/-- Nothing written. -/
theorem Laid.aborted {history : BrowserHistory Y} (h : Laid history) :
    Laid (history.holding history.db) ∧ Fed history (history.holding history.db) :=
  ⟨h.holding h.keyed h.trees le_rfl,
    fun _ hentry => List.mem_append_left _ hentry, (Fed.refl history).projects⟩

/-! ## Steps -/

section Step

variable [SemilatticeSup Y] [OrderBot Y] {platform : BrowserPlatform Y}
  {history next : BrowserHistory Y} {action : BrowserAction Y}

theorem Laid.commit {db : BrowserDatabase Y} (h : Laid history) (hguard : TreeGuard history action)
    (hexec : history.db.execute platform action = .ok db) :
    Laid (history.holding db) ∧ Fed history (history.holding db) := by
  cases action with
  | createSeededProject name seed =>
    rcases createSeededProject_adds h.keyed h.drawn hguard hexec with ⟨project, hadds, htree⟩
    exact h.adds hadds htree
  | copyProject sourceProjectId name =>
    rcases copyProject_adds h.keyed h.drawn (fun project hproject _ => h.trees project hproject)
      hexec with ⟨project, hadds, htree⟩
    exact h.adds hadds htree
  | createFile projectId input =>
    rcases bind_eq_ok.mp hexec with ⟨path, hvalid, -⟩
    rcases hguard path hvalid with ⟨hplain, hfile, hdirectory⟩
    exact h.keeps (createFile_keeps h.keyed hexec hvalid hplain hfile hdirectory)
  | movePath projectId fromValue toValue =>
    rcases bind_eq_ok.mp hexec with ⟨fromPath, hfrom, hrest⟩
    rcases bind_eq_ok.mp hrest with ⟨toPath, hto, -⟩
    rcases hguard fromPath toPath hfrom hto with ⟨hplain, hdirectory, htext, hfresh⟩
    rcases moveTree_keeps h.keyed hexec hfrom hto hplain hdirectory htext hfresh with rfl | hkeeps
    · exact h.aborted
    · exact h.keeps hkeeps
  | deletePath projectId value =>
    rcases bind_eq_ok.mp hexec with ⟨path, hvalid, -⟩
    exact h.keeps (deletePath_keeps h.keyed hexec hvalid (hguard path hvalid))
  | upsertText projectId value content expectedContentEpoch =>
    rcases map_eq_ok.mp hexec with ⟨⟨db', document⟩, hupsert, rfl⟩
    rcases bind_eq_ok.mp hupsert with ⟨path, hvalid, -⟩
    rcases hguard path hvalid with ⟨hplain, htext⟩
    exact h.keeps (upsertText_keeps h.keyed hupsert hvalid hplain htext)
  | uploadAsset projectId input =>
    rcases bind_eq_ok.mp hexec with ⟨path, hvalid, -⟩
    rcases hguard path hvalid with ⟨hplain, hfresh⟩
    refine h.keeps (uploadAsset_keeps h.keyed hexec hvalid hplain ?_ hfresh)
    rintro document hdocument rfl rfl
    exact hfresh (h.recorded document hdocument)
  | updateEntryFile projectId value =>
    rcases bind_eq_ok.mp hexec with ⟨path, hvalid, -⟩
    exact h.keeps (updateEntryFile_keeps h.keyed hexec hvalid (hguard path hvalid))
  | mergeDocumentUpdate projectId documentId update =>
    rcases map_eq_ok.mp hexec with ⟨⟨db', document⟩, hmerge, rfl⟩
    exact h.keeps (mergeDocumentUpdate_keeps h.keyed hmerge)

theorem Laid.step (h : Laid history) (hguard : CommitGuard platform history action)
    (hstep : history.step platform action = some next) : Laid next ∧ Fed history next := by
  rw [BrowserHistory.step, Option.some.injEq] at hstep
  subst hstep
  unfold BrowserDatabase.transact
  split
  · next db hexec => exact h.commit (hguard db hexec) hexec
  · exact h.aborted

end Step

/-! ## Deltas -/

section Delta

variable {platform : BrowserPlatform Y} {db : BrowserDatabase Y} {projectId : Uuid}

theorem getProject_of_mem (hkeyed : db.Keyed) (h : project ∈ db.projects) :
    db.getProject project.id = .ok project := by
  unfold BrowserDatabase.getProject
  cases hfound : db.projects.find? (·.id = project.id) with
  | none => simpa using List.find?_eq_none.mp hfound project h
  | some found =>
    have hid := List.find?_some hfound
    rw [decide_eq_true_eq] at hid
    rw [hkeyed.projects found (List.mem_of_find?_eq_some hfound) project h hid]

/-- The documents that a load shows. -/
theorem loadWorkspace_documents (platform : BrowserPlatform Y) (afterSequence : Option Int)
    (h : db.getProject projectId = .ok project) :
    ∃ loaded, loadWorkspace platform db projectId afterSequence = .ok loaded
      ∧ loaded.documentsChangeSequence = some project.documentsChangeSequence
      ∧ loaded.documents = byName StoredBrowserDocument.path StoredBrowserDocument.content
        ((db.documentsOf platform projectId).filter fun document =>
          afterSequence.all (· < document.changeSequence))
      ∧ ∀ path, path ∈ textFilePaths loaded.nodes
        ↔ db.IsFile projectId path ∧ isTextFile path = true := by
  refine ⟨_, by unfold loadWorkspace; rw [h]; rfl, rfl, rfl, fun path => ?_⟩
  rw [isFile_iff platform]
  simp only [textFilePaths, List.mem_map, List.mem_filter, List.mem_insertionSort, List.mem_append,
    Bool.and_eq_true, decide_eq_true_eq]
  constructor
  · rintro ⟨node, ⟨(⟨directory, -, rfl⟩ | ⟨document, hdocument, rfl⟩) | ⟨asset, hasset, rfl⟩, hkind,
      htext⟩, rfl⟩
    · cases hkind
    · exact ⟨.inl ⟨document, hdocument, rfl⟩, htext⟩
    · exact ⟨.inr ⟨asset, hasset, rfl⟩, htext⟩
  · rintro ⟨⟨document, hdocument, rfl⟩ | ⟨asset, hasset, rfl⟩, htext⟩
    · exact ⟨_, ⟨.inl (.inr ⟨document, hdocument, rfl⟩), rfl, htext⟩, rfl⟩
    · exact ⟨_, ⟨.inr ⟨asset, hasset, rfl⟩, rfl, htext⟩, rfl⟩

variable {kept : StoredBrowserDocument Y → Bool}

/-- A document of the project is what the documents that hold it show at its path. -/
theorem lookup_documents (hkeyed : db.Keyed) {document : StoredBrowserDocument Y}
    (hdocument : document ∈ db.documents) (hproject : document.projectId = projectId) :
    (byName StoredBrowserDocument.path StoredBrowserDocument.content
      ((db.documentsOf platform projectId).filter kept)).lookup document.path
      = if kept document then some document.content else none := by
  have hone : ∀ other ∈ (db.documentsOf platform projectId).filter kept,
      other.path = document.path → other = document := by
    intro other hother hpath
    rw [List.mem_filter, BrowserDatabase.mem_documentsOf] at hother
    exact hkeyed.documents.path_inj other hother.1.1 document hdocument
      (hother.1.2.trans hproject.symm) hpath
  split
  · next hkept =>
    refine lookup_byName_of_mem _ (List.mem_filter.mpr ⟨?_, hkept⟩) hone
    exact BrowserDatabase.mem_documentsOf.mpr ⟨hdocument, hproject⟩
  rename_i hnot
  rw [lookup_byName_eq_none]
  intro other hother hpath
  rw [← hone other hother hpath] at hnot
  exact hnot (List.mem_filter.mp hother).2

theorem lookup_documents_eq_none {path : Text}
    (hnone : ∀ document ∈ db.documents, document.projectId = projectId → document.path ≠ path) :
    (byName StoredBrowserDocument.path StoredBrowserDocument.content
      ((db.documentsOf platform projectId).filter kept)).lookup path = none := by
  rw [lookup_byName_eq_none]
  intro document hdocument
  rcases BrowserDatabase.mem_documentsOf.mp (List.mem_of_mem_filter hdocument) with ⟨hmem, hproject⟩
  exact hnone document hmem hproject

/-- A delta after the cursor of a projection brings it up to date. -/
theorem merged_delta {history now : BrowserHistory Y} (hhistory : Laid history) (hnow : Laid now)
    (hfed : Fed history now) {bootstrap : WorkspaceBootstrap}
    (hbootstrap : loadBootstrap platform history.db projectId = .ok bootstrap) :
    ∃ cursor delta latest, bootstrap.documentsChangeSequence = some cursor
      ∧ loadDelta platform now.db projectId cursor = .ok delta
      ∧ loadBootstrap platform now.db projectId = .ok latest
      ∧ ∀ (current : Record Text) (activePath activeDocumentText : Text),
        (∀ path, current.lookup path = bootstrap.documents.lookup path) →
        ∀ path, (mergeWorkspaceDocumentDelta
            { current
              incoming := delta.documents
              nodes := delta.nodes
              activePath
              activeDocumentDirty := false
              activeDocumentText }).lookup path = latest.documents.lookup path := by
  rcases bind_eq_ok.mp hbootstrap with ⟨project, hget, -⟩
  rcases BrowserDatabase.getProject_ok hget with ⟨hproject, rfl⟩
  rcases hfed.projects project hproject with ⟨next, hnext, hid, -, hfedDocuments⟩
  have hgetNext : now.db.getProject project.id = .ok next := by
    rw [← hid]
    exact getProject_of_mem hnow.keyed hnext
  rcases loadWorkspace_documents platform none hget with ⟨loaded, hloaded, hcursor, hshown, -⟩
  rcases loadWorkspace_documents platform (some project.documentsChangeSequence) hgetNext with
    ⟨delta, hdelta, -, hdeltaDocuments, hdeltaNodes⟩
  rcases loadWorkspace_documents platform none hgetNext with ⟨latest, hlatest, -, hlatestShown, -⟩
  rw [loadBootstrap, hloaded, Except.ok.injEq] at hbootstrap
  subst hbootstrap
  refine ⟨_, delta, latest, hcursor, hdelta, hlatest, fun current activePath text hcurrent path => ?_⟩
  rw [lookup_mergeWorkspaceDocumentDelta rfl, hcurrent, hlatestShown, hshown]
  rw [hdeltaDocuments]
  by_cases hdocument : ∃ document ∈ now.db.documents, document.projectId = project.id
      ∧ document.path = path
  · rcases hdocument with ⟨document, hmem, hdocumentProject, rfl⟩
    have htext := (hnow.trees next hnext).text_documents document hmem
      (hdocumentProject.trans hid.symm)
    rw [if_pos ((hdeltaNodes _).mpr ⟨.inl ⟨document, hmem, hdocumentProject, rfl⟩, htext⟩),
      lookup_documents hnow.keyed hmem hdocumentProject,
      lookup_documents hnow.keyed hmem hdocumentProject]
    by_cases hlater : project.documentsChangeSequence < document.changeSequence
    · simp [hlater]
    -- it was there, and the projection has it
    have hbefore : document ∈ history.db.documents :=
      (hfedDocuments document hmem hdocumentProject).resolve_right hlater
    rw [lookup_documents hhistory.keyed hbefore hdocumentProject]
    simp [hlater]
  · push Not at hdocument
    rw [lookup_documents_eq_none hdocument, lookup_documents_eq_none hdocument, Option.none_or]
    split
    · next hlisted =>
      -- a listed path without a document is that of an asset, which never had one
      rcases ((hdeltaNodes path).mp hlisted).1 with ⟨document, hmem, hdocumentProject, hpath⟩ | ⟨asset, hasset, hassetProject,
        rfl⟩
      · exact absurd hpath (hdocument document hmem hdocumentProject)
      rw [lookup_documents_eq_none]
      rintro document hmem hdocumentProject hpath
      refine (hnow.trees next hnext).fresh_assets asset hasset (hassetProject.trans hid.symm) ?_
      rw [hid, ← hpath, ← hdocumentProject]
      exact hfed.paths _ (hhistory.recorded document hmem)
    · rfl

end Delta

/-! ## The store over its runs -/

/-- A project whose tree can be laid out. -/
structure WellFormedProject (db : BrowserDatabase Y) (project : StoredBrowserProject) : Prop where
  document_paths : ∀ document ∈ db.documents, document.projectId = project.id →
    ∀ other ∈ db.documents, other.projectId = project.id → document.path = other.path →
    document = other
  asset_paths : ∀ asset ∈ db.assets, asset.projectId = project.id →
    ∀ other ∈ db.assets, other.projectId = project.id → asset.path = other.path → asset = other
  directory_paths : project.directories.Nodup
  document_not_asset : ∀ document ∈ db.documents, document.projectId = project.id →
    ∀ asset ∈ db.assets, asset.projectId = project.id → document.path ≠ asset.path
  file_not_directory : ∀ path, db.IsFile project.id path → path ∉ project.directories
  parents : ∀ path, db.IsFile project.id path ∨ path ∈ project.directories →
    ∀ parent ∈ ancestors path, parent ∈ project.directories ∧ ¬ db.IsFile project.id parent
  entry : ∃ document ∈ db.documents, document.projectId = project.id
    ∧ document.path = project.entryFilePath
  sequence : ∀ document ∈ db.documents, document.projectId = project.id →
    document.changeSequence ≤ project.documentsChangeSequence

theorem ProjectTree.wellFormed {ever : List (Uuid × Text)} {db : BrowserDatabase Y}
    (h : ProjectTree ever db project) (hkeyed : db.Keyed) :
    WellFormedProject db project where
  document_paths document hdocument hproject other hother hotherProject hpath :=
    hkeyed.documents.path_inj document hdocument other hother (hproject.trans hotherProject.symm)
      hpath
  asset_paths asset hasset hproject other hother hotherProject hpath :=
    hkeyed.assets.path_inj asset hasset other hother (hproject.trans hotherProject.symm) hpath
  directory_paths := h.paths.nodup
  document_not_asset := h.distinct
  file_not_directory := h.paths.file_not_directory
  parents path hpath parent hparent :=
    ⟨h.paths.closed path hpath parent hparent, h.paths.parent_not_file hpath hparent⟩
  entry := h.entry
  sequence := h.sequence

variable [SemilatticeSup Y] [OrderBot Y]

/-- What the store promises at a state `now`, to a reader that was there at `history`. -/
structure StoreKept (platform : BrowserPlatform Y) (history now : BrowserHistory Y) : Prop where
  wellFormed : ∀ project ∈ now.db.projects, WellFormedProject now.db project
  /-- The sequence grows with every document that is new, or changed. -/
  grows : ∀ project ∈ history.db.projects, ∃ next ∈ now.db.projects, next.id = project.id
    ∧ project.documentsChangeSequence ≤ next.documentsChangeSequence
    ∧ ∀ document ∈ now.db.documents, document.projectId = project.id →
      document ∉ history.db.documents →
      project.documentsChangeSequence < next.documentsChangeSequence
  aborts : ∀ action error, now.db.execute platform action = .error error →
    now.db.transact platform action = now.db
  up_to_date : ∀ projectId bootstrap, loadBootstrap platform history.db projectId = .ok bootstrap →
    ∃ cursor delta latest, bootstrap.documentsChangeSequence = some cursor
      ∧ loadDelta platform now.db projectId cursor = .ok delta
      ∧ loadBootstrap platform now.db projectId = .ok latest
      ∧ ∀ (current : Record Text) (activePath activeDocumentText : Text),
        (∀ path, current.lookup path = bootstrap.documents.lookup path) →
        ∀ path, (mergeWorkspaceDocumentDelta
            { current
              incoming := delta.documents
              nodes := delta.nodes
              activePath
              activeDocumentDirty := false
              activeDocumentText }).lookup path = latest.documents.lookup path

variable {platform : BrowserPlatform Y} {history now : BrowserHistory Y}
  {actions later : List (BrowserAction Y)}

theorem laid_fed_of_run (hhistory : Laid history)
    (hrun : Run (Guarded (CommitGuard platform) fun s a t =>
      BrowserHistory.step platform s a = some t) history actions now) :
    Laid now ∧ Fed history now := by
  induction hrun with
  | nil s => exact ⟨hhistory, Fed.refl s⟩
  | cons hstep _ ih =>
    rcases hhistory.step hstep.1 hstep.2 with ⟨hnext, hfed⟩
    rcases ih hnext with ⟨hnow, hrest⟩
    exact ⟨hnow, hfed.trans hrest⟩

theorem browser_store_keeps_trees
    (hrun : Run (Guarded (CommitGuard platform) fun s a t =>
      BrowserHistory.step platform s a = some t) BrowserHistory.empty actions history)
    (hlater : Run (Guarded (CommitGuard platform) fun s a t =>
      BrowserHistory.step platform s a = some t) history later now) :
    StoreKept platform history now := by
  have hhistory := (laid_fed_of_run laid_empty hrun).1
  rcases laid_fed_of_run hhistory hlater with ⟨hnow, hfed⟩
  constructor
  · exact fun project hproject => (hnow.trees project hproject).wellFormed hnow.keyed
  · intro project hproject
    rcases hfed.projects project hproject with ⟨next, hnext, hid, hle, hdocuments⟩
    refine ⟨next, hnext, hid, hle, fun document hdocument hdocumentProject hnew => ?_⟩
    have hlow := (hdocuments document hdocument hdocumentProject).resolve_left hnew
    exact hlow.trans_le ((hnow.trees next hnext).sequence document hdocument
      (hdocumentProject.trans hid.symm))
  · intro action error herror
    unfold BrowserDatabase.transact
    rw [herror]
  · exact fun projectId bootstrap hbootstrap => merged_delta hhistory hnow hfed hbootstrap

/-! ## Runs of one writer -/

/-- The state of a text that clients write one after another. -/
abbrev Register := WithBot (ℕ ×ₗ Text)

def soleWriter : BrowserPlatform Register where
  rank := id
  uuidText id := id.repr.toList
  clock _ := []
  localeLe left right := left ≤ right
  insertText client content := some (toLex (client, content))
  textOf state := state.elim [] fun entry => (ofLex entry).2
  textOf_insertText _ _ := rfl

def articleSeed : BrowserProjectSeed where
  projectType := .typst
  latexEngine := none
  entryFilePath := "main.typ".toList
  files := [⟨"main.typ".toList, .text "= Title".toList⟩]

/-- A directory whose name ends in a blank is renamed by the next file, not moved. -/
theorem blank_directory_breaks_the_tree :
    ¬ ∀ (actions : List (BrowserAction Register)) (now : BrowserHistory Register),
      exec (BrowserHistory.step soleWriter) BrowserHistory.empty actions = some now →
      ∀ project ∈ now.db.projects, WellFormedProject now.db project := by
  intro hall
  let actions : List (BrowserAction Register) :=
    [.createSeededProject "Paper".toList articleSeed,
      .createFile 0 ⟨.file, "a /b.typ".toList, none⟩,
      .createFile 0 ⟨.file, "c.typ".toList, none⟩]
  let now := (exec (BrowserHistory.step soleWriter) BrowserHistory.empty actions).getD .empty
  have hexec : exec (BrowserHistory.step soleWriter) BrowserHistory.empty actions = some now :=
    eq_some_getD (by decide +kernel) _
  have hfound : ∃ project ∈ now.db.projects, ∃ document ∈ now.db.documents,
      document.projectId = project.id
        ∧ ∃ parent ∈ ancestors document.path, parent ∉ project.directories := by
    decide +kernel
  rcases hfound with ⟨project, hproject, document, hdocument, hmine, parent, hparent, hmissing⟩
  have hwell := hall actions now hexec project hproject
  exact hmissing (hwell.parents document.path (.inl (.inl ⟨document, hdocument, hmine, rfl⟩)) parent
    hparent).1

theorem articleSeed_guard : SeedGuard articleSeed := by
  have hfiles : seedFiles articleSeed = articleSeed.files := by decide +kernel
  have hpath : ∀ file ∈ seedFiles articleSeed, seedPath file = .ok "main.typ".toList := by
    rw [hfiles]
    decide +kernel
  have hsame : ∀ file ∈ seedFiles articleSeed, ∀ path, seedPath file = .ok path →
      path = "main.typ".toList := by
    intro file hfile path hvalid
    rw [hpath file hfile, Except.ok.injEq] at hvalid
    exact hvalid.symm
  have hnone : ancestors "main.typ".toList = [] := by decide +kernel
  constructor
  · intro file hfile path hvalid parent hparent
    rw [hsame file hfile path hvalid, hnone] at hparent
    cases hparent
  · intro file _ other hother path below _ hbelow hparent
    rw [hsame other hother below hbelow, hnone] at hparent
    cases hparent
  · intro file hfile _ path hvalid
    rw [hsame file hfile path hvalid]
    decide +kernel
  · refine ⟨⟨"main.typ".toList, .text "= Title".toList⟩, ?_, ⟨_, rfl⟩, ?_⟩
    · rw [hfiles]
      exact List.mem_cons_self
    · decide +kernel

/-- A project is seeded, and a chapter is written below a new directory. -/
theorem chapter_is_fed :
    ∃ history now : BrowserHistory Register,
      exec (BrowserHistory.step soleWriter) BrowserHistory.empty
        [.createSeededProject "Paper".toList articleSeed] = some history
      ∧ exec (BrowserHistory.step soleWriter) history
        [.upsertText 0 "chapters/one.typ".toList "One".toList none] = some now
      ∧ now.db.documents.length = 2 ∧ StoreKept soleWriter history now := by
  let history := (exec (BrowserHistory.step soleWriter) BrowserHistory.empty
    [.createSeededProject "Paper".toList articleSeed]).getD .empty
  let now := (exec (BrowserHistory.step soleWriter) history
    [.upsertText 0 "chapters/one.typ".toList "One".toList none]).getD .empty
  have hseeded : BrowserHistory.step soleWriter BrowserHistory.empty
      (.createSeededProject "Paper".toList articleSeed) = some history := rfl
  have hwritten : BrowserHistory.step soleWriter history
      (.upsertText 0 "chapters/one.typ".toList "One".toList none) = some now := rfl
  have hseedGuard : TreeGuard (BrowserHistory.empty : BrowserHistory Register)
      (.createSeededProject "Paper".toList articleSeed) := articleSeed_guard
  refine ⟨history, now, rfl, rfl, by decide +kernel, browser_store_keeps_trees
    (.cons ⟨fun _ _ => hseedGuard, hseeded⟩ (.nil history))
    (.cons ⟨fun _ _ => ?_, hwritten⟩ (.nil now))⟩
  intro path hvalid
  have hpath : validPath "chapters/one.typ".toList = .ok "chapters/one.typ".toList := by
    decide +kernel
  rw [hpath, Except.ok.injEq] at hvalid
  subst hvalid
  refine ⟨?_, by decide +kernel⟩
  have hparents : ancestors "chapters/one.typ".toList = ["chapters".toList] := by decide +kernel
  rw [hparents]
  intro parent hparent
  rw [List.mem_singleton.mp hparent]
  constructor
  · have hsegments : segments "chapters".toList = ["chapters".toList] := by decide +kernel
    rw [hsegments]
    intro part hpart
    rw [List.mem_singleton.mp hpart]
    refine ⟨by decide +kernel, by decide +kernel, fun c hlast => ?_⟩
    have hend : "chapters".toList.getLast? = some 's' := by decide +kernel
    rw [hend, Option.mem_some_iff] at hlast
    rw [← hlast]
    decide +kernel
  · intro c hfirst
    have hstart : "chapters".toList.head? = some 'c' := by decide +kernel
    rw [hstart, Option.mem_some_iff] at hfirst
    rw [← hfirst]
    decide +kernel

end Toss.BrowserBackend
