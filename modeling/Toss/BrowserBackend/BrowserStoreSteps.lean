import Toss.BrowserBackend.BrowserTree

/-!
# What the operations of the browser store keep

One lemma for each operation that commits: it writes its own project, and the tree of that
project is laid out as before.

* `tree_putDocument`, `tree_putAsset` — a file beside those of a tree;
* `createFile_keeps`, `moveTree_keeps`, `deletePath_keeps`, `upsertText_keeps`,
  `uploadAsset_keeps`, `updateEntryFile_keeps`, `mergeDocumentUpdate_keeps` — an existing
  project;
* `createSeededProject_keeps`, `copyProject_keeps` — a new one.
-/

namespace Toss.BrowserBackend

open Toss.Foundation Toss.Workspace Toss.Web

variable {Y : Type} {ever : List (Uuid × Text)} {db db' kept next : BrowserDatabase Y}
  {project project' : StoredBrowserProject}

/-! ## Writing one file -/

/-- What commits a project after its rows. -/
theorem rewrites_putProject (hkeyed : next.Keyed) (hproject : project ∈ db.projects)
    (hid : project'.id = project.id) (hprojects : next.projects = db.projects)
    (hdocuments : ∀ document : StoredBrowserDocument Y, document.projectId ≠ project.id →
      (document ∈ next.documents ↔ document ∈ db.documents))
    (hassets : ∀ asset : StoredBrowserAsset, asset.projectId ≠ project.id →
      (asset ∈ next.assets ↔ asset ∈ db.assets))
    (hsequence : project.documentsChangeSequence ≤ project'.documentsChangeSequence)
    (hfed : ∀ document ∈ next.documents, document.projectId = project.id →
      document ∈ db.documents ∨ project.documentsChangeSequence < document.changeSequence)
    (hnext : db.nextId ≤ next.nextId) : Rewrites db (next.putProject project') project project' where
  id_eq := hid
  projects row := by
    rw [BrowserDatabase.putProject, mem_upsertRow, hprojects, hid]
  documents := hdocuments
  assets := hassets
  sequence := hsequence
  fed := hfed
  keyed := by
    refine hkeyed.putProject ?_
    rw [hid]
    exact hkeyed.projects_drawn project (hprojects ▸ hproject)
  nextId := hnext

/-- A document at a path beside the files of a tree, in place of the asset there. -/
theorem tree_putDocument {row : StoredBrowserDocument Y} {files : List Text}
    (htree : ProjectTree ever db project) (hdocuments : kept.documents = db.documents)
    (hassets : ∀ asset, asset ∈ kept.assets ↔ asset ∈ db.assets
      ∧ ¬ (asset.projectId = project.id ∧ asset.path = row.path))
    (hput : kept.putDocument row = .ok next) (hrow : row.projectId = project.id)
    (hplain : ∀ parent ∈ ancestors row.path, IsPlainPath parent) (htext : isTextFile row.path = true)
    (hsame : ∀ document ∈ db.documents, document.id = row.id →
      document.projectId = project.id ∧ document.path = row.path)
    (hdirectories : normalizedDirectories project.directories [row.path] = .ok project'.directories)
    (hvalid : validatePathNamespace project'.directories files = .ok ())
    (hfiles : ∀ path, db.IsFile project.id path ∨ path = row.path → path ∈ files)
    (hid : project'.id = project.id) (hentry : project'.entryFilePath = project.entryFilePath)
    (hsequence : project'.documentsChangeSequence = row.changeSequence)
    (hlater : project.documentsChangeSequence ≤ row.changeSequence) :
    ProjectTree ever (next.putProject project') project' := by
  rcases BrowserDatabase.putDocument_ok hput with ⟨rfl, -⟩
  rw [hdocuments] at *
  have hmem : ∀ document, document ∈ upsertRow StoredBrowserDocument.id row db.documents
      ↔ document = row ∨ (document ∈ db.documents ∧ document.id ≠ row.id) := fun _ => mem_upsertRow
  -- a document is at the path, or where it was
  have hkeptDocument : ∀ document ∈ db.documents, document.projectId = project.id →
      ∃ other ∈ upsertRow StoredBrowserDocument.id row db.documents,
        other.projectId = project.id ∧ other.path = document.path := by
    intro document hdocument hproject
    by_cases hsameId : document.id = row.id
    · exact ⟨row, (hmem row).mpr (.inl rfl), hrow, (hsame document hdocument hsameId).2.symm⟩
    · exact ⟨document, (hmem document).mpr (.inr ⟨hdocument, hsameId⟩), hproject, rfl⟩
  constructor
  · rw [hid]
    refine (htree.paths.add_file hplain hdirectories hvalid hfiles).congr fun path => ?_
    constructor
    · rintro (⟨document, hdocument, hproject, hpath⟩ | ⟨asset, hasset, hproject, hpath⟩)
      · rcases (hmem document).mp hdocument with rfl | ⟨hold, -⟩
        · exact .inr hpath.symm
        · exact .inl (.inl ⟨document, hold, hproject, hpath⟩)
      · exact .inl (.inr ⟨asset, ((hassets asset).mp hasset).1, hproject, hpath⟩)
    · rintro ((⟨document, hdocument, hproject, hpath⟩ | ⟨asset, hasset, hproject, hpath⟩) | rfl)
      · rcases hkeptDocument document hdocument hproject with ⟨other, hother, hproject', hpath'⟩
        exact .inl ⟨other, hother, hproject', hpath'.trans hpath⟩
      · by_cases hreplaced : path = row.path
        · exact .inl ⟨row, (hmem row).mpr (.inl rfl), hrow, hreplaced.symm⟩
        · refine .inr ⟨asset, (hassets asset).mpr ⟨hasset, ?_⟩, hproject, hpath⟩
          rintro ⟨-, heq⟩
          exact hreplaced (hpath.symm.trans heq)
      · exact .inl ⟨row, (hmem row).mpr (.inl rfl), hrow, rfl⟩
  · rw [hid]
    intro document hdocument hproject asset hasset hassetProject heq
    rcases (hassets asset).mp hasset with ⟨hold, hnot⟩
    rcases (hmem document).mp hdocument with rfl | ⟨hdocument, -⟩
    · exact hnot ⟨hassetProject, heq.symm⟩
    · exact htree.distinct document hdocument hproject asset hold hassetProject heq
  · rw [hid, hentry]
    rcases htree.entry with ⟨document, hdocument, hproject, hpath⟩
    rcases hkeptDocument document hdocument hproject with ⟨other, hother, hproject', hpath'⟩
    exact ⟨other, hother, hproject', hpath'.trans hpath⟩
  · rw [hid, hsequence]
    intro document hdocument hproject
    rcases (hmem document).mp hdocument with rfl | ⟨hold, -⟩
    · exact le_rfl
    · exact (htree.sequence document hold hproject).trans hlater
  · rw [hid]
    intro document hdocument hproject
    rcases (hmem document).mp hdocument with rfl | ⟨hold, -⟩
    · exact htext
    · exact htree.text_documents document hold hproject
  · rw [hid]
    intro asset hasset hproject
    exact htree.fresh_assets asset ((hassets asset).mp hasset).1 hproject

/-- An asset at a path beside the files of a tree, where there is no document. -/
theorem tree_putAsset {row : StoredBrowserAsset} {files : List Text}
    (htree : ProjectTree ever db project) (hdocuments : kept.documents = db.documents)
    (hassets : kept.assets = db.assets) (hput : kept.putAsset row = .ok next)
    (hrow : row.projectId = project.id) (hplain : ∀ parent ∈ ancestors row.path, IsPlainPath parent)
    (hfree : ∀ document ∈ db.documents, document.projectId = project.id → document.path ≠ row.path)
    (hfresh : (project.id, row.path) ∉ ever)
    (hsame : ∀ asset ∈ db.assets, asset.id = row.id →
      asset.projectId = project.id ∧ asset.path = row.path)
    (hdirectories : normalizedDirectories project.directories [row.path] = .ok project'.directories)
    (hvalid : validatePathNamespace project'.directories files = .ok ())
    (hfiles : ∀ path, db.IsFile project.id path ∨ path = row.path → path ∈ files)
    (hid : project'.id = project.id) (hentry : project'.entryFilePath = project.entryFilePath)
    (hsequence : project'.documentsChangeSequence = project.documentsChangeSequence) :
    ProjectTree ever (next.putProject project') project' := by
  rcases BrowserDatabase.putAsset_ok hput with ⟨rfl, -⟩
  have hmem : ∀ asset, asset ∈ upsertRow StoredBrowserAsset.id row kept.assets
      ↔ asset = row ∨ (asset ∈ db.assets ∧ asset.id ≠ row.id) := by
    intro asset
    rw [mem_upsertRow, hassets]
  have hdocument : ∀ document, document ∈ kept.documents ↔ document ∈ db.documents := by
    intro document
    rw [hdocuments]
  constructor
  · rw [hid]
    refine (htree.paths.add_file hplain hdirectories hvalid hfiles).congr fun path => ?_
    constructor
    · rintro (⟨document, hmemDocument, hproject, hpath⟩ | ⟨asset, hasset, hproject, hpath⟩)
      · exact .inl (.inl ⟨document, (hdocument document).mp hmemDocument, hproject, hpath⟩)
      · rcases (hmem asset).mp hasset with rfl | ⟨hold, -⟩
        · exact .inr hpath.symm
        · exact .inl (.inr ⟨asset, hold, hproject, hpath⟩)
    · rintro ((⟨document, hold, hproject, hpath⟩ | ⟨asset, hasset, hproject, hpath⟩) | rfl)
      · exact .inl ⟨document, (hdocument document).mpr hold, hproject, hpath⟩
      · by_cases hsameId : asset.id = row.id
        · refine .inr ⟨row, (hmem row).mpr (.inl rfl), hrow, ?_⟩
          rw [← (hsame asset hasset hsameId).2, hpath]
        · exact .inr ⟨asset, (hmem asset).mpr (.inr ⟨hasset, hsameId⟩), hproject, hpath⟩
      · exact .inr ⟨row, (hmem row).mpr (.inl rfl), hrow, rfl⟩
  · rw [hid]
    intro document hmemDocument hproject asset hasset hassetProject
    have hold := (hdocument document).mp hmemDocument
    rcases (hmem asset).mp hasset with rfl | ⟨hasset, -⟩
    · exact hfree document hold hproject
    · exact htree.distinct document hold hproject asset hasset hassetProject
  · rw [hid, hentry]
    rcases htree.entry with ⟨document, hold, hproject, hpath⟩
    exact ⟨document, (hdocument document).mpr hold, hproject, hpath⟩
  · rw [hid, hsequence]
    exact fun document hmemDocument =>
      htree.sequence document ((hdocument document).mp hmemDocument)
  · rw [hid]
    exact fun document hmemDocument =>
      htree.text_documents document ((hdocument document).mp hmemDocument)
  · rw [hid]
    intro asset hasset hproject
    rcases (hmem asset).mp hasset with rfl | ⟨hold, -⟩
    · exact hfresh
    · exact htree.fresh_assets asset hold hproject

/-- A document written with a sequence of its own. -/
theorem rewrites_putDocument {row : StoredBrowserDocument Y} (hkeyed : kept.Keyed)
    (hproject : project ∈ db.projects) (hprojects : kept.projects = db.projects)
    (hdocuments : kept.documents = db.documents)
    (hassets : ∀ asset : StoredBrowserAsset, asset.projectId ≠ project.id →
      (asset ∈ kept.assets ↔ asset ∈ db.assets))
    (hnext : db.nextId ≤ kept.nextId) (hput : kept.putDocument row = .ok next)
    (hrow : row.projectId = project.id) (hrowId : row.id < kept.nextId)
    (hsame : ∀ document ∈ db.documents, document.id = row.id → document.projectId = project.id)
    (hid : project'.id = project.id)
    (hsequence : project'.documentsChangeSequence = row.changeSequence)
    (hlater : project.documentsChangeSequence < row.changeSequence) :
    Rewrites db (next.putProject project') project project' := by
  have hdrawn : row.projectId < kept.nextId := by
    rw [hrow]
    exact hkeyed.projects_drawn project (hprojects ▸ hproject)
  have hnextKeyed := hkeyed.putDocument hput hrowId hdrawn
  rcases BrowserDatabase.putDocument_ok hput with ⟨rfl, -⟩
  refine rewrites_putProject hnextKeyed hproject hid hprojects ?_ hassets ?_ ?_ hnext
  · intro document hother
    rw [← hdocuments] at hsame ⊢
    exact mem_upsertRow_of_ne (fun heq => hother (by rw [heq, hrow]))
      fun hmem hsameId => hother (hsame document hmem hsameId)
  · rw [hsequence]
    exact hlater.le
  · intro document hmem _
    rw [mem_upsertRow, hdocuments] at hmem
    rcases hmem with rfl | ⟨hold, -⟩
    · exact .inr hlater
    · exact .inl hold

/-- The operation writes one project, and the tree of that project stays laid out. -/
def KeepsTree (ever : List (Uuid × Text)) (db db' : BrowserDatabase Y) (projectId : Uuid) : Prop :=
  ∃ project ∈ db.projects, project.id = projectId ∧ ∃ project', Rewrites db db' project project'
    ∧ (ProjectTree ever db project → ProjectTree ever db' project')

variable {path : Text} {document : StoredBrowserDocument Y}

theorem isFile_iff (platform : BrowserPlatform Y) {projectId : Uuid} :
    db.IsFile projectId path ↔ path ∈ (db.documentsOf platform projectId).map (·.path)
      ∨ path ∈ (db.assetsOf platform projectId).map (·.path) := by
  simp only [BrowserDatabase.IsFile, List.mem_map, BrowserDatabase.mem_documentsOf,
    BrowserDatabase.mem_assetsOf, and_assoc]

/-- A document changed where it is. -/
theorem tree_changeDocument {old row : StoredBrowserDocument Y} (htree : ProjectTree ever db project)
    (hput : db.putDocument row = .ok next) (hold : old ∈ db.documents) (hrowId : row.id = old.id)
    (hrowProject : row.projectId = old.projectId)
    (hpath : row.path = old.path)
    (hsame : ∀ document ∈ db.documents, document.id = old.id → document = old)
    (hid : project'.id = project.id) (hdirectories : project'.directories = project.directories)
    (hentry : project'.entryFilePath = project.entryFilePath)
    (hsequence : project'.documentsChangeSequence = row.changeSequence)
    (hlater : project.documentsChangeSequence ≤ row.changeSequence) :
    ProjectTree ever (next.putProject project') project' := by
  rcases BrowserDatabase.putDocument_ok hput with ⟨rfl, -⟩
  -- every document is where it was
  have hfrom : ∀ document ∈ upsertRow StoredBrowserDocument.id row db.documents,
      ∃ before ∈ db.documents, before.projectId = document.projectId
        ∧ before.path = document.path := by
    intro document hdocument
    rcases mem_upsertRow.mp hdocument with rfl | ⟨hbefore, -⟩
    · exact ⟨old, hold, hrowProject.symm, hpath.symm⟩
    · exact ⟨document, hbefore, rfl, rfl⟩
  have hto : ∀ before ∈ db.documents,
      ∃ document ∈ upsertRow StoredBrowserDocument.id row db.documents,
        document.projectId = before.projectId ∧ document.path = before.path := by
    intro before hbefore
    by_cases hsameId : before.id = row.id
    · rw [hsame before hbefore (hsameId.trans hrowId)]
      exact ⟨row, mem_upsertRow.mpr (.inl rfl), hrowProject, hpath⟩
    · exact ⟨before, mem_upsertRow.mpr (.inr ⟨hbefore, hsameId⟩), rfl, rfl⟩
  constructor
  · rw [hid, hdirectories]
    refine htree.paths.congr fun path => or_congr_left ⟨?_, ?_⟩
    · rintro ⟨document, hdocument, hproject, rfl⟩
      rcases hfrom document hdocument with ⟨before, hbefore, hbeforeProject, hpath⟩
      exact ⟨before, hbefore, hbeforeProject.trans hproject, hpath⟩
    · rintro ⟨before, hbefore, hproject, rfl⟩
      rcases hto before hbefore with ⟨document, hdocument, hdocumentProject, hpath⟩
      exact ⟨document, hdocument, hdocumentProject.trans hproject, hpath⟩
  · rw [hid]
    intro document hdocument hproject asset hasset hassetProject
    rcases hfrom document hdocument with ⟨before, hbefore, hbeforeProject, hpath⟩
    rw [← hpath]
    exact htree.distinct before hbefore (hbeforeProject.trans hproject) asset hasset hassetProject
  · rw [hid, hentry]
    rcases htree.entry with ⟨before, hbefore, hproject, hbeforePath⟩
    rcases hto before hbefore with ⟨document, hdocument, hdocumentProject, hpath⟩
    exact ⟨document, hdocument, hdocumentProject.trans hproject, hpath.trans hbeforePath⟩
  · rw [hid, hsequence]
    intro document hdocument hproject
    rcases mem_upsertRow.mp hdocument with rfl | ⟨hbefore, -⟩
    · exact le_rfl
    · exact (htree.sequence document hbefore hproject).trans hlater
  · rw [hid]
    intro document hdocument hproject
    rcases hfrom document hdocument with ⟨before, hbefore, hbeforeProject, hpath⟩
    rw [← hpath]
    exact htree.text_documents before hbefore (hbeforeProject.trans hproject)
  · rw [hid]
    exact htree.fresh_assets

/-! ## Deleting rows -/

theorem foldl_deleteDocument (removed : List (StoredBrowserDocument Y)) (db : BrowserDatabase Y) :
    removed.foldl (fun db document => db.deleteDocument document.id) db
      = { db with documents := db.documents.filter fun row => !removed.any (·.id = row.id) } := by
  induction removed generalizing db with
  | nil => simp
  | cons document removed ih =>
    rw [List.foldl_cons, ih, BrowserDatabase.deleteDocument, List.filter_filter]
    congr 1
    refine List.filter_congr fun row _ => ?_
    simp [Bool.and_comm, eq_comm]

theorem foldl_deleteAsset (removed : List StoredBrowserAsset) (db : BrowserDatabase Y) :
    removed.foldl (fun db asset => db.deleteAsset asset.id) db
      = { db with assets := db.assets.filter fun row => !removed.any (·.id = row.id) } := by
  induction removed generalizing db with
  | nil => simp
  | cons asset removed ih =>
    rw [List.foldl_cons, ih, BrowserDatabase.deleteAsset, List.filter_filter]
    congr 1
    refine List.filter_congr fun row _ => ?_
    simp [Bool.and_comm, eq_comm]

/-- The files of a project within a path are gone. -/
structure DeletedWithin (db db' : BrowserDatabase Y) (projectId : Uuid) (path : Text) : Prop where
  keyed : db'.Keyed
  nextId : db'.nextId = db.nextId
  projects : db'.projects = db.projects
  documents : ∀ document, document ∈ db'.documents ↔ document ∈ db.documents
    ∧ ¬ (document.projectId = projectId ∧ within document.path path = true)
  assets : ∀ asset, asset ∈ db'.assets ↔ asset ∈ db.assets
    ∧ ¬ (asset.projectId = projectId ∧ within asset.path path = true)

theorem deletedWithin (platform : BrowserPlatform Y) (hkeyed : db.Keyed) (projectId : Uuid)
    (path : Text) : DeletedWithin db
      (((db.assetsOf platform projectId).filter fun asset => within asset.path path).foldl
        (fun db asset => db.deleteAsset asset.id)
        (((db.documentsOf platform projectId).filter fun document =>
          within document.path path).foldl (fun db document => db.deleteDocument document.id) db))
      projectId path := by
  rw [foldl_deleteDocument, foldl_deleteAsset]
  refine ⟨hkeyed.delete _ _, rfl, rfl, fun document => ?_, fun asset => ?_⟩
  · rw [List.mem_filter]
    refine and_congr_right fun hdocument => ?_
    have hsub : ∀ row ∈ (db.documentsOf platform projectId).filter fun document =>
        within document.path path, row ∈ db.documents :=
      fun row hrow => (BrowserDatabase.mem_documentsOf.mp (List.mem_of_mem_filter hrow)).1
    rw [Bool.not_eq_true', Bool.eq_false_iff, Ne, hkeyed.documents.any_id_iff hsub hdocument,
      List.mem_filter, BrowserDatabase.mem_documentsOf, and_iff_right hdocument]
  · rw [List.mem_filter]
    refine and_congr_right fun hasset => ?_
    have hsub : ∀ row ∈ (db.assetsOf platform projectId).filter fun asset =>
        within asset.path path, row ∈ db.assets :=
      fun row hrow => (BrowserDatabase.mem_assetsOf.mp (List.mem_of_mem_filter hrow)).1
    rw [Bool.not_eq_true', Bool.eq_false_iff, Ne, hkeyed.assets.any_id_iff hsub hasset,
      List.mem_filter, BrowserDatabase.mem_assetsOf, and_iff_right hasset]

/-! ## The operations on the tree -/

variable [SemilatticeSup Y] [OrderBot Y] {platform : BrowserPlatform Y} {projectId : Uuid}

theorem createFile_keeps {input : CreateProjectFileInput} (hkeyed : db.Keyed)
    (h : createFile platform db projectId input = .ok db') (hvalid : validPath input.path = .ok path)
    (hplain : ∀ parent ∈ ancestors path, IsPlainPath parent)
    (hfile : input.kind = .file → isTextFile path = true)
    (hdirectory : input.kind = .directory → IsPlainPath path) :
    KeepsTree ever db db' projectId := by
  unfold createFile at h
  rw [hvalid, ok_bind] at h
  rcases bind_eq_ok.mp h with ⟨project, hproject, h⟩
  rcases bind_eq_ok.mp h with ⟨directories, hdirectories, h⟩
  rcases BrowserDatabase.getProject_ok hproject with ⟨hmem, rfl⟩
  split at h
  · simp at h
  next hfree =>
  simp only [Bool.or_eq_true, decide_eq_true_eq, not_or] at hfree
  rcases bind_eq_ok.mp h with ⟨⟨⟩, hnamespace, h⟩
  have hnotFile : ¬ db.IsFile project.id path := by
    rw [isFile_iff platform]
    exact fun hfound => hfound.elim hfree.1.1 hfree.1.2
  refine ⟨project, hmem, rfl, ?_⟩
  cases hkind : input.kind with
  | file =>
    simp only [hkind] at h hdirectories hnamespace
    rcases bind_eq_ok.mp h with ⟨next, hput, h⟩
    cases h
    -- the key is drawn, so no document has it
    have hnew : ∀ document ∈ db.documents, document.id ≠ db.nextId :=
      fun document hdocument => (hkeyed.documents_drawn document hdocument).1.ne
    have hlater : project.documentsChangeSequence < project.documentsChangeSequence + 1 := by
      omega
    have hkept : db.drawn.documents = db.documents := rfl
    refine ⟨_, rewrites_putDocument hkeyed.drawn hmem rfl hkept (fun _ _ => .rfl)
      (Nat.le_succ _) hput rfl (Nat.lt_succ_self _)
      (fun document hdocument heq => absurd heq (hnew document hdocument)) rfl rfl hlater, ?_⟩
    intro htree
    refine tree_putDocument htree hkept ?_ hput rfl hplain (hfile hkind)
      (fun document hdocument heq => absurd heq (hnew document hdocument)) hdirectories hnamespace
      ?_ rfl rfl rfl hlater.le
    · intro asset
      constructor
      · intro hasset
        exact ⟨hasset, fun heq => hnotFile (.inr ⟨asset, hasset, heq⟩)⟩
      · exact fun hasset => hasset.1
    · intro other hother
      rw [isFile_iff platform] at hother
      simpa [or_assoc] using hother
  | directory =>
    simp only [hkind, pure_eq_ok, Except.ok.injEq] at h hdirectories hnamespace
    subst h
    refine ⟨_, rewrites_putProject hkeyed hmem rfl rfl (fun _ _ => .rfl) (fun _ _ => .rfl) le_rfl
      (fun document hdocument _ => .inl hdocument) le_rfl, ?_⟩
    intro htree
    refine ⟨?_, htree.distinct, htree.entry, htree.sequence, htree.text_documents,
      htree.fresh_assets⟩
    refine htree.paths.add_directory (hdirectory hkind) hdirectories hnamespace ?_
    intro other hother
    rcases (isFile_iff platform).mp hother with hold | hold
    · simp [hold]
    · simp [hold]

omit [SemilatticeSup Y] [OrderBot Y] in
theorem deletePath_keeps {value path : Text} (hkeyed : db.Keyed)
    (h : deletePath platform db projectId value = .ok db') (hvalid : validPath value = .ok path)
    (hentry : ∀ project ∈ db.projects, project.id = projectId →
      within project.entryFilePath path = true →
      ∃ document ∈ db.documents, document.projectId = projectId
        ∧ within document.path path = false ∧ isEntryCandidate document.path = true) :
    KeepsTree ever db db' projectId := by
  unfold deletePath at h
  rw [hvalid, ok_bind] at h
  rcases bind_eq_ok.mp h with ⟨project, hproject, h⟩
  rcases BrowserDatabase.getProject_ok hproject with ⟨hmem, rfl⟩
  dsimp only at h
  split at h
  · cases h
  rcases bind_eq_ok.mp h with ⟨directories, hdirectories, h⟩
  cases h
  have hdeleted := deletedWithin platform hkeyed project.id path
  -- a document that is left has one of the remaining paths, and conversely
  have hremaining : ∀ other, other ∈ ((db.documentsOf platform project.id).filter
      fun document => !within document.path path).map (·.path)
      ↔ ∃ document ∈ db.documents, document.projectId = project.id
        ∧ within document.path path = false ∧ document.path = other := by
    intro other
    simp only [List.mem_map, List.mem_filter, BrowserDatabase.mem_documentsOf, Bool.not_eq_true',
      and_assoc]
  refine ⟨project, hmem, rfl, _, rewrites_putProject hdeleted.keyed hmem rfl hdeleted.projects ?_ ?_
    le_rfl ?_ hdeleted.nextId.ge, ?_⟩
  · intro document hother
    rw [hdeleted.documents]
    exact ⟨fun hdocument => hdocument.1, fun hdocument => ⟨hdocument, fun h => hother h.1⟩⟩
  · intro asset hother
    rw [hdeleted.assets]
    exact ⟨fun hasset => hasset.1, fun hasset => ⟨hasset, fun h => hother h.1⟩⟩
  · exact fun document hdocument _ => .inl ((hdeleted.documents document).mp hdocument).1
  intro htree
  constructor
  · have htreePaths := htree.paths.remove ?_ hdirectories
    · refine htreePaths.congr fun other => ?_
      constructor
      · rintro (⟨document, hdocument, hdocumentProject, rfl⟩ | ⟨asset, hasset, hassetProject, rfl⟩)
        · rcases (hdeleted.documents document).mp hdocument with ⟨hold, hnot⟩
          refine ⟨.inl ⟨document, hold, hdocumentProject, rfl⟩, ?_⟩
          rw [Bool.eq_false_iff]
          exact fun hin => hnot ⟨hdocumentProject, hin⟩
        · rcases (hdeleted.assets asset).mp hasset with ⟨hold, hnot⟩
          refine ⟨.inr ⟨asset, hold, hassetProject, rfl⟩, ?_⟩
          rw [Bool.eq_false_iff]
          exact fun hin => hnot ⟨hassetProject, hin⟩
      · rintro ⟨⟨document, hdocument, hdocumentProject, rfl⟩ | ⟨asset, hasset, hassetProject, rfl⟩,
          hout⟩
        · refine .inl ⟨document, (hdeleted.documents document).mpr ⟨hdocument, ?_⟩,
            hdocumentProject, rfl⟩
          rw [hout]
          simp
        · refine .inr ⟨asset, (hdeleted.assets asset).mpr ⟨hasset, ?_⟩, hassetProject, rfl⟩
          rw [hout]
          simp
    · intro other hother
      rcases List.mem_append.mp hother with hold | hold
      · rcases (hremaining other).mp hold with ⟨document, hdocument, hdocumentProject, hout, rfl⟩
        exact ⟨.inl ⟨document, hdocument, hdocumentProject, rfl⟩, hout⟩
      simp only [List.mem_map, List.mem_filter, BrowserDatabase.mem_assetsOf,
        Bool.not_eq_true'] at hold
      rcases hold with ⟨asset, ⟨⟨hasset, hassetProject⟩, hout⟩, rfl⟩
      exact ⟨.inr ⟨asset, hasset, hassetProject, rfl⟩, hout⟩
  · intro document hdocument hdocumentProject asset hasset hassetProject
    exact htree.distinct document ((hdeleted.documents document).mp hdocument).1 hdocumentProject
      asset ((hdeleted.assets asset).mp hasset).1 hassetProject
  · by_cases hin : within project.entryFilePath path = true
    · rcases hentry project hmem rfl hin with ⟨candidate, hcandidate, hcandidateProject, hout, hext⟩
      have hfound := (hremaining candidate.path).mpr
        ⟨candidate, hcandidate, hcandidateProject, hout, rfl⟩
      rcases Option.isSome_iff_exists.mp (List.find?_isSome.mpr ⟨_, hfound, hext⟩) with ⟨next, hnext⟩
      rcases (hremaining next).mp (List.mem_of_find?_eq_some hnext) with
        ⟨document, hdocument, hdocumentProject, hnextOut, hpath⟩
      refine ⟨document, (hdeleted.documents document).mpr ⟨hdocument, ?_⟩, hdocumentProject, ?_⟩
      · rw [hnextOut]
        simp
      · show document.path = if _ then _ else _
        rw [if_pos hin, hnext]
        exact hpath
    · rcases htree.entry with ⟨document, hdocument, hdocumentProject, hpath⟩
      refine ⟨document, (hdeleted.documents document).mpr ⟨hdocument, ?_⟩, hdocumentProject, ?_⟩
      · rw [hpath]
        exact fun h => hin h.2
      · show document.path = if _ then _ else _
        rw [if_neg hin]
        exact hpath
  · exact fun document hdocument =>
      htree.sequence document ((hdeleted.documents document).mp hdocument).1
  · exact fun document hdocument =>
      htree.text_documents document ((hdeleted.documents document).mp hdocument).1
  · exact fun asset hasset => htree.fresh_assets asset ((hdeleted.assets asset).mp hasset).1

/-! ## The operations on content -/

omit [SemilatticeSup Y] [OrderBot Y] in
/-- Every file but the replaced ones is among the other paths. -/
theorem mem_otherFilePaths (hkeyed : db.Keyed) {other : Text}
    (hother : db.IsFile projectId other) :
    other ∈ otherFilePaths platform db projectId ((db.documentAt projectId path).map (·.id))
      ((db.assetAt projectId path).map (·.id)) ++ [path] := by
  by_cases hpath : other = path
  · simp [hpath]
  refine List.mem_append_left _ ?_
  unfold otherFilePaths
  rcases hother with ⟨document, hdocument, hproject, rfl⟩ | ⟨asset, hasset, hproject, rfl⟩
  · refine List.mem_append_left _ (List.mem_map.mpr ⟨document, ?_, rfl⟩)
    rw [List.mem_filter, BrowserDatabase.mem_documentsOf, decide_eq_true_eq]
    refine ⟨⟨hdocument, hproject⟩, fun heq => hpath ?_⟩
    rcases Option.map_eq_some_iff.mp heq.symm with ⟨found, hfound, hid⟩
    rcases BrowserDatabase.documentAt_some hfound with ⟨hmem, -, hfoundPath⟩
    rw [← hkeyed.documents.id_inj found hmem document hdocument hid, hfoundPath]
  · refine List.mem_append_right _ (List.mem_map.mpr ⟨asset, ?_, rfl⟩)
    rw [List.mem_filter, BrowserDatabase.mem_assetsOf, decide_eq_true_eq]
    refine ⟨⟨hasset, hproject⟩, fun heq => hpath ?_⟩
    rcases Option.map_eq_some_iff.mp heq.symm with ⟨found, hfound, hid⟩
    rcases BrowserDatabase.assetAt_some hfound with ⟨hmem, -, hfoundPath⟩
    rw [← hkeyed.assets.id_inj found hmem asset hasset hid, hfoundPath]

/-- The asset at a path is gone, if there was one, and a key is drawn. -/
structure WithoutAsset (db kept : BrowserDatabase Y) (projectId : Uuid) (path : Text) : Prop where
  keyed : kept.Keyed
  nextId : kept.nextId = db.nextId + 1
  projects : kept.projects = db.projects
  documents : kept.documents = db.documents
  assets : ∀ asset, asset ∈ kept.assets ↔ asset ∈ db.assets
    ∧ ¬ (asset.projectId = projectId ∧ asset.path = path)

omit [SemilatticeSup Y] [OrderBot Y] in
theorem withoutAsset (hkeyed : db.Keyed) (projectId : Uuid) (path : Text) :
    WithoutAsset db
      ((db.assetAt projectId path).elim db fun asset => db.deleteAsset asset.id).drawn projectId
      path := by
  cases hfound : db.assetAt projectId path with
  | none =>
    refine ⟨hkeyed.drawn, rfl, rfl, rfl, fun asset => ⟨fun hasset => ⟨hasset, fun h => ?_⟩, fun h => h.1⟩⟩
    exact BrowserDatabase.assetAt_none hfound asset hasset h.1 h.2
  | some found =>
    rcases BrowserDatabase.assetAt_some hfound with ⟨hmem, hproject, hpath⟩
    refine ⟨?_, rfl, rfl, rfl, fun asset => ?_⟩
    · have hkept := hkeyed.delete (fun _ => true) (fun asset => asset.id ≠ found.id)
      rw [List.filter_true] at hkept
      exact hkept.drawn
    · simp only [Option.elim_some, BrowserDatabase.drawn, BrowserDatabase.deleteAsset,
        List.mem_filter, decide_eq_true_eq]
      refine and_congr_right fun hasset => not_congr ⟨fun hid => ?_, fun h => ?_⟩
      · rw [hkeyed.assets.id_inj asset hasset found hmem hid]
        exact ⟨hproject, hpath⟩
      · rw [hkeyed.assets.path_inj asset hasset found hmem (h.1.trans hproject.symm)
          (h.2.trans hpath.symm)]

theorem upsertText_keeps {value content path : Text} {expectedContentEpoch : Option Int}
    (hkeyed : db.Keyed)
    (h : upsertText platform db projectId value content expectedContentEpoch = .ok (db', document))
    (hvalid : validPath value = .ok path) (hplain : ∀ parent ∈ ancestors path, IsPlainPath parent)
    (htext : isTextFile path = true) : KeepsTree ever db db' projectId := by
  unfold upsertText at h
  rw [hvalid, ok_bind] at h
  rcases bind_eq_ok.mp h with ⟨project, hproject, h⟩
  rcases BrowserDatabase.getProject_ok hproject with ⟨hmem, rfl⟩
  split at h
  · cases h
  split at h
  · cases h
  rcases bind_eq_ok.mp h with ⟨directories, hdirectories, h⟩
  rcases bind_eq_ok.mp h with ⟨⟨⟩, hnamespace, h⟩
  rcases bind_eq_ok.mp h with ⟨next, hput, h⟩
  cases h
  have hkept := withoutAsset hkeyed project.id path
  -- the row is the document that was there, or a new one
  rcases hkeyed.documents.reused (db.documentAt project.id path)
    (fun _ => BrowserDatabase.documentAt_some) (fun row hrow => (hkeyed.documents_drawn row hrow).1)
    with ⟨hrowId, hsame⟩
  rw [← hkept.nextId] at hrowId
  have hlater : project.documentsChangeSequence < project.documentsChangeSequence + 1 := by
    omega
  refine ⟨project, hmem, rfl, _, rewrites_putDocument hkept.keyed hmem hkept.projects
    hkept.documents ?_ ?_ hput rfl hrowId
    (fun document hdocument hid => (hsame document hdocument hid).1) rfl rfl hlater, ?_⟩
  · intro asset hother
    exact (hkept.assets asset).trans ⟨fun h => h.1, fun h => ⟨h, fun heq => hother heq.1⟩⟩
  · rw [hkept.nextId]
    exact Nat.le_succ _
  · intro htree
    refine tree_putDocument htree hkept.documents hkept.assets hput rfl hplain htext hsame
      hdirectories hnamespace ?_ rfl rfl rfl hlater.le
    rintro other (hother | rfl)
    · exact mem_otherFilePaths hkeyed hother
    · exact List.mem_append_right _ List.mem_cons_self

omit [SemilatticeSup Y] [OrderBot Y] in
theorem uploadAsset_keeps {input : UploadAssetInput} (hkeyed : db.Keyed)
    (h : uploadAsset platform db projectId input = .ok db')
    (hvalid : validPath input.path = .ok path) (hplain : ∀ parent ∈ ancestors path, IsPlainPath parent)
    (hfree : ∀ document ∈ db.documents, document.projectId = projectId → document.path ≠ path)
    (hfresh : (projectId, path) ∉ ever) : KeepsTree ever db db' projectId := by
  unfold uploadAsset at h
  rw [hvalid, ok_bind] at h
  split at h
  · cases h
  next bytes _ =>
  rcases bind_eq_ok.mp h with ⟨project, hproject, h⟩
  rcases BrowserDatabase.getProject_ok hproject with ⟨hmem, rfl⟩
  -- nothing is deleted, as no document is at the path
  have hnone : db.documentAt project.id path = none := by
    rw [BrowserDatabase.documentAt, List.find?_eq_none]
    intro document hdocument heq
    simp only [Bool.and_eq_true, decide_eq_true_eq] at heq
    exact hfree document hdocument heq.1 heq.2
  split at h
  · cases h
  rcases bind_eq_ok.mp h with ⟨directories, hdirectories, h⟩
  rcases bind_eq_ok.mp h with ⟨⟨⟩, hnamespace, h⟩
  rcases bind_eq_ok.mp h with ⟨next, hput, h⟩
  cases h
  -- the row written is the one of the path, or a new one
  rcases hkeyed.assets.reused (db.assetAt project.id path)
    (fun _ => BrowserDatabase.assetAt_some) (fun row hrow => (hkeyed.assets_drawn row hrow).1)
    with ⟨hrowId, hsame⟩
  rw [hnone] at hput
  have hnextKeyed := hkeyed.drawn.putAsset hput hrowId
    (Nat.lt_succ_of_lt (hkeyed.projects_drawn project hmem))
  have hkept : db.drawn.documents = db.documents := rfl
  have hkeptAssets : db.drawn.assets = db.assets := rfl
  have hnext := (BrowserDatabase.putAsset_ok hput).1
  refine ⟨project, hmem, rfl, _, rewrites_putProject hnextKeyed hmem rfl ?_ ?_ ?_ le_rfl ?_ ?_, ?_⟩
  · rw [hnext]
    rfl
  · intro document _
    rw [hnext]
    rfl
  · intro asset hother
    rw [hnext]
    exact mem_upsertRow_of_ne (fun heq => hother (by rw [heq]))
      fun hasset hid => hother (hsame asset hasset hid).1
  · intro document hdocument _
    rw [hnext] at hdocument
    exact .inl hdocument
  · rw [hnext]
    exact Nat.le_succ _
  · intro htree
    refine tree_putAsset htree hkept hkeptAssets hput rfl hplain hfree hfresh hsame hdirectories
      hnamespace ?_ rfl rfl rfl
    rintro other (hother | rfl)
    · exact mem_otherFilePaths hkeyed hother
    · exact List.mem_append_right _ List.mem_cons_self

omit [SemilatticeSup Y] [OrderBot Y] in
theorem updateEntryFile_keeps {value path : Text} (hkeyed : db.Keyed)
    (h : updateEntryFile db projectId value = .ok db') (hvalid : validPath value = .ok path)
    (hentry : ∀ project ∈ db.projects, project.id = projectId →
      ∃ document ∈ db.documents, document.projectId = projectId ∧ document.path = path) :
    KeepsTree ever db db' projectId := by
  unfold updateEntryFile at h
  rw [hvalid, ok_bind] at h
  rcases bind_eq_ok.mp h with ⟨project, hproject, hdone⟩
  rcases BrowserDatabase.getProject_ok hproject with ⟨hmem, rfl⟩
  cases hdone
  refine ⟨project, hmem, rfl, _, rewrites_putProject hkeyed hmem rfl rfl (fun _ _ => .rfl)
    (fun _ _ => .rfl) le_rfl (fun document hdocument _ => .inl hdocument) le_rfl, fun htree => ?_⟩
  exact ⟨htree.paths, htree.distinct, hentry project hmem rfl, htree.sequence, htree.text_documents,
    htree.fresh_assets⟩

omit [SemilatticeSup Y] [OrderBot Y] in
theorem loadDocumentState_ok {documentId : Uuid}
    (h : loadDocumentState db projectId documentId = .ok document) :
    document ∈ db.documents ∧ document.projectId = projectId := by
  unfold loadDocumentState at h
  split at h
  · cases h
  rename_i found hfound
  split at h
  · next hproject =>
    cases h
    exact ⟨List.mem_of_find?_eq_some hfound, hproject⟩
  · cases h

omit [OrderBot Y] in
theorem mergeDocumentUpdate_keeps {documentId : Uuid} {update : Y} (hkeyed : db.Keyed)
    (h : mergeDocumentUpdate platform db projectId documentId update = .ok (db', document)) :
    KeepsTree ever db db' projectId := by
  unfold mergeDocumentUpdate at h
  rcases bind_eq_ok.mp h with ⟨project, hproject, h⟩
  rcases BrowserDatabase.getProject_ok hproject with ⟨hmem, rfl⟩
  rcases bind_eq_ok.mp h with ⟨old, hold, h⟩
  rcases bind_eq_ok.mp h with ⟨next, hput, h⟩
  cases h
  rcases loadDocumentState_ok hold with ⟨holdMem, holdProject⟩
  rcases hkeyed.documents_drawn old holdMem with ⟨holdId, -⟩
  have hlater : project.documentsChangeSequence < project.documentsChangeSequence + 1 := by
    omega
  have hsame : ∀ document ∈ db.documents, document.id = old.id → document = old :=
    fun document hdocument hid => hkeyed.documents.id_inj document hdocument old holdMem hid
  refine ⟨project, hmem, rfl, _, rewrites_putDocument hkeyed hmem rfl rfl (fun _ _ => .rfl) le_rfl
    hput holdProject holdId (fun document hdocument hid => ?_) rfl rfl hlater, fun htree => ?_⟩
  · rw [hsame document hdocument hid]
    exact holdProject
  exact tree_changeDocument htree hput holdMem rfl rfl rfl hsame rfl rfl rfl rfl hlater.le

end Toss.BrowserBackend
