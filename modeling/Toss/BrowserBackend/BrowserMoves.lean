import Toss.BrowserBackend.BrowserStoreSteps

/-!
# What a move keeps

The loops of `movePath` over the documents and over the assets, and the tree that they leave.

* `moveDocument_step`, `moveAsset_step` — one row;
* `moveTree_keeps` — the whole move.
-/

namespace Toss.BrowserBackend

open Toss.Foundation Toss.Workspace Toss.Web

variable {Y : Type} {ever : List (Uuid × Text)} {db db' : BrowserDatabase Y}
  {project : StoredBrowserProject}

/-! ## The loops -/

/-- What the loop over the documents has written, once it has been over `done`. -/
structure MovedDocuments (db : BrowserDatabase Y) (project : StoredBrowserProject)
    (fromPath toPath : Text) (done : List (StoredBrowserDocument Y))
    (loop : BrowserDatabase Y × Int) : Prop where
  keyed : loop.1.Keyed
  nextId : loop.1.nextId = db.nextId
  projects : loop.1.projects = db.projects
  assets : loop.1.assets = db.assets
  written : ∀ document ∈ loop.1.documents,
    (document ∈ db.documents ∧ ¬ (document ∈ done ∧ within document.path fromPath = true))
      ∨ ∃ old ∈ done, within old.path fromPath = true ∧ document.projectId = old.projectId
        ∧ document.path = movePath old.path fromPath toPath
        ∧ project.documentsChangeSequence < document.changeSequence
        ∧ document.changeSequence ≤ loop.2
  kept : ∀ document ∈ db.documents,
    ¬ (document ∈ done ∧ within document.path fromPath = true) → document ∈ loop.1.documents
  moved : ∀ old ∈ done, within old.path fromPath = true →
    ∃ document ∈ loop.1.documents, document.id = old.id ∧ document.projectId = old.projectId
      ∧ document.path = movePath old.path fromPath toPath
  sequence : project.documentsChangeSequence ≤ loop.2

variable {document : StoredBrowserDocument Y} {asset : StoredBrowserAsset}

theorem moveDocument_step {fromPath toPath : Text} {done : List (StoredBrowserDocument Y)}
    {loop loop' : BrowserDatabase Y × Int}
    (hkeyed : db.Keyed) (hdone : ∀ old ∈ done, old ∈ db.documents)
    (hdocument : document ∈ db.documents) (h : MovedDocuments db project fromPath toPath done loop)
    (hstep : moveDocument fromPath toPath loop document = .ok loop') :
    MovedDocuments db project fromPath toPath (done ++ [document]) loop' := by
  unfold moveDocument at hstep
  split at hstep
  · next hwithin =>
    rcases bind_eq_ok.mp hstep with ⟨next, hput, hstep⟩
    cases hstep
    rcases hkeyed.documents_drawn document hdocument with ⟨hid, hproject⟩
    have hnextKeyed := h.keyed.putDocument hput (by rw [h.nextId]; exact hid)
      (by rw [h.nextId]; exact hproject)
    rcases BrowserDatabase.putDocument_ok hput with ⟨rfl, -⟩
    constructor
    · exact hnextKeyed
    · exact h.nextId
    · exact h.projects
    · exact h.assets
    · intro row hrow
      rcases mem_upsertRow.mp hrow with rfl | ⟨hrow, hne⟩
      · right
        refine ⟨document, by simp, hwithin, rfl, rfl, ?_, le_rfl⟩
        exact Int.lt_add_one_of_le h.sequence
      rcases h.written row hrow with ⟨hold, hnot⟩ | ⟨old, hold, hin, hrowProject, hpath, hlow, hhigh⟩
      · left
        refine ⟨hold, fun hmoved => ?_⟩
        rcases List.mem_append.mp hmoved.1 with hmem | hmem
        · exact hnot ⟨hmem, hmoved.2⟩
        · rw [List.mem_singleton.mp hmem] at hne
          exact hne rfl
      · right
        exact ⟨old, List.mem_append_left _ hold, hin, hrowProject, hpath, hlow,
          hhigh.trans (Int.le_add_one le_rfl)⟩
    · intro row hrow hnot
      refine mem_upsertRow.mpr (.inr ⟨h.kept row hrow fun hmoved => ?_, ?_⟩)
      · exact hnot ⟨List.mem_append_left _ hmoved.1, hmoved.2⟩
      · intro hsame
        rw [hkeyed.documents.id_inj row hrow document hdocument hsame] at hnot
        exact hnot ⟨by simp, hwithin⟩
    · intro old hold hin
      by_cases hsame : old.id = document.id
      · refine ⟨_, mem_upsertRow.mpr (.inl rfl), hsame.symm, ?_⟩
        have holdMem : old ∈ db.documents := by
          rcases List.mem_append.mp hold with hmem | hmem
          · exact hdone old hmem
          · rw [List.mem_singleton.mp hmem]
            exact hdocument
        rw [hkeyed.documents.id_inj old holdMem document hdocument hsame]
        exact ⟨rfl, rfl⟩
      · have holdDone : old ∈ done := by
          rcases List.mem_append.mp hold with hmem | hmem
          · exact hmem
          · exact absurd (by rw [List.mem_singleton.mp hmem]) hsame
        rcases h.moved old holdDone hin with ⟨row, hrow, hrowId, hrowProject, hpath⟩
        refine ⟨row, mem_upsertRow.mpr (.inr ⟨hrow, ?_⟩), hrowId, hrowProject, hpath⟩
        rw [hrowId]
        exact hsame
    · exact h.sequence.trans (Int.le_add_one le_rfl)
  · next hout =>
    cases hstep
    -- a document outside is left where it is
    have hmem : ∀ row, row ∈ done ++ [document] → within row.path fromPath = true → row ∈ done := by
      intro row hrow hin
      rcases List.mem_append.mp hrow with hold | hnew
      · exact hold
      · rw [List.mem_singleton.mp hnew] at hin
        exact absurd hin hout
    refine ⟨h.keyed, h.nextId, h.projects, h.assets, ?_, ?_, ?_, h.sequence⟩
    · intro row hrow
      rcases h.written row hrow with ⟨hold, hnot⟩ | ⟨old, hold, hrest⟩
      · exact .inl ⟨hold, fun hmoved => hnot ⟨hmem row hmoved.1 hmoved.2, hmoved.2⟩⟩
      · exact .inr ⟨old, List.mem_append_left _ hold, hrest⟩
    · intro row hrow hnot
      exact h.kept row hrow fun hmoved => hnot ⟨List.mem_append_left _ hmoved.1, hmoved.2⟩
    · exact fun old hold hin => h.moved old (hmem old hold hin) hin

/-- What the loop over the assets has written. -/
structure MovedAssets (db : BrowserDatabase Y) (fromPath toPath : Text)
    (done : List StoredBrowserAsset) (loop : BrowserDatabase Y) : Prop where
  keyed : loop.Keyed
  nextId : loop.nextId = db.nextId
  projects : loop.projects = db.projects
  documents : loop.documents = db.documents
  assets : ∀ asset, asset ∈ loop.assets
    ↔ (asset ∈ db.assets ∧ ¬ (asset ∈ done ∧ within asset.path fromPath = true))
      ∨ ∃ old ∈ done, within old.path fromPath = true
        ∧ asset = { old with path := movePath old.path fromPath toPath }

theorem moveAsset_step {fromPath toPath : Text} {done : List StoredBrowserAsset}
    {loop loop' : BrowserDatabase Y} (hkeyed : db.Keyed)
    (hdone : ∀ old ∈ done, old ∈ db.assets) (hasset : asset ∈ db.assets)
    (h : MovedAssets db fromPath toPath done loop)
    (hstep : moveAsset fromPath toPath loop asset = .ok loop') :
    MovedAssets db fromPath toPath (done ++ [asset]) loop' := by
  unfold moveAsset at hstep
  split at hstep
  · next hwithin =>
    -- the row is written again under its new path
    rcases hkeyed.assets_drawn asset hasset with ⟨hid, hproject⟩
    have hnextKeyed := h.keyed.putAsset hstep (by rw [h.nextId]; exact hid)
      (by rw [h.nextId]; exact hproject)
    rcases BrowserDatabase.putAsset_ok hstep with ⟨rfl, -⟩
    refine ⟨hnextKeyed, h.nextId, h.projects, h.documents, fun row => ?_⟩
    simp only [mem_upsertRow, h.assets, List.mem_append, List.mem_singleton]
    constructor
    · rintro (rfl | ⟨⟨hold, hnot⟩ | ⟨old, hold, hin, rfl⟩, hne⟩)
      · exact .inr ⟨asset, .inr rfl, hwithin, rfl⟩
      · left
        refine ⟨hold, fun hmoved => ?_⟩
        rcases hmoved.1 with hmem | rfl
        · exact hnot ⟨hmem, hmoved.2⟩
        · exact hne rfl
      · exact .inr ⟨old, .inl hold, hin, rfl⟩
    · rintro (⟨hold, hnot⟩ | ⟨old, hold | rfl, hin, rfl⟩)
      · right
        refine ⟨.inl ⟨hold, fun hmoved => hnot ⟨.inl hmoved.1, hmoved.2⟩⟩, ?_⟩
        intro hsame
        rw [hkeyed.assets.id_inj row hold asset hasset hsame] at hnot
        exact hnot ⟨.inr rfl, hwithin⟩
      · by_cases hsame : old.id = asset.id
        · left
          rw [hkeyed.assets.id_inj old (hdone old hold) asset hasset hsame]
        · exact .inr ⟨.inr ⟨old, hold, hin, rfl⟩, hsame⟩
      · exact .inl rfl
  · next hout =>
    -- an asset elsewhere stays
    cases hstep
    refine ⟨h.keyed, h.nextId, h.projects, h.documents, fun row => ?_⟩
    simp only [h.assets, List.mem_append, List.mem_singleton]
    constructor
    · rintro (⟨hold, hnot⟩ | ⟨old, hold, hin, rfl⟩)
      · left
        refine ⟨hold, fun hmoved => ?_⟩
        rcases hmoved.1 with hmem | rfl
        · exact hnot ⟨hmem, hmoved.2⟩
        · exact hout hmoved.2
      · exact .inr ⟨old, .inl hold, hin, rfl⟩
    · rintro (⟨hold, hnot⟩ | ⟨old, hold | rfl, hin, rfl⟩)
      · exact .inl ⟨hold, fun hmoved => hnot ⟨.inl hmoved.1, hmoved.2⟩⟩
      · exact .inr ⟨old, hold, hin, rfl⟩
      · exact absurd hin hout

theorem movedDocuments_of_foldlM {fromPath toPath : Text}
    {documents : List (StoredBrowserDocument Y)} {loop : BrowserDatabase Y × Int}
    (hkeyed : db.Keyed) (hdocuments : ∀ document ∈ documents, document ∈ db.documents)
    (h : documents.foldlM (moveDocument fromPath toPath) (db, project.documentsChangeSequence)
      = .ok loop) : MovedDocuments db project fromPath toPath documents loop := by
  refine foldlM_ok h ?_ ?_
  · refine ⟨hkeyed, rfl, rfl, rfl, ?_, ?_, by simp, le_rfl⟩
    · exact fun document hdocument => .inl ⟨hdocument, by simp⟩
    · exact fun document hdocument _ => hdocument
  · rintro done document loop loop' hdone ⟨rest, hrest⟩ hstep
    refine moveDocument_step hkeyed ?_ (hdocuments document ?_) hdone hstep
    · exact fun old hold => hdocuments old (hrest ▸ List.mem_append_left _ hold)
    · rw [← hrest]
      simp

theorem movedAssets_of_foldlM {fromPath toPath : Text} {assets : List StoredBrowserAsset}
    {loop : BrowserDatabase Y} (hkeyed : db.Keyed) (hassets : ∀ asset ∈ assets, asset ∈ db.assets)
    (h : assets.foldlM (moveAsset fromPath toPath) db = .ok loop) :
    MovedAssets db fromPath toPath assets loop := by
  refine foldlM_ok h ?_ ?_
  · exact ⟨hkeyed, rfl, rfl, rfl, by simp⟩
  · rintro done asset loop loop' hdone ⟨rest, hrest⟩ hstep
    refine moveAsset_step hkeyed ?_ (hassets asset ?_) hdone hstep
    · exact fun old hold => hassets old (hrest ▸ List.mem_append_left _ hold)
    · rw [← hrest]
      simp

/-! ## The move -/

variable {platform : BrowserPlatform Y} {fromPath toPath : Text}
  {loop : BrowserDatabase Y × Int} {moved : BrowserDatabase Y}

/-- Where a file is after the move. -/
def movedTo (fromPath toPath path : Text) : Text :=
  if within path fromPath then movePath path fromPath toPath else path

/-- A document of the project was there, and is moved. -/
theorem document_of_moved
    (hdocuments : MovedDocuments db project fromPath toPath (db.documentsOf platform project.id) loop)
    (hdocument : document ∈ loop.1.documents) (hproject : document.projectId = project.id) :
    ∃ old ∈ db.documents, old.projectId = project.id
      ∧ document.path = movedTo fromPath toPath old.path := by
  rcases hdocuments.written document hdocument with ⟨hold, hnot⟩ | ⟨old, hold, hin, -, hpath, -⟩
  · refine ⟨document, hold, hproject, (if_neg ?_).symm⟩
    exact fun hin => hnot ⟨BrowserDatabase.mem_documentsOf.mpr ⟨hold, hproject⟩, hin⟩
  · rcases BrowserDatabase.mem_documentsOf.mp hold with ⟨hmem, holdProject⟩
    exact ⟨old, hmem, holdProject, hpath.trans (if_pos hin).symm⟩

/-- A document of the project is moved. -/
theorem moved_of_document
    (hdocuments : MovedDocuments db project fromPath toPath (db.documentsOf platform project.id) loop)
    (hdocument : document ∈ db.documents) (hproject : document.projectId = project.id) :
    ∃ row ∈ loop.1.documents, row.projectId = project.id
      ∧ row.path = movedTo fromPath toPath document.path := by
  by_cases hin : within document.path fromPath = true
  · have hmem : document ∈ db.documentsOf platform project.id :=
      BrowserDatabase.mem_documentsOf.mpr ⟨hdocument, hproject⟩
    rcases hdocuments.moved document hmem hin with ⟨row, hrow, -, hrowProject, hpath⟩
    exact ⟨row, hrow, hrowProject.trans hproject, hpath.trans (if_pos hin).symm⟩
  · exact ⟨document, hdocuments.kept document hdocument fun h => hin h.2, hproject,
      (if_neg hin).symm⟩

theorem asset_of_moved
    (hassets : MovedAssets db fromPath toPath (db.assetsOf platform project.id) moved)
    (hasset : asset ∈ moved.assets) (hproject : asset.projectId = project.id) :
    ∃ old ∈ db.assets, old.projectId = project.id
      ∧ asset.path = movedTo fromPath toPath old.path := by
  rcases (hassets.assets asset).mp hasset with ⟨hold, hnot⟩ | ⟨old, hold, hin, rfl⟩
  · refine ⟨asset, hold, hproject, (if_neg ?_).symm⟩
    exact fun hin => hnot ⟨BrowserDatabase.mem_assetsOf.mpr ⟨hold, hproject⟩, hin⟩
  · rcases BrowserDatabase.mem_assetsOf.mp hold with ⟨hmem, holdProject⟩
    exact ⟨old, hmem, holdProject, (if_pos hin).symm⟩

theorem moved_of_asset
    (hassets : MovedAssets db fromPath toPath (db.assetsOf platform project.id) moved)
    (hasset : asset ∈ db.assets) (hproject : asset.projectId = project.id) :
    ∃ row ∈ moved.assets, row.projectId = project.id
      ∧ row.path = movedTo fromPath toPath asset.path := by
  by_cases hin : within asset.path fromPath = true
  · have hmem : asset ∈ db.assetsOf platform project.id :=
      BrowserDatabase.mem_assetsOf.mpr ⟨hasset, hproject⟩
    exact ⟨_, (hassets.assets _).mpr (.inr ⟨asset, hmem, hin, rfl⟩), hproject, (if_pos hin).symm⟩
  · exact ⟨asset, (hassets.assets asset).mpr (.inl ⟨hasset, fun h => hin h.2⟩), hproject,
      (if_neg hin).symm⟩

/-- The files are those that there were, moved. -/
theorem isFile_moved
    (hdocuments : MovedDocuments db project fromPath toPath (db.documentsOf platform project.id) loop)
    (hassets : MovedAssets loop.1 fromPath toPath (loop.1.assetsOf platform project.id) moved)
    (path : Text) : moved.IsFile project.id path
      ↔ ∃ old, db.IsFile project.id old ∧ path = movedTo fromPath toPath old := by
  unfold BrowserDatabase.IsFile
  rw [hassets.documents]
  constructor
  · rintro (⟨document, hdocument, hproject, rfl⟩ | ⟨asset, hasset, hproject, rfl⟩)
    · rcases document_of_moved hdocuments hdocument hproject with ⟨old, hold, holdProject, hpath⟩
      exact ⟨old.path, .inl ⟨old, hold, holdProject, rfl⟩, hpath⟩
    · rcases asset_of_moved hassets hasset hproject with ⟨old, hold, holdProject, hpath⟩
      rw [hdocuments.assets] at hold
      exact ⟨old.path, .inr ⟨old, hold, holdProject, rfl⟩, hpath⟩
  · rintro ⟨old, ⟨document, hdocument, hproject, rfl⟩ | ⟨asset, hasset, hproject, rfl⟩, rfl⟩
    · exact .inl (moved_of_document hdocuments hdocument hproject)
    · rw [← hdocuments.assets] at hasset
      exact .inr (moved_of_asset hassets hasset hproject)

variable {projectId : Uuid} {fromValue toValue : Text}

theorem moveTree_keeps (hkeyed : db.Keyed)
    (h : moveTree platform db projectId fromValue toValue = .ok db')
    (hfrom : validPath fromValue = .ok fromPath) (hto : validPath toValue = .ok toPath)
    (hplain : ∀ parent ∈ ancestors toPath, IsPlainPath parent)
    (hdirectory : ∀ project ∈ db.projects, project.id = projectId →
      fromPath ∈ project.directories → IsPlainPath toPath)
    (htext : ∀ document ∈ db.documents, document.projectId = projectId →
      within document.path fromPath = true →
      isTextFile (movePath document.path fromPath toPath) = true)
    (hfresh : ∀ asset ∈ db.assets, asset.projectId = projectId →
      within asset.path fromPath = true →
      (projectId, movePath asset.path fromPath toPath) ∉ ever) :
    db' = db ∨ KeepsTree ever db db' projectId := by
  unfold moveTree at h
  rw [hfrom, ok_bind, hto, ok_bind] at h
  split at h
  · rw [pure_eq_ok, Except.ok.injEq] at h
    exact .inl h.symm
  right
  rcases bind_eq_ok.mp h with ⟨project, hproject, h⟩
  rcases BrowserDatabase.getProject_ok hproject with ⟨hmem, rfl⟩
  dsimp only at h
  split at h
  · cases h
  split at h
  · cases h
  split at h
  · cases h
  next hclear =>
  rcases bind_eq_ok.mp h with ⟨directories, hdirectories, h⟩
  rcases bind_eq_ok.mp h with ⟨⟨⟩, hnamespace, h⟩
  rcases bind_eq_ok.mp h with ⟨loop, hloop, h⟩
  rcases bind_eq_ok.mp h with ⟨moved, hmoved, h⟩
  cases h
  have hdocuments := movedDocuments_of_foldlM hkeyed
    (fun document hdocument => (BrowserDatabase.mem_documentsOf.mp hdocument).1) hloop
  have hsame : db.assetsOf platform project.id = loop.1.assetsOf platform project.id := by
    unfold BrowserDatabase.assetsOf
    rw [hdocuments.assets]
  rw [hsame] at hmoved
  have hassets := movedAssets_of_foldlM hdocuments.keyed
    (fun asset hasset => (BrowserDatabase.mem_assetsOf.mp hasset).1) hmoved
  -- a moved path does not meet one that stays
  have hapart : ∀ old other, (db.IsFile project.id old) → (db.IsFile project.id other) →
      within old fromPath = true → within other fromPath = false →
      movePath old fromPath toPath ≠ other := by
    intro old other hold hother hin hout heq
    apply hclear
    rw [isFile_iff platform] at hold hother
    simp only [List.any_eq_true, List.mem_map, List.mem_filter, decide_eq_true_eq,
      List.mem_append, Bool.not_eq_true']
    refine ⟨other, ⟨old, ⟨?_, hin⟩, heq⟩, ?_, hout⟩
    · rcases hold with hold | hold
      · exact .inl (.inr (List.mem_map.mp hold))
      · exact .inr (List.mem_map.mp hold)
    · rcases hother with hother | hother
      · exact .inl (.inr (List.mem_map.mp hother))
      · exact .inr (List.mem_map.mp hother)
  -- rows of other projects are neither written nor moved
  refine ⟨project, hmem, rfl, _, rewrites_putProject hassets.keyed hmem rfl ?_ ?_ ?_
    hdocuments.sequence ?_ ?_, ?_⟩
  · rw [hassets.projects, hdocuments.projects]
  · intro document hother
    rw [hassets.documents]
    constructor
    · intro hdocument
      rcases hdocuments.written document hdocument with ⟨hold, -⟩ | ⟨old, hold, -, heq, -⟩
      · exact hold
      · exact absurd (heq.trans (BrowserDatabase.mem_documentsOf.mp hold).2) hother
    · intro hdocument
      refine hdocuments.kept document hdocument fun hin => hother ?_
      exact (BrowserDatabase.mem_documentsOf.mp hin.1).2
  · intro asset hother
    rw [hassets.assets, hdocuments.assets]
    constructor
    · rintro (⟨hold, -⟩ | ⟨old, hold, -, rfl⟩)
      · exact hold
      · exact absurd (BrowserDatabase.mem_assetsOf.mp hold).2 hother
    · intro hasset
      exact .inl ⟨hasset, fun hin => hother (BrowserDatabase.mem_assetsOf.mp hin.1).2⟩
  · intro document hdocument _
    rw [hassets.documents] at hdocument
    rcases hdocuments.written document hdocument with ⟨hold, -⟩ | ⟨old, -, -, -, -, hlow, -⟩
    · exact .inl hold
    · exact .inr hlow
  · rw [hassets.nextId, hdocuments.nextId]
  intro htree
  -- each file of the new tree is the moved one of a file before
  have hisFile := isFile_moved hdocuments hassets
  constructor
  · refine htree.paths.move hplain (hdirectory project hmem rfl) ?_ hdirectories hnamespace
      hisFile ?_
    · intro path
      rw [List.mem_map]
      refine exists_congr fun old => ?_
      rw [List.mem_filter, List.mem_append, List.mem_append, isFile_iff platform]
      constructor
      · rintro ⟨⟨(hold | hold) | hold, hin⟩, rfl⟩
        · exact ⟨.inr hold, hin, rfl⟩
        · exact ⟨.inl (.inl hold), hin, rfl⟩
        · exact ⟨.inl (.inr hold), hin, rfl⟩
      · rintro ⟨(hold | hold) | hold, hin, rfl⟩
        · exact ⟨⟨.inl (.inr hold), hin⟩, rfl⟩
        · exact ⟨⟨.inr hold, hin⟩, rfl⟩
        · exact ⟨⟨.inl (.inl hold), hin⟩, rfl⟩
    · intro path hfile
      rcases (hisFile path).mp hfile with ⟨old, hold, rfl⟩
      rw [List.mem_append]
      exact ((isFile_iff platform).mp hold).imp List.mem_map_of_mem List.mem_map_of_mem
  · intro document hdocument hproject asset hasset hassetProject heq
    rw [show (moved.putProject _).documents = loop.1.documents from hassets.documents] at hdocument
    rcases document_of_moved hdocuments hdocument hproject with ⟨old, hold, holdProject, hpath⟩
    rcases asset_of_moved hassets hasset hassetProject with ⟨other, hother, hotherProject, hotherPath⟩
    rw [hdocuments.assets] at hother
    -- the two were apart before the move, and a move keeps paths apart
    have hne := htree.distinct old hold holdProject other hother hotherProject
    have holdFile : db.IsFile project.id old.path := .inl ⟨old, hold, holdProject, rfl⟩
    have hotherFile : db.IsFile project.id other.path := .inr ⟨other, hother, hotherProject, rfl⟩
    rw [hpath, hotherPath] at heq
    unfold movedTo at heq
    split at heq
    · next hin =>
      split at heq
      · next hin' => exact hne (movePath_injective hin hin' heq)
      · next hout => exact hapart _ _ holdFile hotherFile hin (by simpa using hout) heq
    · next hout =>
      split at heq
      · next hin => exact hapart _ _ hotherFile holdFile hin (by simpa using hout) heq.symm
      · exact hne heq
  · rcases htree.entry with ⟨document, hdocument, hproject, hpath⟩
    rcases moved_of_document hdocuments hdocument hproject with ⟨row, hrow, hrowProject, hrowPath⟩
    refine ⟨row, ?_, hrowProject, ?_⟩
    · rw [show (moved.putProject _).documents = loop.1.documents from hassets.documents]
      exact hrow
    · rw [hrowPath, hpath]
      rfl
  · intro document hdocument hproject
    rw [show (moved.putProject _).documents = loop.1.documents from hassets.documents] at hdocument
    rcases hdocuments.written document hdocument with ⟨hold, -⟩ | ⟨old, -, -, -, -, -, hhigh⟩
    · exact (htree.sequence document hold hproject).trans hdocuments.sequence
    · exact hhigh
  · intro document hdocument hproject
    rw [show (moved.putProject _).documents = loop.1.documents from hassets.documents] at hdocument
    rcases document_of_moved hdocuments hdocument hproject with ⟨old, hold, holdProject, hpath⟩
    rw [hpath]
    unfold movedTo
    split
    · next hin => exact htext old hold holdProject hin
    · exact htree.text_documents old hold holdProject
  · intro asset hasset hproject
    rcases asset_of_moved hassets hasset hproject with ⟨old, hold, holdProject, hpath⟩
    rw [hdocuments.assets] at hold
    show (project.id, asset.path) ∉ ever
    rw [hpath]
    unfold movedTo
    split
    · next hin => exact hfresh old hold holdProject hin
    · exact htree.fresh_assets old hold holdProject

end Toss.BrowserBackend
