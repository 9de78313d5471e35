import Toss.BrowserBackend.BrowserWorkspaceStore
import Toss.Foundation.Run

/-!
# The tree of a browser project

What the paths of a project's documents, assets and directories keep to, and which writes of
the store keep it.

* `PathTree` — a set of files and a list of directories that can be laid out;
* `ProjectTree` — the same of a project, with its entry file and its change sequence;
* `ProjectTree.frame` — what is written of other projects does not matter.
-/

namespace Toss.BrowserBackend

open Toss.Foundation Toss.Workspace Toss.Web

/-! ## Paths that can be laid out -/

/-- The files and directories of a tree. -/
structure PathTree (isFile : Text → Prop) (directories : List Text) : Prop where
  nodup : directories.Nodup
  file_not_directory : ∀ path, isFile path → path ∉ directories
  closed : ∀ path, isFile path ∨ path ∈ directories →
    ∀ parent ∈ ancestors path, parent ∈ directories
  plain : ∀ path ∈ directories, IsPlainPath path

namespace PathTree

variable {isFile isFile' : Text → Prop} {directories : List Text}

/-- No file lies above another path. -/
theorem parent_not_file (h : PathTree isFile directories) {path parent : Text}
    (hpath : isFile path ∨ path ∈ directories) (hparent : parent ∈ ancestors path) :
    ¬ isFile parent :=
  fun hfile => h.file_not_directory parent hfile (h.closed path hpath parent hparent)

theorem congr (h : PathTree isFile directories) (heq : ∀ path, isFile' path ↔ isFile path) :
    PathTree isFile' directories := by
  constructor
  · exact h.nodup
  · exact fun path hpath => h.file_not_directory path ((heq path).mp hpath)
  · exact fun path hpath => h.closed path (hpath.imp_left (heq path).mp)
  · exact h.plain

/-- Normalized directories and the files that they hold make a tree. -/
theorem of_normalized {explicit paths : List Text} (hexplicit : ∀ path ∈ explicit, IsPlainPath path)
    (hpaths : ∀ path ∈ paths, ∀ parent ∈ ancestors path, IsPlainPath parent)
    (hdirectories : normalizedDirectories explicit paths = .ok directories)
    (hnot : ∀ path, isFile path → path ∉ directories)
    (hclosed : ∀ path, isFile path → ∀ parent ∈ ancestors path, parent ∈ directories) :
    PathTree isFile directories := by
  rcases normalizedDirectories_of_plain paths hexplicit with ⟨normalized, hok, hnodup, hmem⟩
  rw [hdirectories, Except.ok.injEq] at hok
  subst hok
  constructor
  · exact hnodup
  · exact hnot
  · rintro path (hfile | hdirectory) parent hparent
    · exact hclosed path hfile parent hparent
    · rw [hmem]
      rcases (hmem path).mp hdirectory with hpath | ⟨other, hother, hpath⟩ | ⟨other, hother, hpath⟩
      · exact .inr (.inl ⟨path, hpath, hparent⟩)
      · exact .inr (.inl ⟨other, hother, ancestors_trans hparent hpath⟩)
      · exact .inr (.inr ⟨other, hother, ancestors_trans hparent hpath⟩)
  · intro path hdirectory
    rcases (hmem path).mp hdirectory with hpath | ⟨other, hother, hpath⟩ | ⟨other, hother, hpath⟩
    · exact hexplicit path hpath
    · exact plain_of_mem_ancestors (hexplicit other hother) hpath
    · exact hpaths other hother path hpath

variable {files next : List Text}

/-- A file beside those of a tree. -/
theorem add_file (h : PathTree isFile directories) {path : Text}
    (hpath : ∀ parent ∈ ancestors path, IsPlainPath parent)
    (hnext : normalizedDirectories directories [path] = .ok next)
    (hvalid : validatePathNamespace next files = .ok ())
    (hfiles : ∀ other, isFile other ∨ other = path → other ∈ files) :
    PathTree (fun other => isFile other ∨ other = path) next := by
  rcases normalizedDirectories_of_plain [path] h.plain with ⟨normalized, hok, -, hmem⟩
  rw [hnext, Except.ok.injEq] at hok
  subst hok
  refine of_normalized h.plain ?_ hnext ?_ ?_
  · intro other hother
    rw [List.mem_singleton.mp hother]
    exact hpath
  · exact fun other hother => ((validatePathNamespace_ok.mp hvalid).1 other (hfiles other hother)).1
  · rintro other (hfile | rfl) parent hparent
    · rw [hmem]
      exact .inl (h.closed other (.inl hfile) parent hparent)
    · rw [hmem]
      exact .inr (.inr ⟨other, List.mem_singleton_self other, hparent⟩)

/-- A directory beside those of a tree. -/
theorem add_directory (h : PathTree isFile directories) {path : Text} (hpath : IsPlainPath path)
    (hnext : normalizedDirectories (directories ++ [path]) [] = .ok next)
    (hvalid : validatePathNamespace next files = .ok ())
    (hfiles : ∀ other, isFile other → other ∈ files) : PathTree isFile next := by
  have hexplicit : ∀ other ∈ directories ++ [path], IsPlainPath other := by
    intro other hother
    rcases List.mem_append.mp hother with hold | hnew
    · exact h.plain other hold
    · rw [List.mem_singleton.mp hnew]
      exact hpath
  rcases normalizedDirectories_of_plain [] hexplicit with ⟨normalized, hok, -, hmem⟩
  rw [hnext, Except.ok.injEq] at hok
  subst hok
  refine of_normalized hexplicit (by simp) hnext ?_ ?_
  · exact fun other hother => ((validatePathNamespace_ok.mp hvalid).1 other (hfiles other hother)).1
  · intro other hfile parent hparent
    rw [hmem]
    exact .inl (List.mem_append_left _ (h.closed other (.inl hfile) parent hparent))

/-- What is left of a tree when a path is deleted. -/
theorem remove (h : PathTree isFile directories) {path : Text} {remaining : List Text}
    (hremaining : ∀ other ∈ remaining, isFile other ∧ within other path = false)
    (hnext : normalizedDirectories (directories.filter (!within · path)) remaining = .ok next) :
    PathTree (fun other => isFile other ∧ within other path = false) next := by
  have hexplicit : ∀ other ∈ directories.filter (!within · path), IsPlainPath other :=
    fun other hother => h.plain other (List.mem_of_mem_filter hother)
  -- a directory above what is left is left as well
  have hkept : ∀ other, (isFile other ∨ other ∈ directories) → within other path = false →
      ∀ parent ∈ ancestors other, parent ∈ directories.filter (!within · path) := by
    intro other hother houtside parent hparent
    rw [List.mem_filter]
    refine ⟨h.closed other hother parent hparent, ?_⟩
    rw [Bool.not_eq_true', Bool.eq_false_iff]
    intro hinside
    rw [within_trans (within_of_mem_ancestors hparent) hinside] at houtside
    simp at houtside
  rcases normalizedDirectories_of_plain remaining hexplicit with ⟨normalized, hok, -, hmem⟩
  rw [hnext, Except.ok.injEq] at hok
  subst hok
  have hsub : ∀ other ∈ next, other ∈ directories.filter (!within · path) := by
    intro other hother
    rcases (hmem other).mp hother with hold | ⟨child, hchild, hparent⟩ | ⟨child, hchild, hparent⟩
    · exact hold
    · rw [List.mem_filter, Bool.not_eq_true'] at hchild
      exact hkept child (.inr hchild.1) hchild.2 other hparent
    · rcases hremaining child hchild with ⟨hfile, houtside⟩
      exact hkept child (.inl hfile) houtside other hparent
  refine of_normalized hexplicit ?_ hnext ?_ ?_
  · intro other hother parent hparent
    exact h.plain parent (h.closed other (.inl (hremaining other hother).1) parent hparent)
  · intro other hother hdirectory
    exact h.file_not_directory other hother.1 (List.mem_of_mem_filter (hsub other hdirectory))
  · intro other hother parent hparent
    rw [hmem]
    exact .inl (hkept other (.inl hother.1) hother.2 parent hparent)

/-- A tree with one of its paths moved. -/
theorem move (h : PathTree isFile directories) {fromPath toPath : Text} {moved : List Text}
    (hto : ∀ parent ∈ ancestors toPath, IsPlainPath parent)
    (hdirectory : fromPath ∈ directories → IsPlainPath toPath)
    (hmoved : ∀ path, path ∈ moved ↔ ∃ old, (isFile old ∨ old ∈ directories)
      ∧ within old fromPath = true ∧ path = movePath old fromPath toPath)
    (hnext : normalizedDirectories (movedIn fromPath toPath directories) moved = .ok next)
    (hvalid : validatePathNamespace next files = .ok ())
    (hisFile : ∀ path, isFile' path ↔ ∃ old, isFile old
      ∧ path = if within old fromPath then movePath old fromPath toPath else old)
    (hfiles : ∀ path, isFile' path → path ∈ files) : PathTree isFile' next := by
  -- a directory within the old path is moved to a plain one
  have hplain : ∀ old ∈ directories, within old fromPath = true →
      IsPlainPath (movePath old fromPath toPath) := by
    intro old hold hwithin
    refine plain_movePath (h.plain old hold) (hdirectory ?_) hwithin
    rcases within_iff_eq_or_mem_ancestors.mp hwithin with heq | hparent
    · rw [← heq]
      exact hold
    · exact h.closed old (.inr hold) fromPath hparent
  have hexplicit : ∀ path ∈ movedIn fromPath toPath directories, IsPlainPath path := by
    intro path hpath
    rcases List.mem_map.mp hpath with ⟨old, hold, rfl⟩
    split
    · next hwithin => exact hplain old hold hwithin
    · exact h.plain old hold
  have hmovedPlain : ∀ path ∈ moved, ∀ parent ∈ ancestors path, IsPlainPath parent := by
    intro path hpath parent hparent
    rcases (hmoved path).mp hpath with ⟨old, hold, hwithin, rfl⟩
    rcases mem_ancestors_movePath hwithin hparent with hnew | ⟨above, habove, hmem, rfl⟩
    · exact hto parent hnew
    · exact hplain above (h.closed old hold above hmem) habove
  rcases normalizedDirectories_of_plain moved hexplicit with ⟨normalized, hok, -, hmem⟩
  rw [hnext, Except.ok.injEq] at hok
  subst hok
  refine of_normalized hexplicit hmovedPlain hnext ?_ ?_
  · exact fun path hpath => ((validatePathNamespace_ok.mp hvalid).1 path (hfiles path hpath)).1
  · intro path hpath parent hparent
    rw [hmem]
    rcases (hisFile path).mp hpath with ⟨old, hold, rfl⟩
    by_cases hwithin : within old fromPath = true
    · rw [if_pos hwithin] at hparent
      exact .inr (.inr ⟨_, (hmoved _).mpr ⟨old, .inl hold, hwithin, rfl⟩, hparent⟩)
    rw [if_neg hwithin] at hparent
    left
    refine List.mem_map.mpr ⟨parent, h.closed old (.inl hold) parent hparent, if_neg ?_⟩
    intro hinside
    exact hwithin (within_trans (within_of_mem_ancestors hparent) hinside)

end PathTree

/-! ## Keys -/

/-- The primary key and the unique index of some rows. -/
structure UniqueKeys {ρ : Type} (id projectId : ρ → Uuid) (path : ρ → Text) (rows : List ρ) :
    Prop where
  id_inj : ∀ a ∈ rows, ∀ b ∈ rows, id a = id b → a = b
  path_inj : ∀ a ∈ rows, ∀ b ∈ rows, projectId a = projectId b → path a = path b → a = b

namespace UniqueKeys

variable {ρ : Type} {id projectId : ρ → Uuid} {path : ρ → Text} {rows : List ρ}

theorem subset (h : UniqueKeys id projectId path rows) {rows' : List ρ}
    (hsub : ∀ row ∈ rows', row ∈ rows) : UniqueKeys id projectId path rows' :=
  ⟨fun a ha b hb => h.id_inj a (hsub a ha) b (hsub b hb),
    fun a ha b hb => h.path_inj a (hsub a ha) b (hsub b hb)⟩

/-- A put that the unique index lets through. -/
theorem put (h : UniqueKeys id projectId path rows) {row : ρ}
    (hfree : ∀ other ∈ rows, id other ≠ id row → projectId other = projectId row →
      path other ≠ path row) : UniqueKeys id projectId path (upsertRow id row rows) := by
  constructor
  · intro a ha b hb heq
    rw [mem_upsertRow] at ha hb
    rcases ha with rfl | ⟨ha, hane⟩
    · rcases hb with rfl | ⟨-, hbne⟩
      · rfl
      · exact absurd heq.symm hbne
    · rcases hb with rfl | ⟨hb, -⟩
      · exact absurd heq hane
      · exact h.id_inj a ha b hb heq
  · intro a ha b hb hproject hpath
    rw [mem_upsertRow] at ha hb
    rcases ha with rfl | ⟨ha, hane⟩
    · rcases hb with rfl | ⟨hb, hbne⟩
      · rfl
      · exact absurd hpath.symm (hfree b hb hbne hproject.symm)
    · rcases hb with rfl | ⟨hb, -⟩
      · exact absurd hpath (hfree a ha hane hproject)
      · exact h.path_inj a ha b hb hproject hpath

/-- Rows picked by the keys of some of the rows are those. -/
theorem any_id_iff (h : UniqueKeys id projectId path rows) {removed : List ρ}
    (hsub : ∀ row ∈ removed, row ∈ rows) {row : ρ} (hrow : row ∈ rows) :
    (removed.any fun other => id other = id row) = true ↔ row ∈ removed := by
  rw [List.any_eq_true]
  constructor
  · rintro ⟨other, hother, hid⟩
    rwa [← h.id_inj other (hsub other hother) row hrow (of_decide_eq_true hid)]
  · exact fun hremoved => ⟨row, hremoved, decide_eq_true rfl⟩

/-- A key is that of the row at a path, or drawn where there is none: no row elsewhere has it. -/
theorem reused (h : UniqueKeys id projectId path rows) {project next : Uuid} {value : Text}
    (found : Option ρ) (hfound : ∀ row, found = some row →
      row ∈ rows ∧ projectId row = project ∧ path row = value)
    (hdrawn : ∀ row ∈ rows, id row < next) :
    (found.map id).getD next < next + 1
      ∧ ∀ row ∈ rows, id row = (found.map id).getD next →
        projectId row = project ∧ path row = value := by
  cases found with
  | none => exact ⟨Nat.lt_succ_self _, fun row hrow hid => absurd hid (hdrawn row hrow).ne⟩
  | some old =>
    rcases hfound old rfl with ⟨hmem, hold⟩
    refine ⟨Nat.lt_succ_of_lt (hdrawn old hmem), fun row hrow hid => ?_⟩
    rw [h.id_inj row hrow old hmem hid]
    exact hold

end UniqueKeys

variable {Y : Type}

variable {project : StoredBrowserProject}

namespace BrowserDatabase

variable {db db' : BrowserDatabase Y}

/-- A path of a document or of an asset. -/
def IsFile (db : BrowserDatabase Y) (projectId : Uuid) (path : Text) : Prop :=
  (∃ document ∈ db.documents, document.projectId = projectId ∧ document.path = path)
    ∨ ∃ asset ∈ db.assets, asset.projectId = projectId ∧ asset.path = path

/-- Keys are unique, and were all drawn. -/
structure Keyed (db : BrowserDatabase Y) : Prop where
  projects : ∀ project ∈ db.projects, ∀ other ∈ db.projects,
    project.id = other.id → project = other
  documents : UniqueKeys StoredBrowserDocument.id StoredBrowserDocument.projectId
    StoredBrowserDocument.path db.documents
  assets : UniqueKeys StoredBrowserAsset.id StoredBrowserAsset.projectId StoredBrowserAsset.path
    db.assets
  projects_drawn : ∀ project ∈ db.projects, project.id < db.nextId
  documents_drawn : ∀ document ∈ db.documents,
    document.id < db.nextId ∧ document.projectId < db.nextId
  assets_drawn : ∀ asset ∈ db.assets, asset.id < db.nextId ∧ asset.projectId < db.nextId

theorem getProject_ok {projectId : Uuid} (h : db.getProject projectId = .ok project) :
    project ∈ db.projects ∧ project.id = projectId := by
  unfold getProject at h
  split at h
  · next found hfound =>
    rw [Except.ok.injEq] at h
    rw [← h]
    exact ⟨List.mem_of_find?_eq_some hfound, by simpa using List.find?_some hfound⟩
  · simp at h

variable {platform : BrowserPlatform Y} {document : StoredBrowserDocument Y}

theorem mem_documentsOf {projectId : Uuid} :
    document ∈ db.documentsOf platform projectId
      ↔ document ∈ db.documents ∧ document.projectId = projectId := by
  unfold documentsOf
  rw [mem_orderBy, List.mem_filter, decide_eq_true_eq]

theorem mem_assetsOf {projectId : Uuid} {asset : StoredBrowserAsset} :
    asset ∈ db.assetsOf platform projectId ↔ asset ∈ db.assets ∧ asset.projectId = projectId := by
  unfold assetsOf
  rw [mem_orderBy, List.mem_filter, decide_eq_true_eq]

theorem documentAt_some {projectId : Uuid} {path : Text}
    (h : db.documentAt projectId path = some document) :
    document ∈ db.documents ∧ document.projectId = projectId ∧ document.path = path := by
  have hfound := List.find?_some h
  simp only [Bool.and_eq_true, decide_eq_true_eq] at hfound
  exact ⟨List.mem_of_find?_eq_some h, hfound⟩

theorem assetAt_some {projectId : Uuid} {path : Text} {asset : StoredBrowserAsset}
    (h : db.assetAt projectId path = some asset) :
    asset ∈ db.assets ∧ asset.projectId = projectId ∧ asset.path = path := by
  have hfound := List.find?_some h
  simp only [Bool.and_eq_true, decide_eq_true_eq] at hfound
  exact ⟨List.mem_of_find?_eq_some h, hfound⟩

theorem assetAt_none {projectId : Uuid} {path : Text} (h : db.assetAt projectId path = none) :
    ∀ asset ∈ db.assets, asset.projectId = projectId → asset.path ≠ path := by
  intro asset hasset hproject hpath
  have hnot := List.find?_eq_none.mp h asset hasset
  simp [hproject, hpath] at hnot

variable {row : StoredBrowserDocument Y}

/-- What a put that is let through writes. -/
theorem putDocument_ok (h : db.putDocument row = .ok db') :
    db' = { db with documents := upsertRow StoredBrowserDocument.id row db.documents }
      ∧ ∀ other ∈ db.documents, other.id ≠ row.id → other.projectId = row.projectId →
        other.path ≠ row.path := by
  unfold putDocument at h
  split at h
  · simp at h
  rename_i hfree
  rw [Except.ok.injEq] at h
  refine ⟨h.symm, fun other hother hid hproject hpath => hfree ?_⟩
  exact List.any_eq_true.mpr ⟨other, hother, by simp [hid, hproject, hpath]⟩

theorem putAsset_ok {row : StoredBrowserAsset} (h : db.putAsset row = .ok db') :
    db' = { db with assets := upsertRow StoredBrowserAsset.id row db.assets }
      ∧ ∀ other ∈ db.assets, other.id ≠ row.id → other.projectId = row.projectId →
        other.path ≠ row.path := by
  unfold putAsset at h
  split at h
  · simp at h
  rename_i hfree
  rw [Except.ok.injEq] at h
  refine ⟨h.symm, fun other hother hid hproject hpath => hfree ?_⟩
  exact List.any_eq_true.mpr ⟨other, hother, by simp [hid, hproject, hpath]⟩

namespace Keyed

theorem drawn (h : db.Keyed) : db.drawn.Keyed := by
  constructor
  · exact h.projects
  · exact h.documents
  · exact h.assets
  · exact fun project hproject => Nat.lt_succ_of_lt (h.projects_drawn project hproject)
  · intro document hdocument
    rcases h.documents_drawn document hdocument with ⟨hid, hproject⟩
    exact ⟨Nat.lt_succ_of_lt hid, Nat.lt_succ_of_lt hproject⟩
  · intro asset hasset
    rcases h.assets_drawn asset hasset with ⟨hid, hproject⟩
    exact ⟨Nat.lt_succ_of_lt hid, Nat.lt_succ_of_lt hproject⟩

theorem putProject (h : db.Keyed) {row : StoredBrowserProject} (hrow : row.id < db.nextId) :
    (db.putProject row).Keyed := by
  refine ⟨?_, h.documents, h.assets, ?_, h.documents_drawn, h.assets_drawn⟩
  · intro project hproject other hother heq
    rw [BrowserDatabase.putProject, mem_upsertRow] at hproject hother
    rcases hproject with rfl | ⟨hproject, hne⟩
    · rcases hother with rfl | ⟨-, hne⟩
      · rfl
      · exact absurd heq.symm hne
    · rcases hother with rfl | ⟨hother, -⟩
      · exact absurd heq hne
      · exact h.projects project hproject other hother heq
  · intro project hproject
    rw [BrowserDatabase.putProject, mem_upsertRow] at hproject
    rcases hproject with rfl | ⟨hproject, -⟩
    · exact hrow
    · exact h.projects_drawn project hproject

theorem putDocument (h : db.Keyed) (hput : db.putDocument row = .ok db')
    (hid : row.id < db.nextId) (hproject : row.projectId < db.nextId) : db'.Keyed := by
  rcases putDocument_ok hput with ⟨rfl, hfree⟩
  refine ⟨h.projects, h.documents.put hfree, h.assets, h.projects_drawn, ?_, h.assets_drawn⟩
  intro document hdocument
  rcases mem_upsertRow.mp hdocument with rfl | ⟨hdocument, -⟩
  · exact ⟨hid, hproject⟩
  · exact h.documents_drawn document hdocument

theorem putAsset (h : db.Keyed) {row : StoredBrowserAsset} (hput : db.putAsset row = .ok db')
    (hid : row.id < db.nextId) (hproject : row.projectId < db.nextId) : db'.Keyed := by
  rcases putAsset_ok hput with ⟨rfl, hfree⟩
  refine ⟨h.projects, h.documents, h.assets.put hfree, h.projects_drawn, h.documents_drawn, ?_⟩
  intro asset hasset
  rcases mem_upsertRow.mp hasset with rfl | ⟨hasset, -⟩
  · exact ⟨hid, hproject⟩
  · exact h.assets_drawn asset hasset

theorem delete (h : db.Keyed) (documentKept : StoredBrowserDocument Y → Bool)
    (assetKept : StoredBrowserAsset → Bool) :
    Keyed { db with
      documents := db.documents.filter documentKept
      assets := db.assets.filter assetKept } := by
  refine ⟨h.projects, h.documents.subset fun _ => List.mem_of_mem_filter,
    h.assets.subset fun _ => List.mem_of_mem_filter, h.projects_drawn, ?_, ?_⟩
  · exact fun document hdocument => h.documents_drawn document (List.mem_of_mem_filter hdocument)
  · exact fun asset hasset => h.assets_drawn asset (List.mem_of_mem_filter hasset)

end Keyed

end BrowserDatabase

/-! ## The tree of a project -/

/-- A project whose tree is laid out, given the paths at which projects ever had documents. -/
structure ProjectTree (ever : List (Uuid × Text)) (db : BrowserDatabase Y)
    (project : StoredBrowserProject) : Prop where
  paths : PathTree (db.IsFile project.id) project.directories
  distinct : ∀ document ∈ db.documents, document.projectId = project.id →
    ∀ asset ∈ db.assets, asset.projectId = project.id → document.path ≠ asset.path
  entry : ∃ document ∈ db.documents, document.projectId = project.id
    ∧ document.path = project.entryFilePath
  sequence : ∀ document ∈ db.documents, document.projectId = project.id →
    document.changeSequence ≤ project.documentsChangeSequence
  text_documents : ∀ document ∈ db.documents, document.projectId = project.id →
    isTextFile document.path = true
  fresh_assets : ∀ asset ∈ db.assets, asset.projectId = project.id →
    (project.id, asset.path) ∉ ever

/-- What is written of other projects does not matter. -/
theorem ProjectTree.frame {ever : List (Uuid × Text)} {db db' : BrowserDatabase Y}
    (h : ProjectTree ever db project)
    (hdocuments : ∀ document : StoredBrowserDocument Y, document.projectId = project.id →
      (document ∈ db'.documents ↔ document ∈ db.documents))
    (hassets : ∀ asset : StoredBrowserAsset, asset.projectId = project.id →
      (asset ∈ db'.assets ↔ asset ∈ db.assets)) : ProjectTree ever db' project := by
  constructor
  · refine h.paths.congr fun path => or_congr ?_ ?_
    · constructor
      · rintro ⟨document, hmem, hproject, hpath⟩
        exact ⟨document, (hdocuments document hproject).mp hmem, hproject, hpath⟩
      · rintro ⟨document, hmem, hproject, hpath⟩
        exact ⟨document, (hdocuments document hproject).mpr hmem, hproject, hpath⟩
    · constructor
      · rintro ⟨asset, hmem, hproject, hpath⟩
        exact ⟨asset, (hassets asset hproject).mp hmem, hproject, hpath⟩
      · rintro ⟨asset, hmem, hproject, hpath⟩
        exact ⟨asset, (hassets asset hproject).mpr hmem, hproject, hpath⟩
  · intro document hmem hproject asset hasset hassetProject
    exact h.distinct document ((hdocuments document hproject).mp hmem) hproject asset
      ((hassets asset hassetProject).mp hasset) hassetProject
  · rcases h.entry with ⟨document, hmem, hproject, hpath⟩
    exact ⟨document, (hdocuments document hproject).mpr hmem, hproject, hpath⟩
  · exact fun document hmem hproject =>
      h.sequence document ((hdocuments document hproject).mp hmem) hproject
  · exact fun document hmem hproject =>
      h.text_documents document ((hdocuments document hproject).mp hmem) hproject
  · exact fun asset hmem hproject => h.fresh_assets asset ((hassets asset hproject).mp hmem) hproject

/-- The project is written, and no row of another. -/
structure Rewrites (db db' : BrowserDatabase Y) (project project' : StoredBrowserProject) :
    Prop where
  id_eq : project'.id = project.id
  projects : ∀ row, row ∈ db'.projects ↔ row = project' ∨ (row ∈ db.projects ∧ row.id ≠ project.id)
  documents : ∀ document : StoredBrowserDocument Y, document.projectId ≠ project.id →
    (document ∈ db'.documents ↔ document ∈ db.documents)
  assets : ∀ asset : StoredBrowserAsset, asset.projectId ≠ project.id →
    (asset ∈ db'.assets ↔ asset ∈ db.assets)
  sequence : project.documentsChangeSequence ≤ project'.documentsChangeSequence
  /-- A document that is new, or changed, has a sequence of its own. -/
  fed : ∀ document ∈ db'.documents, document.projectId = project.id →
    document ∈ db.documents ∨ project.documentsChangeSequence < document.changeSequence
  keyed : db'.Keyed
  nextId : db.nextId ≤ db'.nextId

end Toss.BrowserBackend
