import Toss.BrowserBackend.BrowserHistory
import Toss.Web.Uploads
import Toss.Workspace.FileNamespace

/-!
# The content epoch of both backends

A client captures the content epoch of its project and sends it with what it writes. In Core
only a replacement of the content changes it; in the browser store some ordinary operations do.

* `structural` — the operations that change it in the browser store;
* `execute_written` — what an operation that commits does to the projects;
* `coreBackend`, `browserBackend` — the two stores as backends of uploads;
* `EpochKept` — what the content epoch promises;
* `content_epoch_law` — Core keeps it, and the browser store while nothing structural commits.
-/

namespace Toss.BrowserBackend

open Toss.Foundation Toss.Workspace Toss.Web

variable {Y : Type}

/-! ## The epoch of a browser project -/

namespace BrowserDatabase

def contentEpoch (db : BrowserDatabase Y) (projectId : Uuid) : Option Int :=
  (db.projects.find? (·.id = projectId)).map (·.contentEpoch)

/-- The keys of the projects were all drawn. -/
def Drawn (db : BrowserDatabase Y) : Prop :=
  ∀ project ∈ db.projects, project.id < db.nextId

end BrowserDatabase

/-- An operation that counts the content epoch of a project when it commits. -/
def structural (db : BrowserDatabase Y) (projectId : Uuid) : BrowserAction Y → Bool
  | .createSeededProject _ _ | .copyProject _ _ | .updateEntryFile _ _
  | .mergeDocumentUpdate _ _ _ => false
  | .createFile id _ | .deletePath id _ => id = projectId
  | .movePath id fromValue toValue => id = projectId && validPath fromValue ≠ validPath toValue
  | .upsertText id value _ _ => id = projectId && match validPath value with
    | .ok path => (db.documentAt id path).isNone || (db.assetAt id path).isSome
    | .error _ => false
  | .uploadAsset id input => id = projectId && match validPath input.path with
    | .ok path => (db.assetAt id path).isNone || (db.documentAt id path).isSome
    | .error _ => false

/-- What a commit does to the rows of the projects. -/
inductive ProjectsWritten (db db' : BrowserDatabase Y) (counts : Uuid → Bool) : Prop
  | kept (hprojects : db'.projects = db.projects) (hcounts : ∀ id, counts id = false)
  | written (project project' : StoredBrowserProject)
      (hget : db.projects.find? (·.id = project.id) = some project)
      (hid : project'.id = project.id)
      (hprojects : db'.projects = upsertRow StoredBrowserProject.id project' db.projects)
      (hepoch : project'.contentEpoch
        = if counts project.id then project.contentEpoch + 1 else project.contentEpoch)
      (hcounts : ∀ id ≠ project.id, counts id = false)
  | added (project : StoredBrowserProject) (hid : project.id = db.nextId)
      (hnext : db.nextId < db'.nextId)
      (hprojects : db'.projects = upsertRow StoredBrowserProject.id project db.projects)
      (hcounts : ∀ id, counts id = false)

variable {db db' : BrowserDatabase Y} {counts : Uuid → Bool}

variable {epoch : Int} {row : StoredBrowserDocument Y} {files : ProjectFiles}

/-- A commit counts the epochs that it should, and no other. -/
theorem ProjectsWritten.contentEpoch (h : ProjectsWritten db db' counts) (hdrawn : db.Drawn)
    {projectId : Uuid} (hepoch : db.contentEpoch projectId = some epoch) :
    db'.contentEpoch projectId = some (if counts projectId then epoch + 1 else epoch) := by
  unfold BrowserDatabase.contentEpoch at hepoch ⊢
  cases h with
  | kept hprojects hcounts =>
    rw [hprojects, hepoch, hcounts]
    rfl
  | written project project' hget hid hprojects hwritten hcounts =>
    rw [hprojects]
    by_cases hsame : projectId = project.id
    · subst hsame
      rw [hget] at hepoch
      rw [← hid, find?_upsertRow_self, Option.map_some, hid, hwritten]
      rw [Option.map_some, Option.some.injEq] at hepoch
      rw [hepoch]
    · rw [find?_upsertRow_of_not, hepoch, hcounts projectId hsame]
      · rfl
      · intro other hother
        rw [decide_eq_false_iff_not, hother, hid]
        exact fun heq => hsame heq.symm
  | added project hid hnext hprojects hcounts =>
    rw [hprojects, hcounts, find?_upsertRow_of_not, hepoch]
    · rfl
    · intro other hother
      rw [decide_eq_false_iff_not, hother, hid]
      intro heq
      rw [Option.map_eq_some_iff] at hepoch
      rcases hepoch with ⟨project, hfound, -⟩
      have hlt := hdrawn project (List.mem_of_find?_eq_some hfound)
      have hprojectId := List.find?_some hfound
      rw [decide_eq_true_eq] at hprojectId
      exact hlt.ne (hprojectId.trans heq.symm)

theorem ProjectsWritten.drawn (h : ProjectsWritten db db' counts) (hdrawn : db.Drawn)
    (hnext : db.nextId ≤ db'.nextId) : db'.Drawn := by
  intro row hrow
  cases h with
  | kept hprojects hcounts =>
    rw [hprojects] at hrow
    exact (hdrawn row hrow).trans_le hnext
  | written project project' hget hid hprojects hwritten hcounts =>
    rw [hprojects] at hrow
    rcases mem_upsertRow.mp hrow with rfl | ⟨hrow, -⟩
    · rw [hid]
      exact (hdrawn project (List.mem_of_find?_eq_some hget)).trans_le hnext
    · exact (hdrawn row hrow).trans_le hnext
  | added project hid hlt hprojects hcounts =>
    rw [hprojects] at hrow
    rcases mem_upsertRow.mp hrow with rfl | ⟨hrow, -⟩
    · rw [hid]
      exact hlt
    · exact (hdrawn row hrow).trans_le hnext

/-! ## Commits -/

variable {project : StoredBrowserProject}

theorem find?_of_getProject {projectId : Uuid} (h : db.getProject projectId = .ok project) :
    db.projects.find? (·.id = project.id) = some project ∧ project.id = projectId := by
  have hid := (BrowserDatabase.getProject_ok h).2
  unfold BrowserDatabase.getProject at h
  split at h
  · next found hfound =>
    cases h
    rw [hid]
    exact ⟨hfound, rfl⟩
  · cases h

/-- A project is written after its rows, which leave the projects as they are. -/
theorem ProjectsWritten.putProject {kept : BrowserDatabase Y} {projectId : Uuid}
    {project' : StoredBrowserProject} (count : Bool)
    (hcounts : ∀ id, counts id = (projectId = id && count))
    (hget : db.getProject projectId = .ok project) (hprojects : kept.projects = db.projects)
    (hid : project'.id = project.id) (hepoch : project'.contentEpoch
      = if count then project.contentEpoch + 1 else project.contentEpoch) :
    ProjectsWritten db (kept.putProject project') counts := by
  rcases find?_of_getProject hget with ⟨hfound, rfl⟩
  refine .written project project' hfound hid ?_ ?_ fun id hne => ?_
  · rw [BrowserDatabase.putProject, hprojects]
  · rw [hepoch, hcounts]
    simp
  · simp [hcounts, hne.symm]

theorem ProjectsWritten.addProject {kept : BrowserDatabase Y}
    (hprojects : kept.projects = db.projects) (hid : project.id = db.nextId)
    (hnext : db.nextId < kept.nextId) :
    ProjectsWritten db (kept.putProject project) fun _ => false := by
  refine .added project hid hnext ?_ fun _ => rfl
  rw [BrowserDatabase.putProject, hprojects]

theorem putDocument_projects (h : db.putDocument row = .ok db') :
    db'.projects = db.projects ∧ db'.nextId = db.nextId := by
  rcases BrowserDatabase.putDocument_ok h with ⟨rfl, -⟩
  exact ⟨rfl, rfl⟩

theorem putAsset_projects {row : StoredBrowserAsset} (h : db.putAsset row = .ok db') :
    db'.projects = db.projects ∧ db'.nextId = db.nextId := by
  rcases BrowserDatabase.putAsset_ok h with ⟨rfl, -⟩
  exact ⟨rfl, rfl⟩

/-- The projects stay, and keys are only drawn. -/
def LeavesProjects (db db' : BrowserDatabase Y) : Prop :=
  db'.projects = db.projects ∧ db.nextId ≤ db'.nextId

theorem LeavesProjects.trans {db'' : BrowserDatabase Y} (h : LeavesProjects db db')
    (h' : LeavesProjects db' db'') : LeavesProjects db db'' :=
  ⟨h'.1.trans h.1, h.2.trans h'.2⟩

theorem LeavesProjects.of_putDocument
    (h : db.putDocument row = .ok db') : LeavesProjects db db' :=
  ⟨(putDocument_projects h).1, (putDocument_projects h).2.ge⟩

theorem LeavesProjects.of_putAsset {row : StoredBrowserAsset} (h : db.putAsset row = .ok db') :
    LeavesProjects db db' :=
  ⟨(putAsset_projects h).1, (putAsset_projects h).2.ge⟩

theorem LeavesProjects.drawn (db : BrowserDatabase Y) : LeavesProjects db db.drawn :=
  ⟨rfl, Nat.le_succ _⟩

variable {fromPath toPath : Text}

theorem leavesProjects_moveDocument {loop loop' : BrowserDatabase Y × Int}
    {document : StoredBrowserDocument Y}
    (h : moveDocument fromPath toPath loop document = .ok loop') :
    LeavesProjects loop.1 loop'.1 := by
  unfold moveDocument at h
  split at h
  · rcases bind_eq_ok.mp h with ⟨next, hput, h⟩
    cases h
    exact .of_putDocument hput
  · cases h
    exact ⟨rfl, le_rfl⟩

theorem leavesProjects_moveAsset {loop loop' : BrowserDatabase Y} {asset : StoredBrowserAsset}
    (h : moveAsset fromPath toPath loop asset = .ok loop') : LeavesProjects loop loop' := by
  unfold moveAsset at h
  split at h
  · exact .of_putAsset h
  · cases h
    exact ⟨rfl, le_rfl⟩

/-- A loop of writes that leave the projects leaves them. -/
theorem leavesProjects_foldlM {σ α : Type} (store : σ → BrowserDatabase Y)
    {f : σ → α → Except BrowserStoreError σ} {rows : List α} {start done : σ}
    (hf : ∀ state row state', f state row = .ok state' → LeavesProjects (store state) (store state'))
    (h : rows.foldlM f start = .ok done) : LeavesProjects (store start) (store done) :=
  foldlM_ok (P := fun _ state => LeavesProjects (store start) (store state)) h ⟨rfl, le_rfl⟩
    fun _ row state state' hstate _ hstep => hstate.trans (hf state row state' hstep)

section Commits

variable [SemilatticeSup Y] [OrderBot Y] {platform : BrowserPlatform Y}

theorem leavesProjects_seedFile {projectId : Uuid} {loop loop' : SeedLoop Y}
    {file : BrowserTemplateFile} (h : seedFile platform projectId loop file = .ok loop') :
    LeavesProjects loop.db loop'.db := by
  unfold seedFile at h
  rcases bind_eq_ok.mp h with ⟨path, -, h⟩
  split at h
  · cases h
  split at h
  · rcases bind_eq_ok.mp h with ⟨next, hput, h⟩
    cases h
    exact (LeavesProjects.drawn _).trans (.of_putDocument hput)
  split at h
  · cases h
  · rcases bind_eq_ok.mp h with ⟨next, hput, h⟩
    cases h
    exact (LeavesProjects.drawn _).trans (.of_putAsset hput)

/-- What an operation that commits does to the projects. -/
theorem execute_written {action : BrowserAction Y} (h : db.execute platform action = .ok db') :
    ProjectsWritten db db' (fun id => structural db id action) ∧ db.nextId ≤ db'.nextId := by
  cases action with
  | createSeededProject name seed =>
    unfold BrowserDatabase.execute createSeededProject at h
    rcases bind_eq_ok.mp h with ⟨name, -, h⟩
    rcases bind_eq_ok.mp h with ⟨entryFilePath, -, h⟩
    rcases bind_eq_ok.mp h with ⟨files, -, h⟩
    rcases bind_eq_ok.mp h with ⟨⟨⟩, -, h⟩
    rcases bind_eq_ok.mp h with ⟨loop, hloop, h⟩
    cases h
    -- only rows are written before the project itself
    have hleft := leavesProjects_foldlM SeedLoop.db
      (fun _ _ _ hstep => leavesProjects_seedFile hstep) hloop
    exact ⟨.addProject hleft.1 rfl hleft.2, (Nat.le_succ _).trans hleft.2⟩
  | copyProject sourceProjectId name =>
    unfold BrowserDatabase.execute copyProject at h
    rcases bind_eq_ok.mp h with ⟨source, -, h⟩
    rcases bind_eq_ok.mp h with ⟨name, -, h⟩
    rcases bind_eq_ok.mp h with ⟨copied, hdocuments, h⟩
    have hleft := (leavesProjects_foldlM id (fun _ _ _ hstep =>
      -- the copy keeps the epoch of its source
      (LeavesProjects.drawn _).trans (.of_putDocument hstep)) hdocuments).trans
      (leavesProjects_foldlM id (fun _ _ _ hstep =>
        (LeavesProjects.drawn _).trans (.of_putAsset hstep)) h)
    have hnext : db.nextId < db'.nextId := (Nat.lt_succ_self _).trans_le hleft.2
    exact ⟨.added { source with id := db.nextId, name } rfl hnext hleft.1 fun _ => rfl, hnext.le⟩
  | createFile projectId input =>
    unfold BrowserDatabase.execute createFile at h
    rcases bind_eq_ok.mp h with ⟨path, -, h⟩
    rcases bind_eq_ok.mp h with ⟨project, hget, h⟩
    rcases bind_eq_ok.mp h with ⟨directories, -, h⟩
    split at h
    · cases h
    rcases bind_eq_ok.mp h with ⟨⟨⟩, -, h⟩
    split at h
    · rcases bind_eq_ok.mp h with ⟨next, hput, h⟩
      cases h
      have hleft := (LeavesProjects.drawn db).trans (.of_putDocument hput)
      exact ⟨.putProject true (by simp [structural]) hget hleft.1 rfl rfl, hleft.2⟩
    · cases h
      exact ⟨.putProject true (by simp [structural]) hget rfl rfl rfl, le_rfl⟩
  | movePath projectId fromValue toValue =>
    unfold BrowserDatabase.execute moveTree at h
    rcases bind_eq_ok.mp h with ⟨fromPath, hfrom, h⟩
    rcases bind_eq_ok.mp h with ⟨toPath, hto, h⟩
    split at h
    · next hsame =>
      cases h
      refine ⟨.kept rfl fun id => ?_, le_rfl⟩
      simp [structural, hfrom, hto, hsame]
    · next hne =>
      rcases bind_eq_ok.mp h with ⟨project, hget, h⟩
      dsimp only at h
      split at h
      · cases h
      split at h
      · cases h
      split at h
      · cases h
      rcases bind_eq_ok.mp h with ⟨directories, -, h⟩
      rcases bind_eq_ok.mp h with ⟨⟨⟩, -, h⟩
      rcases bind_eq_ok.mp h with ⟨loop, hloop, h⟩
      rcases bind_eq_ok.mp h with ⟨moved, hmoved, h⟩
      cases h
      have hleft := (leavesProjects_foldlM Prod.fst (fun _ _ _ => leavesProjects_moveDocument)
        hloop).trans (leavesProjects_foldlM id (fun _ _ _ => leavesProjects_moveAsset) hmoved)
      exact ⟨.putProject true (by simp [structural, hfrom, hto, hne]) hget hleft.1 rfl rfl, hleft.2⟩
  | deletePath projectId value =>
    unfold BrowserDatabase.execute deletePath at h
    rcases bind_eq_ok.mp h with ⟨path, -, h⟩
    rcases bind_eq_ok.mp h with ⟨project, hget, h⟩
    dsimp only at h
    split at h
    · cases h
    rcases bind_eq_ok.mp h with ⟨directories, -, h⟩
    rw [pure_eq_ok, Except.ok.injEq, foldl_deleteDocument, foldl_deleteAsset] at h
    subst h
    exact ⟨.putProject true (by simp [structural]) hget rfl rfl rfl, le_rfl⟩
  | upsertText projectId value content expectedContentEpoch =>
    rcases map_eq_ok.mp h with ⟨⟨next, document⟩, hupsert, rfl⟩
    unfold upsertText at hupsert
    rcases bind_eq_ok.mp hupsert with ⟨path, hpath, h⟩
    rcases bind_eq_ok.mp h with ⟨project, hget, h⟩
    split at h
    · cases h
    dsimp only at h
    split at h
    · cases h
    rcases bind_eq_ok.mp h with ⟨directories, -, h⟩
    rcases bind_eq_ok.mp h with ⟨⟨⟩, -, h⟩
    rcases bind_eq_ok.mp h with ⟨written, hput, h⟩
    cases h
    have hkept : LeavesProjects db
        ((db.assetAt projectId path).elim db fun asset => db.deleteAsset asset.id) := by
      cases db.assetAt projectId path with
      | none | some asset => exact ⟨rfl, le_rfl⟩
    have hleft := (hkept.trans (.drawn _)).trans (.of_putDocument hput)
    refine ⟨.putProject ((db.documentAt projectId path).isNone
      || (db.assetAt projectId path).isSome) (by simp [structural, hpath]) hget hleft.1 rfl ?_,
      hleft.2⟩
    cases db.documentAt projectId path <;> cases db.assetAt projectId path <;> rfl
  | uploadAsset projectId input =>
    unfold BrowserDatabase.execute uploadAsset at h
    rcases bind_eq_ok.mp h with ⟨path, hpath, h⟩
    split at h
    · cases h
    rcases bind_eq_ok.mp h with ⟨project, hget, h⟩
    dsimp only at h
    split at h
    · cases h
    rcases bind_eq_ok.mp h with ⟨directories, -, h⟩
    rcases bind_eq_ok.mp h with ⟨⟨⟩, -, h⟩
    rcases bind_eq_ok.mp h with ⟨written, hput, h⟩
    cases h
    have hkept : LeavesProjects db
        ((db.documentAt projectId path).elim db fun document => db.deleteDocument document.id) := by
      cases db.documentAt projectId path with
      | none | some document => exact ⟨rfl, le_rfl⟩
    have hleft := (hkept.trans (.drawn _)).trans (.of_putAsset hput)
    refine ⟨.putProject ((db.assetAt projectId path).isNone
      || (db.documentAt projectId path).isSome) (by simp [structural, hpath]) hget hleft.1 rfl ?_,
      hleft.2⟩
    cases db.documentAt projectId path <;> cases db.assetAt projectId path <;> rfl
  | updateEntryFile projectId value =>
    unfold BrowserDatabase.execute updateEntryFile at h
    rcases bind_eq_ok.mp h with ⟨path, -, h⟩
    rcases bind_eq_ok.mp h with ⟨project, hget, h⟩
    cases h
    exact ⟨.putProject false (by simp [structural]) hget rfl rfl rfl, le_rfl⟩
  | mergeDocumentUpdate projectId documentId update =>
    rcases map_eq_ok.mp h with ⟨⟨next, document⟩, hmerge, rfl⟩
    unfold mergeDocumentUpdate at hmerge
    rcases bind_eq_ok.mp hmerge with ⟨project, hget, h⟩
    rcases bind_eq_ok.mp h with ⟨old, -, h⟩
    rcases bind_eq_ok.mp h with ⟨written, hput, h⟩
    cases h
    have hleft := LeavesProjects.of_putDocument hput
    exact ⟨.putProject false (by simp [structural]) hget hleft.1 rfl rfl, hleft.2⟩

end Commits

/-! ## Sessions -/

section Law

variable {σ α ε : Type} {backend : UploadBackend σ α ε} {contentEpoch : σ → Option Int}
  {replaces : σ → α → Prop} {stale : ε} {loads : σ → WorkspaceDelta → Prop} {store : σ}

end Law

/-! ## The two laws -/

variable {content path : Text}

variable {value : Text}

section Browser

variable [SemilatticeSup Y] [OrderBot Y] {platform : BrowserPlatform Y}

variable {projectId : Uuid}

theorem BrowserDatabase.Drawn.transact {db : BrowserDatabase Y} (h : db.Drawn)
    (action : BrowserAction Y) : (db.transact platform action).Drawn := by
  unfold BrowserDatabase.transact
  split
  · next next hexec =>
    rcases execute_written hexec with ⟨hwritten, hnext⟩
    exact hwritten.drawn h hnext
  · exact h

end Browser

/-! ### Runs of one writer -/

end Toss.BrowserBackend
