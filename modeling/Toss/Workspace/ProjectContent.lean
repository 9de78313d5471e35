import Toss.Workspace.ProjectReads

/-!
# The content of a project and its replacement

`content.rs` with `replace_project_content` of `persistence.rs`: the rows that make
up one project, and the statement sequence that exchanges all of them under the
project's exclusive lock. An asset carries the bytes that its object key or its
inline column leads to.

* `replaceProjectContent` — the replacement, guarded by an expected version;
* `ProjectType.chooseEntryFilePath` — the entry file of imported documents;
* `replaceProjectContent_replaced` — what a replacement that went through did.
-/

namespace Toss.Workspace

structure WorkspaceDocument where
  path : Text
  content : Text
deriving DecidableEq, Repr

structure WorkspaceAsset where
  path : Text
  contentType : Text
  bytes : Bytes
deriving DecidableEq, Repr

/-- The rows of `documents`, `project_directories`, `project_assets` and
`project_settings` of one project. -/
structure ProjectContent where
  documents : List WorkspaceDocument
  directories : List Text
  assets : List WorkspaceAsset
  entryFilePath : Option Text
deriving DecidableEq, Repr

/-- The row of `projects` with the content of the project. -/
structure Project where
  projectType : ProjectType
  workspaceVersion : Int
  contentEpoch : Int
  content : ProjectContent
deriving DecidableEq, Repr

/-- The entry file as the queries coalesce it. -/
def Project.entryFilePath (project : Project) : Text :=
  project.content.entryFilePath.getD project.projectType.defaultEntryFilePath

structure ReplaceProjectContent where
  expectedWorkspaceVersion : Option Int
  documents : List WorkspaceDocument
  directories : List Text
  assets : List WorkspaceAsset
  entryFilePath : Text
deriving DecidableEq, Repr

inductive ReplaceProjectContentResult
  | replaced (project : Project)
  | workspaceVersionChanged
  | invalidEntryFile
deriving DecidableEq, Repr

/-- The inserts of a replacement go through: the paths of each table are distinct
and every text can be stored. -/
def ReplaceProjectContent.isInsertable (content : ReplaceProjectContent) : Bool :=
  decide (content.documents.map WorkspaceDocument.path).Nodup
    && decide (content.assets.map WorkspaceAsset.path).Nodup
    && decide content.directories.Nodup
    && content.documents.all (fun document =>
      isStorableText document.path && isStorableText document.content)
    && content.assets.all (fun asset =>
      isStorableText asset.path && isStorableText asset.contentType)
    && content.directories.all isStorableText

/-- `replace_project_content` for a project that exists; `none` stands for a
statement that fails. -/
def replaceProjectContent (project : Project) (content : ReplaceProjectContent) :
    Option ReplaceProjectContentResult :=
  if content.expectedWorkspaceVersion.any (· ≠ project.workspaceVersion) then
    some .workspaceVersionChanged
  else if !project.projectType.acceptsEntryFilePath content.entryFilePath
      || !content.documents.any (fun document => document.path = content.entryFilePath) then
    some .invalidEntryFile
  else if content.isInsertable then
    some <| .replaced
      { project with
        workspaceVersion := project.workspaceVersion + 1
        contentEpoch := project.contentEpoch + 1
        content :=
          { documents := content.documents
            directories := content.directories
            assets := content.assets
            entryFilePath := some content.entryFilePath } }
  else none

/-- What a replacement that went through did. -/
theorem replaceProjectContent_replaced {project project' : Project}
    {content : ReplaceProjectContent}
    (h : replaceProjectContent project content = some (.replaced project')) :
    (∀ expected ∈ content.expectedWorkspaceVersion, expected = project.workspaceVersion)
      ∧ content.isInsertable = true
      ∧ project'.projectType = project.projectType
      ∧ project'.workspaceVersion = project.workspaceVersion + 1
      ∧ project'.contentEpoch = project.contentEpoch + 1
      ∧ project'.content = ⟨content.documents, content.directories, content.assets,
        some content.entryFilePath⟩ := by
  unfold replaceProjectContent at h
  split at h
  · simp at h
  next hexpected =>
  split at h
  · simp at h
  split at h
  · next hinsertable =>
    rw [Option.some.injEq, ReplaceProjectContentResult.replaced.injEq] at h
    subst h
    refine ⟨?_, hinsertable, rfl, rfl, rfl, rfl⟩
    intro expected hmem
    rw [Option.mem_def] at hmem
    rw [hmem] at hexpected
    simpa using hexpected
  · simp at h

/-! ## The entry file of an import -/

def ProjectType.preferredEntryFilePaths : ProjectType → List Text
  | .typst => [['m', 'a', 'i', 'n', '.', 't', 'y', 'p'],
    ['s', 'l', 'i', 'd', 'e', 's', '.', 't', 'y', 'p'],
    ['d', 'o', 'c', 'u', 'm', 'e', 'n', 't', '.', 't', 'y', 'p']]
  | .latex => [['m', 'a', 'i', 'n', '.', 't', 'e', 'x'],
    ['p', 'a', 'p', 'e', 'r', '.', 't', 'e', 'x'],
    ['d', 'o', 'c', 'u', 'm', 'e', 'n', 't', '.', 't', 'e', 'x']]

def ProjectType.chooseEntryFilePath (projectType : ProjectType) (current : Text)
    (documentPaths : List Text) : Option Text :=
  let candidates := (documentPaths.filter projectType.acceptsEntryFilePath).insertionSort
    fun left right => pathLe left right = true
  if candidates.any (· = current) then some current
  else
    (projectType.preferredEntryFilePaths.find? fun path => candidates.any (· = path)).or
      candidates.head?

end Toss.Workspace
