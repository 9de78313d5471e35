import Toss.Versioning.GitRepository
import Toss.Workspace.ProjectContent

/-!
# Between the workspace and the worktree

`materialization.rs`, `worktree_files.rs`, `revision_state.rs` and `http/merge.rs`: the
files a workspace is written as, the workspace a directory is read as, and the
three-way merge of a push with what was edited online.

* `materialize` — `sync_project_documents_to_repo`, before the worktree is exchanged;
* `prepareRepoImport` — the rows that the files of a directory become;
* `loadGitState` — the files of a commit;
* `mergeOnlineOverPushed` — the merge, path by path.
-/

namespace Toss.Versioning

open Toss.Foundation Toss.Workspace
open Toss.Processing (decodeUtf8)

inductive MergeFileValue
  | text (content : Text)
  | binary (bytes : Bytes) (contentType : Text)
deriving DecidableEq, Repr

def MergeFileValue.isText : MergeFileValue → Bool
  | .text _ => true
  | .binary _ _ => false

/-- The bytes of a file that holds a value. -/
def MergeFileValue.bytes : MergeFileValue → Bytes
  | .text content => encodeUtf8 content
  | .binary bytes _ => bytes

/-- `workspace_snapshot_to_merge_map`: the assets are inserted behind the documents. -/
def mergeMap (content : ProjectContent) : List (Text × MergeFileValue) :=
  dedupKeys <|
    content.assets.map (fun asset => (asset.path, .binary asset.bytes asset.contentType))
      ++ content.documents.map (fun document => (document.path, .text document.content))

/-- The files that a merge map is written as. -/
def mergeFiles (map : List (Text × MergeFileValue)) : List (Text × Bytes) :=
  map.map fun entry => (entry.1, entry.2.bytes)

/-- The files that the content of a project is written as. -/
def contentFiles (content : ProjectContent) : List (Text × Bytes) :=
  mergeFiles (mergeMap content)

/-! ## Writing -/

/-- `repository_file_path`. -/
def isRepositoryPath (path : Text) : Bool :=
  !(['/'].isPrefixOf path)
    && (segments path).all fun segment =>
      segment ≠ ['.', '.'] && segment.map toAsciiLowercase ≠ ['.', 'g', 'i', 't']

/-- No file takes the place of a directory. -/
def isWritable (directories : List Text) (files : List (Text × Bytes)) : Bool :=
  let written := directories ++ directories.flatMap parentDirectories
    ++ files.flatMap fun file => parentDirectories file.1
  files.all fun file => file.1 ∉ written

/-- Regular files as a worktree holds them. -/
def fileTree (files : List (Text × Bytes)) : Tree :=
  files.map fun file => (encodeUtf8 file.1, ⟨.regular, file.2⟩)

/-- The worktree that `sync_project_documents_to_repo` makes of a snapshot; `none` stands
for `MaterializeWorkspaceError`. -/
def materialize (content : ProjectContent) : Option Tree :=
  let files := contentFiles content
  if content.directories.all isRepositoryPath && files.all (fun file => isRepositoryPath file.1)
      && isWritable content.directories files then
    some (fileTree files)
  else none

/-- `materialize_merge_map_to_dir`, with the files that it leaves behind. -/
def materializeMergeMapToDir (map : List (Text × MergeFileValue)) :
    Option (List (Text × Bytes)) :=
  if isWritable [] (mergeFiles map) then some (mergeFiles map) else none

/-! ## Reading -/

/-- `collect_repository_files`. -/
def collectRepositoryFiles (worktree : Tree) : List (Text × Bytes) :=
  dedupKeys ((worktree.filter fun entry => entry.2.mode.isFile).map fun entry =>
    (fromUtf8Lossy entry.1, entry.2.bytes))

/-- `looks_like_text`. -/
def looksLikeText (bytes : Bytes) : Bool :=
  !bytes.contains 0 && (decodeUtf8 bytes).isSome

inductive RepositoryImportError
  | workspaceChanged
  | missingEntryFile
  | invalidPath
  | storage
  | persistence
deriving DecidableEq, Repr

structure PreparedRepoImport where
  documents : List WorkspaceDocument
  assets : List WorkspaceAsset
  directories : List Text
  entryFilePath : Text
deriving DecidableEq, Repr

def PreparedRepoImport.content (prepared : PreparedRepoImport) : ProjectContent :=
  ⟨prepared.documents, prepared.directories, prepared.assets, some prepared.entryFilePath⟩

/-- The document that an imported file becomes, if it becomes one. -/
def importedDocument (file : Text × Bytes) : Option WorkspaceDocument :=
  if isDocumentTextPath file.1 && looksLikeText file.2 then
    (decodeUtf8 file.2).map (WorkspaceDocument.mk file.1)
  else none

/-- The asset that an imported file becomes otherwise. -/
def importedAsset (git : GitLibrary) (file : Text × Bytes) : Option WorkspaceAsset :=
  if isDocumentTextPath file.1 && looksLikeText file.2 then none
  else some ⟨file.1, git.contentType file.1, file.2⟩

def sortPaths (paths : List Text) : List Text :=
  paths.insertionSort fun left right => pathLe left right = true

/-- `prepare_repo_import` over the files of a directory, but for the uploads of its
assets. -/
def prepareRepoImport (git : GitLibrary) (projectType : ProjectType) (entryFilePath : Text)
    (files : List (Text × Bytes)) : Except RepositoryImportError PreparedRepoImport :=
  let sorted := files.insertionSort fun left right => pathLe left.1 right.1 = true
  match sorted.mapM fun file => (sanitizeProjectPath file.1).map (·, file.2) with
  | none => .error .invalidPath
  | some clean =>
    let documents := clean.filterMap importedDocument
    match projectType.chooseEntryFilePath entryFilePath (documents.map WorkspaceDocument.path) with
    | none => .error .missingEntryFile
    | some chosen =>
      .ok
        { documents
          assets := clean.filterMap (importedAsset git)
          directories := sortPaths (clean.flatMap fun file => parentDirectories file.1).dedup
          entryFilePath := chosen }

/-- `replace_project_content` of `apply_repo_import`, up to its commit. -/
def applyRepoImport (project : Project) (expectedWorkspaceVersion : Option Int)
    (prepared : PreparedRepoImport) : Except RepositoryImportError Project :=
  match replaceProjectContent project
    ⟨expectedWorkspaceVersion, prepared.documents, prepared.directories, prepared.assets,
      prepared.entryFilePath⟩ with
  | none => .error .persistence
  | some .workspaceVersionChanged => .error .workspaceChanged
  | some .invalidEntryFile => .error .missingEntryFile
  | some (.replaced project') => .ok project'

/-! ## The files of a commit -/

/-- The directories of a path, with the slash behind the last. -/
def treeRoot (path : Bytes) : Bytes :=
  (path.reverse.dropWhile (· ≠ 0x2F)).reverse

/-- The value of a blob in `load_git_state_from_commit`. -/
def blobValue (git : GitLibrary) (path : Text) (bytes : Bytes) : MergeFileValue :=
  if isDocumentTextPath path then
    match decodeUtf8 bytes with
    | some text => .text text
    | none => .binary bytes (git.contentType path)
  else .binary bytes (git.contentType path)

/-- One entry of the walk: `none` stands for an error, `some none` for an entry that is
passed over. -/
def loadTreeEntry (git : GitLibrary) (entry : Bytes × TreeFile) :
    Option (Option (Text × MergeFileValue)) :=
  if (decodeUtf8 (treeRoot entry.1)).isNone then none
  else if entry.2.mode = .gitlink then some none
  else
    match decodeUtf8 entry.1 with
    | none => some none
    | some raw =>
      (sanitizeProjectPath raw).map fun path => some (path, blobValue git path entry.2.bytes)

/-- `load_git_state_from_commit` with `git_revision_state_to_merge_map`: of two entries
with one sanitized path the later counts, and an asset before a document. -/
def loadGitState (git : GitLibrary) (tree : Tree) : Option (List (Text × MergeFileValue)) :=
  ((dedupKeys tree).mapM (loadTreeEntry git)).map fun entries =>
    let files := (entries.filterMap id).reverse
    dedupKeys <|
      files.filter (fun file => !file.2.isText) ++ files.filter fun file => file.2.isText

/-! ## Merging -/

/-- The merged value of one path; `none` stands for a conflict. -/
def mergeValue (git : GitLibrary) (base pushed online : Option MergeFileValue) :
    Option (Option MergeFileValue) :=
  if online = base then some pushed
  else if pushed = base then some online
  else
    match base, pushed, online with
    | some (.text baseText), some (.text pushedText), some (.text onlineText) =>
      (git.mergeFile baseText pushedText onlineText).map fun merged => some (.text merged)
    | _, some left, some right => if left = right then some (some left) else none
    | _, none, none => some none
    | _, _, _ => none

/-- `merge_online_over_pushed`; `none` stands for conflicts. -/
def mergeOnlineOverPushed (git : GitLibrary) (base pushed online : List (Text × MergeFileValue)) :
    Option (List (Text × MergeFileValue)) :=
  let keys := (base.map Prod.fst ++ pushed.map Prod.fst ++ online.map Prod.fst).dedup
  (keys.mapM fun key =>
    (mergeValue git (base.lookup key) (pushed.lookup key) (online.lookup key)).map
      fun value => (key, value)).map fun merged =>
    merged.filterMap fun entry => entry.2.map (entry.1, ·)

end Toss.Versioning
