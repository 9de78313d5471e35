import Toss.Foundation.Fallible
import Toss.Workspace.ProjectModel
import Toss.Workspace.ProjectPaths

/-!
# What the server lists of a project

`project_tree.rs`, with the queries of `load_tree`, and the pages of
`documents_http.rs`. The queries of the tree are separate statements; the record
they make is an argument here.

* `loadProjectTree` — the nodes of the tree;
* `mem_loadProjectTree` — its files: the text documents and the assets;
* `listProjectDocuments` — a page without the documents that hold no text, its
  cursor taken before they are left out.
-/

namespace Toss.Workspace

inductive ProjectFileKind
  | file
  | directory
deriving DecidableEq, Repr

structure ProjectFileNode where
  path : Text
  kind : ProjectFileKind
deriving DecidableEq, Repr

structure ProjectTreeRecord where
  documentPaths : List Text
  directoryPaths : List Text
  assetPaths : List Text
  entryFilePath : Option Text
  projectType : ProjectType
  contentEpoch : Int
deriving DecidableEq, Repr

structure ProjectTreeResponse where
  nodes : List ProjectFileNode
  entryFilePath : Text
  contentEpoch : Int
deriving DecidableEq, Repr

/-! ## The tree -/

/-- The order of strings, by code points. -/
def pathLe : Text → Text → Bool
  | [], _ => true
  | _ :: _, [] => false
  | a :: as, b :: bs => if a = b then pathLe as bs else decide (a.toNat < b.toNat)

/-- `sanitize_project_path` over the stored paths; `none` stands for
`InvalidStoredPath`. -/
def sanitizeStoredPaths (paths : List Text) : Option (List Text) :=
  paths.mapM sanitizeProjectPath

/-- `dedup_by` on equal nodes. -/
def dedupNodes : List ProjectFileNode → List ProjectFileNode
  | left :: right :: nodes =>
    if left = right then dedupNodes (right :: nodes) else left :: dedupNodes (right :: nodes)
  | nodes => nodes

def sortNodes (nodes : List ProjectFileNode) : List ProjectFileNode :=
  nodes.insertionSort fun left right => pathLe left.path right.path = true

def loadProjectTree (tree : ProjectTreeRecord) : Option ProjectTreeResponse := do
  let documents := (← sanitizeStoredPaths tree.documentPaths).filter isDocumentTextPath
  let assets ← sanitizeStoredPaths tree.assetPaths
  let explicit ← sanitizeStoredPaths tree.directoryPaths
  let files := documents ++ assets
  let directories := (files.flatMap parentDirectories ++ explicit).dedup
  let nodes := files.map (ProjectFileNode.mk · .file)
    ++ directories.map (ProjectFileNode.mk · .directory)
  some
    { nodes := dedupNodes (sortNodes nodes)
      entryFilePath := tree.entryFilePath.getD tree.projectType.defaultEntryFilePath
      contentEpoch := tree.contentEpoch }

theorem mem_dedupNodes {nodes : List ProjectFileNode} {node : ProjectFileNode} :
    node ∈ dedupNodes nodes ↔ node ∈ nodes := by
  induction nodes using dedupNodes.induct with
  | case1 nodes right ih =>
    rw [dedupNodes, if_pos rfl, ih]
    simp
  | case2 left right nodes hne ih =>
    rw [dedupNodes, if_neg hne, List.mem_cons, ih, ← List.mem_cons]
  | case3 nodes hshort =>
    rw [dedupNodes]
    exact hshort

theorem mem_sortNodes {nodes : List ProjectFileNode} {node : ProjectFileNode} :
    node ∈ sortNodes nodes ↔ node ∈ nodes :=
  (List.perm_insertionSort _ nodes).mem_iff

theorem mem_of_sanitizeStoredPaths {paths paths' : List Text}
    (h : sanitizeStoredPaths paths = some paths') {path : Text} :
    path ∈ paths' ↔ ∃ raw ∈ paths, sanitizeProjectPath raw = some path :=
  Foundation.mem_of_mapM h

/-- The files of the tree are the documents that hold text, and the assets. -/
theorem mem_loadProjectTree {tree : ProjectTreeRecord} {response : ProjectTreeResponse}
    (h : loadProjectTree tree = some response) {path : Text} :
    ⟨path, .file⟩ ∈ response.nodes ↔
      (isDocumentTextPath path = true ∧ ∃ raw ∈ tree.documentPaths,
        sanitizeProjectPath raw = some path)
      ∨ ∃ raw ∈ tree.assetPaths, sanitizeProjectPath raw = some path := by
  simp only [loadProjectTree, Option.bind_eq_bind, Option.bind_eq_some_iff, Option.some.injEq] at h
  rcases h with ⟨documents, hdocuments, assets, hassets, explicit, hexplicit, rfl⟩
  rw [mem_dedupNodes, mem_sortNodes, List.mem_append, ← mem_of_sanitizeStoredPaths hdocuments,
    ← mem_of_sanitizeStoredPaths hassets]
  simp only [List.mem_map, List.mem_append, List.mem_filter, ProjectFileNode.mk.injEq, and_true,
    exists_eq_right, reduceCtorEq, and_false, exists_false, or_false]
  exact or_congr_left And.comm

theorem loadProjectTree_contentEpoch {tree : ProjectTreeRecord} {response : ProjectTreeResponse}
    (h : loadProjectTree tree = some response) : response.contentEpoch = tree.contentEpoch := by
  simp only [loadProjectTree, Option.bind_eq_bind, Option.bind_eq_some_iff, Option.some.injEq] at h
  rcases h with ⟨documents, -, assets, -, explicit, -, rfl⟩
  rfl

/-! ## Document pages -/

/-- `list_documents` of `documents_http.rs` with a cursor. -/
def listProjectDocuments (rows : List DocumentRow) (projectId : Uuid) (cursor : Option Int) :
    DocumentPage :=
  let page := listDocuments rows projectId cursor
  { page with documents := page.documents.filter fun document => isDocumentTextPath document.path }

end Toss.Workspace
