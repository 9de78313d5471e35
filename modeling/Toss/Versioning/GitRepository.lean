import Toss.Foundation.Entries
import Toss.Versioning.TextEncoding

/-!
# The Git repository of a project

`local_repository.rs` and `commit.rs`: the commits, the default branch, the index and
the worktree of the repository that the server keeps for a project. What libgit2 and
Git make of ignore files, attributes and untracked files is a parameter.

* `GitLibrary` — staging, checking out, resetting and merging;
* `checkoutBranch`, `commitStagedIfChanged`, `commitAllowEmpty`, `restoreHead`,
  `worktreeIsClean`.
-/

namespace Toss.Versioning

open Toss.Foundation

/-- The position of a commit among the objects. -/
abbrev Oid := Nat

inductive FileMode
  | regular
  | executable
  | symlink
  | gitlink
deriving DecidableEq, Repr

/-- The modes that a directory entry reports as a file. -/
def FileMode.isFile : FileMode → Bool
  | .regular | .executable => true
  | .symlink | .gitlink => false

structure TreeFile where
  mode : FileMode
  bytes : Bytes
deriving DecidableEq, Repr

/-- The files of a tree, an index or a worktree by their paths. -/
abbrev Tree := List (Bytes × TreeFile)

structure CommitObject where
  tree : Tree
  parents : List Oid
deriving DecidableEq, Repr

/-- The parts of libgit2 and Git that the repository operations call. -/
structure GitLibrary where
  /-- `Index::add_all(["*"], DEFAULT)` over an index and a worktree. -/
  stage : Tree → Tree → Tree
  /-- The index and the worktree after a safe `checkout_head`, over the tree of HEAD. -/
  checkoutHead : Tree → Tree → Tree → Tree × Tree
  /-- The worktree after `receive.denyCurrentBranch = updateInstead` moved it from one
  tree to another. -/
  checkout : Tree → Tree → Tree → Tree
  /-- The worktree after `reset --hard` to a tree. -/
  reset : Tree → Tree → Tree
  /-- `merge_file_from_index` over base, pushed and online text; `none` when the result
  is not automergeable, or no text. -/
  mergeFile : Text → Text → Text → Option Text
  /-- `mime_guess`. -/
  contentType : Text → Text

structure Repository where
  objects : List CommitObject
  head : Option Oid
  index : Tree
  worktree : Tree
deriving DecidableEq, Repr

/-- `ensure_initialized` on a project without a repository. -/
def Repository.initialized : Repository := ⟨[], none, [], []⟩

namespace Repository

def find (repository : Repository) (oid : Oid) : Option CommitObject :=
  repository.objects[oid]?

/-- `head().peel_to_commit()`. -/
def headCommit (repository : Repository) : Option CommitObject :=
  repository.head.bind repository.find

/-- The tree that HEAD shows; an unborn branch shows none. -/
def headTree (repository : Repository) : Tree :=
  (repository.headCommit.map CommitObject.tree).getD []

def checkoutBranch (git : GitLibrary) (repository : Repository) : Repository :=
  if repository.head.isNone then repository
  else
    let checkedOut := git.checkoutHead repository.headTree repository.index repository.worktree
    { repository with index := checkedOut.1, worktree := checkedOut.2 }

/-- `repository.commit(Some("HEAD"), …, tree, [head])`. -/
def commit (repository : Repository) (tree : Tree) : Repository :=
  { repository with
    objects := repository.objects ++ [⟨tree, repository.head.toList⟩]
    head := some repository.objects.length }

/-- `worktree_is_clean`: neither the index nor the worktree differs, files that staging
passes over aside. -/
def worktreeIsClean (git : GitLibrary) (repository : Repository) : Bool :=
  SameEntries repository.index repository.headTree
    ∧ SameEntries (git.stage repository.index repository.worktree) repository.index

def commitStagedIfChanged (git : GitLibrary) (repository : Repository) : Repository :=
  let tree := git.stage repository.index repository.worktree
  let staged := { repository with index := tree }
  if repository.headCommit.any fun parent => SameEntries parent.tree tree then staged
  else staged.commit tree

def commitAllowEmpty (git : GitLibrary) (repository : Repository) : Repository :=
  let tree := git.stage repository.index repository.worktree
  { repository with index := tree }.commit tree

def restoreHead (git : GitLibrary) (repository : Repository) (target : Option Oid) : Repository :=
  match target with
  | some oid =>
    let tree := ((repository.find oid).map CommitObject.tree).getD []
    { repository with
      head := some oid
      index := tree
      worktree := git.reset tree repository.worktree }
  | none => { repository with head := none, index := [], worktree := [] }

/-- The commits between a tip and an ancestor exist; a parent precedes its child. -/
def descends (repository : Repository) : Nat → Oid → Oid → Bool
  | 0, _, _ => false
  | fuel + 1, tip, ancestor =>
    match repository.find tip with
    | none => false
    | some object =>
      object.parents.any fun parent =>
        parent = ancestor || repository.descends fuel parent ancestor

/-- `is_ancestor`, by `graph_descendant_of`. -/
def isAncestor (repository : Repository) (ancestor tip : Oid) : Bool :=
  repository.descends (repository.objects.length + 1) tip ancestor

@[simp] theorem headTree_commit (repository : Repository) (tree : Tree) :
    (repository.commit tree).headTree = tree := by
  simp [commit, headTree, headCommit, find]

/-- A commit of what is staged leaves the staged tree in HEAD, made or found there. -/
theorem headTree_commitStagedIfChanged (git : GitLibrary) (repository : Repository) :
    SameEntries (repository.commitStagedIfChanged git).headTree
      (git.stage repository.index repository.worktree) := by
  unfold commitStagedIfChanged
  dsimp only
  split
  · next hsame =>
    rcases hhead : repository.headCommit with _ | parent
    · simp [hhead] at hsame
    rw [hhead] at hsame
    have htree : repository.headTree = parent.tree := by simp [headTree, hhead]
    show SameEntries repository.headTree _
    rw [htree]
    simpa using hsame
  · rw [headTree_commit]
    exact SameEntries.refl _

theorem worktree_commitStagedIfChanged (git : GitLibrary) (repository : Repository) :
    (repository.commitStagedIfChanged git).worktree = repository.worktree := by
  unfold commitStagedIfChanged
  dsimp only
  split <;> rfl

theorem headTree_commitAllowEmpty (git : GitLibrary) (repository : Repository) :
    (repository.commitAllowEmpty git).headTree = git.stage repository.index repository.worktree :=
  headTree_commit _ _

/-- A clean worktree stages to the tree of HEAD. -/
theorem stage_of_worktreeIsClean {git : GitLibrary} {repository : Repository}
    (h : repository.worktreeIsClean git = true) :
    SameEntries repository.headTree (git.stage repository.index repository.worktree) := by
  simp only [worktreeIsClean, decide_eq_true_eq] at h
  exact (h.2.trans h.1).symm

/-- The commit of a flush, made or not, leaves the staged tree in HEAD. -/
theorem headTree_flushed (git : GitLibrary) (repository : Repository) :
    SameEntries (if repository.worktreeIsClean git then repository
        else repository.commitStagedIfChanged git).headTree
      (git.stage repository.index repository.worktree) := by
  split
  · next hclean => exact stage_of_worktreeIsClean hclean
  · exact headTree_commitStagedIfChanged git repository

end Repository

end Toss.Versioning
