import Mathlib.Data.List.Infix

/-!
# Trees of files

Directories and files by their paths, with the two operations that make them. A path is the
list of its names, the root's first. Nothing here knows what the names or the contents are.

* `FileTree.Shaped` — what has something below it is a directory;
* `createDirAll`, `createFile` — they keep the shape, and change nothing else;
* `FileTree.SameOutside` — what is not below a directory stays as it was.
-/

namespace Toss.Foundation

variable {α β : Type*}

inductive FileNode (β : Type*)
  | directory
  | file (content : β)
deriving DecidableEq, Repr

def FileTree (α β : Type*) : Type _ := List α → Option (FileNode β)

namespace FileTree

/-- The ancestors of everything that is there are directories. -/
def Shaped (tree : FileTree α β) : Prop :=
  ∀ path below, below ≠ [] → tree (path ++ below) ≠ none → tree path = some .directory

/-- The trees differ below `root` only. -/
def SameOutside (root : List α) (before after : FileTree α β) : Prop :=
  ∀ path, ¬root <+: path → after path = before path

theorem SameOutside.trans {root : List α} {first second third : FileTree α β}
    (h : SameOutside root first second) (h' : SameOutside root second third) :
    SameOutside root first third :=
  fun path hpath => (h' path hpath).trans (h path hpath)

variable {tree : FileTree α β}

variable {content : β} {parent : List α} {name : α}

/-- A file has nothing below it. -/
theorem Shaped.below_file (h : tree.Shaped) {path below : List α}
    (hfile : tree path = some (.file content)) (hbelow : below ≠ []) :
    tree (path ++ below) = none := by
  by_contra hsome
  rw [h path below hbelow hsome] at hfile
  cases hfile

variable [DecidableEq α]

def put (tree : FileTree α β) (path : List α) (node : FileNode β) : FileTree α β :=
  fun other => if other = path then some node else tree other

@[simp] theorem put_self (tree : FileTree α β) (path : List α) (node : FileNode β) :
    tree.put path node path = some node := if_pos rfl

theorem put_of_ne {path other : List α} (h : other ≠ path)
    (node : FileNode β) : tree.put path node other = tree other := if_neg h

theorem put_ne_none {path other : List α} {node : FileNode β}
    (h : tree other ≠ none) : tree.put path node other ≠ none := by
  rw [put]
  split
  · exact Option.some_ne_none node
  · exact h

/-- A node is put where there was none, into a directory. -/
theorem Shaped.put (h : tree.Shaped)
    (hparent : tree parent = some .directory) (hfree : tree (parent ++ [name]) = none)
    (node : FileNode β) : (tree.put (parent ++ [name]) node).Shaped := by
  intro path below hbelow hsome
  by_cases hnew : path ++ below = parent ++ [name]
  · -- the new node's ancestors are those of its directory, and that directory
    rcases List.eq_nil_or_concat below with rfl | ⟨init, last, rfl⟩
    · exact absurd rfl hbelow
    rw [List.concat_eq_append] at hnew
    rw [← List.append_assoc] at hnew
    have hsplit := List.append_inj' hnew rfl
    have hne : path ≠ parent ++ [name] := by
      intro heq
      have hlength := congrArg List.length hsplit.1
      rw [heq] at hlength
      simp at hlength
    rw [put_of_ne hne]
    by_cases hinit : init = []
    · rw [hinit, List.append_nil] at hsplit
      rw [hsplit.1]
      exact hparent
    · refine h path init hinit ?_
      rw [hsplit.1, hparent]
      exact Option.some_ne_none _
  · rw [put_of_ne hnew] at hsome
    have hdirectory := h path below hbelow hsome
    rw [put_of_ne]
    · exact hdirectory
    · intro heq
      rw [heq, hfree] at hdirectory
      cases hdirectory

/-- A file is put in the place of a file. -/
theorem Shaped.put_file (h : tree.Shaped) {path : List α} {old : β}
    (hold : tree path = some (.file old)) (content : β) :
    (tree.put path (.file content)).Shaped := by
  intro other below hbelow hsome
  have hne : other ≠ path := by
    intro heq
    have hnone := h.below_file hold hbelow
    rw [heq, put_of_ne (by simpa using hbelow), hnone] at hsome
    exact hsome rfl
  rw [put_of_ne hne]
  refine h other below hbelow ?_
  by_cases hsame : other ++ below = path
  · rw [hsame, hold]
    exact Option.some_ne_none _
  · rw [put_of_ne hsame] at hsome
    exact hsome

/-! ## Making directories -/

/-- The directories of a path below `parent`, one after another; an existing one is kept, and a
file is in the way. -/
def createDirsFrom (tree : FileTree α β) (parent : List α) : List α → Option (FileTree α β)
  | [] => some tree
  | name :: rest =>
    match tree (parent ++ [name]) with
    | some .directory => createDirsFrom tree (parent ++ [name]) rest
    | some (.file _) => none
    | none => createDirsFrom (tree.put (parent ++ [name]) .directory) (parent ++ [name]) rest

def createDirAll (tree : FileTree α β) (path : List α) : Option (FileTree α β) :=
  tree.createDirsFrom [] path

/-- What making directories leaves and adds. -/
structure DirsMade (parent path : List α) (before after : FileTree α β) : Prop where
  shaped : after.Shaped
  kept : ∀ other, before other ≠ none → after other = before other
  added : ∀ other, before other = none → after other ≠ none →
    after other = some .directory ∧ ∃ rest, rest ≠ [] ∧ other = parent ++ rest ∧ rest <+: path
  made : after (parent ++ path) = some .directory

theorem createDirsFrom_made {tree after : FileTree α β} {parent path : List α}
    (hshaped : tree.Shaped) (hparent : tree parent = some .directory)
    (h : tree.createDirsFrom parent path = some after) : DirsMade parent path tree after := by
  induction path generalizing tree parent with
  | nil =>
    cases h
    refine ⟨hshaped, fun _ _ => rfl, fun other hnone hsome => absurd hnone hsome, ?_⟩
    rw [List.append_nil]
    exact hparent
  | cons name rest ih =>
    have hlift : ∀ {other : List α}, (∃ tail, tail ≠ [] ∧ other = parent ++ [name] ++ tail
        ∧ tail <+: rest) → ∃ tail, tail ≠ [] ∧ other = parent ++ tail ∧ tail <+: name :: rest := by
      rintro other ⟨tail, -, rfl, hprefix⟩
      exact ⟨name :: tail, List.cons_ne_nil _ _, by simp,
        List.cons_prefix_cons.mpr ⟨rfl, hprefix⟩⟩
    rw [createDirsFrom] at h
    split at h
    · next hexists =>
      -- a directory that is there already
      have hrest := ih hshaped hexists h
      refine ⟨hrest.shaped, hrest.kept, ?_, ?_⟩
      · intro other hnone hsome
        rcases hrest.added other hnone hsome with ⟨hdirectory, htail⟩
        exact ⟨hdirectory, hlift htail⟩
      · have hmade := hrest.made
        rw [List.append_assoc] at hmade
        exact hmade
    · cases h
    · next hfree =>
      -- one that is made now
      have hrest := ih (hshaped.put hparent hfree .directory) (put_self _ _ _) h
      refine ⟨hrest.shaped, ?_, ?_, ?_⟩
      · intro other hsome
        have hne : other ≠ parent ++ [name] := by
          rintro rfl
          exact hsome hfree
        rw [hrest.kept other (put_ne_none hsome), put_of_ne hne]
      · intro other hnone hsome
        by_cases hnew : other = parent ++ [name]
        · subst hnew
          have hput : (tree.put (parent ++ [name]) .directory) (parent ++ [name]) ≠ none := by
            rw [put_self]
            exact Option.some_ne_none _
          rw [hrest.kept _ hput, put_self]
          exact ⟨rfl, [name], List.cons_ne_nil _ _, rfl,
            List.cons_prefix_cons.mpr ⟨rfl, List.nil_prefix⟩⟩
        · have hfree' : tree.put (parent ++ [name]) .directory other = none :=
            (put_of_ne hnew _).trans hnone
          rcases hrest.added other hfree' hsome with ⟨hdirectory, htail⟩
          exact ⟨hdirectory, hlift htail⟩
      · have hmade := hrest.made
        rw [List.append_assoc] at hmade
        exact hmade

omit [DecidableEq α] in
/-- Directories below a directory that is there change nothing outside it. -/
theorem DirsMade.sameOutside {root path : List α} {before after : FileTree α β}
    (h : DirsMade [] (root ++ path) before after) (hshaped : before.Shaped)
    (hroot : before root = some .directory) : SameOutside root before after := by
  intro other hother
  by_cases hnone : before other = none
  · by_contra hchanged
    rw [hnone] at hchanged
    rcases (h.added other hnone hchanged).2 with ⟨rest, -, hrest, hprefix⟩
    rcases (hrest : other = rest) with rfl
    -- a prefix of the path that is not below the root is above it
    rcases List.prefix_or_prefix_of_prefix hprefix (List.prefix_append root path) with
      habove | hbelow
    · rcases habove with ⟨tail, rfl⟩
      by_cases htail : tail = []
      · rw [htail, List.append_nil] at hother
        exact hother (List.prefix_refl _)
      · rw [hshaped other tail htail (by rw [hroot]; exact Option.some_ne_none _)] at hnone
        cases hnone
    · exact hother hbelow
  · exact h.kept other hnone

/-! ## Making files -/

/-- A file is made, or what was in it is replaced; its directory must be there. -/
def createFile (tree : FileTree α β) (parent : List α) (name : α) (content : β) :
    Option (FileTree α β) :=
  match tree parent, tree (parent ++ [name]) with
  | some .directory, some .directory => none
  | some .directory, _ => some (tree.put (parent ++ [name]) (.file content))
  | _, _ => none

theorem createFile_eq_some {tree after : FileTree α β}
    (h : tree.createFile parent name content = some after) :
    tree parent = some .directory ∧ tree (parent ++ [name]) ≠ some .directory
      ∧ after = tree.put (parent ++ [name]) (.file content) := by
  rw [createFile] at h
  split at h
  · cases h
  · next hparent hnode =>
    cases h
    exact ⟨hparent, hnode, rfl⟩
  · cases h

theorem createFile_shaped {tree after : FileTree α β}
    (hshaped : tree.Shaped) (h : tree.createFile parent name content = some after) :
    after.Shaped := by
  rcases createFile_eq_some h with ⟨hparent, hnode, rfl⟩
  match hold : tree (parent ++ [name]) with
  | none => exact hshaped.put hparent hold _
  | some .directory => exact absurd hold hnode
  | some (.file old) => exact hshaped.put_file hold content

end FileTree

end Toss.Foundation
