import Mathlib.Data.List.AList
import Toss.Workspace.ProjectReads

/-!
# Merging a delta into the browser's documents

`sync.ts` with the equality it uses. A `Record` of the browser is an association
list with distinct keys.

* `mergeWorkspaceDocumentDelta` — the documents after a delta;
* `lookup_mergeWorkspaceDocumentDelta` — with no dirty document: what the delta
  brought, else what was there, for the text files of the delta's tree, and
  nothing else.
-/

namespace Toss.Web

open Toss.Workspace

/-- `Record<string, V>`. -/
abbrev Record (V : Type) := AList fun _ : Text => V

abbrev ProjectNode := ProjectFileNode

/-- The pattern lists the extensions of the server's `is_document_text_path`, and
ignores the case of ASCII letters as it does. -/
def isTextFile (path : Text) : Bool :=
  textExtensions.any fun extension => extension.isSuffixOf (path.map toAsciiLowercase)

theorem isTextFile_eq_isDocumentTextPath (path : Text) :
    isTextFile path = isDocumentTextPath path := rfl

/-- As many keys, and the same value under each key of the first. -/
def sameStringMap (a b : Record Text) : Bool :=
  a.keys.length = b.keys.length && a.keys.all fun key => a.lookup key = b.lookup key

structure MergeWorkspaceDocumentsInput where
  current : Record Text
  incoming : Record Text
  nodes : List ProjectNode
  activePath : Text
  activeDocumentDirty : Bool
  activeDocumentText : Text

/-- The text files of a tree. -/
def textFilePaths (nodes : List ProjectNode) : List Text :=
  (nodes.filter fun node => node.kind = .file && isTextFile node.path).map (·.path)

def takeIncoming (input : MergeWorkspaceDocumentsInput) (next : Record Text)
    (path content : Text) : Record Text :=
  if !isTextFile path then next
  else if path = input.activePath && input.activeDocumentDirty then next
  else next.insert path content

def dropUnlisted (input : MergeWorkspaceDocumentsInput) (next : Record Text) (path : Text) :
    Record Text :=
  if path ∈ textFilePaths input.nodes then next
  else if path = input.activePath && input.activeDocumentDirty then
    next.insert path input.activeDocumentText
  else next.erase path

def mergeWorkspaceDocumentDelta (input : MergeWorkspaceDocumentsInput) : Record Text :=
  let merged := input.incoming.entries.foldl
    (fun next entry => takeIncoming input next entry.1 entry.2) input.current
  let next := merged.keys.foldl (dropUnlisted input) merged
  if sameStringMap input.current next then input.current else next

/-! ## What a merge holds -/

theorem lookup_of_sameStringMap {a b : Record Text} (h : sameStringMap a b = true) (path : Text) :
    a.lookup path = b.lookup path := by
  simp only [sameStringMap, Bool.and_eq_true, decide_eq_true_eq, List.all_eq_true] at h
  rcases h with ⟨hlength, hsame⟩
  have hsub : a.keys ⊆ b.keys := by
    intro key hkey
    have hisSome : (a.lookup key).isSome := AList.lookup_isSome.mpr hkey
    rw [hsame key hkey] at hisSome
    exact AList.lookup_isSome.mp hisSome
  by_cases hpath : path ∈ a.keys
  · exact hsame path hpath
  -- as many distinct keys, so the second has no other
  have hperm : a.keys.Perm b.keys :=
    (List.subperm_of_subset a.keys_nodup hsub).perm_of_length_le (Nat.le_of_eq hlength.symm)
  have hb : path ∉ b := fun hmem => hpath (hperm.mem_iff.mpr hmem)
  rw [AList.lookup_eq_none.mpr hpath, AList.lookup_eq_none.mpr hb]

section Clean

variable {input : MergeWorkspaceDocumentsInput}

/-- With no dirty document the last text entry under a path wins. -/
theorem lookup_takeIncoming (hclean : input.activeDocumentDirty = false) (path : Text)
    (entries : List (Sigma fun _ : Text => Text)) (start : Record Text)
    (hnodup : entries.NodupKeys) :
    (entries.foldl (fun next entry => takeIncoming input next entry.1 entry.2) start).lookup path
      = if isTextFile path then (entries.dlookup path).or (start.lookup path)
        else start.lookup path := by
  induction entries generalizing start with
  | nil => simp
  | cons entry entries ih =>
    rcases entry with ⟨key, content⟩
    rw [List.nodupKeys_cons] at hnodup
    rw [List.foldl_cons, ih _ hnodup.2]
    by_cases hkey : path = key
    · subst hkey
      have hnone : entries.dlookup path = none := List.dlookup_eq_none.mpr hnodup.1
      by_cases htext : isTextFile path = true
      · simp [takeIncoming, htext, hclean, hnone]
      · simp [takeIncoming, htext]
    · have hstart : (takeIncoming input start key content).lookup path = start.lookup path := by
        unfold takeIncoming
        split
        · rfl
        · split
          · rfl
          · exact AList.lookup_insert_ne hkey
      rw [hstart, List.dlookup_cons_ne _ _ hkey]

theorem lookup_dropUnlisted (hclean : input.activeDocumentDirty = false) (path : Text)
    (keys : List Text) (start : Record Text) :
    (keys.foldl (dropUnlisted input) start).lookup path
      = if path ∈ keys ∧ path ∉ textFilePaths input.nodes then none
        else start.lookup path := by
  induction keys generalizing start with
  | nil => simp
  | cons key keys ih =>
    rw [List.foldl_cons, ih]
    by_cases hlisted : path ∈ textFilePaths input.nodes
    · have hstart : (dropUnlisted input start key).lookup path = start.lookup path := by
        unfold dropUnlisted
        split
        · rfl
        · next hkey =>
          have hne : path ≠ key := fun heq => hkey (heq ▸ hlisted)
          simp [hclean, AList.lookup_erase_ne hne]
      simp [hlisted, hstart]
    · by_cases hkey : path = key
      · subst hkey
        simp [dropUnlisted, hlisted, hclean, AList.lookup_erase]
      · have hstart : (dropUnlisted input start key).lookup path = start.lookup path := by
          unfold dropUnlisted
          split
          · rfl
          · simp [hclean, AList.lookup_erase_ne hkey]
        simp [hlisted, hkey, hstart]

/-- With no dirty document, a merge holds under the text files of the tree what
the delta brought, else what was there before, and nothing else. -/
theorem lookup_mergeWorkspaceDocumentDelta (hclean : input.activeDocumentDirty = false)
    (path : Text) :
    (mergeWorkspaceDocumentDelta input).lookup path
      = if path ∈ textFilePaths input.nodes then
          (input.incoming.lookup path).or (input.current.lookup path)
        else none := by
  have hnext : ∀ next : Record Text,
      (if sameStringMap input.current next then input.current else next).lookup path
        = next.lookup path := by
    intro next
    split
    · next hsame => exact lookup_of_sameStringMap hsame path
    · rfl
  rw [mergeWorkspaceDocumentDelta, hnext, lookup_dropUnlisted hclean,
    lookup_takeIncoming hclean path _ _ input.incoming.nodupKeys]
  by_cases hlisted : path ∈ textFilePaths input.nodes
  · have htext : isTextFile path = true := by
      rcases List.mem_map.mp hlisted with ⟨node, hnode, rfl⟩
      have := (List.mem_filter.mp hnode).2
      simp only [Bool.and_eq_true] at this
      exact this.2
    simp [hlisted, htext, AList.lookup]
  · simp only [hlisted, not_false_eq_true, and_true, if_false]
    split
    · rfl
    rename_i hkey
    -- a path that is no key of the merged record has no value in it
    have hnone := AList.lookup_eq_none.mpr hkey
    rw [lookup_takeIncoming hclean path _ _ input.incoming.nodupKeys] at hnone
    exact hnone

end Clean

end Toss.Web
