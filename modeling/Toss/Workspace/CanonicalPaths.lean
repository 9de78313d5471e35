import Mathlib.Data.List.Dedup
import Toss.Workspace.ProjectReads

/-!
# Spellings of a path

A path may be written with backslashes and with white space around its segments.
`sanitize_project_path` looks only at the segments it is a spelling of, and returns the one
spelling that the rest of the server uses.

* `sanitizeProjectPath_eq` — a path is accepted by its segments;
* `loadProjectTree_of_isProjectPath` — the tree of stored paths;
* `sanitizeProjectPath_canonical` — the main result.
-/

namespace Toss.Workspace

/-- The separators of a spelling made one. -/
def toSlash (c : Char) : Char :=
  if c = '\\' then '/' else c

/-- The segments that a path is a spelling of. -/
def spelledSegments (raw : Text) : List Text :=
  (segments (raw.map toSlash)).map trim

/-- A path that names a place below the root of a project. -/
structure IsSafePath (path : Text) : Prop where
  ofSegments : ∃ parts, parts ≠ [] ∧ path = joinSegments parts
    ∧ ∀ part ∈ parts, part ≠ [] ∧ '/' ∉ part ∧ part ≠ ['.'] ∧ part ≠ ['.', '.']
  noBackslash : '\\' ∉ path
  noNul : '\x00' ∉ path
  relative : path.head? ≠ some '/'

/-! ## White space at the ends -/

theorem isWhitespace_toSlash (c : Char) : isWhitespace (toSlash c) = isWhitespace c := by
  rw [toSlash]
  split
  · next h =>
    rw [h]
    decide
  · rfl

theorem toSlash_ne_slash {c : Char} (hc : isWhitespace c = true) : toSlash c ≠ '/' := by
  intro heq
  rw [← isWhitespace_toSlash, heq] at hc
  exact absurd hc (by decide)

/-- White space before a path stands in its first segment. -/
theorem spelledSegments_cons {c : Char} (hc : isWhitespace c = true) (raw : Text) :
    spelledSegments (c :: raw) = spelledSegments raw := by
  have hsplit := List.splitOn_cons_eq_if_modifyHead (a := '/') (toSlash c) (raw.map toSlash)
  rw [if_neg (by simpa using toSlash_ne_slash hc)] at hsplit
  rw [spelledSegments, spelledSegments, segments, List.map_cons, hsplit]
  rcases hsegments : (raw.map toSlash).splitOn '/' with _ | ⟨first, rest⟩
  · exact absurd hsegments (List.splitOn_ne_nil '/' _)
  · have hfirst : trim (toSlash c :: first) = trim first :=
      trim_cons (by rw [isWhitespace_toSlash]; exact hc) first
    rw [List.modifyHead_cons, List.map_cons, hfirst, segments, hsegments, List.map_cons]

/-- What is written after a path stands in its last segment. -/
theorem segments_concat {c : Char} (hc : c ≠ '/') (path : Text) :
    ∃ init last, segments path = init ++ [last]
      ∧ segments (path ++ [c]) = init ++ [last ++ [c]] := by
  induction path with
  | nil =>
    refine ⟨[], [], rfl, ?_⟩
    have hne : '/' ∉ [c] := by simpa using Ne.symm hc
    exact List.splitOn_eq_singleton hne
  | cons d path ih =>
    rcases ih with ⟨init, last, hpath, hconcat⟩
    rw [segments] at hpath hconcat
    rw [List.cons_append, segments, segments, List.splitOn_cons_eq_if_modifyHead,
      List.splitOn_cons_eq_if_modifyHead, hpath, hconcat]
    split
    · exact ⟨[] :: init, last, rfl, rfl⟩
    · rcases init with _ | ⟨first, init⟩
      · exact ⟨[], d :: last, rfl, rfl⟩
      · exact ⟨(d :: first) :: init, last, rfl, rfl⟩

theorem spelledSegments_concat {c : Char} (hc : isWhitespace c = true) (raw : Text) :
    spelledSegments (raw ++ [c]) = spelledSegments raw := by
  rcases segments_concat (toSlash_ne_slash hc) (raw.map toSlash) with ⟨init, last, hraw, hconcat⟩
  have hlast : trim (last ++ [toSlash c]) = trim last :=
    trim_concat (by rw [isWhitespace_toSlash]; exact hc) last
  rw [spelledSegments, spelledSegments, List.map_append, List.map_singleton, hconcat, hraw,
    List.map_append, List.map_append, List.map_singleton, List.map_singleton, hlast]

theorem spelledSegments_trim (raw : Text) : spelledSegments (trim raw) = spelledSegments raw := by
  have hleft : spelledSegments (raw.dropWhile isWhitespace) = spelledSegments raw := by
    induction raw with
    | nil => rfl
    | cons c raw ih =>
      by_cases hc : isWhitespace c = true
      · rw [List.dropWhile_cons_of_pos hc, ih, spelledSegments_cons hc]
      · rw [List.dropWhile_cons_of_neg hc]
  have hright : ∀ text : Text,
      spelledSegments (text.rdropWhile isWhitespace) = spelledSegments text := by
    intro text
    induction text using List.reverseRecOn with
    | nil => rfl
    | append_singleton text c ih =>
      by_cases hc : isWhitespace c = true
      · rw [List.rdropWhile_concat_pos _ _ _ hc, ih, spelledSegments_concat hc]
      · rw [List.rdropWhile_concat_neg _ _ _ hc]
  rw [trim_eq_rdropWhile, hright, hleft]

/-! ## The canonical spelling -/

/-- Only the segments of a path decide whether it is accepted, and as what. -/
theorem sanitizeProjectPath_eq (raw : Text) :
    sanitizeProjectPath raw
      = if (spelledSegments raw).all isAllowedSegment then some (joinSegments (spelledSegments raw))
        else none := by
  have hsegments : (segments ((trim raw).map fun c => if c = '\\' then '/' else c)).map trim
      = spelledSegments raw :=
    spelledSegments_trim raw
  have hne : (spelledSegments raw).isEmpty = false := by
    simp [spelledSegments, segments_ne_nil]
  unfold sanitizeProjectPath
  dsimp only
  rw [hsegments, hne]
  split
  · next hstart =>
    -- an empty path or a leading slash is an empty first segment
    have hempty : ∃ rest, spelledSegments raw = [] :: rest := by
      rw [← spelledSegments_trim]
      rcases htrim : trim raw with _ | ⟨c, rest⟩
      · exact ⟨[], rfl⟩
      rw [htrim] at hstart
      have hc : '/' = c := by
        simpa [List.isPrefixOf] using hstart
      refine ⟨(segments (rest.map toSlash)).map trim, ?_⟩
      rw [← hc, spelledSegments, List.map_cons, show toSlash '/' = '/' from rfl]
      have hslash := segments_append_slash [] (rest.map toSlash)
      rw [List.nil_append] at hslash
      rw [hslash]
      rfl
    rcases hempty with ⟨rest, hrest⟩
    rw [hrest]
    rfl
  · simp

theorem isSafePath_of_isProjectPath {path : Text} (h : IsProjectPath path) : IsSafePath path := by
  rcases isProjectPath_iff.mp h with ⟨hparts, hbackslash⟩
  refine ⟨⟨segments path, segments_ne_nil path, (joinSegments_segments path).symm, ?_⟩, hbackslash,
    ?_, ?_⟩
  · intro part hpart
    have hallowed := (hparts part hpart).1
    simp only [isAllowedSegment, Bool.not_eq_true', Bool.or_eq_false_iff, decide_eq_false_iff_not]
      at hallowed
    rcases hallowed with ⟨⟨⟨⟨hempty, hdot⟩, hdots⟩, -⟩, -⟩
    exact ⟨by simpa using hempty, slash_not_mem_segment hpart, hdot, hdots⟩
  · intro hnul
    rw [← joinSegments_segments path] at hnul
    rcases mem_joinSegments hnul with heq | ⟨part, hpart, hc⟩
    · exact absurd heq (by decide)
    · have hallowed := (hparts part hpart).1
      simp [isAllowedSegment, hc] at hallowed
  · intro hhead
    rcases path with _ | ⟨c, rest⟩
    · simp at hhead
    rw [List.head?_cons, Option.some.injEq] at hhead
    have hslash := segments_append_slash [] rest
    rw [List.nil_append, ← hhead] at hslash
    have hfirst : [] ∈ segments (c :: rest) := by
      rw [hslash]
      exact List.mem_append_left _ List.mem_cons_self
    exact isAllowedSegment_ne_nil (hparts [] hfirst).1 rfl

/-! ## Where stored paths go -/

theorem sanitizeStoredPaths_of_isProjectPath {paths : List Text}
    (h : ∀ path ∈ paths, IsProjectPath path) : sanitizeStoredPaths paths = some paths := by
  rw [sanitizeStoredPaths]
  have hmap := Foundation.mapM_eq_map (g := id) h
  rw [hmap, List.map_id]

/-- The tree of stored paths can be built, and shows stored paths and directories above
them. -/
theorem loadProjectTree_of_isProjectPath {tree : ProjectTreeRecord}
    (hdocuments : ∀ path ∈ tree.documentPaths, IsProjectPath path)
    (hdirectories : ∀ path ∈ tree.directoryPaths, IsProjectPath path)
    (hassets : ∀ path ∈ tree.assetPaths, IsProjectPath path) :
    ∃ response, loadProjectTree tree = some response
      ∧ ∀ node ∈ response.nodes, IsProjectPath node.path := by
  rw [loadProjectTree, sanitizeStoredPaths_of_isProjectPath hdocuments,
    sanitizeStoredPaths_of_isProjectPath hassets, sanitizeStoredPaths_of_isProjectPath hdirectories]
  refine ⟨_, rfl, ?_⟩
  intro node hnode
  have hfiles : ∀ path ∈ tree.documentPaths.filter isDocumentTextPath ++ tree.assetPaths,
      IsProjectPath path := by
    intro path hpath
    rcases List.mem_append.mp hpath with hdocument | hasset
    · exact hdocuments path (List.mem_of_mem_filter hdocument)
    · exact hassets path hasset
  rw [mem_dedupNodes, mem_sortNodes, List.mem_append] at hnode
  rcases hnode with hfile | hdirectory
  · rcases List.mem_map.mp hfile with ⟨path, hpath, rfl⟩
    exact hfiles path hpath
  rcases List.mem_map.mp hdirectory with ⟨path, hpath, rfl⟩
  rcases List.mem_append.mp (List.mem_dedup.mp hpath) with hparent | hexplicit
  · rcases List.mem_flatMap.mp hparent with ⟨file, hfile, hmem⟩
    exact isProjectPath_of_mem_parentDirectories (hfiles file hfile) hmem
  · exact hdirectories path hexplicit

theorem isProjectPath_movePathWithSubtree {path fromPath toPath moved : Text}
    (hpath : IsProjectPath path) (hto : IsProjectPath toPath)
    (h : movePathWithSubtree path fromPath toPath = some moved) : IsProjectPath moved := by
  rw [movePathWithSubtree] at h
  split at h
  · cases h
    exact hto
  rename_i hne
  rcases Option.map_eq_some_iff.mp h with ⟨suffix, hsuffix, rfl⟩
  rw [subtreeSuffix] at hsuffix
  split at hsuffix
  · next hstart =>
    cases hsuffix
    -- it is the path that the statements of a move give the row
    have hin : pathInSubtree fromPath path = true := by
      rcases List.isPrefixOf_iff_prefix.mp hstart with ⟨rest, hrest⟩
      rw [pathInSubtree_iff]
      exact .inr ⟨rest, by simp [← hrest]⟩
    have hmoved := isProjectPath_pathMovedTo hpath hto hin
    rw [pathMovedTo, if_neg hne] at hmoved
    exact hmoved
  · cases hsuffix

/-- `sanitize_project_path` is a projection on the canonical safe paths: what it returns is
safe and returned again, all spellings of the same segments give it, and the tree and the
moves of stored paths show and store such paths only. -/
theorem sanitizeProjectPath_canonical {raw path : Text}
    (h : sanitizeProjectPath raw = some path) :
    sanitizeProjectPath path = some path ∧ IsSafePath path
      ∧ (∀ other, spelledSegments other = spelledSegments raw →
          sanitizeProjectPath other = some path)
      ∧ (∀ fromPath toPath moved, IsProjectPath fromPath → IsProjectPath toPath →
          movePathWithSubtree path fromPath toPath = some moved → IsProjectPath moved)
      ∧ (∀ fromPath toPath, IsProjectPath fromPath → IsProjectPath toPath →
          pathInSubtree fromPath path = true → IsProjectPath (pathMovedTo fromPath toPath path))
      ∧ ∀ tree : ProjectTreeRecord,
          (∀ other ∈ tree.documentPaths ++ tree.directoryPaths ++ tree.assetPaths,
            IsProjectPath other) →
          ∃ response, loadProjectTree tree = some response
            ∧ ∀ node ∈ response.nodes, IsProjectPath node.path := by
  have hpath := isProjectPath_of_sanitizeProjectPath h
  refine ⟨hpath, isSafePath_of_isProjectPath hpath, ?_, ?_, ?_, ?_⟩
  · intro other hother
    rw [← h, sanitizeProjectPath_eq, sanitizeProjectPath_eq, hother]
  · intro fromPath toPath moved _ hto hmoved
    exact isProjectPath_movePathWithSubtree hpath hto hmoved
  · intro fromPath toPath _ hto hin
    exact isProjectPath_pathMovedTo hpath hto hin
  · intro tree htree
    apply loadProjectTree_of_isProjectPath
    · intro other hmem
      exact htree other (List.mem_append_left _ (List.mem_append_left _ hmem))
    · intro other hmem
      exact htree other (List.mem_append_left _ (List.mem_append_right _ hmem))
    · intro other hmem
      exact htree other (List.mem_append_right _ hmem)

/-- A file written with a backslash and spaces. -/
theorem spelled_path_is_canonical :
    sanitizeProjectPath [' ', 'a', ' ', '\\', 'b'] = some ['a', '/', 'b']
      ∧ sanitizeProjectPath ['a', '/', 'b'] = some ['a', '/', 'b'] :=
  ⟨by decide, (sanitizeProjectPath_canonical
    (by decide : sanitizeProjectPath [' ', 'a', ' ', '\\', 'b'] = some ['a', '/', 'b'])).1⟩

end Toss.Workspace
