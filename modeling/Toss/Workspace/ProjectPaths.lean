import Mathlib.Data.List.DropRight
import Mathlib.Data.List.Infix
import Toss.Workspace.Documents
import Toss.Workspace.FilePolicy

/-!
# Sanitized paths by their segments

`sanitize_project_path` is read back as a condition on segments, which the paths
of a moved subtree keep.

* `isProjectPath_iff` — a sanitized path has allowed, trimmed segments and no
  backslash;
* `pathInSubtree_iff`, `segments_subtree` — a subtree is what extends the segments
  of its root;
* `isProjectPath_moved` — moving a sanitized path into a sanitized directory.
-/

namespace Toss.Workspace

/-- A path as `sanitize_project_path` leaves it. -/
def IsProjectPath (path : Text) : Prop :=
  sanitizeProjectPath path = some path

instance (path : Text) : Decidable (IsProjectPath path) :=
  inferInstanceAs (Decidable (sanitizeProjectPath path = some path))

/-! ## Trimming -/

/-- No white space at either end. -/
def IsTrimmed (text : Text) : Prop :=
  (∀ c ∈ text.head?, isWhitespace c = false) ∧ ∀ c ∈ text.getLast?, isWhitespace c = false

theorem trim_eq_rdropWhile (text : Text) :
    trim text = (text.dropWhile isWhitespace).rdropWhile isWhitespace := rfl

variable {text : Text} {c : Char} {parts : List Text}

theorem IsTrimmed.trim_eq (h : IsTrimmed text) : trim text = text := by
  have hleft : text.dropWhile isWhitespace = text := by
    rw [List.dropWhile_eq_self_iff]
    intro hlength
    have hhead : text.head? = some text[0] := by
      rw [List.head?_eq_getElem?, List.getElem?_eq_getElem hlength]
    simp [h.1 _ hhead]
  rw [trim_eq_rdropWhile, hleft, List.rdropWhile_eq_self_iff]
  intro hne
  simp [h.2 _ (List.getLast?_eq_getLast_of_ne_nil hne)]

theorem isTrimmed_trim (text : Text) : IsTrimmed (trim text) := by
  constructor
  · intro c hc
    -- what is cut off at the right leaves the head
    have hprefix : trim text <+: text.dropWhile isWhitespace := by
      rw [trim_eq_rdropWhile]
      exact List.rdropWhile_prefix isWhitespace _
    rcases hprefix with ⟨rest, hrest⟩
    have hhead : (text.dropWhile isWhitespace).head? = some c := by
      rw [← hrest, List.head?_append_of_ne_nil]
      · exact hc
      · intro hnil
        simp [hnil] at hc
    have hnot := List.head?_dropWhile_not isWhitespace text
    rw [hhead] at hnot
    simpa using hnot
  · intro c hc
    have hne : trim text ≠ [] := by
      intro hnil
      simp [hnil] at hc
    have hlast := List.rdropWhile_last_not isWhitespace (text.dropWhile isWhitespace) hne
    rw [Option.mem_def, List.getLast?_eq_getLast_of_ne_nil hne] at hc
    cases hc
    exact Bool.eq_false_iff.mpr hlast

theorem mem_of_mem_trim (h : c ∈ trim text) : c ∈ text := by
  rw [trim_eq_rdropWhile] at h
  exact (List.dropWhile_suffix isWhitespace).subset
    ((List.rdropWhile_prefix isWhitespace _).subset h)

theorem trim_cons (hc : isWhitespace c = true) (text : Text) :
    trim (c :: text) = trim text := by
  rw [trim, trim, List.dropWhile_cons_of_pos hc]

theorem trim_concat (hc : isWhitespace c = true) (text : Text) :
    trim (text ++ [c]) = trim text := by
  rw [trim_eq_rdropWhile, trim_eq_rdropWhile]
  by_cases h : ∀ c ∈ text, isWhitespace c = true
  · rw [List.dropWhile_append_of_pos h, List.dropWhile_eq_nil_iff.mpr h,
      List.dropWhile_cons_of_pos hc]
    rfl
  · have hne : text.dropWhile isWhitespace ≠ [] := fun hnil => h (List.dropWhile_eq_nil_iff.mp hnil)
    rw [List.dropWhile_append, if_neg (by simpa using hne), List.rdropWhile_concat_pos _ _ _ hc]

/-! ## Segments -/

@[simp] theorem joinSegments_segments (path : Text) : joinSegments (segments path) = path := by
  simp [joinSegments, segments]

theorem segments_joinSegments (hslash : ∀ part ∈ parts, '/' ∉ part)
    (hne : parts ≠ []) : segments (joinSegments parts) = parts :=
  List.splitOn_intercalate '/' hslash hne

theorem segments_ne_nil (path : Text) : segments path ≠ [] := by
  simp [segments]

/-- A path and what follows a slash have the segments of both. -/
theorem segments_append_slash (path rest : Text) :
    segments (path ++ '/' :: rest) = segments path ++ segments rest :=
  List.splitOn_append_cons_self path rest

theorem segments_injective {path path' : Text} (h : segments path = segments path') :
    path = path' := by
  rw [← joinSegments_segments path, h, joinSegments_segments]

theorem joinSegments_cons_cons (part next : Text) (rest : List Text) :
    joinSegments (part :: next :: rest) = part ++ '/' :: joinSegments (next :: rest) := by
  simp [joinSegments, List.intercalate_cons_cons]

theorem joinSegments_singleton (part : Text) : joinSegments [part] = part := by
  simp [joinSegments]

theorem slash_not_mem_segment {path part : Text} (h : part ∈ segments path) : '/' ∉ part := by
  induction path generalizing part with
  | nil =>
    have hpart : part = [] := by simpa [segments] using h
    simp [hpart]
  | cons c path ih =>
    have hcons := List.splitOn_cons_eq_if_modifyHead (a := '/') c path
    rw [segments, hcons] at h
    split at h
    · rcases List.mem_cons.mp h with rfl | hrest
      · simp
      · exact ih hrest
    rename_i hc
    rcases hsplit : path.splitOn '/' with _ | ⟨first, rest⟩
    · simp at hsplit
    rw [hsplit, List.modifyHead_cons] at h
    rcases List.mem_cons.mp h with rfl | hrest
    · have hfirst : '/' ∉ first := ih (by rw [segments, hsplit]; exact List.mem_cons_self)
      simp only [List.mem_cons, not_or]
      refine ⟨?_, hfirst⟩
      intro heq
      simp [← heq] at hc
    · exact ih (by rw [segments, hsplit]; exact List.mem_cons_of_mem _ hrest)

theorem mem_joinSegments (h : c ∈ joinSegments parts) :
    c = '/' ∨ ∃ part ∈ parts, c ∈ part := by
  induction parts with
  | nil => simp [joinSegments] at h
  | cons part rest ih =>
    cases rest with
    | nil =>
      rw [joinSegments_singleton] at h
      exact .inr ⟨part, List.mem_cons_self, h⟩
    | cons next rest =>
      rw [joinSegments_cons_cons, List.mem_append, List.mem_cons] at h
      rcases h with hpart | hslash | hrest
      · exact .inr ⟨part, List.mem_cons_self, hpart⟩
      · exact .inl hslash
      · rcases ih hrest with hslash | ⟨other, hother, hc⟩
        · exact .inl hslash
        · exact .inr ⟨other, List.mem_cons_of_mem _ hother, hc⟩

theorem mem_of_mem_segment {path part : Text} (hpart : part ∈ segments path)
    (hc : c ∈ part) : c ∈ path := by
  rw [← joinSegments_segments path]
  generalize segments path = parts at hpart
  induction parts with
  | nil => simp at hpart
  | cons first rest ih =>
    cases rest with
    | nil =>
      rw [joinSegments_singleton, ← List.mem_singleton.mp hpart]
      exact hc
    | cons next rest =>
      rw [joinSegments_cons_cons, List.mem_append, List.mem_cons]
      rcases List.mem_cons.mp hpart with rfl | hrest
      · exact .inl hc
      · exact .inr (.inr (ih hrest))

/-- A path begins as its first segment and ends as its last. -/
theorem isTrimmed_joinSegments (hne : ∀ part ∈ parts, part ≠ [])
    (htrimmed : ∀ part ∈ parts, IsTrimmed part) : IsTrimmed (joinSegments parts) := by
  induction parts with
  | nil => simp [joinSegments, IsTrimmed]
  | cons part rest ih =>
    cases rest with
    | nil =>
      rw [joinSegments_singleton]
      exact htrimmed part List.mem_cons_self
    | cons next rest =>
      have hrest := ih (fun other hother => hne other (List.mem_cons_of_mem _ hother))
        (fun other hother => htrimmed other (List.mem_cons_of_mem _ hother))
      have hnonempty : joinSegments (next :: rest) ≠ [] := by
        intro hnil
        have hnext := hne next (List.mem_cons_of_mem _ List.mem_cons_self)
        cases rest with
        | nil => exact hnext (by rwa [joinSegments_singleton] at hnil)
        | cons other rest =>
          rw [joinSegments_cons_cons] at hnil
          simp at hnil
      rw [joinSegments_cons_cons]
      constructor
      · rw [List.head?_append_of_ne_nil _ (hne part List.mem_cons_self)]
        exact (htrimmed part List.mem_cons_self).1
      · have hlast : (part ++ '/' :: joinSegments (next :: rest)).getLast?
            = (joinSegments (next :: rest)).getLast? := by
          rw [List.getLast?_append_of_ne_nil _ (by simp), List.getLast?_cons_of_ne_nil hnonempty]
        rw [hlast]
        exact hrest.2

/-! ## Sanitized paths -/

theorem isAllowedSegment_ne_nil {part : Text} (h : isAllowedSegment part = true) : part ≠ [] := by
  intro hnil
  simp [hnil, isAllowedSegment] at h

/-- What `sanitize_project_path` returns has allowed, trimmed segments and no backslash. -/
theorem segments_of_sanitizeProjectPath {raw path : Text} (h : sanitizeProjectPath raw = some path) :
    (∀ part ∈ segments path, isAllowedSegment part = true ∧ IsTrimmed part) ∧ '\\' ∉ path := by
  unfold sanitizeProjectPath at h
  dsimp only at h
  split at h
  · simp at h
  split at h
  · next hparts =>
    simp only [Bool.and_eq_true, List.all_eq_true] at hparts
    rcases hparts with ⟨hallowed, hempty⟩
    have hjoin := Option.some.inj h
    generalize hcanonical : (trim raw).map (fun c => if c = '\\' then '/' else c) = canonical
      at hallowed hempty hjoin
    have hslash : ∀ part ∈ (segments canonical).map trim, '/' ∉ part := by
      intro part hpart
      rcases List.mem_map.mp hpart with ⟨part', hpart', rfl⟩
      exact fun hmem => slash_not_mem_segment hpart' (mem_of_mem_trim hmem)
    have hsegments : segments path = (segments canonical).map trim := by
      rw [← hjoin]
      refine segments_joinSegments hslash ?_
      intro hnil
      simp [hnil] at hempty
    constructor
    · intro part hpart
      rw [hsegments] at hpart
      refine ⟨hallowed part hpart, ?_⟩
      rcases List.mem_map.mp hpart with ⟨part', -, rfl⟩
      exact isTrimmed_trim part'
    · intro hmem
      rw [← hjoin] at hmem
      rcases mem_joinSegments hmem with heq | ⟨part, hpart, hc⟩
      · exact absurd heq (by decide)
      -- the canonical form has no backslash
      rcases List.mem_map.mp hpart with ⟨part', hpart', rfl⟩
      have hin := mem_of_mem_segment hpart' (mem_of_mem_trim hc)
      rw [← hcanonical] at hin
      rcases List.mem_map.mp hin with ⟨c, -, hc⟩
      split at hc
      · exact absurd hc (by decide)
      · next hne => exact hne hc
  · simp at h

theorem isProjectPath_iff {path : Text} :
    IsProjectPath path ↔
      (∀ part ∈ segments path, isAllowedSegment part = true ∧ IsTrimmed part) ∧ '\\' ∉ path := by
  constructor
  · exact segments_of_sanitizeProjectPath
  · rintro ⟨hparts, hbackslash⟩
    have hnonempty : ∀ part ∈ segments path, part ≠ [] :=
      fun part hpart => isAllowedSegment_ne_nil (hparts part hpart).1
    -- trimming and canonicalization change nothing, which leaves the checks
    have htrim : trim path = path := by
      have htrimmed := isTrimmed_joinSegments hnonempty fun part hpart => (hparts part hpart).2
      rw [joinSegments_segments] at htrimmed
      exact htrimmed.trim_eq
    have hcanonical : path.map (fun c => if c = '\\' then '/' else c) = path := by
      refine (List.map_congr_left ?_).trans path.map_id
      intro c hc
      have hne : c ≠ '\\' := by
        rintro rfl
        exact hbackslash hc
      rw [if_neg hne, id]
    have hsame : (segments path).map trim = segments path := by
      refine (List.map_congr_left ?_).trans (List.map_id _)
      intro part hpart
      exact (hparts part hpart).2.trim_eq
    rcases hsplit : segments path with _ | ⟨first, rest⟩
    · exact absurd hsplit (segments_ne_nil path)
    have hfirst : first ∈ segments path := by
      rw [hsplit]
      exact List.mem_cons_self
    have hhead : path.head? = first.head? := by
      conv_lhs => rw [← joinSegments_segments path, hsplit]
      cases rest with
      | nil => rw [joinSegments_singleton]
      | cons next rest =>
        rw [joinSegments_cons_cons, List.head?_append_of_ne_nil _ (hnonempty first hfirst)]
    have hslash : ['/'].isPrefixOf path = false := by
      cases path with
      | nil => rfl
      | cons c path =>
        simp only [List.isPrefixOf, Bool.and_true]
        rw [beq_eq_false_iff_ne]
        rintro rfl
        rw [List.head?_cons] at hhead
        exact slash_not_mem_segment hfirst (List.mem_of_head? hhead.symm)
    have hempty : path.isEmpty = false := by
      cases path with
      | nil =>
        rw [List.head?_nil] at hhead
        exact absurd (List.head?_eq_none_iff.mp hhead.symm) (hnonempty first hfirst)
      | cons c path => rfl
    have hall : (segments path).all isAllowedSegment = true := by
      rw [List.all_eq_true]
      exact fun part hpart => (hparts part hpart).1
    have hsome : (segments path).isEmpty = false := by rw [hsplit]; rfl
    unfold IsProjectPath sanitizeProjectPath
    simp [htrim, hcanonical, hsame, hslash, hempty, hall, hsome]

/-- Sanitizing is idempotent. -/
theorem isProjectPath_of_sanitizeProjectPath {raw path : Text}
    (h : sanitizeProjectPath raw = some path) : IsProjectPath path :=
  isProjectPath_iff.mpr (segments_of_sanitizeProjectPath h)

/-- The directories above a sanitized path are sanitized paths. -/
theorem isProjectPath_of_mem_parentDirectories {path directory : Text} (hpath : IsProjectPath path)
    (h : directory ∈ parentDirectories path) : IsProjectPath directory := by
  rw [isProjectPath_iff] at hpath ⊢
  simp only [parentDirectories, List.mem_map, List.mem_filter, List.mem_inits, Bool.and_eq_true,
    decide_eq_true_eq] at h
  rcases h with ⟨parts, ⟨hinit, hne, -⟩, rfl⟩
  have hsub : ∀ part ∈ parts, part ∈ segments path := fun part hpart => hinit.subset hpart
  have hsegments : segments (joinSegments parts) = parts :=
    segments_joinSegments (fun part hpart => slash_not_mem_segment (hsub part hpart)) hne
  constructor
  · intro part hpart
    rw [hsegments] at hpart
    exact hpath.1 part (hsub part hpart)
  · intro hmem
    rcases mem_joinSegments hmem with heq | ⟨part, hpart, hc⟩
    · exact absurd heq (by decide)
    · exact hpath.2 (mem_of_mem_segment (hsub part hpart) hc)

/-! ## Subtrees -/

theorem pathInSubtree_iff {subtree path : Text} :
    pathInSubtree subtree path = true ↔ path = subtree ∨ ∃ rest, path = subtree ++ '/' :: rest := by
  simp only [pathInSubtree, decide_eq_true_eq]
  refine or_congr_right ?_
  constructor
  · intro htake
    refine ⟨path.drop (subtree.length + 1), ?_⟩
    conv_lhs => rw [← List.take_append_drop (subtree.length + 1) path, htake]
    simp
  · rintro ⟨rest, rfl⟩
    have hsplit : subtree ++ '/' :: rest = (subtree ++ ['/']) ++ rest := by simp
    rw [hsplit, List.take_left' (by simp)]

/-- The paths of a subtree are those whose segments extend those of its root. -/
theorem pathInSubtree_iff_segments {subtree path : Text} :
    pathInSubtree subtree path = true ↔ segments subtree <+: segments path := by
  rw [pathInSubtree_iff]
  constructor
  · rintro (rfl | ⟨rest, rfl⟩)
    · exact List.prefix_rfl
    · rw [segments_append_slash]
      exact List.prefix_append _ _
  · rintro ⟨rest, hrest⟩
    rcases rest with _ | ⟨part, rest⟩
    · left
      rw [List.append_nil] at hrest
      exact segments_injective hrest.symm
    right
    refine ⟨joinSegments (part :: rest), ?_⟩
    apply segments_injective
    rw [segments_append_slash, segments_joinSegments _ (by simp), ← hrest]
    intro other hother
    exact slash_not_mem_segment (by rw [← hrest]; exact List.mem_append_right _ hother)

/-- A moved path has the segments of its new root in place of the old. -/
theorem segments_pathMovedTo {fromPath path : Text} (toPath : Text)
    (h : pathInSubtree fromPath path = true) :
    segments (pathMovedTo fromPath toPath path)
      = segments toPath ++ (segments path).drop (segments fromPath).length := by
  rcases pathInSubtree_iff.mp h with rfl | ⟨rest, rfl⟩
  · simp [pathMovedTo]
  have hne : fromPath ++ '/' :: rest ≠ fromPath := by
    intro heq
    have hlength := congrArg List.length heq
    simp at hlength
  rw [pathMovedTo, if_neg hne, List.drop_left, segments_append_slash, segments_append_slash,
    List.drop_left]

theorem isProjectPath_pathMovedTo {fromPath toPath path : Text} (hpath : IsProjectPath path)
    (hto : IsProjectPath toPath) (h : pathInSubtree fromPath path = true) :
    IsProjectPath (pathMovedTo fromPath toPath path) := by
  rw [isProjectPath_iff] at hpath hto ⊢
  constructor
  · intro part hpart
    rw [segments_pathMovedTo toPath h] at hpart
    rcases List.mem_append.mp hpart with hnew | hold
    · exact hto.1 part hnew
    · exact hpath.1 part (List.mem_of_mem_drop hold)
  · intro hmem
    unfold pathMovedTo at hmem
    split at hmem
    · exact hto.2 hmem
    · rcases List.mem_append.mp hmem with hnew | hold
      · exact hto.2 hnew
      · exact hpath.2 (List.mem_of_mem_drop hold)

end Toss.Workspace
