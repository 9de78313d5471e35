import Mathlib.Data.List.Dedup
import Toss.Foundation.Fallible
import Toss.Workspace.ProjectPaths

/-!
# The paths of a browser project

The path functions of `browserWorkspaceStore.ts`. A path that ends in a blank, or begins
with one, is not read back as itself; the others are plain.

* `validPath`, `ancestors`, `within`, `movePath`, `normalizedDirectories`,
  `validatePathNamespace`;
* `IsPlainPath` — the paths that every later operation reads back;
* `mem_normalizedDirectories` — the directories that plain paths make.
-/

namespace Toss.BrowserBackend

open Toss.Foundation Toss.Workspace

inductive BrowserStoreError
  | projectPathInvalid
  | projectNameInvalid
  | projectPathConflict
  | projectNotFound
  | notFound
  | projectContentChanged
  | projectDocumentNotFound
  /-- A `ConstraintError` of a unique index. -/
  | constraint
  /-- `base64ToBytes` of a text that is not Base64. -/
  | invalidBase64
deriving DecidableEq, Repr

/-- What `String.prototype.trim` removes: white space and line terminators. -/
def isTrimmable (c : Char) : Bool :=
  (0x09 ≤ c.val ∧ c.val ≤ 0x0D) ∨ c.val = 0x20 ∨ c.val = 0xA0 ∨ c.val = 0xFEFF ∨ c.val = 0x1680
    ∨ (0x2000 ≤ c.val ∧ c.val ≤ 0x200A) ∨ c.val = 0x2028 ∨ c.val = 0x2029 ∨ c.val = 0x202F
    ∨ c.val = 0x205F ∨ c.val = 0x3000

def trimBlanks (value : Text) : Text :=
  (value.dropWhile isTrimmable).rdropWhile isTrimmable

/-- `/[\u0000-\u001f\u007f]/u`. -/
def isControl (c : Char) : Bool :=
  c.val ≤ 0x1F ∨ c.val = 0x7F

def isValidPart (part : Text) : Bool :=
  !part.isEmpty && part ≠ ['.'] && part ≠ ['.', '.'] && !part.any isControl

def validPath (value : Text) : Except BrowserStoreError Text :=
  let path := ((trimBlanks value).map fun c => if c = '\\' then '/' else c).dropWhile (· = '/')
  let parts := segments path
  if path.isEmpty || !parts.all isValidPart then .error .projectPathInvalid
  else .ok (joinSegments parts)

/-- The directories above a path, the outermost first. -/
def ancestors (path : Text) : List Text :=
  ((segments path).inits.filter fun parts =>
    parts ≠ [] && parts.length < (segments path).length).map joinSegments

def within (path parent : Text) : Bool :=
  path = parent || (parent ++ ['/']).isPrefixOf path

def movePath (path fromPath toPath : Text) : Text :=
  if path = fromPath then toPath else toPath ++ path.drop fromPath.length

/-- The UTF-16 code units of a character. -/
def codeUnits (c : Char) : List Nat :=
  if c.toNat < 0x10000 then [c.toNat]
  else [0xD800 + (c.toNat - 0x10000) / 0x400, 0xDC00 + (c.toNat - 0x10000) % 0x400]

/-- `Array.prototype.sort` on strings. -/
def sortTexts (texts : List Text) : List Text :=
  texts.insertionSort fun left right => left.flatMap codeUnits ≤ right.flatMap codeUnits

def normalizedDirectories (explicit paths : List Text) : Except BrowserStoreError (List Text) := do
  let valid ← explicit.mapM validPath
  return sortTexts
    (valid.flatMap (fun path => path :: ancestors path) ++ paths.flatMap ancestors).dedup

def validatePathNamespace (directories files : List Text) : Except BrowserStoreError Unit :=
  if files.any (fun file => file ∈ directories || (ancestors file).any (· ∈ files))
      || directories.any fun directory => (ancestors directory).any (· ∈ files) then
    .error .projectPathConflict
  else .ok ()

/-! ## Segments -/

theorem within_eq_pathInSubtree (path parent : Text) :
    within path parent = pathInSubtree parent path := by
  rw [Bool.eq_iff_iff, pathInSubtree_iff]
  simp only [within, Bool.or_eq_true, decide_eq_true_eq, List.isPrefixOf_iff_prefix]
  refine or_congr_right ?_
  constructor
  · rintro ⟨rest, hrest⟩
    exact ⟨rest, by rw [← hrest]; simp⟩
  · rintro ⟨rest, rfl⟩
    exact ⟨rest, by simp⟩

/-- A path lies within another if its segments extend those of the other. -/
theorem within_iff {path parent : Text} :
    within path parent = true ↔ segments parent <+: segments path := by
  rw [within_eq_pathInSubtree, pathInSubtree_iff_segments]

theorem segments_movePath {path fromPath : Text} (toPath : Text)
    (h : within path fromPath = true) :
    segments (movePath path fromPath toPath)
      = segments toPath ++ (segments path).drop (segments fromPath).length := by
  rw [within_eq_pathInSubtree] at h
  exact segments_pathMovedTo toPath h

variable {path directory : Text}

theorem mem_ancestors :
    directory ∈ ancestors path ↔
      segments directory <+: segments path ∧ directory ≠ path := by
  simp only [ancestors, List.mem_map, List.mem_filter, List.mem_inits, Bool.and_eq_true,
    decide_eq_true_eq]
  constructor
  · rintro ⟨parts, ⟨hinit, hne, hlength⟩, rfl⟩
    have hparts : segments (joinSegments parts) = parts :=
      segments_joinSegments (fun part hpart => slash_not_mem_segment (hinit.subset hpart)) hne
    rw [hparts]
    refine ⟨hinit, ?_⟩
    rintro rfl
    rw [hparts] at hlength
    omega
  · rintro ⟨hinits, hne⟩
    refine ⟨segments directory, ⟨hinits, segments_ne_nil _, ?_⟩, joinSegments_segments _⟩
    rcases Nat.lt_or_ge (segments directory).length (segments path).length with hlt | hge
    · exact hlt
    · exact absurd (segments_injective (hinits.eq_of_length_le hge)) hne

theorem within_of_mem_ancestors (h : directory ∈ ancestors path) :
    within path directory = true :=
  within_iff.mpr (mem_ancestors.mp h).1

theorem within_trans {path middle parent : Text} (h : within path middle = true)
    (h' : within middle parent = true) : within path parent = true :=
  within_iff.mpr ((within_iff.mp h').trans (within_iff.mp h))

/-- What lies within a path is the path, or lies below it. -/
theorem within_iff_eq_or_mem_ancestors {path parent : Text} :
    within path parent = true ↔ path = parent ∨ parent ∈ ancestors path := by
  rw [within_iff, mem_ancestors]
  constructor
  · intro h
    by_cases heq : parent = path
    · exact .inl heq.symm
    · exact .inr ⟨h, heq⟩
  · rintro (rfl | ⟨h, -⟩)
    · exact List.prefix_rfl
    · exact h

theorem ancestors_trans {path middle directory : Text} (h : directory ∈ ancestors middle)
    (h' : middle ∈ ancestors path) : directory ∈ ancestors path := by
  rw [mem_ancestors] at h h' ⊢
  refine ⟨h.1.trans h'.1, ?_⟩
  rintro rfl
  exact h'.2 (segments_injective (h'.1.eq_of_length_le h.1.length_le))

/-! ## Moved paths -/

theorem movePath_injective {path path' fromPath toPath : Text} (h : within path fromPath = true)
    (h' : within path' fromPath = true)
    (heq : movePath path fromPath toPath = movePath path' fromPath toPath) : path = path' := by
  have hsegments := congrArg segments heq
  rw [segments_movePath toPath h, segments_movePath toPath h', List.append_cancel_left_eq]
    at hsegments
  rcases within_iff.mp h with ⟨rest, hrest⟩
  rcases within_iff.mp h' with ⟨rest', hrest'⟩
  rw [← hrest, ← hrest', List.drop_left, List.drop_left] at hsegments
  apply segments_injective
  rw [← hrest, ← hrest', hsegments]

/-- A directory above a moved path is moved with it, or lies above the new root. -/
theorem mem_ancestors_movePath {path fromPath toPath directory : Text}
    (h : within path fromPath = true) (hmem : directory ∈ ancestors (movePath path fromPath toPath)) :
    directory ∈ ancestors toPath
      ∨ ∃ old, within old fromPath = true ∧ old ∈ ancestors path
        ∧ movePath old fromPath toPath = directory := by
  rw [mem_ancestors, segments_movePath toPath h] at hmem
  rcases hmem with ⟨hinits, hne⟩
  by_cases hshort : segments directory <+: segments toPath ∧ directory ≠ toPath
  · exact .inl (mem_ancestors.mpr hshort)
  right
  rcases within_iff.mp h with ⟨rest, hrest⟩
  rw [← hrest, List.drop_left] at hinits
  -- the directory extends the new root by a part of the rest
  have hlong : segments toPath <+: segments directory := by
    rcases List.prefix_or_prefix_of_prefix hinits (List.prefix_append _ _) with hle | hge
    · rw [not_and_or, not_not] at hshort
      rcases hshort with hnot | heq
      · exact absurd hle hnot
      · rw [heq]
    · exact hge
  rcases hlong with ⟨part, hpart⟩
  rw [← hpart, List.prefix_append_right_inj] at hinits
  have hold : segments (joinSegments (segments fromPath ++ part)) = segments fromPath ++ part := by
    apply segments_joinSegments
    · intro other hother
      refine @slash_not_mem_segment path other ?_
      rw [← hrest]
      exact ((List.prefix_append_right_inj _).mpr hinits).subset hother
    · simp [segments_ne_nil]
  have hwithin : within (joinSegments (segments fromPath ++ part)) fromPath = true := by
    rw [within_iff, hold]
    exact List.prefix_append _ _
  have hmoved : movePath (joinSegments (segments fromPath ++ part)) fromPath toPath = directory := by
    apply segments_injective
    rw [segments_movePath toPath hwithin, hold, List.drop_left, hpart]
  refine ⟨joinSegments (segments fromPath ++ part), hwithin, ?_, hmoved⟩
  rw [mem_ancestors, hold, ← hrest]
  refine ⟨(List.prefix_append_right_inj _).mpr hinits, ?_⟩
  intro heq
  rw [heq] at hmoved
  exact hne hmoved.symm

/-! ## Plain paths -/

structure IsPlainPart (part : Text) : Prop where
  valid : isValidPart part = true
  no_backslash : '\\' ∉ part
  no_blank_end : ∀ c ∈ part.getLast?, isTrimmable c = false

/-- No segment ends in a blank, and the path begins with none. -/
structure IsPlainPath (path : Text) : Prop where
  parts : ∀ part ∈ segments path, IsPlainPart part
  no_blank_start : ∀ c ∈ path.head?, isTrimmable c = false

theorem IsPlainPart.ne_nil {part : Text} (h : IsPlainPart part) : part ≠ [] := by
  rintro rfl
  have hvalid := h.valid
  simp [isValidPart] at hvalid

/-- A path ends as one of its segments does. -/
theorem getLast?_joinSegments {parts : List Text} (hne : ∀ part ∈ parts, part ≠ []) {c : Char}
    (h : c ∈ (joinSegments parts).getLast?) : ∃ part ∈ parts, c ∈ part.getLast? := by
  induction parts with
  | nil => simp [joinSegments] at h
  | cons part rest ih =>
    cases rest with
    | nil =>
      rw [joinSegments_singleton] at h
      exact ⟨part, List.mem_cons_self, h⟩
    | cons next rest =>
      have hnext := hne next (List.mem_cons_of_mem _ List.mem_cons_self)
      have hnonempty : joinSegments (next :: rest) ≠ [] := by
        intro hnil
        cases rest with
        | nil => exact hnext (by rwa [joinSegments_singleton] at hnil)
        | cons other rest =>
          rw [joinSegments_cons_cons] at hnil
          simp at hnil
      rw [joinSegments_cons_cons, List.getLast?_append_of_ne_nil _ (by simp),
        List.getLast?_cons_of_ne_nil hnonempty] at h
      rcases ih (fun other hother => hne other (List.mem_cons_of_mem _ hother)) h with
        ⟨other, hother, hc⟩
      exact ⟨other, List.mem_cons_of_mem _ hother, hc⟩

/-- A plain path is read back as itself. -/
theorem validPath_of_plain {path : Text} (h : IsPlainPath path) : validPath path = .ok path := by
  have hne : ∀ part ∈ segments path, part ≠ [] := fun part hpart => (h.parts part hpart).ne_nil
  -- nothing is trimmed, as no part starts or ends with a blank
  have htrim : trimBlanks path = path := by
    have hleft : path.dropWhile isTrimmable = path := by
      rw [List.dropWhile_eq_self_iff]
      intro hlength
      have hhead : path.head? = some path[0] := by
        rw [List.head?_eq_getElem?, List.getElem?_eq_getElem hlength]
      simp [h.no_blank_start _ hhead]
    unfold trimBlanks
    rw [hleft, List.rdropWhile_eq_self_iff]
    intro hpath
    have hlast : path.getLast hpath ∈ (joinSegments (segments path)).getLast? := by
      rw [joinSegments_segments]
      exact List.getLast?_eq_getLast_of_ne_nil hpath
    rcases getLast?_joinSegments hne hlast with ⟨part, hpart, hc⟩
    simpa using (h.parts part hpart).no_blank_end _ hc
  -- no separator is replaced
  have hslashes : (path.map fun c => if c = '\\' then '/' else c) = path := by
    refine (List.map_congr_left ?_).trans (List.map_id path)
    intro c hc
    rw [← joinSegments_segments path] at hc
    rcases mem_joinSegments hc with rfl | ⟨part, hpart, hmem⟩
    · rfl
    rw [if_neg]
    · rfl
    · rintro rfl
      exact (h.parts part hpart).no_backslash hmem
  -- no leading separator is dropped
  have hstart : path.dropWhile (· = '/') = path := by
    rw [List.dropWhile_eq_self_iff]
    intro hlength
    rcases path with _ | ⟨c, rest⟩
    · simp at hlength
    rw [List.getElem_cons_zero, decide_eq_true_eq]
    rintro rfl
    have hempty : ([] : Text) ∈ segments ('/' :: rest) := by
      have hsplit := segments_append_slash [] rest
      rw [List.nil_append] at hsplit
      rw [hsplit]
      simp [segments]
    exact hne [] hempty rfl
  have hpath : path ≠ [] := by
    rintro rfl
    exact hne [] (by simp [segments]) rfl
  have hvalid : (segments path).all isValidPart = true := by
    rw [List.all_eq_true]
    exact fun part hpart => (h.parts part hpart).valid
  unfold validPath
  simp [htrim, hslashes, hstart, hpath, hvalid]

theorem plain_of_segments_prefix (h : IsPlainPath path)
    (hinits : segments directory <+: segments path) : IsPlainPath directory := by
  constructor
  · exact fun part hpart => h.parts part (hinits.subset hpart)
  · intro c hc
    rcases within_iff_eq_or_mem_ancestors.mp (within_iff.mpr hinits) with rfl | hmem
    · exact h.no_blank_start c hc
    rcases pathInSubtree_iff.mp ((within_eq_pathInSubtree path directory).symm.trans
      (within_of_mem_ancestors hmem)) with rfl | ⟨rest, rfl⟩
    · exact h.no_blank_start c hc
    apply h.no_blank_start
    rw [List.head?_append_of_ne_nil]
    · exact hc
    · rintro rfl
      simp at hc

theorem plain_of_mem_ancestors (h : IsPlainPath path)
    (hmem : directory ∈ ancestors path) : IsPlainPath directory :=
  plain_of_segments_prefix h (mem_ancestors.mp hmem).1

theorem plain_movePath {path fromPath toPath : Text} (hpath : IsPlainPath path)
    (hto : IsPlainPath toPath) (h : within path fromPath = true) :
    IsPlainPath (movePath path fromPath toPath) := by
  constructor
  · intro part hpart
    rw [segments_movePath toPath h] at hpart
    rcases List.mem_append.mp hpart with hnew | hold
    · exact hto.parts part hnew
    · exact hpath.parts part (List.mem_of_mem_drop hold)
  · intro c hc
    apply hto.no_blank_start
    unfold movePath at hc
    split at hc
    · exact hc
    · rwa [List.head?_append_of_ne_nil] at hc
      rintro rfl
      exact (hto.parts [] (by simp [segments])).ne_nil rfl

/-! ## Directories -/

theorem mem_sortTexts {texts : List Text} {text : Text} : text ∈ sortTexts texts ↔ text ∈ texts :=
  List.mem_insertionSort _

theorem nodup_sortTexts {texts : List Text} (h : texts.Nodup) : (sortTexts texts).Nodup :=
  (List.perm_insertionSort _ _).nodup_iff.mpr h

/-- Plain directories are kept, with the directories above them and above the paths. -/
theorem normalizedDirectories_of_plain {explicit : List Text} (paths : List Text)
    (h : ∀ path ∈ explicit, IsPlainPath path) :
    ∃ directories, normalizedDirectories explicit paths = .ok directories ∧ directories.Nodup
      ∧ ∀ path, path ∈ directories ↔ path ∈ explicit ∨ (∃ other ∈ explicit, path ∈ ancestors other)
        ∨ ∃ other ∈ paths, path ∈ ancestors other := by
  have hvalid : explicit.mapM validPath = .ok explicit := by
    rw [mapM_eq_ok, List.forall₂_same]
    exact fun path hpath => validPath_of_plain (h path hpath)
  refine ⟨_, by unfold normalizedDirectories; rw [hvalid]; rfl, ?_, ?_⟩
  · exact nodup_sortTexts (List.nodup_dedup _)
  · intro path
    simp only [mem_sortTexts, List.mem_dedup, List.mem_append, List.mem_flatMap, List.mem_cons]
    constructor
    · rintro (⟨other, hother, rfl | hmem⟩ | hmem)
      · exact .inl hother
      · exact .inr (.inl ⟨other, hother, hmem⟩)
      · exact .inr (.inr hmem)
    · rintro (hpath | ⟨other, hother, hmem⟩ | hmem)
      · exact .inl ⟨path, hpath, .inl rfl⟩
      · exact .inl ⟨other, hother, .inr hmem⟩
      · exact .inr hmem

theorem validatePathNamespace_ok {directories files : List Text} :
    validatePathNamespace directories files = .ok ()
      ↔ (∀ file ∈ files, file ∉ directories ∧ ∀ parent ∈ ancestors file, parent ∉ files)
        ∧ ∀ directory ∈ directories, ∀ parent ∈ ancestors directory, parent ∉ files := by
  unfold validatePathNamespace
  split
  · next hconflict =>
    simp only [reduceCtorEq, false_iff, not_and_or]
    simp only [Bool.or_eq_true, List.any_eq_true, decide_eq_true_eq] at hconflict
    rcases hconflict with ⟨file, hfile, hdirectory | ⟨parent, hparent, hmem⟩⟩ | ⟨directory,
      hdirectory, parent, hparent, hmem⟩
    · left
      intro hall
      exact (hall file hfile).1 hdirectory
    · left
      intro hall
      exact (hall file hfile).2 parent hparent hmem
    · right
      intro hall
      exact hall directory hdirectory parent hparent hmem
  · next hclear =>
    simp only [Bool.or_eq_true, List.any_eq_true, decide_eq_true_eq, not_or, not_exists,
      not_and] at hclear
    simp only [true_iff]
    exact ⟨fun file hfile => hclear.1 file hfile, hclear.2⟩

end Toss.BrowserBackend
