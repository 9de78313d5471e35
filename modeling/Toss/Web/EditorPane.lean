import Toss.Access.AccessTransactions
import Toss.Foundation.Run
import Toss.Web.EditorSync

/-!
# The editor and the shared text

`EditorPane.tsx`, `useRealtimeDoc.ts` and `handleEditorDelta`: the editor holds the lines of a
string, the Y.Text the string itself. What the user does in the editor goes to the shared text
in offsets of the editor; what comes from elsewhere goes to the editor as the smallest change.

* `editorDocument`, `sharedOffset` — what CodeMirror makes of a string, and where a place of it
  stands in the string;
* `EditorSession.step` — what the user, the others and the page do;
* `hasCrLf` — where the two count differently;
* `editor_shows_shared_text` — what holds of every run that keeps clear of it.
-/

namespace Toss.Web

open Toss.Foundation
open Toss.Access (AnonymousMode ProjectPermission ProjectRole)

/-! ## CodeMirror -/

def carriageReturn : UInt16 := 13

def lineFeed : UInt16 := 10

/-- A line break of one unit, as the editor shows it. -/
def toLineFeed (unit : UInt16) : UInt16 := if unit = carriageReturn then lineFeed else unit

/-- A string's lines, split at CR LF, LF and CR and joined with LF. -/
def editorDocument : JsString → JsString
  | unit :: next :: rest =>
    if unit = carriageReturn ∧ next = lineFeed then lineFeed :: editorDocument rest
    else toLineFeed unit :: editorDocument (next :: rest)
  | [unit] => [toLineFeed unit]
  | [] => []

/-- Where a place of the editor stands in the string that it shows. -/
def sharedOffset : JsString → Nat → Nat
  | unit :: next :: rest, offset + 1 =>
    if unit = carriageReturn ∧ next = lineFeed then sharedOffset rest offset + 2
    else sharedOffset (next :: rest) offset + 1
  | [_], _ + 1 => 1
  | _, _ => 0

/-- A CR that stands before an LF. -/
def hasCrLf : JsString → Bool
  | unit :: next :: rest =>
    unit = carriageReturn && next = lineFeed || hasCrLf (next :: rest)
  | _ => false

/-- A dispatched change: the editor takes the lines of what is inserted. -/
def dispatch (editor : JsString) (change : TextChange) : JsString :=
  (change.mapInsert editorDocument).apply editor

/-- The value effect of `EditorPane`. -/
def applyValue (editor value : JsString) : JsString :=
  match minimalTextChange editor value with
  | none => editor
  | some change => dispatch editor change

/-! ## Y.Text -/

/-- `ytext.delete`. -/
def deleteText (text : JsString) (index length : Nat) : JsString :=
  text.take index ++ text.drop (index + length)

/-- `ytext.insert`. -/
def insertText (text : JsString) (index : Nat) (content : JsString) : JsString :=
  text.take index ++ content ++ text.drop index

/-- One round of the loop in `applyDocumentDeltas`. -/
def applyEditorChange (text : JsString) (change : TextChange) : JsString :=
  let stop := max change.start change.stop
  let deleteCount := stop - change.start
  let text := if deleteCount > 0 then deleteText text change.start deleteCount else text
  if change.insert ≠ [] then insertText text change.start change.insert else text

/-! ## The workspace page -/

/-- What `deriveWorkspacePermissions` is given. -/
structure WorkspaceAccess where
  hasShareToken : Bool
  hasAuthUser : Bool
  hasGuestSessionToken : Bool
  sharePermission : Option ProjectPermission
  anonymousMode : Option AnonymousMode
  /-- `my_role` and `is_template`. -/
  project : Option (ProjectRole × Bool)
deriving DecidableEq, Repr

namespace WorkspaceAccess

def isAnonymousShare (access : WorkspaceAccess) : Bool :=
  access.hasShareToken && !access.hasAuthUser

def isTemplate (access : WorkspaceAccess) : Bool := access.project.any (·.2)

def canRequestGuestWrite (access : WorkspaceAccess) : Bool :=
  access.isAnonymousShare && !access.isTemplate && access.sharePermission = some .write
    && access.anonymousMode = some .readWriteNamed && !access.hasGuestSessionToken

def canWrite (access : WorkspaceAccess) : Bool :=
  if access.hasAuthUser then access.project.map (·.1) ≠ some .readOnly
  else !access.isTemplate && access.sharePermission = some .write
    && access.anonymousMode = some .readWriteNamed && access.hasGuestSessionToken

end WorkspaceAccess

structure EditorSession where
  /-- The content of the Y.Text of the active document. -/
  shared : JsString
  /-- What the editor shows. -/
  editor : JsString
  access : WorkspaceAccess
  /-- The realtime document is bound and ready. -/
  ready : Bool
deriving DecidableEq, Repr

inductive EditorAction
  /-- Another document becomes active: another editor, and a Y.Text that is not ready yet. -/
  | activate (text : JsString)
  | sessionReady
  /-- The panel is shown again, with a new editor. -/
  | mount
  | remote (text : JsString)
  /-- A transaction of the user. -/
  | input (changes : List TextChange)
  | accessChanged (access : WorkspaceAccess)
deriving DecidableEq, Repr

namespace EditorSession

/-- `docText`, the `value` of the editor. -/
def value (session : EditorSession) : JsString := if session.ready then session.shared else []

def readOnly (session : EditorSession) : Bool :=
  (!session.access.canWrite && !session.access.canRequestGuestWrite) || !session.ready

/-- `applyDocumentDeltas`: what the shared text is after it. -/
def applyDocumentDeltas (session : EditorSession) (changes : List TextChange) : JsString :=
  if !session.access.canWrite || changes.isEmpty || !session.ready then session.shared
  else (changes.mergeSort descending).foldl applyEditorChange session.shared

/-- `handleEditorDelta`: `none` where it answers `false`. -/
def handleEditorDelta (session : EditorSession) (changes : List TextChange) : Option JsString :=
  if session.access.canRequestGuestWrite && !session.access.hasGuestSessionToken then none
  else some (session.applyDocumentDeltas changes)

/-- The page after a step: the value effect runs where the value is another one. -/
def rendered (before : JsString) (session : EditorSession) : EditorSession :=
  if session.value = before then session
  else { session with editor := applyValue session.editor session.value }

/-- A new editor is made of the value, and brought to the value once it is there. -/
def mounted (session : EditorSession) : EditorSession :=
  { session with editor := applyValue (editorDocument session.value) session.value }

/-- What the change listener passes on. -/
def forwarded (changes : List TextChange) : List TextChange :=
  changes.map (Change.mapInsert editorDocument)

def step (session : EditorSession) : EditorAction → Option EditorSession
  | .activate text => some (mounted { session with shared := text, ready := false })
  | .sessionReady => some (rendered session.value { session with ready := true })
  | .mount => some session.mounted
  | .remote text => some (rendered session.value { session with shared := text })
  | .accessChanged access => some { session with access }
  | .input changes =>
    if session.readOnly then none
    else if Separated session.editor.length changes then
      let edited := applyChanges (forwarded changes) session.editor
      match session.handleEditorDelta (forwarded changes) with
      -- the inverse of the changes is dispatched
      | none => some session
      | some shared => some (rendered session.value { session with shared, editor := edited })
    else none

/-- Nothing is open. -/
def initial (access : WorkspaceAccess) : EditorSession := ⟨[], [], access, false⟩

/-- The editor shows the value. -/
def InStep (session : EditorSession) : Prop := session.editor = editorDocument session.value

/-- The changes where they stand in the shared text. -/
def placed (shared : JsString) (changes : List TextChange) : List TextChange :=
  (forwarded changes).map fun change =>
    ⟨sharedOffset shared change.start, sharedOffset shared change.stop, change.insert⟩

/-- What a transaction of the user comes to: the shared text has the changes where the user
made them, or the editor is what it was. -/
def Followed (session after : EditorSession) (changes : List TextChange) : Prop :=
  after.shared = applyChanges (placed session.shared changes) session.shared
    ∨ (after.shared = session.shared ∧ after.editor = session.editor)

/-- The shared text that comes of a step has no CR before an LF. -/
def LineEndingsKept (session : EditorSession) : EditorAction → Prop
  | .activate text | .remote text => hasCrLf text = false
  | .input changes => hasCrLf (applyChanges (forwarded changes) session.shared) = false
  | _ => True

instance (session : EditorSession) (action : EditorAction) :
    Decidable (session.LineEndingsKept action) := by
  cases action <;> unfold LineEndingsKept <;> infer_instance

end EditorSession

/-! ## Texts without CR LF -/

variable {text : JsString}

theorem hasCrLf_cons {unit : UInt16} (h : hasCrLf (unit :: text) = false) :
    hasCrLf text = false := by
  cases text with
  | nil => rfl
  | cons next rest =>
    simp only [hasCrLf, Bool.or_eq_false_iff] at h
    exact h.2

variable {before : JsString}

/-- A part of a text without CR LF is one too. -/
theorem hasCrLf_inner {after : JsString} (h : hasCrLf (before ++ text ++ after) = false) :
    hasCrLf text = false := by
  induction before with
  | cons unit before ih => exact ih (hasCrLf_cons h)
  | nil =>
    simp only [List.nil_append] at h
    induction text with
    | nil => rfl
    | cons unit text ih =>
      cases text with
      | nil => rfl
      | cons next rest =>
        simp only [List.cons_append, hasCrLf, Bool.or_eq_false_iff] at h ⊢
        exact ⟨h.1, ih h.2⟩

/-- The editor then shows the text unit by unit. -/
theorem editorDocument_eq_map (text : JsString) (h : hasCrLf text = false) :
    editorDocument text = text.map toLineFeed := by
  fun_induction editorDocument text with
  | case1 unit next rest hbreak ih =>
    simp [hasCrLf, hbreak.1, hbreak.2] at h
  | case2 unit next rest hbreak ih =>
    rw [ih (hasCrLf_cons h)]
    rfl
  | case3 unit => rfl
  | case4 => rfl

/-- The places are the same then. -/
theorem sharedOffset_eq (text : JsString) (offset : Nat) (h : hasCrLf text = false)
    (hle : offset ≤ text.length) : sharedOffset text offset = offset := by
  fun_induction sharedOffset text offset with
  | case1 unit next rest offset hbreak ih =>
    simp [hasCrLf, hbreak.1, hbreak.2] at h
  | case2 unit next rest offset hbreak ih =>
    rw [ih (hasCrLf_cons h) (by simpa using hle)]
  | case3 unit offset =>
    simp only [List.length_singleton] at hle
    omega
  | case4 text offset hnotpair hnotsingle =>
    cases offset with
    | zero => rfl
    | succ offset =>
      cases text with
      | nil => simp at hle
      | cons unit rest =>
        cases rest with
        | nil => exact absurd rfl (hnotsingle unit offset rfl)
        | cons next rest => exact absurd rfl (hnotpair unit next rest offset rfl)

theorem toLineFeed_ne (unit : UInt16) : toLineFeed unit ≠ carriageReturn := by
  unfold toLineFeed
  split
  · decide
  · assumption

theorem toLineFeed_of_ne {unit : UInt16} (h : unit ≠ carriageReturn) : toLineFeed unit = unit :=
  if_neg h

theorem map_toLineFeed (h : ∀ unit ∈ text, unit ≠ carriageReturn) : text.map toLineFeed = text := by
  rw [List.map_congr_left fun unit hunit => toLineFeed_of_ne (h unit hunit)]
  exact List.map_id _

/-- No line of the editor has a CR. -/
theorem not_mem_editorDocument (text : JsString) :
    ∀ unit ∈ editorDocument text, unit ≠ carriageReturn := by
  fun_induction editorDocument text with
  | case1 unit next rest hbreak ih =>
    intro other hother
    rcases List.mem_cons.mp hother with rfl | hrest
    · decide
    · exact ih other hrest
  | case2 unit next rest hbreak ih =>
    intro other hother
    rcases List.mem_cons.mp hother with rfl | hrest
    · exact toLineFeed_ne unit
    · exact ih other hrest
  | case3 unit =>
    intro other hother
    rcases List.mem_singleton.mp hother with rfl
    exact toLineFeed_ne unit
  | case4 => exact fun _ hother => absurd hother List.not_mem_nil

/-- The value effect brings an editor to a value without CR LF. -/
theorem applyValue_eq {editor value : JsString} (heditor : ∀ unit ∈ editor, unit ≠ carriageReturn)
    (hvalue : hasCrLf value = false) : applyValue editor value = editorDocument value := by
  rw [editorDocument_eq_map value hvalue]
  unfold applyValue
  split
  · next hnone =>
    rcases minimalTextChange_eq_none.mp hnone with rfl
    exact (map_toLineFeed heditor).symm
  rename_i change hsome
  rcases minimalTextChange_eq_some hsome with
    ⟨before, removed, after, rfl, rfl, hstart, hstop⟩
  -- what both have in common has no CR, for the editor has none
  have hbefore : before.map toLineFeed = before :=
    map_toLineFeed fun unit hunit => heditor unit (by simp [hunit])
  have hafter : after.map toLineFeed = after :=
    map_toLineFeed fun unit hunit => heditor unit (by simp [hunit])
  have happly : dispatch (before ++ removed ++ after) change
      = before ++ editorDocument change.insert ++ after :=
    apply_between (change.mapInsert editorDocument) hstart hstop
  rw [happly, List.map_append, List.map_append, hbefore, hafter,
    editorDocument_eq_map change.insert (hasCrLf_inner hvalue)]

/-! ## Changes of the user -/

/-- A deletion and an insertion are the change. -/
theorem applyEditorChange_eq (text : JsString) (change : TextChange) :
    applyEditorChange text change = change.apply text := by
  have hdelete : (if max change.start change.stop - change.start > 0 then
      deleteText text change.start (max change.start change.stop - change.start) else text)
      = text.take change.start ++ text.drop (max change.start change.stop) := by
    split
    · rw [deleteText, Nat.add_sub_cancel' (Nat.le_max_left _ _)]
    · next hnone =>
      have hmax : max change.start change.stop = change.start := by omega
      rw [hmax, List.take_append_drop]
  unfold applyEditorChange
  simp only [hdelete]
  by_cases hinsert : change.insert = []
  · simp [hinsert, Change.apply]
  rw [if_pos hinsert, insertText, Change.apply]
  by_cases hle : change.start ≤ text.length
  · have hlength : (text.take change.start).length = change.start := by
      rw [List.length_take, Nat.min_eq_left hle]
    rw [List.take_append_of_le_length (by omega), List.drop_append_of_le_length (by omega),
      List.take_of_length_le (by omega), List.drop_of_length_le (by omega), List.nil_append]
  · have hnone : text.drop (max change.start change.stop) = [] :=
      List.drop_of_length_le (by omega)
    rw [hnone, List.append_nil, List.take_of_length_le (by omega : text.length ≤ _),
      List.take_of_length_le (by omega), List.drop_of_length_le (by omega)]

theorem foldl_applyEditorChange (changes : List TextChange) (text : JsString) :
    changes.foldl applyEditorChange text
      = changes.foldl (fun text change => change.apply text) text := by
  congr 1
  funext text change
  exact applyEditorChange_eq text change

theorem map_forwarded_toLineFeed (changes : List TextChange) :
    (EditorSession.forwarded changes).map (Change.mapInsert (List.map toLineFeed))
      = EditorSession.forwarded changes := by
  rw [EditorSession.forwarded, List.map_map]
  apply List.map_congr_left
  intro change _
  show Change.mk _ _ _ = Change.mk _ _ _
  rw [Change.mk.injEq]
  refine ⟨rfl, rfl, ?_⟩
  exact map_toLineFeed (not_mem_editorDocument change.insert)

variable {changes : List TextChange}

theorem separated_forwarded {length : Nat} (h : Separated length changes) :
    Separated length (EditorSession.forwarded changes) := by
  constructor
  · exact List.pairwise_map.mpr h.ascending
  · intro change hchange
    rcases List.mem_map.mp hchange with ⟨other, hother, rfl⟩
    exact h.within other hother

/-- Changes stand in the shared text where they stand in the editor. -/
theorem placed_eq {shared : JsString} (h : hasCrLf shared = false)
    (hchanges : Separated shared.length changes) :
    EditorSession.placed shared changes = EditorSession.forwarded changes := by
  rw [EditorSession.placed]
  conv_rhs => rw [← List.map_id (EditorSession.forwarded changes)]
  apply List.map_congr_left
  intro change hchange
  rcases (separated_forwarded hchanges).within change hchange with ⟨hle, hlength⟩
  rw [sharedOffset_eq shared change.start h (by omega),
    sharedOffset_eq shared change.stop h hlength]
  rfl

/-! ## Every run -/

namespace EditorSession

/-- The editor shows the value, and the shared text has no CR LF. -/
structure Sound (session : EditorSession) : Prop where
  inStep : session.InStep
  noCrLf : hasCrLf session.shared = false

variable {session : EditorSession}

theorem noCrLf_value (h : hasCrLf session.shared = false) :
    hasCrLf session.value = false := by
  unfold value
  split
  · exact h
  · rfl

theorem Sound.not_mem (h : session.Sound) :
    ∀ unit ∈ session.editor, unit ≠ carriageReturn := by
  rw [h.inStep]
  exact not_mem_editorDocument session.value

/-- A new render keeps the editor in step, whether the value effect runs or not. -/
theorem sound_rendered (heditor : ∀ unit ∈ session.editor, unit ≠ carriageReturn)
    (hshared : hasCrLf session.shared = false) (hsame : session.value = before → session.InStep) :
    (rendered before session).Sound := by
  unfold rendered
  split
  · next h => exact ⟨hsame h, hshared⟩
  · exact ⟨applyValue_eq heditor (noCrLf_value hshared), hshared⟩

theorem sound_mounted (hshared : hasCrLf session.shared = false) :
    session.mounted.Sound :=
  ⟨applyValue_eq (not_mem_editorDocument _) (noCrLf_value hshared), hshared⟩

/-- The editor takes the input of a user only where it goes on to the shared text, or where the
user is asked for a name first. -/
theorem handleEditorDelta_eq (hopen : session.readOnly = false)
    (hchanges : Separated session.shared.length changes) :
    session.handleEditorDelta changes = none
      ∨ session.handleEditorDelta changes = some (applyChanges changes session.shared) := by
  unfold handleEditorDelta
  split
  · exact .inl rfl
  rename_i hnotguest
  simp only [readOnly, Bool.or_eq_false_iff, Bool.and_eq_false_iff, Bool.not_eq_false'] at hopen
  rcases hopen with ⟨hwrite | hguest, hready⟩
  · refine .inr (congrArg some ?_)
    unfold applyDocumentDeltas
    cases changes with
    | nil => simp [applyChanges]
    | cons change changes =>
      simp only [hwrite, hready, List.isEmpty_cons, Bool.not_true, Bool.or_self,
        Bool.false_eq_true, if_false]
      rw [foldl_applyEditorChange, applyChanges_sort hchanges]
  · -- whoever is asked for a name has none yet
    refine absurd ?_ hnotguest
    have htoken := hguest
    simp only [WorkspaceAccess.canRequestGuestWrite, Bool.and_eq_true, Bool.not_eq_true']
      at htoken
    rw [hguest, htoken.2]
    rfl

/-- The input of a user: it is in the shared text where he made it, or it is taken back. -/
theorem sound_input {session after : EditorSession} (h : session.Sound)
    (hkept : session.LineEndingsKept (.input changes))
    (hstep : session.step (.input changes) = some after) :
    after.Sound ∧ session.Followed after changes := by
  simp only [step] at hstep
  split at hstep
  · cases hstep
  rename_i hopen
  rw [Bool.not_eq_true] at hopen
  have hready : session.ready = true := by
    simp only [readOnly, Bool.or_eq_false_iff, Bool.not_eq_false'] at hopen
    exact hopen.2
  have hvalue : session.value = session.shared := by rw [value, if_pos hready]
  have heditor : session.editor = session.shared.map toLineFeed := by
    rw [h.inStep, hvalue, editorDocument_eq_map _ h.noCrLf]
  split at hstep
  · next hseparated =>
    rw [heditor, List.length_map] at hseparated
    have hforwarded := separated_forwarded hseparated
    rcases handleEditorDelta_eq hopen hforwarded with hnone | hsome
    · rw [hnone] at hstep
      cases hstep
      exact ⟨h, .inr ⟨rfl, rfl⟩⟩
    rw [hsome] at hstep
    cases hstep
    -- the editor has made the same changes to the lines of the text
    have hedited : applyChanges (forwarded changes) session.editor
        = editorDocument (applyChanges (forwarded changes) session.shared) := by
      rw [editorDocument_eq_map _ hkept, applyChanges_map, map_forwarded_toLineFeed, heditor]
    constructor
    · refine sound_rendered ?_ hkept ?_
      · show ∀ unit ∈ applyChanges (forwarded changes) session.editor, _
        rw [hedited]
        exact not_mem_editorDocument _
      · intro _
        show applyChanges (forwarded changes) session.editor = editorDocument (value _)
        rw [hedited, value, if_pos hready]
    · left
      rw [placed_eq h.noCrLf hseparated]
      unfold rendered
      split <;> rfl
  · cases hstep

theorem sound_step {session after : EditorSession} {action : EditorAction} (h : session.Sound)
    (hkept : session.LineEndingsKept action) (hstep : session.step action = some after) :
    after.Sound := by
  cases action with
  | activate text =>
    cases hstep
    exact sound_mounted hkept
  | sessionReady =>
    cases hstep
    refine sound_rendered h.not_mem h.noCrLf ?_
    intro hsame
    show session.editor = editorDocument (value _)
    rw [hsame]
    exact h.inStep
  | mount =>
    cases hstep
    exact sound_mounted h.noCrLf
  | remote text =>
    cases hstep
    refine sound_rendered h.not_mem hkept ?_
    intro hsame
    show session.editor = editorDocument (value _)
    rw [hsame]
    exact h.inStep
  | accessChanged access =>
    cases hstep
    exact ⟨h.inStep, h.noCrLf⟩
  | input changes => exact (sound_input h hkept hstep).1

theorem sound_initial (access : WorkspaceAccess) : (initial access).Sound := ⟨rfl, rfl⟩

/-- In every run in which no CR comes to stand before an LF in the shared text, the editor shows
the shared text up to its line endings as soon as it is ready, and an input of the user is in the
shared text where he made it, or it is taken back in the editor. -/
theorem editor_shows_shared_text {access : WorkspaceAccess} {actions : List EditorAction}
    {session : EditorSession}
    (hrun : Run (Guarded LineEndingsKept fun s action t => step s action = some t)
      (initial access) actions session) :
    (session.ready = true → session.editor = editorDocument session.shared)
      ∧ ∀ changes after, session.LineEndingsKept (.input changes) →
        session.step (.input changes) = some after → session.Followed after changes := by
  have hsound : session.Sound :=
    hrun.invariant_of_guard (fun _ _ _ h hkept hstep => sound_step h hkept hstep)
      (sound_initial access)
  constructor
  · intro hready
    rw [hsound.inStep, value, if_pos hready]
  · exact fun changes after hkept hstep => (sound_input hsound hkept hstep).2

/-- A writer. -/
def writer : WorkspaceAccess := ⟨false, true, false, none, none, some (.readWrite, false)⟩

/-- In `a`, CR LF, `b` the user adds a `c` at the end: it comes to stand before the `b`. -/
theorem crlf_moves_input :
    ¬∀ (access : WorkspaceAccess) (actions : List EditorAction) (session : EditorSession),
      Run (fun s action t => step s action = some t) (initial access) actions session →
      (session.ready = true → session.editor = editorDocument session.shared)
        ∧ ∀ changes after, session.step (.input changes) = some after →
          session.Followed after changes := by
  intro hall
  have hrun : exec step (initial writer) [.activate [97, 13, 10, 98], .sessionReady]
      = some ⟨[97, 13, 10, 98], [97, 10, 98], writer, true⟩ := by decide +kernel
  have hstep : step ⟨[97, 13, 10, 98], [97, 10, 98], writer, true⟩ (.input [⟨3, 3, [99]⟩])
      = some ⟨[97, 13, 10, 99, 98], [97, 10, 99, 98], writer, true⟩ := by decide +kernel
  rcases (hall _ _ _ (exec_run hrun)).2 _ _ hstep with hplaced | ⟨hsame, -⟩
  · revert hplaced
    decide +kernel
  · revert hsame
    decide +kernel

/-- The same with LF only. -/
theorem lf_keeps_input :
    Followed ⟨[97, 10, 98], [97, 10, 98], writer, true⟩
      ⟨[97, 10, 98, 99], [97, 10, 98, 99], writer, true⟩ [⟨3, 3, [99]⟩] := by
  have hexec : exec (fun s action => if LineEndingsKept s action then step s action else none)
      (initial writer) [.activate [97, 10, 98], .sessionReady]
      = some ⟨[97, 10, 98], [97, 10, 98], writer, true⟩ := by decide +kernel
  exact (editor_shows_shared_text (exec_guarded_run hexec)).2 _ _ (by decide +kernel)
    (by decide +kernel)

end EditorSession

end Toss.Web
