import Toss.Foundation.Feed
import Toss.Workspace.CollaborationProjection

/-!
# Statements on the documents of a project

`documents_persistence.rs`, the document statements of `files_persistence.rs`,
and the page query of `documents.rs`. A statement is a function of the rows it
sees, which may be those of a transaction that has written some of them itself,
and of the sequence `documents_change_sequence_seq`; it gives the new versions
of the rows it changes.

* `DocumentWrite.changed` — the rows a writing statement leaves behind;
* `DocumentDelete.removes` — the rows a deleting statement takes away;
* `listDocuments` — one page of `AfterChangeSequence`.
-/

namespace Toss.Workspace

open Toss.Foundation

/-! ## Subtrees -/

/-- `path = $2 or left(path, char_length($2) + 1) = $2 || '/'`. -/
def pathInSubtree (subtree path : Text) : Bool :=
  path = subtree ∨ path.take (subtree.length + 1) = subtree ++ ['/']

/-- `case when path = $2 then $3 else $3 || substring(path from char_length($2) + 1) end`. -/
def pathMovedTo (fromPath toPath path : Text) : Text :=
  if path = fromPath then toPath else toPath ++ path.drop fromPath.length

/-! ## Writes -/

inductive DocumentWrite
  | insert (id : Uuid) (path content : Text)
  /-- Also `files_persistence::upsert_document`, with an identifier of its own. -/
  | upsertByPath (id : Uuid) (path content : Text)
  | updateContent (documentId : Uuid) (expectedPathRevision expectedCollaborationRevision : Int)
      (content : Text)
  | updateProjectedContent (documentId : Uuid) (collaborationRevision : Int) (content : Text)
  | moveSubtree (fromPath toPath : Text)
deriving DecidableEq, Repr

/-- A row as `insert` makes it, with the defaults of the table. -/
def insertedDocument (id projectId : Uuid) (path content : Text) (changeSequence : Int) :
    DocumentRow where
  id := id
  projectId := projectId
  path := path
  pathRevision := 0
  collaborationRevision := 0
  changeSequence := changeSequence
  content := content

/-- The new version of a row whose content is replaced. -/
def DocumentRow.replaced (content : Text) (next : Int) (row : DocumentRow) : DocumentRow :=
  { row with
    content := content
    collaborationRevision := row.collaborationRevision + 1
    changeSequence := next }

/-- The new version of a row whose content is projected from its collaborative state. -/
def DocumentRow.projected (content : Text) (next : Int) (row : DocumentRow) : DocumentRow :=
  { row with content := content, changeSequence := next }

/-- The new version of a row moved with its subtree. -/
def DocumentRow.moved (fromPath toPath : Text) (next : Int) (row : DocumentRow) : DocumentRow :=
  { row with
    path := pathMovedTo fromPath toPath row.path
    pathRevision := row.pathRevision + 1
    changeSequence := next }

/-- `update documents set … , change_sequence = nextval(…)` on the rows given: the
new versions, numbered from `next`, and the next value after them. -/
def numbered (set : Int → DocumentRow → DocumentRow) (next : Int) (rows : List DocumentRow) :
    List DocumentRow × Int :=
  updateDrawing (fun _ => true) set next rows

/-- The value an `insert` draws for the default of `change_sequence`. It is drawn
before the unique index is consulted, so it may be older than `next`. -/
def DocumentWrite.insertsRow : DocumentWrite → Bool
  | .insert .. | .upsertByPath .. => true
  | _ => false

/-- The statement is made under the exclusive content lock of the project. -/
def DocumentWrite.needsExclusive : DocumentWrite → Bool
  | .moveSubtree .. => true
  | _ => false

/-- What the statement changes among the rows it sees, and the next value of the
sequence. `drawn` is the default of `change_sequence` where a row is inserted. -/
def DocumentWrite.changed (statement : DocumentWrite) (projectId : Uuid) (drawn next : Int)
    (rows : List DocumentRow) : List DocumentRow × Int :=
  match statement with
  | .insert id path content => ([insertedDocument id projectId path content drawn], next)
  | .upsertByPath id path content =>
    match rows.filter (fun row => row.projectId = projectId ∧ row.path = path) with
    | [] => ([insertedDocument id projectId path content drawn], next)
    | conflicting => numbered (.replaced content) next conflicting
  | .updateContent documentId expectedPathRevision expectedCollaborationRevision content =>
    numbered (.replaced content) next
      (rows.filter fun row =>
        row.projectId = projectId ∧ row.id = documentId ∧ row.pathRevision = expectedPathRevision
          ∧ row.collaborationRevision = expectedCollaborationRevision)
  | .updateProjectedContent documentId collaborationRevision content =>
    numbered (.projected content) next
      (rows.filter (hasCollaborationIdentity projectId documentId collaborationRevision))
  | .moveSubtree fromPath toPath =>
    numbered (.moved fromPath toPath) next
      (rows.filter fun row => row.projectId = projectId ∧ pathInSubtree fromPath row.path)

/-! ## Deletes -/

inductive DocumentDelete
  | byId (documentId : Uuid)
  | atPath (path : Text)
  | subtree (path : Text)
deriving DecidableEq, Repr

def DocumentDelete.needsExclusive : DocumentDelete → Bool
  | .atPath _ => false
  | _ => true

def DocumentDelete.removes (statement : DocumentDelete) (projectId : Uuid) (row : DocumentRow) :
    Bool :=
  match statement with
  | .byId documentId => row.projectId = projectId ∧ row.id = documentId
  | .atPath path => row.projectId = projectId ∧ row.path = path
  | .subtree path => row.projectId = projectId ∧ pathInSubtree path row.path

/-! ## Pages -/

/-- `DOCUMENT_PAGE_SIZE`. -/
def documentPageSize : Nat := 500

structure DocumentPage where
  documents : List DocumentRow
  cursor : Option Int
  hasMore : Bool
deriving DecidableEq, Repr

def documentsOf (projectId : Uuid) (rows : List DocumentRow) : List DocumentRow :=
  rows.filter fun row => row.projectId = projectId

def listAfterChangeSequence (rows : List DocumentRow) (projectId : Uuid)
    (afterChangeSequence : Option Int) (limit : Nat) : List DocumentRow :=
  page DocumentRow.changeSequence (afterChangeSequence.getD 0) limit (documentsOf projectId rows)

/-- `list_documents` with `AfterChangeSequence`. -/
def listDocuments (rows : List DocumentRow) (projectId : Uuid) (cursor : Option Int) :
    DocumentPage :=
  let records := listAfterChangeSequence rows projectId cursor (documentPageSize + 1)
  let hasMore := decide (documentPageSize < records.length)
  let records := if hasMore then records.take documentPageSize else records
  { documents := records
    cursor := pageCursor DocumentRow.changeSequence records
    hasMore := hasMore }

/-! ## What the statements do -/

theorem listDocuments_documents (rows : List DocumentRow) (projectId : Uuid)
    (cursor : Option Int) :
    (listDocuments rows projectId cursor).documents
      = listAfterChangeSequence rows projectId cursor documentPageSize := by
  simp only [listDocuments, listAfterChangeSequence, page, List.length_take]
  split
  · rw [List.take_take, Nat.min_eq_left (Nat.le_succ _)]
  · next hshort =>
    rw [decide_eq_true_eq] at hshort
    rw [List.take_of_length_le, List.take_of_length_le] <;> omega

theorem listDocuments_cursor (rows : List DocumentRow) (projectId : Uuid)
    (cursor : Option Int) :
    (listDocuments rows projectId cursor).cursor
      = pageCursor DocumentRow.changeSequence
          (listAfterChangeSequence rows projectId cursor documentPageSize) := by
  rw [← listDocuments_documents]
  rfl

theorem listDocuments_hasMore (rows : List DocumentRow) (projectId : Uuid)
    (cursor : Option Int) :
    (listDocuments rows projectId cursor).hasMore = true
      ↔ documentPageSize
        < (rowsAfter DocumentRow.changeSequence (cursor.getD 0) (documentsOf projectId rows)).length
      := by
  simp only [listDocuments, listAfterChangeSequence, page, decide_eq_true_eq, List.length_take]
  omega

theorem mem_documentsOf {projectId : Uuid} {rows : List DocumentRow} {row : DocumentRow} :
    row ∈ documentsOf projectId rows ↔ row ∈ rows ∧ row.projectId = projectId := by
  simp [documentsOf]

/-- The rows an update numbers: each in the drawn range, no number twice. -/
structure FreshlyNumbered (next next' : Int) (rows : List DocumentRow) : Prop where
  range : ∀ row ∈ rows, next ≤ row.changeSequence ∧ row.changeSequence < next'
  distinct : KeyDistinct DocumentRow.changeSequence rows
  le : next ≤ next'

theorem numbered_fresh {set : Int → DocumentRow → DocumentRow}
    (hset : ∀ next row, (set next row).changeSequence = next) (next : Int)
    (rows : List DocumentRow) :
    FreshlyNumbered next (numbered set next rows).2 (numbered set next rows).1 := by
  induction rows generalizing next with
  | nil =>
    refine { range := ?_, distinct := ?_, le := le_rfl }
    · simp [numbered, updateDrawing]
    · simp [numbered, updateDrawing, KeyDistinct]
  | cons row rows ih =>
    have hih := ih (next + 1)
    have heq : numbered set next (row :: rows)
        = (set next row :: (numbered set (next + 1) rows).1,
            (numbered set (next + 1) rows).2) := rfl
    rw [heq]
    refine { range := ?_, distinct := ?_, le := ?_ }
    · intro changed hchanged
      rcases List.mem_cons.mp hchanged with rfl | hrest
      · rw [hset]
        have := hih.le
        omega
      · have := hih.range changed hrest
        omega
    · -- the first row has the smallest number
      intro changed hchanged other hother hnumber
      rcases List.mem_cons.mp hchanged with rfl | hrest
      · rcases List.mem_cons.mp hother with rfl | hrest'
        · rfl
        · have := hih.range other hrest'
          rw [hset] at hnumber
          omega
      · rcases List.mem_cons.mp hother with rfl | hrest'
        · have := hih.range changed hrest
          rw [hset] at hnumber
          omega
        · exact hih.distinct changed hrest other hrest' hnumber
    · have := hih.le
      omega

theorem numbered_projectId (set : Int → DocumentRow → DocumentRow) {projectId : Uuid}
    (hset : ∀ next row, (set next row).projectId = row.projectId) (next : Int)
    {rows : List DocumentRow} (hrows : ∀ row ∈ rows, row.projectId = projectId) :
    ∀ row ∈ (numbered set next rows).1, row.projectId = projectId := by
  intro row hrow
  have hmap : (numbered set next rows).1.map DocumentRow.projectId
      = rows.map DocumentRow.projectId := map_updateDrawing hset next rows
  have hmem : row.projectId ∈ rows.map DocumentRow.projectId := by
    rw [← hmap]
    exact List.mem_map_of_mem hrow
  rcases List.mem_map.mp hmem with ⟨old, hold, heq⟩
  rw [← heq]
  exact hrows old hold

/-- A write leaves rows of the project. -/
theorem DocumentWrite.changed_projectId (statement : DocumentWrite) (projectId : Uuid)
    (drawn next : Int) (rows : List DocumentRow) :
    ∀ row ∈ (statement.changed projectId drawn next rows).1, row.projectId = projectId := by
  cases statement with
  | insert id path content => simp [DocumentWrite.changed, insertedDocument]
  | upsertByPath id path content =>
    simp only [DocumentWrite.changed]
    split
    · simp [insertedDocument]
    refine numbered_projectId (.replaced content) (fun _ _ => rfl) next ?_
    intro row hrow
    simp only [List.mem_filter, decide_eq_true_eq] at hrow
    exact hrow.2.1
  | updateContent documentId pathRevision collaborationRevision content =>
    refine numbered_projectId (.replaced content) (fun _ _ => rfl) next ?_
    intro row hrow
    simp only [List.mem_filter, decide_eq_true_eq] at hrow
    exact hrow.2.1
  | updateProjectedContent documentId collaborationRevision content =>
    refine numbered_projectId (.projected content) (fun _ _ => rfl) next ?_
    intro row hrow
    simp only [List.mem_filter, hasCollaborationIdentity, decide_eq_true_eq] at hrow
    exact hrow.2.1
  | moveSubtree fromPath toPath =>
    refine numbered_projectId (.moved fromPath toPath) (fun _ _ => rfl) next ?_
    intro row hrow
    simp only [List.mem_filter, decide_eq_true_eq] at hrow
    exact hrow.2.1

/-- A write numbers its rows with what it draws; only a row that is inserted has
the number drawn for it earlier. -/
theorem DocumentWrite.changed_numbers (statement : DocumentWrite) (projectId : Uuid)
    (drawn next : Int) (rows : List DocumentRow) :
    FreshlyNumbered next (statement.changed projectId drawn next rows).2
        (statement.changed projectId drawn next rows).1
      ∨ (statement.insertsRow = true
        ∧ (statement.changed projectId drawn next rows).2 = next
        ∧ ∃ row, (statement.changed projectId drawn next rows).1 = [row]
          ∧ row.changeSequence = drawn) := by
  cases statement with
  | insert id path content => exact .inr ⟨rfl, rfl, _, rfl, rfl⟩
  | upsertByPath id path content =>
    simp only [DocumentWrite.changed]
    split
    · exact .inr ⟨rfl, rfl, _, rfl, rfl⟩
    · exact .inl (numbered_fresh (fun _ _ => rfl) next _)
  | updateContent documentId pathRevision collaborationRevision content
  | updateProjectedContent documentId collaborationRevision content =>
    exact .inl (numbered_fresh (fun _ _ => rfl) next _)
  | moveSubtree fromPath toPath => exact .inl (numbered_fresh (fun _ _ => rfl) next _)

end Toss.Workspace
