import Toss.Foundation.Run
import Toss.Workspace.DocumentFeed

/-!
# Completeness of the document change feed

* `ReadIsSettled` — no row that a page can hand out lies above a number in
  flight;
* `readIsSettled_iff` — exactly then what is in flight stays above the cursor the
  page hands out;
* `step_inv` — the invariant over every step, page reads being settled;
* `pages_end`, `pages_complete` — paging ends, and at its end nothing is missing.
-/

namespace Toss.Workspace.Feed

open Toss.Foundation

/-! ## Page reads -/

/-- Every committed row of the project above a number in flight has a full page of
rows before it, so that the page does not come to it. -/
def ReadIsSettled (store : Store) (id : ReaderId) : Prop :=
  ∀ reader ∈ store.readers[id]?, ∀ txn ∈ store.transactions,
    txn.projectId = reader.projectId → ∀ q ∈ txn.numbers,
      ∀ row ∈ documentsOf reader.projectId store.documents,
        q < row.changeSequence → reader.position < row.changeSequence →
          documentPageSize ≤ ((documentsOf reader.projectId store.documents).filter fun other =>
            reader.position < other.changeSequence
              ∧ other.changeSequence < row.changeSequence).length

instance (store : Store) (id : ReaderId) : Decidable (ReadIsSettled store id) :=
  inferInstanceAs (Decidable (∀ reader ∈ store.readers[id]?, _))

/-- Page reads are settled. -/
def IsSettled (store : Store) : Action → Prop
  | .read id => ReadIsSettled store id
  | _ => True

instance (store : Store) : (action : Action) → Decidable (IsSettled store action)
  | .read id => inferInstanceAs (Decidable (ReadIsSettled store id))
  | .begin .. | .draw _ | .write .. | .delete .. | .markDirty _ | .commit _ | .abort _
  | .openReader _ => .isTrue trivial

section Read

variable {store : Store} {id : ReaderId} {reader : Reader}

/-- What a page gives: nothing after the cursor, or rows and a cursor further on. -/
theorem readPage_cases (store : Store) (reader : Reader) :
    (pageCursor DocumentRow.changeSequence (page DocumentRow.changeSequence reader.position
        documentPageSize (documentsOf reader.projectId store.documents)) = none
      ∧ (readPage store reader).position = reader.position)
    ∨ ∃ cursor, pageCursor DocumentRow.changeSequence (page DocumentRow.changeSequence
        reader.position documentPageSize (documentsOf reader.projectId store.documents))
          = some cursor
      ∧ (readPage store reader).position = cursor := by
  have hcursor := listDocuments_cursor store.documents reader.projectId reader.cursor
  cases hpage : pageCursor DocumentRow.changeSequence (page DocumentRow.changeSequence
      reader.position documentPageSize (documentsOf reader.projectId store.documents)) with
  | none =>
    left
    refine ⟨rfl, ?_⟩
    have hnone : (listDocuments store.documents reader.projectId reader.cursor).cursor = none :=
      hcursor.trans hpage
    simp [readPage, Reader.position, hnone]
  | some cursor =>
    right
    refine ⟨cursor, rfl, ?_⟩
    have hsome : (listDocuments store.documents reader.projectId reader.cursor).cursor
        = some cursor := hcursor.trans hpage
    simp [readPage, Reader.position, hsome]

theorem readPage_received (store : Store) (reader : Reader) :
    (readPage store reader).received
      = reader.received ++ page DocumentRow.changeSequence reader.position documentPageSize
          (documentsOf reader.projectId store.documents) := by
  simp only [readPage, listDocuments_documents, listAfterChangeSequence, Reader.position]

theorem documentsOf_distinct (hinv : Inv store) (projectId : Uuid) :
    KeyDistinct DocumentRow.changeSequence (documentsOf projectId store.documents) :=
  fun row hrow other hother heq =>
    hinv.committedDistinct row (mem_documentsOf.mp hrow).1 other (mem_documentsOf.mp hother).1 heq

/-- A page read leaves what is in flight above the reader's position exactly when
it is settled. -/
theorem readIsSettled_iff (hinv : Inv store) (hreader : store.readers[id]? = some reader) :
    ReadIsSettled store id ↔
      ∀ txn ∈ store.transactions, txn.projectId = reader.projectId → ∀ q ∈ txn.numbers,
        (readPage store reader).position < q := by
  have hmem : reader ∈ store.readers := List.mem_of_getElem? hreader
  constructor
  · intro hsettled txn htxn hproject q hq
    rcases readPage_cases store reader with ⟨-, hposition⟩ | ⟨cursor, hcursor, hposition⟩
    · rw [hposition]
      exact hinv.pending reader hmem txn htxn hproject q hq
    rw [hposition]
    rcases pageCursor_mem hcursor with ⟨last, hlast, rfl⟩
    rcases mem_of_mem_page hlast with ⟨hlastRow, hafter⟩
    have hne := hinv.inFlightNew txn htxn q hq last (mem_documentsOf.mp hlastRow).1
    by_contra hnot
    -- the last row of the page would have a full page before it
    have hfull := hsettled reader hreader txn htxn hproject q hq last hlastRow (by omega) hafter
    have hshort := countBelow_lt_of_mem_page hlast
    omega
  · intro habove found hfound txn htxn hproject q hq row hrow hlt hafter
    obtain rfl : found = reader := Option.some.inj (hfound.symm.trans hreader)
    by_contra hnot
    have hin := mem_page_of_countBelow_lt (documentsOf_distinct hinv found.projectId) hrow hafter
      (not_le.mp hnot)
    have hposition := habove txn htxn hproject q hq
    rcases readPage_cases store found with ⟨hnone, -⟩ | ⟨cursor, hcursor, heq⟩
    · simp only [pageCursor, Option.map_eq_none_iff, List.getLast?_eq_none_iff] at hnone
      simp [hnone] at hin
    · have := le_pageCursor hcursor hin
      omega

/-- A page read moves the reader on over rows it is given. -/
theorem readPage_covers (hinv : Inv store) (hmem : reader ∈ store.readers) :
    Covers DocumentRow.changeSequence (readPage store reader).received
      (readPage store reader).position (documentsOf reader.projectId store.documents) := by
  rw [readPage_received]
  rcases readPage_cases store reader with ⟨-, hposition⟩ | ⟨cursor, hcursor, hposition⟩
  · rw [hposition]
    intro row hrow hle
    exact List.mem_append_left _ (hinv.covers reader hmem row hrow hle)
  · rw [hposition]
    exact (hinv.covers reader hmem).page (documentsOf_distinct hinv reader.projectId) hcursor

theorem readPage_position (hinv : Inv store) (hmem : reader ∈ store.readers) :
    reader.position ≤ (readPage store reader).position
      ∧ (readPage store reader).position < store.nextChangeSequence := by
  have hbefore := hinv.positions reader hmem
  rcases readPage_cases store reader with ⟨-, hposition⟩ | ⟨cursor, hcursor, hposition⟩
  · omega
  rcases pageCursor_mem hcursor with ⟨last, hlast, hkey⟩
  have hlt := (hinv.committed last (mem_documentsOf.mp (mem_of_mem_page hlast).1).1).2
  have hafter := lt_pageCursor hcursor
  omega

theorem Inv.read (hinv : Inv store) (hreader : store.readers[id]? = some reader)
    (hsettled : ReadIsSettled store id) :
    Inv { store with readers := store.readers.set id (readPage store reader) } := by
  have hmem : reader ∈ store.readers := List.mem_of_getElem? hreader
  refine hinv.readers ?_ ?_ ?_
  · intro other hother
    rcases List.mem_or_eq_of_mem_set hother with hold | rfl
    · exact hinv.positions other hold
    · have hbefore := hinv.positions reader hmem
      have := readPage_position hinv hmem
      omega
  · intro other hother
    rcases List.mem_or_eq_of_mem_set hother with hold | rfl
    · exact hinv.covers other hold
    · exact readPage_covers hinv hmem
  · intro other hother txn htxn hproject q hq
    rcases List.mem_or_eq_of_mem_set hother with hold | rfl
    · exact hinv.pending other hold txn htxn hproject q hq
    · exact (readIsSettled_iff hinv hreader).mp hsettled txn htxn hproject q hq

end Read

/-! ## Runs -/

abbrev FeedStep (store : Store) (action : Action) (store' : Store) : Prop :=
  step store action = some store'

theorem step_inv {store store' : Store} {action : Action} (hinv : Inv store)
    (hsettled : IsSettled store action) (hstep : step store action = some store') :
    Inv store' := by
  rcases step_cases hstep with ⟨id, txn, -, htxn, hactive, htransaction⟩
    | ⟨projectId, exclusive, rfl, rfl⟩ | ⟨projectId, rfl, rfl⟩ | ⟨id, reader, rfl, hreader, rfl⟩
  · exact transactionStep_inv hinv htxn hactive htransaction
  · exact hinv.begin projectId exclusive
  · exact hinv.openReader projectId
  · exact hinv.read hreader hsettled

theorem run_inv {store : Store} {actions : List Action}
    (hrun : Run (Guarded IsSettled FeedStep) Store.empty actions store) : Inv store :=
  hrun.invariant_of_guard (fun _ _ _ hinv hsettled hstep => step_inv hinv hsettled hstep) init_inv

/-! ## Paging to the end -/

theorem step_read {store : Store} {id : ReaderId} {reader : Reader}
    (hreader : store.readers[id]? = some reader) :
    step store (.read id)
      = some { store with readers := store.readers.set id (readPage store reader) } := by
  simp [step, hreader]

section Paging

variable {store : Store} {id : ReaderId} {reader : Reader}

/-- No transaction of the project is in flight. -/
def Idle (store : Store) (projectId : Uuid) : Prop :=
  ∀ txn ∈ store.transactions, txn.projectId = projectId → txn.active = false

/-- With nothing in flight, every page read is settled. -/
theorem Inv.read_idle (hinv : Inv store) (hreader : store.readers[id]? = some reader)
    (hidle : Idle store reader.projectId) :
    Inv { store with readers := store.readers.set id (readPage store reader) } := by
  refine hinv.read hreader ?_
  rw [readIsSettled_iff hinv hreader]
  intro txn htxn hproject q hq
  simp [Transaction.numbers, hidle txn htxn hproject] at hq

theorem readers_set_self (hreader : store.readers[id]? = some reader) :
    (store.readers.set id (readPage store reader))[id]? = some (readPage store reader) := by
  have hlt : id < store.readers.length := (List.getElem?_eq_some_iff.mp hreader).1
  simp [hlt]

/-- A page without `has_more` is the last: what was left after the cursor fits in it. -/
theorem readPage_complete (hinv : Inv store) (hreader : store.readers[id]? = some reader)
    (hdone : (readPage store reader).hasMore = false) :
    ∀ row ∈ documentsOf reader.projectId store.documents,
      row ∈ (readPage store reader).received := by
  have hshort : (rowsAfter DocumentRow.changeSequence reader.position
      (documentsOf reader.projectId store.documents)).length ≤ documentPageSize := by
    rw [← not_lt]
    intro hlong
    have hmore : (readPage store reader).hasMore = true :=
      (listDocuments_hasMore _ _ _).mpr hlong
    simp [hdone] at hmore
  rw [readPage_received]
  exact (hinv.covers reader (List.mem_of_getElem? hreader)).complete hshort

/-- A page with `has_more` leaves fewer rows after the cursor that it hands out. -/
theorem rowsAfter_readPage_lt (hmore : (readPage store reader).hasMore = true) :
    (rowsAfter DocumentRow.changeSequence (readPage store reader).position
        (documentsOf reader.projectId store.documents)).length
      < (rowsAfter DocumentRow.changeSequence reader.position
        (documentsOf reader.projectId store.documents)).length := by
  have hfull := (listDocuments_hasMore store.documents reader.projectId reader.cursor).mp hmore
  rcases readPage_cases store reader with ⟨hnone, -⟩ | ⟨cursor, hcursor, hposition⟩
  · -- a page without a cursor is empty, but rows are left
    simp only [pageCursor, Option.map_eq_none_iff, List.getLast?_eq_none_iff, page,
      List.take_eq_nil_iff] at hnone
    rcases hnone with hzero | hempty
    · simp [documentPageSize] at hzero
    have hleft : (rowsAfter DocumentRow.changeSequence reader.position
        (documentsOf reader.projectId store.documents)).length = 0 := by rw [hempty]; rfl
    rw [Reader.position] at hleft
    omega
  · rw [hposition]
    exact rowsAfter_length_lt hcursor

/-- With nothing in flight, a reader that keeps paging comes to a page without
`has_more`. -/
theorem pages_end (hinv : Inv store) (hreader : store.readers[id]? = some reader)
    (hidle : Idle store reader.projectId) :
    ∃ k store' reader', exec step store (List.replicate (k + 1) (.read id)) = some store'
      ∧ store'.readers[id]? = some reader' ∧ reader'.hasMore = false
      ∧ store'.documents = store.documents := by
  -- the rows left after the position get fewer with each full page
  induction hleft : (rowsAfter DocumentRow.changeSequence reader.position
      (documentsOf reader.projectId store.documents)).length using Nat.strong_induction_on
      generalizing store reader with
  | _ left ih =>
    have hstep := step_read hreader
    have hreader' := readers_set_self hreader
    by_cases hmore : (readPage store reader).hasMore = true
    · have hfewer := rowsAfter_readPage_lt hmore
      rw [hleft] at hfewer
      rcases ih _ hfewer (hinv.read_idle hreader hidle) hreader' hidle rfl
        with ⟨k, store', reader', hexec, hget, hdone, hdocuments⟩
      refine ⟨k + 1, store', reader', ?_, hget, hdone, hdocuments⟩
      rw [List.replicate_succ, exec, hstep, Option.bind_some]
      exact hexec
    · refine ⟨0, { store with readers := store.readers.set id (readPage store reader) },
        readPage store reader, ?_, hreader', by simpa using hmore, rfl⟩
      rw [List.replicate_succ, exec, hstep, Option.bind_some]
      rfl

/-- With nothing in flight, a reader whose last page has no more has been given every
committed document of its project, after however many pages. -/
theorem pages_complete {k : Nat} {store' : Store} {reader' : Reader} (hinv : Inv store)
    (hreader : store.readers[id]? = some reader) (hidle : Idle store reader.projectId)
    (hexec : exec step store (List.replicate (k + 1) (.read id)) = some store')
    (hreader' : store'.readers[id]? = some reader') (hdone : reader'.hasMore = false) :
    ∀ row ∈ documentsOf reader.projectId store.documents, row ∈ reader'.received := by
  induction k generalizing store reader with
  | zero =>
    rw [List.replicate_succ, exec, step_read hreader, Option.bind_some] at hexec
    obtain rfl : _ = store' := Option.some.inj hexec
    obtain rfl : _ = reader' := Option.some.inj ((readers_set_self hreader).symm.trans hreader')
    exact readPage_complete hinv hreader hdone
  | succ k ih =>
    rw [List.replicate_succ, exec, step_read hreader, Option.bind_some] at hexec
    -- the reader keeps its project, and a read leaves the documents as they are
    have hnext := ih (hinv.read_idle hreader hidle) (readers_set_self hreader) hidle hexec
    exact hnext

end Paging

/-! ## The change feed -/

/-- Two inserts draw their numbers, and the second commits and is read before the
first commits. -/
def overtaken : List Action :=
  [.openReader 0, .begin 0 false, .begin 0 false, .draw 0, .draw 1,
   .write 0 (.insert 10 ['a'] []), .write 1 (.insert 11 ['b'] []), .markDirty 1, .commit 1,
   .read 0, .markDirty 0, .commit 0, .read 0]

/-- The reader at the end: it was given the second document only. -/
def overtakenReader : Reader where
  projectId := 0
  cursor := some 2
  received := [insertedDocument 11 0 ['b'] [] 2]
  hasMore := false

/-- Nothing is in flight, the reader's last page has no more, and it was not given
a committed document; nor will it be by any number of further pages. -/
theorem overtaken_missed :
    ∃ store reader row, exec step Store.empty overtaken = some store
      ∧ store.readers[0]? = some reader
      ∧ (∀ txn ∈ store.transactions, txn.active = false) ∧ reader.hasMore = false
      ∧ row ∈ documentsOf reader.projectId store.documents
      ∧ row.changeSequence ≤ reader.position
      ∧ ∀ k store', exec step store (List.replicate k (.read 0)) = some store' →
        ∀ reader' ∈ store'.readers[0]?, row ∉ reader'.received := by
  rcases hexec : exec step Store.empty overtaken with _ | store
  · exact absurd hexec (by decide +kernel)
  have hstore : store = (exec step Store.empty overtaken).getD Store.empty := by
    rw [hexec]
    rfl
  have hstays : step store (.read 0) = some store := by
    rw [hstore]
    decide +kernel
  have hpages : ∀ k, exec step store (List.replicate k (.read 0)) = some store := by
    intro k
    induction k with
    | zero => rfl
    | succ k ih => rw [List.replicate_succ, exec, hstays, Option.bind_some, ih]
  refine ⟨store, overtakenReader, insertedDocument 10 0 ['a'] [] 1, rfl, ?_, ?_, rfl, ?_,
    by decide, ?_⟩
  · rw [hstore]
    decide +kernel
  · rw [hstore]
    decide +kernel
  · rw [hstore]
    decide +kernel
  · intro k store' hexec' reader' hreader'
    rw [hpages] at hexec'
    cases hexec'
    have hnever : ∀ reader ∈ store.readers[0]?,
        insertedDocument 10 0 ['a'] [] 1 ∉ reader.received := by
      rw [hstore]
      decide +kernel
    exact hnever reader' hreader'

/-- While page reads are settled, whatever a transaction in flight may still commit
lies above every cursor handed out for its project; a further page keeps it so
exactly when it is settled; and with nothing in flight in the project, a reader that
pages on comes to a page without more, and with the first such page, as with any later
one, it has been given every committed document. -/
theorem change_feed_complete {store : Store} {actions : List Action}
    (hrun : Run (Guarded IsSettled FeedStep) Store.empty actions store) :
    (∀ txn ∈ store.transactions, txn.active = true → ∀ row ∈ txn.written,
      ∀ reader ∈ store.readers, reader.projectId = row.projectId →
        ∀ cursor ∈ reader.cursor, cursor < row.changeSequence)
      ∧ (∀ id reader, store.readers[id]? = some reader →
        (ReadIsSettled store id ↔
          ∀ txn ∈ store.transactions, txn.projectId = reader.projectId →
            ∀ q ∈ txn.numbers, (readPage store reader).position < q))
      ∧ ∀ id reader, store.readers[id]? = some reader →
        (∀ txn ∈ store.transactions, txn.projectId = reader.projectId → txn.active = false) →
          (∃ k store' reader', exec step store (List.replicate (k + 1) (.read id)) = some store'
            ∧ store'.readers[id]? = some reader' ∧ reader'.hasMore = false
            ∧ store'.documents = store.documents
            ∧ ∀ row ∈ documentsOf reader.projectId store.documents, row ∈ reader'.received)
          ∧ ∀ k store' reader', exec step store (List.replicate (k + 1) (.read id)) = some store' →
            store'.readers[id]? = some reader' → reader'.hasMore = false →
              ∀ row ∈ documentsOf reader.projectId store.documents, row ∈ reader'.received := by
  have hinv := run_inv hrun
  refine ⟨?_, ?_, ?_⟩
  · intro txn htxn hactive row hrow reader hreader hproject cursor hcursor
    have hsame : txn.projectId = reader.projectId := by
      rw [hproject, hinv.writtenProject txn htxn row hrow]
    have habove := hinv.pending reader hreader txn htxn hsame row.changeSequence
      ((mem_numbers hactive).mpr (.inr ⟨row, hrow, rfl⟩))
    rw [Option.mem_def] at hcursor
    rwa [Reader.position, hcursor, Option.getD_some] at habove
  · intro id reader hreader
    exact readIsSettled_iff hinv hreader
  · intro id reader hreader hidle
    constructor
    · rcases pages_end hinv hreader hidle with ⟨k, store', reader', hexec, hget, hdone, hdocuments⟩
      exact ⟨k, store', reader', hexec, hget, hdone, hdocuments,
        pages_complete hinv hreader hidle hexec hget hdone⟩
    · intro k store' reader' hexec hget hdone
      exact pages_complete hinv hreader hidle hexec hget hdone

/-- A page is read while a transaction with a later number is in flight. -/
def settledReads : List Action :=
  [.openReader 0, .begin 0 false, .begin 0 false, .draw 0, .write 0 (.insert 10 ['a'] []),
   .draw 1, .markDirty 0, .commit 0, .read 0, .write 1 (.insert 11 ['b'] []), .commit 1]

/-- The reader at the end: its page was read before the second document committed. -/
def settledReader : Reader where
  projectId := 0
  cursor := some 1
  received := [insertedDocument 10 0 ['a'] [] 1]
  hasMore := false

theorem settledReads_complete :
    ∃ store, Run (Guarded IsSettled FeedStep) Store.empty settledReads store
      ∧ store.documents.length = 2
      ∧ (∃ k store' reader', exec step store (List.replicate (k + 1) (.read 0)) = some store'
        ∧ store'.readers[0]? = some reader' ∧ reader'.hasMore = false
        ∧ ∀ row ∈ documentsOf 0 store.documents, row ∈ reader'.received)
      ∧ ∃ store' reader', exec step store [.read 0] = some store'
        ∧ store'.readers[0]? = some reader' ∧ reader'.hasMore = false
        ∧ ∀ row ∈ documentsOf 0 store.documents, row ∈ reader'.received := by
  rcases hexec : exec (fun store action => if IsSettled store action then step store action
    else none) Store.empty settledReads with _ | store
  · exact absurd hexec (by decide +kernel)
  have hstore : store = (exec (fun store action => if IsSettled store action
      then step store action else none) Store.empty settledReads).getD Store.empty := by
    rw [hexec]
    rfl
  have hrun : Run (Guarded IsSettled FeedStep) Store.empty settledReads store :=
    exec_guarded_run hexec
  have hreader : store.readers[0]? = some settledReader := by
    rw [hstore]
    decide +kernel
  have hidle : ∀ txn ∈ store.transactions, txn.projectId = 0 → txn.active = false := by
    rw [hstore]
    decide +kernel
  have htwo : store.documents.length = 2 := by
    rw [hstore]
    decide +kernel
  rcases (change_feed_complete hrun).2.2 0 _ hreader hidle
    with ⟨⟨k, store', reader', hpages, hget, hdone, -, hall⟩, hany⟩
  have hread := step_read hreader
  have hone : exec step store [.read 0] = step store (.read 0) := by
    rw [exec, hread]
    rfl
  have hlast : (readPage store settledReader).hasMore = false := by
    rw [hstore]
    decide +kernel
  exact ⟨store, hrun, htwo, ⟨k, store', reader', hpages, hget, hdone, hall⟩,
    _, _, hone.trans hread, readers_set_self hreader, hlast,
    hany 0 _ _ (hone.trans hread) (readers_set_self hreader) hlast⟩

end Toss.Workspace.Feed
