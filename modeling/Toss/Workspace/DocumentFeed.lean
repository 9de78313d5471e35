import Toss.Workspace.DocumentTransactions

/-!
# The invariant of the document change feed

A reader misses a change when a page hands out a cursor above a number that a
transaction in flight has drawn and then commits. While no page does, every
reader covers its cursor: it holds the committed version of every document at or
below it.

* `Inv` — numbers are distinct, drawn below the sequence, and what is in flight
  lies above every cursor handed out;
* `Renumbers` — what a statement does to the numbers of its transaction;
* `TransactionStep`, `step_cases` — all that a step can do;
* `transactionStep_inv` — transactions keep the invariant whatever they do;
* `Advances` — what comes into flight, and what becomes visible, by one step.
-/

namespace Toss.Workspace.Feed

open Toss.Foundation

/-- The cursor as `list_after_change_sequence` takes it. -/
def Reader.position (reader : Reader) : Int :=
  reader.cursor.getD 0

/-! ## The invariant -/

structure Inv (store : Store) : Prop where
  first : 0 < store.nextChangeSequence
  committed : ∀ row ∈ store.documents,
    0 < row.changeSequence ∧ row.changeSequence < store.nextChangeSequence
  inFlight : ∀ txn ∈ store.transactions, ∀ q ∈ txn.numbers,
    0 < q ∧ q < store.nextChangeSequence
  committedDistinct : KeyDistinct DocumentRow.changeSequence store.documents
  inFlightNew : ∀ txn ∈ store.transactions, ∀ q ∈ txn.numbers,
    ∀ row ∈ store.documents, row.changeSequence ≠ q
  inFlightDistinct : ∀ (i j : TransactionId) (txn other : Transaction), store.transactions[i]? = some txn →
    store.transactions[j]? = some other → i ≠ j → ∀ q ∈ txn.numbers, q ∉ other.numbers
  writtenDistinct : ∀ txn ∈ store.transactions,
    KeyDistinct DocumentRow.changeSequence txn.written
  drawnDistinct : ∀ txn ∈ store.transactions, ∀ q ∈ txn.drawn, ∀ row ∈ txn.written,
    row.changeSequence ≠ q
  writtenProject : ∀ txn ∈ store.transactions, ∀ row ∈ txn.written,
    row.projectId = txn.projectId
  positions : ∀ reader ∈ store.readers,
    0 ≤ reader.position ∧ reader.position < store.nextChangeSequence
  covers : ∀ reader ∈ store.readers,
    Covers DocumentRow.changeSequence reader.received reader.position
      (documentsOf reader.projectId store.documents)
  /-- What is in flight will commit above every cursor handed out. -/
  pending : ∀ reader ∈ store.readers, ∀ txn ∈ store.transactions,
    txn.projectId = reader.projectId → ∀ q ∈ txn.numbers, reader.position < q

def Store.empty : Store where
  documents := []
  nextChangeSequence := 1
  transactions := []
  readers := []

theorem init_inv : Inv Store.empty := by
  constructor <;> simp [Store.empty, KeyDistinct]

/-! ## Steps of a transaction -/

/-- A transaction that goes on: what it may commit it could commit before, or has
just drawn. -/
structure Renumbers (next next' : Int) (txn txn' : Transaction) : Prop where
  projectId : txn'.projectId = txn.projectId
  le : next ≤ next'
  numbers : ∀ q ∈ txn'.numbers, q ∈ txn.numbers ∨ (next ≤ q ∧ q < next')
  writtenDistinct : KeyDistinct DocumentRow.changeSequence txn'.written
  drawnDistinct : ∀ q ∈ txn'.drawn, ∀ row ∈ txn'.written, row.changeSequence ≠ q
  writtenProject : ∀ row ∈ txn'.written, row.projectId = txn'.projectId

namespace Inv

variable {store : Store} {id : TransactionId} {txn txn' : Transaction} {next' : Int}

/-- A transaction of a store with one replaced is that one or an old one. -/
theorem mem_setTransaction {other : Transaction}
    (h : other ∈ (store.setTransaction id txn').transactions) :
    other ∈ store.transactions ∨ other = txn' :=
  List.mem_or_eq_of_mem_set h

theorem getElem?_setTransaction {i : TransactionId} {other : Transaction}
    (h : (store.setTransaction id txn').transactions[i]? = some other) :
    (i = id ∧ other = txn') ∨ (i ≠ id ∧ store.transactions[i]? = some other) := by
  simp only [Store.setTransaction, List.getElem?_set] at h
  by_cases hid : id = i
  · left
    simp only [hid, if_true] at h
    split at h
    · exact ⟨hid.symm, (Option.some.inj h).symm⟩
    · simp at h
  · right
    simp only [hid, if_false] at h
    exact ⟨fun heq => hid heq.symm, h⟩

/-- Numbers that a replaced transaction kept or drew are in no other one. -/
theorem inFlightDistinct_replace (hinv : Inv store) (htxn : store.transactions[id]? = some txn)
    (hnumbers : Renumbers store.nextChangeSequence next' txn txn') {i : TransactionId}
    {other : Transaction} (hne : i ≠ id) (hother : store.transactions[i]? = some other) {q : Int}
    (hq : q ∈ txn'.numbers) : q ∉ other.numbers := by
  intro hqOther
  rcases hnumbers.numbers q hq with hbefore | hdrawn
  · exact hinv.inFlightDistinct id i txn other htxn hother hne.symm q hbefore hqOther
  · have := hinv.inFlight other (List.mem_of_getElem? hother) q hqOther
    omega

theorem replace (hinv : Inv store) (htxn : store.transactions[id]? = some txn)
    (hnumbers : Renumbers store.nextChangeSequence next' txn txn') :
    Inv { store.setTransaction id txn' with nextChangeSequence := next' } := by
  -- what the transaction has drawn before, or draws now: the latter is above all numbers
  have hmem : txn ∈ store.transactions := List.mem_of_getElem? htxn
  have hle := hnumbers.le
  have hfirst := hinv.first
  refine
    { first := ?_, committed := ?_, inFlight := ?_, committedDistinct := hinv.committedDistinct,
      inFlightNew := ?_, inFlightDistinct := ?_, writtenDistinct := ?_, drawnDistinct := ?_,
      writtenProject := ?_, positions := ?_, covers := hinv.covers, pending := ?_ }
  · show 0 < next'
    omega
  · intro row hrow
    have := hinv.committed row hrow
    show 0 < row.changeSequence ∧ row.changeSequence < next'
    omega
  · intro other hother q hq
    show 0 < q ∧ q < next'
    rcases mem_setTransaction hother with hold | rfl
    · have := hinv.inFlight other hold q hq
      omega
    rcases hnumbers.numbers q hq with hbefore | hdrawn
    · have := hinv.inFlight txn hmem q hbefore
      omega
    · omega
  · intro other hother q hq row hrow
    rcases mem_setTransaction hother with hold | rfl
    · exact hinv.inFlightNew other hold q hq row hrow
    rcases hnumbers.numbers q hq with hbefore | hdrawn
    · exact hinv.inFlightNew txn hmem q hbefore row hrow
    · have := hinv.committed row hrow
      omega
  · intro i j fst snd hfst hsnd hne q hq
    rcases getElem?_setTransaction hfst with ⟨rfl, rfl⟩ | ⟨hi, hfstOld⟩
    · rcases getElem?_setTransaction hsnd with ⟨rfl, -⟩ | ⟨hj, hsndOld⟩
      · exact absurd rfl hne
      · exact hinv.inFlightDistinct_replace htxn hnumbers hj hsndOld hq
    rcases getElem?_setTransaction hsnd with ⟨rfl, rfl⟩ | ⟨-, hsndOld⟩
    · intro hq'
      exact hinv.inFlightDistinct_replace htxn hnumbers hi hfstOld hq' hq
    · exact hinv.inFlightDistinct i j fst snd hfstOld hsndOld hne q hq
  · intro other hother
    rcases mem_setTransaction hother with hold | rfl
    · exact hinv.writtenDistinct other hold
    · exact hnumbers.writtenDistinct
  · intro other hother
    rcases mem_setTransaction hother with hold | rfl
    · exact hinv.drawnDistinct other hold
    · exact hnumbers.drawnDistinct
  · intro other hother
    rcases mem_setTransaction hother with hold | rfl
    · exact hinv.writtenProject other hold
    · exact hnumbers.writtenProject
  · intro reader hreader
    have := hinv.positions reader hreader
    show 0 ≤ reader.position ∧ reader.position < next'
    omega
  · intro reader hreader other hother hproject q hq
    rcases mem_setTransaction hother with hold | rfl
    · exact hinv.pending reader hreader other hold hproject q hq
    rcases hnumbers.numbers q hq with hbefore | hdrawn
    · exact hinv.pending reader hreader txn hmem (hnumbers.projectId ▸ hproject) q hbefore
    · have := hinv.positions reader hreader
      omega

/-- Commit shows what was written, all of it above every cursor. -/
theorem commit (hinv : Inv store) (htxn : store.transactions[id]? = some txn)
    (hactive : txn.active = true) :
    Inv { store.setTransaction id txn.finish with documents := txn.view store.documents } := by
  have hmem : txn ∈ store.transactions := List.mem_of_getElem? htxn
  have hwritten : ∀ row ∈ txn.written, row.changeSequence ∈ txn.numbers := by
    intro row hrow
    simp only [Transaction.numbers, hactive, if_true]
    exact List.mem_append_right _ (List.mem_map_of_mem hrow)
  have hview : ∀ row ∈ txn.view store.documents, row ∈ store.documents ∨ row ∈ txn.written := by
    intro row hrow
    rcases List.mem_append.mp hrow with hold | hnew
    · exact .inl (List.mem_of_mem_filter hold)
    · exact .inr hnew
  have hfinished : txn.finish.numbers = [] := by simp [Transaction.finish, Transaction.numbers]
  -- the transaction is over, and the others keep their numbers
  have hold : ∀ other ∈ (store.setTransaction id txn.finish).transactions, ∀ q ∈ other.numbers,
      other ∈ store.transactions := by
    intro other hother q hq
    rcases mem_setTransaction hother with hold | rfl
    · exact hold
    · simp [hfinished] at hq
  refine
    { first := hinv.first, committed := ?_, inFlight := ?_, committedDistinct := ?_,
      inFlightNew := ?_, inFlightDistinct := ?_, writtenDistinct := ?_, drawnDistinct := ?_,
      writtenProject := ?_, positions := hinv.positions, covers := ?_, pending := ?_ }
  · intro row hrow
    rcases hview row hrow with hbefore | hnew
    · exact hinv.committed row hbefore
    · exact hinv.inFlight txn hmem _ (hwritten row hnew)
  · intro other hother q hq
    exact hinv.inFlight other (hold other hother q hq) q hq
  · intro row hrow other hother heq
    rcases hview row hrow with hrowOld | hrowNew
    · rcases hview other hother with hotherOld | hotherNew
      · exact hinv.committedDistinct row hrowOld other hotherOld heq
      · exact absurd heq (hinv.inFlightNew txn hmem _ (hwritten other hotherNew) row hrowOld)
    · rcases hview other hother with hotherOld | hotherNew
      · exact absurd heq.symm (hinv.inFlightNew txn hmem _ (hwritten row hrowNew) other hotherOld)
      · exact hinv.writtenDistinct txn hmem row hrowNew other hotherNew heq
  · intro other hother q hq row hrow
    rcases List.mem_iff_getElem?.mp hother with ⟨i, hi⟩
    rcases getElem?_setTransaction hi with ⟨rfl, rfl⟩ | ⟨hne, hi⟩
    · simp [hfinished] at hq
    rcases hview row hrow with hbefore | hnew
    · exact hinv.inFlightNew other (List.mem_of_getElem? hi) q hq row hbefore
    · intro heq
      rw [← heq] at hq
      exact hinv.inFlightDistinct id i txn other htxn hi hne.symm _ (hwritten row hnew) hq
  · intro i j fst snd hfst hsnd hne q hq
    rcases getElem?_setTransaction hfst with ⟨-, rfl⟩ | ⟨-, hfstOld⟩
    · simp [hfinished] at hq
    · rcases getElem?_setTransaction hsnd with ⟨-, rfl⟩ | ⟨-, hsndOld⟩
      · simp [hfinished]
      · exact hinv.inFlightDistinct i j fst snd hfstOld hsndOld hne q hq
  · intro other hother
    rcases mem_setTransaction hother with hbefore | rfl
    · exact hinv.writtenDistinct other hbefore
    · exact hinv.writtenDistinct txn hmem
  · intro other hother
    rcases mem_setTransaction hother with hbefore | rfl
    · exact hinv.drawnDistinct other hbefore
    · exact hinv.drawnDistinct txn hmem
  · intro other hother
    rcases mem_setTransaction hother with hbefore | rfl
    · exact hinv.writtenProject other hbefore
    · exact hinv.writtenProject txn hmem
  · intro reader hreader
    refine (hinv.covers reader hreader).change ?_
    intro row hrow
    rcases mem_documentsOf.mp hrow with ⟨hrow, hproject⟩
    rcases hview row hrow with hbefore | hnew
    · exact .inl (mem_documentsOf.mpr ⟨hbefore, hproject⟩)
    right
    have hsame : txn.projectId = reader.projectId := by
      rw [← hinv.writtenProject txn hmem row hnew, hproject]
    exact hinv.pending reader hreader txn hmem hsame _ (hwritten row hnew)
  · intro reader hreader other hother hproject q hq
    exact hinv.pending reader hreader other (hold other hother q hq) hproject q hq

/-- A new transaction has drawn nothing. -/
theorem begin (hinv : Inv store) (projectId : Uuid) (exclusive : Bool) :
    Inv
      { store with
        transactions := store.transactions ++
          [{ projectId, exclusive, drawn := none, written := [], deleted := [], dirty := false,
             active := true }] } := by
  -- the new transaction has drawn and written nothing
  have hcases : ∀ other ∈ store.transactions ++
      [({ projectId, exclusive, drawn := none, written := [], deleted := [], dirty := false,
          active := true } : Transaction)],
      other ∈ store.transactions ∨ (other.numbers = [] ∧ other.written = []) := by
    intro other hother
    rcases List.mem_append.mp hother with hold | hnew
    · exact .inl hold
    · right
      rw [List.mem_singleton.mp hnew]
      simp [Transaction.numbers]
  refine
    { first := hinv.first, committed := hinv.committed, inFlight := ?_,
      committedDistinct := hinv.committedDistinct, inFlightNew := ?_, inFlightDistinct := ?_,
      writtenDistinct := ?_, drawnDistinct := ?_, writtenProject := ?_,
      positions := hinv.positions, covers := hinv.covers, pending := ?_ }
  · intro other hother q hq
    rcases hcases other hother with hold | ⟨hnone, -⟩
    · exact hinv.inFlight other hold q hq
    · simp [hnone] at hq
  · intro other hother q hq
    rcases hcases other hother with hold | ⟨hnone, -⟩
    · exact hinv.inFlightNew other hold q hq
    · simp [hnone] at hq
  · intro i j fst snd hfst hsnd hne q hq
    rw [List.getElem?_append] at hfst hsnd
    split at hfst
    · split at hsnd
      · exact hinv.inFlightDistinct i j fst snd hfst hsnd hne q hq
      · have hmem := List.mem_of_getElem? hsnd
        rw [List.mem_singleton.mp hmem]
        simp [Transaction.numbers]
    · have hmem := List.mem_of_getElem? hfst
      rw [List.mem_singleton.mp hmem] at hq
      simp [Transaction.numbers] at hq
  · intro other hother
    rcases hcases other hother with hold | ⟨-, hnone⟩
    · exact hinv.writtenDistinct other hold
    · simp [hnone, KeyDistinct]
  · intro other hother
    rcases hcases other hother with hold | ⟨-, hnone⟩
    · exact hinv.drawnDistinct other hold
    · simp [hnone]
  · intro other hother
    rcases hcases other hother with hold | ⟨-, hnone⟩
    · exact hinv.writtenProject other hold
    · simp [hnone]
  · intro reader hreader other hother hproject q hq
    rcases hcases other hother with hold | ⟨hnone, -⟩
    · exact hinv.pending reader hreader other hold hproject q hq
    · simp [hnone] at hq

/-- A change of the readers that keeps every position right and covered. -/
theorem readers (hinv : Inv store) {readers : List Reader}
    (hpositions : ∀ reader ∈ readers,
      0 ≤ reader.position ∧ reader.position < store.nextChangeSequence)
    (hcovers : ∀ reader ∈ readers, Covers DocumentRow.changeSequence reader.received
      reader.position (documentsOf reader.projectId store.documents))
    (hpending : ∀ reader ∈ readers, ∀ txn ∈ store.transactions,
      txn.projectId = reader.projectId → ∀ q ∈ txn.numbers, reader.position < q) :
    Inv { store with readers := readers } :=
  { hinv with positions := hpositions, covers := hcovers, pending := hpending }

theorem openReader (hinv : Inv store) (projectId : Uuid) :
    Inv
      { store with
        readers := store.readers ++
          [{ projectId, cursor := none, received := [], hasMore := true }] } := by
  have hcases : ∀ reader ∈ store.readers ++
      [({ projectId, cursor := none, received := [], hasMore := true } : Reader)],
      reader ∈ store.readers ∨ reader.position = 0 := by
    intro reader hreader
    rcases List.mem_append.mp hreader with hold | hnew
    · exact .inl hold
    · right
      rw [List.mem_singleton.mp hnew]
      rfl
  refine hinv.readers ?_ ?_ ?_
  · intro reader hreader
    rcases hcases reader hreader with hold | hzero
    · exact hinv.positions reader hold
    · have := hinv.first
      omega
  · intro reader hreader
    rcases hcases reader hreader with hold | hzero
    · exact hinv.covers reader hold
    · intro row hrow hle
      have := hinv.committed row (mem_documentsOf.mp hrow).1
      omega
  · intro reader hreader txn htxn hproject q hq
    rcases hcases reader hreader with hold | hzero
    · exact hinv.pending reader hold txn htxn hproject q hq
    · have := hinv.inFlight txn htxn q hq
      omega

end Inv

/-! ## What a transaction can do -/

/-- What a writing statement of the transaction leaves behind. -/
def Transaction.changed (txn : Transaction) (store : Store) (statement : DocumentWrite) :
    List DocumentRow × Int :=
  statement.changed txn.projectId (txn.drawn.getD 0) store.nextChangeSequence
    (txn.view store.documents)

/-- What a deleting statement of the transaction takes away. -/
def Transaction.removed (txn : Transaction) (store : Store) (statement : DocumentDelete) :
    List DocumentRow :=
  (txn.view store.documents).filter (statement.removes txn.projectId)

/-- One step of an active transaction, with what was checked for it. -/
inductive TransactionStep (store : Store) (id : TransactionId) (txn : Transaction) :
    Action → Store → Prop
  | draw (i : TransactionId) (hnone : txn.drawn = none) :
      TransactionStep store id txn (.draw i)
        { store.setTransaction id { txn with drawn := some store.nextChangeSequence } with
          nextChangeSequence := store.nextChangeSequence + 1 }
  | write (i : TransactionId) (statement : DocumentWrite)
      (hexclusive : statement.needsExclusive = true → txn.exclusive = true)
      (hdrawn : statement.insertsRow = txn.drawn.isSome)
      (hid : (newId statement).any store.usesId = false)
      (hunlocked : store.isLocked id (txn.changed store statement).1 = false)
      (hstorable : (txn.changed store statement).1.all isStorable = true)
      (hunique : pathsUnique
        ((txn.write (txn.changed store statement).1).view store.documents) = true) :
      TransactionStep store id txn (.write i statement)
        { store.setTransaction id (txn.write (txn.changed store statement).1) with
          nextChangeSequence := (txn.changed store statement).2 }
  | delete (i : TransactionId) (statement : DocumentDelete)
      (hexclusive : statement.needsExclusive = true → txn.exclusive = true)
      (hunlocked : store.isLocked id (txn.removed store statement) = false) :
      TransactionStep store id txn (.delete i statement)
        (store.setTransaction id (txn.delete ((txn.removed store statement).map (·.id))))
  | markDirty (i : TransactionId) (hclean : (store.anyOther id fun other =>
        other.dirty && other.projectId = txn.projectId) = false) :
      TransactionStep store id txn (.markDirty i)
        (store.setTransaction id { txn with dirty := true })
  | commit (i : TransactionId) :
      TransactionStep store id txn (.commit i)
        { store.setTransaction id txn.finish with documents := txn.view store.documents }
  | abort (i : TransactionId) :
      TransactionStep store id txn (.abort i) (store.setTransaction id txn.finish)

variable {action : Action}

theorem transactionStep_of_eq {store store' : Store} {id : TransactionId} {txn : Transaction}
    (hstep : stepTransaction store id txn action = some store') :
    TransactionStep store id txn action store' := by
  cases action <;> simp only [stepTransaction, reduceCtorEq] at hstep
  case draw i =>
    split at hstep
    · simp at hstep
    · next hnone =>
      cases hstep
      exact .draw i (by simpa using hnone)
  case write i statement =>
    split at hstep
    · simp at hstep
    next hexclusive =>
    split at hstep
    · simp at hstep
    next hdrawn =>
    split at hstep
    · simp at hstep
    next hid =>
    split at hstep
    · simp at hstep
    next hunlocked =>
    split at hstep
    · next hchecks =>
      cases hstep
      rw [Bool.and_eq_true] at hchecks
      refine .write i statement ?_ ?_ ?_ ?_ hchecks.1 hchecks.2
      · intro hneeds
        simpa [hneeds] using hexclusive
      · simpa using hdrawn
      · simpa using hid
      · exact Bool.eq_false_iff.mpr hunlocked
    · simp at hstep
  case delete i statement =>
    split at hstep
    · simp at hstep
    next hexclusive =>
    split at hstep
    · simp at hstep
    next hunlocked =>
    cases hstep
    refine .delete i statement ?_ ?_
    · intro hneeds
      simpa [hneeds] using hexclusive
    · exact Bool.eq_false_iff.mpr hunlocked
  case markDirty i =>
    split at hstep
    · simp at hstep
    next hclean =>
    cases hstep
    exact .markDirty i (by simpa using hclean)
  case commit i =>
    cases hstep
    exact .commit i
  case abort i =>
    cases hstep
    exact .abort i

/-- A step of the store is a step of one of its active transactions, a new one, or
a reader's. -/
theorem step_cases {store store' : Store} (hstep : step store action = some store') :
    (∃ id txn, action.transaction = some id ∧ store.transactions[id]? = some txn
      ∧ txn.active = true ∧ TransactionStep store id txn action store')
    ∨ (∃ projectId exclusive, action = .begin projectId exclusive
      ∧ store' = { store with
        transactions := store.transactions ++
          [{ projectId, exclusive, drawn := none, written := [], deleted := [], dirty := false,
             active := true }] })
    ∨ (∃ projectId, action = .openReader projectId ∧ store' = { store with
        readers := store.readers ++
          [{ projectId, cursor := none, received := [], hasMore := true }] })
    ∨ ∃ id reader, action = .read id ∧ store.readers[id]? = some reader
      ∧ store' = { store with readers := store.readers.set id (readPage store reader) } := by
  unfold step at hstep
  split at hstep
  · next projectId exclusive =>
    right
    left
    unfold begin at hstep
    dsimp only at hstep
    split at hstep
    · simp at hstep
    · cases hstep
      exact ⟨projectId, exclusive, rfl, rfl⟩
  · next projectId =>
    cases hstep
    exact .inr (.inr (.inl ⟨projectId, rfl, rfl⟩))
  · next id =>
    rcases Option.map_eq_some_iff.mp hstep with ⟨reader, hreader, rfl⟩
    exact .inr (.inr (.inr ⟨id, reader, rfl, hreader, rfl⟩))
  · left
    split at hstep
    · simp at hstep
    rename_i id hid
    split at hstep
    · simp at hstep
    rename_i txn htxn
    split at hstep
    · next hactive => exact ⟨id, txn, hid, htxn, hactive, transactionStep_of_eq hstep⟩
    · simp at hstep

/-! ## Statements of a transaction -/

section Statements

variable {store : Store} {id : TransactionId} {txn : Transaction}

theorem mem_numbers {q : Int} (hactive : txn.active = true) :
    q ∈ txn.numbers ↔ txn.drawn = some q ∨ ∃ row ∈ txn.written, row.changeSequence = q := by
  simp [Transaction.numbers, hactive]

theorem renumbers_draw (hinv : Inv store) (hmem : txn ∈ store.transactions)
    (hactive : txn.active = true) :
    Renumbers store.nextChangeSequence (store.nextChangeSequence + 1) txn
      { txn with drawn := some store.nextChangeSequence } where
  projectId := rfl
  le := by omega
  numbers := by
    intro q hq
    have hcases : q = store.nextChangeSequence
        ∨ ∃ row ∈ txn.written, row.changeSequence = q := by
      simpa [Transaction.numbers, hactive] using hq
    rcases hcases with hdrawn | hwritten
    · right
      omega
    · exact .inl ((mem_numbers hactive).mpr (.inr hwritten))
  writtenDistinct := hinv.writtenDistinct txn hmem
  drawnDistinct := by
    intro q hq row hrow
    have hlt := hinv.inFlight txn hmem row.changeSequence
      ((mem_numbers hactive).mpr (.inr ⟨row, hrow, rfl⟩))
    have hq : store.nextChangeSequence = q := by simpa using hq
    omega
  writtenProject := hinv.writtenProject txn hmem

theorem renumbers_write (hinv : Inv store) (hmem : txn ∈ store.transactions)
    (hactive : txn.active = true) (statement : DocumentWrite)
    (hdrawn : statement.insertsRow = true → txn.drawn.isSome = true) :
    Renumbers store.nextChangeSequence
      (statement.changed txn.projectId (txn.drawn.getD 0) store.nextChangeSequence
        (txn.view store.documents)).2 txn
      (txn.write (statement.changed txn.projectId (txn.drawn.getD 0) store.nextChangeSequence
        (txn.view store.documents)).1) := by
  have hproject := statement.changed_projectId txn.projectId (txn.drawn.getD 0)
    store.nextChangeSequence (txn.view store.documents)
  have hnumbers := statement.changed_numbers txn.projectId (txn.drawn.getD 0)
    store.nextChangeSequence (txn.view store.documents)
  generalize statement.changed txn.projectId (txn.drawn.getD 0) store.nextChangeSequence
    (txn.view store.documents) = result at hproject hnumbers
  rcases result with ⟨changed, next'⟩
  have hrows : ∀ row ∈ (txn.write changed).written, row ∈ txn.written ∨ row ∈ changed := by
    intro row hrow
    rcases List.mem_append.mp hrow with hold | hnew
    · exact .inl (List.mem_of_mem_filter hold)
    · exact .inr hnew
  have hbefore : ∀ row ∈ txn.written, row.changeSequence ∈ txn.numbers :=
    fun row hrow => (mem_numbers hactive).mpr (.inr ⟨row, hrow, rfl⟩)
  -- the new versions have numbers of their own, drawn now or before
  have hnew : ∀ row ∈ changed, (row.changeSequence ∈ txn.numbers
        ∨ (store.nextChangeSequence ≤ row.changeSequence ∧ row.changeSequence < next'))
      ∧ ∀ old ∈ txn.written, old.changeSequence ≠ row.changeSequence := by
    rcases hnumbers with hfresh | ⟨hinserts, -, inserted, heq, hnumber⟩
    · intro row hrow
      have hrange := hfresh.range row hrow
      refine ⟨.inr hrange, ?_⟩
      intro old hold
      have := hinv.inFlight txn hmem _ (hbefore old hold)
      omega
    · rcases Option.isSome_iff_exists.mp (hdrawn hinserts) with ⟨q, hq⟩
      rw [hq, Option.getD_some] at hnumber
      intro row hrow
      simp only at heq
      rw [heq] at hrow
      rcases List.mem_singleton.mp hrow with rfl
      refine ⟨.inl ((mem_numbers hactive).mpr (.inl (by rw [hq, hnumber]))), ?_⟩
      intro old hold
      rw [hnumber]
      exact hinv.drawnDistinct txn hmem q hq old hold
  have hdistinct : KeyDistinct DocumentRow.changeSequence changed := by
    rcases hnumbers with hfresh | ⟨-, -, inserted, heq, -⟩
    · exact hfresh.distinct
    · simp only at heq
      simp [heq, KeyDistinct]
  refine
    { projectId := rfl, le := ?_, numbers := ?_, writtenDistinct := ?_,
      drawnDistinct := by simp [Transaction.write], writtenProject := ?_ }
  · rcases hnumbers with hfresh | ⟨-, hnext, -⟩
    · exact hfresh.le
    · exact hnext.ge
  · intro q hq
    have hactive' : (txn.write changed).active = true := hactive
    rcases (mem_numbers hactive').mp hq with hnone | ⟨row, hrow, rfl⟩
    · simp [Transaction.write] at hnone
    · rcases hrows row hrow with hold | hchanged
      · exact .inl (hbefore row hold)
      · exact (hnew row hchanged).1
  · intro row hrow other hother heq
    rcases hrows row hrow with hrowOld | hrowNew
    · rcases hrows other hother with hotherOld | hotherNew
      · exact hinv.writtenDistinct txn hmem row hrowOld other hotherOld heq
      · exact absurd heq ((hnew other hotherNew).2 row hrowOld)
    · rcases hrows other hother with hotherOld | hotherNew
      · exact absurd heq.symm ((hnew row hrowNew).2 other hotherOld)
      · exact hdistinct row hrowNew other hotherNew heq
  · intro row hrow
    rcases hrows row hrow with hold | hchanged
    · exact hinv.writtenProject txn hmem row hold
    · exact hproject row hchanged

/-- A transaction that draws nothing keeps its numbers or gives some up. -/
theorem renumbers_keep (hinv : Inv store) (hmem : txn ∈ store.transactions) {txn' : Transaction}
    (hproject : txn'.projectId = txn.projectId)
    (hnumbers : ∀ q ∈ txn'.numbers, q ∈ txn.numbers)
    (hwritten : ∀ row ∈ txn'.written, row ∈ txn.written)
    (hdrawn : txn'.drawn = txn.drawn) :
    Renumbers store.nextChangeSequence store.nextChangeSequence txn txn' where
  projectId := hproject
  le := le_rfl
  numbers := fun q hq => .inl (hnumbers q hq)
  writtenDistinct := fun row hrow other hother =>
    hinv.writtenDistinct txn hmem row (hwritten row hrow) other (hwritten other hother)
  drawnDistinct := fun q hq row hrow =>
    hinv.drawnDistinct txn hmem q (hdrawn ▸ hq) row (hwritten row hrow)
  writtenProject := fun row hrow => by
    rw [hproject]
    exact hinv.writtenProject txn hmem row (hwritten row hrow)

/-- A step renumbers its transaction, or commits it. -/
theorem transactionStep_renumbers {store' : Store} {action : Action} (hinv : Inv store)
    (htxn : store.transactions[id]? = some txn) (hactive : txn.active = true)
    (hstep : TransactionStep store id txn action store') :
    (∃ txn' next', Renumbers store.nextChangeSequence next' txn txn'
      ∧ store' = { store.setTransaction id txn' with nextChangeSequence := next' })
    ∨ (∃ i, action = .commit i) ∧ store'
      = { store.setTransaction id txn.finish with documents := txn.view store.documents } := by
  have hmem : txn ∈ store.transactions := List.mem_of_getElem? htxn
  cases hstep with
  | draw _ hnone => exact .inl ⟨_, _, renumbers_draw hinv hmem hactive, rfl⟩
  | write _ statement hexclusive hdrawn =>
    refine .inl ⟨_, _, renumbers_write hinv hmem hactive statement ?_, rfl⟩
    intro hinserts
    rw [← hdrawn, hinserts]
  | delete _ statement =>
    have hwritten : ∀ removed, ∀ row ∈ (txn.delete removed).written, row ∈ txn.written :=
      fun removed row hrow => List.mem_of_mem_filter hrow
    refine .inl ⟨txn.delete _, store.nextChangeSequence,
      renumbers_keep hinv hmem rfl ?_ (hwritten _) rfl, rfl⟩
    intro q hq
    rcases (mem_numbers (show (txn.delete _).active = true from hactive)).mp hq
      with hdrawn | ⟨row, hrow, heq⟩
    · exact (mem_numbers hactive).mpr (.inl hdrawn)
    · exact (mem_numbers hactive).mpr (.inr ⟨row, hwritten _ row hrow, heq⟩)
  | markDirty =>
    exact .inl ⟨{ txn with dirty := true }, store.nextChangeSequence,
      renumbers_keep hinv hmem rfl (fun q hq => hq) (fun row hrow => hrow) rfl, rfl⟩
  | commit i => exact .inr ⟨⟨i, rfl⟩, rfl⟩
  | abort =>
    refine .inl ⟨txn.finish, store.nextChangeSequence,
      renumbers_keep hinv hmem rfl ?_ (fun row hrow => hrow) rfl, rfl⟩
    intro q hq
    simp [Transaction.finish, Transaction.numbers] at hq

theorem transactionStep_inv {store' : Store} {action : Action} (hinv : Inv store)
    (htxn : store.transactions[id]? = some txn) (hactive : txn.active = true)
    (hstep : TransactionStep store id txn action store') : Inv store' := by
  rcases transactionStep_renumbers hinv htxn hactive hstep
    with ⟨txn', next', hrenumbers, rfl⟩ | ⟨-, rfl⟩
  · exact hinv.replace htxn hrenumbers
  · exact hinv.commit htxn hactive

end Statements

/-! ## What a step makes visible -/

/-- What is in flight after a step was in flight before or is newly drawn, and what
becomes visible was in flight. -/
structure Advances (store store' : Store) : Prop where
  le : store.nextChangeSequence ≤ store'.nextChangeSequence
  numbers : ∀ txn' ∈ store'.transactions, ∀ q ∈ txn'.numbers, store.nextChangeSequence ≤ q
    ∨ ∃ txn ∈ store.transactions, txn.projectId = txn'.projectId ∧ q ∈ txn.numbers
  rows : ∀ row ∈ store'.documents, row ∈ store.documents
    ∨ ∃ txn ∈ store.transactions, txn.projectId = row.projectId ∧ row.changeSequence ∈ txn.numbers

theorem transactionStep_advances {store store' : Store} {id : TransactionId} {txn : Transaction}
    (hinv : Inv store) (htxn : store.transactions[id]? = some txn)
    (hactive : txn.active = true) (hstep : TransactionStep store id txn action store') :
    Advances store store' := by
  have hmem : txn ∈ store.transactions := List.mem_of_getElem? htxn
  rcases transactionStep_renumbers hinv htxn hactive hstep
    with ⟨txn', next', hrenumbers, rfl⟩ | ⟨-, rfl⟩
  · refine { le := hrenumbers.le, numbers := ?_, rows := fun row hrow => .inl hrow }
    intro other hother q hq
    rcases Inv.mem_setTransaction hother with hold | rfl
    · exact .inr ⟨other, hold, rfl, hq⟩
    · rcases hrenumbers.numbers q hq with hbefore | hdrawn
      · exact .inr ⟨txn, hmem, hrenumbers.projectId.symm, hbefore⟩
      · exact .inl hdrawn.1
  · refine { le := le_rfl, numbers := ?_, rows := ?_ }
    · intro other hother q hq
      rcases Inv.mem_setTransaction hother with hold | rfl
      · exact .inr ⟨other, hold, rfl, hq⟩
      · simp [Transaction.finish, Transaction.numbers] at hq
    · intro row hrow
      rcases List.mem_append.mp hrow with hold | hwritten
      · exact .inl (List.mem_of_mem_filter hold)
      · exact .inr ⟨txn, hmem, (hinv.writtenProject txn hmem row hwritten).symm,
          (mem_numbers hactive).mpr (.inr ⟨row, hwritten, rfl⟩)⟩

theorem step_advances {store store' : Store} (hinv : Inv store)
    (hstep : step store action = some store') : Advances store store' := by
  have hsame : ∀ readers, Advances store { store with readers := readers } := fun readers =>
    { le := le_rfl, numbers := fun txn htxn q hq => .inr ⟨txn, htxn, rfl, hq⟩,
      rows := fun row hrow => .inl hrow }
  rcases step_cases hstep with ⟨id, txn, -, htxn, hactive, htransaction⟩
    | ⟨projectId, exclusive, rfl, rfl⟩ | ⟨projectId, rfl, rfl⟩ | ⟨id, reader, rfl, hreader, rfl⟩
  · exact transactionStep_advances hinv htxn hactive htransaction
  · refine { le := le_rfl, numbers := ?_, rows := fun row hrow => .inl hrow }
    intro txn htxn q hq
    rcases List.mem_append.mp htxn with hold | hnew
    · exact .inr ⟨txn, hold, rfl, hq⟩
    · rw [List.mem_singleton.mp hnew] at hq
      simp [Transaction.numbers] at hq
  · exact hsame _
  · exact hsame _

/-- Only a commit changes the committed rows. -/
theorem step_documents {store store' : Store}
    (hstep : step store action = some store') (hcommit : ∀ i, action ≠ .commit i) :
    store'.documents = store.documents := by
  rcases step_cases hstep with ⟨id, txn, -, htxn, hactive, htransaction⟩
    | ⟨projectId, exclusive, rfl, rfl⟩ | ⟨projectId, rfl, rfl⟩ | ⟨id, reader, rfl, hreader, rfl⟩
  · cases htransaction with
    | commit i => exact absurd rfl (hcommit i)
    | _ => rfl
  · rfl
  · rfl
  · rfl

end Toss.Workspace.Feed
