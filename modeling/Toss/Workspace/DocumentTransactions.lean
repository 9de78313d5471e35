import Toss.Workspace.Documents

/-!
# Concurrent document transactions and the readers of the change feed

Transactions on the documents of a project under READ COMMITTED. Each statement
sees the committed rows and what its own transaction wrote; what it writes is
locked against the other transactions and becomes visible at commit. The values
drawn from `documents_change_sequence_seq` are never given back.

* `Transaction` — the locks, the drawn default and the writes in flight;
* `Reader` — a client that pages through `list_documents` with the cursor of the
  page before;
* `step` — one statement, lock, commit or page read.

A statement that waits for a lock is not enabled; one that fails leaves only
`abort`.
-/

namespace Toss.Workspace

open Toss.Foundation

namespace Feed

abbrev TransactionId := Nat

abbrev ReaderId := Nat

structure Transaction where
  projectId : Uuid
  /-- `for update` on the row of the project, else `for key share`. -/
  exclusive : Bool
  /-- The default of `change_sequence` drawn for a row about to be inserted. -/
  drawn : Option Int
  written : List DocumentRow
  deleted : List Uuid
  /-- The row of the project is updated, and so locked until the end. -/
  dirty : Bool
  active : Bool
deriving DecidableEq, Repr

structure Reader where
  projectId : Uuid
  cursor : Option Int
  /-- Every row that a page gave the reader. -/
  received : List DocumentRow
  /-- `has_more` of the last page. -/
  hasMore : Bool
deriving DecidableEq, Repr

structure Store where
  documents : List DocumentRow
  nextChangeSequence : Int
  transactions : List Transaction
  readers : List Reader
deriving DecidableEq, Repr

namespace Transaction

def touches (txn : Transaction) (id : Uuid) : Bool :=
  txn.deleted.contains id || txn.written.any fun row => row.id = id

/-- The rows a statement of the transaction sees. -/
def view (txn : Transaction) (documents : List DocumentRow) : List DocumentRow :=
  documents.filter (fun row => !txn.touches row.id) ++ txn.written

/-- The numbers drawn that commit may make visible. -/
def numbers (txn : Transaction) : List Int :=
  if txn.active then txn.drawn.toList ++ txn.written.map (·.changeSequence) else []

def write (txn : Transaction) (changed : List DocumentRow) : Transaction :=
  { txn with
    drawn := none
    written := txn.written.filter (fun row => !changed.any fun new => new.id = row.id) ++ changed }

def delete (txn : Transaction) (removed : List Uuid) : Transaction :=
  { txn with
    written := txn.written.filter fun row => !removed.contains row.id
    deleted := txn.deleted ++ removed }

def finish (txn : Transaction) : Transaction :=
  { txn with active := false }

end Transaction

inductive Action
  | begin (projectId : Uuid) (exclusive : Bool)
  /-- An `insert` evaluates the default of `change_sequence`. -/
  | draw (txn : TransactionId)
  | write (txn : TransactionId) (statement : DocumentWrite)
  | delete (txn : TransactionId) (statement : DocumentDelete)
  /-- `update projects set workspace_version = workspace_version + 1`. -/
  | markDirty (txn : TransactionId)
  | commit (txn : TransactionId)
  | abort (txn : TransactionId)
  | openReader (projectId : Uuid)
  | read (reader : ReaderId)
deriving DecidableEq, Repr

namespace Store

def setTransaction (store : Store) (id : TransactionId) (txn : Transaction) : Store :=
  { store with transactions := store.transactions.set id txn }

/-- A transaction in flight other than `id` meets the condition. -/
def anyOther (store : Store) (id : TransactionId) (cond : Transaction → Bool) : Bool :=
  store.transactions.zipIdx.any fun other =>
    other.2 ≠ id && other.1.active && cond other.1

/-- A row or an entry of the unique index that the rows need is locked by another
transaction. -/
def isLocked (store : Store) (id : TransactionId) (rows : List DocumentRow) : Bool :=
  store.anyOther id fun other => rows.any fun row =>
    other.touches row.id
      || other.written.any fun w => w.projectId = row.projectId && w.path = row.path

def usesId (store : Store) (id : Uuid) : Bool :=
  (store.documents.any fun row => row.id = id)
    || store.transactions.any fun txn => txn.touches id

end Store

/-- `documents_project_id_path_key`. -/
def pathsUnique (rows : List DocumentRow) : Bool :=
  rows.all fun row => rows.all fun other =>
    !(row.projectId = other.projectId && row.path = other.path) || row.id = other.id

def isStorable (row : DocumentRow) : Bool :=
  isStorableText row.path && isStorableText row.content

/-- The identifier that an inserting statement brings, made by `Uuid::new_v4`. -/
def newId : DocumentWrite → Option Uuid
  | .insert id .. | .upsertByPath id .. => some id
  | _ => none

def begin (store : Store) (projectId : Uuid) (exclusive : Bool) : Option Store :=
  let conflicting := store.transactions.any fun other =>
    other.active && other.projectId = projectId && (exclusive || other.exclusive)
  if conflicting then none
  else some
    { store with
      transactions := store.transactions ++
        [{ projectId, exclusive, drawn := none, written := [], deleted := [], dirty := false,
           active := true }] }

def stepTransaction (store : Store) (id : TransactionId) (txn : Transaction) :
    Action → Option Store
  | .draw _ =>
    if txn.drawn.isSome then none
    else some
      { store.setTransaction id { txn with drawn := some store.nextChangeSequence } with
        nextChangeSequence := store.nextChangeSequence + 1 }
  | .write _ statement =>
    if statement.needsExclusive && !txn.exclusive then none
    else if statement.insertsRow != txn.drawn.isSome then none
    else if (newId statement).any store.usesId then none
    else
      let (changed, next) := statement.changed txn.projectId (txn.drawn.getD 0)
        store.nextChangeSequence (txn.view store.documents)
      let txn' := txn.write changed
      if store.isLocked id changed then none
      else if changed.all isStorable && pathsUnique (txn'.view store.documents) then
        some { store.setTransaction id txn' with nextChangeSequence := next }
      else none
  | .delete _ statement =>
    if statement.needsExclusive && !txn.exclusive then none
    else
      let removed := (txn.view store.documents).filter (statement.removes txn.projectId)
      if store.isLocked id removed then none
      else some (store.setTransaction id (txn.delete (removed.map (·.id))))
  | .markDirty _ =>
    if store.anyOther id fun other => other.dirty && other.projectId = txn.projectId then none
    else some (store.setTransaction id { txn with dirty := true })
  | .commit _ =>
    some { store.setTransaction id txn.finish with documents := txn.view store.documents }
  | .abort _ => some (store.setTransaction id txn.finish)
  | _ => none

def readPage (store : Store) (reader : Reader) : Reader :=
  let result := listDocuments store.documents reader.projectId reader.cursor
  { reader with
    cursor := result.cursor <|> reader.cursor
    received := reader.received ++ result.documents
    hasMore := result.hasMore }

def Action.transaction : Action → Option TransactionId
  | .draw id | .write id _ | .delete id _ | .markDirty id | .commit id | .abort id => some id
  | .begin .. | .openReader _ | .read _ => none

def step (store : Store) (action : Action) : Option Store :=
  match action with
  | .begin projectId exclusive => begin store projectId exclusive
  | .openReader projectId =>
    some
      { store with
        readers := store.readers ++ [{ projectId, cursor := none, received := [], hasMore := true }] }
  | .read id =>
    (store.readers[id]?).map fun reader =>
      { store with readers := store.readers.set id (readPage store reader) }
  | action =>
    match action.transaction with
    | none => none
    | some id =>
      match store.transactions[id]? with
      | none => none
      | some txn => if txn.active then stepTransaction store id txn action else none

end Feed

end Toss.Workspace
