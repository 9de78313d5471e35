import Mathlib.Data.List.Basic
import Toss.Foundation.Run
import Toss.Foundation.Table
import Toss.Basic

/-!
# Replay records of worker requests

`worker_idempotency.rs` and `with_worker_request`: a mutation is reserved under
its worker identity and request identifier, carried out, and its response kept
for later calls.

* `WorkerRequestRow` — a record, and the statements on the table of them;
* `lookUp` — what a call finds under the advisory lock of its identifier;
* `settle` — what the result of the mutation leaves in the table;
* `step` — calls, executors, crashes and the purge, in any order.

Clock values are seconds; every action brings its own, in any order.
-/

namespace Toss.Processing.WorkerRequests

open Toss.Foundation

abbrev Timestamp := Int

/-- The statuses that worker mutations are answered with. -/
inductive StatusCode
  | ok
  | created
  | noContent
  | badRequest
  | unauthorized
  | notFound
  | conflict
  | gone
  | payloadTooLarge
  | unprocessableEntity
  | internalServerError
  | serviceUnavailable
deriving DecidableEq, Repr

namespace StatusCode

def asU16 : StatusCode → UInt16
  | ok => 200
  | created => 201
  | noContent => 204
  | badRequest => 400
  | unauthorized => 401
  | notFound => 404
  | conflict => 409
  | gone => 410
  | payloadTooLarge => 413
  | unprocessableEntity => 422
  | internalServerError => 500
  | serviceUnavailable => 503

def isServerError (status : StatusCode) : Bool :=
  500 ≤ status.asU16 && status.asU16 < 600

end StatusCode

def requestPendingStatus : Int := 102

def requestPendingTtl : Int := 10 * 60

def requestReplayTtl : Int := 24 * 60 * 60

/-- `response_body`: the value of a response, or a `WorkerApiErrorResponse`. -/
inductive ResponseBody
  | value (json : Text)
  | error (code message : Text)
deriving DecidableEq, Repr

/-! ## The table of records -/

/-- A row of `processing_worker_requests`; its primary key is
`(worker_identity, request_id)`. -/
structure WorkerRequestRow where
  workerIdentity : Text
  requestId : Uuid
  routeKey : Text
  payloadDigest : Bytes
  responseStatus : Int
  responseBody : Option ResponseBody
  createdAt : Timestamp
  expiresAt : Timestamp
deriving DecidableEq, Repr

/-- A call of a worker, as far as its reservation goes. -/
structure WorkerRequestReservation where
  workerIdentity : Text
  requestId : Uuid
  routeKey : Text
  payloadDigest : Bytes
deriving DecidableEq, Repr

def WorkerRequestRow.key (row : WorkerRequestRow) : Text × Uuid :=
  (row.workerIdentity, row.requestId)

/-- What the advisory lock of a call is taken on. -/
def WorkerRequestReservation.key (request : WorkerRequestReservation) : Text × Uuid :=
  (request.workerIdentity, request.requestId)

structure StoredWorkerResponse where
  status : UInt16
  body : Option ResponseBody
deriving DecidableEq, Repr

def WorkerRequestReservation.pendingRow (request : WorkerRequestReservation) (now : Timestamp) :
    WorkerRequestRow where
  workerIdentity := request.workerIdentity
  requestId := request.requestId
  routeKey := request.routeKey
  payloadDigest := request.payloadDigest
  responseStatus := requestPendingStatus
  responseBody := none
  createdAt := now
  expiresAt := now + requestPendingTtl

/-- The rows that `finish` and `abort` of a reservation address. -/
def WorkerRequestRow.isReservationOf (request : WorkerRequestReservation) (row : WorkerRequestRow) :
    Bool :=
  row.key = request.key && row.routeKey = request.routeKey
    && row.payloadDigest = request.payloadDigest && row.responseStatus = requestPendingStatus

/-- The record with the response of its mutation. -/
def WorkerRequestRow.answered (row : WorkerRequestRow) (now : Timestamp) (status : UInt16)
    (body : Option ResponseBody) : WorkerRequestRow :=
  { row with
    responseStatus := status.toNat
    responseBody := body
    expiresAt := now + requestReplayTtl }

/-- `WorkerRequestReservation::finish`: the table and the rows affected. -/
def finish (rows : List WorkerRequestRow) (request : WorkerRequestReservation) (now : Timestamp)
    (status : UInt16) (body : Option ResponseBody) : List WorkerRequestRow × Nat :=
  (updateWhere (WorkerRequestRow.isReservationOf request)
      (fun row => row.answered now status body) rows,
    rows.countP (WorkerRequestRow.isReservationOf request))

/-- `WorkerRequestReservation::abort`: the table and the rows affected. -/
def abort (rows : List WorkerRequestRow) (request : WorkerRequestReservation) :
    List WorkerRequestRow × Nat :=
  (rows.filter fun row => !row.isReservationOf request,
    rows.countP (WorkerRequestRow.isReservationOf request))

/-! ## A call -/

inductive WorkerRequestStart
  /-- The mutation is to be carried out; an expired record is deleted first. -/
  | execute (deletesExpired : Bool)
  | replay (response : StoredWorkerResponse)
  | inProgress
  | conflict
  /-- `stored worker response status is invalid`. -/
  | invalidStatus
deriving DecidableEq, Repr

/-- What a call does about the record it found. -/
def lookUp (existing : Option WorkerRequestRow) (request : WorkerRequestReservation)
    (now : Timestamp) : WorkerRequestStart :=
  match existing with
  | none => .execute false
  | some row =>
    if row.expiresAt ≤ now then .execute true
    else if row.routeKey ≠ request.routeKey || row.payloadDigest ≠ request.payloadDigest then
      .conflict
    else if row.responseStatus = requestPendingStatus then .inProgress
    else if 0 ≤ row.responseStatus ∧ row.responseStatus < 2 ^ 16 then
      .replay { status := .ofNat row.responseStatus.toNat, body := row.responseBody }
    else .invalidStatus

/-! ## The mutation's result -/

structure WorkerMutationOutput where
  status : StatusCode
  body : Option Text
deriving DecidableEq, Repr

structure WorkerApiError where
  status : StatusCode
  code : Text
  message : Text
deriving DecidableEq, Repr

abbrev MutationResult := Except WorkerApiError WorkerMutationOutput

/-- What is stored for the mutation's result; a server error leaves no record. -/
def storedResponse : MutationResult → Option StoredWorkerResponse
  | .ok output => some { status := output.status.asU16, body := output.body.map .value }
  | .error error =>
    if error.status.isServerError then none
    else some { status := error.status.asU16, body := some (.error error.code error.message) }

/-- The statement that follows the mutation in `with_worker_request`. -/
def settle (rows : List WorkerRequestRow) (request : WorkerRequestReservation) (now : Timestamp)
    (result : MutationResult) : List WorkerRequestRow × Nat :=
  match storedResponse result with
  | some response => finish rows request now response.status response.body
  | none => abort rows request

/-! ## Calls and executors side by side -/

inductive ExecutorState
  | running
  | finished (response : StoredWorkerResponse)
  | aborted
  /-- `worker request reservation was lost`. -/
  | lost
  | crashed
deriving DecidableEq, Repr

structure Executor where
  request : WorkerRequestReservation
  state : ExecutorState
deriving DecidableEq, Repr

/-- A call that holds the advisory lock of its identifier and has yet to write. -/
structure Reserving where
  request : WorkerRequestReservation
  now : Timestamp
  deletesExpired : Bool
  /-- Its `delete` has run: the record is locked until the call commits. -/
  deleted : Bool
deriving DecidableEq, Repr

/-- The records that are left when the call inserts its own. -/
def Reserving.keptRows (reserving : Reserving) (rows : List WorkerRequestRow) :
    List WorkerRequestRow :=
  if reserving.deleted then rows.filter fun row => row.key ≠ reserving.request.key else rows

structure Server where
  rows : List WorkerRequestRow
  reserving : List Reserving
  executors : List Executor
deriving DecidableEq, Repr

def Server.empty : Server where
  rows := []
  reserving := []
  executors := []

def Server.find? (server : Server) (request : WorkerRequestReservation) :
    Option WorkerRequestRow :=
  server.rows.find? fun row => row.key = request.key

/-- What a call with the clock `now` would be answered. -/
def Server.call (server : Server) (request : WorkerRequestReservation) (now : Timestamp) :
    WorkerRequestStart :=
  lookUp (server.find? request) request now

/-- A call in flight has deleted the record of this identifier and not committed. -/
def Server.isRowDeleted (server : Server) (request : WorkerRequestReservation) : Bool :=
  server.reserving.any fun reserving => reserving.deleted && reserving.request.key = request.key

inductive Action
  /-- A call takes the lock and looks its record up. -/
  | call (request : WorkerRequestReservation) (now : Timestamp)
  | deleteExpired (reserving : Reserving)
  /-- The pending record is inserted and the call commits. -/
  | reserve (reserving : Reserving)
  /-- A statement of the call or its connection fails. -/
  | rollBack (reserving : Reserving)
  /-- The mutation of an executor has returned. -/
  | settle (executor : Nat) (now : Timestamp) (result : MutationResult)
  | crash (executor : Nat)
  /-- `delete from processing_worker_requests where expires_at <= now`. -/
  | purge (now : Timestamp)
deriving Repr

def step (server : Server) : Action → Option Server
  | .call request now =>
    if server.reserving.any (fun reserving => reserving.request.key = request.key) then none
    else
      match server.call request now with
      | .execute deletesExpired =>
        some
          { server with
            reserving :=
              { request, now, deletesExpired, deleted := false } :: server.reserving }
      | _ => some server
  | .deleteExpired reserving =>
    if reserving ∈ server.reserving ∧ reserving.deletesExpired = true
        ∧ reserving.deleted = false then
      some
        { server with
          reserving := { reserving with deleted := true } :: server.reserving.erase reserving }
    else none
  | .reserve reserving =>
    if reserving ∈ server.reserving ∧ reserving.deletesExpired = reserving.deleted then
      if (reserving.keptRows server.rows).any fun row => row.key = reserving.request.key then none
      else
        some
          { rows := reserving.keptRows server.rows ++ [reserving.request.pendingRow reserving.now]
            reserving := server.reserving.erase reserving
            executors := server.executors ++ [{ request := reserving.request, state := .running }] }
    else none
  | .rollBack reserving =>
    if reserving ∈ server.reserving then
      some { server with reserving := server.reserving.erase reserving }
    else none
  | .settle id now result =>
    match server.executors[id]? with
    | some { request, state := .running } =>
      -- a statement on a record that a call has deleted waits for the commit and finds no row
      let (rows, affected) :=
        if server.isRowDeleted request then (server.rows, 0)
        else settle server.rows request now result
      let state : ExecutorState :=
        if affected ≠ 1 then .lost
        else
          match storedResponse result with
          | some response => .finished response
          | none => .aborted
      some { server with rows, executors := server.executors.set id { request, state } }
    | _ => none
  | .crash id =>
    match server.executors[id]? with
    | some { request, state := .running } =>
      some { server with executors := server.executors.set id { request, state := .crashed } }
    | _ => none
  | .purge now =>
    some
      { server with
        rows := server.rows.filter fun row =>
          now < row.expiresAt || server.reserving.any fun reserving =>
            reserving.deleted && row.key = reserving.request.key }

end Toss.Processing.WorkerRequests
