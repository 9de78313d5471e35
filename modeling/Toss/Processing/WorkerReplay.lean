import Mathlib.Data.List.Pairwise
import Toss.Foundation.Fallible
import Toss.Processing.WorkerIdempotency

/-!
# Worker requests are carried out once

The invariant of the table of replay records and its executors, and what it gives
over every interleaving of calls.

* `ServerStep`, `serverStep_of_eq` — all that a step can do;
* `Meets` — a call of an identifier whose mutation is running or answered finds its
  record unexpired;
* `Inv` — the invariant of the runs whose calls meet it;
* `replay_at_most_once` — what such runs promise.

`finish` and `abort` address a reservation by columns that every retry of the
request shares, so a call outside `Meets` makes a second executor whose record the
first one settles: `takenOver_finishes`.
-/

namespace Toss.Processing.WorkerRequests

open Toss.Foundation

/-! ## What a step can do -/

theorem StatusCode.asU16_ne_pending (status : StatusCode) :
    (status.asU16.toNat : Int) ≠ requestPendingStatus := by
  cases status <;> decide

theorem storedResponse_ne_pending {result : MutationResult} {response : StoredWorkerResponse}
    (h : storedResponse result = some response) :
    (response.status.toNat : Int) ≠ requestPendingStatus := by
  cases result with
  | ok output =>
    have heq : { status := output.status.asU16, body := output.body.map .value } = response :=
      Option.some.inj h
    rw [← heq]
    exact output.status.asU16_ne_pending
  | error error =>
    simp only [storedResponse] at h
    split at h
    · simp at h
    · have heq := Option.some.inj h
      rw [← heq]
      exact error.status.asU16_ne_pending

/-- Where the result of the mutation leaves its executor. -/
def settledState (result : MutationResult) (affected : Nat) : ExecutorState :=
  if affected ≠ 1 then .lost
  else
    match storedResponse result with
    | some response => .finished response
    | none => .aborted

inductive ServerStep (server : Server) : Action → Server → Prop
  /-- The call is answered from its record. -/
  | answered {request : WorkerRequestReservation} {now : Timestamp} :
      ServerStep server (.call request now) server
  | called {request : WorkerRequestReservation} {now : Timestamp} {deletesExpired : Bool} :
      (∀ reserving ∈ server.reserving, reserving.request.key ≠ request.key) →
      server.call request now = .execute deletesExpired →
      ServerStep server (.call request now)
        { server with
          reserving := { request, now, deletesExpired, deleted := false } :: server.reserving }
  | deletedExpired {reserving : Reserving} :
      reserving ∈ server.reserving →
      reserving.deletesExpired = true →
      ServerStep server (.deleteExpired reserving)
        { server with
          reserving := { reserving with deleted := true } :: server.reserving.erase reserving }
  | reserved {reserving : Reserving} {kept : List WorkerRequestRow} :
      reserving ∈ server.reserving →
      (∀ row ∈ kept, row ∈ server.rows ∧ row.key ≠ reserving.request.key) →
      kept.Sublist server.rows →
      ServerStep server (.reserve reserving)
        { rows := kept ++ [reserving.request.pendingRow reserving.now]
          reserving := server.reserving.erase reserving
          executors := server.executors ++ [{ request := reserving.request, state := .running }] }
  | rolledBack {reserving : Reserving} :
      reserving ∈ server.reserving →
      ServerStep server (.rollBack reserving)
        { server with reserving := server.reserving.erase reserving }
  | waited {id : Nat} {now : Timestamp} {result : MutationResult}
      {request : WorkerRequestReservation} :
      server.executors[id]? = some { request, state := .running } →
      server.isRowDeleted request = true →
      ServerStep server (.settle id now result)
        { server with executors := server.executors.set id { request, state := .lost } }
  | settled {id : Nat} {now : Timestamp} {result : MutationResult}
      {request : WorkerRequestReservation} :
      server.executors[id]? = some { request, state := .running } →
      ServerStep server (.settle id now result)
        { server with
          rows := (settle server.rows request now result).1
          executors :=
            server.executors.set id
              { request
                state := settledState result (settle server.rows request now result).2 } }
  | crashed {id : Nat} {request : WorkerRequestReservation} :
      server.executors[id]? = some { request, state := .running } →
      ServerStep server (.crash id)
        { server with executors := server.executors.set id { request, state := .crashed } }
  | purged {now : Timestamp} {keep : WorkerRequestRow → Bool} :
      ServerStep server (.purge now) { server with rows := server.rows.filter keep }

theorem Reserving.keptRows_sublist (reserving : Reserving) (rows : List WorkerRequestRow) :
    (reserving.keptRows rows).Sublist rows := by
  unfold Reserving.keptRows
  split
  · exact List.filter_sublist
  · exact List.Sublist.refl _

theorem serverStep_of_eq {server server' : Server} {action : Action}
    (h : step server action = some server') : ServerStep server action server' := by
  cases action with
  | call request now =>
    simp only [step] at h
    split at h
    · simp at h
    -- nobody holds the lock of the key
    rename_i hlock
    split at h
    · next deletesExpired hcall =>
      cases h
      refine .called ?_ hcall
      intro reserving hmem hkey
      exact hlock (List.any_eq_true.mpr ⟨reserving, hmem, by simpa using hkey⟩)
    · cases h
      exact .answered
  | deleteExpired reserving =>
    simp only [step] at h
    split at h
    · next hguard =>
      cases h
      exact .deletedExpired hguard.1 hguard.2.1
    · simp at h
  | reserve reserving =>
    simp only [step] at h
    split at h
    · next hguard =>
      split at h
      · simp at h
      rename_i hfree
      cases h
      have hsublist := reserving.keptRows_sublist server.rows
      refine .reserved hguard.1 ?_ hsublist
      intro row hrow
      refine ⟨hsublist.subset hrow, ?_⟩
      intro hkey
      exact hfree (List.any_eq_true.mpr ⟨row, hrow, by simpa using hkey⟩)
    · simp at h
  | rollBack reserving =>
    simp only [step] at h
    split at h
    · next hmem =>
      cases h
      exact .rolledBack hmem
    · simp at h
  | settle id now result =>
    simp only [step] at h
    split at h
    · next request hexecutor =>
      -- the record is gone: there is nothing to settle
      by_cases hdeleted : server.isRowDeleted request = true
      · simp only [hdeleted, if_true] at h
        cases h
        exact .waited hexecutor hdeleted
      · simp only [hdeleted] at h
        cases h
        exact .settled hexecutor
    · simp at h
  | crash id =>
    simp only [step] at h
    split at h
    · next request hexecutor =>
      cases h
      exact .crashed hexecutor
    · simp at h
  | purge now =>
    cases h
    exact .purged

/-! ## The invariant -/

/-- The mutation is being carried out or has left a response. -/
def Executor.isLive (executor : Executor) : Bool :=
  match executor.state with
  | .running | .finished _ => true
  | _ => false

/-- The record is the reservation of this executor, with the response it left. -/
structure Executor.Holds (executor : Executor) (row : WorkerRequestRow) : Prop where
  key : row.key = executor.request.key
  routeKey : row.routeKey = executor.request.routeKey
  payloadDigest : row.payloadDigest = executor.request.payloadDigest
  response :
    match executor.state with
    | .running | .crashed => row.responseStatus = requestPendingStatus
    | .finished response =>
      row.responseStatus = response.status.toNat ∧ row.responseBody = response.body
        ∧ row.responseStatus ≠ requestPendingStatus
    | .aborted | .lost => False

/-- A call of an identifier whose mutation is running or has been answered finds
its record, unexpired. -/
def Meets (server : Server) : Action → Prop
  | .call request now =>
    (∃ executor ∈ server.executors,
        executor.request.key = request.key ∧ executor.isLive = true) →
      ∃ row, server.find? request = some row ∧ now < row.expiresAt
  | _ => True

instance (server : Server) (action : Action) : Decidable (Meets server action) :=
  match action with
  | .call request now =>
    decidable_of_iff
      ((∃ executor ∈ server.executors,
          executor.request.key = request.key ∧ executor.isLive = true) →
        (server.find? request).any (fun row => now < row.expiresAt) = true)
      (by simp [Meets, Option.any_eq_true])
  | .deleteExpired _ => .isTrue trivial
  | .reserve _ => .isTrue trivial
  | .rollBack _ => .isTrue trivial
  | .settle _ _ _ => .isTrue trivial
  | .crash _ => .isTrue trivial
  | .purge _ => .isTrue trivial

structure Inv (server : Server) : Prop where
  /-- The primary key of the table. -/
  keys : server.rows.Pairwise fun row row' => row.key ≠ row'.key
  /-- Every record belongs to the last executor of its identifier. -/
  owned : ∀ row ∈ server.rows, ∃ (id : Nat) (executor : Executor), server.executors[id]? = some executor
    ∧ executor.Holds row
    ∧ ∀ (later : Nat) (other : Executor), server.executors[later]? = some other → id < later →
        other.request.key ≠ executor.request.key
  latest : ∀ (id later : Nat) (executor other : Executor), server.executors[id]? = some executor →
    server.executors[later]? = some other → id < later →
    executor.request.key = other.request.key → executor.isLive = false
  /-- The advisory lock. -/
  locks : server.reserving.Pairwise fun reserving other =>
    reserving.request.key ≠ other.request.key
  idle : ∀ reserving ∈ server.reserving, ∀ executor ∈ server.executors,
    executor.request.key = reserving.request.key → executor.isLive = false

theorem inv_empty : Inv Server.empty where
  keys := List.Pairwise.nil
  owned := by
    intro row hrow
    simp [Server.empty] at hrow
  latest := by
    intro id later executor other hexecutor
    simp [Server.empty] at hexecutor
  locks := List.Pairwise.nil
  idle := by
    intro reserving hmem
    simp [Server.empty] at hmem

/-! ## Preservation -/

theorem executor_of_set {executors : List Executor} {id j : Nat} {new executor : Executor}
    (h : (executors.set id new)[j]? = some executor) :
    (j = id ∧ executor = new) ∨ (j ≠ id ∧ executors[j]? = some executor) := by
  rw [List.getElem?_set] at h
  split at h
  · next heq =>
    split at h
    · exact .inl ⟨heq.symm, (Option.some.inj h).symm⟩
    · simp at h
  · next hne => exact .inr ⟨fun heq => hne heq.symm, h⟩

theorem executor_of_append {executors : List Executor} {j : Nat} {new executor : Executor}
    (h : (executors ++ [new])[j]? = some executor) :
    executors[j]? = some executor ∨ (j = executors.length ∧ executor = new) := by
  rcases Nat.lt_or_ge j executors.length with hlt | hge
  · rw [List.getElem?_append_left hlt] at h
    exact .inl h
  rw [List.getElem?_append_right hge] at h
  have hj : j - executors.length = 0 := by
    have := (List.getElem?_eq_some_iff.mp h).1
    simp only [List.length_singleton] at this
    omega
  rw [hj] at h
  exact .inr ⟨by omega, (Option.some.inj h).symm⟩

variable {request : WorkerRequestReservation} {row : WorkerRequestRow} {server : Server}
  {executor : Executor} {id : Nat} {now : Timestamp}

theorem isReservationOf_iff :
    row.isReservationOf request = true ↔
      row.key = request.key ∧ row.routeKey = request.routeKey
        ∧ row.payloadDigest = request.payloadDigest ∧ row.responseStatus = requestPendingStatus := by
  simp [WorkerRequestRow.isReservationOf, and_assoc]

/-- A running executor is the last one of its identifier. -/
theorem Inv.last_of_live (hinv : Inv server) {id later : Nat}
    {executor other : Executor} (hexecutor : server.executors[id]? = some executor)
    (hlive : executor.isLive = true) (hother : server.executors[later]? = some other)
    (hlt : id < later) : other.request.key ≠ executor.request.key := by
  intro hkey
  have hdead := hinv.latest id later executor other hexecutor hother hlt hkey.symm
  rw [hlive] at hdead
  simp at hdead

/-- The record of an identifier with a live executor belongs to that executor. -/
theorem Inv.owner_of_live (hinv : Inv server)
    (hexecutor : server.executors[id]? = some executor) (hlive : executor.isLive = true)
    (hrow : row ∈ server.rows) (hkey : row.key = executor.request.key) :
    executor.Holds row := by
  rcases hinv.owned row hrow with ⟨owner, other, hother, hholds, hlast⟩
  have hkeys : executor.request.key = other.request.key := hkey.symm.trans hholds.key
  rcases Nat.lt_trichotomy owner id with hlt | heq | hgt
  · exact absurd hkeys (hlast id executor hexecutor hlt)
  · rw [heq, hexecutor] at hother
    rw [Option.some.inj hother]
    exact hholds
  · exact absurd hkeys.symm (hinv.last_of_live hexecutor hlive hother hgt)

/-- No lock is held on an identifier with a running executor. -/
theorem Inv.not_isRowDeleted (hinv : Inv server)
    (hexecutor : server.executors[id]? = some executor)
    (hlive : executor.isLive = true) : server.isRowDeleted executor.request = false := by
  rw [Server.isRowDeleted, List.any_eq_false]
  intro reserving hmem hdeleted
  simp only [Bool.and_eq_true, decide_eq_true_eq] at hdeleted
  have hdead := hinv.idle reserving hmem executor (List.mem_of_getElem? hexecutor)
    hdeleted.2.symm
  rw [hlive] at hdead
  simp at hdead

/-- An executor stops running; what it leaves in the table is its own. -/
theorem inv_stopped (hinv : Inv server) {state : ExecutorState} {rows : List WorkerRequestRow}
    (hexecutor : server.executors[id]? = some { request, state := .running })
    (hkeys : rows.Pairwise fun row row' => row.key ≠ row'.key)
    (hrows : ∀ row ∈ rows, (row ∈ server.rows ∧ row.isReservationOf request = false)
      ∨ Executor.Holds { request, state } row) :
    Inv { server with rows, executors := server.executors.set id { request, state } } where
  keys := hkeys
  owned := by
    intro row hrow
    have hlt : id < server.executors.length := (List.getElem?_eq_some_iff.mp hexecutor).1
    rcases hrows row hrow with ⟨hold, hother⟩ | hholds
    · -- a record that this executor has not reserved keeps its owner
      rcases hinv.owned row hold with ⟨owner, executor, howner, hholds, hlast⟩
      have hne : owner ≠ id := by
        intro heq
        rw [heq, hexecutor] at howner
        rw [← Option.some.inj howner] at hholds
        have hreserved : row.isReservationOf request = true :=
          isReservationOf_iff.mpr
            ⟨hholds.key, hholds.routeKey, hholds.payloadDigest, hholds.response⟩
        rw [hother] at hreserved
        simp at hreserved
      refine ⟨owner, executor, ?_, hholds, ?_⟩
      · show (server.executors.set id _)[owner]? = some executor
        rw [List.getElem?_set_ne (Ne.symm hne)]
        exact howner
      · intro later other hlater hgt
        rcases executor_of_set hlater with ⟨heq, hset⟩ | ⟨_, hlater⟩
        · rw [hset]
          exact hlast id { request, state := .running } hexecutor (heq ▸ hgt)
        · exact hlast later other hlater hgt
    · -- the record is this executor's own
      refine ⟨id, { request, state }, ?_, hholds, ?_⟩
      · show (server.executors.set id _)[id]? = _
        rw [List.getElem?_set_self hlt]
      · intro later other hlater hgt
        rcases executor_of_set hlater with ⟨heq, _⟩ | ⟨_, hlater⟩
        · omega
        · have hlast := hinv.last_of_live hexecutor rfl hlater hgt
          exact hlast
  -- a later executor of the same key would have needed the reservation
  latest := by
    intro j later executor other hj hlater hlt hkey
    rcases executor_of_set hj with ⟨heq, hset⟩ | ⟨_, hj⟩
    · rcases executor_of_set hlater with ⟨heq', _⟩ | ⟨_, hlater⟩
      · omega
      · rw [heq] at hlt
        rw [hset] at hkey
        have hlast := hinv.last_of_live hexecutor rfl hlater hlt
        exact absurd hkey.symm hlast
    · rcases executor_of_set hlater with ⟨heq', hset'⟩ | ⟨_, hlater⟩
      · rw [heq'] at hlt
        rw [hset'] at hkey
        exact hinv.latest j id executor { request, state := .running } hj hexecutor hlt hkey
      · exact hinv.latest j later executor other hj hlater hlt hkey
  locks := hinv.locks
  idle := by
    intro reserving hmem executor hexecutor' hkey
    rcases List.mem_iff_getElem?.mp hexecutor' with ⟨j, hj⟩
    rcases executor_of_set hj with ⟨_, hset⟩ | ⟨_, hj⟩
    · rw [hset] at hkey
      have hdead := hinv.idle reserving hmem _ (List.mem_of_getElem? hexecutor) hkey
      simp [Executor.isLive] at hdead
    · exact hinv.idle reserving hmem executor (List.mem_of_getElem? hj) hkey

theorem inv_reserved (hinv : Inv server) {reserving : Reserving}
    {kept : List WorkerRequestRow} (hmem : reserving ∈ server.reserving)
    (hkept : ∀ row ∈ kept, row ∈ server.rows ∧ row.key ≠ reserving.request.key)
    (hsublist : kept.Sublist server.rows) :
    Inv
      { rows := kept ++ [reserving.request.pendingRow reserving.now]
        reserving := server.reserving.erase reserving
        executors :=
          server.executors ++ [{ request := reserving.request, state := .running }] } where
  keys := by
    rw [List.pairwise_append]
    refine ⟨hinv.keys.sublist hsublist, List.pairwise_singleton _ _, ?_⟩
    intro row hrow row' hrow'
    rw [List.mem_singleton.mp hrow']
    exact (hkept row hrow).2
  owned := by
    intro row hrow
    rcases List.mem_append.mp hrow with hold | hnew
    · rcases hinv.owned row (hkept row hold).1 with ⟨owner, executor, howner, hholds, hlast⟩
      refine ⟨owner, executor, ?_, hholds, ?_⟩
      · show (server.executors ++ _)[owner]? = some executor
        rw [List.getElem?_append_left (List.getElem?_eq_some_iff.mp howner).1]
        exact howner
      · intro later other hlater hgt
        rcases executor_of_append hlater with hlater | ⟨_, hnew⟩
        · exact hlast later other hlater hgt
        · rw [hnew]
          intro hkey
          exact (hkept row hold).2 (hholds.key.trans hkey.symm)
    · rw [List.mem_singleton.mp hnew]
      refine ⟨server.executors.length, { request := reserving.request, state := .running }, ?_,
        ⟨rfl, rfl, rfl, rfl⟩, ?_⟩
      · show (server.executors ++ _)[server.executors.length]? = _
        rw [List.getElem?_append_right (Nat.le_refl _), Nat.sub_self]
        rfl
      · intro later other hlater hgt
        rcases executor_of_append hlater with hlater | ⟨heq, _⟩
        · have := (List.getElem?_eq_some_iff.mp hlater).1
          omega
        · omega
  latest := by
    intro id later executor other hexecutor hother hlt hkey
    rcases executor_of_append hexecutor with hexecutor | ⟨heq, _⟩
    · rcases executor_of_append hother with hother | ⟨_, hnew⟩
      · exact hinv.latest id later executor other hexecutor hother hlt hkey
      · rw [hnew] at hkey
        exact hinv.idle reserving hmem executor (List.mem_of_getElem? hexecutor) hkey
    · rcases executor_of_append hother with hother | ⟨heq', _⟩
      · have := (List.getElem?_eq_some_iff.mp hother).1
        omega
      · omega
  locks := hinv.locks.sublist List.erase_sublist
  idle := by
    intro other hother executor hexecutor hkey
    rcases List.mem_append.mp hexecutor with hexecutor | hnew
    · exact hinv.idle other (List.mem_of_mem_erase hother) executor hexecutor hkey
    -- the lock of this call kept every other call of the identifier out
    rw [List.mem_singleton.mp hnew] at hkey
    have hnodup : server.reserving.Nodup :=
      hinv.locks.imp fun hne heq => hne (congrArg (fun r => r.request.key) heq)
    have hne : other ≠ reserving := (hnodup.mem_erase_iff.mp hother).1
    have hsymm : Std.Symm fun a b : Reserving => a.request.key ≠ b.request.key :=
      ⟨fun a b h => Ne.symm h⟩
    have hdiffer := hinv.locks.forall
      (List.mem_of_mem_erase hother) hmem hne
    exact absurd hkey.symm hdiffer

theorem countP_isReservationOf (hinv : Inv server)
    (request : WorkerRequestReservation) (hrow : row ∈ server.rows)
    (hreserved : row.isReservationOf request = true) :
    server.rows.countP (WorkerRequestRow.isReservationOf request) = 1 := by
  rcases List.append_of_mem hrow with ⟨before, after, hsplit⟩
  have hkeys := hinv.keys
  rw [hsplit, List.pairwise_append, List.pairwise_cons] at hkeys
  have hnone : ∀ other ∈ before ++ after,
      ¬ WorkerRequestRow.isReservationOf request other = true := by
    intro other hother hres
    have hkey : other.key = row.key :=
      (isReservationOf_iff.mp hres).1.trans (isReservationOf_iff.mp hreserved).1.symm
    rcases List.mem_append.mp hother with hbefore | hafter
    · exact hkeys.2.2 other hbefore row List.mem_cons_self hkey
    · exact hkeys.2.1.1 other hafter hkey.symm
  have hzero := List.countP_eq_zero.mpr hnone
  rw [List.countP_append] at hzero
  rw [hsplit, List.countP_append, List.countP_cons, hreserved]
  simp only [if_true]
  omega

theorem inv_settled (hinv : Inv server) {result : MutationResult}
    (hexecutor : server.executors[id]? = some { request, state := .running }) :
    Inv
      { server with
        rows := (settle server.rows request now result).1
        executors :=
          server.executors.set id
            { request, state := settledState result (settle server.rows request now result).2 } } := by
  cases hresponse : storedResponse result with
  | none =>
    -- nothing to store: the reservation is dropped
    refine inv_stopped hinv hexecutor ?_ ?_
    · simp only [settle, hresponse, abort]
      exact hinv.keys.sublist List.filter_sublist
    · intro row hrow
      simp only [settle, hresponse, abort, List.mem_filter, Bool.not_eq_true'] at hrow
      exact .inl hrow
  | some response =>
    -- the response is stored in the row that was reserved
    refine inv_stopped hinv hexecutor ?_ ?_
    · simp only [settle, hresponse, finish]
      have hcolumn : (updateWhere (WorkerRequestRow.isReservationOf request)
            (fun row => row.answered now response.status response.body) server.rows).map
              WorkerRequestRow.key = server.rows.map WorkerRequestRow.key := by
        apply map_updateWhere
        intro row _
        rfl
      have hkeys := List.pairwise_map.mpr hinv.keys
      rw [← hcolumn] at hkeys
      exact List.pairwise_map.mp hkeys
    · intro row hrow
      simp only [settle, hresponse, finish] at hrow
      rcases mem_updateWhere.mp hrow with ⟨old, hold, ⟨hreserved, hset⟩ | ⟨hother, heq⟩⟩
      · right
        have hone : (settle server.rows request now result).2 = 1 := by
          simp only [settle, hresponse, finish]
          exact countP_isReservationOf hinv request hold hreserved
        have hcolumns := isReservationOf_iff.mp hreserved
        have hstate : settledState result 1 = .finished response := by
          simp [settledState, hresponse]
        rw [hset, hone, hstate]
        exact ⟨hcolumns.1, hcolumns.2.1, hcolumns.2.2.1, rfl, rfl,
          storedResponse_ne_pending hresponse⟩
      · rw [heq]
        exact .inl ⟨hold, hother⟩

/-- What a call that may execute found: no record, or one that has expired. -/
theorem expired_of_lookUp {existing : Option WorkerRequestRow} {deletesExpired : Bool}
    (h : lookUp existing request now = .execute deletesExpired)
    (hrow : existing = some row) : row.expiresAt ≤ now := by
  rw [hrow] at h
  simp only [lookUp] at h
  split at h
  · next hexpired => exact hexpired
  split at h
  · simp at h
  · split at h
    · simp at h
    · split at h <;> simp at h

theorem inv_called (hinv : Inv server)
    {deletesExpired : Bool} (hmeets : Meets server (.call request now))
    (hlock : ∀ reserving ∈ server.reserving, reserving.request.key ≠ request.key)
    (hcall : server.call request now = .execute deletesExpired) :
    Inv
      { server with
        reserving := { request, now, deletesExpired, deleted := false } :: server.reserving } where
  keys := hinv.keys
  owned := hinv.owned
  latest := hinv.latest
  locks := by
    refine List.pairwise_cons.mpr ⟨?_, hinv.locks⟩
    intro other hother
    exact (hlock other hother).symm
  idle := by
    intro reserving hmem executor hexecutor hkey
    rcases List.mem_cons.mp hmem with hnew | hold
    · rw [hnew] at hkey
      cases hlive : executor.isLive with
      | false => rfl
      | true =>
        rcases hmeets ⟨executor, hexecutor, hkey, hlive⟩ with ⟨row, hrow, hunexpired⟩
        exact absurd (expired_of_lookUp hcall hrow) (Int.not_le.mpr hunexpired)
    · exact hinv.idle reserving hold executor hexecutor hkey

theorem step_inv {server server' : Server} {action : Action} (hinv : Inv server)
    (hmeets : Meets server action) (hstep : ServerStep server action server') : Inv server' := by
  cases hstep with
  | answered => exact hinv
  | called hlock hcall => exact inv_called hinv hmeets hlock hcall
  | @deletedExpired reserving hmem _ =>
    have hperm := List.perm_cons_erase hmem
    have hlocks := (hperm.pairwise_iff fun h => Ne.symm h).mp hinv.locks
    refine ⟨hinv.keys, hinv.owned, hinv.latest, ?_, ?_⟩
    · rw [List.pairwise_cons] at hlocks ⊢
      exact hlocks
    · intro other hother executor hexecutor hkey
      rcases List.mem_cons.mp hother with hnew | hold
      · rw [hnew] at hkey
        exact hinv.idle reserving hmem executor hexecutor hkey
      · exact hinv.idle other (List.mem_of_mem_erase hold) executor hexecutor hkey
  | reserved hmem hkept hsublist => exact inv_reserved hinv hmem hkept hsublist
  | rolledBack hmem =>
    refine ⟨hinv.keys, hinv.owned, hinv.latest, hinv.locks.sublist List.erase_sublist, ?_⟩
    intro other hother
    exact hinv.idle other (List.mem_of_mem_erase hother)
  | waited hexecutor hdeleted =>
    have hfree := hinv.not_isRowDeleted hexecutor rfl
    rw [hfree] at hdeleted
    simp at hdeleted
  | settled hexecutor => exact inv_settled hinv hexecutor
  | @crashed id request hexecutor =>
    refine inv_stopped hinv hexecutor hinv.keys ?_
    intro row hrow
    cases hreserved : row.isReservationOf request with
    | false => exact .inl ⟨hrow, rfl⟩
    | true =>
      have hcolumns := isReservationOf_iff.mp hreserved
      exact .inr ⟨hcolumns.1, hcolumns.2.1, hcolumns.2.2.1, hcolumns.2.2.2⟩
  | purged =>
    refine ⟨hinv.keys.sublist List.filter_sublist, ?_, hinv.latest, hinv.locks, hinv.idle⟩
    intro row hrow
    exact hinv.owned row (List.mem_of_mem_filter hrow)

/-! ## What a call is answered -/

theorem find?_mem
    (h : server.find? request = some row) : row ∈ server.rows ∧ row.key = request.key :=
  ⟨List.mem_of_find?_eq_some h, by simpa using List.find?_some h⟩

/-- A call that meets the condition finds the record of the live executor. -/
theorem Inv.lookUp_live (hinv : Inv server)
    (hexecutor : server.executors[id]? = some executor) (hlive : executor.isLive = true)
    (hkey : executor.request.key = request.key) (hmeets : Meets server (.call request now)) :
    ∃ row, server.call request now = lookUp (some row) request now
      ∧ now < row.expiresAt ∧ executor.Holds row := by
  rcases hmeets ⟨executor, List.mem_of_getElem? hexecutor, hkey, hlive⟩ with
    ⟨row, hrow, hunexpired⟩
  rcases find?_mem hrow with ⟨hmem, hrowKey⟩
  refine ⟨row, ?_, hunexpired, hinv.owner_of_live hexecutor hlive hmem (hrowKey.trans hkey.symm)⟩
  rw [Server.call, hrow]

/-- The mutation of the request is the one that the executor was given. -/
def WorkerRequestReservation.sameMutation (request other : WorkerRequestReservation) : Bool :=
  request.routeKey = other.routeKey && request.payloadDigest = other.payloadDigest

theorem lookUp_held (hunexpired : now < row.expiresAt) (hholds : executor.Holds row) :
    lookUp (some row) request now =
      if executor.request.sameMutation request then
        if row.responseStatus = requestPendingStatus then .inProgress
        else if 0 ≤ row.responseStatus ∧ row.responseStatus < 2 ^ 16 then
          .replay { status := .ofNat row.responseStatus.toNat, body := row.responseBody }
        else .invalidStatus
      else .conflict := by
  have hnot : ¬ row.expiresAt ≤ now := Int.not_le.mpr hunexpired
  simp only [lookUp, hnot, if_false, hholds.routeKey, hholds.payloadDigest,
    WorkerRequestReservation.sameMutation]
  by_cases hroute : executor.request.routeKey = request.routeKey
  · by_cases hdigest : executor.request.payloadDigest = request.payloadDigest
    · simp [hroute, hdigest]
    · simp [hroute, hdigest]
  · simp [hroute]

theorem Inv.call_running (hinv : Inv server)
    (hexecutor : server.executors[id]? = some executor) (hrunning : executor.state = .running)
    (hkey : executor.request.key = request.key) (hmeets : Meets server (.call request now)) :
    server.call request now
      = if executor.request.sameMutation request then .inProgress else .conflict := by
  have hlive : executor.isLive = true := by simp [Executor.isLive, hrunning]
  rcases hinv.lookUp_live hexecutor hlive hkey hmeets with ⟨row, hcall, hunexpired, hholds⟩
  have hresponse := hholds.response
  rw [hrunning] at hresponse
  rw [hcall, lookUp_held hunexpired hholds, if_pos hresponse]

theorem Inv.call_finished (hinv : Inv server) {response : StoredWorkerResponse}
    (hexecutor : server.executors[id]? = some executor)
    (hfinished : executor.state = .finished response)
    (hkey : executor.request.key = request.key) (hmeets : Meets server (.call request now)) :
    server.call request now
      = if executor.request.sameMutation request then .replay response else .conflict := by
  have hlive : executor.isLive = true := by simp [Executor.isLive, hfinished]
  rcases hinv.lookUp_live hexecutor hlive hkey hmeets with ⟨row, hcall, hunexpired, hholds⟩
  have hresponse := hholds.response
  rw [hfinished] at hresponse
  rcases hresponse with ⟨hstatus, hbody, hne⟩
  have hrange : 0 ≤ row.responseStatus ∧ row.responseStatus < 2 ^ 16 := by
    have := response.status.toNat_lt
    rw [hstatus]
    omega
  have hstored : UInt16.ofNat row.responseStatus.toNat = response.status := by
    rw [hstatus, Int.toNat_natCast, UInt16.ofNat_toNat]
  rw [hcall, lookUp_held hunexpired hholds, if_neg hne, if_pos hrange, hstored, hbody]

/-- Along a run whose calls find the record of every mutation that is running or
answered, one executor at a time carries a request out; calls are answered with
what it stored, or with a conflict; an executor that was taken over settles
nothing. -/
theorem replay_at_most_once {server : Server} {actions : List Action}
    (hrun : Run (Guarded Meets fun s a t => step s a = some t) Server.empty actions server) :
    (∀ (i j : Nat) (executor other : Executor), server.executors[i]? = some executor →
      server.executors[j]? = some other → i ≠ j → executor.request.key = other.request.key →
      ¬ (executor.state = .running ∧ other.state = .running))
    ∧ (∀ (i : Nat) (executor : Executor) (request : WorkerRequestReservation) (now : Timestamp),
      server.executors[i]? = some executor → executor.request.key = request.key →
      Meets server (.call request now) →
      (∀ response, executor.state = .finished response →
        server.call request now
          = if executor.request.sameMutation request then .replay response else .conflict)
      ∧ (executor.state = .running →
        server.call request now
          = if executor.request.sameMutation request then .inProgress else .conflict))
    ∧ (∀ (i j : Nat) (executor other : Executor), server.executors[i]? = some executor →
      server.executors[j]? = some other → i < j → executor.request.key = other.request.key →
      ∀ now result server', step server (.settle i now result) = some server' →
        server'.rows = server.rows) := by
  have hinv : Inv server :=
    hrun.invariant_of_guard
      (fun s a t hinv hmeets hstep => step_inv hinv hmeets (serverStep_of_eq hstep)) inv_empty
  refine ⟨?_, ?_, ?_⟩
  · intro i j executor other hi hj hne hkey hboth
    rcases Nat.lt_or_gt_of_ne hne with hlt | hgt
    · have hdead := hinv.latest i j executor other hi hj hlt hkey
      simp [Executor.isLive, hboth.1] at hdead
    · have hdead := hinv.latest j i other executor hj hi hgt hkey.symm
      simp [Executor.isLive, hboth.2] at hdead
  · intro i executor request now hexecutor hkey hmeets
    constructor
    · intro response hfinished
      exact hinv.call_finished hexecutor hfinished hkey hmeets
    · intro hrunning
      exact hinv.call_running hexecutor hrunning hkey hmeets
  · intro i j executor other hi hj hlt hkey now result server' hstep
    -- it does not run any more: its own retry was told that it is in progress
    have hdead := hinv.latest i j executor other hi hj hlt hkey
    cases serverStep_of_eq hstep with
    | waited => rfl
    | settled hexecutor =>
      rw [hi] at hexecutor
      rw [Option.some.inj hexecutor] at hdead
      simp [Executor.isLive] at hdead

def claimRequest : WorkerRequestReservation where
  workerIdentity := ['w']
  requestId := 7
  routeKey := ['c', 'l', 'a', 'i', 'm']
  payloadDigest := [1]

def noContent : MutationResult := .ok { status := .noContent, body := none }

/-- A mutation is reserved, carried out and answered; a retry and a purge follow. -/
def answeredRun : List Action :=
  [.call claimRequest 0,
    .reserve { request := claimRequest, now := 0, deletesExpired := false, deleted := false },
    .call claimRequest 5, .settle 0 20 noContent, .call claimRequest 700, .purge 700]

theorem answeredRun_replays :
    ∃ server, Run (Guarded Meets fun s a t => step s a = some t) Server.empty answeredRun server
      ∧ server.call claimRequest 900 = .replay { status := 204, body := none }
      ∧ server.call { claimRequest with payloadDigest := [2] } 900 = .conflict := by
  let server := (exec (fun s a => if Meets s a then step s a else none) Server.empty
    answeredRun).getD Server.empty
  have hexec : exec (fun s a => if Meets s a then step s a else none) Server.empty answeredRun
      = some server := eq_some_getD (by decide +kernel) _
  have hrun : Run (Guarded Meets fun s a t => step s a = some t) Server.empty answeredRun
      server := exec_guarded_run hexec
  have hanswers := (replay_at_most_once hrun).2.1 0
    { request := claimRequest, state := .finished { status := 204, body := none } }
  have hexecutor : server.executors[0]?
      = some { request := claimRequest, state := .finished { status := 204, body := none } } := by
    decide +kernel
  have hmeets : Meets server (.call claimRequest 900) := by decide +kernel
  refine ⟨server, hrun, ?_, ?_⟩
  · exact (hanswers claimRequest 900 hexecutor rfl hmeets).1 _ rfl
  · exact (hanswers { claimRequest with payloadDigest := [2] } 900 hexecutor rfl hmeets).1 _ rfl

/-- The mutation outlasts its reservation and a retry takes the request over. -/
def takenOverRun : List Action :=
  [.call claimRequest 0,
    .reserve { request := claimRequest, now := 0, deletesExpired := false, deleted := false },
    .call claimRequest 600,
    .deleteExpired { request := claimRequest, now := 600, deletesExpired := true, deleted := false },
    .reserve { request := claimRequest, now := 600, deletesExpired := true, deleted := true }]

/-- Two executors run the one mutation, and the first of them answers the second
one's reservation. -/
theorem takenOver_finishes :
    ∃ server server', exec step Server.empty takenOverRun = some server
      ∧ server.executors = [{ request := claimRequest, state := .running },
          { request := claimRequest, state := .running }]
      ∧ step server (.settle 0 610 noContent) = some server'
      ∧ server.rows = [claimRequest.pendingRow 600]
      ∧ server'.rows ≠ server.rows := by
  refine ⟨(exec step Server.empty takenOverRun).getD Server.empty,
    ((exec step Server.empty takenOverRun).bind fun s => step s (.settle 0 610 noContent)).getD
      Server.empty, ?_, ?_, ?_, ?_, ?_⟩
  · decide +kernel
  · decide +kernel
  · decide +kernel
  · decide +kernel
  · decide +kernel

end Toss.Processing.WorkerRequests
