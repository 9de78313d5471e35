import Toss.Foundation.Run
import Toss.Foundation.Table

/-!
# Transactions over shared tables

Clients that run transactions over the same tables, statement by statement. A statement sees
what is committed when it executes, waits for the locks it needs, and leaves its writes with
the transaction; a commit makes them visible and lets the locks go, a rollback drops both.
Nothing here knows the tables, the statements or what is locked.

* `TransactionSystem` — what a statement does and what a write means;
* `TransactionSystem.step` — one statement, commit or rollback of one client;
* `step_cases` — everything a step can do;
* `Inductive.step`, `Inductive.run` — an invariant of the tables and of each client, from what
  a client's own statements do to it and what the commits of others do.
-/

namespace Toss.Foundation

/-! ## Locks -/

inductive LockMode
  | shared
  | exclusive
deriving DecidableEq, Repr

/-- Only shared locks go together. -/
def LockMode.conflicts : LockMode → LockMode → Bool
  | .shared, .shared => false
  | _, _ => true

theorem LockMode.conflicts_comm (a b : LockMode) : a.conflicts b = b.conflicts a := by
  cases a <;> cases b <;> rfl

@[simp] theorem LockMode.conflicts_exclusive (a : LockMode) : a.conflicts .exclusive = true := by
  cases a <;> rfl

structure Lock (κ : Type*) where
  key : κ
  mode : LockMode
deriving DecidableEq, Repr

/-! ## Systems -/

/-- What comes of a statement: it takes locks, writes and goes on, or the transaction is rolled
back and the client goes on elsewhere or ends. -/
inductive Outcome (κ ω ν : Type*)
  | done (locks : List (Lock κ)) (writes : List ω) (next : ν)
  | rollback (next : Option ν)
deriving DecidableEq, Repr

/-- `τ` tables, `γ` commands, `κ` keys that are locked, `ω` writes, `ν` places in a client's
program, `χ` choices the program leaves open. -/
structure TransactionSystem (τ γ κ ω ν χ : Type*) where
  start : γ → Option ν
  execute : τ → χ → ν → Outcome κ ω ν
  /-- At a commit: where the client goes on after it, if it does. -/
  afterCommit : ν → Option (Option ν)
  apply : ω → τ → τ

structure Client (κ ω ν : Type*) where
  id : Nat
  locks : List (Lock κ)
  writes : List ω
  next : ν
deriving DecidableEq, Repr

/-- A client at the first statement of a transaction. -/
def Client.fresh {κ ω ν : Type*} (id : Nat) (next : ν) : Client κ ω ν := ⟨id, [], [], next⟩

structure TransactionWorld (τ κ ω ν : Type*) where
  /-- What is committed. -/
  tables : τ
  clients : List (Client κ ω ν)
deriving DecidableEq, Repr

inductive TransactionAction (γ χ : Type*)
  | start (client : Nat) (command : γ)
  | execute (client : Nat) (choice : χ)
  | commit (client : Nat)
  | abort (client : Nat)
deriving DecidableEq, Repr

section

variable {τ γ κ ω ν χ : Type*}

namespace TransactionWorld

/-- The client's transaction is over. -/
def restart (clients : List (Client κ ω ν)) (id : Nat) : Option ν → List (Client κ ω ν)
  | none => clients.filter (·.id ≠ id)
  | some next => updateWhere (·.id = id) (fun client => .fresh client.id next) clients

end TransactionWorld

namespace TransactionSystem

/-- The locks of two clients do not conflict. -/
def Compatible (a b : Client κ ω ν) : Prop :=
  ∀ lock ∈ a.locks, ∀ held ∈ b.locks, held.key = lock.key → held.mode.conflicts lock.mode = false

variable {a b : Client κ ω ν} {clients : List (Client κ ω ν)} {tables : τ}

theorem Compatible.symm (h : Compatible a b) : Compatible b a := by
  intro lock hlock held hheld hkey
  rw [LockMode.conflicts_comm]
  exact h held hheld lock hlock hkey.symm

/-- Two clients do not both hold a lock exclusively. -/
theorem Compatible.not_exclusive (h : Compatible a b) {key : κ}
    (ha : ⟨key, .exclusive⟩ ∈ a.locks) {mode : LockMode} (hb : ⟨key, mode⟩ ∈ b.locks) :
    False := by
  have hnot := h _ ha _ hb rfl
  simp at hnot

/-- Clients are told by their ids, and no two of them hold conflicting locks. -/
structure Separate (clients : List (Client κ ω ν)) : Prop where
  nodup : (clients.map (·.id)).Nodup
  compatible : ∀ a ∈ clients, ∀ b ∈ clients, a.id ≠ b.id → Compatible a b

theorem Separate.eq_of_id (h : Separate clients)
    (ha : a ∈ clients) (hb : b ∈ clients) (hid : a.id = b.id) : a = b :=
  List.inj_on_of_nodup_map h.nodup ha hb hid

theorem mem_restart {id : Nat} {next : Option ν}
    {client : Client κ ω ν} (h : client ∈ TransactionWorld.restart clients id next) :
    (client ∈ clients ∧ client.id ≠ id)
      ∨ ∃ rest, next = some rest ∧ client = .fresh id rest ∧ ∃ old ∈ clients, old.id = id := by
  cases next with
  | none =>
    rcases List.mem_filter.mp h with ⟨hmem, hid⟩
    exact .inl ⟨hmem, of_decide_eq_true hid⟩
  | some rest =>
    rcases mem_updateWhere.mp h with ⟨old, hold, ⟨hid, rfl⟩ | ⟨hid, rfl⟩⟩
    · have hsame : old.id = id := of_decide_eq_true hid
      exact .inr ⟨rest, rfl, by rw [hsame], old, hold, hsame⟩
    · exact .inl ⟨hold, of_decide_eq_false hid⟩

theorem map_id_updateWhere {cond : Client κ ω ν → Bool} {set : Client κ ω ν → Client κ ω ν}
    (hset : ∀ client, (set client).id = client.id) (clients : List (Client κ ω ν)) :
    (updateWhere cond set clients).map (·.id) = clients.map (·.id) :=
  map_updateWhere (fun client _ => hset client) clients

theorem Separate.restart (h : Separate clients) (id : Nat)
    (next : Option ν) : Separate (TransactionWorld.restart clients id next) := by
  constructor
  · cases next with
    | none => exact h.nodup.sublist (List.filter_sublist.map _)
    | some rest =>
      rw [TransactionWorld.restart, map_id_updateWhere]
      · exact h.nodup
      · intro client
        rfl
  · intro a ha b hb hne
    rcases mem_restart ha with ⟨holda, -⟩ | ⟨rest, -, rfl, -⟩
    · rcases mem_restart hb with ⟨holdb, -⟩ | ⟨rest, -, rfl, -⟩
      · exact h.compatible a holda b holdb hne
      · intro lock _ held hheld
        exact absurd hheld List.not_mem_nil
    · intro lock hlock
      exact absurd hlock List.not_mem_nil

/-! ## Invariants -/

variable (system : TransactionSystem τ γ κ ω ν χ)

/-- The tables with the writes of a transaction, the first of them first. -/
def applyAll (writes : List ω) (tables : τ) : τ :=
  writes.foldl (fun tables write => system.apply write tables) tables

/-- An invariant of the tables and of each client that its own statements keep and the commits
of others, as far as the locks and `allowed` let them, do not disturb. -/
structure Inductive (allowed : τ → Client κ ω ν → Client κ ω ν → Prop) (inv : τ → Prop)
    (sound : τ → Client κ ω ν → Prop) : Prop where
  start : ∀ {tables command next id}, inv tables → system.start command = some next →
    sound tables (.fresh id next)
  done : ∀ {tables client choice locks writes next}, inv tables → sound tables client →
    system.afterCommit client.next = none →
    system.execute tables choice client.next = .done locks writes next →
    sound tables { client with
      locks := client.locks ++ locks, writes := client.writes ++ writes, next }
  rollback : ∀ {tables client choice next}, inv tables → sound tables client →
    system.afterCommit client.next = none →
    system.execute tables choice client.next = .rollback (some next) →
    sound tables (.fresh client.id next)
  commit : ∀ {tables client next}, inv tables → sound tables client →
    system.afterCommit client.next = some next → inv (system.applyAll client.writes tables)
  restart : ∀ {tables client next}, inv tables → sound tables client →
    system.afterCommit client.next = some (some next) →
    sound (system.applyAll client.writes tables) (.fresh client.id next)
  frame : ∀ {tables client other next}, inv tables → sound tables client → sound tables other →
    Compatible client other → allowed tables client other →
    system.afterCommit client.next = some next →
    sound (system.applyAll client.writes tables) other

/-- A client commits only where it is allowed to beside each of the others. -/
def CommitsAllowed (allowed : τ → Client κ ω ν → Client κ ω ν → Prop)
    (world : TransactionWorld τ κ ω ν) : TransactionAction γ χ → Prop
  | .commit id => ∀ client ∈ world.clients, client.id = id → ∀ other ∈ world.clients,
      other.id ≠ id → allowed world.tables client other
  | _ => True

/-- The invariant of a world. -/
structure Holds (inv : τ → Prop) (sound : τ → Client κ ω ν → Prop)
    (world : TransactionWorld τ κ ω ν) : Prop where
  separate : Separate world.clients
  tables : inv world.tables
  clients : ∀ client ∈ world.clients, sound world.tables client

variable {system} {allowed : τ → Client κ ω ν → Client κ ω ν → Prop} {inv : τ → Prop}
  {sound : τ → Client κ ω ν → Prop}

/-- At first no client is there. -/
theorem Holds.init (h : inv tables) : Holds inv sound ⟨tables, []⟩ where
  separate := ⟨List.nodup_nil, fun _ ha => absurd ha List.not_mem_nil⟩
  tables := h
  clients := fun _ hclient => absurd hclient List.not_mem_nil

/-- What no write disturbs, no commit disturbs. -/
theorem applyAll_of_apply (inv : τ → Prop) {writes : List ω}
    (happly : ∀ write ∈ writes, ∀ tables, inv tables → inv (system.apply write tables))
    (h : inv tables) : inv (system.applyAll writes tables) := by
  induction writes generalizing tables with
  | nil => exact h
  | cons write writes ih =>
    exact ih (fun later hlater => happly later (List.mem_cons_of_mem _ hlater))
      (happly write List.mem_cons_self tables h)

/-- What no write changes, a transaction does not change. -/
theorem applyAll_same {α : Type*} (view : τ → α) {writes : List ω}
    (happly : ∀ write ∈ writes, ∀ tables, view (system.apply write tables) = view tables) :
    view (system.applyAll writes tables) = view tables :=
  applyAll_of_apply (fun other => view other = view tables)
    (fun write hwrite other h => (happly write hwrite other).trans h) rfl

end TransactionSystem

/-! ## Steps -/

variable [DecidableEq κ]

namespace TransactionWorld

/-- No other client holds a lock in the way of this one. -/
def grants (world : TransactionWorld τ κ ω ν) (id : Nat) (lock : Lock κ) : Bool :=
  world.clients.all fun other => other.id = id
    || other.locks.all fun held => !(held.key = lock.key && held.mode.conflicts lock.mode)

end TransactionWorld

namespace TransactionSystem

variable (system : TransactionSystem τ γ κ ω ν χ)

def step (world : TransactionWorld τ κ ω ν) :
    TransactionAction γ χ → Option (TransactionWorld τ κ ω ν)
  | .start id command =>
    if world.clients.any (·.id = id) then none
    else (system.start command).map fun next =>
      { world with clients := world.clients ++ [.fresh id next] }
  | .execute id choice =>
    (world.clients.find? (·.id = id)).bind fun client =>
      match system.afterCommit client.next, system.execute world.tables choice client.next with
      | some _, _ => none
      | none, .rollback next =>
        some { world with clients := TransactionWorld.restart world.clients id next }
      | none, .done locks writes next =>
        if locks.all (world.grants id) then
          some { world with
            clients := updateWhere (·.id = id)
              (fun client => { client with
                locks := client.locks ++ locks, writes := client.writes ++ writes, next })
              world.clients }
        else none
  | .commit id =>
    (world.clients.find? (·.id = id)).bind fun client =>
      (system.afterCommit client.next).map fun next =>
        { tables := system.applyAll client.writes world.tables
          clients := TransactionWorld.restart world.clients id next }
  | .abort id => some { world with clients := TransactionWorld.restart world.clients id none }

/-! ## What a step does -/

/-- Everything a step can do. -/
inductive Stepped (world : TransactionWorld τ κ ω ν) :
    TransactionAction γ χ → TransactionWorld τ κ ω ν → Prop
  | start {id : Nat} {command : γ} {next : ν}
      (hfresh : ∀ client ∈ world.clients, client.id ≠ id)
      (hstart : system.start command = some next) :
      Stepped world (.start id command)
        { world with clients := world.clients ++ [.fresh id next] }
  | done {choice : χ} {client : Client κ ω ν} {locks : List (Lock κ)} {writes : List ω} {next : ν}
      (hclient : client ∈ world.clients) (hcommit : system.afterCommit client.next = none)
      (hexecute : system.execute world.tables choice client.next = .done locks writes next)
      (hgrants : ∀ lock ∈ locks, world.grants client.id lock = true) :
      Stepped world (.execute client.id choice)
        { world with
          clients := updateWhere (·.id = client.id)
            (fun client => { client with
              locks := client.locks ++ locks, writes := client.writes ++ writes, next })
            world.clients }
  | rollback {choice : χ} {client : Client κ ω ν} {next : Option ν}
      (hclient : client ∈ world.clients) (hcommit : system.afterCommit client.next = none)
      (hexecute : system.execute world.tables choice client.next = .rollback next) :
      Stepped world (.execute client.id choice)
        { world with clients := TransactionWorld.restart world.clients client.id next }
  | commit {client : Client κ ω ν} {next : Option ν}
      (hclient : client ∈ world.clients) (hcommit : system.afterCommit client.next = some next) :
      Stepped world (.commit client.id)
        { tables := system.applyAll client.writes world.tables
          clients := TransactionWorld.restart world.clients client.id next }
  | abort {id : Nat} :
      Stepped world (.abort id)
        { world with clients := TransactionWorld.restart world.clients id none }

variable {world world' : TransactionWorld τ κ ω ν} {action : TransactionAction γ χ}

theorem step_cases
    (h : system.step world action = some world') : system.Stepped world action world' := by
  cases action with
  | start id command =>
    simp only [step] at h
    split at h
    · cases h
    rename_i hfresh
    rcases Option.map_eq_some_iff.mp h with ⟨next, hstart, rfl⟩
    refine .start ?_ hstart
    intro client hclient heq
    exact hfresh (List.any_eq_true.mpr ⟨client, hclient, decide_eq_true heq⟩)
  | execute id choice =>
    rcases Option.bind_eq_some_iff.mp h with ⟨client, hfound, hrest⟩
    have hclient := List.mem_of_find?_eq_some hfound
    have hid := List.find?_some hfound
    simp only [decide_eq_true_eq] at hid
    rcases hid with rfl
    split at hrest
    · cases hrest
    · next hcommit hexecute =>
      cases hrest
      exact .rollback hclient hcommit hexecute
    rename_i hcommit hexecute
    split at hrest
    · next hgrants =>
      cases hrest
      exact .done hclient hcommit hexecute (List.all_eq_true.mp hgrants)
    · cases hrest
  | commit id =>
    rcases Option.bind_eq_some_iff.mp h with ⟨client, hfound, hrest⟩
    have hclient := List.mem_of_find?_eq_some hfound
    have hid := List.find?_some hfound
    simp only [decide_eq_true_eq] at hid
    rcases hid with rfl
    rcases Option.map_eq_some_iff.mp hrest with ⟨next, hcommit, rfl⟩
    exact .commit hclient hcommit
  | abort id =>
    cases h
    exact .abort

theorem grants_iff {world : TransactionWorld τ κ ω ν} {id : Nat} {lock : Lock κ} :
    world.grants id lock = true ↔ ∀ other ∈ world.clients, other.id ≠ id →
      ∀ held ∈ other.locks, held.key = lock.key → held.mode.conflicts lock.mode = false := by
  simp only [TransactionWorld.grants, List.all_eq_true, Bool.or_eq_true, decide_eq_true_eq,
    Bool.not_eq_true', Bool.and_eq_false_iff, decide_eq_false_iff_not]
  constructor
  · intro h other hother hne held hheld hkey
    rcases h other hother with hid | hall
    · exact absurd hid hne
    · rcases hall held hheld with hnot | hfalse
      · exact absurd hkey hnot
      · exact hfalse
  · intro h other hother
    by_cases hid : other.id = id
    · exact .inl hid
    refine .inr fun held hheld => ?_
    by_cases hkey : held.key = lock.key
    · exact .inr (h other hother hid held hheld hkey)
    · exact .inl hkey

variable {system} {allowed : τ → Client κ ω ν → Client κ ω ν → Prop} {inv : τ → Prop}
  {sound : τ → Client κ ω ν → Prop}

theorem Inductive.step (hind : system.Inductive allowed inv sound)
    (h : Holds inv sound world) (hallowed : CommitsAllowed allowed world action)
    (hstep : system.step world action = some world') : Holds inv sound world' := by
  cases system.step_cases hstep with
  | @start id command next hfresh hstart =>
    refine ⟨⟨?_, ?_⟩, h.tables, ?_⟩
    · rw [List.map_append, List.map_singleton, List.nodup_append]
      refine ⟨h.separate.nodup, List.nodup_singleton _, ?_⟩
      intro a ha b hb
      rcases List.mem_map.mp ha with ⟨client, hclient, rfl⟩
      rcases List.mem_singleton.mp hb with rfl
      exact hfresh client hclient
    · -- a new client holds no lock
      intro a ha b hb hne lock hlock held hheld hkey
      rcases List.mem_append.mp ha with hold | hnew
      · rcases List.mem_append.mp hb with hold' | hnew'
        · exact h.separate.compatible a hold b hold' hne lock hlock held hheld hkey
        · rcases List.mem_singleton.mp hnew' with rfl
          exact absurd hheld List.not_mem_nil
      · rcases List.mem_singleton.mp hnew with rfl
        exact absurd hlock List.not_mem_nil
    · intro client hclient
      rcases List.mem_append.mp hclient with hold | hnew
      · exact h.clients client hold
      · rcases List.mem_singleton.mp hnew with rfl
        exact hind.start h.tables hstart
  | @done choice client locks writes next hclient hcommit hexecute hgrants =>
    -- the members of the new list: the client after its statement, and the others
    have hmem : ∀ {other : Client κ ω ν}, other ∈ updateWhere (·.id = client.id)
        (fun client => { client with
          locks := client.locks ++ locks, writes := client.writes ++ writes, next })
        world.clients →
        other = { client with
          locks := client.locks ++ locks, writes := client.writes ++ writes, next }
        ∨ (other ∈ world.clients ∧ other.id ≠ client.id) := by
      intro other hother
      rcases mem_updateWhere.mp hother with ⟨old, hold, ⟨hid, rfl⟩ | ⟨hid, rfl⟩⟩
      · rw [h.separate.eq_of_id hold hclient (of_decide_eq_true hid)]
        exact .inl rfl
      · exact .inr ⟨hold, of_decide_eq_false hid⟩
    have hcompatible : ∀ other ∈ world.clients, other.id ≠ client.id →
        Compatible { client with
          locks := client.locks ++ locks, writes := client.writes ++ writes, next } other := by
      intro other hother hne lock hlock held hheld hkey
      rcases List.mem_append.mp hlock with hold | hnew
      · exact h.separate.compatible client hclient other hother (Ne.symm hne) lock hold held
          hheld hkey
      · exact grants_iff.mp (hgrants lock hnew) other hother hne held hheld hkey
    refine ⟨⟨?_, ?_⟩, h.tables, ?_⟩
    · rw [map_id_updateWhere]
      · exact h.separate.nodup
      · intro client
        rfl
    · intro a ha b hb hne
      rcases hmem ha with rfl | ⟨holda, hida⟩
      · rcases hmem hb with rfl | ⟨holdb, hidb⟩
        · exact absurd rfl hne
        · exact hcompatible b holdb hidb
      · rcases hmem hb with rfl | ⟨holdb, hidb⟩
        · exact (hcompatible a holda hida).symm
        · exact h.separate.compatible a holda b holdb hne
    · intro other hother
      rcases hmem hother with rfl | ⟨hold, -⟩
      · exact hind.done h.tables (h.clients client hclient) hcommit hexecute
      · exact h.clients other hold
  | @rollback choice client next hclient hcommit hexecute =>
    refine ⟨h.separate.restart _ _, h.tables, ?_⟩
    intro other hother
    rcases mem_restart hother with ⟨hold, -⟩ | ⟨rest, rfl, rfl, -⟩
    · exact h.clients other hold
    · exact hind.rollback h.tables (h.clients client hclient) hcommit hexecute
  | @commit client next hclient hcommit =>
    refine ⟨h.separate.restart _ _,
      hind.commit h.tables (h.clients client hclient) hcommit, ?_⟩
    intro other hother
    rcases mem_restart hother with ⟨hold, hne⟩ | ⟨rest, rfl, rfl, -⟩
    · exact hind.frame h.tables (h.clients client hclient) (h.clients other hold)
        (h.separate.compatible client hclient other hold (Ne.symm hne))
        (hallowed client hclient rfl other hold hne) hcommit
    · exact hind.restart h.tables (h.clients client hclient) hcommit
  | @abort id =>
    refine ⟨h.separate.restart id none, h.tables, ?_⟩
    intro other hother
    have hmember : other ∈ TransactionWorld.restart world.clients id none := hother
    rcases mem_restart hmember with ⟨hold, -⟩ | ⟨rest, hrest, -⟩
    · exact h.clients other hold
    · cases hrest

variable {tables : τ}

/-- From tables that meet it, the invariant holds in every world that a run of allowed commits
reaches. -/
theorem Inductive.run (hind : system.Inductive allowed inv sound)
    {world : TransactionWorld τ κ ω ν} {actions : List (TransactionAction γ χ)}
    (hinv : inv tables)
    (hrun : Run (Guarded (CommitsAllowed allowed) fun s a t => system.step s a = some t)
      ⟨tables, []⟩ actions world) :
    Holds inv sound world :=
  hrun.invariant_of_guard (fun _ _ _ h hallowed hstep => hind.step h hallowed hstep)
    (Holds.init hinv)

/-- Where every commit is allowed, every step will do. -/
theorem Inductive.step_of_always (hind : system.Inductive (fun _ _ _ => True) inv sound)
    (h : Holds inv sound world) (hstep : system.step world action = some world') :
    Holds inv sound world' := by
  refine hind.step h ?_ hstep
  cases action with
  | commit id => exact fun _ _ _ _ _ _ => trivial
  | start | execute | abort => trivial

theorem Inductive.run_of_always (hind : system.Inductive (fun _ _ _ => True) inv sound)
    {world : TransactionWorld τ κ ω ν} {actions : List (TransactionAction γ χ)}
    (hinv : inv tables)
    (hrun : Run (fun s a t => system.step s a = some t) ⟨tables, []⟩ actions world) :
    Holds inv sound world :=
  hrun.invariant (fun _ _ _ h hstep => hind.step_of_always h hstep) (Holds.init hinv)

/-- Only commits change the tables. -/
theorem tables_step (hstep : system.step world action = some world') :
    world'.tables = world.tables ∨ ∃ client ∈ world.clients, ∃ next,
      action = .commit client.id ∧ system.afterCommit client.next = some next
        ∧ world'.tables = system.applyAll client.writes world.tables := by
  cases system.step_cases hstep with
  | start | done | rollback | abort => exact .inl rfl
  | @commit client next hclient hcommit => exact .inr ⟨client, hclient, next, rfl, hcommit, rfl⟩

end TransactionSystem

end

end Toss.Foundation
