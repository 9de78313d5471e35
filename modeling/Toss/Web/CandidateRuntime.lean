import Toss.Foundation.Fairness

/-!
# Candidate checks

`CandidateRuntimeScheduler` of `candidateRuntime.ts`: a chain of promises runs one operation after
the other on a runtime of its own, which an abort of the active run or a timer disposes of. A
controller aborts its signal from a script, so that no other code runs between its listeners.

* `CandidateRuntimeScheduler`, `step` — the scheduler, with a log of what happened;
* `Allowed`, `Lawful` — what may happen after what;
* `Inv`, `Heard` — what is known between the steps;
* `candidate_checks_are_isolated` — every run is lawful, and every check is answered.
-/

namespace Toss.Web.Candidates

open Toss.Foundation

variable {ε ν : Type}

/-! ## The scheduler -/

inductive Settlement (ε ν : Type)
  | resolved (value : ν)
  | abortError
  | rejected (error : ε)
deriving DecidableEq, Repr

inductive SchedulerEvent (ε ν : Type)
  | called (id : Nat) (signal : Option Nat)
  | aborted (signal : Nat)
  | created (runtime : Nat)
  | disposed (runtime : Nat)
  | started (id runtime : Nat)
  /-- The operation has settled, and the body goes on behind it. -/
  | returned (id : Nat)
  | settled (id : Nat) (outcome : Settlement ε ν)
deriving DecidableEq, Repr

structure CandidateRun where
  id : Nat
  signal : Option Nat
deriving DecidableEq, Repr

structure IdleTimer where
  selected : Nat
  due : Nat
deriving DecidableEq, Repr

/-- The promise chain is the run whose body was entered, with its `activeRuntime`, and the runs
behind it; `settledRuns` are those whose `settled` is set. -/
structure CandidateRuntimeScheduler (ε ν : Type) where
  runtime : Option Nat
  current : Option (CandidateRun × Option Nat)
  queued : List CandidateRun
  settledRuns : List Nat
  pending : Int
  idleTimer : Option IdleTimer
  now : Nat
  abortedSignals : List Nat
  calls : Nat
  runtimes : Nat
  log : List (SchedulerEvent ε ν)
deriving DecidableEq, Repr

inductive SchedulerAction (ε ν : Type)
  | run (signal : Option Nat)
  | abort (signal : Nat)
  /-- The next body is entered; a runtime that has to be created may fail. -/
  | enter (creation : Except ε Unit)
  | settle (outcome : Except ε ν)
  | finish
  | expire
  | wait (milliseconds : Nat)
deriving Repr

namespace CandidateRuntimeScheduler

section

variable (s : CandidateRuntimeScheduler ε ν)

/-- The runs that have not finished. -/
def chain : List CandidateRun :=
  (s.current.map Prod.fst).toList ++ s.queued

def isAborted (signal : Option Nat) : Bool :=
  signal.any fun signal => signal ∈ s.abortedSignals

def emit (event : SchedulerEvent ε ν) : CandidateRuntimeScheduler ε ν :=
  { s with log := s.log ++ [event] }

def settle (id : Nat) (outcome : Settlement ε ν) : CandidateRuntimeScheduler ε ν :=
  { s with settledRuns := id :: s.settledRuns }.emit (.settled id outcome)

def run (signal : Option Nat) : CandidateRuntimeScheduler ε ν :=
  let s' := { s.emit (.called s.calls signal) with calls := s.calls + 1 }
  if s.isAborted signal then s'.settle s.calls .abortError
  else
    { s' with
      idleTimer := none
      pending := s.pending + 1
      queued := s.queued ++ [⟨s.calls, signal⟩] }

def invalidate (runtime : Nat) : CandidateRuntimeScheduler ε ν :=
  { s with runtime := if s.runtime = some runtime then none else s.runtime }.emit (.disposed runtime)

def onAbort (run : CandidateRun) : CandidateRuntimeScheduler ε ν :=
  if run.id ∈ s.settledRuns then s
  else
    let s' := s.settle run.id .abortError
    match s.current with
    | some (active, some runtime) => if active = run then s'.invalidate runtime else s'
    | _ => s'

/-- A controller aborts its signal, once; the listeners run in the order of the calls. -/
def abort (signal : Nat) : CandidateRuntimeScheduler ε ν :=
  if signal ∈ s.abortedSignals then s
  else
    (s.chain.filter fun run => run.signal = some signal).foldl onAbort
      ({ s with abortedSignals := signal :: s.abortedSignals }.emit (.aborted signal))

/-- What a body answers at its end, unless it was aborted before. -/
def answer (run : CandidateRun) (outcome : Settlement ε ν) : CandidateRuntimeScheduler ε ν :=
  if run.id ∈ s.settledRuns then s
  else s.settle run.id (if s.isAborted run.signal then .abortError else outcome)

def acquire (creation : Except ε Unit) : Except ε (Nat × CandidateRuntimeScheduler ε ν) :=
  match s.runtime, creation with
  | some runtime, _ => .ok (runtime, s)
  | none, .error error => .error error
  | none, .ok _ => .ok (s.runtimes,
      { s with runtime := some s.runtimes, runtimes := s.runtimes + 1 }.emit (.created s.runtimes))

def enter (creation : Except ε Unit) : Option (CandidateRuntimeScheduler ε ν) :=
  match s.current, s.queued with
  | none, run :: queued =>
    if run.id ∈ s.settledRuns ∨ s.isAborted run.signal then
      some { s with current := some (run, none), queued := queued }
    else
      match s.acquire creation with
      | .error error =>
        some { s.answer run (.rejected error) with current := some (run, none), queued := queued }
      | .ok (runtime, s') =>
        some ({ s' with current := some (run, some runtime), queued := queued }.emit
          (.started run.id runtime))
  | _, _ => none

/-- The body goes on behind its operation. -/
def goOn (outcome : Except ε ν) : Option (CandidateRuntimeScheduler ε ν) :=
  match s.current with
  | some (run, some _) =>
    some { (s.emit (.returned run.id)).answer run (match outcome with
        | .ok value => .resolved value
        | .error error => .rejected error) with
      current := some (run, none) }
  | _ => none

def scheduleIdleDisposal (idleMilliseconds : Nat) : CandidateRuntimeScheduler ε ν :=
  { s with idleTimer := s.runtime.map fun selected => ⟨selected, s.now + idleMilliseconds⟩ }

/-- `finished`, in one go with the end of the chain that the next body waits for. -/
def finish (idleMilliseconds : Nat) : Option (CandidateRuntimeScheduler ε ν) :=
  match s.current with
  | some (_, none) =>
    let s' := { s with current := none, pending := s.pending - 1 }
    some (if s'.pending = 0 then s'.scheduleIdleDisposal idleMilliseconds else s')
  | _ => none

def expire : Option (CandidateRuntimeScheduler ε ν) :=
  match s.idleTimer with
  | none => none
  | some timer =>
    if s.now < timer.due then none
    else
      let s' := { s with idleTimer := none }
      if s.pending ≠ 0 ∨ s.runtime ≠ some timer.selected then some s'
      else some ({ s' with runtime := none }.emit (.disposed timer.selected))

end

def step (idleMilliseconds : Nat) (s : CandidateRuntimeScheduler ε ν) :
    SchedulerAction ε ν → Option (CandidateRuntimeScheduler ε ν)
  | .run signal => some (s.run signal)
  | .abort signal => some (s.abort signal)
  | .enter creation => s.enter creation
  | .settle outcome => s.goOn outcome
  | .finish => s.finish idleMilliseconds
  | .expire => s.expire
  | .wait milliseconds => some { s with now := s.now + milliseconds }

def initial : CandidateRuntimeScheduler ε ν := ⟨none, none, [], [], 0, none, 0, [], 0, 0, []⟩

end CandidateRuntimeScheduler

/-! ## What may happen -/

section Events

variable (log : List (SchedulerEvent ε ν))

def IsSettled (id : Nat) : Prop := ∃ outcome, .settled id outcome ∈ log

/-- The signal of a run was aborted. -/
def IsAborted (id : Nat) : Prop := ∃ signal, .called id (some signal) ∈ log ∧ .aborted signal ∈ log

def IsLive (runtime : Nat) : Prop := .created runtime ∈ log ∧ .disposed runtime ∉ log

/-- What may happen after what happened before. -/
def Allowed : SchedulerEvent ε ν → Prop
  | .called id _ => ∀ id' signal, .called id' signal ∈ log → id' < id
  | .aborted _ => True
  -- no other runtime is live
  | .created _ => ∀ runtime, ¬IsLive log runtime
  -- the operations on it have returned, or their own runs were aborted
  | .disposed runtime => IsLive log runtime
      ∧ ∀ id, .started id runtime ∈ log → .returned id ∈ log ∨ IsAborted log id
  -- what was started before was called before, and has returned
  | .started id runtime => IsLive log runtime
      ∧ ∀ id' runtime', .started id' runtime' ∈ log → id' < id ∧ .returned id' ∈ log
  | .returned id => ∃ runtime, .started id runtime ∈ log
  | .settled id outcome => (∃ signal, .called id signal ∈ log) ∧ ¬IsSettled log id
      ∧ (IsAborted log id → outcome = .abortError)

def Lawful : Prop := ∀ before event after, log = before ++ event :: after → Allowed before event

end Events

theorem Lawful.concat {log : List (SchedulerEvent ε ν)} {event : SchedulerEvent ε ν}
    (h : Lawful log) (hevent : Allowed log event) : Lawful (log ++ [event]) := by
  intro before last after hsplit
  rcases List.eq_nil_or_concat after with rfl | ⟨rest, end', rfl⟩
  · have hbefore := List.append_inj_left' hsplit rfl
    have hlast := List.append_inj_right' hsplit rfl
    rw [← hbefore, ← List.singleton_inj.mp hlast]
    exact hevent
  · rw [List.concat_eq_append, ← List.cons_append, ← List.append_assoc] at hsplit
    exact h before last rest (List.append_inj_left' hsplit rfl)

/-! ## What is known -/

open CandidateRuntimeScheduler

structure Inv (idleMilliseconds : Nat) (s : CandidateRuntimeScheduler ε ν) : Prop where
  lawful : Lawful s.log
  called_lt : ∀ id signal, .called id signal ∈ s.log → id < s.calls
  called_unique : ∀ id signal signal', .called id signal ∈ s.log → .called id signal' ∈ s.log →
    signal = signal'
  answered : ∀ id signal, .called id signal ∈ s.log →
    id ∈ s.settledRuns ∨ ∃ run ∈ s.chain, run.id = id
  aborted : ∀ signal, .aborted signal ∈ s.log ↔ signal ∈ s.abortedSignals
  called : ∀ run ∈ s.chain, .called run.id run.signal ∈ s.log
  ordered : s.chain.Pairwise fun run other => run.id < other.id
  settled : ∀ id, id ∈ s.settledRuns ↔ IsSettled s.log id
  settled_lt : ∀ id ∈ s.settledRuns, id < s.calls
  ended : ∀ run, s.current = some (run, none) → run.id ∈ s.settledRuns
  started : ∀ id runtime, .started id runtime ∈ s.log →
    .returned id ∈ s.log ∨ ∃ run, s.current = some (run, some runtime) ∧ run.id = id
  started_lt : ∀ id runtime, .started id runtime ∈ s.log → id < s.calls
  behind : ∀ run ∈ s.queued, ∀ id runtime, .started id runtime ∈ s.log → id < run.id
  active : ∀ run runtime, s.current = some (run, some runtime) → .started run.id runtime ∈ s.log
    ∧ (run.id ∉ s.settledRuns → s.runtime = some runtime)
  runtime : ∀ runtime, s.runtime = some runtime ↔ IsLive s.log runtime
  created_lt : ∀ runtime, .created runtime ∈ s.log → runtime < s.runtimes
  disposed_lt : ∀ runtime, .disposed runtime ∈ s.log → runtime < s.runtimes
  pending : s.pending = s.chain.length
  timer : s.chain = [] → ∀ runtime, s.runtime = some runtime →
    ∃ due, s.idleTimer = some ⟨runtime, due⟩ ∧ due ≤ s.now + idleMilliseconds

/-- The listeners of the aborted signals have run. -/
def Heard (s : CandidateRuntimeScheduler ε ν) : Prop :=
  ∀ run ∈ s.chain, s.isAborted run.signal = true → run.id ∈ s.settledRuns

def Known (idleMilliseconds : Nat) (s : CandidateRuntimeScheduler ε ν) : Prop :=
  Inv idleMilliseconds s ∧ Heard s

section Steps

variable {idle : Nat} {s t : CandidateRuntimeScheduler ε ν} {run : CandidateRun}

theorem initial_inv : Inv idle (initial : CandidateRuntimeScheduler ε ν) := by
  constructor
  case lawful =>
    intro before event after hsplit
    cases before <;> cases hsplit
  all_goals simp [initial, chain, IsSettled, IsLive]

/-! ### Answers and aborts -/

theorem Inv.marked (h : Inv idle s) (signal : Nat) :
    Inv idle ({ s with abortedSignals := signal :: s.abortedSignals }.emit (.aborted signal)) := by
  constructor
  case lawful => exact h.lawful.concat trivial
  all_goals grind [emit, chain, IsSettled, IsLive, Inv]

theorem Inv.settle (h : Inv idle s) (hrun : run ∈ s.chain) (hfresh : run.id ∉ s.settledRuns)
    {outcome : Settlement ε ν} (houtcome : IsAborted s.log run.id → outcome = .abortError) :
    Inv idle (s.settle run.id outcome) := by
  have hcalled := h.called run hrun
  constructor
  case lawful =>
    exact h.lawful.concat ⟨⟨_, hcalled⟩, fun hsettled => hfresh ((h.settled _).mpr hsettled), houtcome⟩
  all_goals grind [CandidateRuntimeScheduler.settle, emit, chain, IsSettled, IsLive, Inv]

/-- The runtime of an aborted run is the live one until the run is told. -/
theorem Inv.invalidate (h : Inv idle s) {runtime : Nat}
    (hcurrent : s.current = some (run, some runtime)) (hruntime : s.runtime = some runtime)
    (hsettled : run.id ∈ s.settledRuns) (haborted : IsAborted s.log run.id) :
    Inv idle (s.invalidate runtime) := by
  have hlive := (h.runtime runtime).mp hruntime
  constructor
  case lawful =>
    refine h.lawful.concat ⟨hlive, fun id hstarted => ?_⟩
    rcases h.started id runtime hstarted with hreturned | ⟨user, huser, rfl⟩
    · exact .inl hreturned
    · rcases Option.some.inj (hcurrent.symm.trans huser) with ⟨⟩
      exact .inr haborted
  all_goals grind [CandidateRuntimeScheduler.invalidate, emit, chain, IsSettled, IsLive, Inv]

theorem Inv.isAborted_iff (h : Inv idle s) (hrun : run ∈ s.chain) :
    IsAborted s.log run.id ↔ s.isAborted run.signal = true := by
  unfold IsAborted CandidateRuntimeScheduler.isAborted
  constructor
  · rintro ⟨signal, hcalled, haborted⟩
    rw [h.called_unique _ _ _ (h.called run hrun) hcalled]
    exact decide_eq_true ((h.aborted signal).mp haborted)
  · intro haborted
    rcases (Option.any_eq_true _ _).mp haborted with ⟨signal, hsignal, hmem⟩
    exact ⟨signal, hsignal ▸ h.called run hrun, (h.aborted signal).mpr (of_decide_eq_true hmem)⟩

theorem Inv.onAbort (h : Inv idle s) (hrun : run ∈ s.chain)
    (haborted : s.isAborted run.signal = true) : Inv idle (s.onAbort run) := by
  have hlog := (h.isAborted_iff hrun).mpr haborted
  unfold CandidateRuntimeScheduler.onAbort
  split
  · exact h
  rename_i hfresh
  have hsettled := h.settle hrun hfresh fun _ => (rfl : Settlement.abortError = .abortError)
  split
  · next active runtime hcurrent =>
    split
    · next hactive =>
      rw [hactive] at hcurrent
      refine hsettled.invalidate hcurrent ((h.active run runtime hcurrent).2 hfresh)
        (List.mem_cons_self ..) ?_
      rcases hlog with ⟨signal, hcalled, haborted⟩
      exact ⟨signal, List.mem_append_left _ hcalled, List.mem_append_left _ haborted⟩
    · exact hsettled
  · exact hsettled

/-- What listeners leave alone. -/
structure KeepsChain (s t : CandidateRuntimeScheduler ε ν) : Prop where
  current : t.current = s.current
  queued : t.queued = s.queued
  abortedSignals : t.abortedSignals = s.abortedSignals
  settledRuns : s.settledRuns ⊆ t.settledRuns
  log : s.log ⊆ t.log

theorem KeepsChain.trans {u : CandidateRuntimeScheduler ε ν} (hst : KeepsChain s t)
    (htu : KeepsChain t u) : KeepsChain s u :=
  ⟨htu.current.trans hst.current, htu.queued.trans hst.queued,
    htu.abortedSignals.trans hst.abortedSignals,
    List.Subset.trans hst.settledRuns htu.settledRuns, List.Subset.trans hst.log htu.log⟩

theorem KeepsChain.chain (h : KeepsChain s t) : t.chain = s.chain := by
  rw [CandidateRuntimeScheduler.chain, h.current, h.queued]
  rfl

theorem KeepsChain.isAborted (h : KeepsChain s t) (signal : Option Nat) :
    t.isAborted signal = s.isAborted signal := by
  rw [CandidateRuntimeScheduler.isAborted, h.abortedSignals]
  rfl

theorem onAbort_keepsChain (s : CandidateRuntimeScheduler ε ν) (run : CandidateRun) :
    KeepsChain s (s.onAbort run) ∧ run.id ∈ (s.onAbort run).settledRuns := by
  unfold CandidateRuntimeScheduler.onAbort
  split
  · next hsettled => exact ⟨⟨rfl, rfl, rfl, fun _ h => h, fun _ h => h⟩, hsettled⟩
  have hsettle : KeepsChain s (s.settle run.id .abortError) :=
    ⟨rfl, rfl, rfl, List.subset_cons_self _ _, List.subset_append_left _ _⟩
  split
  · split
    · refine ⟨hsettle.trans ⟨rfl, rfl, rfl, fun _ h => h, ?_⟩, List.mem_cons_self ..⟩
      exact List.subset_append_left _ _
    · exact ⟨hsettle, List.mem_cons_self ..⟩
  · exact ⟨hsettle, List.mem_cons_self ..⟩

theorem foldl_onAbort_keepsChain (runs : List CandidateRun) (s : CandidateRuntimeScheduler ε ν) :
    KeepsChain s (runs.foldl CandidateRuntimeScheduler.onAbort s)
      ∧ ∀ run ∈ runs, run.id ∈ (runs.foldl CandidateRuntimeScheduler.onAbort s).settledRuns := by
  induction runs generalizing s with
  | nil => exact ⟨⟨rfl, rfl, rfl, fun _ h => h, fun _ h => h⟩, nofun⟩
  | cons run runs ih =>
    rcases onAbort_keepsChain s run with ⟨hkeeps, htold⟩
    rcases ih (s.onAbort run) with ⟨hrest, htold'⟩
    refine ⟨hkeeps.trans hrest, fun other hother => ?_⟩
    rcases List.mem_cons.mp hother with rfl | hother
    · exact hrest.settledRuns htold
    · exact htold' other hother

theorem Inv.foldl_onAbort {runs : List CandidateRun} (h : Inv idle s)
    (hruns : ∀ run ∈ runs, run ∈ s.chain ∧ s.isAborted run.signal = true) :
    Inv idle (runs.foldl CandidateRuntimeScheduler.onAbort s) := by
  induction runs generalizing s with
  | nil => exact h
  | cons run runs ih =>
    have hkeeps := (onAbort_keepsChain s run).1
    have hrun := hruns run (List.mem_cons_self ..)
    refine ih (h.onAbort hrun.1 hrun.2) fun other hother => ?_
    rw [hkeeps.chain, hkeeps.isAborted]
    exact hruns other (List.mem_cons_of_mem _ hother)

theorem Inv.abort (h : Inv idle s) (hheard : Heard s) (signal : Nat) :
    Inv idle (s.abort signal) ∧ Heard (s.abort signal) := by
  unfold CandidateRuntimeScheduler.abort
  split
  · exact ⟨h, hheard⟩
  have hmarked := h.marked signal
  have hruns : ∀ run ∈ s.chain.filter fun run => run.signal = some signal, run ∈ s.chain
      ∧ ({ s with abortedSignals := signal :: s.abortedSignals }.emit
        (.aborted signal)).isAborted run.signal = true := by
    intro run hrun
    have hsignal := (List.mem_filter.mp hrun).2
    rw [of_decide_eq_true hsignal]
    exact ⟨(List.mem_filter.mp hrun).1, decide_eq_true (List.mem_cons_self ..)⟩
  rcases foldl_onAbort_keepsChain (s.chain.filter fun run => run.signal = some signal)
    ({ s with abortedSignals := signal :: s.abortedSignals }.emit (.aborted signal)) with
    ⟨hkeeps, htold⟩
  refine ⟨hmarked.foldl_onAbort hruns, fun run hrun haborted => ?_⟩
  rw [hkeeps.chain] at hrun
  rw [hkeeps.isAborted] at haborted
  by_cases hsignal : run.signal = some signal
  · exact htold run (List.mem_filter.mpr ⟨hrun, decide_eq_true hsignal⟩)
  refine hkeeps.settledRuns (hheard run hrun ?_)
  rcases (Option.any_eq_true _ _).mp haborted with ⟨other, hother, hmem⟩
  rw [hother] at hsignal ⊢
  rcases List.mem_cons.mp (of_decide_eq_true hmem) with rfl | hmem
  · exact absurd rfl hsignal
  · exact decide_eq_true hmem

/-- A body answers with an abort error where its signal is aborted. -/
theorem Inv.answer (h : Inv idle s) (hrun : run ∈ s.chain) (outcome : Settlement ε ν) :
    Inv idle (s.answer run outcome) ∧ run.id ∈ (s.answer run outcome).settledRuns := by
  unfold CandidateRuntimeScheduler.answer
  split
  · next hsettled => exact ⟨h, hsettled⟩
  · next hfresh =>
    refine ⟨h.settle hrun hfresh fun haborted => ?_, List.mem_cons_self ..⟩
    exact if_pos ((h.isAborted_iff hrun).mp haborted)

/-! ### The other steps -/

theorem Inv.newRun (h : Inv idle s) (hheard : Heard s) (signal : Option Nat) :
    Inv idle (s.run signal) ∧ Heard (s.run signal) := by
  have hcalled : Lawful (s.log ++ [.called s.calls signal]) := h.lawful.concat h.called_lt
  have hfresh : ¬IsSettled s.log s.calls := fun hsettled =>
    -- the number of the call is new, so nothing has settled it
    absurd (h.settled_lt _ ((h.settled _).mpr hsettled)) (Nat.lt_irrefl _)
  unfold CandidateRuntimeScheduler.run
  split
  · constructor
    · constructor
      case lawful =>
        refine hcalled.concat ⟨⟨signal, ?_⟩, ?_, fun _ => rfl⟩
        · exact List.mem_append_right _ (List.mem_singleton_self _)
        · rintro ⟨outcome, hsettled⟩
          rcases List.mem_append.mp hsettled with hold | hnew
          · exact hfresh ⟨outcome, hold⟩
          · cases List.mem_singleton.mp hnew
      all_goals grind [CandidateRuntimeScheduler.settle, emit, chain, IsSettled, IsLive, Inv]
    · exact fun run hrun haborted => List.mem_cons_of_mem _ (hheard run hrun haborted)
  · next hsignal =>
    generalize hnew : CandidateRun.mk s.calls signal = new
    have hchain : ∀ {pending : Int} {calls : Nat} {log : List (SchedulerEvent ε ν)}, chain { s with
        idleTimer := none, pending := pending, calls := calls, log := log
        queued := s.queued ++ [new] } = s.chain ++ [new] := (List.append_assoc ..).symm
    constructor
    · constructor
      case lawful => exact hcalled
      case answered =>
        intro id other hcalled
        rw [emit, hchain]
        rcases List.mem_append.mp hcalled with hold | hnow
        · exact (h.answered id other hold).imp_right fun ⟨run, hrun, hid⟩ =>
            ⟨run, List.mem_append_left _ hrun, hid⟩
        · cases List.mem_singleton.mp hnow
          exact .inr ⟨new, List.mem_append_right _ (List.mem_singleton_self _), hnew ▸ rfl⟩
      case called | ordered | pending =>
        simp only [emit, hchain]
        grind [Inv]
      case timer =>
        rw [emit, hchain]
        exact fun hnil => absurd hnil (List.append_ne_nil_of_right_ne_nil _ (List.cons_ne_nil _ _))
      all_goals
        clear hchain hcalled
        grind [emit, IsSettled, IsLive, Inv]
    · intro run hrun haborted
      rw [emit, hchain] at hrun
      rcases List.mem_append.mp hrun with hold | hnow
      · exact hheard run hold haborted
      · rw [List.mem_singleton.mp hnow, ← hnew] at haborted
        exact absurd haborted hsignal

/-- The next run comes to the front of the chain, and does not start. -/
theorem Inv.skip (h : Inv idle s) (hcurrent : s.current = none) {queued : List CandidateRun}
    (hqueued : s.queued = run :: queued) (hsettled : run.id ∈ s.settledRuns) :
    Inv idle { s with current := some (run, none), queued := queued } := by
  constructor
  case lawful => exact h.lawful
  all_goals grind [chain, Inv]

theorem Inv.acquire (h : Inv idle s) (hchain : s.chain ≠ []) {creation : Except ε Unit}
    {runtime : Nat} (hacquire : s.acquire creation = .ok (runtime, t)) :
    Inv idle t ∧ t.runtime = some runtime ∧ t.current = s.current ∧ t.queued = s.queued
      ∧ t.abortedSignals = s.abortedSignals ∧ t.settledRuns = s.settledRuns := by
  unfold CandidateRuntimeScheduler.acquire at hacquire
  split at hacquire
  · next hruntime =>
    rcases Except.ok.inj hacquire with ⟨⟩
    exact ⟨h, hruntime, rfl, rfl, rfl, rfl⟩
  · cases hacquire
  rename_i hruntime
  rcases Except.ok.inj hacquire with ⟨⟩
  refine ⟨?_, rfl, rfl, rfl, rfl, rfl⟩
  constructor
  case lawful =>
    refine h.lawful.concat fun runtime hlive => ?_
    rw [(h.runtime runtime).mpr hlive] at hruntime
    cases hruntime
  all_goals grind [emit, chain, IsSettled, IsLive, Inv]

/-- With no body under way, all that was started has returned. -/
theorem Inv.start (h : Inv idle s) (hcurrent : s.current = none) {queued : List CandidateRun}
    (hqueued : s.queued = run :: queued) {runtime : Nat} (hruntime : s.runtime = some runtime) :
    Inv idle ({ s with current := some (run, some runtime), queued := queued }.emit
      (.started run.id runtime)) := by
  constructor
  case lawful =>
    refine h.lawful.concat ⟨(h.runtime runtime).mp hruntime, fun id other hstarted => ?_⟩
    constructor
    · exact h.behind run (hqueued ▸ List.mem_cons_self ..) id other hstarted
    · rcases h.started id other hstarted with hreturned | ⟨user, huser, _⟩
      · exact hreturned
      · rw [hcurrent] at huser
        cases huser
  all_goals grind [emit, chain, IsSettled, IsLive, Inv]

theorem answer_keepsChain (s : CandidateRuntimeScheduler ε ν) (run : CandidateRun)
    (outcome : Settlement ε ν) :
    KeepsChain s (s.answer run outcome) := by
  unfold CandidateRuntimeScheduler.answer
  split
  · exact ⟨rfl, rfl, rfl, fun _ h => h, fun _ h => h⟩
  · exact ⟨rfl, rfl, rfl, List.subset_cons_self _ _, List.subset_append_left _ _⟩

theorem Inv.enter (h : Inv idle s) (hheard : Heard s) {creation : Except ε Unit}
    (hstep : s.enter creation = some t) : Inv idle t ∧ Heard t := by
  unfold CandidateRuntimeScheduler.enter at hstep
  split at hstep
  · next run queued hcurrent hqueued =>
    have hchain : s.chain = run :: queued := by rw [chain, hcurrent, hqueued]; rfl
    have hrun : run ∈ s.chain := hchain ▸ List.mem_cons_self ..
    split at hstep
    · next hskip =>
      rcases Option.some.inj hstep with rfl
      have hsettled : run.id ∈ s.settledRuns := hskip.elim id (hheard run hrun)
      exact ⟨h.skip hcurrent hqueued hsettled, fun other hother => hheard other (hchain ▸ hother)⟩
    · split at hstep
      · next error _ =>
        rcases Option.some.inj hstep with rfl
        rcases h.answer hrun (.rejected error) with ⟨hinv, hsettled⟩
        have hkeeps := answer_keepsChain s run (.rejected error)
        refine ⟨hinv.skip (hkeeps.current.trans hcurrent) (hkeeps.queued.trans hqueued) hsettled, ?_⟩
        intro other hother haborted
        refine hkeeps.settledRuns (hheard other (hchain ▸ hother) ?_)
        exact (hkeeps.isAborted other.signal).symm.trans haborted
      · next runtime acquired hacquire =>
        rcases Option.some.inj hstep with rfl
        rcases h.acquire (List.ne_nil_of_mem hrun) hacquire with
          ⟨hinv, hruntime, hcurrent', hqueued', hsignals, hsettled⟩
        refine ⟨hinv.start (hcurrent'.trans hcurrent) (hqueued'.trans hqueued) hruntime, ?_⟩
        intro other hother haborted
        show other.id ∈ acquired.settledRuns
        rw [hsettled]
        refine hheard other (hchain ▸ hother) ?_
        rwa [isAborted, ← hsignals]
  · cases hstep

theorem Inv.returned (h : Inv idle s) {runtime : Nat}
    (hcurrent : s.current = some (run, some runtime)) : Inv idle (s.emit (.returned run.id)) := by
  constructor
  case lawful => exact h.lawful.concat ⟨runtime, (h.active run runtime hcurrent).1⟩
  all_goals grind [emit, chain, IsSettled, IsLive, Inv]

/-- `activeRuntime = null`, once the operation has returned. -/
theorem Inv.leave (h : Inv idle s) {runtime : Nat}
    (hcurrent : s.current = some (run, some runtime)) (hsettled : run.id ∈ s.settledRuns)
    (hreturned : .returned run.id ∈ s.log) : Inv idle { s with current := some (run, none) } := by
  constructor
  case lawful => exact h.lawful
  all_goals grind [chain, Inv]

theorem Inv.goOn (h : Inv idle s) (hheard : Heard s) {outcome : Except ε ν}
    (hstep : s.goOn outcome = some t) : Inv idle t ∧ Heard t := by
  unfold CandidateRuntimeScheduler.goOn at hstep
  split at hstep
  · next run runtime hcurrent =>
    rcases Option.some.inj hstep with rfl
    have hchain : s.chain = run :: s.queued := by rw [chain, hcurrent]; rfl
    have hrun : run ∈ s.chain := hchain ▸ List.mem_cons_self ..
    generalize (match outcome with
      | .ok value => Settlement.resolved value
      | .error error => .rejected error) = answer
    rcases (h.returned hcurrent).answer hrun answer with ⟨hinv, hsettled⟩
    have hkeeps := answer_keepsChain (s.emit (.returned run.id)) run answer
    refine ⟨hinv.leave (hkeeps.current.trans hcurrent) hsettled ?_, ?_⟩
    · exact hkeeps.log (List.mem_append_right _ (List.mem_singleton_self _))
    · intro other hother haborted
      refine hkeeps.settledRuns (hheard other ?_ ?_)
      · rw [hchain]
        exact hkeeps.queued ▸ hother
      · exact (hkeeps.isAborted other.signal).symm.trans haborted
  · cases hstep

theorem Inv.finish (h : Inv idle s) (hheard : Heard s) (hstep : s.finish idle = some t) :
    Inv idle t ∧ Heard t := by
  unfold CandidateRuntimeScheduler.finish at hstep
  split at hstep
  · next run hcurrent =>
    rcases Option.some.inj hstep with rfl
    have hchain : s.chain = run :: s.queued := by rw [chain, hcurrent]; rfl
    have hpending := h.pending
    rw [hchain, List.length_cons] at hpending
    split
    · -- the last run is done, and the timer is set for the runtime that is left
      constructor
      · constructor
        case lawful => exact h.lawful
        all_goals grind [scheduleIdleDisposal, chain, Inv]
      · exact fun other hother => hheard other (hchain ▸ List.mem_cons_of_mem _ hother)
    · constructor
      · constructor
        case lawful => exact h.lawful
        all_goals grind [chain, Inv]
      · exact fun other hother => hheard other (hchain ▸ List.mem_cons_of_mem _ hother)
  · cases hstep

theorem Inv.chain_eq_nil (h : Inv idle s) (hpending : s.pending = 0) : s.chain = [] := by
  rw [h.pending] at hpending
  exact List.eq_nil_of_length_eq_zero (Int.ofNat_eq_zero.mp hpending)

theorem Inv.expire (h : Inv idle s) (hheard : Heard s) (hstep : s.expire = some t) :
    Inv idle t ∧ Heard t := by
  unfold CandidateRuntimeScheduler.expire at hstep
  split at hstep
  · cases hstep
  rename_i timer htimer
  split at hstep
  · cases hstep
  split at hstep
  · next hother =>
    rcases Option.some.inj hstep with rfl
    refine ⟨?_, hheard⟩
    constructor
    case lawful => exact h.lawful
    all_goals grind [chain, Inv]
  · next hselected =>
    rw [not_or, Classical.not_not, Classical.not_not] at hselected
    rcases Option.some.inj hstep with rfl
    have hchain := h.chain_eq_nil hselected.1
    have hcurrent : s.current = none := by
      rw [chain, List.append_eq_nil_iff, Option.toList_eq_nil_iff] at hchain
      exact Option.map_eq_none_iff.mp hchain.1
    have hlive := (h.runtime _).mp hselected.2
    refine ⟨?_, hheard⟩
    constructor
    case lawful =>
      refine h.lawful.concat ⟨hlive, fun id hstarted => ?_⟩
      rcases h.started id _ hstarted with hreturned | ⟨user, huser, _⟩
      · exact .inl hreturned
      · rw [hcurrent] at huser
        cases huser
    all_goals grind [emit, chain, IsSettled, IsLive, Inv]

theorem Inv.wait (h : Inv idle s) (hheard : Heard s) (milliseconds : Nat) :
    Inv idle { s with now := s.now + milliseconds }
      ∧ Heard { s with now := s.now + milliseconds } := by
  refine ⟨?_, hheard⟩
  constructor
  case timer =>
    intro hchain runtime hruntime
    rcases h.timer hchain runtime hruntime with ⟨due, htimer, hdue⟩
    exact ⟨due, htimer, by dsimp only; omega⟩
  all_goals grind [chain, Inv]

theorem Known.step {action : SchedulerAction ε ν} (h : Known idle s)
    (hstep : CandidateRuntimeScheduler.step idle s action = some t) : Known idle t := by
  rcases h with ⟨h, hheard⟩
  cases action with
  | run signal =>
    rcases Option.some.inj hstep with rfl
    exact h.newRun hheard signal
  | abort signal =>
    rcases Option.some.inj hstep with rfl
    exact h.abort hheard signal
  | enter creation => exact h.enter hheard hstep
  | settle outcome => exact h.goOn hheard hstep
  | finish => exact h.finish hheard hstep
  | expire => exact h.expire hheard hstep
  | wait milliseconds =>
    rcases Option.some.inj hstep with rfl
    exact h.wait hheard milliseconds

/-! ## Every check is answered -/

/-- The steps that the chain takes by itself, and the operations. -/
def IsInternal : SchedulerAction ε ν → Prop
  | .enter _ | .settle _ | .finish => True
  | _ => False

/-- What the chain has to do before a run is done with. -/
def ahead (s : CandidateRuntimeScheduler ε ν) (id : Nat) : Nat :=
  (match s.current with
    | none => 0
    | some (_, none) => 1
    | some (_, some _) => 2) + 3 * s.queued.countP (·.id ≤ id)

theorem abort_keepsChain (s : CandidateRuntimeScheduler ε ν) (signal : Nat) :
    (s.abort signal).current = s.current ∧ (s.abort signal).queued = s.queued
      ∧ s.log ⊆ (s.abort signal).log := by
  unfold CandidateRuntimeScheduler.abort
  split
  · exact ⟨rfl, rfl, fun _ h => h⟩
  have hkeeps := (foldl_onAbort_keepsChain (s.chain.filter fun run => run.signal = some signal)
    ({ s with abortedSignals := signal :: s.abortedSignals }.emit (.aborted signal))).1
  refine ⟨hkeeps.current, hkeeps.queued, ?_⟩
  exact List.Subset.trans (List.subset_append_left _ _) hkeeps.log

theorem enter_shift {creation : Except ε Unit} (hstep : s.enter creation = some t) :
    ∃ run user, s.current = none ∧ s.queued = run :: t.queued ∧ t.current = some (run, user)
      ∧ s.log ⊆ t.log := by
  unfold CandidateRuntimeScheduler.enter at hstep
  split at hstep
  · next run queued hcurrent hqueued =>
    split at hstep
    · rcases Option.some.inj hstep with rfl
      exact ⟨run, none, hcurrent, hqueued, rfl, fun _ h => h⟩
    split at hstep
    · rcases Option.some.inj hstep with rfl
      exact ⟨run, none, hcurrent, hqueued, rfl, (answer_keepsChain s run _).log⟩
    rename_i runtime acquired hacquire
    rcases Option.some.inj hstep with rfl
    refine ⟨run, some runtime, hcurrent, hqueued, rfl, ?_⟩
    refine List.Subset.trans ?_ (List.subset_append_left _ _)
    unfold CandidateRuntimeScheduler.acquire at hacquire
    split at hacquire
    · rcases Except.ok.inj hacquire with ⟨⟩
      exact fun _ h => h
    · cases hacquire
    · rcases Except.ok.inj hacquire with ⟨⟩
      exact List.subset_append_left _ _
  · cases hstep

/-- New runs queue up behind a run of the chain, and what the chain does brings it forward. -/
theorem Inv.ahead_step {action : SchedulerAction ε ν} (h : Inv idle s) {id : Nat}
    (hmem : ∃ run ∈ s.chain, run.id = id)
    (hstep : CandidateRuntimeScheduler.step idle s action = some t) :
    s.log ⊆ t.log ∧ ahead t id ≤ ahead s id ∧ (IsInternal action → ahead t id < ahead s id) := by
  rcases hmem with ⟨waiting, hwaiting, rfl⟩
  cases action with
  | run signal =>
    -- a call that comes later waits behind
    rcases Option.some.inj hstep with rfl
    have hlt := h.called_lt _ _ (h.called waiting hwaiting)
    unfold CandidateRuntimeScheduler.run
    dsimp only
    split
    · exact ⟨fun _ hold => List.mem_append_left _ (List.mem_append_left _ hold), Nat.le_refl _, nofun⟩
    · refine ⟨List.subset_append_left _ _, Nat.le_of_eq ?_, nofun⟩
      simp [ahead, emit, List.countP_append, hlt]
  | abort signal =>
    rcases Option.some.inj hstep with rfl
    rcases abort_keepsChain s signal with ⟨hcurrent, hqueued, hlog⟩
    exact ⟨hlog, Nat.le_of_eq (by rw [ahead, hcurrent, hqueued]; rfl), nofun⟩
  | enter creation =>
    rcases enter_shift hstep with ⟨run, user, hcurrent, hqueued, hentered, hlog⟩
    -- whoever is entered has been waiting for at least as long
    have hle : run.id ≤ waiting.id := by
      have hordered := h.ordered
      rw [chain, hcurrent, hqueued] at hwaiting hordered
      rcases List.mem_cons.mp hwaiting with rfl | hbehind
      · exact Nat.le_refl _
      · exact Nat.le_of_lt ((List.pairwise_cons.mp hordered).1 waiting hbehind)
    -- it counts for one less once it runs
    have hlower : ahead t waiting.id < ahead s waiting.id := by
      simp only [ahead, hcurrent, hqueued, hentered, List.countP_cons, decide_eq_true hle, if_true]
      split <;> omega
    exact ⟨hlog, Nat.le_of_lt hlower, fun _ => hlower⟩
  | settle outcome =>
    unfold CandidateRuntimeScheduler.step CandidateRuntimeScheduler.goOn at hstep
    dsimp only at hstep
    split at hstep
    · next run runtime hcurrent =>
      rcases Option.some.inj hstep with rfl
      generalize (match outcome with
        | .ok value => Settlement.resolved value
        | .error error => .rejected error) = answer
      have hkeeps := answer_keepsChain (s.emit (.returned run.id)) run answer
      -- and for one less once it has answered
      have hlower : ahead { (s.emit (.returned run.id)).answer run answer with
          current := some (run, none) } waiting.id < ahead s waiting.id := by
        simp only [ahead, hcurrent, hkeeps.queued]
        exact Nat.add_lt_add_right (Nat.lt_succ_self 1) _
      refine ⟨?_, Nat.le_of_lt hlower, fun _ => hlower⟩
      exact List.Subset.trans (List.subset_append_left _ _) hkeeps.log
    · cases hstep
  | finish =>
    unfold CandidateRuntimeScheduler.step CandidateRuntimeScheduler.finish at hstep
    dsimp only at hstep
    split at hstep
    · next run hcurrent =>
      rcases Option.some.inj hstep with rfl
      -- and for nothing once it is gone
      have hlower : ∀ u : CandidateRuntimeScheduler ε ν, u.current = none → u.queued = s.queued →
          ahead u waiting.id < ahead s waiting.id := by
        intro u hnone hqueued
        simp only [ahead, hcurrent, hnone, hqueued]
        exact Nat.add_lt_add_right Nat.one_pos _
      split
      · have hlt := hlower (scheduleIdleDisposal { s with
            current := none, pending := s.pending - 1 } idle) rfl rfl
        exact ⟨fun _ hold => hold, Nat.le_of_lt hlt, fun _ => hlt⟩
      · have hlt := hlower { s with current := none, pending := s.pending - 1 } rfl rfl
        exact ⟨fun _ hold => hold, Nat.le_of_lt hlt, fun _ => hlt⟩
    · cases hstep
  | expire =>
    unfold CandidateRuntimeScheduler.step CandidateRuntimeScheduler.expire at hstep
    dsimp only at hstep
    split at hstep
    · cases hstep
    split at hstep
    · cases hstep
    split at hstep
    · rcases Option.some.inj hstep with rfl
      exact ⟨fun _ hold => hold, Nat.le_refl _, nofun⟩
    · rcases Option.some.inj hstep with rfl
      exact ⟨List.subset_append_left _ _, Nat.le_refl _, nofun⟩
  | wait milliseconds =>
    rcases Option.some.inj hstep with rfl
    exact ⟨fun _ hold => hold, Nat.le_refl _, nofun⟩

theorem internal_enabled [Nonempty ε] (h : s.chain ≠ []) :
    ∃ action t, IsInternal action ∧ CandidateRuntimeScheduler.step idle s action = some t := by
  rcases hcurrent : s.current with _ | ⟨run, _ | runtime⟩
  · rcases hqueued : s.queued with _ | ⟨run, queued⟩
    · rw [chain, hcurrent, hqueued] at h
      exact absurd rfl h
    · refine ⟨.enter (.ok ()), ?_⟩
      simp only [step, enter, hcurrent, hqueued]
      split
      · exact ⟨_, trivial, rfl⟩
      · split
        · exact ⟨_, trivial, rfl⟩
        · exact ⟨_, trivial, rfl⟩
  · refine ⟨.finish, ?_⟩
    simp only [step, finish, hcurrent]
    exact ⟨_, trivial, rfl⟩
  · refine ⟨.settle (.error (Classical.choice inferInstance)), ?_⟩
    simp only [step, goOn, hcurrent]
    exact ⟨_, trivial, rfl⟩

end Steps

/-- The step relation of a scheduler. -/
def SchedulerStep (idleMilliseconds : Nat) (s : CandidateRuntimeScheduler ε ν)
    (action : SchedulerAction ε ν) (t : CandidateRuntimeScheduler ε ν) : Prop :=
  step idleMilliseconds s action = some t

/-- `pending` counts the runs that have not finished, and with none of them the live runtime is
disposed of after the idle time. -/
structure Isolated (idleMilliseconds : Nat) (s : CandidateRuntimeScheduler ε ν) : Prop where
  lawful : Lawful s.log
  one_live : ∀ runtime other, IsLive s.log runtime → IsLive s.log other → runtime = other
  aborted : ∀ id, IsAborted s.log id → IsSettled s.log id
  finished : ∀ id signal, .called id signal ∈ s.log → (∀ run ∈ s.chain, run.id ≠ id) →
    IsSettled s.log id
  pending : s.pending = s.chain.length
  unused : s.chain = [] → ∀ runtime, IsLive s.log runtime →
    ∃ due, s.idleTimer = some ⟨runtime, due⟩ ∧ due ≤ s.now + idleMilliseconds
      ∧ (due ≤ s.now → ∃ t, SchedulerStep idleMilliseconds s .expire t ∧ .disposed runtime ∈ t.log)

theorem Inv.isolated {idle : Nat} {s : CandidateRuntimeScheduler ε ν} (h : Inv idle s)
    (hheard : Heard s) : Isolated idle s where
  lawful := h.lawful
  one_live runtime other hlive hother := by
    rw [← h.runtime] at hlive hother
    exact Option.some.inj (hlive.symm.trans hother)
  aborted id haborted := by
    rcases haborted with ⟨signal, hcalled, hsignal⟩
    rcases h.answered id _ hcalled with hsettled | ⟨run, hrun, rfl⟩
    · exact (h.settled id).mp hsettled
    · refine (h.settled _).mp (hheard run hrun ?_)
      exact (h.isAborted_iff hrun).mp ⟨signal, hcalled, hsignal⟩
  finished id signal hcalled hleft := by
    rcases h.answered id signal hcalled with hsettled | ⟨run, hrun, hid⟩
    · exact (h.settled id).mp hsettled
    · exact absurd hid (hleft run hrun)
  pending := h.pending
  unused hchain runtime hlive := by
    rw [← h.runtime] at hlive
    rcases h.timer hchain runtime hlive with ⟨due, htimer, hdue⟩
    refine ⟨due, htimer, hdue, fun hnow => ?_⟩
    have hpending := h.pending
    rw [hchain] at hpending
    refine ⟨{ s with idleTimer := none, runtime := none }.emit (.disposed runtime), ?_,
      List.mem_append_right _ (List.mem_singleton_self _)⟩
    rw [SchedulerStep, step, CandidateRuntimeScheduler.expire, htimer]
    simp [hnow, hpending, hlive]

/-- Operations start one at a time, in the order of the calls, on the one live runtime; a runtime
under an operation is only disposed of when that run is aborted; and a run is settled once, at
once with an abort error where its signal is aborted. Where the chain goes on and operations
settle, as they do at the latest when their runtime is disposed of, every run is settled and
leaves the chain. -/
theorem candidate_checks_are_isolated [Nonempty ε] (idleMilliseconds : Nat) :
    (∀ actions (s : CandidateRuntimeScheduler ε ν),
        Run (SchedulerStep idleMilliseconds) initial actions s → Isolated idleMilliseconds s)
      ∧ ∀ b : Behaviour (SchedulerStep (ε := ε) (ν := ν) idleMilliseconds),
        b.state 0 = initial → b.WeaklyFair IsInternal →
          ∀ n id signal, .called id signal ∈ (b.state n).log →
            ∃ m, n ≤ m ∧ IsSettled (b.state m).log id ∧ ∀ run ∈ (b.state m).chain, run.id ≠ id := by
  have hinitial : Known idleMilliseconds (initial : CandidateRuntimeScheduler ε ν) :=
    ⟨initial_inv, nofun⟩
  constructor
  · intro actions s hrun
    rcases hrun.invariant (fun _ _ _ h hstep => h.step hstep) hinitial with ⟨h, hheard⟩
    exact h.isolated hheard
  · intro b hstart hfair n id signal hcalled
    have hinv : ∀ n, Known idleMilliseconds (b.state n) := by
      intro n
      refine Behaviour.invariant_of_guard (fun _ _ _ h (_ : True) hstep => h.step hstep) ?_
        fun _ _ _ _ => trivial
      rw [hstart]
      exact hinitial
    let Q (s : CandidateRuntimeScheduler ε ν) :=
      IsSettled s.log id ∧ ∀ run ∈ s.chain, run.id ≠ id
    have hQ : ∀ s : CandidateRuntimeScheduler ε ν, Inv idleMilliseconds s →
        .called id signal ∈ s.log → Q s ∨ ∃ run ∈ s.chain, run.id = id := by
      intro s h hcalled
      by_cases hwaits : ∃ run ∈ s.chain, run.id = id
      · exact .inr hwaits
      · rcases h.answered id signal hcalled with hsettled | hwaiting
        · exact .inl ⟨(h.settled id).mp hsettled, fun run hrun hid => hwaits ⟨run, hrun, hid⟩⟩
        · exact absurd hwaiting hwaits
    rcases hQ _ (hinv n).1 hcalled with hdone | hwaits
    · exact ⟨n, Nat.le_refl n, hdone⟩
    refine b.leadsTo_of_rank (I := Inv idleMilliseconds) (Q := Q) (A := fun _ => IsInternal)
      (P := fun k s => .called id signal ∈ s.log ∧ (∃ run ∈ s.chain, run.id = id) ∧ ahead s id = k)
      (fun n => (hinv n).1) (fun _ => hfair) ?_ ?_ _ n ⟨hcalled, hwaits, rfl⟩
    · rintro _ s action t h ht ⟨hcalled, hwaits, rfl⟩ hstep
      rcases h.ahead_step hwaits hstep with ⟨hlog, hle, hlt⟩
      exact (hQ t ht (hlog hcalled)).imp_right fun hwaits =>
        ⟨ahead t id, hle, ⟨hlog hcalled, hwaits, rfl⟩, hlt⟩
    · rintro _ s _ ⟨-, ⟨run, hrun, -⟩, -⟩
      exact .inr (internal_enabled (List.ne_nil_of_mem hrun))

/-- The first check is aborted under way, and the second runs on a runtime of its own, which is
disposed of when nothing comes in. -/
def twoChecks : List (SchedulerAction Nat Nat) :=
  [.run (some 7), .run none, .enter (.ok ()), .abort 7, .settle (.error 5), .finish,
    .enter (.ok ()), .settle (.ok 42), .finish, .wait 30]

def twoChecksRun : Behaviour (SchedulerStep (ε := Nat) (ν := Nat) 30) :=
  .ofExec (step 30) initial twoChecks (by decide +kernel)

theorem twoChecks_isolated :
    (∃ t, SchedulerStep 30 (twoChecksRun.state 10) .expire t ∧ .disposed 1 ∈ t.log)
      ∧ ∃ m, IsSettled (twoChecksRun.state m).log 1 := by
  have hend : exec (step 30) initial twoChecks = some (twoChecksRun.state 10) := by decide +kernel
  rcases candidate_checks_are_isolated (ε := Nat) (ν := Nat) 30 with ⟨hsafe, hanswered⟩
  constructor
  · have hlive : IsLive (twoChecksRun.state 10).log 1 := by
      unfold IsLive
      decide +kernel
    rcases (hsafe twoChecks _ (exec_run hend)).unused (by decide +kernel) 1 hlive with
      ⟨due, htimer, -, hexpires⟩
    have hset : (twoChecksRun.state 10).idleTimer = some ⟨1, 30⟩ := by decide +kernel
    rcases Option.some.inj (hset.symm.trans htimer) with ⟨⟩
    exact hexpires (by decide +kernel)
  · have hfair : twoChecksRun.WeaklyFair IsInternal := by
      have hcurrent : (twoChecksRun.state 10).current = none := by decide +kernel
      have hqueued : (twoChecksRun.state 10).queued = [] := by decide +kernel
      refine Behaviour.ofExec_weaklyFair hend fun action t hinternal => ?_
      cases action with
      | enter => simp [step, enter, hcurrent, hqueued]
      | settle => simp [step, goOn, hcurrent]
      | finish => simp [step, finish, hcurrent]
      | _ => exact hinternal.elim
    rcases hanswered twoChecksRun rfl hfair 2 1 none (by decide +kernel) with ⟨m, -, hsettled, -⟩
    exact ⟨m, hsettled⟩

end Toss.Web.Candidates
