import Toss.Web.WorkspaceDelta

/-!
# Every requested synchronization is covered by a load

* `MachineStep`, `machineStep_transition` — all that an event can do to the machine;
* `Inv`, `step_inv` — what every sequence of events keeps;
* `covered_step_iff` — a step keeps the tickets of the configured generation covered
  exactly when it brings no generation back that was left in the middle of a sync;
* `requests_covered_iff` — the same over all sequences of events.

A `disable` forgets the sync that is under way and `configure` rests in `idle`, so
the request is dropped when the generation is the same: `disabledSync_dropped`.
-/

namespace Toss.Web.DeltaMachine

/-! ## What an event can do -/

inductive MachineStep (machine : Machine) : WorkspaceDeltaEvent → Machine → Prop
  | ignored {event : WorkspaceDeltaEvent} :
      (∀ job, event = .configure job → False) →
      (event = .disable → machine.state = .inactive) →
      MachineStep machine event machine
  | configured {job : WorkspaceDeltaJob} :
      machine.state ≠ .inactive →
      isSameSession machine.context job = true →
      MachineStep machine (.configure job) ⟨machine.state, configure machine.context job⟩
  | entered {job : WorkspaceDeltaJob} :
      (machine.state = .inactive ∨ isSameSession machine.context job = false) →
      MachineStep machine (.configure job) ⟨.idle, replaceConfiguration machine.context job⟩
  | disabled :
      machine.state ≠ .inactive →
      MachineStep machine .disable ⟨.inactive, reset machine.context⟩
  | started :
      machine.state = .idle →
      MachineStep machine .syncRequested
        ⟨.syncing, beginCycle (recordRequest machine.context)⟩
  | recorded :
      machine.isBusy = true →
      MachineStep machine .syncRequested ⟨machine.state, recordRequest machine.context⟩
  | loaded {job : WorkspaceDeltaJob} {delta : WorkspaceDelta} :
      machine.state = .syncing →
      MachineStep machine (.loadDone job delta)
        ⟨.publishing, completeLoad machine.context job delta⟩
  | failed {error : Text} :
      machine.state = .syncing →
      MachineStep machine (.loadError error) ⟨.publishing, failLoad machine.context error⟩
  | retrying {cycle : Nat} :
      machine.state = .publishing →
      MachineStep machine (.resultApplied cycle)
        ⟨.retrying, acknowledgeFailure machine.context⟩
  | continued {cycle : Nat} {completed : CompletedWorkspaceDelta} {delta : WorkspaceDelta} :
      machine.state = .publishing →
      machine.context.completed = some completed →
      completed.result = .success delta →
      machine.context.activeTargetTicket < machine.context.requestedTicket →
      MachineStep machine (.resultApplied cycle)
        ⟨.syncing, acknowledgeSuccessAndBeginNext machine.context⟩
  | rested {cycle : Nat} {completed : CompletedWorkspaceDelta} {delta : WorkspaceDelta} :
      machine.state = .publishing →
      machine.context.completed = some completed →
      completed.result = .success delta →
      machine.context.requestedTicket ≤ machine.context.activeTargetTicket →
      MachineStep machine (.resultApplied cycle) ⟨.idle, acknowledgeSuccess machine.context⟩
  | retried :
      machine.state = .retrying →
      MachineStep machine .retryBackoff ⟨.syncing, beginCycle machine.context⟩

theorem machineStep_publish {machine : Machine} (cycle : Nat)
    (hstate : machine.state = .publishing) :
    MachineStep machine (.resultApplied cycle) (publish machine cycle) := by
  have hignored : MachineStep machine (.resultApplied cycle) machine := by
    refine .ignored ?_ ?_
    · intro job hevent
      simp at hevent
    · intro hevent
      simp at hevent
  cases hcompleted : machine.context.completed with
  | none =>
    have heq : publish machine cycle = machine := by
      simp [publish, publishedCycleFailed, publishedCycleSucceededWithNewerRequest,
        isPublishedCycle, hcompleted]
    rw [heq]
    exact hignored
  | some completed =>
    by_cases hcycle : completed.cycle = cycle
    · cases hresult : completed.result with
      | error error =>
        have heq : publish machine cycle = ⟨.retrying, acknowledgeFailure machine.context⟩ := by
          simp [publish, publishedCycleFailed, hcompleted, hcycle, hresult]
        rw [heq]
        exact .retrying hstate
      | success delta =>
        by_cases hnewer : machine.context.activeTargetTicket < machine.context.requestedTicket
        · have heq : publish machine cycle
              = ⟨.syncing, acknowledgeSuccessAndBeginNext machine.context⟩ := by
            simp [publish, publishedCycleFailed, publishedCycleSucceededWithNewerRequest,
              hcompleted, hcycle, hresult, hnewer]
          rw [heq]
          exact .continued hstate hcompleted hresult hnewer
        · have heq : publish machine cycle = ⟨.idle, acknowledgeSuccess machine.context⟩ := by
            simp [publish, publishedCycleFailed, publishedCycleSucceededWithNewerRequest,
              isPublishedCycle, hcompleted, hcycle, hresult, hnewer]
          rw [heq]
          exact .rested hstate hcompleted hresult (Nat.le_of_not_lt hnewer)
    · have heq : publish machine cycle = machine := by
        simp [publish, publishedCycleFailed, publishedCycleSucceededWithNewerRequest,
          isPublishedCycle, hcompleted, hcycle]
      rw [heq]
      exact hignored

theorem machineStep_configure (machine : Machine) (job : WorkspaceDeltaJob) :
    MachineStep machine (.configure job) (transition machine (.configure job)) := by
  by_cases hinactive : machine.state = .inactive
  · have heq : transition machine (.configure job)
        = ⟨.idle, replaceConfiguration machine.context job⟩ := by
      simp [transition, hinactive]
    rw [heq]
    exact .entered (.inl hinactive)
  · cases hsame : isSameSession machine.context job with
    | true =>
      have heq : transition machine (.configure job)
          = ⟨machine.state, configure machine.context job⟩ := by
        cases hstate : machine.state <;> simp_all [transition]
      rw [heq]
      exact .configured hinactive hsame
    | false =>
      have heq : transition machine (.configure job)
          = ⟨.idle, replaceConfiguration machine.context job⟩ := by
        cases hstate : machine.state <;> simp_all [transition]
      rw [heq]
      exact .entered (.inr hsame)

theorem machineStep_transition (machine : Machine) (event : WorkspaceDeltaEvent) :
    MachineStep machine event (transition machine event) := by
  have hignored : (∀ job, event = .configure job → False) →
      (event = .disable → machine.state = .inactive) → transition machine event = machine →
      MachineStep machine event (transition machine event) := by
    intro hconfigure hdisable heq
    rw [heq]
    exact .ignored hconfigure hdisable
  -- per event, the states in which it is taken; elsewhere it is ignored
  cases event with
  | configure job => exact machineStep_configure machine job
  | disable =>
    cases hstate : machine.state with
    | inactive => exact hignored (by simp) (fun _ => hstate) (by simp [transition, hstate])
    | _ =>
      have heq : transition machine .disable = ⟨.inactive, reset machine.context⟩ := by
        simp [transition, hstate]
      rw [heq]
      exact .disabled (by simp [hstate])
  | syncRequested =>
    cases hstate : machine.state with
    | inactive => exact hignored (by simp) (by simp) (by simp [transition, hstate])
    | idle =>
      have heq : transition machine .syncRequested
          = ⟨.syncing, beginCycle (recordRequest machine.context)⟩ := by
        simp [transition, hstate]
      rw [heq]
      exact .started hstate
    | _ =>
      have heq : transition machine .syncRequested
          = ⟨machine.state, recordRequest machine.context⟩ := by
        simp [transition, hstate]
      rw [heq]
      exact .recorded (by simp [Machine.isBusy, hstate])
  | resultApplied cycle =>
    cases hstate : machine.state with
    | publishing =>
      have heq : transition machine (.resultApplied cycle) = publish machine cycle := by
        simp [transition, hstate]
      rw [heq]
      exact machineStep_publish cycle hstate
    | _ => exact hignored (by simp) (by simp) (by simp [transition, hstate])
  | loadDone job delta =>
    cases hstate : machine.state with
    | syncing =>
      have heq : transition machine (.loadDone job delta)
          = ⟨.publishing, completeLoad machine.context job delta⟩ := by
        simp [transition, hstate]
      rw [heq]
      exact .loaded hstate
    | _ => exact hignored (by simp) (by simp) (by simp [transition, hstate])
  | loadError error =>
    cases hstate : machine.state with
    | syncing =>
      have heq : transition machine (.loadError error)
          = ⟨.publishing, failLoad machine.context error⟩ := by
        simp [transition, hstate]
      rw [heq]
      exact .failed hstate
    | _ => exact hignored (by simp) (by simp) (by simp [transition, hstate])
  | retryBackoff =>
    cases hstate : machine.state with
    | retrying =>
      have heq : transition machine .retryBackoff = ⟨.syncing, beginCycle machine.context⟩ := by
        simp [transition, hstate]
      rw [heq]
      exact .retried hstate
    | _ => exact hignored (by simp) (by simp) (by simp [transition, hstate])

theorem generation_of_isSameSession {machine : Machine} {job : WorkspaceDeltaJob}
    (h : isSameSession machine.context job = true) :
    machine.generation = some job.sessionGeneration := by
  simpa [isSameSession, Machine.generation] using h

/-! ## The history of the requests -/

/-- The recorded tickets, and where an unsettled one stands: the machine is busy with
its generation, or has left it. -/
structure Requests (machine : Machine) (tickets : List (Option Text))
    (departures : List (Option Text × Nat)) : Prop where
  recorded : tickets.length = machine.context.requestedTicket
  settled : machine.context.settledTicket ≤ machine.context.requestedTicket
  busy : machine.isBusy = true →
    machine.context.settledTicket < machine.context.requestedTicket
      ∧ tickets[machine.context.requestedTicket - 1]? = some machine.generation
  departed : ∀ generation ticket, (generation, ticket) ∈ departures →
    0 < ticket ∧ tickets[ticket - 1]? = some generation
  outstanding : ∀ n generation, tickets[n]? = some generation →
    machine.context.settledTicket ≤ n →
      (machine.isBusy = true ∧ machine.generation = generation)
        ∨ ∃ ticket, (generation, ticket) ∈ departures ∧ n < ticket

namespace Requests

variable {machine machine' : Machine} {tickets : List (Option Text)}
  {departures : List (Option Text × Nat)}

/-- No request is recorded and no busy machine is left. -/
theorem keep (h : Requests machine tickets departures)
    (hrequested : machine'.context.requestedTicket = machine.context.requestedTicket)
    (hsettles : machine.context.settledTicket ≤ machine'.context.settledTicket)
    (hsettled : machine'.context.settledTicket ≤ machine.context.requestedTicket)
    (hstays : machine.isBusy = true →
      (machine'.isBusy = true ∧ machine'.generation = machine.generation)
        ∨ machine.context.requestedTicket ≤ machine'.context.settledTicket)
    (hbusy : machine'.isBusy = true →
      machine.isBusy = true ∧ machine'.generation = machine.generation
        ∧ machine'.context.settledTicket < machine.context.requestedTicket) :
    Requests machine' tickets departures where
  recorded := h.recorded.trans hrequested.symm
  settled := by
    rw [hrequested]
    exact hsettled
  busy := by
    intro hbusy'
    rcases hbusy hbusy' with ⟨hold, hgeneration, hlt⟩
    rw [hrequested, hgeneration]
    exact ⟨hlt, (h.busy hold).2⟩
  departed := h.departed
  outstanding := by
    intro n generation hticket hunsettled
    rcases h.outstanding n generation hticket (hsettles.trans hunsettled) with
      ⟨hold, hgeneration⟩ | hdeparted
    · rcases hstays hold with ⟨hbusy', hsame⟩ | hcovered
      · exact .inl ⟨hbusy', hsame.trans hgeneration⟩
      · have hlt := (List.getElem?_eq_some_iff.mp hticket).1
        rw [h.recorded] at hlt
        omega
    · exact .inr hdeparted

/-- A busy machine is left: the departure is written down. -/
theorem depart (h : Requests machine tickets departures) (hbusy : machine.isBusy = true)
    (hrests : machine'.isBusy = false)
    (hrequested : machine'.context.requestedTicket = machine.context.requestedTicket)
    (hsettled : machine'.context.settledTicket = machine.context.settledTicket) :
    Requests machine' tickets
      (departures ++ [(machine.generation, machine.context.requestedTicket)]) where
  recorded := h.recorded.trans hrequested.symm
  settled := by
    rw [hrequested, hsettled]
    exact h.settled
  busy := by
    intro hbusy'
    rw [hrests] at hbusy'
    simp at hbusy'
  departed := by
    intro generation ticket hmem
    rcases List.mem_append.mp hmem with hold | hnew
    · exact h.departed generation ticket hold
    have hpair := List.mem_singleton.mp hnew
    rw [Prod.mk.injEq] at hpair
    have hlast := h.busy hbusy
    rw [hpair.1, hpair.2]
    exact ⟨by omega, hlast.2⟩
  outstanding := by
    intro n generation hticket hunsettled
    rw [hsettled] at hunsettled
    right
    rcases h.outstanding n generation hticket hunsettled with ⟨_, hgeneration⟩ | ⟨t, hmem, hlt⟩
    · have hlt := (List.getElem?_eq_some_iff.mp hticket).1
      rw [h.recorded] at hlt
      exact ⟨machine.context.requestedTicket, by simp [hgeneration], hlt⟩
    · exact ⟨t, List.mem_append_left _ hmem, hlt⟩

/-- A request is recorded and the machine is busy with it. -/
theorem record (h : Requests machine tickets departures) (hbusy : machine'.isBusy = true)
    (hgeneration : machine'.generation = machine.generation)
    (hrequested : machine'.context.requestedTicket = machine.context.requestedTicket + 1)
    (hsettled : machine'.context.settledTicket = machine.context.settledTicket) :
    Requests machine' (tickets ++ [machine.generation]) departures where
  recorded := by
    rw [List.length_append, h.recorded, hrequested]
    rfl
  settled := by
    have := h.settled
    omega
  busy := by
    intro _
    have := h.settled
    refine ⟨by omega, ?_⟩
    rw [hrequested, hgeneration, Nat.add_sub_cancel, ← h.recorded,
      List.getElem?_append_right (Nat.le_refl _), Nat.sub_self]
    rfl
  departed := by
    intro generation ticket hmem
    rcases h.departed generation ticket hmem with ⟨hpos, hticket⟩
    refine ⟨hpos, ?_⟩
    rw [List.getElem?_append_left (List.getElem?_eq_some_iff.mp hticket).1]
    exact hticket
  outstanding := by
    intro n generation hticket hunsettled
    rw [hsettled] at hunsettled
    rcases Nat.lt_or_ge n tickets.length with hlt | hge
    · rw [List.getElem?_append_left hlt] at hticket
      rcases h.outstanding n generation hticket hunsettled with ⟨_, hsame⟩ | hdeparted
      · exact .inl ⟨hbusy, hgeneration.trans hsame⟩
      · exact .inr hdeparted
    · rw [List.getElem?_append_right hge] at hticket
      have hmem := List.mem_of_getElem? hticket
      rw [List.mem_singleton] at hmem
      exact .inl ⟨hbusy, hgeneration.trans hmem.symm⟩

end Requests

/-! ## The history of the loads -/

/-- Every ticket up to `ticket` was recorded before a successful load was started. -/
def LoadedUpTo (loads : List Load) (ticket : Nat) : Prop :=
  ∀ n < ticket, ∃ load ∈ loads, load.outcome = .succeeded ∧ n < load.startedAfter

theorem LoadedUpTo.mono {loads loads' : List Load} {ticket : Nat} (h : LoadedUpTo loads ticket)
    (hsubset : ∀ load ∈ loads, load ∈ loads') : LoadedUpTo loads' ticket := by
  intro n hn
  rcases h n hn with ⟨load, hmem, hload⟩
  exact ⟨load, hsubset load hmem, hload⟩

theorem loadedUpTo_max {loads : List Load} {ticket target : Nat} (h : LoadedUpTo loads ticket)
    (htarget : ∃ load ∈ loads, load.outcome = .succeeded ∧ load.startedAfter = target) :
    LoadedUpTo loads (max ticket target) := by
  intro n hn
  rcases Nat.lt_or_ge n ticket with hlt | hge
  · exact h n hlt
  · rcases htarget with ⟨load, hmem, hsucceeded, hstarted⟩
    exact ⟨load, hmem, hsucceeded, by omega⟩

/-- The cycle that is under way targets what its load was started after. -/
structure Cycles (machine : Machine) (loads : List Load) (invoked : Option Nat) : Prop where
  target : machine.state = .syncing ∨ machine.state = .publishing →
    machine.context.activeTargetTicket ≤ machine.context.requestedTicket
  running : machine.state = .syncing → ∃ id load, invoked = some id ∧ loads[id]? = some load
    ∧ load.startedAfter = machine.context.activeTargetTicket
  published : machine.state = .publishing → ∀ completed delta,
    machine.context.completed = some completed → completed.result = .success delta →
      ∃ load ∈ loads, load.outcome = .succeeded
        ∧ load.startedAfter = machine.context.activeTargetTicket
  settled : LoadedUpTo loads machine.context.settledTicket

namespace Cycles

variable {machine machine' : Machine} {loads : List Load} {invoked : Option Nat}

/-- The machine rests, or waits for its timer. -/
theorem leave (hsyncing : machine'.state ≠ .syncing) (hpublishing : machine'.state ≠ .publishing)
    (hsettled : LoadedUpTo loads machine'.context.settledTicket) :
    Cycles machine' loads invoked where
  target := by
    intro hstate
    rcases hstate with hstate | hstate
    · exact absurd hstate hsyncing
    · exact absurd hstate hpublishing
  running := fun hstate => absurd hstate hsyncing
  published := fun hstate => absurd hstate hpublishing
  settled := hsettled

/-- A cycle begins: its load is started after all that is recorded. -/
theorem start {job : Option WorkspaceDeltaJob} (hstate : machine'.state = .syncing)
    (htarget : machine'.context.activeTargetTicket = machine'.context.requestedTicket)
    (hsettled : LoadedUpTo loads machine'.context.settledTicket) :
    Cycles machine'
      (loads ++ [{ job, startedAfter := machine'.context.requestedTicket, outcome := .pending }])
      (some loads.length) where
  target := fun _ => Nat.le_of_eq htarget
  running := by
    intro _
    refine ⟨loads.length, ⟨job, machine'.context.requestedTicket, .pending⟩, rfl, ?_,
      htarget.symm⟩
    rw [List.getElem?_append_right (Nat.le_refl _), Nat.sub_self]
    rfl
  published := by
    intro hpublishing
    rw [hstate] at hpublishing
    simp at hpublishing
  settled := hsettled.mono fun load hmem => List.mem_append_left _ hmem

/-- The cycle that is under way goes on. -/
theorem keep (h : Cycles machine loads invoked) {invoked' : Option Nat}
    (hstate : machine'.state = machine.state)
    (hrequested : machine.context.requestedTicket ≤ machine'.context.requestedTicket)
    (htarget : machine'.context.activeTargetTicket = machine.context.activeTargetTicket)
    (hsettled : machine'.context.settledTicket = machine.context.settledTicket)
    (hcompleted : machine'.context.completed = machine.context.completed)
    (hinvoked : machine.state = .syncing → invoked' = invoked) :
    Cycles machine' loads invoked' where
  target := by
    intro hactive
    rw [hstate] at hactive
    have := h.target hactive
    omega
  running := by
    intro hsyncing
    rw [hstate] at hsyncing
    rw [hinvoked hsyncing, htarget]
    exact h.running hsyncing
  published := by
    intro hpublishing completed delta hcompleted' hresult
    rw [hstate] at hpublishing
    rw [hcompleted] at hcompleted'
    rw [htarget]
    exact h.published hpublishing completed delta hcompleted' hresult
  settled := by
    rw [hsettled]
    exact h.settled

end Cycles

/-! ## The invariant -/

structure Inv (world : World) : Prop where
  requests : Requests world.machine world.tickets world.departures
  cycles : Cycles world.machine world.loads world.invoked

theorem inv_initial : Inv .initial where
  requests :=
    { recorded := rfl
      settled := Nat.le_refl _
      busy := by simp [World.initial, Machine.initial, Machine.isBusy]
      departed := by simp [World.initial]
      outstanding := by simp [World.initial] }
  cycles :=
    { target := by simp [World.initial, Machine.initial]
      running := by simp [World.initial, Machine.initial]
      published := by simp [World.initial, Machine.initial]
      settled := by
        intro n hn
        simp [World.initial, Machine.initial] at hn }

theorem isBusy_iff {machine : Machine} : machine.isBusy = true ↔
    machine.state = .syncing ∨ machine.state = .publishing ∨ machine.state = .retrying := by
  cases h : machine.state <;> simp [Machine.isBusy, h]

variable {world : World}

/-- What the tickets and departures become when the machine takes an event. -/
theorem requests_deliver (hinv : Inv world) (event : WorkspaceDeltaEvent) :
    Requests (world.deliver event).machine (world.deliver event).tickets
      (world.deliver event).departures := by
  have h := hinv.requests
  have hstep := machineStep_transition world.machine event
  simp only [World.deliver]
  generalize transition world.machine event = machine at hstep
  cases hstep with
  | ignored hconfigure hdisable =>
    -- what is ignored leaves no session either
    have hdeparts : (world.machine.isBusy && world.machine.departs event) = false := by
      cases event with
      | configure job => exact absurd rfl (hconfigure job)
      | disable => simp [Machine.isBusy, hdisable rfl]
      | _ => simp [Machine.departs]
    simp only [hdeparts, Nat.lt_irrefl, if_false, Bool.false_eq_true]
    exact h
  | @configured job hactive hsame =>
    have hdeparts : world.machine.departs (.configure job) = false := by
      simp [Machine.departs, hsame]
    have hgeneration := generation_of_isSameSession hsame
    simp only [hdeparts, Bool.and_false, configure, Nat.lt_irrefl, if_false,
      Bool.false_eq_true]
    refine h.keep rfl (Nat.le_refl _) h.settled ?_ ?_
    · intro hbusy
      exact .inl ⟨hbusy, hgeneration.symm⟩
    · intro hbusy
      exact ⟨hbusy, hgeneration.symm, (h.busy hbusy).1⟩
  | @entered job hdeparts =>
    -- another session takes over; whoever waited has departed
    cases hbusy : world.machine.isBusy with
    | true =>
      have hother : isSameSession world.machine.context job = false := by
        rcases hdeparts with hinactive | hother
        · simp [Machine.isBusy, hinactive] at hbusy
        · exact hother
      have hgoes : world.machine.departs (.configure job) = true := by
        simp [Machine.departs, hother]
      simp only [hgoes, Bool.and_self, replaceConfiguration, Nat.lt_irrefl, if_false, if_true]
      exact h.depart hbusy rfl rfl rfl
    | false =>
      simp only [Bool.false_and, replaceConfiguration, Nat.lt_irrefl, if_false,
        Bool.false_eq_true]
      refine h.keep rfl (Nat.le_refl _) h.settled ?_ ?_
      · intro hbusy'
        rw [hbusy] at hbusy'
        simp at hbusy'
      · intro hbusy'
        simp [Machine.isBusy] at hbusy'
  | disabled hactive =>
    cases hbusy : world.machine.isBusy with
    | true =>
      simp only [Machine.departs, Bool.and_self, reset, Nat.lt_irrefl, if_false, if_true]
      exact h.depart hbusy rfl rfl rfl
    | false =>
      simp only [Bool.false_and, reset, Nat.lt_irrefl, if_false, Bool.false_eq_true]
      refine h.keep rfl (Nat.le_refl _) h.settled ?_ ?_
      · intro hbusy'
        rw [hbusy] at hbusy'
        simp at hbusy'
      · intro hbusy'
        simp [Machine.isBusy] at hbusy'
  | started hidle =>
    simp only [Machine.departs, Bool.and_false, beginCycle, recordRequest, Nat.lt_succ_self,
      if_true, if_false, Bool.false_eq_true]
    exact h.record rfl rfl rfl rfl
  | recorded hbusy =>
    simp only [Machine.departs, Bool.and_false, recordRequest, Nat.lt_succ_self, if_true,
      if_false, Bool.false_eq_true]
    exact h.record hbusy rfl rfl rfl
  | loaded hstate =>
    have hbusy : world.machine.isBusy = true := isBusy_iff.mpr (.inl hstate)
    simp only [Machine.departs, Bool.and_false, completeLoad, Nat.lt_irrefl, if_false,
      Bool.false_eq_true]
    exact h.keep rfl (Nat.le_refl _) h.settled (fun _ => .inl ⟨rfl, rfl⟩)
      fun _ => ⟨hbusy, rfl, (h.busy hbusy).1⟩
  | failed hstate =>
    have hbusy : world.machine.isBusy = true := isBusy_iff.mpr (.inl hstate)
    simp only [Machine.departs, Bool.and_false, failLoad, Nat.lt_irrefl, if_false,
      Bool.false_eq_true]
    exact h.keep rfl (Nat.le_refl _) h.settled (fun _ => .inl ⟨rfl, rfl⟩)
      fun _ => ⟨hbusy, rfl, (h.busy hbusy).1⟩
  | retrying hstate =>
    have hbusy : world.machine.isBusy = true := isBusy_iff.mpr (.inr (.inl hstate))
    simp only [Machine.departs, Bool.and_false, acknowledgeFailure, Nat.lt_irrefl, if_false,
      Bool.false_eq_true]
    exact h.keep rfl (Nat.le_refl _) h.settled (fun _ => .inl ⟨rfl, rfl⟩)
      fun _ => ⟨hbusy, rfl, (h.busy hbusy).1⟩
  | continued hstate _ _ hnewer =>
    have hbusy : world.machine.isBusy = true := isBusy_iff.mpr (.inr (.inl hstate))
    have hlt := (h.busy hbusy).1
    simp only [Machine.departs, Bool.and_false, acknowledgeSuccessAndBeginNext, Nat.lt_irrefl,
      if_false, Bool.false_eq_true]
    refine h.keep rfl (Nat.le_max_left _ _) ?_ (fun _ => .inl ⟨rfl, rfl⟩) ?_
    · exact Nat.max_le.mpr ⟨h.settled, Nat.le_of_lt hnewer⟩
    · intro _
      exact ⟨hbusy, rfl, Nat.max_lt.mpr ⟨hlt, hnewer⟩⟩
  | rested hstate _ _ hcovers =>
    -- the cycle covers every ticket that was asked for
    have htarget := hinv.cycles.target (.inr hstate)
    simp only [Machine.departs, Bool.and_false, acknowledgeSuccess, Nat.lt_irrefl, if_false,
      Bool.false_eq_true]
    refine h.keep rfl (Nat.le_max_left _ _) ?_ ?_ ?_
    · exact Nat.max_le.mpr ⟨h.settled, htarget⟩
    · intro _
      exact .inr (hcovers.trans (Nat.le_max_right _ _))
    · intro hbusy'
      simp [Machine.isBusy] at hbusy'
  | retried hstate =>
    have hbusy : world.machine.isBusy = true := isBusy_iff.mpr (.inr (.inr hstate))
    simp only [Machine.departs, Bool.and_false, beginCycle, Nat.lt_irrefl, if_false,
      Bool.false_eq_true]
    exact h.keep rfl (Nat.le_refl _) h.settled (fun _ => .inl ⟨rfl, rfl⟩)
      fun _ => ⟨hbusy, rfl, (h.busy hbusy).1⟩

/-- What the loads become when the machine takes an event; a load that is done has
succeeded. -/
theorem cycles_deliver (hinv : Inv world) (event : WorkspaceDeltaEvent)
    (hdone : ∀ job delta, event = .loadDone job delta → world.machine.state = .syncing →
      ∃ load ∈ world.loads, load.outcome = .succeeded
        ∧ load.startedAfter = world.machine.context.activeTargetTicket) :
    Cycles (world.deliver event).machine (world.deliver event).loads
      (world.deliver event).invoked := by
  have h := hinv.cycles
  have hstep := machineStep_transition world.machine event
  -- an event that leaves the state starts no load
  have hstarts : (decide (world.machine.state = .syncing)
      && decide (world.machine.state ≠ .syncing)) = false := by
    cases world.machine.state <;> rfl
  simp only [World.deliver]
  generalize transition world.machine event = machine at hstep
  cases hstep with
  | ignored hconfigure hdisable =>
    simp only [hstarts, if_false, Bool.false_eq_true]
    refine h.keep rfl (Nat.le_refl _) rfl rfl rfl ?_
    intro hsyncing
    rw [if_pos hsyncing]
  | configured hactive hsame =>
    simp only [hstarts, if_false, Bool.false_eq_true]
    refine h.keep rfl (Nat.le_refl _) rfl rfl rfl ?_
    intro hsyncing
    rw [if_pos hsyncing]
  | entered _ | disabled _ | retrying _ => exact Cycles.leave (by simp) (by simp) h.settled
  | started hidle =>
    -- a cycle starts, for the tickets of now
    simp only [hidle, decide_true, ne_eq, reduceCtorEq, not_false_eq_true, Bool.and_self,
      if_true]
    exact Cycles.start rfl rfl h.settled
  | recorded hbusy =>
    simp only [hstarts, if_false, Bool.false_eq_true]
    refine h.keep rfl (Nat.le_succ _) rfl rfl rfl ?_
    intro hsyncing
    rw [if_pos hsyncing]
  | @loaded job delta hstate =>
    simp only [hstate, reduceCtorEq, decide_false, Bool.false_and, if_false, Bool.false_eq_true]
    exact
      { target := fun _ => h.target (.inl hstate)
        running := by simp
        published := fun _ _ _ _ _ => hdone job delta rfl hstate
        settled := h.settled }
  | failed hstate =>
    simp only [hstate, reduceCtorEq, decide_false, Bool.false_and, if_false, Bool.false_eq_true]
    refine
      { target := fun _ => h.target (.inl hstate)
        running := by simp
        published := ?_
        settled := h.settled }
    intro _ completed delta hcompleted hresult
    rcases Option.map_eq_some_iff.mp hcompleted with ⟨job, _, heq⟩
    rw [← heq] at hresult
    simp at hresult
  | continued hstate hcompleted hresult _ =>
    -- what was asked for meanwhile needs another cycle
    simp only [hstate, decide_true, ne_eq, reduceCtorEq, not_false_eq_true, Bool.and_self,
      if_true]
    exact Cycles.start rfl rfl
      (loadedUpTo_max h.settled (h.published hstate _ _ hcompleted hresult))
  | rested hstate hcompleted hresult _ =>
    refine Cycles.leave (by simp) (by simp) ?_
    exact loadedUpTo_max h.settled (h.published hstate _ _ hcompleted hresult)
  | retried hstate =>
    simp only [hstate, decide_true, ne_eq, reduceCtorEq, not_false_eq_true, Bool.and_self,
      if_true]
    exact Cycles.start rfl rfl h.settled

theorem deliver_inv (hinv : Inv world) (event : WorkspaceDeltaEvent)
    (hdone : ∀ job delta, event = .loadDone job delta → world.machine.state = .syncing →
      ∃ load ∈ world.loads, load.outcome = .succeeded
        ∧ load.startedAfter = world.machine.context.activeTargetTicket) :
    Inv (world.deliver event) :=
  ⟨requests_deliver hinv event, cycles_deliver hinv event hdone⟩

/-- A load that was pending comes to its end. -/
theorem endLoad_inv (hinv : Inv world) {id : Nat} {load : Load}
    (hload : world.loads[id]? = some load) (hpending : load.outcome = .pending)
    (outcome : LoadOutcome) : Inv (world.endLoad id outcome) := by
  have hkept : ∀ other ∈ world.loads, other.outcome = .succeeded →
      other ∈ (world.endLoad id outcome).loads := by
    intro other hother hsucceeded
    rcases List.mem_iff_getElem?.mp hother with ⟨n, hn⟩
    have hne : id ≠ n := by
      intro heq
      rw [← heq, hload] at hn
      rw [← Option.some.inj hn, hpending] at hsucceeded
      simp at hsucceeded
    refine List.mem_iff_getElem?.mpr ⟨n, ?_⟩
    simp only [World.endLoad, List.getElem?_modify, hne, if_false, hn, Option.map_eq_map,
      Option.map_some]
  refine ⟨hinv.requests, hinv.cycles.target, ?_, ?_, ?_⟩
  · intro hsyncing
    rcases hinv.cycles.running hsyncing with ⟨n, running, hinvoked, hrunning, hstarted⟩
    by_cases heq : id = n
    · refine ⟨n, { running with outcome }, hinvoked, ?_, hstarted⟩
      simp only [World.endLoad, List.getElem?_modify, heq, if_true, hrunning, Option.map_eq_map,
        Option.map_some]
    · refine ⟨n, running, hinvoked, ?_, hstarted⟩
      simp only [World.endLoad, List.getElem?_modify, heq, if_false, hrunning,
        Option.map_eq_map, Option.map_some]
  · intro hpublishing completed delta hcompleted hresult
    rcases hinv.cycles.published hpublishing completed delta hcompleted hresult with
      ⟨published, hmem, hsucceeded, hstarted⟩
    exact ⟨published, hkept published hmem hsucceeded, hsucceeded, hstarted⟩
  · intro n hn
    rcases hinv.cycles.settled n hn with ⟨settling, hmem, hsucceeded, hlt⟩
    exact ⟨settling, hkept settling hmem hsucceeded, hsucceeded, hlt⟩

/-- The load that the machine waits for was started after all that its cycle targets. -/
theorem endLoad_done (hinv : Inv world) {id : Nat} (hinvoked : world.invoked = some id)
    (hsyncing : world.machine.state = .syncing) :
    ∃ l ∈ (world.endLoad id .succeeded).loads, l.outcome = .succeeded
      ∧ l.startedAfter = world.machine.context.activeTargetTicket := by
  rcases hinv.cycles.running hsyncing with ⟨n, running, hrunning, hfound, hstarted⟩
  rw [hinvoked] at hrunning
  rw [← Option.some.inj hrunning] at hfound
  refine ⟨{ running with outcome := .succeeded }, ?_, rfl, hstarted⟩
  refine List.mem_iff_getElem?.mpr ⟨id, ?_⟩
  simp only [World.endLoad, List.getElem?_modify, if_true, hfound, Option.map_eq_map,
    Option.map_some]

theorem step_inv (hinv : Inv world) (action : Action) :
    Inv (world.step action) := by
  have hevent : ∀ event, (∀ job delta, event ≠ .loadDone job delta) → Inv (world.deliver event) :=
    fun event hne => deliver_inv hinv event fun job delta heq => absurd heq (hne job delta)
  cases action with
  | configure job | disable | syncRequested | resultApplied cycle | retryBackoff =>
    exact hevent _ (by simp)
  | loadDone id delta =>
    simp only [World.step]
    split
    · next job _ hload =>
      have hended := endLoad_inv hinv hload rfl .succeeded
      split
      · next hinvoked =>
        refine deliver_inv hended _ ?_
        intro _ _ _ hsyncing
        exact endLoad_done hinv hinvoked hsyncing
      · exact hended
    · exact hinv
  | loadError id error =>
    simp only [World.step]
    split
    · next hload =>
      have hended := endLoad_inv hinv hload rfl .failed
      split
      · exact deliver_inv hended _ (by simp)
      · exact hended
    · exact hinv

/-! ## Covered tickets -/

/-- At rest, the tickets are covered when all departures from the generation are. -/
theorem covered_iff (hinv : Inv world) (hidle : world.machine.state = .idle) :
    world.Covered ↔ ∀ ticket, (world.machine.generation, ticket) ∈ world.departures →
      ticket ≤ world.machine.context.settledTicket := by
  constructor
  · intro hcovered ticket hmem
    rcases hinv.requests.departed _ ticket hmem with ⟨hpos, hticket⟩
    have := hcovered hidle (ticket - 1) hticket
    omega
  · intro hdepartures _ n hticket
    by_contra hunsettled
    rcases hinv.requests.outstanding n _ hticket (Nat.le_of_not_lt hunsettled) with
      ⟨hbusy, _⟩ | ⟨ticket, hmem, hlt⟩
    · simp [Machine.isBusy, hidle] at hbusy
    · have := hdepartures ticket hmem
      omega

theorem covered_of_ne_idle (h : world.machine.state ≠ .idle) : world.Covered :=
  fun hidle => absurd hidle h

theorem deliver_machine (world : World) (event : WorkspaceDeltaEvent) :
    (world.deliver event).machine = transition world.machine event := rfl

/-- An event that leaves the departures and the settled tickets alone keeps what is
covered, as long as the machine rests with the generation it had. -/
theorem covered_deliver_of_rest (hinv : Inv world) (hcovered : world.Covered)
    {event : WorkspaceDeltaEvent} (hdeliver : Inv (world.deliver event))
    (hrest : (world.deliver event).machine.state = .idle → world.machine.state = .idle
      ∧ (world.deliver event).machine.generation = world.machine.generation
      ∧ (world.deliver event).machine.context.settledTicket
          = world.machine.context.settledTicket) :
    (world.deliver event).Covered := by
  by_cases hidle : (world.deliver event).machine.state = .idle
  · rcases hrest hidle with ⟨hold, hgeneration, hsettled⟩
    have hdepartures : (world.deliver event).departures = world.departures := by
      simp [World.deliver, Machine.isBusy, hold]
    rw [covered_iff hdeliver hidle, hgeneration, hsettled, hdepartures]
    exact (covered_iff hinv hold).mp hcovered
  · exact covered_of_ne_idle hidle

theorem covered_deliver (hinv : Inv world) (hcovered : world.Covered)
    {event : WorkspaceDeltaEvent} (hdeliver : Inv (world.deliver event))
    (hconfigure : ∀ job, event ≠ .configure job) : (world.deliver event).Covered := by
  have hstep := machineStep_transition world.machine event
  rw [← deliver_machine world event] at hstep
  -- a machine that rests after any other event rested before, or has settled every ticket
  by_cases hidle : (world.deliver event).machine.state = .idle
  · generalize hmachine : (world.deliver event).machine = machine at hstep hidle
    cases hstep with
    | ignored =>
      refine covered_deliver_of_rest hinv hcovered hdeliver ?_
      intro _
      rw [hmachine]
      exact ⟨hidle, rfl, rfl⟩
    | configured | entered => exact absurd rfl (hconfigure _)
    | recorded hbusy =>
      rw [isBusy_iff] at hbusy
      simp only at hidle
      simp [hidle] at hbusy
    | rested _ _ _ hcovers =>
      intro _ n hticket
      have hlt := (List.getElem?_eq_some_iff.mp hticket).1
      rw [hdeliver.requests.recorded, hmachine] at hlt
      rw [hmachine]
      exact lt_of_lt_of_le hlt (hcovers.trans (Nat.le_max_right _ _))
    | _ => simp at hidle
  · exact covered_of_ne_idle hidle

theorem covered_configure_iff (hinv : Inv world) (hcovered : world.Covered)
    (job : WorkspaceDeltaJob) :
    (world.deliver (.configure job)).Covered ↔ Meets world (.configure job) := by
  have hdeliver := deliver_inv hinv (.configure job) (by simp)
  have hstep := machineStep_configure world.machine job
  rw [← deliver_machine world (.configure job)] at hstep
  generalize hmachine : (world.deliver (.configure job)).machine = machine at hstep
  cases hstep with
  | ignored hconfigure => exact absurd rfl (hconfigure job)
  | configured hactive hsame =>
    have hmeets : Meets world (.configure job) := by
      intro henters
      rcases henters with hinactive | hother
      · exact absurd hinactive hactive
      · rw [hsame] at hother
        simp at hother
    refine iff_of_true ?_ hmeets
    refine covered_deliver_of_rest hinv hcovered hdeliver ?_
    rw [hmachine]
    intro hidle
    exact ⟨hidle, (generation_of_isSameSession hsame).symm, rfl⟩
  | entered henters =>
    have hidle : (world.deliver (.configure job)).machine.state = .idle := by rw [hmachine]
    have hdepartures : ∀ ticket, (some job.sessionGeneration, ticket)
          ∈ (world.deliver (.configure job)).departures ↔
        (some job.sessionGeneration, ticket) ∈ world.departures := by
      intro ticket
      simp only [World.deliver]
      split
      · next hleaves =>
        -- the generation that is left is another one
        have hother : world.machine.generation ≠ some job.sessionGeneration := by
          simp only [Machine.departs, isSameSession, Bool.and_eq_true, Bool.not_eq_true',
            decide_eq_false_iff_not] at hleaves
          exact hleaves.2
        simp only [List.mem_append, List.mem_singleton, Prod.mk.injEq]
        constructor
        · rintro (hmem | ⟨hsame, -⟩)
          · exact hmem
          · exact absurd hsame.symm hother
        · exact Or.inl
      · rfl
    rw [covered_iff hdeliver hidle, hmachine]
    show (∀ ticket, (some job.sessionGeneration, ticket)
        ∈ (world.deliver (.configure job)).departures →
          ticket ≤ world.machine.context.settledTicket) ↔ _
    simp only [hdepartures]
    constructor
    · intro hall _
      exact hall
    · intro hmeets
      exact hmeets henters

/-- A step leaves a covered world covered exactly when it meets the condition. -/
theorem covered_step_iff (hinv : Inv world) (hcovered : world.Covered)
    (action : Action) : (world.step action).Covered ↔ Meets world action := by
  have hevent : ∀ event, (∀ job delta, event ≠ .loadDone job delta) →
      (∀ job, event ≠ .configure job) → (world.deliver event).Covered := by
    intro event hload hconfigure
    exact covered_deliver hinv hcovered
      (deliver_inv hinv event fun job delta heq => absurd heq (hload job delta)) hconfigure
  cases action with
  | configure job => exact covered_configure_iff hinv hcovered job
  | disable | syncRequested | resultApplied cycle | retryBackoff =>
    exact iff_of_true (hevent _ (by simp) (by simp)) trivial
  | loadDone id delta =>
    refine iff_of_true ?_ trivial
    simp only [World.step]
    split
    · next hload =>
      have hended := endLoad_inv hinv hload rfl .succeeded
      have hcovered' : (world.endLoad id .succeeded).Covered := hcovered
      split
      · next hinvoked =>
        refine covered_deliver hended hcovered' (deliver_inv hended _ ?_) (by simp)
        intro _ _ _ hsyncing
        exact endLoad_done hinv hinvoked hsyncing
      · exact hcovered'
    · exact hcovered
  | loadError id error =>
    refine iff_of_true ?_ trivial
    simp only [World.step]
    split
    · next hload =>
      have hended := endLoad_inv hinv hload rfl .failed
      have hcovered' : (world.endLoad id .failed).Covered := hcovered
      split
      · exact covered_deliver hended hcovered' (deliver_inv hended _ (by simp)) (by simp)
      · exact hcovered'
    · exact hcovered

/-! ## Sequences of events -/

theorem after_inv (actions : List Action) : Inv (World.after actions) := by
  have hfold : ∀ (actions : List Action) (world : World), Inv world →
      Inv (actions.foldl World.step world) := by
    intro actions
    induction actions with
    | nil =>
      intro world hinv
      exact hinv
    | cons action actions ih =>
      intro world hinv
      exact ih (world.step action) (step_inv hinv action)
  exact hfold actions .initial inv_initial

theorem after_take_succ {actions : List Action} {n : Nat} {action : Action}
    (h : actions[n]? = some action) :
    World.after (actions.take (n + 1)) = (World.after (actions.take n)).step action := by
  rw [World.after, List.take_add_one, List.foldl_append, h]
  rfl

theorem after_take_of_none {actions : List Action} {n : Nat} (h : actions[n]? = none) :
    World.after (actions.take (n + 1)) = World.after (actions.take n) := by
  rw [World.after, List.take_add_one, List.foldl_append, h]
  rfl

/-- Over every sequence of events: whenever the machine rests, every ticket recorded
under the configured generation is settled, exactly when no `configure` brings back a
generation that was left in the middle of a sync whose tickets are still not settled;
and a ticket is only ever settled by a successful load that was started after it was
recorded. -/
theorem requests_covered_iff (actions : List Action) :
    ((∀ n, (World.after (actions.take n)).Covered) ↔
      ∀ n action, actions[n]? = some action → Meets (World.after (actions.take n)) action)
    ∧ ∀ n, (World.after (actions.take n)).SettledByLoads := by
  refine ⟨⟨?_, ?_⟩, fun n => (after_inv _).cycles.settled⟩
  · intro hcovered n action haction
    rw [← covered_step_iff (after_inv _) (hcovered n), ← after_take_succ haction]
    exact hcovered (n + 1)
  · intro hmeets n
    induction n with
    | zero => exact covered_of_ne_idle (by simp [World.after, World.initial, Machine.initial])
    | succ n ih =>
      cases haction : actions[n]? with
      | none =>
        rw [after_take_of_none haction]
        exact ih
      | some action =>
        rw [after_take_succ haction, covered_step_iff (after_inv _) ih]
        exact hmeets n action haction

def editorJob : WorkspaceDeltaJob where
  sessionGeneration := ['g']
  request :=
    { projectId := 1
      projectType := .typst
      latexEngine := .xetex
      entryFilePath := ['m']
      afterDocumentsChangeSequence := none }

/-- A request is recorded, the machine is disabled while it loads, and is configured
with the same generation again: it rests with the request not settled and no load
that covers it. -/
theorem disabledSync_dropped :
    let world := World.after [.configure editorJob, .syncRequested, .disable, .configure editorJob]
    world.machine.state = .idle ∧ world.machine.generation = some ['g']
      ∧ world.tickets = [some ['g']] ∧ world.machine.context.settledTicket = 0
      ∧ ¬ world.Covered := by
  intro world
  refine ⟨rfl, rfl, rfl, rfl, ?_⟩
  intro hcovered
  exact absurd (hcovered rfl 0 rfl) (by decide)

end Toss.Web.DeltaMachine
