import Toss.Web.WorkspaceSession

/-!
# The workspace delta machine

`workspaceDeltaActor.ts`: requests to synchronize are numbered, a cycle loads a
delta for all that were recorded before it began, and they are settled when the
result is applied.

* `transition` — the machine; an event that it has no transition for is dropped;
* `World`, `World.step` — the machine with the loads it invokes, and a history of the
  requests it recorded;
* `World.Covered`, `World.SettledByLoads` — what the numbering is for.

The load that a cycle invokes is stopped when its state is left; a result that
comes later is dropped.
-/

namespace Toss.Web.DeltaMachine

open Toss.Workspace

structure WorkspaceDeltaRequest where
  projectId : Uuid
  projectType : ProjectType
  latexEngine : LatexEngine
  entryFilePath : Text
  afterDocumentsChangeSequence : Option Int
deriving DecidableEq, Repr

structure WorkspaceDeltaJob where
  sessionGeneration : Text
  request : WorkspaceDeltaRequest
deriving DecidableEq, Repr

inductive DeltaResult
  | success (delta : WorkspaceDelta)
  | error (error : Text)

structure CompletedWorkspaceDelta where
  cycle : Nat
  job : WorkspaceDeltaJob
  result : DeltaResult

structure WorkspaceDeltaContext where
  job : Option WorkspaceDeltaJob
  activeJob : Option WorkspaceDeltaJob
  activeCycle : Nat
  nextCycle : Nat
  requestedTicket : Nat
  activeTargetTicket : Nat
  settledTicket : Nat
  retryAttempt : Nat
  completed : Option CompletedWorkspaceDelta

inductive WorkspaceDeltaState
  | inactive
  /-- `enabled.idle` and the other substates of `enabled`. -/
  | idle
  | syncing
  | publishing
  | retrying
deriving DecidableEq, Repr

structure Machine where
  state : WorkspaceDeltaState
  context : WorkspaceDeltaContext

inductive WorkspaceDeltaEvent
  | configure (job : WorkspaceDeltaJob)
  | disable
  | syncRequested
  | resultApplied (cycle : Nat)
  /-- `onDone` and `onError` of the invoked load. -/
  | loadDone (job : WorkspaceDeltaJob) (delta : WorkspaceDelta)
  | loadError (error : Text)
  /-- The timer of `retrying`. -/
  | retryBackoff

/-! ## Guards -/

def isSameSession (context : WorkspaceDeltaContext) (job : WorkspaceDeltaJob) : Bool :=
  context.job.map (·.sessionGeneration) = some job.sessionGeneration

def isPublishedCycle (context : WorkspaceDeltaContext) (cycle : Nat) : Bool :=
  context.completed.any fun completed => completed.cycle = cycle

def publishedCycleFailed (context : WorkspaceDeltaContext) (cycle : Nat) : Bool :=
  context.completed.any fun completed =>
    completed.cycle = cycle && match completed.result with
      | .error _ => true
      | .success _ => false

def publishedCycleSucceededWithNewerRequest (context : WorkspaceDeltaContext) (cycle : Nat) :
    Bool :=
  (context.completed.any fun completed =>
    completed.cycle = cycle && match completed.result with
      | .success _ => true
      | .error _ => false)
    && context.activeTargetTicket < context.requestedTicket

/-! ## Actions -/

def configure (context : WorkspaceDeltaContext) (job : WorkspaceDeltaJob) :
    WorkspaceDeltaContext :=
  { context with job := some job }

def replaceConfiguration (context : WorkspaceDeltaContext) (job : WorkspaceDeltaJob) :
    WorkspaceDeltaContext :=
  { context with
    job := some job
    activeJob := none
    activeCycle := 0
    activeTargetTicket := 0
    completed := none
    retryAttempt := 0 }

def recordRequest (context : WorkspaceDeltaContext) : WorkspaceDeltaContext :=
  { context with requestedTicket := context.requestedTicket + 1 }

def beginCycle (context : WorkspaceDeltaContext) : WorkspaceDeltaContext :=
  { context with
    activeJob := context.job
    activeCycle := context.nextCycle
    activeTargetTicket := context.requestedTicket
    nextCycle := context.nextCycle + 1
    completed := none }

def reset (context : WorkspaceDeltaContext) : WorkspaceDeltaContext :=
  { context with
    job := none
    activeJob := none
    activeCycle := 0
    activeTargetTicket := 0
    completed := none
    retryAttempt := 0 }

def acknowledgeFailure (context : WorkspaceDeltaContext) : WorkspaceDeltaContext :=
  { context with completed := none, retryAttempt := context.retryAttempt + 1 }

def acknowledgeSuccess (context : WorkspaceDeltaContext) : WorkspaceDeltaContext :=
  { context with
    settledTicket := max context.settledTicket context.activeTargetTicket
    completed := none
    retryAttempt := 0 }

def acknowledgeSuccessAndBeginNext (context : WorkspaceDeltaContext) : WorkspaceDeltaContext :=
  { context with
    settledTicket := max context.settledTicket context.activeTargetTicket
    activeJob := context.job
    activeCycle := context.nextCycle
    activeTargetTicket := context.requestedTicket
    nextCycle := context.nextCycle + 1
    completed := none
    retryAttempt := 0 }

def completeLoad (context : WorkspaceDeltaContext) (job : WorkspaceDeltaJob)
    (delta : WorkspaceDelta) : WorkspaceDeltaContext :=
  { context with
    completed := some { cycle := context.activeCycle, job, result := .success delta } }

def failLoad (context : WorkspaceDeltaContext) (error : Text) : WorkspaceDeltaContext :=
  { context with
    completed := context.activeJob.map fun job =>
      { cycle := context.activeCycle, job, result := .error error } }

/-! ## The machine -/

def Machine.initial : Machine where
  state := .inactive
  context :=
    { job := none
      activeJob := none
      activeCycle := 0
      nextCycle := 1
      requestedTicket := 0
      activeTargetTicket := 0
      settledTicket := 0
      retryAttempt := 0
      completed := none }

/-- What `result.applied` does in `publishing`. -/
def publish (machine : Machine) (cycle : Nat) : Machine :=
  let context := machine.context
  if publishedCycleFailed context cycle then ⟨.retrying, acknowledgeFailure context⟩
  else if publishedCycleSucceededWithNewerRequest context cycle then
    ⟨.syncing, acknowledgeSuccessAndBeginNext context⟩
  else if isPublishedCycle context cycle then ⟨.idle, acknowledgeSuccess context⟩
  else machine

def transition (machine : Machine) (event : WorkspaceDeltaEvent) : Machine :=
  let context := machine.context
  match machine.state, event with
  | .inactive, .configure job => ⟨.idle, replaceConfiguration context job⟩
  | .inactive, _ => machine
  | state, .configure job =>
    if isSameSession context job then ⟨state, configure context job⟩
    else ⟨.idle, replaceConfiguration context job⟩
  | _, .disable => ⟨.inactive, reset context⟩
  | .idle, .syncRequested => ⟨.syncing, beginCycle (recordRequest context)⟩
  | state, .syncRequested => ⟨state, recordRequest context⟩
  | .syncing, .loadDone job delta => ⟨.publishing, completeLoad context job delta⟩
  | .syncing, .loadError error => ⟨.publishing, failLoad context error⟩
  | .publishing, .resultApplied cycle => publish machine cycle
  | .retrying, .retryBackoff => ⟨.syncing, beginCycle context⟩
  | _, _ => machine

/-- A sync is under way. -/
def Machine.isBusy (machine : Machine) : Bool :=
  match machine.state with
  | .syncing | .publishing | .retrying => true
  | .inactive | .idle => false

/-- The generation that the machine is configured with. -/
def Machine.generation (machine : Machine) : Option Text :=
  machine.context.job.map (·.sessionGeneration)

/-- The event takes the machine out of the session it is configured with. -/
def Machine.departs (machine : Machine) : WorkspaceDeltaEvent → Bool
  | .configure job => !isSameSession machine.context job
  | .disable => true
  | _ => false

/-! ## The machine with its loads -/

inductive LoadOutcome
  | pending
  | succeeded
  | failed
deriving DecidableEq, Repr

structure Load where
  job : Option WorkspaceDeltaJob
  /-- The tickets that were recorded when the load was started. -/
  startedAfter : Nat
  outcome : LoadOutcome
deriving DecidableEq, Repr

structure World where
  machine : Machine
  /-- The generation that each ticket was recorded under, the first ticket first. -/
  tickets : List (Option Text)
  loads : List Load
  /-- The load whose result the machine waits for. -/
  invoked : Option Nat
  /-- The generations that the machine left while a sync was under way, with the last
  ticket at that time. -/
  departures : List (Option Text × Nat)

def World.initial : World where
  machine := .initial
  tickets := []
  loads := []
  invoked := none
  departures := []

/-- The machine takes an event. -/
def World.deliver (world : World) (event : WorkspaceDeltaEvent) : World :=
  let machine := transition world.machine event
  let starts := decide (machine.state = .syncing) && decide (world.machine.state ≠ .syncing)
  { machine
    tickets :=
      if world.machine.context.requestedTicket < machine.context.requestedTicket then
        world.tickets ++ [world.machine.generation]
      else world.tickets
    loads :=
      if starts then
        world.loads ++
          [{ job := machine.context.activeJob
             startedAfter := machine.context.requestedTicket
             outcome := .pending }]
      else world.loads
    invoked :=
      if starts then some world.loads.length
      else if machine.state = .syncing then world.invoked
      else none
    departures :=
      if world.machine.isBusy && world.machine.departs event then
        world.departures ++
          [(world.machine.generation, world.machine.context.requestedTicket)]
      else world.departures }

inductive Action
  | configure (job : WorkspaceDeltaJob)
  | disable
  | syncRequested
  | resultApplied (cycle : Nat)
  | loadDone (load : Nat) (delta : WorkspaceDelta)
  | loadError (load : Nat) (error : Text)
  | retryBackoff

/-- The load of this number comes to its end. -/
def World.endLoad (world : World) (load : Nat) (outcome : LoadOutcome) : World :=
  { world with loads := world.loads.modify load fun l => { l with outcome } }

def World.step (world : World) : Action → World
  | .configure job => world.deliver (.configure job)
  | .disable => world.deliver .disable
  | .syncRequested => world.deliver .syncRequested
  | .resultApplied cycle => world.deliver (.resultApplied cycle)
  | .retryBackoff => world.deliver .retryBackoff
  | .loadDone id delta =>
    match world.loads[id]? with
    | some { job := some job, outcome := .pending, .. } =>
      let ended := world.endLoad id .succeeded
      if world.invoked = some id then ended.deliver (.loadDone job delta) else ended
    | _ => world
  | .loadError id error =>
    match world.loads[id]? with
    | some { outcome := .pending, .. } =>
      let ended := world.endLoad id .failed
      if world.invoked = some id then ended.deliver (.loadError error) else ended
    | _ => world

/-- The world after the actions. -/
def World.after (actions : List Action) : World :=
  actions.foldl World.step .initial

/-! ## What the tickets are for -/

/-- At rest, every ticket that was recorded under the configured generation is
settled. -/
def World.Covered (world : World) : Prop :=
  world.machine.state = .idle → ∀ n, world.tickets[n]? = some world.machine.generation →
    n < world.machine.context.settledTicket

/-- Every settled ticket is settled by a successful load that was started after the
ticket was recorded. -/
def World.SettledByLoads (world : World) : Prop :=
  ∀ n < world.machine.context.settledTicket, ∃ load ∈ world.loads,
    load.outcome = .succeeded ∧ n < load.startedAfter

/-- The action brings no generation back that was left in the middle of a sync with
a ticket that is still not settled. -/
def Meets (world : World) : Action → Prop
  | .configure job =>
    (world.machine.state = .inactive ∨ isSameSession world.machine.context job = false) →
      ∀ ticket, (some job.sessionGeneration, ticket) ∈ world.departures →
        ticket ≤ world.machine.context.settledTicket
  | _ => True

end Toss.Web.DeltaMachine
