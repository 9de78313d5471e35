import Mathlib.Data.List.Count
import Toss.ExternalRepositories.OperationQueues
import Toss.Foundation.Run

/-!
# External repository operations exclude each other

Workers and reauthorizations never make an ended operation active again; only the
transactions that hold the project add one. What such a transaction has checked therefore
still holds when it commits.

* `OperationQueues.Exclusive` — the invariant;
* `Settles` — what the transactions that do not hold the project do to it;
* `operations_exclude_each_other`.
-/

namespace Toss.ExternalRepositories

open Toss.Foundation

namespace OperationQueues

variable {s s' : OperationQueues}

/-- The number of inbound jobs in an active state. -/
def activeJobs (s : OperationQueues) : Nat :=
  s.jobs.countP fun job => job.state.isActive

/-- What the transaction that holds the project knows before a statement. -/
def KnownAt (s : OperationQueues) : LockedStep → Prop
  | .insertJob _ => s.queue = none
  | .clearImportError command | .commitSync command =>
    s.queue = none ∧ s.activeJobs = 0 ∧ s.link.isSome = true
      ∧ command.jobId ∉ s.jobs.map InboundJobRow.id
  | .writeQueue _ target _ =>
    (target.inboundActive = false → s.activeJobs = 0) ∧ s.link.isSome = true
  | .commitCheckpoint (some (.insert _)) _ => s.activeJobs = 0 ∧ s.link.isSome = true
  | .checkInbound checkpointActive => checkpointActive = false → s.queue = none
  | .deleteLink | .commitUnlink => s.queue = none ∧ s.activeJobs = 0
  | _ => True

structure Exclusive (s : OperationQueues) : Prop where
  ids : (s.jobs.map InboundJobRow.id).Nodup
  one_job : s.activeJobs ≤ 1
  apart : s.queue.isSome = true → s.activeJobs = 0
  job_linked : s.jobs ≠ [] → s.link.isSome = true
  queue_linked : s.queue.isSome = true → s.link.isSome = true
  link_project : s.link.isSome = true → s.project.isSome = true
  locked_project : s.locked.isSome = true → s.project.isSome = true
  known : ∀ next, s.locked = some next → s.KnownAt next

/-- A transaction that does not hold the project leaves the operations in their places or
ends them. -/
structure Settles (s s' : OperationQueues) : Prop where
  activeJobs_le : s'.activeJobs ≤ s.activeJobs
  ids : s'.jobs.map InboundJobRow.id = s.jobs.map InboundJobRow.id
  queue_none : s.queue = none → s'.queue = none
  link_isSome : s.link.isSome = true → s'.link.isSome = true
  project_isSome : s'.project.isSome = s.project.isSome
  link_project : s'.link.isSome = true → s.link.isSome = true ∨ s.project.isSome = true
  locked : s'.locked = s.locked

theorem Settles.exclusive (hsettles : Settles s s') (h : s.Exclusive) : s'.Exclusive := by
  -- neither queue gains an entry
  have hzero : s.activeJobs = 0 → s'.activeJobs = 0 := by
    intro hnone
    have hle := hsettles.activeJobs_le
    omega
  have hqueue : s'.queue.isSome = true → s.queue.isSome = true := by
    intro hsome
    by_contra hnone
    rw [Bool.not_eq_true, Option.isSome_eq_false_iff, Option.isNone_iff_eq_none] at hnone
    rw [hsettles.queue_none hnone] at hsome
    cases hsome
  refine ⟨?_, ?_, ?_, ?_, ?_, ?_, ?_, ?_⟩
  · rw [hsettles.ids]
    exact h.ids
  · exact Nat.le_trans hsettles.activeJobs_le h.one_job
  · intro hsome
    exact hzero (h.apart (hqueue hsome))
  · intro hjobs
    refine hsettles.link_isSome (h.job_linked fun hnil => hjobs ?_)
    have hids := hsettles.ids
    rw [hnil] at hids
    exact List.map_eq_nil_iff.mp hids
  · intro hsome
    exact hsettles.link_isSome (h.queue_linked (hqueue hsome))
  · intro hlink
    rw [hsettles.project_isSome]
    rcases hsettles.link_project hlink with hbefore | hproject
    · exact h.link_project hbefore
    · exact hproject
  · rw [hsettles.locked, hsettles.project_isSome]
    exact h.locked_project
  · intro next hnext
    rw [hsettles.locked] at hnext
    have hknown := h.known next hnext
    unfold KnownAt at hknown ⊢
    split at hknown
    · exact hsettles.queue_none hknown
    · exact ⟨hsettles.queue_none hknown.1, hzero hknown.2.1, hsettles.link_isSome hknown.2.2.1,
        hsettles.ids ▸ hknown.2.2.2⟩
    · exact ⟨hsettles.queue_none hknown.1, hzero hknown.2.1, hsettles.link_isSome hknown.2.2.1,
        hsettles.ids ▸ hknown.2.2.2⟩
    · exact ⟨fun hinactive => hzero (hknown.1 hinactive), hsettles.link_isSome hknown.2⟩
    · exact ⟨hzero hknown.1, hsettles.link_isSome hknown.2⟩
    · exact fun hinactive => hsettles.queue_none (hknown hinactive)
    · exact ⟨hsettles.queue_none hknown.1, hzero hknown.2⟩
    · exact ⟨hsettles.queue_none hknown.1, hzero hknown.2⟩
    · trivial

/-! ## The statements of the workers -/

/-- The jobs afterwards: the same ones, and no more of them active. -/
def KeepsJobs (jobs jobs' : List InboundJobRow) : Prop :=
  jobs'.countP (fun job => job.state.isActive) ≤ jobs.countP (fun job => job.state.isActive)
    ∧ jobs'.map InboundJobRow.id = jobs.map InboundJobRow.id

/-- An update that makes no ended job active. -/
theorem updateJobs_keeps {cond : InboundJobRow → Bool} {set : InboundJobRow → InboundJobRow}
    {jobs jobs' : List InboundJobRow} (h : updateJobs cond set jobs = some jobs')
    (hid : ∀ job, (set job).id = job.id)
    (hset : ∀ job ∈ jobs, cond job = true → job.state.isActive = true) : KeepsJobs jobs jobs' := by
  unfold updateJobs at h
  dsimp only at h
  split at h
  · cases h
    constructor
    · rw [updateWhere, List.countP_map]
      refine List.countP_mono_left fun job hjob hactive => ?_
      simp only [Function.comp_apply] at hactive
      split at hactive
      · rename_i hcond
        exact hset job hjob hcond
      · exact hactive
    · exact map_updateWhere (fun job _ => hid job) jobs
  · cases h

theorem isActive_of_processing {cond : Bool} {job : InboundJobRow}
    (h : (cond && decide (job.state = .processing)) = true) : job.state.isActive = true := by
  simp only [Bool.and_eq_true, decide_eq_true_eq] at h
  rw [h.2]
  rfl

variable {jobs : List InboundJobRow} {jobId : Uuid} {now : Timestamp}

/-- The job that is claimed was due. -/
theorem claimDueJob_keeps
    {now staleBefore : Timestamp} {claim : List InboundJobRow × ClaimedInboundJob}
    (hids : (jobs.map InboundJobRow.id).Nodup)
    (h : claimDueJob jobs jobId now staleBefore = some claim) : KeepsJobs jobs claim.1 := by
  rcases Option.bind_eq_some_iff.mp h with ⟨due, hdue, hrest⟩
  rcases Option.bind_eq_some_iff.mp hrest with ⟨jobs', hupdate, heq⟩
  cases heq
  refine updateJobs_keeps hupdate (fun _ => rfl) ?_
  intro job hjob hid
  have hfound := List.find?_some hdue
  simp only [Bool.and_eq_true, decide_eq_true_eq] at hfound hid
  -- ids are keys
  have hsame : job = due :=
    List.inj_on_of_nodup_map hids hjob (List.mem_of_find?_eq_some hdue) (hid.trans hfound.1.symm)
  have hisDue := hfound.2
  rw [← hsame] at hisDue
  unfold InboundJobRow.isDue at hisDue
  cases hstate : job.state with
  | pending | processing | retryWait => rfl
  | paused | failed | succeeded =>
    rw [hstate] at hisDue
    cases hisDue

theorem updateJobPhase_keeps {jobs jobs' : List InboundJobRow} {phase : ExternalGitInboundPhase}
    (h : updateJobPhase jobs jobId phase now = some jobs') : KeepsJobs jobs jobs' :=
  updateJobs_keeps h (fun _ => rfl) fun _ _ => isActive_of_processing

theorem markJobApplied_keeps {jobs jobs' : List InboundJobRow} {remoteSha : Text}
    {workspaceVersion : Int}
    (h : markJobApplied jobs jobId remoteSha workspaceVersion now = some jobs') :
    KeepsJobs jobs jobs' := by
  unfold markJobApplied at h
  split at h
  · exact updateJobs_keeps h (fun _ => rfl) fun _ _ => isActive_of_processing
  · cases h

variable {result : List InboundJobRow × Bool}

theorem completeJob_keeps (h : completeJob jobs jobId = some result) : KeepsJobs jobs result.1 := by
  rcases Option.map_eq_some_iff.mp h with ⟨jobs', hupdate, rfl⟩
  refine updateJobs_keeps hupdate (fun _ => rfl) ?_
  intro job _ hcond
  simp only [Bool.and_eq_true, decide_eq_true_eq] at hcond
  rw [hcond.1.2]
  rfl

theorem failJob_keeps {state : ExternalGitJobState} {retryPhase : ExternalGitInboundPhase}
    {nextAttemptAt : Timestamp} {errorCode : ExternalGitFailureCode}
    (h : failJob jobs jobId state retryPhase nextAttemptAt errorCode = some result) :
    KeepsJobs jobs result.1 := by
  rcases Option.map_eq_some_iff.mp h with ⟨jobs', hupdate, rfl⟩
  exact updateJobs_keeps hupdate (fun _ => rfl) fun _ _ => isActive_of_processing

theorem resumeReauthorizedJobs_keeps {jobs jobs' : List InboundJobRow}
    (h : resumeReauthorizedJobs jobs now = some jobs') : KeepsJobs jobs jobs' := by
  refine updateJobs_keeps h (fun _ => rfl) ?_
  intro job _ hcond
  simp only [Bool.and_eq_true, decide_eq_true_eq] at hcond
  rw [hcond.1]
  rfl

/-! ## The transactions of everyone else -/

variable {link : Option OperationLink} {queue : Option CheckpointQueueRow}

/-- The jobs are updated, the link and the queue row change in place. -/
theorem settles_of_jobs (hjobs : KeepsJobs s.jobs jobs) (hlink : link.isSome = s.link.isSome)
    (hqueue : s.queue = none → queue = none) :
    Settles s { s with jobs, link, queue } where
  activeJobs_le := hjobs.1
  ids := hjobs.2
  queue_none := hqueue
  link_isSome := by
    intro hsome
    exact hlink.trans hsome
  project_isSome := rfl
  link_project := by
    intro hsome
    exact Or.inl (hlink.symm.trans hsome)
  locked := rfl

theorem settles_of_rows (hlink : link.isSome = s.link.isSome)
    (hqueue : s.queue = none → queue = none) : Settles s { s with link, queue } :=
  settles_of_jobs ⟨Nat.le_refl _, rfl⟩ hlink hqueue

/-- Every transaction that does not hold the project settles. -/
theorem settles_step {action : OperationAction} (hids : (s.jobs.map InboundJobRow.id).Nodup)
    (hstep : s.step action = some s')
    (hothers : match action with
      | .createProject | .createImport _ _ _ | .deleteProject | .enqueueSync _
      | .enqueueCheckpoint _ | .unlinkRepository | .advance | .rollback => False
      | _ => True) : Settles s s' := by
  -- what concerns the lease itself is excluded by `hothers`; the rest settles or writes rows
  cases action with
  | createProject | createImport | deleteProject | enqueueSync | enqueueCheckpoint
  | unlinkRepository | advance | rollback => exact hothers.elim
  | edit =>
    simp only [step] at hstep
    split at hstep
    · cases hstep
      exact ⟨Nat.le_refl _, rfl, fun hnone => hnone, fun hsome => hsome, Option.isSome_map .., Or.inl,
        rfl⟩
    · cases hstep
  | linkRepository provider repositoryId actorUserId =>
    -- a project is linked once, and by a second link only to the same repository
    simp only [step] at hstep
    split at hstep
    · cases hstep
    rename_i hproject
    have hsome : s.project.isSome = true := by
      simpa [Option.isSome_iff_ne_none] using hproject
    split at hstep
    · cases hstep
      exact ⟨Nat.le_refl _, rfl, fun hnone => hnone, fun _ => rfl, rfl, fun _ => Or.inr hsome, rfl⟩
    rename_i link hlink
    split at hstep
    · cases hstep
      exact settles_of_rows (by rw [hlink]; rfl) fun hnone => hnone
    · cases hstep
  | reauthorize userId provider now =>
    rcases Option.bind_eq_some_iff.mp hstep with ⟨link, hlink, hrest⟩
    rcases Option.bind_eq_some_iff.mp hrest with ⟨_, -, hrest⟩
    rcases Option.bind_eq_some_iff.mp hrest with ⟨jobs, hjobs, heq⟩
    cases heq
    refine settles_of_jobs (resumeReauthorizedJobs_keeps hjobs) (by rw [hlink]; rfl) ?_
    intro hnone
    rw [hnone]
    rfl
  | claimJob jobId now staleBefore =>
    rcases Option.map_eq_some_iff.mp hstep with ⟨claim, hclaim, rfl⟩
    exact settles_of_jobs (claimDueJob_keeps hids hclaim) rfl fun hnone => hnone
  | updateJobPhase jobId phase now =>
    rcases Option.map_eq_some_iff.mp hstep with ⟨jobs, hjobs, rfl⟩
    exact settles_of_jobs (updateJobPhase_keeps hjobs) rfl fun hnone => hnone
  | markJobApplied jobId remoteSha workspaceVersion now =>
    rcases Option.map_eq_some_iff.mp hstep with ⟨jobs, hjobs, rfl⟩
    exact settles_of_jobs (markJobApplied_keeps hjobs) rfl fun hnone => hnone
  | completeJob jobId =>
    rcases Option.bind_eq_some_iff.mp hstep with ⟨result, hresult, hrest⟩
    rcases Option.bind_eq_some_iff.mp hrest with ⟨_, -, heq⟩
    cases heq
    exact settles_of_jobs (completeJob_keeps hresult) (Option.isSome_map ..) fun hnone => hnone
  | failJob jobId attemptCount failure now =>
    simp only [step] at hstep
    split at hstep
    · cases hstep
      exact settles_of_rows rfl fun hnone => hnone
    rcases Option.bind_eq_some_iff.mp hstep with ⟨result, hresult, heq⟩
    cases heq
    refine settles_of_jobs (failJob_keeps hresult) ?_ fun hnone => hnone
    split
    · exact Option.isSome_map ..
    · rfl
  | claimCheckpoint now staleBefore =>
    rcases Option.bind_eq_some_iff.mp hstep with ⟨row, hrow, hrest⟩
    rcases Option.bind_eq_some_iff.mp hrest with ⟨_, -, heq⟩
    cases heq
    refine settles_of_rows rfl fun hnone => ?_
    rw [hrow] at hnone
    cases hnone
  | updateQueuePhase phase | captureCheckpoint workspaceVersion checkpointSha now =>
    cases hstep
    refine settles_of_rows rfl fun hnone => ?_
    rw [hnone]
    rfl
  | completeCheckpoint workspaceVersion remoteSha =>
    cases hstep
    exact settles_of_rows (Option.isSome_map ..) fun _ => rfl
  | failCheckpoint attemptCount kind errorCode now =>
    cases hstep
    refine settles_of_rows (Option.isSome_map ..) fun hnone => ?_
    rw [hnone]
    rfl

/-! ## The transaction that holds the project -/

theorem activeJobExists_eq_false (h : s.activeJobExists = false) : s.activeJobs = 0 := by
  rw [activeJobs, List.countP_eq_zero]
  intro job hjob hactive
  have hany : s.activeJobExists = true := List.any_eq_true.mpr ⟨job, hjob, hactive⟩
  rw [h] at hany
  cases hany

/-- The holder moves on, or is rolled back, with the rows as they are. -/
theorem Exclusive.holder (h : s.Exclusive) {locked : Option LockedStep}
    (hproject : locked.isSome = true → s.project.isSome = true)
    (hknown : ∀ next, locked = some next → s.KnownAt next) :
    Exclusive { s with locked } :=
  ⟨h.ids, h.one_job, h.apart, h.job_linked, h.queue_linked, h.link_project, hproject, by
    intro next hnext
    have hafter := hknown next hnext
    unfold KnownAt at hafter ⊢
    split at hafter <;> exact hafter⟩

theorem Exclusive.goto (h : s.Exclusive) (hlocked : s.locked.isSome = true) {next : LockedStep}
    (hknown : s.KnownAt next) : (s.goto next).Exclusive := by
  refine h.holder (fun _ => h.locked_project hlocked) ?_
  intro next' hnext
  cases hnext
  exact hknown

theorem Exclusive.release (h : s.Exclusive) : Exclusive { s with locked := none } :=
  h.holder (fun hsome => by cases hsome) (fun next hnext => by cases hnext)

/-- Without link, job and queue row, and with nobody holding the project. -/
theorem exclusive_of_unlinked (project : Option Int) :
    Exclusive ⟨project, none, [], none, none⟩ where
  ids := List.nodup_nil
  one_job := Nat.zero_le 1
  apart := fun _ => rfl
  job_linked := fun hjobs => absurd rfl hjobs
  queue_linked := fun hsome => hsome
  link_project := by simp
  locked_project := by simp
  known := by simp

/-- What the insert of a job has found out. -/
theorem insertInboundJob_isSome
    {operation : ExternalGitInboundOperation} {sourceBranch : Text} {requestedByUserId : Uuid}
    (h : (insertInboundJob jobs jobId operation sourceBranch requestedByUserId now).isSome = true) :
    jobId ∉ jobs.map InboundJobRow.id
      ∧ jobs.countP (fun job => job.state.isActive) = 0 := by
  unfold insertInboundJob at h
  split at h
  · cases h
  rename_i hnone
  rw [Bool.not_eq_true, List.any_eq_false] at hnone
  constructor
  · intro hmem
    rcases List.mem_map.mp hmem with ⟨job, hjob, heq⟩
    exact hnone job hjob (by simp [heq])
  · rw [List.countP_eq_zero]
    intro job hjob hactive
    exact hnone job hjob (by simp [hactive])

/-- `enqueue_sync` commits its job. -/
theorem Exclusive.commitSync (h : s.Exclusive) {command : EnqueueInboundSync}
    (hknown : s.KnownAt (.commitSync command)) : (s.advance (.commitSync command)).Exclusive := by
  rcases hknown with ⟨hqueue, hactive, hlink, hid⟩
  have hone : (s.jobs ++ [command.row .sync]).countP (fun job => job.state.isActive) = 1 := by
    rw [List.countP_append, show s.jobs.countP _ = 0 from hactive]
    rfl
  have hlink' : (s.link.map fun link =>
      { link with lastImportError := none : OperationLink }).isSome = true := by
    rw [Option.isSome_map]
    exact hlink
  refine ⟨?_, Nat.le_of_eq hone, ?_, fun _ => hlink', fun _ => hlink', ?_, ?_, ?_⟩
  · show ((s.jobs ++ [command.row .sync]).map InboundJobRow.id).Nodup
    rw [List.map_append]
    refine h.ids.append (List.nodup_singleton _) ?_
    intro id hin hnew
    rcases List.mem_singleton.mp hnew with rfl
    exact hid hin
  · intro hsome
    change s.queue.isSome = true at hsome
    rw [hqueue] at hsome
    cases hsome
  · intro _
    exact h.link_project hlink
  · intro hsome
    cases hsome
  · intro next hnext
    cases hnext

/-- `enqueue_checkpoint` commits what it wrote. -/
theorem Exclusive.commitCheckpoint (h : s.Exclusive) {write : Option QueueWrite}
    (hknown : s.KnownAt (.commitCheckpoint write now)) :
    (s.advance (.commitCheckpoint write now)).Exclusive := by
  cases write with
  | none => exact h.release
  | some write =>
    cases write with
    | resume =>
      have hsettles : Settles s (s.resumeQueue now) := by
        refine settles_of_rows (Option.isSome_map ..) fun hnone => ?_
        rw [hnone]
        rfl
      exact (hsettles.exclusive h).release
    | insert version =>
      rcases hknown with ⟨hactive, hlink⟩
      have hinsert : (s.insertQueue version now).jobs = s.jobs
          ∧ (s.insertQueue version now).link = s.link
          ∧ (s.insertQueue version now).project = s.project := by
        unfold insertQueue
        split <;> exact ⟨rfl, rfl, rfl⟩
      rcases hinsert with ⟨hjobs, hsame, hproject⟩
      have hcount : (s.insertQueue version now).activeJobs = 0 := by
        rw [activeJobs, hjobs]
        exact hactive
      refine ⟨?_, ?_, fun _ => hcount, ?_, ?_, ?_, ?_, ?_⟩
      · show ((s.insertQueue version now).jobs.map InboundJobRow.id).Nodup
        rw [hjobs]
        exact h.ids
      · exact Nat.le_trans (Nat.le_of_eq hcount) (Nat.zero_le 1)
      · intro _
        exact (congrArg Option.isSome hsame).trans hlink
      · intro _
        exact (congrArg Option.isSome hsame).trans hlink
      · intro _
        exact (congrArg Option.isSome hproject).trans (h.link_project hlink)
      · intro hsome
        cases hsome
      · intro next hnext
        cases hnext

/-- A statement of the holder, one case for each. -/
theorem Exclusive.advance (h : s.Exclusive) {next : LockedStep} (hnext : s.locked = some next) :
    (s.advance next).Exclusive := by
  have hknown := h.known next hnext
  have hlocked : s.locked.isSome = true := by
    rw [hnext]
    rfl
  cases next with
  | checkCheckpoint command =>
    -- under the lock, no checkpoint is queued from here on
    unfold OperationQueues.advance
    dsimp only
    split
    · exact h.release
    · rename_i hqueue
      refine h.goto hlocked ?_
      simpa [KnownAt] using hqueue
  | insertJob command =>
    -- and no job was active when this one was inserted
    unfold OperationQueues.advance
    dsimp only
    split
    · rename_i hinsert
      rw [Bool.and_eq_true] at hinsert
      rcases insertInboundJob_isSome hinsert.2 with ⟨hid, hactive⟩
      exact h.goto hlocked ⟨hknown, hactive, hinsert.1, hid⟩
    · exact h.release
  | clearImportError command | deleteLink => exact h.goto hlocked hknown
  | commitSync command => exact h.commitSync hknown
  | selectTarget workspaceVersion now =>
    unfold OperationQueues.advance
    dsimp only
    split
    · exact h.release
    rename_i target htarget
    rcases Option.map_eq_some_iff.mp htarget with ⟨link, hlink, rfl⟩
    refine h.goto hlocked ⟨fun hinactive => activeJobExists_eq_false hinactive, ?_⟩
    rw [hlink]
    rfl
  | writeQueue workspaceVersion target now =>
    -- the queue is written only while no job is active
    refine h.goto hlocked ?_
    unfold queueWrite
    split
    · trivial
    rename_i hinactive
    rw [Bool.not_eq_true] at hinactive
    split
    · trivial
    · split
      · trivial
      · exact ⟨hknown.1 hinactive, hknown.2⟩
  | commitCheckpoint write now => exact h.commitCheckpoint hknown
  | checkOperation =>
    refine h.goto hlocked ?_
    intro hinactive
    rwa [Option.isSome_eq_false_iff, Option.isNone_iff_eq_none] at hinactive
  | checkInbound checkpointActive =>
    unfold OperationQueues.advance
    dsimp only
    split
    · exact h.release
    · rename_i hinactive
      rw [Bool.not_eq_true, Bool.or_eq_false_iff] at hinactive
      exact h.goto hlocked ⟨hknown hinactive.1, activeJobExists_eq_false hinactive.2⟩
  | commitUnlink => exact exclusive_of_unlinked s.project

theorem Exclusive.step {action : OperationAction} (h : s.Exclusive)
    (hstep : s.step action = some s') : s'.Exclusive := by
  cases action with
  | createProject =>
    simp only [OperationQueues.step] at hstep
    split at hstep
    · cases hstep
      refine ⟨h.ids, h.one_job, h.apart, h.job_linked, h.queue_linked, fun _ => rfl, fun _ => rfl, ?_⟩
      intro next hnext
      have hafter := h.known next hnext
      unfold KnownAt at hafter ⊢
      split at hafter <;> exact hafter
    · cases hstep
  | createImport command provider repositoryId =>
    simp only [OperationQueues.step] at hstep
    split at hstep
    · rename_i hproject
      cases hstep
      rw [Option.isNone_iff_eq_none] at hproject
      -- a project that does not exist has no link, hence no queue row, and is not locked
      have hlink : s.link.isSome = true → False := by
        intro hsome
        have hbefore := h.link_project hsome
        rw [hproject] at hbefore
        cases hbefore
      refine ⟨List.nodup_singleton _, Nat.le_refl 1, ?_, fun _ => rfl, fun _ => rfl, fun _ => rfl,
        fun _ => rfl, ?_⟩
      · intro hsome
        exact (hlink (h.queue_linked hsome)).elim
      · intro next hnext
        change s.locked = some next at hnext
        have hbefore := h.locked_project (by rw [hnext]; rfl)
        rw [hproject] at hbefore
        cases hbefore
    · cases hstep
  | deleteProject =>
    simp only [OperationQueues.step] at hstep
    split at hstep
    · cases hstep
      exact exclusive_of_unlinked none
    · cases hstep
  | enqueueSync command | unlinkRepository =>
    simp only [OperationQueues.step] at hstep
    split at hstep
    · rename_i hopen
      rw [Bool.and_eq_true] at hopen
      cases hstep
      refine h.holder (fun _ => hopen.2) ?_
      intro next hnext
      cases hnext
      trivial
    · cases hstep
  | enqueueCheckpoint now =>
    simp only [OperationQueues.step] at hstep
    split at hstep
    · rcases Option.map_eq_some_iff.mp hstep with ⟨version, hversion, rfl⟩
      refine h.holder (fun _ => by rw [hversion]; rfl) ?_
      intro next hnext
      cases hnext
      trivial
    · cases hstep
  | advance =>
    rcases Option.map_eq_some_iff.mp hstep with ⟨next, hnext, rfl⟩
    exact h.advance hnext
  | rollback =>
    rcases Option.map_eq_some_iff.mp hstep with ⟨next, -, rfl⟩
    exact h.release
  | edit | linkRepository | reauthorize | claimJob | updateJobPhase | markJobApplied
  | completeJob | failJob | claimCheckpoint | updateQueuePhase | captureCheckpoint
  | completeCheckpoint | failCheckpoint => exact (settles_step h.ids hstep trivial).exclusive h

/-- In every committed state there is at most one active inbound job, there is none beside a
checkpoint, and where there is either the project is linked. -/
theorem operations_exclude_each_other {actions : List OperationAction}
    (hrun : Run (fun s action s' => OperationQueues.step s action = some s') initial actions s) :
    (s.jobs.filter fun job => job.state.isActive).length ≤ 1
      ∧ ¬ ((∃ job ∈ s.jobs, job.state.isActive = true) ∧ s.queue.isSome = true)
      ∧ ((∃ job ∈ s.jobs, job.state.isActive = true) ∨ s.queue.isSome = true →
        s.link.isSome = true) := by
  have h : s.Exclusive := hrun.invariant (fun _ _ _ h hstep => h.step hstep)
    (exclusive_of_unlinked none)
  refine ⟨?_, ?_, ?_⟩
  · rw [← List.countP_eq_length_filter]
    exact h.one_job
  · rintro ⟨⟨job, hjob, hactive⟩, hqueue⟩
    exact List.countP_eq_zero.mp (h.apart hqueue) job hjob hactive
  · rintro (⟨job, hjob, -⟩ | hqueue)
    · exact h.job_linked (List.ne_nil_of_mem hjob)
    · exact h.queue_linked hqueue

/-- A checkpoint is enqueued while a synchronization waits for the project, which then finds
it there. -/
theorem operations_exclude_each_other_in_a_run :
    ∃ s actions, Run (fun s action s' => OperationQueues.step s action = some s') initial
        actions s ∧ s.queue.isSome = true
      ∧ ¬ ((∃ job ∈ s.jobs, job.state.isActive = true) ∧ s.queue.isSome = true) := by
  let actions : List OperationAction :=
    [.createProject, .linkRepository ['g'] ['r'] 1, .enqueueCheckpoint 0, .advance, .advance,
      .advance, .enqueueSync ⟨1, 1, ['m'], 0⟩, .advance]
  let last := (exec step initial actions).getD initial
  have hexec : exec step initial actions = some last := eq_some_getD (by decide +kernel) _
  exact ⟨last, actions, exec_run hexec, by decide +kernel,
    (operations_exclude_each_other (exec_run hexec)).2.1⟩

end OperationQueues

end Toss.ExternalRepositories
