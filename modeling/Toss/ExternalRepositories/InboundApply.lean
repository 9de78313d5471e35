import Toss.ExternalRepositories.InboundWorker
import Toss.Foundation.Run

/-!
# An inbound job replaces the content once

Once the replacement of a job is committed, its row says so until the job has
succeeded, and an attempt that finds it so goes on from there. One failure moves the
job back all the same: an attempt that resumes an applied job and cannot read the
job's link records an error that is retried from the beginning.

* `InboundJobRow.KeepsResult` — the row of an applied job;
* `AppliedOnce` — the invariant, kept by every step but the recording of that failure;
* `replaced_at_most_once` — over whole runs.
-/

namespace Toss.ExternalRepositories

open Toss.Foundation Toss.Workspace

/-! ## Rows under the statements -/

/-- A job that was applied and has not been moved back. -/
def InboundJobRow.KeepsResult (job : InboundJobRow) : Prop :=
  job.state = .succeeded
    ∨ job.isApplied = true ∧ (job.state = .processing ∨ job.state = .retryWait)

variable {job : InboundJobRow} {set : InboundJobRow → InboundJobRow}
  {cond : InboundJobRow → Bool} {s : System} {stage : Stage}

theorem InboundJobRow.isApplied_iff :
    job.isApplied = true ↔ job.phase = .revision ∧ job.remoteSha.isSome = true
      ∧ job.appliedWorkspaceVersion.isSome = true := by
  simp [InboundJobRow.isApplied, and_assoc]

variable {now : Timestamp} {jobs jobs' : List InboundJobRow} {replacements : List Uuid}
  {claimed : ClaimedInboundJob} {jobId : Uuid} {s t : System} {attempt : Attempt}
  {error : InboundJobError}

/-- A claim of an applied job finds it so. -/
theorem InboundJobRow.appliedState_claim
    (h : job.isApplied = true) : (job.claim now).claimed.appliedState ≠ none := by
  rcases InboundJobRow.isApplied_iff.mp h with ⟨-, hsha, hversion⟩
  rcases Option.isSome_iff_exists.mp hsha with ⟨sha, hsha⟩
  rcases Option.isSome_iff_exists.mp hversion with ⟨version, hversion⟩
  simp [InboundJobRow.claim, InboundJobRow.claimed, ClaimedInboundJob.appliedState, h, hsha,
    hversion]

theorem mem_updateJobs (h : updateJobs cond set jobs = some jobs') : job ∈ jobs' ↔
      ∃ old ∈ jobs, (cond old = true ∧ job = set old) ∨ (cond old = false ∧ job = old) := by
  unfold updateJobs at h
  dsimp only at h
  split at h
  · cases h
    exact mem_updateWhere
  · simp at h

theorem ids_updateJobs
    (h : updateJobs cond set jobs = some jobs') (hset : ∀ job, (set job).id = job.id) :
    jobs'.map InboundJobRow.id = jobs.map InboundJobRow.id := by
  unfold updateJobs at h
  dsimp only at h
  split at h
  · cases h
    refine map_updateWhere ?_ _
    intro job _
    exact hset job
  · simp at h

/-- The jobs of a project: no id twice, and the applied ones are marked. -/
structure JobsKeep (replacements : List Uuid) (jobs : List InboundJobRow) : Prop where
  ids : (jobs.map InboundJobRow.id).Nodup
  kept : ∀ job ∈ jobs, job.id ∈ replacements → job.KeepsResult

variable {phase : ExternalGitInboundPhase}

section

variable (hkeep : JobsKeep replacements jobs)
include hkeep

/-- A statement keeps the jobs' marks if what it sets does. -/
theorem JobsKeep.updateJobs (h : updateJobs cond set jobs = some jobs')
    (hid : ∀ job, (set job).id = job.id)
    (hset : ∀ job ∈ jobs, cond job = true → job.id ∈ replacements → job.KeepsResult →
      (set job).KeepsResult) : JobsKeep replacements jobs' where
  ids := by
    rw [ids_updateJobs h hid]
    exact hkeep.ids
  kept := by
    intro job hjob hreplaced
    rcases (mem_updateJobs h).mp hjob with ⟨old, hold, ⟨hcond, rfl⟩ | ⟨-, rfl⟩⟩
    · rw [hid] at hreplaced
      exact hset old hold hcond hreplaced (hkeep.kept old hold hreplaced)
    · exact hkeep.kept _ hold hreplaced

/-- `claim_due_job` keeps an applied job applied, and its claim says that it is. -/
theorem JobsKeep.claimDueJob {now staleBefore : Timestamp}
    (h : claimDueJob jobs jobId now staleBefore = some (jobs', claimed)) :
    JobsKeep replacements jobs'
      ∧ (claimed.appliedState = none → claimed.id ∉ replacements) := by
  simp only [Toss.ExternalRepositories.claimDueJob, Option.bind_eq_bind,
    Option.bind_eq_some_iff, Option.some.injEq, Prod.mk.injEq] at h
  rcases h with ⟨job, hfind, updated, hupdate, rfl, rfl⟩
  have hdue := List.find?_some hfind
  have hjob := List.mem_of_find?_eq_some hfind
  simp only [Bool.and_eq_true, decide_eq_true_eq] at hdue
  -- a due job has not succeeded
  have hrunning : ∀ other ∈ jobs, other.id = jobId → other.id ∈ replacements →
      other.KeepsResult → other.isApplied = true := by
    intro other hother hid _ hkept
    have hsame : other = job :=
      List.inj_on_of_nodup_map hkeep.ids hother hjob (hid.trans hdue.1.symm)
    rcases hkept with hsucceeded | ⟨happlied, -⟩
    · rw [hsame] at hsucceeded
      simp [InboundJobRow.isDue, hsucceeded] at hdue
    · exact happlied
  constructor
  · refine hkeep.updateJobs hupdate (fun _ => rfl) ?_
    intro other hother hcond hreplaced hkept
    have happlied := hrunning other hother (by simpa using hcond) hreplaced hkept
    rcases InboundJobRow.isApplied_iff.mp happlied with ⟨-, hsha, hversion⟩
    refine .inr ⟨?_, .inl rfl⟩
    simp [InboundJobRow.claim, InboundJobRow.isApplied_iff, happlied, hsha, hversion]
  · intro hnone hreplaced
    have happlied := hrunning job hjob hdue.1 hreplaced (hkeep.kept job hjob hreplaced)
    exact InboundJobRow.appliedState_claim happlied hnone

/-- `update_job_phase` is for jobs that are not applied. -/
theorem JobsKeep.updateJobPhase (hunapplied : jobId ∉ replacements)
    (h : updateJobPhase jobs jobId phase now = some jobs') : JobsKeep replacements jobs' := by
  refine hkeep.updateJobs h (fun _ => rfl) ?_
  intro job _ hcond hreplaced _
  simp only [Bool.and_eq_true, decide_eq_true_eq] at hcond
  exact absurd (hcond.1 ▸ hreplaced) hunapplied

theorem JobsKeep.markJobApplied {remoteSha : Text} {workspaceVersion : Int}
    (h : markJobApplied jobs jobId remoteSha workspaceVersion now = some jobs') :
    JobsKeep (replacements ++ [jobId]) jobs' := by
  unfold Toss.ExternalRepositories.markJobApplied at h
  split at h
  · next hany =>
    rcases List.any_eq_true.mp hany with ⟨found, hfound, hprocessing⟩
    simp only [Bool.and_eq_true, decide_eq_true_eq] at hprocessing
    constructor
    · rw [ids_updateJobs h (fun _ => rfl)]
      exact hkeep.ids
    · intro job hjob hreplaced
      rcases (mem_updateJobs h).mp hjob with ⟨old, hold, ⟨hcond, rfl⟩ | ⟨hcond, rfl⟩⟩
      · refine .inr ⟨?_, .inl ?_⟩
        · simp [InboundJobRow.isApplied]
        · simp only [Bool.and_eq_true, decide_eq_true_eq] at hcond
          exact hcond.2
      · rcases List.mem_append.mp hreplaced with hbefore | hnow
        · exact hkeep.kept _ hold hbefore
        · -- the one row of the job is the one that was processing
          have hsame : job = found := by
            refine List.inj_on_of_nodup_map hkeep.ids hold hfound ?_
            rw [List.mem_singleton.mp hnow, hprocessing.1]
          rw [hsame] at hcond
          simp [hprocessing] at hcond
  · simp at h

theorem JobsKeep.completeJob {completed : Bool}
    (h : completeJob jobs jobId = some (jobs', completed)) : JobsKeep replacements jobs' := by
  simp only [Toss.ExternalRepositories.completeJob, Option.map_eq_some_iff, Prod.mk.injEq] at h
  rcases h with ⟨updated, hupdate, rfl, -⟩
  refine hkeep.updateJobs hupdate (fun _ => rfl) ?_
  intro _ _ _ _ _
  exact .inl rfl

/-- `fail_job` that retries from the revision keeps an applied job applied. -/
theorem JobsKeep.failJob {state : ExternalGitJobState} {retryPhase : ExternalGitInboundPhase}
    {nextAttemptAt : Timestamp} {errorCode : ExternalGitFailureCode} {updated : Bool}
    (hrevision : jobId ∈ replacements → jobId ∈ jobs.map InboundJobRow.id →
      retryPhase = .revision ∧ state = .retryWait)
    (h : failJob jobs jobId state retryPhase nextAttemptAt errorCode = some (jobs', updated)) :
    JobsKeep replacements jobs' := by
  simp only [Toss.ExternalRepositories.failJob, Option.map_eq_some_iff, Prod.mk.injEq] at h
  rcases h with ⟨rows, hupdate, rfl, -⟩
  refine hkeep.updateJobs hupdate (fun _ => rfl) ?_
  intro job hjob hcond hreplaced hkept
  simp only [Bool.and_eq_true, decide_eq_true_eq] at hcond
  rcases hrevision (hcond.1 ▸ hreplaced) (hcond.1 ▸ List.mem_map_of_mem hjob) with
    ⟨hphase, hstate⟩
  rcases hkept with hsucceeded | ⟨happlied, -⟩
  · rw [hcond.2] at hsucceeded
    simp at hsucceeded
  · rcases InboundJobRow.isApplied_iff.mp happlied with ⟨-, hsha, hversion⟩
    refine .inr ⟨?_, .inr hstate⟩
    simp [InboundJobRow.isApplied_iff, hphase, hsha, hversion]

/-- `resume_reauthorized_jobs` is for paused jobs, which are not applied. -/
theorem JobsKeep.resumeReauthorizedJobs (h : resumeReauthorizedJobs jobs now = some jobs')
    : JobsKeep replacements jobs' := by
  refine hkeep.updateJobs h (fun _ => rfl) ?_
  intro job _ hcond _ hkept
  simp only [Bool.and_eq_true, decide_eq_true_eq] at hcond
  rcases hkept with hsucceeded | ⟨-, hprocessing | hretry⟩
  · rw [hcond.1] at hsucceeded
    simp at hsucceeded
  · rw [hcond.1] at hprocessing
    simp at hprocessing
  · rw [hcond.1] at hretry
    simp at hretry

theorem JobsKeep.insertInboundJob {operation : ExternalGitInboundOperation} {sourceBranch : Text}
    {requestedByUserId : Uuid}
    (hfresh : jobId ∉ replacements)
    (h : insertInboundJob jobs jobId operation sourceBranch requestedByUserId now = some jobs') :
    JobsKeep replacements jobs' := by
  unfold Toss.ExternalRepositories.insertInboundJob at h
  split at h
  · simp at h
  rename_i hany
  cases h
  constructor
  · rw [List.map_append, List.nodup_append]
    refine ⟨hkeep.ids, by simp, ?_⟩
    intro id hid other hother heq
    rcases List.mem_map.mp hid with ⟨job, hjob, rfl⟩
    have hother : other = jobId := by simpa using hother
    exact hany (List.any_eq_true.mpr ⟨job, hjob, by simp [heq, hother]⟩)
  · intro job hjob hreplaced
    rcases List.mem_append.mp hjob with hold | hnew
    · exact hkeep.kept job hold hreplaced
    · rw [List.mem_singleton.mp hnew] at hreplaced
      exact absurd hreplaced hfresh

end

/-! ## Attempts -/

/-- An attempt that can still replace the content belongs to a job that was not
applied, and one that failed moves no applied job back, but for the failed read of a
resumed job's link. -/
def Attempt.Sound (s : System) (attempt : Attempt) : Prop :=
  match attempt.stage with
  | .loadLink => attempt.claimed.appliedState = none → attempt.claimed.id ∉ s.replacements
  | .fetching _ _ | .staging _ _ _ | .applying _ _ => attempt.claimed.id ∉ s.replacements
  | .flushing _ | .completing _ => True
  | .failed error =>
    attempt.claimed.id ∈ s.replacements →
      error.failure.policy = .preserveProcessingLease ∨ error.failure.policy = .retry .revision
        ∨ attempt.claimed.id ∉ s.db.jobs.map InboundJobRow.id
        ∨ (error = .persistence .loadLink ∧ attempt.claimed.appliedState ≠ none)

structure AppliedOnce (s : System) : Prop where
  once : s.replacements.Nodup
  jobs : JobsKeep s.replacements s.db.jobs
  linked : s.db.link = none → s.db.jobs = []
  attempt : ∀ attempt ∈ s.attempt, attempt.Sound s

/-- The stages from which an attempt goes on to replace the content. -/
def Stage.mayApply : Stage → Bool
  | .fetching _ _ | .staging _ _ _ | .applying _ _ => true
  | _ => false

theorem Attempt.sound_iff_of_mayApply (hstage : stage.mayApply = true) :
    (Attempt.mk claimed stage).Sound s ↔ claimed.id ∉ s.replacements := by
  cases stage with
  | fetching link next | staging link prepared next | applying link prepared => exact Iff.rfl
  | loadLink | flushing applied | completing applied | failed error =>
    simp [Stage.mayApply] at hstage

/-- The steps by which the statement of a stage takes effect. -/
def Action.records : Action → Bool
  | .advance | .raise _ true => true
  | _ => false

/-- The condition on a step: the failed read of a resumed job's link is not recorded. -/
def ResumedLinkIsRead (s : System) (action : Action) : Prop :=
  ∀ attempt ∈ s.attempt, attempt.stage = .failed (.persistence .loadLink) →
    attempt.claimed.appliedState ≠ none → action.records = false

instance (s : System) (action : Action) : Decidable (ResumedLinkIsRead s action) :=
  inferInstanceAs (Decidable (∀ attempt ∈ s.attempt, attempt.stage = .failed (.persistence .loadLink) →
    attempt.claimed.appliedState ≠ none → action.records = false))

/-- What an attempt relies on survives what others do to the jobs. -/
theorem Attempt.Sound.transfer (h : attempt.Sound s)
    (hreplacements : t.replacements = s.replacements)
    (hids : ∀ id ∈ s.replacements, id ∈ t.db.jobs.map InboundJobRow.id →
      id ∈ s.db.jobs.map InboundJobRow.id) : attempt.Sound t := by
  unfold Attempt.Sound at h ⊢
  rw [hreplacements]
  split
  · next hstage =>
    rw [hstage] at h
    exact h
  · next hstage =>
    rw [hstage] at h
    exact h
  · next hstage =>
    rw [hstage] at h
    exact h
  · next hstage =>
    rw [hstage] at h
    exact h
  · trivial
  · trivial
  rename_i hstage
  rw [hstage] at h
  intro hreplaced
  rcases h hreplaced with hlease | hretry | habsent | hlink
  · exact .inl hlease
  · exact .inr (.inl hretry)
  · exact .inr (.inr (.inl fun hpresent => habsent (hids _ hreplaced hpresent)))
  · exact .inr (.inr (.inr hlink))

/-- A statement of the worker that leaves the link and the replacements alone. -/
theorem AppliedOnce.withJobs {jobs : List InboundJobRow} {attempt : Option Attempt}
    (hinv : AppliedOnce s) (hjobs : JobsKeep s.replacements jobs)
    (hids : jobs.map InboundJobRow.id = s.db.jobs.map InboundJobRow.id)
    (hattempt : ∀ next ∈ attempt, next.Sound { s with db := { s.db with jobs }, attempt }) :
    AppliedOnce { s with db := { s.db with jobs }, attempt } where
  once := hinv.once
  jobs := hjobs
  linked := by
    intro hlink
    have hnil : jobs.map InboundJobRow.id = [] := by rw [hids, hinv.linked hlink, List.map_nil]
    exact List.map_eq_nil_iff.mp hnil
  attempt := hattempt

theorem AppliedOnce.withAttempt {attempt : Option Attempt} (hinv : AppliedOnce s)
    (hattempt : ∀ next ∈ attempt, next.Sound { s with attempt }) :
    AppliedOnce { s with attempt } :=
  ⟨hinv.once, hinv.jobs, hinv.linked, hattempt⟩

/-- The recorded phase of an attempt that has not applied its job. -/
theorem AppliedOnce.recordPhase (hinv : AppliedOnce s) (hunapplied : claimed.id ∉ s.replacements)
    (hstage : stage.mayApply = true)
    (h : ((updateJobPhase s.db.jobs claimed.id phase s.now).map fun jobs =>
      { s with db := { s.db with jobs }, attempt := some ⟨claimed, stage⟩ }) = some t) :
    AppliedOnce t := by
  rcases Option.map_eq_some_iff.mp h with ⟨jobs, hupdate, rfl⟩
  refine hinv.withJobs (hinv.jobs.updateJobPhase hunapplied hupdate)
    (ids_updateJobs hupdate fun _ => rfl) ?_
  intro next hnext
  cases hnext
  exact (Attempt.sound_iff_of_mayApply hstage).mpr hunapplied

/-! ## Steps of the worker -/

variable {prepared : PreparedExternalGitImport}

/-- The apply transaction marks its job in the transaction that replaces the content. -/
theorem applyInbound_ok {db db' : InboundDatabase} {link : InboundJobLink}
    (h : db.applyInbound jobId link prepared now = .ok db') :
    (∃ version, markJobApplied db.jobs jobId prepared.remoteSha version now = some db'.jobs)
      ∧ (db'.link = none → db.link = none) := by
  unfold InboundDatabase.applyInbound at h
  dsimp only at h
  split at h
  · simp at h
  · simp at h
  · simp at h
  next project hreplace =>
  split at h
  · simp at h
  rename_i jobs hmark
  cases h
  exact ⟨⟨_, hmark⟩, fun hlink => Option.map_eq_none_iff.mp hlink⟩

theorem AppliedOnce.apply {link : InboundJobLink} {db : InboundDatabase}
    {applied : AppliedInboundJob} (hinv : AppliedOnce s)
    (hunapplied : claimed.id ∉ s.replacements)
    (h : s.db.applyInbound claimed.id link prepared s.now = .ok db) :
    AppliedOnce
      { s with
        db
        attempt := some ⟨claimed, .flushing applied⟩
        replacements := s.replacements ++ [claimed.id] } := by
  rcases applyInbound_ok h with ⟨⟨version, hmark⟩, hlink⟩
  constructor
  · refine List.nodup_append.mpr ⟨hinv.once, List.nodup_singleton _, ?_⟩
    intro id hid other hother heq
    rw [List.mem_singleton] at hother
    exact hunapplied (hother ▸ heq ▸ hid)
  · exact hinv.jobs.markJobApplied hmark
  · intro hnone
    -- the job that was marked has a link
    have hjobs := hinv.linked (hlink hnone)
    rw [hjobs] at hmark
    simp [markJobApplied] at hmark
  · intro attempt hattempt
    cases hattempt
    exact trivial

/-- `record_failure` of an error that keeps the revision of an applied job. -/
theorem AppliedOnce.recordFailure {db : InboundDatabase} (hinv : AppliedOnce s)
    (hsound : (Attempt.mk claimed (.failed error)).Sound s)
    (hread : error = .persistence .loadLink → claimed.appliedState = none)
    (h : s.db.recordFailure claimed error.failure s.now = some db) :
    AppliedOnce { s with db, attempt := none } := by
  unfold InboundDatabase.recordFailure at h
  split at h
  · cases h
    exact hinv.withAttempt (by simp)
  rename_i state retryPhase nextAttemptAt htransition
  simp only [Option.bind_eq_bind, Option.bind_eq_some_iff, Option.some.injEq] at h
  rcases h with ⟨⟨jobs, updated⟩, hfail, rfl⟩
  have hjobs : JobsKeep s.replacements jobs := by
    refine hinv.jobs.failJob ?_ hfail
    intro hreplaced hpresent
    rcases hsound hreplaced with hlease | hretry | habsent | ⟨hlink, hresumed⟩
    · simp [InboundFailure.transition, hlease] at htransition
    · simp only [InboundFailure.transition, hretry, InboundFailureTransition.record.injEq]
        at htransition
      exact ⟨htransition.2.1.symm, htransition.1.symm⟩
    · exact absurd hpresent habsent
    · exact absurd (hread hlink) hresumed
  have hids : jobs.map InboundJobRow.id = s.db.jobs.map InboundJobRow.id := by
    simp only [failJob, Option.map_eq_some_iff, Prod.mk.injEq] at hfail
    rcases hfail with ⟨rows, hupdate, rfl, -⟩
    exact ids_updateJobs hupdate fun _ => rfl
  constructor
  · exact hinv.once
  · exact hjobs
  · intro hnone
    have hlink : s.db.link = none := by
      cases updated with
      | false | true => simpa using hnone
    have hnil : jobs.map InboundJobRow.id = [] := by
      rw [hids, hinv.linked hlink, List.map_nil]
    exact List.map_eq_nil_iff.mp hnil
  · simp

/-- The next statement of an attempt keeps the invariant, unless it records that the
link of a resumed job could not be read. -/
theorem AppliedOnce.advance (hinv : AppliedOnce s) (hattempt : s.attempt = some attempt)
    (hread : attempt.stage = .failed (.persistence .loadLink) →
      attempt.claimed.appliedState = none)
    (h : s.advance attempt = some t) : AppliedOnce t := by
  have hsound := hinv.attempt attempt hattempt
  rcases attempt with ⟨claimed, stage⟩
  unfold System.advance at h
  dsimp only at h hread
  -- the stages that only move the attempt on
  have hgoto : ∀ {next : Stage}, next.mayApply = true → claimed.id ∉ s.replacements →
      AppliedOnce { s with attempt := some ⟨claimed, next⟩ } := by
    intro next hnext hunapplied
    refine hinv.withAttempt ?_
    intro attempt' hattempt'
    cases hattempt'
    exact (Attempt.sound_iff_of_mayApply hnext).mpr hunapplied
  cases stage with
  | loadLink =>
    dsimp only at h
    split at h
    · next hlink =>
      cases h
      refine hinv.withAttempt ?_
      intro attempt' hattempt'
      cases hattempt'
      -- without a link there is no job either
      intro _
      refine .inr (.inr (.inl ?_))
      intro hpresent
      rcases List.mem_map.mp hpresent with ⟨job, hjob, hid⟩
      rcases hfind : s.db.jobs.find? (·.id = claimed.id) with _ | found
      · rw [List.find?_eq_none] at hfind
        exact hfind job hjob (by simpa using hid)
      cases hrow : s.db.link with
      | none =>
        rw [hinv.linked hrow] at hjob
        exact absurd hjob List.not_mem_nil
      | some row => simp [inboundJobLink, hfind, hrow] at hlink
    · next link _ =>
      split at h
      · cases h
        refine hinv.withAttempt ?_
        intro attempt' hattempt'
        cases hattempt'
        exact trivial
      · next hnone =>
        cases h
        exact hgoto rfl (hsound hnone)
  | fetching link next =>
    cases next with
    | loadEntryPoint | clone | lfsPull | revParse => exact Option.some.inj h ▸ hgoto rfl hsound
    | recordLfsPhase | recordValidationPhase => exact hinv.recordPhase hsound rfl h
    | prepareImport => simp at h
  | staging link prepared next =>
    cases next with
    | recordAssetsPhase | recordAssetPhase remaining | recordApplyPhase =>
      exact hinv.recordPhase hsound rfl h
    | storeAsset remaining =>
      cases remaining with
      | nil | cons asset rest => exact Option.some.inj h ▸ hgoto rfl hsound
  | applying link prepared =>
    dsimp only at h
    split at h
    · cases h
      refine hinv.withAttempt ?_
      intro attempt' hattempt'
      cases hattempt'
      exact fun hreplaced => absurd hreplaced hsound
    · next db happly =>
      cases h
      exact hinv.apply hsound happly
  | flushing applied =>
    cases h
    refine hinv.withAttempt ?_
    intro attempt' hattempt'
    cases hattempt'
    exact trivial
  | completing applied =>
    dsimp only at h
    split at h
    · cases h
      refine hinv.withAttempt ?_
      intro attempt' hattempt'
      cases hattempt'
      exact fun _ => .inr (.inl rfl)
    · next db hcomplete =>
      cases h
      simp only [InboundDatabase.completeInbound, Option.bind_eq_bind, Option.bind_eq_some_iff,
        Option.some.injEq] at hcomplete
      rcases hcomplete with ⟨⟨jobs, completed⟩, hjobs, -, -, rfl⟩
      constructor
      · exact hinv.once
      · exact hinv.jobs.completeJob hjobs
      · intro hnone
        simp only [completeJob, Option.map_eq_some_iff, Prod.mk.injEq] at hjobs
        rcases hjobs with ⟨rows, hupdate, rfl, -⟩
        refine List.map_eq_nil_iff.mp (?_ : List.map InboundJobRow.id _ = [])
        rw [ids_updateJobs hupdate (fun _ => rfl), hinv.linked (Option.map_eq_none_iff.mp hnone),
          List.map_nil]
      · simp
  | failed error =>
    rcases Option.map_eq_some_iff.mp h with ⟨db, hrecord, rfl⟩
    refine hinv.recordFailure hsound ?_ hrecord
    intro hlink
    exact hread (by rw [hlink])

/-- An error of an attempt, by the stage that raised it, is one the job can keep. -/
theorem Attempt.sound_failed (hsound : (Attempt.mk claimed stage).Sound s)
    (hraises : stage.raises error = true)
    (hreplacements : claimed.id ∉ s.replacements → claimed.id ∉ t.replacements
      ∨ error = .apply .commitAmbiguous) :
    (Attempt.mk claimed (.failed error)).Sound t := by
  -- before the apply the job is not applied, and the apply fails ambiguously at most
  have hearlier : claimed.id ∉ s.replacements → (Attempt.mk claimed (.failed error)).Sound t := by
    intro hunapplied hreplaced
    rcases hreplacements hunapplied with hnot | rfl
    · exact absurd hreplaced hnot
    · exact .inl rfl
  cases stage with
  | loadLink =>
    cases error with
    | persistence source =>
      cases source with
      | loadLink =>
        by_cases happlied : claimed.appliedState = none
        · exact hearlier (hsound happlied)
        · exact fun _ => .inr (.inr (.inr ⟨rfl, happlied⟩))
      | _ => simp [Stage.raises] at hraises
    | _ => simp [Stage.raises] at hraises
  | fetching link next | staging link prepared next | applying link prepared =>
    exact hearlier hsound
  | flushing applied =>
    cases error with
    | revision => exact fun _ => .inr (.inl rfl)
    | _ => simp [Stage.raises] at hraises
  | completing applied =>
    cases error with
    | completion => exact fun _ => .inr (.inl rfl)
    | _ => simp [Stage.raises] at hraises
  | failed earlier => simp [Stage.raises] at hraises

theorem System.effect_eq_advance
    (h : s.effect attempt = some t) : s.advance attempt = some t := by
  unfold System.effect at h
  split at h
  all_goals first
    | exact h
    | simp at h

/-- Only the apply transaction replaces the content. -/
theorem System.effect_replacements (h : s.effect attempt = some t) :
    t.replacements = s.replacements ∨ ∃ link prepared, attempt.stage = .applying link prepared := by
  rcases attempt with ⟨claimed, stage⟩
  have hadvance := System.effect_eq_advance h
  unfold System.advance at hadvance
  dsimp only at hadvance
  have hrecord : ∀ {phase : ExternalGitInboundPhase} {next : Stage},
      ((updateJobPhase s.db.jobs claimed.id phase s.now).map fun jobs =>
        { s with db := { s.db with jobs }, attempt := some ⟨claimed, next⟩ }) = some t →
      t.replacements = s.replacements := by
    intro phase next hupdate
    rcases Option.map_eq_some_iff.mp hupdate with ⟨jobs, -, rfl⟩
    rfl
  cases stage with
  | applying link prepared => exact .inr ⟨link, prepared, rfl⟩
  | fetching link next =>
    cases next with
    | recordLfsPhase | recordValidationPhase => exact .inl (hrecord hadvance)
    | _ => simp [System.effect] at h
  | staging link prepared next =>
    cases next with
    | recordAssetsPhase | recordAssetPhase remaining | recordApplyPhase =>
      exact .inl (hrecord hadvance)
    | storeAsset remaining => simp [System.effect] at h
  | completing applied =>
    dsimp only at hadvance
    split at hadvance
    · exact .inl (Option.some.inj hadvance ▸ rfl)
    · exact .inl (Option.some.inj hadvance ▸ rfl)
  | failed error =>
    rcases Option.map_eq_some_iff.mp hadvance with ⟨db, -, rfl⟩
    exact .inl rfl
  | loadLink | flushing applied => simp [System.effect] at h

/-- A statement that reported an error did nothing, or all it would have done. -/
theorem System.reported_cases
    {effective : Bool} (h : s.reported attempt error effective = some t) :
    t = s ∨ s.effect attempt = some t ∧ ∀ link prepared, attempt.stage = .applying link prepared →
      error = .apply .commitAmbiguous := by
  unfold System.reported at h
  split at h
  · split at h
    · split at h
      · next hambiguous => exact .inr ⟨h, fun _ _ _ => hambiguous⟩
      · simp at h
    · next hnot => exact .inr ⟨h, fun link prepared happlying => absurd happlying (hnot _ _)⟩
  · exact .inl (Option.some.inj h).symm

/-- A statement that fails, with or without its effect, keeps the invariant. -/
theorem AppliedOnce.raise {effective : Bool}
    (hinv : AppliedOnce s) (hguard : ResumedLinkIsRead s (.raise error effective))
    (h : s.step (.raise error effective) = some t) : AppliedOnce t := by
  simp only [System.step, Option.bind_eq_bind, Option.bind_eq_some_iff] at h
  rcases h with ⟨attempt, hattempt, h⟩
  have hsound := hinv.attempt attempt hattempt
  rcases attempt with ⟨claimed, stage⟩
  split at h
  · next earlier =>
    split at h
    · next heffective =>
      refine hinv.advance hattempt ?_ (System.effect_eq_advance h)
      intro hlink
      by_contra hresumed
      have hrecords := hguard _ hattempt hlink hresumed
      rw [heffective] at hrecords
      exact absurd hrecords (by simp [Action.records])
    · cases h
      exact hinv.withAttempt (by simp)
  next hstage =>
  simp only [Option.bind_eq_some_iff, Option.some.injEq, guard_eq_some] at h
  rcases h with ⟨-, hraises, after, hafter, rfl⟩
  rcases System.reported_cases hafter with rfl | ⟨heffect, hambiguous⟩
  · refine hinv.withAttempt ?_
    intro attempt' hattempt'
    cases hattempt'
    exact Attempt.sound_failed hsound hraises .inl
  · have hinvAfter : AppliedOnce after := by
      refine hinv.advance hattempt ?_ (System.effect_eq_advance heffect)
      intro hfailed
      exact absurd hfailed (hstage _)
    refine hinvAfter.withAttempt ?_
    intro attempt' hattempt'
    cases hattempt'
    refine Attempt.sound_failed hsound hraises ?_
    intro hunapplied
    rcases System.effect_replacements heffect with hsame | ⟨link, prepared, happlying⟩
    · exact .inl (by rw [show after.replacements = s.replacements from hsame]; exact hunapplied)
    · exact .inr (hambiguous link prepared happlying)

/-! ## Every step -/

theorem AppliedOnce.step {action : Action} (hinv : AppliedOnce s)
    (hguard : ResumedLinkIsRead s action) (h : s.step action = some t) : AppliedOnce t := by
  -- what others do leaves the attempt sound
  have hothers : ∀ (t : System), t.replacements = s.replacements → t.attempt = s.attempt →
      JobsKeep s.replacements t.db.jobs → (t.db.link = none → t.db.jobs = []) →
      (∀ id ∈ s.replacements, id ∈ t.db.jobs.map InboundJobRow.id →
        id ∈ s.db.jobs.map InboundJobRow.id) → AppliedOnce t := by
    intro t hreplacements hsame hjobs hlinked hids
    constructor
    · rw [hreplacements]
      exact hinv.once
    · rw [hreplacements]
      exact hjobs
    · exact hlinked
    · intro attempt hattempt
      rw [hsame] at hattempt
      exact (hinv.attempt attempt hattempt).transfer hreplacements hids
  cases action with
  | linkRepository link =>
    simp only [System.step] at h
    split at h
    · cases h
      exact hothers _ rfl rfl hinv.jobs (by simp) fun _ _ hid => hid
    · simp at h
  | unlinkRepository =>
    simp only [System.step] at h
    split at h
    · simp at h
    · cases h
      exact hothers _ rfl rfl ⟨List.nodup_nil, by simp⟩ (fun _ => rfl) (by simp)
  | enqueue jobId operation sourceBranch requestedByUserId =>
    simp only [System.step, Option.bind_eq_bind, Option.bind_eq_some_iff, guard_eq_some,
      Option.some.injEq] at h
    rcases h with ⟨-, ⟨hlink, hfresh⟩, jobs, hinsert, rfl⟩
    refine hothers _ rfl rfl (hinv.jobs.insertInboundJob hfresh hinsert) ?_ ?_
    · intro hnone
      rw [show s.db.link = none from hnone] at hlink
      simp at hlink
    · intro id hreplaced hid
      unfold insertInboundJob at hinsert
      split at hinsert
      · simp at hinsert
      rw [← Option.some.inj hinsert, List.map_append] at hid
      rcases List.mem_append.mp hid with hold | hnew
      · exact hold
      · have hid : id = jobId := by simpa using hnew
        exact absurd (hid ▸ hreplaced) hfresh
  | reauthorize =>
    simp only [System.step, Option.bind_eq_bind, Option.bind_eq_some_iff, Option.some.injEq] at h
    rcases h with ⟨jobs, hresume, rfl⟩
    have hids : jobs.map InboundJobRow.id = s.db.jobs.map InboundJobRow.id :=
      ids_updateJobs hresume fun _ => rfl
    refine hothers _ rfl rfl (hinv.jobs.resumeReauthorizedJobs hresume) ?_ ?_
    · intro hnone
      refine List.map_eq_nil_iff.mp (?_ : jobs.map InboundJobRow.id = [])
      rw [hids, hinv.linked hnone, List.map_nil]
    · intro id _ hid
      rw [← hids]
      exact hid
  | edit content | wait seconds =>
    cases h
    exact hothers _ rfl rfl hinv.jobs hinv.linked fun _ _ hid => hid
  | claim jobId =>
    -- the attempt that begins has not been applied
    simp only [System.step, Option.bind_eq_bind, Option.bind_eq_some_iff, Option.some.injEq] at h
    rcases h with ⟨-, -, ⟨jobs, claimed⟩, hclaim, rfl⟩
    rcases hinv.jobs.claimDueJob hclaim with ⟨hjobs, hunapplied⟩
    refine hinv.withJobs hjobs ?_ ?_
    · simp only [claimDueJob, Option.bind_eq_bind, Option.bind_eq_some_iff, Option.some.injEq,
        Prod.mk.injEq] at hclaim
      rcases hclaim with ⟨job, -, rows, hupdate, rfl, -⟩
      exact ids_updateJobs hupdate fun _ => rfl
    · intro attempt hattempt
      cases hattempt
      exact hunapplied
  | advance =>
    simp only [System.step, Option.bind_eq_bind, Option.bind_eq_some_iff] at h
    rcases h with ⟨attempt, hattempt, hadvance⟩
    refine hinv.advance hattempt ?_ hadvance
    intro hlink
    by_contra hresumed
    exact absurd (hguard attempt hattempt hlink hresumed) (by simp [Action.records])
  | prepared result =>
    simp only [System.step, Option.bind_eq_bind, Option.bind_eq_some_iff] at h
    rcases h with ⟨attempt, hattempt, h⟩
    have hsound := hinv.attempt attempt hattempt
    rcases attempt with ⟨claimed, stage⟩
    dsimp only at h
    split at h
    · cases h
      refine hinv.withAttempt ?_
      intro attempt' hattempt'
      cases hattempt'
      exact hsound
    · simp at h
  | raise error effective => exact hinv.raise hguard h
  | crash =>
    cases h
    exact hinv.withAttempt (by simp)

theorem appliedOnce_initial (project : Project) : AppliedOnce (System.initial project) :=
  ⟨List.nodup_nil, ⟨List.nodup_nil, by simp [System.initial]⟩, fun _ => rfl,
    by simp [System.initial]⟩

/-! ## Whole runs -/

/-- In a run that records no failed read of a resumed job's link, every job replaces the
content at most once, and from then on its row says so until it has succeeded. -/
theorem replaced_at_most_once {project : Project} {s : System} {actions : List Action}
    (hrun : Run (Guarded ResumedLinkIsRead fun s a t => s.step a = some t)
      (System.initial project) actions s) :
    (∀ jobId, s.replacements.count jobId ≤ 1)
      ∧ ∀ job ∈ s.db.jobs, job.id ∈ s.replacements → job.state = .succeeded
        ∨ (job.phase = .revision ∧ job.remoteSha.isSome ∧ job.appliedWorkspaceVersion.isSome) := by
  have hinv : AppliedOnce s :=
    hrun.invariant_of_guard (fun s a t hs hguard hstep => hs.step hguard hstep)
      (appliedOnce_initial project)
  constructor
  · intro jobId
    exact List.nodup_iff_count_le_one.mp hinv.once jobId
  · intro job hjob hreplaced
    rcases hinv.jobs.kept job hjob hreplaced with hsucceeded | ⟨happlied, -⟩
    · exact .inl hsucceeded
    · exact .inr (InboundJobRow.isApplied_iff.mp happlied)

/-! ### A run that replaces twice -/

def emptyProject : Project := ⟨.typst, 0, 0, ⟨[], [], [], none⟩⟩

def fetchedImport : PreparedExternalGitImport where
  remoteSha := ['s', 'h', 'a']
  entryFilePath := ['m', '.', 't', 'y', 'p']
  documents := [⟨['m', '.', 't', 'y', 'p'], ['x']⟩]
  directories := []
  assets := []

/-- An attempt from its claim to the commit of the replacement. -/
def fetchAndApply : List Action :=
  List.replicate 7 .advance ++ [.prepared fetchedImport] ++ List.replicate 4 .advance

/-- A job is enqueued, claimed and applied. -/
def firstAttempt : List Action :=
  [.linkRepository ⟨1, [], [], none, none, none, none⟩, .enqueue 7 .sync ['m'] 1, .claim 7]
    ++ fetchAndApply

/-- The revision fails and is retried. The retry cannot read the link, which sends the
job back to the fetch, and the next attempt applies it again. -/
def retriedFromTheStart : List Action :=
  firstAttempt
    ++ [.raise .revision false, .advance, .wait 10, .claim 7,
      .raise (.persistence .loadLink) false, .advance, .wait 60, .claim 7]
    ++ fetchAndApply

theorem unread_link_replaces_twice :
    ¬ ∀ (project : Project) (s : System) (actions : List Action),
      Run (fun s a t => s.step a = some t) (System.initial project) actions s →
        ∀ jobId, s.replacements.count jobId ≤ 1 := by
  intro hclaim
  have hexec : exec System.step (System.initial emptyProject) retriedFromTheStart = some _ :=
    eq_some_getD (by decide +kernel) (System.initial emptyProject)
  have hcount := hclaim _ _ _ (exec_run hexec) 7
  have htwice : ((exec System.step (System.initial emptyProject) retriedFromTheStart).getD
      (System.initial emptyProject)).replacements.count 7 = 2 := by decide +kernel
  omega

/-- A job whose revision failed once, and which is then completed. -/
theorem retried_revision_replaces_once :
    ∃ s : System, s.replacements = [7] ∧ (s.db.jobs.map InboundJobRow.state) = [.succeeded]
      ∧ (∀ jobId, s.replacements.count jobId ≤ 1)
      ∧ ∀ job ∈ s.db.jobs, job.id ∈ s.replacements → job.state = .succeeded
        ∨ (job.phase = .revision ∧ job.remoteSha.isSome
          ∧ job.appliedWorkspaceVersion.isSome) := by
  let actions := firstAttempt
    ++ [.raise .revision false, .advance, .wait 10, .claim 7, .advance, .advance, .advance]
  have hexec : exec (fun s a => if ResumedLinkIsRead s a then s.step a else none)
      (System.initial emptyProject) actions = some _ :=
    eq_some_getD (by decide +kernel) (System.initial emptyProject)
  refine ⟨_, ?_, ?_, replaced_at_most_once (exec_guarded_run hexec)⟩
  · decide +kernel
  · decide +kernel

end Toss.ExternalRepositories
