import Toss.Processing.Effects

/-!
# The tables of results

Artifacts, and the projects that imported workspaces become, are written by
publications alone: every other step leaves them alone, or deletes those of a
job or of a project as a whole.

* `ResultsKept` — a statement that leaves the results alone;
* `Shrunk` — one that may delete some;
* `step_shrunk` — every step but a publication's commit.
-/

namespace Toss.Processing

open Toss.Foundation

variable {externals : Externals} {config : ProcessingConfig}

theorem filter_all (id : Option Uuid) : id.filter (fun _ => true) = id := by
  cases id <;> rfl

/-- A statement that leaves the results alone, and ends no job with one. -/
structure ResultsKept (db db' : Database) : Prop where
  artifacts : db'.artifacts = db.artifacts
  projects : db'.projects = db.projects
  directories : db'.directories = db.directories
  documents : db'.documents = db.documents
  assets : db'.assets = db.assets
  kept : ∀ job ∈ db.jobs, ∃ job' ∈ db'.jobs, job'.id = job.id
  succeeded : ∀ job' ∈ db'.jobs, job'.state = .succeeded →
    ∃ job ∈ db.jobs, job.id = job'.id ∧ job.state = .succeeded
      ∧ job'.resultProjectId = job.resultProjectId

/-- A statement that deletes the results of jobs and of projects, those that
`keepJob` and `keepProject` do not hold of. -/
structure Shrunk (keepJob keepProject : Uuid → Bool) (db db' : Database) : Prop where
  artifacts : db'.artifacts = db.artifacts.filter fun artifact => keepJob artifact.jobId
  jobs : ∀ job ∈ db'.jobs, keepJob job.id = true
  kept : ∀ job ∈ db.jobs, keepJob job.id = true → ∃ job' ∈ db'.jobs, job'.id = job.id
  projects : db'.projects = db.projects.filter fun project => keepProject project.id
  directories : db'.directories = db.directories.filter fun row => keepProject row.projectId
  documents : db'.documents = db.documents.filter fun row => keepProject row.projectId
  assets : db'.assets = db.assets.filter fun row => keepProject row.projectId
  succeeded : ∀ job' ∈ db'.jobs, job'.state = .succeeded →
    ∃ job ∈ db.jobs, job.id = job'.id ∧ job.state = .succeeded
      ∧ job'.resultProjectId = job.resultProjectId.filter keepProject

variable {db : Database}

namespace ResultsKept

theorem refl (db : Database) : ResultsKept db db :=
  ⟨rfl, rfl, rfl, rfl, rfl, fun job hjob => ⟨job, hjob, rfl⟩,
    fun job hjob hstate => ⟨job, hjob, rfl, hstate, rfl⟩⟩

variable {a b c : Database}

theorem trans (hab : ResultsKept a b) (hbc : ResultsKept b c) :
    ResultsKept a c where
  artifacts := hbc.artifacts.trans hab.artifacts
  projects := hbc.projects.trans hab.projects
  directories := hbc.directories.trans hab.directories
  documents := hbc.documents.trans hab.documents
  assets := hbc.assets.trans hab.assets
  kept := by
    intro first hfirst
    rcases hab.kept first hfirst with ⟨between, hbetween, hid⟩
    rcases hbc.kept between hbetween with ⟨last, hlast, hid'⟩
    exact ⟨last, hlast, hid'.trans hid⟩
  succeeded := by
    intro last hlast hstate
    rcases hbc.succeeded last hlast hstate with ⟨between, hbetween, hid, hstate', hresult⟩
    rcases hab.succeeded between hbetween hstate' with ⟨first, hfirst, hid', hstate'', hresult'⟩
    exact ⟨first, hfirst, hid'.trans hid, hstate'', hresult.trans hresult'⟩

/-- An update of jobs that makes none succeed. -/
theorem of_jobs {db' : Database} {cond : JobRow → Bool} {set : JobRow → JobRow}
    (hjobs : db'.jobs = updateWhere cond set db.jobs) (hid : ∀ row, (set row).id = row.id)
    (hset : ∀ row ∈ db.jobs, cond row = true → (set row).state = .succeeded →
      row.state = .succeeded ∧ (set row).resultProjectId = row.resultProjectId)
    (hartifacts : db'.artifacts = db.artifacts) (hprojects : db'.projects = db.projects)
    (hdirectories : db'.directories = db.directories) (hdocuments : db'.documents = db.documents)
    (hassets : db'.assets = db.assets) : ResultsKept db db' := by
  refine ⟨hartifacts, hprojects, hdirectories, hdocuments, hassets, ?_, ?_⟩
  · intro job hjob
    rw [hjobs]
    by_cases hcond : cond job = true
    · exact ⟨set job, mem_updateWhere.mpr ⟨job, hjob, .inl ⟨hcond, rfl⟩⟩, hid job⟩
    · exact ⟨job, mem_updateWhere.mpr ⟨job, hjob, .inr ⟨by simpa using hcond, rfl⟩⟩, rfl⟩
  intro job' hjob' hstate
  rw [hjobs] at hjob'
  rcases mem_updateWhere.mp hjob' with ⟨job, hjob, ⟨hcond, heq⟩ | ⟨_, heq⟩⟩
  · rw [heq] at hstate
    rcases hset job hjob hcond hstate with ⟨hbefore, hresult⟩
    exact ⟨job, hjob, by rw [heq, hid], hbefore, by rw [heq, hresult]⟩
  · rw [heq] at hstate ⊢
    exact ⟨job, hjob, rfl, hstate, rfl⟩

/-- Results that are kept, then shrunk. -/
theorem shrunk {keepJob keepProject : Uuid → Bool} (hab : ResultsKept a b)
    (hbc : Shrunk keepJob keepProject b c) : Shrunk keepJob keepProject a c where
  artifacts := by rw [hbc.artifacts, hab.artifacts]
  jobs := hbc.jobs
  kept := by
    intro first hfirst hkeep
    rcases hab.kept first hfirst with ⟨between, hbetween, hid⟩
    rcases hbc.kept between hbetween (by rw [hid]; exact hkeep) with ⟨last, hlast, hid'⟩
    exact ⟨last, hlast, hid'.trans hid⟩
  projects := by rw [hbc.projects, hab.projects]
  directories := by rw [hbc.directories, hab.directories]
  documents := by rw [hbc.documents, hab.documents]
  assets := by rw [hbc.assets, hab.assets]
  succeeded := by
    intro last hlast hstate
    rcases hbc.succeeded last hlast hstate with ⟨between, hbetween, hid, hstate', hresult⟩
    rcases hab.succeeded between hbetween hstate' with ⟨first, hfirst, hid', hstate'', hresult'⟩
    exact ⟨first, hfirst, hid'.trans hid, hstate'', by rw [hresult, hresult']⟩

/-- Nothing is deleted. -/
theorem toShrunk (h : ResultsKept a b) : Shrunk (fun _ => true) (fun _ => true) a b := by
  refine h.shrunk ⟨by simp, by simp, fun job hjob _ => ⟨job, hjob, rfl⟩, by simp, by simp, by simp,
    by simp, ?_⟩
  intro job hjob hstate
  exact ⟨job, hjob, rfl, hstate, (filter_all _).symm⟩

end ResultsKept

/-! ## Deletions -/

theorem deleteJobs_shrunk (hkeys : WellKeyed db) (gone : JobRow → Bool) :
    Shrunk (fun id => !db.jobs.any fun job => job.id = id && gone job) (fun _ => true) db
      (deleteJobs db gone) := by
  refine ⟨rfl, ?_, ?_, by simp [deleteJobs], by simp [deleteJobs], by simp [deleteJobs],
    by simp [deleteJobs], ?_⟩
  · intro job' hjob'
    rcases mem_updateWhere.mp hjob' with ⟨job, hjob, hcase⟩
    have hjob := List.mem_filter.mp hjob
    have hid : job'.id = job.id := by
      rcases hcase with ⟨_, heq⟩ | ⟨_, heq⟩ <;> rw [heq]
    rw [hid]
    refine Bool.not_eq_true' _ ▸ ?_
    refine List.any_eq_false.mpr fun row hrow hcond => ?_
    simp only [Bool.and_eq_true, decide_eq_true_eq] at hcond
    rw [hkeys.job_eq hjob.1 hrow hcond.1] at hcond
    have hstays := hjob.2
    simp [hcond.2] at hstays
  · intro job hjob hkeep
    have hstays : gone job = false := by
      rw [Bool.not_eq_true'] at hkeep
      simpa using List.any_eq_false.mp hkeep job hjob
    have hids : job.id ∈ (deleteJobs db gone).jobs.map JobRow.id := by
      have hmem : job ∈ db.jobs.filter fun job => !gone job :=
        List.mem_filter.mpr ⟨hjob, by simp [hstays]⟩
      simp only [deleteJobs]
      rw [map_updateWhere]
      · exact List.mem_map_of_mem hmem
      · intro _ _
        rfl
    rcases List.mem_map.mp hids with ⟨job', hjob', hid⟩
    exact ⟨job', hjob', hid⟩
  · intro job' hjob' hstate
    rcases mem_updateWhere.mp hjob' with ⟨job, hjob, ⟨_, heq⟩ | ⟨_, heq⟩⟩
    · rw [heq] at hstate ⊢
      exact ⟨job, (List.mem_filter.mp hjob).1, rfl, hstate, (filter_all _).symm⟩
    · rw [heq] at hstate ⊢
      exact ⟨job, (List.mem_filter.mp hjob).1, rfl, hstate, (filter_all _).symm⟩

theorem deleteProject_shrunk (hkeys : WellKeyed db) (projectId : Uuid) :
    ∃ keepJob, Shrunk keepJob (fun id => id ≠ projectId) db (deleteProject db projectId) := by
  have hdeleted := deleteJobs_shrunk hkeys fun job => job.projectId = some projectId
  refine ⟨fun id => !db.jobs.any fun job => job.id = id && job.projectId = some projectId,
    hdeleted.artifacts, ?_, ?_, rfl, rfl, rfl, rfl, ?_⟩
  · intro job' hjob'
    rcases mem_updateWhere.mp hjob' with ⟨job, hjob, ⟨_, heq⟩ | ⟨_, heq⟩⟩
    · rw [heq]
      exact hdeleted.jobs job hjob
    · rw [heq]
      exact hdeleted.jobs job hjob
  · intro job hjob hkeep
    rcases hdeleted.kept job hjob hkeep with ⟨between, hbetween, hid⟩
    have hids : between.id ∈ (deleteProject db projectId).jobs.map JobRow.id := by
      simp only [deleteProject]
      rw [map_updateWhere]
      · exact List.mem_map_of_mem hbetween
      · intro _ _
        rfl
    rcases List.mem_map.mp hids with ⟨job', hjob', hid'⟩
    exact ⟨job', hjob', hid'.trans hid⟩
  · intro job' hjob' hstate
    -- a result is unset when it is the project that is deleted
    rcases mem_updateWhere.mp hjob' with ⟨job, hjob, ⟨hcond, heq⟩ | ⟨hcond, heq⟩⟩
    · rw [heq] at hstate ⊢
      rcases hdeleted.succeeded job hjob hstate with ⟨old, hold, hid, hstate', hresult⟩
      refine ⟨old, hold, hid, hstate', ?_⟩
      have hresult : old.resultProjectId = some projectId := by
        rw [filter_all] at hresult
        rw [← hresult]
        exact of_decide_eq_true hcond
      rw [hresult, Option.filter_some]
      simp
    · rw [heq] at hstate ⊢
      rcases hdeleted.succeeded job hjob hstate with ⟨old, hold, hid, hstate', hresult⟩
      refine ⟨old, hold, hid, hstate', ?_⟩
      rw [filter_all] at hresult
      have hother : old.resultProjectId ≠ some projectId := by
        rw [← hresult]
        exact of_decide_eq_false hcond
      rw [hresult]
      cases hold : old.resultProjectId with
      | none => rfl
      | some id =>
        have hne : id ≠ projectId := fun h => hother (by rw [hold, h])
        rw [Option.filter_some, if_pos (decide_eq_true hne)]

/-! ## The lifecycle tick -/

theorem failedClaimState_ne_succeeded (job : JobRow) (failure : Option ClaimFailure) :
    failedClaimState job failure ≠ .succeeded := by
  rcases failedClaimState_cases job failure with ⟨_, heq⟩ | ⟨_, _, heq⟩ | ⟨_, heq⟩ <;> simp [heq]

theorem expiredClaimState_ne_succeeded (job : JobRow) (now : Timestamp) :
    (expiredClaimState job now).1 ≠ .succeeded := by
  unfold expiredClaimState
  split
  · simp
  · split
    · simp
    · split <;> simp

theorem expireClaim_resultsKept (db : Database) (now : Timestamp) (job : JobRow) :
    ResultsKept db (expireClaim now db job) := by
  have hnever : ∀ row : JobRow, (row.unclaimed (expiredClaimState job now).1 now
      (now + processingRetryDelay job.attemptCount) (expiredClaimState job now).2).state
        = .succeeded → row.state = .succeeded
          ∧ (row.unclaimed (expiredClaimState job now).1 now
            (now + processingRetryDelay job.attemptCount)
            (expiredClaimState job now).2).resultProjectId = row.resultProjectId :=
    fun row hstate => absurd hstate (expiredClaimState_ne_succeeded job now)
  unfold expireClaim
  rcases job.currentClaimId with _ | claimId
  · exact .of_jobs rfl (fun _ => rfl) (fun row _ _ => hnever row) rfl rfl rfl rfl rfl
  · exact .of_jobs rfl (fun _ => rfl) (fun row _ _ => hnever row) rfl rfl rfl rfl rfl

theorem foldl_expireClaim_resultsKept {now : Timestamp} (jobs : List JobRow) (db : Database) :
    ResultsKept db (jobs.foldl (expireClaim now) db) :=
  List.foldlRecOn jobs _ (.refl db) fun between h job _ =>
    h.trans (expireClaim_resultsKept between now job)

theorem maintainLifecycle_shrunk (hinv : Inv db) (locked : List Uuid) (now : Timestamp) :
    ∃ keepJob, Shrunk keepJob (fun _ => true) db (maintainLifecycle locked db now) := by
  have hkeyed := expireClaims_keyed hinv locked now
  have hclaims : ResultsKept db ((overdueJobs (expireSessions db now) locked now).foldl
      (expireClaim now) (expireSessions db now)) := by
    have hsessions : ResultsKept db (expireSessions db now) :=
      ⟨rfl, rfl, rfl, rfl, rfl, (ResultsKept.refl db).kept, (ResultsKept.refl db).succeeded⟩
    exact hsessions.trans (foldl_expireClaim_resultsKept _ _)
  unfold maintainLifecycle
  dsimp only
  generalize (overdueJobs (expireSessions db now) locked now).foldl (expireClaim now)
    (expireSessions db now) = expired at hkeyed hclaims ⊢
  have hqueue : ResultsKept expired (expireTransfers (releaseEndedPins (expireQueue expired now)) now) := by
    refine .of_jobs rfl (fun _ => rfl) ?_ rfl rfl rfl rfl rfl
    intro row _ _ hstate
    simp [JobRow.ended] at hstate
  have hlast := expireQueue_keyed hkeyed now
  have hkept := hclaims.trans hqueue
  generalize expireTransfers (releaseEndedPins (expireQueue expired now)) now = last
    at hkept hlast ⊢
  have hdeleted := hkept.shrunk (deleteJobs_shrunk hlast (JobRow.isForgotten last now))
  exact ⟨fun id => !last.jobs.any fun job => job.id = id && job.isForgotten last now,
    hdeleted.artifacts, hdeleted.jobs, hdeleted.kept, hdeleted.projects, hdeleted.directories,
    hdeleted.documents, hdeleted.assets, hdeleted.succeeded⟩

/-! ## Steps -/

/-- Every step but the commit of a publication leaves the results alone or
deletes those of a job or a project. -/
theorem step_shrunk {s t : System} {action : Action} (hinv : Inv s.db)
    (h : Step externals config s action t)
    (hother : t.db = s.db ∨ ∀ finalizer, action ≠ .commitPublication finalizer) :
    ∃ keepJob keepProject, Shrunk keepJob keepProject s.db t.db := by
  rcases hother with hsame | hother
  · rw [hsame]
    exact ⟨_, _, (ResultsKept.refl s.db).toShrunk⟩
  have hkept : ∀ {db : Database}, ResultsKept s.db db →
      ∃ keepJob keepProject, Shrunk keepJob keepProject s.db db :=
    fun hkept => ⟨_, _, hkept.toShrunk⟩
  have hsame : ∀ {db : Database}, db.jobs = s.db.jobs → db.artifacts = s.db.artifacts →
      db.projects = s.db.projects → db.directories = s.db.directories →
      db.documents = s.db.documents → db.assets = s.db.assets →
      ∃ keepJob keepProject, Shrunk keepJob keepProject s.db db := by
    intro db hjobs hartifacts hprojects hdirectories hdocuments hassets
    refine hkept ⟨hartifacts, hprojects, hdirectories, hdocuments, hassets, ?_, ?_⟩
    · rw [hjobs]
      exact (ResultsKept.refl s.db).kept
    · rw [hjobs]
      exact (ResultsKept.refl s.db).succeeded
  -- by the effect: only deletions take results away
  have heffect := step_effect h
  generalize t.db = db at heffect ⊢
  cases heffect with
  | same => exact hkept (.refl s.db)
  | inserted command hinsert =>
    rw [(insertJob_cases hinsert).2]
    refine hkept ⟨rfl, rfl, rfl, rfl, rfl, ?_, ?_⟩
    · exact fun job hjob => ⟨job, List.mem_append_left _ hjob, rfl⟩
    intro job hjob hstate
    rcases List.mem_append.mp hjob with hold | hnew
    · exact ⟨job, hold, rfl, hstate, rfl⟩
    · rw [List.mem_singleton.mp hnew] at hstate
      simp [ReserveJob.row] at hstate
  | pins | workers | issued | read => exact hsame rfl rfl rfl rfl rfl rfl
  | prepared jobId blobId input hjob hstate hstored =>
    rcases storeBlob_cases hstored with ⟨blobs, rfl⟩
    refine hkept (.of_jobs rfl (fun _ => rfl) ?_ rfl rfl rfl rfl rfl)
    intro row _ _ hend
    simp [JobRow.prepared] at hend
  | preparationFailed | rejected | cancelledWaiting | cacheHit | claimed | delivered =>
    -- the job that is written has not succeeded
    refine hkept (.of_jobs rfl (fun _ => rfl) ?_ rfl rfl rfl rfl rfl)
    intro row _ _ hend
    simp [JobRow.ended, JobRow.cancelledWaiting, JobRow.cacheHitOf, JobRow.claimed,
      JobRow.delivered] at hend
  | cancelling | renewed | leased =>
    refine hkept (.of_jobs rfl (fun _ => rfl) ?_ rfl rfl rfl rfl rfl)
    intro row _ _ hend
    exact ⟨hend, rfl⟩
  | stored _ blobId upload hupload hstored =>
    rcases storeBlob_cases hstored with ⟨blobs, rfl⟩
    exact hsame rfl rfl rfl rfl rfl rfl
  | givenUp =>
    refine hkept (.of_jobs rfl (fun _ => rfl) ?_ rfl rfl rfl rfl rfl)
    intro row _ _ hend
    exact absurd hend (failedClaimState_ne_succeeded _ _)
  | tick locked now =>
    rcases maintainLifecycle_shrunk hinv locked now with ⟨keepJob, hshrunk⟩
    exact ⟨keepJob, _, hshrunk⟩
  | published finalizer => exact absurd rfl (hother finalizer)
  | deletedJobs gone => exact ⟨_, _, deleteJobs_shrunk hinv.keyed _⟩
  | deletedProject projectId =>
    rcases deleteProject_shrunk hinv.keyed projectId with ⟨keepJob, hshrunk⟩
    exact ⟨keepJob, _, hshrunk⟩

end Toss.Processing
