import Toss.Processing.AcceptedWorkspace
import Toss.Processing.Publications

/-!
# Attempts at finalization

`finalize_one` for one job, from the lease to the publication or the rejection,
and what repeating it comes to. A constraint that fails rolls the publication back
and leaves the job to the next attempt.

* `finalizeOne`, `finalizeTimes` — one attempt, and attempts in turn;
* `IsUndisturbed` — an attempt that the database answers in time;
* `finalizeOne_cases` — how an undisturbed attempt ends;
* `finalization_ends_iff` — the staged sets whose finalization ends.
-/

namespace Toss.Processing

open Toss.Foundation Toss.Workspace

variable {externals : Externals} {config : ProcessingConfig}

/-! ## One attempt -/

/-- What an attempt draws and is told: its token and identifiers, its clock, and the
answer on the requester's access. -/
structure FinalizationAttempt where
  token : Uuid
  acquiredAt : Timestamp
  access : AccessCheck
  projectId : Uuid
  hasStorage : Bool
  assetId : Nat → Uuid
  artifactId : Nat → Uuid
  endedAt : Timestamp

/-- `publish_artifacts` and `publish_workspace`: the transaction commits if the lease
stands, no constraint fails and the job is updated. -/
def publishFinalization (db : Database) (publication : Publication) : Database :=
  if lockFinalization db publication.lease publication.now then
    match publish db publication with
    | some (published, true) => published
    | _ => db
  else db

/-- The rest of an attempt that has leased its job. -/
def FinalizationAttempt.finish (externals : Externals) (config : ProcessingConfig)
    (attempt : FinalizationAttempt) (db : Database) (lease : FinalizationLease)
    (staged : List StagedArtifact) : Database :=
  let artifactIds := (List.range staged.length).map attempt.artifactId
  match validateFinalization externals config attempt.access lease staged with
  | .ok .artifacts => publishFinalization db ⟨lease, staged, none, artifactIds, attempt.endedAt⟩
  | .ok (.workspace bundle projectName) =>
    let assetIds := (List.range bundle.assets.length).map attempt.assetId
    let graph :=
      projectGraph lease bundle projectName attempt.projectId attempt.hasStorage assetIds
    publishFinalization db ⟨lease, staged, some graph, artifactIds, attempt.endedAt⟩
  | .error (.rejected failure) => rejectArtifacts db lease failure attempt.endedAt
  | .error .unavailable => db

/-- `finalize_one`, for the job its query finds. -/
def finalizeOne (externals : Externals) (config : ProcessingConfig) (jobId : Uuid) (db : Database)
    (attempt : FinalizationAttempt) : Database :=
  match acquireFinalizationLease config db jobId attempt.token attempt.acquiredAt with
  | none => db
  | some (lease, leased) =>
    match loadStagedArtifacts leased lease with
    | none => leased
    | some staged => attempt.finish externals config leased lease staged

/-- Attempts in turn. -/
def finalizeTimes (externals : Externals) (config : ProcessingConfig) (jobId : Uuid)
    (db : Database) (attempts : List FinalizationAttempt) : Database :=
  attempts.foldl (finalizeOne externals config jobId) db

/-- The staged result of a job, as the holder of its lease loads it. -/
def stagedOf (db : Database) (job : JobRow) : Option (List StagedArtifact) :=
  match job.cacheSourceJobId with
  | some sourceJobId =>
    if (db.jobs.any fun source => source.id = sourceJobId && source.state = .succeeded) = true then
      some (sortStaged ((db.artifacts.filter fun artifact => artifact.jobId = sourceJobId).filterMap
        fun artifact => (db.blob? artifact.blobId).map artifact.staged))
    else some []
  | none =>
    ((stagedTransfers db job).mapM fun entry : TransferRow × BlobRow =>
      entry.1.staged entry.2).map sortStaged

/-- An attempt that runs to its end: the job is due, access is answered for, the
lease lasts, and the identifiers drawn are not taken. -/
structure IsUndisturbed (config : ProcessingConfig) (db : Database) (jobId : Uuid)
    (attempt : FinalizationAttempt) : Prop where
  answered : attempt.access ≠ .unavailable
  due : ∀ job ∈ db.jobs, job.id = jobId → job.state = .finalizing →
    job.awaitsFinalizer attempt.acquiredAt = true
  inTime : attempt.endedAt < attempt.acquiredAt + config.finalizationLease
  freshProject : ∀ project ∈ db.projects, project.id ≠ attempt.projectId
  freshAssets : ∀ index, ∀ row ∈ db.assets, row.id ≠ attempt.assetId index
  distinctAssets : Function.Injective attempt.assetId

/-- Attempts that are undisturbed, each where the one before left the tables. -/
def Undisturbed (externals : Externals) (config : ProcessingConfig) (jobId : Uuid) :
    Database → List FinalizationAttempt → Prop
  | _, [] => True
  | db, attempt :: attempts =>
    IsUndisturbed config db jobId attempt
      ∧ Undisturbed externals config jobId (finalizeOne externals config jobId db attempt) attempts

/-- The job has ended as it should. -/
def HasEnded (db : Database) (jobId : Uuid) : Prop :=
  ∃ job ∈ db.jobs, job.id = jobId ∧ (job.state = .succeeded ∨ job.state = .failed)

/-! ## The lease of an attempt -/

/-- The tables once an attempt has leased the job. -/
def leasedBy (config : ProcessingConfig) (db : Database) (jobId : Uuid)
    (attempt : FinalizationAttempt) : Database :=
  db.updateJobs (fun row => row.id = jobId) fun row =>
    row.leased attempt.token (attempt.acquiredAt + config.finalizationLease)

/-- The job's row under that lease. -/
def FinalizationAttempt.leasedRow (config : ProcessingConfig) (attempt : FinalizationAttempt)
    (job : JobRow) : JobRow :=
  job.leased attempt.token (attempt.acquiredAt + config.finalizationLease)

variable {db : Database} {job : JobRow} {staged : List StagedArtifact}
  {attempt : FinalizationAttempt}

theorem leasedRow_mem (hjob : job ∈ db.jobs) (attempt : FinalizationAttempt) :
    attempt.leasedRow config job ∈ (leasedBy config db job.id attempt).jobs :=
  mem_updateWhere.mpr ⟨job, hjob, .inl ⟨decide_eq_true rfl, rfl⟩⟩

theorem leasedBy_keys (hkeys : (db.jobs.map JobRow.id).Nodup) (jobId : Uuid)
    (attempt : FinalizationAttempt) :
    ((leasedBy config db jobId attempt).jobs.map JobRow.id).Nodup := by
  have hids : (leasedBy config db jobId attempt).jobs.map JobRow.id = db.jobs.map JobRow.id := by
    refine map_updateWhere ?_ db.jobs
    intro row _
    rfl
  rw [hids]
  exact hkeys

/-- A lease changes nothing that the staged result is read from. -/
theorem stagedOf_leased (jobId : Uuid) (job : JobRow) (attempt : FinalizationAttempt) :
    stagedOf (leasedBy config db jobId attempt) (attempt.leasedRow config job)
      = stagedOf db job := by
  have hsources : ∀ sourceJobId, ((leasedBy config db jobId attempt).jobs.any fun source =>
      source.id = sourceJobId && source.state = .succeeded)
        = db.jobs.any fun source => source.id = sourceJobId && source.state = .succeeded := by
    intro sourceJobId
    rw [leasedBy, Database.updateJobs, updateWhere, List.any_map]
    refine congrArg db.jobs.any (funext fun row => ?_)
    by_cases hrow : row.id = jobId <;> simp [hrow, JobRow.leased]
  unfold stagedOf
  rcases hsource : job.cacheSourceJobId with _ | sourceJobId
  · have hnone : (attempt.leasedRow config job).cacheSourceJobId = none := hsource
    rw [hnone]
    rfl
  have hsome : (attempt.leasedRow config job).cacheSourceJobId = some sourceJobId := hsource
  rw [hsome]
  simp only [hsources]
  rfl

/-- What an attempt loads is the staged result of its job. -/
theorem load_leased (hkeys : (db.jobs.map JobRow.id).Nodup)
    (hjob : job ∈ db.jobs) (hstate : job.state = .finalizing) (attempt : FinalizationAttempt) :
    loadStagedArtifacts (leasedBy config db job.id attempt) (job.lease attempt.token)
      = stagedOf db job := by
  have hfound : (leasedBy config db job.id attempt).job? (job.lease attempt.token).jobId
      = some (attempt.leasedRow config job) :=
    find?_of_key (leasedBy_keys hkeys job.id attempt) (leasedRow_mem hjob attempt) rfl
  have howns : ¬ ((attempt.leasedRow config job).state ≠ .finalizing
      ∨ (attempt.leasedRow config job).finalizationToken ≠ some (job.lease attempt.token).token) := by
    rintro (h | h)
    · exact h hstate
    · exact h rfl
  rw [← @stagedOf_leased config db job.id job attempt]
  simp only [loadStagedArtifacts, hfound]
  rw [if_neg howns]
  rcases hsource : job.cacheSourceJobId with _ | sourceJobId
  · have hlease : (job.lease attempt.token).cacheSourceJobId = none := hsource
    have hrow : (attempt.leasedRow config job).cacheSourceJobId = none := hsource
    rw [hlease, stagedOf, hrow]
  · have hlease : (job.lease attempt.token).cacheSourceJobId = some sourceJobId := hsource
    have hrow : (attempt.leasedRow config job).cacheSourceJobId = some sourceJobId := hsource
    simp only [hlease, stagedOf, hrow, true_and]

theorem finalizeOne_leased (hkeys : (db.jobs.map JobRow.id).Nodup)
    (hjob : job ∈ db.jobs) (hstate : job.state = .finalizing)
    (hdue : job.awaitsFinalizer attempt.acquiredAt = true)
    (hstaged : stagedOf db job = some staged) :
    finalizeOne externals config job.id db attempt
      = attempt.finish externals config (leasedBy config db job.id attempt)
        (job.lease attempt.token) staged := by
  have hacquired : acquireFinalizationLease config db job.id attempt.token attempt.acquiredAt
      = some (job.lease attempt.token, leasedBy config db job.id attempt) := by
    rw [acquireFinalizationLease, find?_of_key hkeys hjob rfl]
    exact if_pos hdue
  have hload := @load_leased config db job hkeys hjob hstate attempt
  rw [hstaged] at hload
  simp only [finalizeOne, hacquired, hload]

/-! ## How an attempt ends -/

/-- The staged set of a job that is accepted as a workspace with a zero byte in a
document file. -/
def AcceptsZeroByte (externals : Externals) (config : ProcessingConfig) (job : JobRow)
    (staged : List StagedArtifact) : Prop :=
  isArtifactSet config externals.sha256 job.operation.contract staged = true
  ∧ (∃ bundle projectName, validateContent externals config (job.lease 0) staged
      = .ok (.workspace bundle projectName))
  ∧ ∃ workspace, artifactOf staged "workspace".toList = some workspace
    ∧ HasZeroByte externals (outputExpansionLimit config) workspace.content

/-- An accepted workspace is that of the staged archive, under a storable name. -/
theorem validateContent_workspace {lease : FinalizationLease}
    {bundle : ValidatedWorkspaceBundle} {projectName : Text}
    (h : validateContent externals config lease staged = .ok (.workspace bundle projectName)) :
    isStorableText projectName = true
    ∧ ∃ workspace, artifactOf staged "workspace".toList = some workspace
      ∧ validateWorkspaceBundle externals workspace.content (outputExpansionLimit config)
        = .ok bundle := by
  unfold validateContent at h
  split at h
  · split at h
    · simp at h
    · split at h <;> simp at h
  · split at h
    · simp at h
    · split at h <;> simp at h
  split at h
  · rename_i accepted haccepted
    split at h
    · simp at h
    split at h
    · simp at h
    rename_i name hname
    simp only [Except.ok.injEq, ValidatedFinalization.workspace.injEq] at h
    rcases Option.map_eq_some_iff.mp haccepted with ⟨workspace, hworkspace, hbundle⟩
    refine ⟨?_, workspace, hworkspace, by rw [hbundle, h.1]⟩
    rcases Option.bind_eq_some_iff.mp hname with ⟨raw, _, hparsed⟩
    unfold parseProjectName at hparsed
    dsimp only at hparsed
    split at hparsed
    · simp at hparsed
    rename_i hclean
    rw [← h.2, ← Option.some.inj hparsed]
    have hnul : '\x00' ∉ trim raw := by
      intro hmem
      have hcontrol : (trim raw).any isControl = true :=
        List.any_eq_true.mpr ⟨_, hmem, by decide⟩
      simp [hcontrol] at hclean
    simp [isStorableText, hnul]
  · simp at h

/-- The zero byte of an accepted set is U+0000 in a document of the workspace. -/
theorem acceptsZeroByte_iff {bundle : ValidatedWorkspaceBundle} {projectName : Text}
    (hset : isArtifactSet config externals.sha256 job.operation.contract staged = true)
    (h : validateContent externals config (job.lease 0) staged
      = .ok (.workspace bundle projectName)) :
    AcceptsZeroByte externals config job staged
      ↔ ∃ document ∈ bundle.documents, '\x00' ∈ document.content := by
  rcases validateContent_workspace h with ⟨_, workspace, hworkspace, hbundle⟩
  rw [(accepted_sound hbundle).2]
  constructor
  · rintro ⟨_, _, other, hother, hzero⟩
    rw [hworkspace, Option.some.injEq] at hother
    rw [hother]
    exact hzero
  · exact fun hzero => ⟨hset, ⟨bundle, projectName, h⟩, workspace, hworkspace, hzero⟩

/-- What the finalizer's check of a staged set comes to. -/
theorem validateFinalization_cases {access : AccessCheck} (hanswered : access ≠ .unavailable)
    (lease : FinalizationLease) (staged : List StagedArtifact) :
    (∃ failure, validateFinalization externals config access lease staged
      = .error (.rejected failure))
    ∨ (isArtifactSet config externals.sha256 lease.operation.contract staged = true
      ∧ ∃ accepted, validateContent externals config lease staged = .ok accepted
        ∧ validateFinalization externals config access lease staged = .ok accepted) := by
  unfold validateFinalization
  split
  · exact .inl ⟨_, rfl⟩
  split
  · rename_i hunavailable
    exact absurd hunavailable.2 hanswered
  split
  · exact .inl ⟨_, rfl⟩
  rename_i hset
  split
  · exact .inl ⟨_, rfl⟩
  · rename_i accepted haccepted
    refine .inr ⟨?_, accepted, haccepted, rfl⟩
    simpa using hset

theorem lockFinalization_leased (hjob : job ∈ db.jobs) (hstate : job.state = .finalizing)
    (hinTime : attempt.endedAt < attempt.acquiredAt + config.finalizationLease) :
    lockFinalization (leasedBy config db job.id attempt) (job.lease attempt.token) attempt.endedAt
      = true := by
  refine List.any_eq_true.mpr ⟨_, leasedRow_mem hjob attempt, ?_⟩
  have hlease : (attempt.leasedRow config job).finalizationExpiresAt
      = some (attempt.acquiredAt + config.finalizationLease) := rfl
  have hid : (attempt.leasedRow config job).id = (job.lease attempt.token).jobId := rfl
  have htoken : (attempt.leasedRow config job).finalizationToken
      = some (job.lease attempt.token).token := rfl
  have hfinalizing : (attempt.leasedRow config job).state = .finalizing := hstate
  simp [hlease, hid, htoken, hfinalizing, hinTime]

theorem owns_leased (hstate : job.state = .finalizing) (attempt : FinalizationAttempt) :
    (job.lease attempt.token).owns (attempt.leasedRow config job) = true := by
  have hid : (attempt.leasedRow config job).id = (job.lease attempt.token).jobId := rfl
  have htoken : (attempt.leasedRow config job).finalizationToken
      = some (job.lease attempt.token).token := rfl
  have hfinalizing : (attempt.leasedRow config job).state = .finalizing := hstate
  simp [FinalizationLease.owns, hid, htoken, hfinalizing]

/-- A publication whose project can be inserted ends the job. -/
theorem publishFinalization_ends (hjob : job ∈ db.jobs) (hstate : job.state = .finalizing)
    (hinTime : attempt.endedAt < attempt.acquiredAt + config.finalizationLease)
    {graph : Option ProjectGraph} {artifactIds : List Uuid} (hgraph : ∀ project ∈ graph,
      project.isInsertable (leasedBy config db job.id attempt) = true) :
    HasEnded (publishFinalization (leasedBy config db job.id attempt)
      ⟨job.lease attempt.token, staged, graph, artifactIds, attempt.endedAt⟩) job.id := by
  have howns := @owns_leased config job hstate attempt
  have hmem := @leasedRow_mem config db job hjob attempt
  have htouched : (leasedBy config db job.id attempt).jobs.any (job.lease attempt.token).owns
      = true := List.any_eq_true.mpr ⟨_, hmem, howns⟩
  rcases hpublish : publish (leasedBy config db job.id attempt)
      ⟨job.lease attempt.token, staged, graph, artifactIds, attempt.endedAt⟩ with
    _ | ⟨published, updated⟩
  · -- the project was insertable
    rw [publish, Option.map_eq_none_iff, Publication.provision] at hpublish
    rcases graph with _ | project
    · simp at hpublish
    · simp [provisionProject, hgraph project rfl] at hpublish
  · have hupdated : updated = true := (publish_cases hpublish).1.trans htouched
    have hjobs := publish_jobs hpublish
    rw [publishFinalization, if_pos (lockFinalization_leased hjob hstate hinTime)]
    simp only [hpublish, hupdated]
    refine ⟨(attempt.leasedRow config job).succeeded (graph.map ProjectGraph.projectId)
      attempt.endedAt, ?_, rfl, .inl rfl⟩
    rw [hjobs]
    exact mem_updateWhere.mpr ⟨_, hmem, .inl ⟨howns, rfl⟩⟩

/-- A publication whose project cannot be inserted is rolled back. -/
theorem publishFinalization_stays {publication : Publication} {graph : ProjectGraph}
    (hgraph : publication.graph = some graph) (hstuck : graph.isInsertable db = false) :
    publishFinalization db publication = db := by
  have hnone : publish db publication = none := by
    simp [publish, Publication.provision, hgraph, provisionProject, hstuck]
  rw [publishFinalization, hnone]
  split <;> rfl

theorem rejectArtifacts_ends (hjob : job ∈ db.jobs) (hstate : job.state = .finalizing)
    (hinTime : attempt.endedAt < attempt.acquiredAt + config.finalizationLease)
    (failure : ValidationFailure) :
    ∃ row ∈ (rejectArtifacts (leasedBy config db job.id attempt) (job.lease attempt.token) failure
      attempt.endedAt).jobs, row.id = job.id ∧ row.state = .failed := by
  have hlease : (attempt.leasedRow config job).finalizationExpiresAt
      = some (attempt.acquiredAt + config.finalizationLease) := rfl
  have hcond : ((job.lease attempt.token).owns (attempt.leasedRow config job)
      && (attempt.leasedRow config job).finalizationExpiresAt.any fun expiry =>
        decide (attempt.endedAt < expiry)) = true := by
    rw [owns_leased hstate attempt, hlease]
    simp [hinTime]
  exact ⟨_, mem_updateWhere.mpr ⟨_, leasedRow_mem hjob attempt, .inl ⟨hcond, rfl⟩⟩, rfl, rfl⟩

/-- An undisturbed attempt ends its job, unless the staged set has a zero byte in a
document: then the job stays leased, to be taken again. -/
theorem finalizeOne_cases
    (hessence : ∀ text essence, externals.mimeEssence text = some essence → '\x00' ∉ essence)
    (hkeys : (db.jobs.map JobRow.id).Nodup) (hjob : job ∈ db.jobs)
    (hstate : job.state = .finalizing) (hstaged : stagedOf db job = some staged)
    (hattempt : IsUndisturbed config db job.id attempt) :
    (¬ AcceptsZeroByte externals config job staged →
      HasEnded (finalizeOne externals config job.id db attempt) job.id)
    ∧ (AcceptsZeroByte externals config job staged →
        (job.projectId.isSome = true → attempt.access = .granted) →
        finalizeOne externals config job.id db attempt = leasedBy config db job.id attempt)
    ∧ ∀ failure, validateFinalization externals config attempt.access (job.lease attempt.token)
        staged = .error (.rejected failure) →
      ∃ row ∈ (finalizeOne externals config job.id db attempt).jobs, row.id = job.id
        ∧ row.state = .failed := by
  rw [finalizeOne_leased hkeys hjob hstate (hattempt.due job hjob rfl hstate) hstaged]
  -- the answer of the validator does not depend on the token
  have hcontent : validateContent externals config (job.lease attempt.token) staged
      = validateContent externals config (job.lease 0) staged := rfl
  have hinsertable : ∀ {bundle projectName}, validateContent externals config
      (job.lease attempt.token) staged = .ok (.workspace bundle projectName) →
      ∃ workspace, artifactOf staged "workspace".toList = some workspace
        ∧ ((projectGraph (job.lease attempt.token) bundle projectName attempt.projectId
            attempt.hasStorage ((List.range bundle.assets.length).map attempt.assetId)).isInsertable
            (leasedBy config db job.id attempt) = true
          ↔ ¬ HasZeroByte externals (outputExpansionLimit config) workspace.content) := by
    intro bundle projectName hvalid
    rcases validateContent_workspace hvalid with ⟨hname, workspace, hworkspace, hbundle⟩
    refine ⟨workspace, hworkspace, accepted_storable hessence hbundle hname hattempt.freshProject
      (by simp) (List.nodup_range.map hattempt.distinctAssets) ?_⟩
    intro id hid row hrow
    rcases List.mem_map.mp hid with ⟨index, _, rfl⟩
    exact hattempt.freshAssets index row hrow
  rcases @validateFinalization_cases externals config _ hattempt.answered (job.lease attempt.token)
      staged with
    ⟨failure, hvalidated⟩ | ⟨hset, accepted, haccepted, hvalidated⟩
  · have hfinish : attempt.finish externals config (leasedBy config db job.id attempt)
        (job.lease attempt.token) staged
        = rejectArtifacts (leasedBy config db job.id attempt) (job.lease attempt.token) failure
          attempt.endedAt := by
      simp only [FinalizationAttempt.finish, hvalidated]
    rcases rejectArtifacts_ends hjob hstate hattempt.inTime failure with ⟨row, hrow, hid, hfailed⟩
    rw [hfinish]
    refine ⟨fun _ => ⟨row, hrow, hid, .inr hfailed⟩, ?_, fun _ _ => ⟨row, hrow, hid, hfailed⟩⟩
    rintro ⟨hset, ⟨bundle, projectName, hvalid⟩, _⟩ hgranted
    -- with access granted, the accepted set is not rejected
    unfold validateFinalization at hvalidated
    have hset : isArtifactSet config externals.sha256 (job.lease attempt.token).operation.contract
        staged = true := hset
    rw [hset, hcontent, hvalid] at hvalidated
    have hproject : ¬ ((job.lease attempt.token).projectId.isSome = true
        ∧ attempt.access = .denied) := by
      rintro ⟨hsome, hdenied⟩
      rw [hgranted hsome] at hdenied
      simp at hdenied
    rw [if_neg hproject] at hvalidated
    split at hvalidated <;> simp at hvalidated
  · have hnever : ∀ failure, validateFinalization externals config attempt.access
        (job.lease attempt.token) staged = .error (.rejected failure) → False := by
      intro failure hrejected
      rw [hvalidated] at hrejected
      simp at hrejected
    refine ⟨?_, ?_, fun failure hrejected => absurd hrejected (hnever failure)⟩
    · intro hclean
      rcases accepted with _ | ⟨bundle, projectName⟩
      · simp only [FinalizationAttempt.finish, hvalidated]
        exact publishFinalization_ends hjob hstate hattempt.inTime fun _ h => absurd h (by simp)
      rcases hinsertable haccepted with ⟨workspace, hworkspace, hiff⟩
      simp only [FinalizationAttempt.finish, hvalidated]
      refine publishFinalization_ends hjob hstate hattempt.inTime ?_
      intro project hproject
      cases hproject
      refine hiff.mpr fun hzero => hclean ⟨hset, ⟨bundle, projectName, haccepted⟩, ?_⟩
      exact ⟨workspace, hworkspace, hzero⟩
    · rintro ⟨_, ⟨bundle, projectName, hvalid⟩, workspace, hworkspace, hzero⟩ _
      rw [← hcontent] at hvalid
      rcases hinsertable hvalid with ⟨workspace', hworkspace', hiff⟩
      rw [hworkspace, Option.some.injEq] at hworkspace'
      rw [← hworkspace'] at hiff
      rw [hvalid, Except.ok.injEq] at haccepted
      rw [← haccepted] at hvalidated
      simp only [FinalizationAttempt.finish, hvalidated]
      exact publishFinalization_stays rfl (Bool.eq_false_iff.mpr fun hok => hiff.mp hok hzero)

/-! ## Jobs that can be taken again -/

/-- A lease has a time at which it runs out. -/
def LeaseExpires (job : JobRow) : Prop :=
  job.finalizationToken.isSome = true → job.finalizationExpiresAt.isSome = true

theorem JobMove.leaseExpires {job job' : JobRow} {attempts attempts' : List AttemptRow}
    (h : JobMove config job attempts job' attempts') (hlease : LeaseExpires job) :
    LeaseExpires job' := by
  cases h with
  | delivered => exact fun h => absurd h (by simp [JobRow.delivered])
  | succeeded => exact fun h => absurd h (by simp [JobRow.succeeded])
  | rejected => exact fun h => absurd h (by simp)
  | leased => exact fun _ => rfl
  | _ => exact hlease

theorem step_leaseExpires {s t : System} {action : Action} (hinv : Inv s.db)
    (h : Step externals config s action t) (hlease : ∀ job ∈ s.db.jobs, LeaseExpires job) :
    ∀ job ∈ t.db.jobs, LeaseExpires job := by
  intro job' hjob'
  rcases step_moves hinv h with hmoves | ⟨command, _, _, hinsert⟩
  · rcases Moves.rel (r := fun job job' => LeaseExpires job → LeaseExpires job') (fun _ h => h)
      (fun _ _ _ hab hbc h => hbc (hab h)) (fun _ _ _ _ hmove _ _ => hmove.leaseExpires) hmoves hinv
      job' hjob' with ⟨job, hjob, _, hkept⟩
    exact hkept (hlease job hjob)
  · rcases insertJob_cases hinsert with ⟨_, hdb⟩
    rw [hdb] at hjob'
    rcases List.mem_append.mp hjob' with hold | hnew
    · exact hlease job' hold
    · rw [List.mem_singleton.mp hnew]
      exact fun h => absurd h (by simp [ReserveJob.row])

/-- The staged result of a job can always be loaded. -/
theorem stagedOf_isSome (htransfers : TransferInv db) (job : JobRow) :
    ∃ staged, stagedOf db job = some staged := by
  unfold stagedOf
  split
  · split
    · exact ⟨_, rfl⟩
    · exact ⟨_, rfl⟩
  refine Option.isSome_iff_exists.mp ?_
  rw [Option.isSome_map]
  refine mapM_isSome ?_
  rintro ⟨transfer, blob⟩ hentry
  rcases List.mem_flatMap.mp hentry with ⟨attempt, _, hpair⟩
  rcases List.mem_filterMap.mp hpair with ⟨row, hrow, hblob⟩
  rcases Option.map_eq_some_iff.mp hblob with ⟨_, _, heq⟩
  have hsame : row = transfer := congrArg Prod.fst heq
  have hrow := List.mem_filter.mp hrow
  have hupload : row.direction = .upload := by
    have hcond := hrow.2
    simp only [TransferRow.isStagedFor, Bool.and_eq_true, decide_eq_true_eq] at hcond
    exact hcond.1.2
  rcases htransfers.declared row hrow.1 hupload with ⟨hfilename, hsize, hsha⟩
  rcases Option.isSome_iff_exists.mp hfilename with ⟨filename, hfilename⟩
  rcases Option.isSome_iff_exists.mp hsize with ⟨size, hsize⟩
  rcases Option.isSome_iff_exists.mp hsha with ⟨sha256, hsha⟩
  rw [← hsame]
  simp [TransferRow.staged, hfilename, hsize, hsha]

theorem le_sum_of_mem {values : List Nat} {value : Nat} (h : value ∈ values) :
    value ≤ values.sum := by
  induction values with
  | nil => simp at h
  | cons first rest ih =>
    rw [List.sum_cons]
    rcases List.mem_cons.mp h with rfl | hrest
    · omega
    · have hle := ih hrest
      omega

/-- A job whose lease runs out can be attempted again, with access granted. -/
theorem exists_undisturbed (db : Database) (hkeys : (db.jobs.map JobRow.id).Nodup)
    (hjob : job ∈ db.jobs) (hlease : LeaseExpires job) :
    ∃ attempt, IsUndisturbed config db job.id attempt ∧ attempt.access = .granted := by
  refine ⟨⟨0, job.finalizationExpiresAt.getD 0, .granted, (db.projects.map ResultProjectRow.id).sum + 1,
    false, fun index => (db.assets.map ResultAssetRow.id).sum + 1 + index, id,
    job.finalizationExpiresAt.getD 0⟩, ⟨by simp, ?_, ?_, ?_, ?_, ?_⟩, rfl⟩
  · intro row hrow hid hstate
    rw [List.inj_on_of_nodup_map hkeys hrow hjob hid] at hstate ⊢
    rcases htoken : job.finalizationToken with _ | token
    · simp [JobRow.awaitsFinalizer, hstate, htoken]
    · rcases Option.isSome_iff_exists.mp (hlease (by rw [htoken]; rfl)) with ⟨expiry, hexpiry⟩
      simp [JobRow.awaitsFinalizer, hstate, hexpiry]
  · show job.finalizationExpiresAt.getD 0 < job.finalizationExpiresAt.getD 0 + config.finalizationLease
    exact Int.lt_add_of_pos_right _ config.finalizationLease_pos
  · intro project hproject
    have hle := le_sum_of_mem (List.mem_map_of_mem (f := ResultProjectRow.id) hproject)
    exact Nat.ne_of_lt (Nat.lt_succ_of_le hle)
  · intro index row hrow
    have hle := le_sum_of_mem (List.mem_map_of_mem (f := ResultAssetRow.id) hrow)
    exact Nat.ne_of_lt (Nat.lt_add_right index (Nat.lt_succ_of_le hle))
  · intro a b hab
    exact Nat.add_left_cancel hab

/-- Attempts that leave the job to the next one, any number of them. -/
theorem exists_stuck
    (hessence : ∀ text essence, externals.mimeEssence text = some essence → '\x00' ∉ essence)
    (count : Nat) (hkeys : (db.jobs.map JobRow.id).Nodup)
    (hjob : job ∈ db.jobs) (hstate : job.state = .finalizing) (hlease : LeaseExpires job)
    (hstaged : stagedOf db job = some staged)
    (hzero : AcceptsZeroByte externals config job staged) :
    ∃ attempts, attempts.length = count ∧ Undisturbed externals config job.id db attempts
      ∧ ∃ row ∈ (finalizeTimes externals config job.id db attempts).jobs, row.id = job.id
        ∧ row.state = .finalizing ∧ ((finalizeTimes externals config job.id db attempts).jobs.map
          JobRow.id).Nodup := by
  induction count generalizing db job with
  | zero => exact ⟨[], rfl, trivial, job, hjob, rfl, hstate, hkeys⟩
  | succ count ih =>
    rcases @exists_undisturbed config job db hkeys hjob hlease with
      ⟨attempt, hattempt, hgranted⟩
    have hone := (finalizeOne_cases hessence hkeys hjob hstate hstaged hattempt).2.1 hzero
      fun _ => hgranted
    rcases ih (leasedBy_keys hkeys job.id attempt) (leasedRow_mem hjob attempt) hstate
      (fun _ => rfl) ((stagedOf_leased job.id job attempt).trans hstaged) hzero with
      ⟨attempts, hlength, hundisturbed, hlast⟩
    refine ⟨attempt :: attempts, by rw [List.length_cons, hlength], ⟨hattempt, ?_⟩, ?_⟩
    · rw [hone]
      exact hundisturbed
    · rw [finalizeTimes, List.foldl_cons, hone]
      exact hlast

/-! ## Which staged sets are finalized -/

/-- The finalization of a staged set ends: after finitely many undisturbed attempts
the job has ended, a workspace that is accepted meets the constraints of the tables
it is inserted into, and a set that is rejected fails its job. -/
structure FinalizationEnds (externals : Externals) (config : ProcessingConfig) (db : Database)
    (job : JobRow) (staged : List StagedArtifact) : Prop where
  ends : ∃ count, ∀ attempts : List FinalizationAttempt, attempts.length = count →
    Undisturbed externals config job.id db attempts →
    HasEnded (finalizeTimes externals config job.id db attempts) job.id
  accepted : ∀ attempt, IsUndisturbed config db job.id attempt → ∀ bundle projectName,
    isArtifactSet config externals.sha256 job.operation.contract staged = true →
    validateContent externals config (job.lease attempt.token) staged
      = .ok (.workspace bundle projectName) →
    (projectGraph (job.lease attempt.token) bundle projectName attempt.projectId attempt.hasStorage
        ((List.range bundle.assets.length).map attempt.assetId)).isInsertable db = true
      ∧ (bundle.documents.map WorkspaceDocument.path
        ++ bundle.assets.map WorkspaceBundleAsset.path).Nodup
      ∧ bundle.entryFilePath ∈ bundle.documents.map WorkspaceDocument.path
  rejected : ∀ attempt, IsUndisturbed config db job.id attempt → ∀ failure,
    validateFinalization externals config attempt.access (job.lease attempt.token) staged
      = .error (.rejected failure) →
    ∃ row ∈ (finalizeOne externals config job.id db attempt).jobs, row.id = job.id
      ∧ row.state = .failed

theorem finalizationEnds_iff
    (hessence : ∀ text essence, externals.mimeEssence text = some essence → '\x00' ∉ essence)
    (hkeys : (db.jobs.map JobRow.id).Nodup) (hjob : job ∈ db.jobs)
    (hstate : job.state = .finalizing) (hlease : LeaseExpires job)
    (hstaged : stagedOf db job = some staged) :
    FinalizationEnds externals config db job staged
      ↔ ¬ AcceptsZeroByte externals config job staged := by
  constructor
  · rintro ⟨⟨count, hends⟩, _, _⟩ hzero
    rcases exists_stuck hessence count hkeys hjob hstate hlease hstaged hzero with
      ⟨attempts, hlength, hundisturbed, row, hrow, hid, hrowState, hkeys'⟩
    rcases hends attempts hlength hundisturbed with ⟨other, hother, hotherId, hended⟩
    rw [List.inj_on_of_nodup_map hkeys' hother hrow (hotherId.trans hid.symm), hrowState] at hended
    simp at hended
  · intro hclean
    refine ⟨⟨1, ?_⟩, ?_, ?_⟩
    · intro attempts hlength hundisturbed
      rcases List.length_eq_one_iff.mp hlength with ⟨attempt, rfl⟩
      exact (finalizeOne_cases hessence hkeys hjob hstate hstaged hundisturbed.1).1 hclean
    · intro attempt hattempt bundle projectName hset hvalid
      rcases validateContent_workspace hvalid with ⟨hname, workspace, hworkspace, hbundle⟩
      have hsound := (accepted_sound hbundle).1
      refine ⟨?_, hsound.paths, hsound.entry⟩
      refine (accepted_storable hessence hbundle hname hattempt.freshProject (by simp)
        (List.nodup_range.map hattempt.distinctAssets) ?_).mpr ?_
      · intro id hid row hrow
        rcases List.mem_map.mp hid with ⟨index, _, rfl⟩
        exact hattempt.freshAssets index row hrow
      · exact fun hzero => hclean ⟨hset, ⟨bundle, projectName, hvalid⟩, workspace, hworkspace, hzero⟩
    · intro attempt hattempt
      exact (finalizeOne_cases hessence hkeys hjob hstate hstaged hattempt).2.2

/-- In every reachable state, the staged set of a job that is being finalized can be
loaded, and its finalization ends exactly when the set is not accepted as a workspace
with a zero byte in one of its document files. -/
theorem finalization_ends_iff
    (hessence : ∀ text essence, externals.mimeEssence text = some essence → '\x00' ∉ essence)
    {actions : List Action} {s : System} (hrun : Run (Step externals config) {} actions s)
    {job : JobRow} (hjob : job ∈ s.db.jobs) (hstate : job.state = .finalizing) :
    ∃ staged, stagedOf s.db job = some staged
      ∧ (FinalizationEnds externals config s.db job staged
        ↔ ¬ AcceptsZeroByte externals config job staged) := by
  have hstep : ∀ u action v, (ProcessingInv u ∧ ∀ row ∈ u.db.jobs, LeaseExpires row) →
      Step externals config u action v →
      ProcessingInv v ∧ ∀ row ∈ v.db.jobs, LeaseExpires row :=
    fun u action v hboth h => ⟨hboth.1.step h, step_leaseExpires hboth.1.jobs h hboth.2⟩
  rcases hrun.invariant hstep ⟨initial_processingInv, fun _ h => absurd h List.not_mem_nil⟩ with
    ⟨hinv, hlease⟩
  rcases stagedOf_isSome hinv.transfers job with ⟨staged, hstaged⟩
  exact ⟨staged, hstaged, finalizationEnds_iff hessence hinv.jobs.keyed.jobs hjob hstate
    (hlease job hjob) hstaged⟩

/-! ## A workspace with a zero byte -/

/-- Libraries that read every archive as a workspace of one document, which holds
`bytes`, with a constant digest. -/
def importExternals (bytes : Bytes) : Externals where
  sha256 _ := List.replicate 32 0
  openArchive _ := some
    [some ⟨manifestName, false, none, 1, [1], false⟩,
     some ⟨projectPrefix ++ "main.typ".toList, false, none, bytes.length, bytes, false⟩]
  parseManifest _ := some
    { schema := bundleSchema
      projectType := .typst
      entryFilePath := "main.typ".toList
      files := [{ path := "main.typ".toList
                  kind := "document".toList
                  mediaType := none
                  sizeBytes := bytes.length
                  sha256 := List.replicate 64 '0' }] }
  mimeEssence _ := none
  reportSchema _ := some "pptx-import-report/v1".toList
  validatePptx _ _ := false

def importWorker : AuthenticatedWorker where
  identity := ['w']
  operations := [(.pptxImportTypstV1, [['c']])]

def importCommand : ReserveJob :=
  { sampleCommand 1 ['k'] with
    operation := .pptxImportTypstV1
    projectId := none
    normalizedOptions := ⟨some ['p']⟩ }

/-- An import is admitted, prepared, claimed and delivered. -/
def importRun : List Action :=
  [.reserveBegin importCommand, .reserveNext, .reserveNext, .reserveNext, .reserveNext,
   .reserveNext, .storePreparedInput 1 50 { sampleInput with normalizedOptions := ⟨some ['p']⟩ },
   .setWorkers [⟨20, ['w'], .active, seconds 60⟩] [⟨20, .pptxImportTypstV1, ['c'], 2, true⟩],
   .tryClaim importWorker ⟨30, 31, 32, []⟩ [] 20 [⟨.pptxImportTypstV1, ['c'], 1⟩] (seconds 1),
   .createArtifactTransfer importWorker 33 [9] ⟨20, 31, "workspace".toList, workspaceBundleMediaType,
     "w.zip".toList, 1, List.replicate 32 0⟩ (seconds 2),
   .createArtifactTransfer importWorker 34 [9] ⟨20, 31, "report".toList, "application/json".toList,
     "r.json".toList, 2, List.replicate 32 0⟩ (seconds 2),
   .checkUpload 33 [9] [1] (seconds 3), .storeUpload 33 51,
   .checkUpload 34 [9] [2, 2] (seconds 3), .storeUpload 34 52,
   .completeClaim importWorker 20 31 [⟨33, "workspace".toList, 1, List.replicate 64 '0'⟩,
     ⟨34, "report".toList, 2, List.replicate 64 '0'⟩] (seconds 4)]

/-- The state of the import, with its job and what was staged for it. -/
def importedState (bytes : Bytes) : System :=
  (exec (step (importExternals bytes) .default) {} importRun).getD {}

def importedStaged (bytes : Bytes) : List StagedArtifact :=
  ((importedState bytes).db.jobs.head?.bind fun job => stagedOf (importedState bytes).db job).getD []

/-- The workspace the archive is accepted as. -/
def importedBundle (content : Text) : ValidatedWorkspaceBundle where
  entryFilePath := "main.typ".toList
  directories := []
  documents := [⟨"main.typ".toList, content⟩]
  assets := []

theorem importedState_run {bytes : Bytes}
    (h : (exec (step (importExternals bytes) .default) {} importRun).isSome = true) :
    Run (Step (importExternals bytes) .default) {} importRun (importedState bytes) :=
  exec_run (eq_some_getD h {})

/-- A document that is one zero byte: the set is accepted, and however often the job
is attempted it stays to be finalized. -/
theorem zeroByte_never_ends : ∃ job staged,
    Run (Step (importExternals [0]) .default) {} importRun (importedState [0])
    ∧ (importedState [0]).db.jobs = [job] ∧ job.state = .finalizing
    ∧ stagedOf (importedState [0]).db job = some staged
    ∧ validateFinalization (importExternals [0]) .default .granted (job.lease 60) staged
      = .ok (.workspace (importedBundle ['\x00']) ['p'])
    ∧ ¬ FinalizationEnds (importExternals [0]) .default (importedState [0]).db job staged := by
  have hjobs : ∃ job, (importedState [0]).db.jobs = [job] := by
    refine List.length_eq_one_iff.mp ?_
    decide +kernel
  rcases hjobs with ⟨job, hjobs⟩
  have hall : ∀ row ∈ (importedState [0]).db.jobs, row.state = .finalizing
      ∧ stagedOf (importedState [0]).db row = some (importedStaged [0])
      ∧ row.finalizationToken = none
      ∧ isArtifactSet .default (importExternals [0]).sha256 row.operation.contract
        (importedStaged [0]) = true
      ∧ validateContent (importExternals [0]) .default (row.lease 0) (importedStaged [0])
        = .ok (.workspace (importedBundle ['\x00']) ['p'])
      ∧ validateFinalization (importExternals [0]) .default .granted (row.lease 60)
        (importedStaged [0]) = .ok (.workspace (importedBundle ['\x00']) ['p']) := by
    decide +kernel
  have hjob : job ∈ (importedState [0]).db.jobs := by
    rw [hjobs]
    exact List.mem_cons_self
  rcases hall job hjob with ⟨hstate, hstaged, htoken, hset, hvalid, hvalidated⟩
  refine ⟨job, importedStaged [0], importedState_run (by decide +kernel), hjobs, hstate, hstaged,
    hvalidated, ?_⟩
  have hlease : LeaseExpires job := fun h => absurd h (by simp [htoken])
  have hkeys : ((importedState [0]).db.jobs.map JobRow.id).Nodup := by
    rw [hjobs]
    exact List.nodup_singleton _
  rw [finalizationEnds_iff (fun _ _ h => absurd h (by simp [importExternals])) hkeys hjob hstate
    hlease hstaged, acceptsZeroByte_iff hset hvalid]
  exact fun h => h ⟨_, List.mem_cons_self, by decide⟩

/-- The same import with a letter in its document is finalized. -/
theorem letter_ends : ∃ job ∈ (importedState [65]).db.jobs, job.state = .finalizing
    ∧ ∃ staged, stagedOf (importedState [65]).db job = some staged
      ∧ FinalizationEnds (importExternals [65]) .default (importedState [65]).db job staged := by
  have hjobs : ∃ job, (importedState [65]).db.jobs = [job] := by
    refine List.length_eq_one_iff.mp ?_
    decide +kernel
  rcases hjobs with ⟨job, hjobs⟩
  have hall : ∀ row ∈ (importedState [65]).db.jobs, row.state = .finalizing
      ∧ stagedOf (importedState [65]).db row = some (importedStaged [65])
      ∧ isArtifactSet .default (importExternals [65]).sha256 row.operation.contract
        (importedStaged [65]) = true
      ∧ validateContent (importExternals [65]) .default (row.lease 0) (importedStaged [65])
        = .ok (.workspace (importedBundle ['A']) ['p']) := by
    decide +kernel
  have hjob : job ∈ (importedState [65]).db.jobs := by
    rw [hjobs]
    exact List.mem_cons_self
  rcases hall job hjob with ⟨hstate, hstaged, hset, hvalid⟩
  rcases finalization_ends_iff (fun _ _ h => absurd h (by simp [importExternals]))
    (importedState_run (by decide +kernel)) hjob hstate with ⟨staged, hsame, hiff⟩
  refine ⟨job, hjob, hstate, staged, hsame, hiff.mpr ?_⟩
  rw [hstaged, Option.some.injEq] at hsame
  rw [← hsame, acceptsZeroByte_iff hset hvalid]
  rintro ⟨document, hdocument, hnul⟩
  rw [List.mem_singleton.mp hdocument] at hnul
  exact absurd hnul (by decide)

end Toss.Processing
