import Toss.Foundation.Fallible
import Toss.Processing.Results
import Toss.Processing.Transfers

/-!
# The finalizers under way

What every finalizer between two of its statements can rely on: its result came
from its job's transfers and was validated, the project it is about to make is
its own, and once it holds its job's row it owns the job.

* `StageEntry` — how a finalizer comes to a stage;
* `step_finalizers` — what a step does to the finalizers;
* `FinalizerInv` — the invariant, and `step_finalizerInv`.
-/

namespace Toss.Processing

open Toss.Foundation

variable {externals : Externals} {config : ProcessingConfig}

/-- The result that a finalizer has loaded. -/
def FinalizerStage.staged : FinalizerStage → List StagedArtifact
  | loaded _ staged => staged
  | validated _ staged _ => staged
  | locked _ staged _ _ => staged
  | written publication => publication.staged
  | leased _ | rejecting .. => []

/-- The project of a stage has an identifier that is its own. -/
def IsFreshGraph (s : System) (graph : Option ProjectGraph) : Prop :=
  ∀ g ∈ graph, s.isFreshProject g.projectId = true

/-- The assets of a project's graph belong to the project. -/
def OwnsAssets (graph : Option ProjectGraph) : Prop :=
  ∀ g ∈ graph, ∀ asset ∈ g.assets, asset.projectId = g.projectId

/-- How a finalizer comes to a stage. -/
inductive StageEntry (config : ProcessingConfig) (s : System) (finalizer : Nat) :
    FinalizerStage → Prop
  | leased {job : JobRow} (token : Uuid) (hjob : job ∈ s.db.jobs)
      (hfinalizing : job.state = .finalizing) (htoken : s.isFreshToken token = true) :
      StageEntry config s finalizer (.leased (job.lease token))
  | loaded {lease : FinalizationLease} {staged : List StagedArtifact}
      (hat : s.finalizer? finalizer = some (.leased lease))
      (hloaded : loadStagedArtifacts s.db lease = some staged) :
      StageEntry config s finalizer (.loaded lease staged)
  | rejecting {lease : FinalizationLease} {staged : List StagedArtifact}
      (failure : ValidationFailure) (hat : s.finalizer? finalizer = some (.loaded lease staged)) :
      StageEntry config s finalizer (.rejecting lease failure)
  | validated {lease : FinalizationLease} {staged : List StagedArtifact}
      (graph : Option ProjectGraph) (hat : s.finalizer? finalizer = some (.loaded lease staged))
      (hroles : (staged.map StagedArtifact.role).Nodup) (hgraph : IsFreshGraph s graph)
      (hassets : OwnsAssets graph) : StageEntry config s finalizer (.validated lease staged graph)
  | locked {lease : FinalizationLease} {staged : List StagedArtifact}
      {graph : Option ProjectGraph} (now : Timestamp)
      (hat : s.finalizer? finalizer = some (.validated lease staged graph))
      (hlock : lockFinalization s.db lease now = true)
      (hfree : ∀ entry ∈ s.finalizers, entry.2.holdsRow = true →
        entry.2.lease.jobId ≠ lease.jobId) :
      StageEntry config s finalizer (.locked lease staged graph now)
  | written {lease : FinalizationLease} {staged : List StagedArtifact}
      {graph : Option ProjectGraph} {now : Timestamp} (artifactIds : List Uuid)
      (hat : s.finalizer? finalizer = some (.locked lease staged graph now))
      (hlength : artifactIds.length = staged.length) :
      StageEntry config s finalizer (.written ⟨lease, staged, graph, artifactIds, now⟩)

/-- The rows that the finalizers hold are as they were. -/
def KeepsRows (finalizers : List (Nat × FinalizerStage)) (db db' : Database) : Prop :=
  ∀ entry ∈ finalizers, entry.2.holdsRow = true →
    db'.job? entry.2.lease.jobId = db.job? entry.2.lease.jobId

/-- The step is not one that commits a publication. -/
def IsNoCommit (s : System) (action : Action) (t : System) : Prop :=
  t.db = s.db ∨ ∀ finalizer, action ≠ .commitPublication finalizer

/-- What a step does to the finalizers and the publications. -/
inductive FinalizerMove (config : ProcessingConfig) (s : System) (action : Action) (t : System) :
    Prop
  | kept (hsub : t.finalizers.Sublist s.finalizers) (hpublished : t.published = s.published)
      (hrows : KeepsRows t.finalizers s.db t.db) (hother : IsNoCommit s action t)
  | entered (finalizer : Nat) (stage : FinalizerStage) (hentry : StageEntry config s finalizer stage)
      (hfinalizers : t.finalizers
        = (finalizer, stage) :: s.finalizers.filter fun entry => entry.1 ≠ finalizer)
      (hpublished : t.published = s.published)
      (hrows : KeepsRows s.finalizers s.db t.db) (hother : IsNoCommit s action t)
      (hdb : stage.holdsRow = true → t.db = s.db)
  | published (finalizer : Nat) (publication : Publication) {updated : Bool}
      (haction : action = .commitPublication finalizer)
      (hat : s.finalizer? finalizer = some (.written publication))
      (hpublish : publish s.db publication = some (t.db, updated))
      (hfinalizers : t.finalizers = s.finalizers.filter fun entry => entry.1 ≠ finalizer)
      (hpublished : t.published = s.published ++ [publication])
      (hrows : KeepsRows t.finalizers s.db t.db)

variable {db : Database}

theorem keepsHeld_rows {s : System} (h : s.keepsHeld db = true) :
    KeepsRows s.finalizers s.db db := by
  intro entry hentry hholds
  have hrows := List.all_eq_true.mp (Bool.and_eq_true_iff.mp h).2 entry hentry
  simpa [hholds] using hrows

variable {lease : FinalizationLease} {action : Action} {s t : System}

variable {staged : List StagedArtifact} {stage : FinalizerStage} {finalizer : Nat}

theorem validateFinalization_roles {access : AccessCheck} {validated : ValidatedFinalization}
    (h : validateFinalization externals config access lease staged = .ok validated) :
    (staged.map StagedArtifact.role).Nodup := by
  unfold validateFinalization at h
  split at h
  · simp at h
  split at h
  · simp at h
  split at h
  · simp at h
  rename_i hset
  have hset : isArtifactSet config externals.sha256 lease.operation.contract staged = true := by
    simpa using hset
  simp only [isArtifactSet, Bool.and_eq_true, decide_eq_true_eq] at hset
  exact hset.1.2

theorem stageAsset_projectId {bundle : ValidatedWorkspaceBundle}
    {projectName : Text} {projectId : Uuid} {hasStorage : Bool} {assetIds : List Uuid}
    {asset : ResultAssetRow}
    (h : asset ∈ (projectGraph lease bundle projectName projectId hasStorage assetIds).assets) :
    asset.projectId = projectId := by
  simp only [projectGraph, ← List.map_uncurry_zip_eq_zipWith, List.mem_map] at h
  rcases h with ⟨pair, _, rfl⟩
  rfl

namespace FinalizerMove

/-- A transaction that commits leaves the rows that finalizers hold. -/
theorem of_committed {before : System} (h : before.committed db = some t) (hdb : before.db = s.db)
    (hsub : before.finalizers.Sublist s.finalizers) (hpublished : before.published = s.published)
    (hother : ∀ finalizer, action ≠ .commitPublication finalizer) :
    FinalizerMove config s action t := by
  rcases committed_some h with ⟨hheld, rfl⟩
  have hrows := keepsHeld_rows hheld
  rw [hdb] at hrows
  exact .kept hsub hpublished hrows (.inr hother)

/-- Without a change of the jobs' rows the finalizers keep what they hold. -/
theorem of_jobs {next : System} (h : some next = some t) (hjobs : next.db.jobs = s.db.jobs)
    (hsub : next.finalizers.Sublist s.finalizers) (hpublished : next.published = s.published)
    (hother : IsNoCommit s action next) : FinalizerMove config s action t := by
  rcases Option.some.inj h with rfl
  refine .kept hsub hpublished ?_ hother
  intro entry _ _
  rw [Database.job?, hjobs]
  rfl

theorem dropped (h : some (s.dropFinalizer finalizer) = some t) : FinalizerMove config s action t :=
  of_jobs h rfl List.filter_sublist rfl (.inl rfl)

theorem of_entry (hentry : StageEntry config s finalizer stage)
    (h : some (s.setFinalizer finalizer stage) = some t) : FinalizerMove config s action t := by
  cases h
  exact .entered finalizer stage hentry rfl rfl (fun _ _ _ => rfl) (.inl rfl) fun _ => rfl

/-- What the validation of a loaded result leads to. -/
theorem of_validated {access : AccessCheck} {projectId : Uuid} {hasStorage : Bool}
    {assetIds : List Uuid} (hat : s.finalizer? finalizer = some (.loaded lease staged))
    (hfresh : s.isFreshProject projectId = true)
    (h : validated externals config s finalizer access projectId hasStorage assetIds lease staged
      = some t) : FinalizerMove config s action t := by
  unfold validated at h
  split at h
  · -- the operation makes no project
    rename_i hvalidated
    refine of_entry (.validated none hat (validateFinalization_roles hvalidated) ?_ ?_) h
    · intro graph hgraph
      simp at hgraph
    · intro graph hgraph
      simp at hgraph
  · -- the project is made under the identifier that was drawn for it
    rename_i bundle projectName hvalidated
    split at h
    · refine of_entry (.validated _ hat (validateFinalization_roles hvalidated) ?_ ?_) h
      · intro graph hgraph
        cases hgraph
        exact hfresh
      · intro graph hgraph asset hasset
        rw [← Option.some.inj hgraph] at hasset ⊢
        exact stageAsset_projectId hasset
    · simp at h
  · exact of_entry (.rejecting _ hat) h
  · exact dropped h

end FinalizerMove

open FinalizerMove in
/-- What a step does to the finalizers. -/
theorem step_finalizers (h : Step externals config s action t) :
    FinalizerMove config s action t := by
  -- a finalizer's own steps enter a stage, publish or drop it; the others leave the finalizers
  cases action with
  | reserveBegin command =>
    simp only [Step, step] at h
    split at h
    · simp at h
    · exact of_jobs h rfl (.refl _) rfl (.inl rfl)
  | reserveNext =>
    simp only [Step, step, reserveNext] at h
    split at h
    · simp at h
    split at h
    · exact of_jobs h rfl (.refl _) rfl (.inl rfl)
    split at h
    · rename_i hheld
      cases h
      exact .kept (.refl _) rfl (keepsHeld_rows hheld) (.inr fun _ => by simp)
    · simp at h
  | reserveAbort =>
    rcases Option.map_eq_some_iff.mp h with ⟨admission, _, heq⟩
    exact of_jobs (congrArg some heq) rfl (.refl _) rfl (.inl rfl)
  | pinProjectAssets jobId objectKeys =>
    rcases Option.bind_eq_some_iff.mp h with ⟨db, _, hdb⟩
    exact of_committed hdb rfl (.refl _) rfl (by simp)
  | setWorkers sessions processors =>
    simp only [Step, step] at h
    exact of_jobs h rfl (.refl _) rfl (.inr (by simp))
  | checkUpload transferId token content now =>
    simp only [Step, step] at h
    split at h
    · simp at h
    · split at h <;> exact of_jobs h rfl (.refl _) rfl (.inl rfl)
  | storeUpload transferId blobId =>
    simp only [Step, step, finishUpload] at h
    split at h
    · simp at h
    · exact of_committed h rfl (.refl _) rfl (by simp)
  | abortUpload transferId =>
    simp only [Step, step] at h
    exact of_jobs h rfl (.refl _) rfl (.inl rfl)
  | acquireFinalizationLease finalizer jobId token now =>
    simp only [Step, step] at h
    split at h
    · simp at h
    rename_i hguard
    rcases Option.bind_eq_some_iff.mp h with ⟨acquired, hacquired, hrest⟩
    rcases Option.map_eq_some_iff.mp hrest with ⟨s', hdb, rfl⟩
    rcases acquireFinalizationLease_cases hacquired with ⟨job, hmem, _, hawaits, hlease, _⟩
    have hfinalizing : job.state = .finalizing := by
      simp only [JobRow.awaitsFinalizer, Bool.and_eq_true, decide_eq_true_eq] at hawaits
      exact hawaits.1
    have htoken : s.isFreshToken token = true := by simpa using (not_or.mp hguard).2
    rcases committed_some hdb with ⟨hheld, heq⟩
    rw [hlease, heq]
    refine .entered finalizer _ (.leased token hmem hfinalizing htoken) rfl rfl
      (keepsHeld_rows hheld) (.inr (by simp)) ?_
    intro hholds
    simp [FinalizerStage.holdsRow] at hholds
  | loadStagedArtifacts finalizer =>
    simp only [Step, step] at h
    split at h
    · rename_i lease hat
      split at h
      · rename_i staged hloaded
        exact of_entry (.loaded hat hloaded) h
      · exact dropped h
    · simp at h
  | validateFinalization finalizer access projectId hasStorage assetIds =>
    simp only [Step, step] at h
    split at h
    · rename_i lease staged hat
      split at h
      · rename_i hfresh
        exact of_validated hat hfresh h
      · simp at h
    · simp at h
  | rejectArtifacts finalizer now =>
    simp only [Step, step] at h
    split at h
    · exact of_committed h rfl List.filter_sublist rfl (by simp)
    · simp at h
  | lockFinalization finalizer now =>
    simp only [Step, step] at h
    split at h
    · rename_i lease staged graph hat
      split at h
      · simp at h
      rename_i hfree
      split at h
      · rename_i hlock
        refine of_entry (.locked now hat hlock ?_) h
        intro entry hentry hholds hsame
        exact hfree (List.any_eq_true.mpr ⟨entry, hentry, by simp [hholds, hsame]⟩)
      · exact dropped h
    · simp at h
  | writePublication finalizer artifactIds =>
    simp only [Step, step] at h
    split at h
    · rename_i lease staged graph now hat
      split at h
      · simp at h
      rename_i hlength
      split at h
      · exact of_entry (.written artifactIds hat (not_not.mp hlength)) h
      · exact dropped h
    · simp at h
  | commitPublication finalizer =>
    simp only [Step, step] at h
    split at h
    · rename_i publication hat
      split at h
      · rename_i db updated hpublish
        rcases committed_some h with ⟨hheld, ht⟩
        have hrows := keepsHeld_rows hheld
        rw [ht]
        exact .published finalizer publication rfl hat hpublish rfl rfl hrows
      · exact dropped h
    · simp at h
  | stopFinalizer finalizer => exact dropped h
  | _ =>
    -- one transaction each
    simp only [Step, step] at h
    exact of_committed h rfl (.refl _) rfl (by simp)

/-! ## The invariant -/

/-- The transfers that a finalizer's result was read from are transfers of its
job. -/
def HasStaged (db : Database) (lease : FinalizationLease) (staged : List StagedArtifact) : Prop :=
  ∀ artifact ∈ staged, ∀ transferId ∈ artifact.transferId,
    ∃ transfer ∈ db.transfers, transfer.id = transferId ∧ transfer.jobId = lease.jobId

/-- The project a finalizer is about to make is not there, and never was. -/
def IsUnpublished (s : System) (graph : Option ProjectGraph) : Prop :=
  ∀ g ∈ graph, (∀ project ∈ s.db.projects, project.id ≠ g.projectId)
    ∧ ∀ publication ∈ s.published, ∀ other ∈ publication.graph, other.projectId ≠ g.projectId

/-- The result of a stage has been validated. -/
def FinalizerStage.isValidated : FinalizerStage → Bool
  | validated .. | locked .. | written _ => true
  | leased _ | loaded .. | rejecting .. => false

/-- What a stage says of itself: each role once, an identifier for each artifact,
and assets of its own project. -/
structure FinalizerStage.Checked (stage : FinalizerStage) : Prop where
  roles : stage.isValidated = true → (stage.staged.map StagedArtifact.role).Nodup
  lengths : ∀ publication, stage = .written publication →
    publication.artifactIds.length = publication.staged.length
  assets : OwnsAssets stage.graph

/-- The finalizers under way. -/
structure FinalizerInv (s : System) : Prop where
  keys : (s.finalizers.map Prod.fst).Nodup
  held : ∀ entry ∈ s.finalizers, entry.2.holdsRow = true →
    ∃ job, s.db.job? entry.2.lease.jobId = some job ∧ entry.2.lease.owns job = true
  checked : ∀ entry ∈ s.finalizers, entry.2.Checked
  settled : ∀ entry ∈ s.finalizers, Settled s entry.2.lease.jobId
  staged : ∀ entry ∈ s.finalizers, Gone s entry.2.lease.jobId
    ∨ HasStaged s.db entry.2.lease entry.2.staged
  unpublished : ∀ entry ∈ s.finalizers, IsUnpublished s entry.2.graph
  distinct : ∀ entry ∈ s.finalizers, ∀ other ∈ s.finalizers, ∀ graph ∈ entry.2.graph,
    ∀ graph' ∈ other.2.graph, graph.projectId = graph'.projectId → entry.1 = other.1

theorem finalizer?_mem {s : System}
    (h : s.finalizer? finalizer = some stage) : (finalizer, stage) ∈ s.finalizers := by
  rcases Option.map_eq_some_iff.mp h with ⟨entry, hfound, hstage⟩
  have hmem := List.mem_of_find?_eq_some hfound
  have hkey : entry.1 = finalizer := by simpa using List.find?_some hfound
  rw [← hkey, ← hstage]
  exact hmem

/-- What is loaded of transfers are transfers of the job. -/
theorem loadStagedArtifacts_hasStaged (hkeys : WellKeyed db) (hinv : TransferInv db)
    (h : loadStagedArtifacts db lease = some staged) : HasStaged db lease staged := by
  intro artifact hartifact transferId hid
  unfold loadStagedArtifacts at h
  split at h
  · rw [← Option.some.inj h] at hartifact
    simp at hartifact
  rename_i job hjob
  split at h
  · rw [← Option.some.inj h] at hartifact
    simp at hartifact
  split at h
  · split at h
    · -- a result that is taken over names no transfer
      rw [← Option.some.inj h, sortStaged, (List.perm_insertionSort _ _).mem_iff] at hartifact
      rcases List.mem_filterMap.mp hartifact with ⟨row, _, hrow⟩
      rcases Option.map_eq_some_iff.mp hrow with ⟨blob, _, rfl⟩
      simp [ArtifactRow.staged] at hid
    · rw [← Option.some.inj h] at hartifact
      simp at hartifact
  · rcases Option.map_eq_some_iff.mp h with ⟨loaded, hloaded, rfl⟩
    rw [sortStaged, (List.perm_insertionSort _ _).mem_iff] at hartifact
    rcases (mem_of_mapM hloaded).mp hartifact with ⟨⟨transfer, blob⟩, hentry, hstaged⟩
    rcases List.mem_flatMap.mp hentry with ⟨attempt, hattempt, hpair⟩
    rcases List.mem_filterMap.mp hpair with ⟨row, hrow, hblob⟩
    rcases Option.map_eq_some_iff.mp hblob with ⟨_, _, heq⟩
    have hrow := List.mem_filter.mp hrow
    have hattempt := List.mem_filter.mp hattempt
    simp only [AttemptRow.isDeliveredOf, TransferRow.isStagedFor, Bool.and_eq_true,
      decide_eq_true_eq] at hrow hattempt
    simp only [TransferRow.staged, Option.bind_eq_bind, Option.bind_eq_some_iff, Option.pure_def,
      Option.some.injEq] at hstaged
    rcases hstaged with ⟨_, _, _, _, _, _, hartifactEq⟩
    -- the transfer belongs to the delivered attempt, and that to the job
    have hsame : row = transfer := congrArg Prod.fst heq
    refine ⟨row, hrow.1, ?_, ?_⟩
    · rw [← hartifactEq] at hid
      rw [hsame]
      exact Option.some.inj hid
    · rcases hinv.owner row hrow.1 with ⟨owner, howner, hownerId, _, hownerJob⟩
      rw [← hownerJob, hkeys.attempt_eq hattempt.1 howner (hownerId.trans hrow.2.1.1),
        hattempt.2.1.1]
      exact (job?_some hjob).2

/-! ## Steps -/

/-- A result that was read from a job's transfers stays so as long as the job. -/
theorem hasStaged_step (hinv : Inv s.db) (htransfers : TransferInv s.db)
    (h : Step externals config s action t) (hsettled : Settled s lease.jobId)
    (hstaged : Gone s lease.jobId ∨ HasStaged s.db lease staged) :
    Gone t lease.jobId ∨ HasStaged t.db lease staged := by
  rcases hstaged with hgone | hstaged
  · exact .inl (hgone.step hinv h)
  by_cases hthere : ∃ job ∈ t.db.jobs, job.id = lease.jobId
  · refine .inr ?_
    intro artifact hartifact transferId hid
    rcases hstaged artifact hartifact transferId hid with ⟨transfer, htransfer, hsame, howner⟩
    rcases (step_transfers hinv htransfers h).2 transfer htransfer with
      ⟨transfer', htransfer', hkept⟩ | habsent
    · exact ⟨transfer', htransfer', by rw [hkept.id, hsame], by rw [hkept.jobId, howner]⟩
    · rcases hthere with ⟨job, hjob, hjobId⟩
      exact absurd (hjobId.trans howner.symm) (habsent job hjob)
  · refine .inl ⟨(hsettled.step hinv h).1, ?_⟩
    intro job hjob hid
    exact hthere ⟨job, hjob, hid⟩

variable {graph : Option ProjectGraph}

theorem isUnpublished_step (hinv : Inv s.db) (h : Step externals config s action t)
    (hother : IsNoCommit s action t) (hpublished : t.published = s.published)
    (hgraph : IsUnpublished s graph) : IsUnpublished t graph := by
  rcases step_shrunk hinv h hother with ⟨keepJob, keepProject, hshrunk⟩
  intro g hg
  refine ⟨?_, ?_⟩
  · intro project hproject
    rw [hshrunk.projects] at hproject
    exact (hgraph g hg).1 project (List.mem_filter.mp hproject).1
  · rw [hpublished]
    exact (hgraph g hg).2

theorem isUnpublished_of_fresh {s : System} (h : IsFreshGraph s graph) : IsUnpublished s graph := by
  intro g hg
  have hfresh := h g hg
  simp only [System.isFreshProject, Bool.and_eq_true, List.all_eq_true, decide_eq_true_eq] at hfresh
  exact ⟨hfresh.1.1, hfresh.2⟩

/-- The projects after a publication: its own, and those before. -/
theorem publish_projects {db' : Database} {publication : Publication} {updated : Bool}
    (h : publish db publication = some (db', updated)) {project : ResultProjectRow}
    (hproject : project ∈ db'.projects) :
    project ∈ db.projects ∨ ∃ graph ∈ publication.graph, project.id = graph.projectId := by
  rcases publish_cases h with ⟨_, provisioned, hprovisioned, rfl⟩
  rcases publishStagedArtifacts_frame provisioned publication.lease.jobId publication.staged
    publication.artifactIds with ⟨artifacts, transfers, heq⟩
  have hproject : project ∈ provisioned.projects := by
    rw [heq] at hproject
    exact hproject
  rcases provision_cases hprovisioned with ⟨_, rfl⟩ | ⟨graph, hgraph, _, rfl⟩
  · exact .inl hproject
  · rcases List.mem_append.mp hproject with hold | hnew
    · exact .inl hold
    · exact .inr ⟨graph, hgraph, by rw [List.mem_singleton.mp hnew]⟩

/-- What an earlier stage of a finalizer hands to the next one. -/
structure StageKept (s t : System) (finalizer : Nat) (stage : FinalizerStage) : Prop where
  settled : Settled t stage.lease.jobId
  staged : Gone t stage.lease.jobId ∨ HasStaged t.db stage.lease stage.staged
  unpublished : IsUnpublished t stage.graph
  distinct : ∀ other ∈ s.finalizers, ∀ graph ∈ stage.graph, ∀ graph' ∈ other.2.graph,
    graph.projectId = graph'.projectId → other.1 = finalizer
  checked : stage.Checked

/-- A finalizer's new stage meets the invariant. -/
theorem StageEntry.kept
    (hentry : StageEntry config s finalizer stage) (hfin : FinalizerInv s) (hinv : Inv s.db)
    (hids : IdsInv s) (htransfers : TransferInv s.db) (h : Step externals config s action t)
    (hother : IsNoCommit s action t) (hpublished : t.published = s.published) :
    StageKept s t finalizer stage := by
  -- what an entry of the finalizer itself hands on
  have hold : ∀ {old : FinalizerStage}, s.finalizer? finalizer = some old →
      Settled t old.lease.jobId
        ∧ (Gone t old.lease.jobId ∨ HasStaged t.db old.lease old.staged)
        ∧ IsUnpublished t old.graph := by
    intro old hat
    have hmem := finalizer?_mem hat
    exact ⟨((hfin.settled _ hmem).step hinv h).1,
      hasStaged_step hinv htransfers h (hfin.settled _ hmem) (hfin.staged _ hmem),
      isUnpublished_step hinv h hother hpublished (hfin.unpublished _ hmem)⟩
  -- a validated result is handed on as it is
  have hcarried : ∀ {old : FinalizerStage}, s.finalizer? finalizer = some old →
      old.isValidated = true → old.lease = stage.lease → old.staged = stage.staged →
      old.graph = stage.graph → (∀ publication, stage = .written publication →
        publication.artifactIds.length = publication.staged.length) →
      StageKept s t finalizer stage := by
    intro old hat hvalidated hlease hstaged hgraph hlengths
    have hmem := finalizer?_mem hat
    have hchecked := hfin.checked _ hmem
    have hkept := hold hat
    rw [hlease, hstaged, hgraph] at hkept
    refine ⟨hkept.1, hkept.2.1, hkept.2.2, ?_,
      ⟨fun _ => hstaged ▸ hchecked.roles hvalidated, hlengths, hgraph ▸ hchecked.assets⟩⟩
    intro other hother g hg g' hg' hsame
    exact (hfin.distinct _ hmem other hother g (hgraph ▸ hg) g' hg' hsame).symm
  have hnothing : ∀ {lease : FinalizationLease}, HasStaged t.db lease [] := by
    intro lease artifact hartifact
    simp at hartifact
  have hunchecked : ∀ old : FinalizerStage, old.graph = none → old.isValidated = false →
      (∀ publication, old ≠ .written publication) → old.Checked ∧ ∀ other ∈ s.finalizers,
        ∀ graph ∈ old.graph, ∀ graph' ∈ other.2.graph, graph.projectId = graph'.projectId →
          other.1 = finalizer := by
    intro old hgraph hvalidated hwritten
    refine ⟨⟨fun h => absurd h (by simp [hvalidated]), fun publication heq => absurd heq (hwritten _),
      ?_⟩, ?_⟩
    · intro g hg
      simp [hgraph] at hg
    · intro other _ g hg
      simp [hgraph] at hg
  cases hentry with
  | @leased job token hjob hfinalizing htoken =>
    have hnone := hunchecked (.leased (job.lease token)) rfl rfl (by simp)
    refine ⟨((hids.settled hjob).step hinv h).1, .inr hnothing, ?_, hnone.2, hnone.1⟩
    intro g hg
    simp [FinalizerStage.graph] at hg
  | @loaded lease staged hat hloaded =>
    have hnone := hunchecked (.loaded lease staged) rfl rfl (by simp)
    refine ⟨(hold hat).1, ?_, (hold hat).2.2, hnone.2, hnone.1⟩
    exact hasStaged_step hinv htransfers h (hfin.settled _ (finalizer?_mem hat))
      (.inr (loadStagedArtifacts_hasStaged hinv.keyed htransfers hloaded))
  | @rejecting lease staged failure hat =>
    have hnone := hunchecked (.rejecting lease failure) rfl rfl (by simp)
    exact ⟨(hold hat).1, .inr hnothing, (hold hat).2.2, hnone.2, hnone.1⟩
  | @validated lease staged graph hat hroles hgraph hassets =>
    refine ⟨(hold hat).1, (hold hat).2.1, ?_, ?_, ⟨fun _ => hroles, ?_, hassets⟩⟩
    · exact isUnpublished_step hinv h hother hpublished (isUnpublished_of_fresh hgraph)
    · intro other hmem g hg g' hg' hsame
      have hfresh := hgraph g hg
      simp only [System.isFreshProject, Bool.and_eq_true, List.all_eq_true,
        decide_eq_true_eq] at hfresh
      exact absurd hsame.symm (hfresh.1.2 other hmem g' hg')
    · intro publication heq
      simp at heq
  | locked now hat hlock hfree => exact hcarried hat rfl rfl rfl rfl (by simp)
  | written artifactIds hat hlength =>
    refine hcarried hat rfl rfl rfl rfl fun publication heq => ?_
    rw [← FinalizerStage.written.inj heq]
    exact hlength

/-- A finalizer that comes to hold its job's row owns the job. -/
theorem StageEntry.held {s : System}
    (hentry : StageEntry config s finalizer stage) (hfin : FinalizerInv s) (hinv : Inv s.db)
    (hholds : stage.holdsRow = true) :
    ∃ job, s.db.job? stage.lease.jobId = some job ∧ stage.lease.owns job = true := by
  cases hentry with
  | leased | loaded | rejecting | validated => simp [FinalizerStage.holdsRow] at hholds
  | @locked lease staged graph now hat hlock hfree =>
    rcases List.any_eq_true.mp hlock with ⟨job, hjob, hcond⟩
    simp only [Bool.and_eq_true, decide_eq_true_eq] at hcond
    refine ⟨job, ?_, ?_⟩
    · exact find?_of_key hinv.keyed.jobs hjob hcond.1.1.1
    · simp [FinalizationLease.owns, FinalizerStage.lease, hcond.1]
  | written artifactIds hat hlength => exact hfin.held _ (finalizer?_mem hat) rfl

/-- A step that at most drops finalizers, and leaves the projects of the others unpublished. -/
theorem FinalizerInv.sublist (hfin : FinalizerInv s) (hinv : Inv s.db)
    (htransfers : TransferInv s.db) (h : Step externals config s action t)
    (hsub : t.finalizers.Sublist s.finalizers) (hrows : KeepsRows t.finalizers s.db t.db)
    (hunpublished : ∀ entry ∈ t.finalizers, IsUnpublished t entry.2.graph) : FinalizerInv t where
  keys := hfin.keys.sublist (hsub.map _)
  held entry hentry hholds := by
    rw [hrows entry hentry hholds]
    exact hfin.held entry (hsub.subset hentry) hholds
  checked entry hentry := hfin.checked entry (hsub.subset hentry)
  settled entry hentry := ((hfin.settled entry (hsub.subset hentry)).step hinv h).1
  staged entry hentry := hasStaged_step hinv htransfers h
    (hfin.settled entry (hsub.subset hentry)) (hfin.staged entry (hsub.subset hentry))
  unpublished := hunpublished
  distinct entry hentry other hmem :=
    hfin.distinct entry (hsub.subset hentry) other (hsub.subset hmem)

/-- A step keeps the invariant of finalizers. -/
theorem FinalizerInv.step (hfin : FinalizerInv s)
    (hinv : Inv s.db) (hids : IdsInv s) (htransfers : TransferInv s.db)
    (h : Step externals config s action t) : FinalizerInv t := by
  cases step_finalizers h with
  | kept hsub hpublished hrows hother =>
    refine hfin.sublist hinv htransfers h hsub hrows fun entry hentry => ?_
    exact isUnpublished_step hinv h hother hpublished (hfin.unpublished entry (hsub.subset hentry))
  | entered finalizer stage hentry hfinalizers hpublished hrows hother hdb =>
    have hkept := hentry.kept hfin hinv hids htransfers h hother hpublished
    have hcases : ∀ entry ∈ t.finalizers, entry = (finalizer, stage)
        ∨ (entry ∈ s.finalizers ∧ entry.1 ≠ finalizer) := by
      intro entry hmem
      rw [hfinalizers] at hmem
      rcases List.mem_cons.mp hmem with heq | hold
      · exact .inl heq
      · have hold := List.mem_filter.mp hold
        exact .inr ⟨hold.1, by simpa using hold.2⟩
    constructor
    · rw [hfinalizers, List.map_cons, List.nodup_cons]
      refine ⟨?_, hfin.keys.sublist (List.filter_sublist.map _)⟩
      intro hkey
      rcases List.mem_map.mp hkey with ⟨entry, hmem, heq⟩
      simp [heq] at hmem
    · intro entry hmem hholds
      rcases hcases entry hmem with rfl | ⟨hold, _⟩
      · rw [hdb hholds]
        exact hentry.held hfin hinv hholds
      · rw [hrows entry hold hholds]
        exact hfin.held entry hold hholds
    · intro entry hmem
      rcases hcases entry hmem with rfl | ⟨hold, _⟩
      · exact hkept.checked
      · exact hfin.checked entry hold
    · intro entry hmem
      rcases hcases entry hmem with rfl | ⟨hold, _⟩
      · exact hkept.settled
      · exact ((hfin.settled entry hold).step hinv h).1
    · intro entry hmem
      rcases hcases entry hmem with rfl | ⟨hold, _⟩
      · exact hkept.staged
      · exact hasStaged_step hinv htransfers h (hfin.settled entry hold) (hfin.staged entry hold)
    · intro entry hmem
      rcases hcases entry hmem with rfl | ⟨hold, _⟩
      · exact hkept.unpublished
      · exact isUnpublished_step hinv h hother hpublished (hfin.unpublished entry hold)
    · intro entry hmem other hothermem graph hgraph graph' hgraph' hsame
      rcases hcases entry hmem with rfl | ⟨hold, hne⟩
      · rcases hcases other hothermem with rfl | ⟨hold', _⟩
        · rfl
        · exact (hkept.distinct other hold' graph hgraph graph' hgraph' hsame).symm
      · rcases hcases other hothermem with rfl | ⟨hold', _⟩
        · exact hkept.distinct entry hold graph' hgraph' graph hgraph hsame.symm
        · exact hfin.distinct entry hold other hold' graph hgraph graph' hgraph' hsame
  | published finalizer publication haction hat hpublish hfinalizers hpublished hrows =>
    have hsub : t.finalizers.Sublist s.finalizers := by
      rw [hfinalizers]
      exact List.filter_sublist
    refine hfin.sublist hinv htransfers h hsub hrows fun entry hentry graph hgraph => ?_
    have hbefore := hsub.subset hentry
    have hne : entry.1 ≠ finalizer := by
      rw [hfinalizers] at hentry
      simpa using (List.mem_filter.mp hentry).2
    -- the project just published belongs to another finalizer
    have hown : ∀ g ∈ publication.graph, g.projectId ≠ graph.projectId := by
      intro g hg hsame
      exact hne (hfin.distinct entry hbefore _ (finalizer?_mem hat) graph hgraph g hg hsame.symm)
    refine ⟨?_, ?_⟩
    · intro project hproject
      rcases publish_projects hpublish hproject with hold | ⟨g, hg, hid⟩
      · exact (hfin.unpublished entry hbefore graph hgraph).1 project hold
      · rw [hid]
        exact hown g hg
    · intro other hmem g hg
      rw [hpublished] at hmem
      rcases List.mem_append.mp hmem with hold | hnew
      · exact (hfin.unpublished entry hbefore graph hgraph).2 other hold g hg
      · rw [List.mem_singleton.mp hnew] at hg
        exact hown g hg

theorem initial_finalizerInv : FinalizerInv {} where
  keys := List.nodup_nil
  held _ h := absurd h List.not_mem_nil
  checked _ h := absurd h List.not_mem_nil
  settled _ h := absurd h List.not_mem_nil
  staged _ h := absurd h List.not_mem_nil
  unpublished _ h := absurd h List.not_mem_nil
  distinct _ h := absurd h List.not_mem_nil

/-- The invariants of processing together. -/
structure ProcessingInv (s : System) : Prop where
  jobs : Inv s.db
  ids : IdsInv s
  transfers : TransferInv s.db
  finalizers : FinalizerInv s

theorem ProcessingInv.step (hinv : ProcessingInv s)
    (h : Step externals config s action t) : ProcessingInv t where
  jobs := step_inv hinv.jobs h
  ids := hinv.ids.step hinv.jobs h
  transfers := (step_transfers hinv.jobs hinv.transfers h).1
  finalizers := hinv.finalizers.step hinv.jobs hinv.ids hinv.transfers h

theorem initial_processingInv : ProcessingInv {} :=
  ⟨initial_inv, initial_idsInv, initial_transferInv, initial_finalizerInv⟩

theorem run_processingInv {actions : List Action}
    (hrun : Run (Step externals config) s actions t) (hinv : ProcessingInv s) : ProcessingInv t :=
  hrun.invariant (fun _ _ _ hinv h => ProcessingInv.step hinv h) hinv

end Toss.Processing
