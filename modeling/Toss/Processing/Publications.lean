import Toss.Processing.Finalizers

/-!
# Publication is exactly-once

The results in the tables are those of the publications that were committed, one
for each job that succeeded, and no publication is committed for a job twice.

* `Publication.artifacts`, `ProjectGraph.rows` — the rows a publication writes;
* `Publication.IsResult` — the job of a publication has its rows, and no others;
* `PublicationInv` — the invariant;
* `finalized_once` — over whole runs, with what each step can write.
-/

namespace Toss.Processing

open Toss.Foundation

variable {externals : Externals} {config : ProcessingConfig}

/-- The artifacts that a publication writes. -/
def Publication.artifacts (publication : Publication) : List ArtifactRow :=
  publication.staged.zipWith (fun artifact id => artifact.row publication.lease.jobId id)
    publication.artifactIds

/-- The project of a publication, if its result became one. -/
def Publication.projectId (publication : Publication) : Option Uuid :=
  publication.graph.map ProjectGraph.projectId

def Database.artifactsOf (db : Database) (jobId : Uuid) : List ArtifactRow :=
  db.artifacts.filter fun artifact => artifact.jobId = jobId

def Database.hasProject (db : Database) (projectId : Uuid) : Bool :=
  db.projects.any fun project => project.id = projectId

/-- The rows of one project. -/
structure ProjectRows where
  projects : List ResultProjectRow
  directories : List ResultDirectoryRow
  documents : List ResultDocumentRow
  assets : List ResultAssetRow
deriving DecidableEq

def ProjectRows.empty : ProjectRows := ⟨[], [], [], []⟩

def Database.rowsOf (db : Database) (projectId : Uuid) : ProjectRows where
  projects := db.projects.filter fun project => project.id = projectId
  directories := db.directories.filter fun row => row.projectId = projectId
  documents := db.documents.filter fun row => row.projectId = projectId
  assets := db.assets.filter fun row => row.projectId = projectId

/-- The rows that a project's graph is inserted as. -/
def ProjectGraph.rows (graph : ProjectGraph) : ProjectRows where
  projects := [⟨graph.projectId, graph.ownerUserId, graph.name, graph.entryFilePath⟩]
  directories := graph.directories.map (ResultDirectoryRow.mk graph.projectId)
  documents := graph.documents.map fun document =>
    ⟨graph.projectId, document.path, document.content⟩
  assets := graph.assets

/-- The job of a publication: it succeeded with the publication's artifacts and
project, or was deleted since with its artifacts. -/
def Publication.IsResult (s : System) (publication : Publication) : Prop :=
  (Gone s publication.lease.jobId ∧ s.db.artifactsOf publication.lease.jobId = []) ∨
  ∃ job ∈ s.db.jobs, job.id = publication.lease.jobId ∧ job.state = .succeeded
    ∧ s.db.artifactsOf publication.lease.jobId = publication.artifacts
    ∧ job.resultProjectId = publication.projectId.filter s.db.hasProject

/-- The results in the tables are those of the publications. -/
structure PublicationInv (s : System) : Prop where
  once : (s.published.map fun publication => publication.lease.jobId).Nodup
  results : ∀ publication ∈ s.published, publication.IsResult s
  succeeded : ∀ job ∈ s.db.jobs, job.state = .succeeded →
    ∃ publication ∈ s.published, publication.lease.jobId = job.id
  unfinished : ∀ job ∈ s.db.jobs, job.state ≠ .succeeded → job.resultProjectId = none
  artifacts : ∀ artifact ∈ s.db.artifacts,
    ∃ publication ∈ s.published, artifact.jobId = publication.lease.jobId
  distinct : (s.published.filterMap Publication.projectId).Nodup
  projects : ∀ publication ∈ s.published, ∀ graph ∈ publication.graph,
    s.db.rowsOf graph.projectId = graph.rows ∨ s.db.rowsOf graph.projectId = .empty
  others : ∀ projectId, s.db.rowsOf projectId ≠ .empty →
    ∃ publication ∈ s.published, publication.projectId = some projectId

/-! ## What a publication writes -/

/-- The artifacts of a result whose roles are distinct are all inserted. -/
theorem publishStagedArtifacts_artifacts (db : Database) (jobId : Uuid)
    {staged : List StagedArtifact} {ids : List Uuid} (hroles : (staged.map StagedArtifact.role).Nodup)
    (hlength : ids.length = staged.length)
    (hnew : ∀ row ∈ db.artifacts, row.jobId = jobId →
      row.role ∉ staged.map StagedArtifact.role) :
    (publishStagedArtifacts db jobId staged ids).artifacts
      = db.artifacts ++ staged.zipWith (fun artifact id => artifact.row jobId id) ids := by
  unfold publishStagedArtifacts
  induction staged generalizing ids db with
  | nil => simp
  | cons artifact staged ih =>
    rcases ids with _ | ⟨id, ids⟩
    · simp at hlength
    rw [List.map_cons, List.nodup_cons] at hroles
    have hone : (publishArtifact jobId db (artifact, id)).artifacts
        = db.artifacts ++ [artifact.row jobId id] := by
      have hfree : (db.artifacts.any fun row => row.jobId = jobId && row.role = artifact.role)
          = false := by
        refine List.any_eq_false.mpr fun row hrow hcond => ?_
        simp only [Bool.and_eq_true, decide_eq_true_eq] at hcond
        exact hnew row hrow hcond.1 (by rw [hcond.2]; exact List.mem_cons_self)
      unfold publishArtifact
      rw [if_neg (by simp [hfree])]
      split <;> rfl
    rw [List.zip_cons_cons, List.foldl_cons, ih _ hroles.2 (by simpa using hlength), hone,
      List.zipWith_cons_cons, List.append_assoc]
    · rfl
    · intro row hrow hjob
      rw [hone] at hrow
      rcases List.mem_append.mp hrow with hold | hlast
      · exact fun hmem => hnew row hold hjob (List.mem_cons_of_mem _ hmem)
      · rw [List.mem_singleton.mp hlast]
        exact hroles.1

/-- A project's graph is inserted as its rows, beside those of other projects. -/
theorem insertInto_rowsOf {db : Database} {graph : ProjectGraph}
    (hassets : ∀ asset ∈ graph.assets, asset.projectId = graph.projectId) (projectId : Uuid) :
    (graph.projectId ≠ projectId → (graph.insertInto db).rowsOf projectId = db.rowsOf projectId)
      ∧ (graph.projectId = projectId → db.rowsOf projectId = .empty →
        (graph.insertInto db).rowsOf projectId = graph.rows) := by
  have hdirectories : ∀ id, (graph.directories.map (ResultDirectoryRow.mk graph.projectId)).filter
      (fun row => row.projectId = id) = if graph.projectId = id then
        graph.directories.map (ResultDirectoryRow.mk graph.projectId) else [] := by
    intro id
    split <;> rename_i hid <;> simp [List.filter_map, Function.comp_def, hid]
  have hdocuments : ∀ id, (graph.documents.map fun document =>
      (⟨graph.projectId, document.path, document.content⟩ : ResultDocumentRow)).filter
        (fun row => row.projectId = id) = if graph.projectId = id then
          graph.documents.map fun document =>
            (⟨graph.projectId, document.path, document.content⟩ : ResultDocumentRow)
        else [] := by
    intro id
    split <;> rename_i hid <;> simp [List.filter_map, Function.comp_def, hid]
  have hassetRows : ∀ id, graph.assets.filter (fun row => row.projectId = id)
      = if graph.projectId = id then graph.assets else [] := by
    intro id
    split
    · rename_i hid
      exact List.filter_eq_self.mpr fun row hrow => by simp [hassets row hrow, hid]
    · rename_i hid
      exact List.filter_eq_nil_iff.mpr fun row hrow => by simp [hassets row hrow, hid]
  constructor
  · intro hne
    simp only [Database.rowsOf, ProjectGraph.insertInto, List.filter_append, hdirectories,
      hdocuments, hassetRows, if_neg hne, List.append_nil]
    simp [hne]
  · intro heq hempty
    simp only [Database.rowsOf, ProjectRows.empty, ProjectRows.mk.injEq] at hempty
    simp only [Database.rowsOf, ProjectGraph.insertInto, List.filter_append, hdirectories,
      hdocuments, hassetRows, if_pos heq, hempty, List.nil_append, ProjectGraph.rows]
    simp [heq]

/-- The tables after a publication that owns its job. -/
structure PublishedInto (publication : Publication) (db db' : Database) : Prop where
  jobs : db'.jobs = updateWhere publication.lease.owns
    (fun job => job.succeeded publication.projectId publication.now) db.jobs
  artifacts : db'.artifacts = db.artifacts ++ publication.artifacts
  others : ∀ projectId, publication.projectId ≠ some projectId →
    db'.rowsOf projectId = db.rowsOf projectId
  project : ∀ graph ∈ publication.graph, db.rowsOf graph.projectId = .empty →
    db'.rowsOf graph.projectId = graph.rows

variable {publication : Publication} {db db' : Database} {action : Action} {s t : System}

variable {updated : Bool} {keepJob keepProject : Uuid → Bool}

theorem publish_jobs (h : publish db publication = some (db', updated)) :
    db'.jobs = updateWhere publication.lease.owns
      (fun job => job.succeeded publication.projectId publication.now) db.jobs :=
  (publish_frame h).1

theorem publish_into (h : publish db publication = some (db', updated))
    (hchecked : (FinalizerStage.written publication).Checked)
    (hnew : ∀ row ∈ db.artifacts, row.jobId ≠ publication.lease.jobId) :
    PublishedInto publication db db' := by
  have hjobs := publish_jobs h
  rcases publish_cases h with ⟨_, provisioned, hprovisioned, rfl⟩
  have hsame : provisioned.artifacts = db.artifacts := by
    rcases provision_cases hprovisioned with ⟨_, rfl⟩ | ⟨graph, _, _, rfl⟩
    · rfl
    · rfl
  have hwritten := publishStagedArtifacts_artifacts provisioned publication.lease.jobId
    (hchecked.roles rfl) (hchecked.lengths publication rfl)
    (by rw [hsame]; exact fun row hrow hjob => absurd hjob (hnew row hrow))
  rcases publishStagedArtifacts_frame provisioned publication.lease.jobId publication.staged
    publication.artifactIds with ⟨artifacts, transfers, heq⟩
  have hrows : ∀ projectId, ((publishStagedArtifacts provisioned publication.lease.jobId
      publication.staged publication.artifactIds).updateJobs publication.lease.owns fun job =>
        job.succeeded (publication.graph.map ProjectGraph.projectId) publication.now).rowsOf projectId
      = provisioned.rowsOf projectId := by
    intro projectId
    rw [heq]
    rfl
  refine ⟨hjobs, ?_, ?_, ?_⟩
  · rw [← hsame]
    exact hwritten
  · intro projectId hne
    rw [hrows]
    rcases provision_cases hprovisioned with ⟨_, rfl⟩ | ⟨graph, hgraph, _, rfl⟩
    · rfl
    · refine (insertInto_rowsOf (hchecked.assets graph hgraph) projectId).1 ?_
      intro hid
      exact hne (by rw [Publication.projectId, hgraph, Option.map_some, hid])
  · intro graph hgraph hempty
    rw [hrows]
    rcases provision_cases hprovisioned with ⟨hnone, _⟩ | ⟨other, hother, _, rfl⟩
    · rw [hnone] at hgraph
      simp at hgraph
    · obtain rfl : other = graph := Option.some.inj (hother.symm.trans hgraph)
      exact (insertInto_rowsOf (hchecked.assets other hother) other.projectId).2 rfl hempty

/-! ## Steps that write no result -/

/-- The column of the result is set when a job succeeds. -/
def ResultUnset (job : JobRow) : Prop :=
  job.state ≠ .succeeded → job.resultProjectId = none

theorem JobMove.resultUnset {job job' : JobRow} {attempts attempts' : List AttemptRow}
    (h : JobMove config job attempts job' attempts') (hunset : ResultUnset job) :
    ResultUnset job' := by
  have hactive : ∀ state : ProcessingJobState, job.state = state → state ≠ .succeeded →
      job.resultProjectId = none := by
    intro state hstate hne
    exact hunset (by rw [hstate]; exact hne)
  intro hstate'
  cases h with
  | same => exact hunset hstate'
  | prepared _ _ hstate | cancelling hstate | cacheHit _ _ hstate | claimed _ _ _ _ hstate
  | givenUp _ _ _ _ _ _ _ _ hstate | lost _ _ _ hstate | leased _ _ hstate | rejected _ _ hstate =>
    exact hactive _ hstate (by simp)
  | waitingEnded _ _ _ hwaiting | cancelledWaiting _ hwaiting =>
    rcases hwaiting with h | h
    · exact hactive _ h (by simp)
    · exact hactive _ h (by simp)
  | renewed _ _ _ _ hholds | delivered _ _ _ hholds =>
    simp only [holdsClaim, Bool.and_eq_true, decide_eq_true_eq] at hholds
    exact hactive _ hholds.2 (by simp)
  | succeeded => exact absurd rfl hstate'
  | detached source result _ hresult =>
    have hbefore : job.resultProjectId = none := hunset hstate'
    rcases hresult with h | h
    · exact h
    · exact h.trans hbefore

theorem step_resultUnset (hinv : Inv s.db)
    (h : Step externals config s action t) (hunset : ∀ job ∈ s.db.jobs, ResultUnset job) :
    ∀ job ∈ t.db.jobs, ResultUnset job := by
  intro job' hjob'
  rcases step_moves hinv h with hmoves | ⟨command, _, _, hinsert⟩
  · have hrel := Moves.rel (r := fun job job' => ResultUnset job → ResultUnset job')
      (fun _ h => h) (fun _ _ _ hab hbc h => hbc (hab h))
      (fun _ _ _ _ hmove _ _ => hmove.resultUnset) hmoves hinv job' hjob'
    rcases hrel with ⟨job, hjob, _, hkept⟩
    exact hkept (hunset job hjob)
  · rw [(insertJob_cases hinsert).2] at hjob'
    rcases List.mem_append.mp hjob' with hold | hnew
    · exact hunset job' hold
    · rw [List.mem_singleton.mp hnew]
      exact fun _ => rfl

/-- A succeeded job stays as it is, or is deleted. -/
theorem step_succeeded (hinv : Inv s.db)
    (h : Step externals config s action t) {job job' : JobRow} (hjob : job ∈ s.db.jobs)
    (hstate : job.state = .succeeded) (hjob' : job' ∈ t.db.jobs) (hid : job'.id = job.id) :
    job'.state = .succeeded := by
  have hrel := step_rel (r := fun job job' => job.state = .succeeded → job'.state = .succeeded)
    (fun _ h => h) (fun _ _ _ hab hbc h => hbc (hab h))
    (fun _ _ _ _ hmove _ _ hstate => by
      rw [hmove.terminal (by rw [hstate]; rfl), hstate]) hinv h hjob hjob' hid
  exact hrel hstate

theorem rowsOf_shrunk (h : Shrunk keepJob keepProject db db') (projectId : Uuid) :
    db'.rowsOf projectId = if keepProject projectId then db.rowsOf projectId else .empty := by
  have hkeep : ∀ {ρ : Type} (column : ρ → Uuid) (rows : List ρ),
      (rows.filter fun row => keepProject (column row)).filter (fun row => column row = projectId)
        = if keepProject projectId then rows.filter (fun row => column row = projectId) else [] := by
    intro ρ column rows
    rw [List.filter_filter]
    split
    · rename_i hkeep
      refine List.filter_congr fun row _ => ?_
      by_cases hid : column row = projectId <;> simp [hid, hkeep]
    · rename_i hgone
      refine List.filter_eq_nil_iff.mpr fun row _ => ?_
      by_cases hid : column row = projectId <;> simp [hid, hgone]
  simp only [Database.rowsOf, h.projects, h.directories, h.documents, h.assets,
    hkeep ResultProjectRow.id, hkeep ResultDirectoryRow.projectId, hkeep ResultDocumentRow.projectId,
    hkeep ResultAssetRow.projectId]
  split <;> rfl

theorem hasProject_shrunk (h : Shrunk keepJob keepProject db db') (projectId : Uuid) :
    db'.hasProject projectId = (keepProject projectId && db.hasProject projectId) := by
  refine Bool.eq_iff_iff.mpr ?_
  simp only [Database.hasProject, h.projects, Bool.and_eq_true, List.any_eq_true, List.mem_filter,
    decide_eq_true_eq]
  constructor
  · rintro ⟨row, ⟨hrow, hkeep⟩, rfl⟩
    exact ⟨hkeep, row, hrow, rfl⟩
  · rintro ⟨hkeep, row, hrow, rfl⟩
    exact ⟨row, ⟨hrow, hkeep⟩, rfl⟩

/-- A result stays the result of its publication under any step that writes
none. -/
theorem isResult_shrunk
    (hinv : Inv s.db) (hids : IdsInv s) (h : Step externals config s action t)
    (hshrunk : Shrunk keepJob keepProject s.db t.db)
    (hresult : publication.IsResult s) : publication.IsResult t := by
  have hartifacts : t.db.artifactsOf publication.lease.jobId
      = if keepJob publication.lease.jobId then s.db.artifactsOf publication.lease.jobId else [] := by
    rw [Database.artifactsOf, hshrunk.artifacts, List.filter_filter]
    split
    · rename_i hkeep
      refine List.filter_congr fun row _ => ?_
      by_cases hid : row.jobId = publication.lease.jobId <;> simp [hid, hkeep]
    · rename_i hgone
      refine List.filter_eq_nil_iff.mpr fun row _ => ?_
      by_cases hid : row.jobId = publication.lease.jobId <;> simp [hid, hgone]
  rcases hresult with ⟨hgone, hnone⟩ | ⟨job, hjob, hid, hstate, hrows, hproject⟩
  · refine .inl ⟨hgone.step hinv h, ?_⟩
    rw [hartifacts, hnone]
    split <;> rfl
  by_cases hkeep : keepJob publication.lease.jobId = true
  · rcases hshrunk.kept job hjob (by rw [hid]; exact hkeep) with ⟨job', hjob', hid'⟩
    have hstate' := step_succeeded hinv h hjob hstate hjob' hid'
    rcases hshrunk.succeeded job' hjob' hstate' with ⟨old, hold, holdId, _, hresult'⟩
    rw [hinv.keyed.job_eq hjob hold (holdId.trans hid')] at hresult'
    refine .inr ⟨job', hjob', hid'.trans hid, hstate', ?_, ?_⟩
    · rw [hartifacts, if_pos hkeep, hrows]
    · rw [hresult', hproject, Option.filter_filter]
      refine congrArg (fun keep => publication.projectId.filter keep) (funext fun id => ?_)
      rw [hasProject_shrunk hshrunk, Bool.and_comm]
  · refine .inl ⟨⟨?_, ?_⟩, ?_⟩
    · rw [← hid]
      exact ((hids.settled hjob).step hinv h).1
    · intro job' hjob' hid'
      exact hkeep (by rw [← hid']; exact hshrunk.jobs job' hjob')
    · rw [hartifacts, if_neg hkeep]

theorem PublicationInv.shrunk (hpub : PublicationInv s)
    (hinv : Inv s.db) (hids : IdsInv s) (h : Step externals config s action t)
    (hother : IsNoCommit s action t) (hpublished : t.published = s.published) :
    PublicationInv t := by
  rcases step_shrunk hinv h hother with ⟨keepJob, keepProject, hshrunk⟩
  constructor
  · rw [hpublished]
    exact hpub.once
  · intro publication hmem
    rw [hpublished] at hmem
    exact isResult_shrunk hinv hids h hshrunk (hpub.results publication hmem)
  · intro job' hjob' hstate'
    rcases hshrunk.succeeded job' hjob' hstate' with ⟨job, hjob, hid, hstate, _⟩
    rw [hpublished, ← hid]
    exact hpub.succeeded job hjob hstate
  · exact step_resultUnset hinv h hpub.unfinished
  · intro artifact hartifact
    rw [hshrunk.artifacts] at hartifact
    rw [hpublished]
    exact hpub.artifacts artifact (List.mem_filter.mp hartifact).1
  · rw [hpublished]
    exact hpub.distinct
  · intro publication hmem graph hgraph
    rw [hpublished] at hmem
    rw [rowsOf_shrunk hshrunk]
    split
    · exact hpub.projects publication hmem graph hgraph
    · exact .inr rfl
  · intro projectId hrows
    rw [hpublished]
    rw [rowsOf_shrunk hshrunk] at hrows
    split at hrows
    · exact hpub.others projectId hrows
    · exact absurd rfl hrows

/-! ## The commit of a publication -/

theorem mem_artifacts {artifact : ArtifactRow}
    (h : artifact ∈ publication.artifacts) : artifact.jobId = publication.lease.jobId := by
  simp only [Publication.artifacts, ← List.map_uncurry_zip_eq_zipWith, List.mem_map] at h
  rcases h with ⟨pair, _, rfl⟩
  rfl

theorem hasProject_eq (db : Database) (projectId : Uuid) :
    db.hasProject projectId = !(db.rowsOf projectId).projects.isEmpty := by
  simp only [Database.hasProject, Database.rowsOf]
  induction db.projects with
  | nil => rfl
  | cons row rows ih =>
    rw [List.any_cons, List.filter_cons, ih]
    by_cases hid : row.id = projectId <;> simp [hid]

/-- A job that a finalizer owns has no publication yet. -/
theorem PublicationInv.unpublished {s : System} (hpub : PublicationInv s) (hinv : Inv s.db)
    {job : JobRow} (hjob : job ∈ s.db.jobs) (hstate : job.state ≠ .succeeded) :
    ∀ publication ∈ s.published, publication.lease.jobId ≠ job.id := by
  intro publication hmem hid
  rcases hpub.results publication hmem with ⟨hgone, _⟩ | ⟨old, hold, holdId, hsucceeded, _⟩
  · exact hgone.absent job hjob hid.symm
  · rw [hinv.keyed.job_eq hjob hold (holdId.trans hid)] at hsucceeded
    exact hstate hsucceeded

/-- The results of other jobs stay as they are when a publication is committed. -/
theorem isResult_published {publication other : Publication}
    (hinv : Inv s.db) (h : Step externals config s action t)
    (hinto : PublishedInto publication s.db t.db)
    (hjob : other.lease.jobId ≠ publication.lease.jobId)
    (hproject : ∀ id ∈ other.projectId, publication.projectId ≠ some id)
    (hresult : other.IsResult s) : other.IsResult t := by
  have hartifacts : t.db.artifactsOf other.lease.jobId = s.db.artifactsOf other.lease.jobId := by
    have hnone : publication.artifacts.filter (fun row => row.jobId = other.lease.jobId) = [] := by
      refine List.filter_eq_nil_iff.mpr fun row hrow hid => hjob ?_
      rw [← of_decide_eq_true hid, mem_artifacts hrow]
    rw [Database.artifactsOf, hinto.artifacts, List.filter_append, hnone, List.append_nil]
    rfl
  rcases hresult with ⟨hgone, hnone⟩ | ⟨job, hmem, hid, hstate, hrows, hresult⟩
  · exact .inl ⟨hgone.step hinv h, by rw [hartifacts, hnone]⟩
  refine .inr ⟨job, ?_, hid, hstate, by rw [hartifacts, hrows], ?_⟩
  · rw [hinto.jobs]
    refine mem_updateWhere.mpr ⟨job, hmem, .inr ⟨?_, rfl⟩⟩
    refine Bool.eq_false_iff.mpr fun howns => hjob ?_
    rw [← hid, (owns_state howns).1]
  · rw [hresult]
    rcases hcase : other.projectId with _ | id
    · rfl
    · rw [Option.filter_some, Option.filter_some,
        hasProject_eq t.db, hinto.others id (hproject id (by rw [hcase]; rfl)), ← hasProject_eq]

/-- The commit of a publication writes its result. -/
theorem PublicationInv.published {finalizer : Nat} (hpub : PublicationInv s) (hinv : Inv s.db)
    (hfin : FinalizerInv s) (h : Step externals config s action t)
    (hat : s.finalizer? finalizer = some (.written publication))
    (hpublish : publish s.db publication = some (t.db, updated))
    (hpublished : t.published = s.published ++ [publication]) : PublicationInv t := by
  have hmem := finalizer?_mem hat
  rcases hfin.held _ hmem rfl with ⟨job, hjob?, howns⟩
  rcases job?_some hjob? with ⟨hjob, hid⟩
  have hid : job.id = publication.lease.jobId := hid
  have hfinalizing : job.state ≠ .succeeded := by
    rw [(owns_state howns).2.1]
    simp
  -- the job is not done, so no publication is its own
  have hunpublished : ∀ other ∈ s.published, other.lease.jobId ≠ publication.lease.jobId := by
    rw [← hid]
    exact hpub.unpublished hinv hjob hfinalizing
  have hnew : ∀ row ∈ s.db.artifacts, row.jobId ≠ publication.lease.jobId := by
    intro row hrow hrowId
    rcases hpub.artifacts row hrow with ⟨other, hother, howner⟩
    exact hunpublished other hother (howner.symm.trans hrowId)
  have hinto := publish_into hpublish (hfin.checked _ hmem) hnew
  -- the project was drawn for this finalizer
  have hfresh : ∀ other ∈ s.published, ∀ id ∈ other.projectId, publication.projectId ≠ some id := by
    intro other hother id hotherId hsame
    rcases Option.map_eq_some_iff.mp hotherId with ⟨graph, hgraph, rfl⟩
    rcases Option.map_eq_some_iff.mp hsame with ⟨graph', hgraph', hsame⟩
    exact (hfin.unpublished _ hmem graph' hgraph').2 other hother graph hgraph hsame.symm
  have hempty : ∀ graph ∈ publication.graph, s.db.rowsOf graph.projectId = .empty := by
    intro graph hgraph
    by_contra hrows
    rcases hpub.others _ hrows with ⟨other, hother, hotherId⟩
    refine hfresh other hother _ hotherId ?_
    rw [Publication.projectId, hgraph]
    rfl
  have hrows : ∀ graph ∈ publication.graph, t.db.rowsOf graph.projectId = graph.rows :=
    fun graph hgraph => hinto.project graph hgraph (hempty graph hgraph)
  constructor
  · rw [hpublished, List.map_append, List.nodup_append]
    refine ⟨hpub.once, List.nodup_singleton _, ?_⟩
    intro id hold id' hlast heq
    rcases List.mem_map.mp hold with ⟨other, hother, rfl⟩
    exact hunpublished other hother (heq.trans (List.mem_singleton.mp hlast))
  · intro other hother
    rw [hpublished] at hother
    rcases List.mem_append.mp hother with hold | hlast
    · exact isResult_published hinv h hinto (hunpublished other hold) (hfresh other hold)
        (hpub.results other hold)
    rw [List.mem_singleton.mp hlast]
    -- the result of the job is the one just written
    refine .inr ⟨job.succeeded publication.projectId publication.now, ?_, hid, rfl, ?_, ?_⟩
    · rw [hinto.jobs]
      exact mem_updateWhere.mpr ⟨job, hjob, .inl ⟨howns, rfl⟩⟩
    · rw [Database.artifactsOf, hinto.artifacts, List.filter_append,
        List.filter_eq_nil_iff.mpr fun row hrow => by simpa using hnew row hrow,
        List.nil_append]
      exact List.filter_eq_self.mpr fun row hrow => decide_eq_true (mem_artifacts hrow)
    · -- a job that had not succeeded named no result
      have hunset : job.resultProjectId = none := hpub.unfinished job hjob hfinalizing
      simp only [JobRow.succeeded, hunset]
      rcases hgraph : publication.graph with _ | graph
      · simp [Publication.projectId, hgraph]
      have hthere : t.db.hasProject graph.projectId = true := by
        rw [hasProject_eq, hrows graph hgraph]
        rfl
      simp only [Publication.projectId, hgraph, Option.map_some]
      rw [Option.filter_some, if_pos hthere]
      rfl
  · intro job' hjob' hstate'
    rw [hinto.jobs] at hjob'
    rw [hpublished]
    rcases mem_updateWhere.mp hjob' with ⟨old, hold, ⟨howned, heq⟩ | ⟨_, heq⟩⟩
    · refine ⟨publication, List.mem_append_right _ (List.mem_singleton.mpr rfl), ?_⟩
      rw [heq]
      exact (owns_state howned).1.symm
    · rw [heq] at hstate' ⊢
      rcases hpub.succeeded old hold hstate' with ⟨other, hother, hsame⟩
      exact ⟨other, List.mem_append_left _ hother, hsame⟩
  · exact step_resultUnset hinv h hpub.unfinished
  · intro artifact hartifact
    rw [hinto.artifacts] at hartifact
    rw [hpublished]
    rcases List.mem_append.mp hartifact with hold | hlast
    · rcases hpub.artifacts artifact hold with ⟨other, hother, hsame⟩
      exact ⟨other, List.mem_append_left _ hother, hsame⟩
    · exact ⟨publication, List.mem_append_right _ (List.mem_singleton.mpr rfl),
        mem_artifacts hlast⟩
  · rw [hpublished, List.filterMap_append, List.nodup_append]
    refine ⟨hpub.distinct, ?_, ?_⟩
    · rcases hcase : publication.projectId with _ | id <;> simp [hcase]
    · intro id hold id' hlast heq
      rcases List.mem_filterMap.mp hold with ⟨other, hother, hotherId⟩
      rcases List.mem_filterMap.mp hlast with ⟨last, hlastMem, hlastId⟩
      rw [List.mem_singleton.mp hlastMem, ← heq] at hlastId
      exact hfresh other hother id hotherId hlastId
  · intro other hother graph hgraph
    rw [hpublished] at hother
    rcases List.mem_append.mp hother with hold | hlast
    · rw [hinto.others graph.projectId
        (hfresh other hold _ (by rw [Publication.projectId, hgraph]; rfl))]
      exact hpub.projects other hold graph hgraph
    · rw [List.mem_singleton.mp hlast] at hgraph
      exact .inl (hrows graph hgraph)
  · intro projectId hnonempty
    rw [hpublished]
    by_cases hown : publication.projectId = some projectId
    · exact ⟨publication, List.mem_append_right _ (List.mem_singleton.mpr rfl), hown⟩
    · rw [hinto.others projectId hown] at hnonempty
      rcases hpub.others projectId hnonempty with ⟨other, hother, hsame⟩
      exact ⟨other, List.mem_append_left _ hother, hsame⟩

/-! ## Over whole runs -/

theorem PublicationInv.step (hpub : PublicationInv s)
    (hinv : ProcessingInv s) (h : Step externals config s action t) : PublicationInv t := by
  cases step_finalizers h with
  | kept _ hpublished _ hother | entered _ _ _ _ hpublished _ hother =>
    exact hpub.shrunk hinv.jobs hinv.ids h hother hpublished
  | published finalizer publication _ hat hpublish _ hpublished =>
    exact hpub.published hinv.jobs hinv.finalizers h hat hpublish hpublished

theorem initial_publicationInv : PublicationInv {} where
  once := List.nodup_nil
  results _ h := absurd h List.not_mem_nil
  succeeded _ h := absurd h List.not_mem_nil
  unfinished _ h := absurd h List.not_mem_nil
  artifacts _ h := absurd h List.not_mem_nil
  distinct := List.nodup_nil
  projects _ h := absurd h List.not_mem_nil
  others _ h := absurd rfl h

theorem reachable_publicationInv {actions : List Action} {s : System}
    (hrun : Run (Step externals config) {} actions s) : ProcessingInv s ∧ PublicationInv s := by
  have hstep : ∀ (u : System) (action : Action) (v : System), ProcessingInv u ∧ PublicationInv u →
      Step externals config u action v → ProcessingInv v ∧ PublicationInv v :=
    fun _ _ _ hboth h => ⟨hboth.1.step h, hboth.2.step hboth.1 h⟩
  exact hrun.invariant hstep ⟨initial_processingInv, initial_publicationInv⟩

/-- No result is written: rows may only go, and no job comes to succeed. -/
structure WritesNothing (db db' : Database) : Prop where
  artifacts : db'.artifacts.Sublist db.artifacts
  projects : db'.projects.Sublist db.projects
  directories : db'.directories.Sublist db.directories
  documents : db'.documents.Sublist db.documents
  assets : db'.assets.Sublist db.assets
  succeeded : ∀ job' ∈ db'.jobs, job'.state = .succeeded →
    ∃ job ∈ db.jobs, job.id = job'.id ∧ job.state = .succeeded

theorem step_writesNothing (hinv : Inv s.db)
    (h : Step externals config s action t) (hother : IsNoCommit s action t) :
    WritesNothing s.db t.db := by
  rcases step_shrunk hinv h hother with ⟨keepJob, keepProject, hshrunk⟩
  constructor
  · rw [hshrunk.artifacts]
    exact List.filter_sublist
  · rw [hshrunk.projects]
    exact List.filter_sublist
  · rw [hshrunk.directories]
    exact List.filter_sublist
  · rw [hshrunk.documents]
    exact List.filter_sublist
  · rw [hshrunk.assets]
    exact List.filter_sublist
  · intro job' hjob' hstate'
    rcases hshrunk.succeeded job' hjob' hstate' with ⟨job, hjob, hid, hstate, _⟩
    exact ⟨job, hjob, hid, hstate⟩

/-- Finalization is exactly-once. In every reachable state no job was published
twice; a job that succeeded has the artifacts and the project of its one
publication, and any other job has none; every row of a project is of one
publication. And whatever step is taken next, only the commit of a finalizer that
owns its job writes a result, all of it, and ends the job as succeeded. -/
theorem finalized_once {actions : List Action} {s : System}
    (hrun : Run (Step externals config) {} actions s) :
    (s.published.map fun publication => publication.lease.jobId).Nodup
    ∧ (∀ job ∈ s.db.jobs, job.state = .succeeded →
        ∃ publication ∈ s.published, publication.lease.jobId = job.id
          ∧ s.db.artifactsOf job.id = publication.artifacts
          ∧ job.resultProjectId = publication.projectId.filter s.db.hasProject
          ∧ ∀ other ∈ s.published, other.lease.jobId = job.id → other = publication)
    ∧ (∀ job ∈ s.db.jobs, job.state ≠ .succeeded →
        (∀ publication ∈ s.published, publication.lease.jobId ≠ job.id)
          ∧ s.db.artifactsOf job.id = [] ∧ job.resultProjectId = none)
    ∧ (∀ artifact ∈ s.db.artifacts, ∃ job ∈ s.db.jobs, job.id = artifact.jobId
        ∧ job.state = .succeeded)
    ∧ (s.published.filterMap Publication.projectId).Nodup
    ∧ (∀ projectId, s.db.rowsOf projectId ≠ .empty →
        ∃ publication ∈ s.published, ∃ graph ∈ publication.graph, graph.projectId = projectId
          ∧ s.db.rowsOf projectId = graph.rows)
    ∧ ∀ action t, Step externals config s action t →
        (t.published = s.published ∧ WritesNothing s.db t.db)
        ∨ ∃ finalizer publication job, action = .commitPublication finalizer
          ∧ s.finalizer? finalizer = some (.written publication)
          ∧ job ∈ s.db.jobs ∧ publication.lease.owns job = true
          ∧ job.succeeded publication.projectId publication.now ∈ t.db.jobs
          ∧ t.published = s.published ++ [publication]
          ∧ PublishedInto publication s.db t.db := by
  rcases reachable_publicationInv hrun with ⟨hinv, hpub⟩
  refine ⟨hpub.once, ?_, ?_, ?_, hpub.distinct, ?_, ?_⟩
  · -- a job that has succeeded has its one publication's rows
    intro job hjob hstate
    rcases hpub.succeeded job hjob hstate with ⟨publication, hmem, hid⟩
    rcases hpub.results publication hmem with
      ⟨hgone, _⟩ | ⟨old, hold, holdId, _, hartifacts, hresult⟩
    · exact absurd hid.symm (hgone.absent job hjob)
    rw [hinv.jobs.keyed.job_eq hjob hold (holdId.trans hid)] at hresult
    refine ⟨publication, hmem, hid, by rw [← hid]; exact hartifacts, hresult, ?_⟩
    intro other hother hsame
    exact List.inj_on_of_nodup_map hpub.once hother hmem (hsame.trans hid.symm)
  · intro job hjob hstate
    -- no publication is of another job
    have hnone := hpub.unpublished hinv.jobs hjob hstate
    refine ⟨hnone, List.filter_eq_nil_iff.mpr ?_, hpub.unfinished job hjob hstate⟩
    intro artifact hartifact hid
    rcases hpub.artifacts artifact hartifact with ⟨publication, hmem, hsame⟩
    exact hnone publication hmem (hsame.symm.trans (of_decide_eq_true hid))
  · intro artifact hartifact
    rcases hpub.artifacts artifact hartifact with ⟨publication, hmem, hsame⟩
    rcases hpub.results publication hmem with ⟨_, hnone⟩ | ⟨job, hjob, hid, hstate, _⟩
    · have hthere : artifact ∈ s.db.artifactsOf publication.lease.jobId :=
        List.mem_filter.mpr ⟨hartifact, decide_eq_true hsame⟩
      rw [hnone] at hthere
      simp at hthere
    · exact ⟨job, hjob, hid.trans hsame.symm, hstate⟩
  · -- the rows of a project are those of the publication that made it
    intro projectId hrows
    rcases hpub.others projectId hrows with ⟨publication, hmem, hid⟩
    rcases Option.map_eq_some_iff.mp hid with ⟨graph, hgraph, rfl⟩
    refine ⟨publication, hmem, graph, hgraph, rfl, ?_⟩
    rcases hpub.projects publication hmem graph hgraph with hthere | hempty
    · exact hthere
    · exact absurd hempty hrows
  · -- a step publishes for a job it owns, or writes no result
    intro action t h
    cases step_finalizers h with
    | kept _ hpublished _ hother | entered _ _ _ _ hpublished _ hother =>
      exact .inl ⟨hpublished, step_writesNothing hinv.jobs h hother⟩
    | published finalizer publication haction hat hpublish _ hpublished =>
      have hmem := finalizer?_mem hat
      rcases hinv.finalizers.held _ hmem rfl with ⟨job, hjob?, howns⟩
      rcases job?_some hjob? with ⟨hjob, hid⟩
      have hfinalizing : job.state ≠ .succeeded := by
        rw [(owns_state howns).2.1]
        simp
      have hinto : PublishedInto publication s.db t.db := by
        refine publish_into hpublish (hinv.finalizers.checked _ hmem) ?_
        intro row hrow hrowId
        rcases hpub.artifacts row hrow with ⟨other, hother, howner⟩
        exact hpub.unpublished hinv.jobs hjob hfinalizing other hother
          (howner.symm.trans (hrowId.trans hid.symm))
      refine .inr ⟨finalizer, publication, job, haction, hat, hjob, howns, ?_, hpublished, hinto⟩
      rw [hinto.jobs]
      exact mem_updateWhere.mpr ⟨job, hjob, .inl ⟨howns, rfl⟩⟩

/-- A finalizer is overtaken: its lease runs out, another one takes the job over
and publishes, and it finds its lease lost. -/
def overtakenRun : List Action :=
  sampleDelivery ++
  [.acquireFinalizationLease 0 1 60 (seconds 5), .loadStagedArtifacts 0,
   .validateFinalization 0 .granted 70 false [],
   .acquireFinalizationLease 1 1 61 (seconds 66), .loadStagedArtifacts 1,
   .validateFinalization 1 .granted 71 false [],
   .lockFinalization 1 (seconds 67), .writePublication 1 [80], .commitPublication 1,
   .lockFinalization 0 (seconds 68)]

theorem overtakenRun_once : ∃ s, exec (step sampleExternals .default) {} overtakenRun = some s
    ∧ s.published.map (fun publication => publication.lease.token) = [61]
    ∧ s.finalizers = []
    ∧ (∀ job ∈ s.db.jobs, job.state = .succeeded)
    ∧ (∀ job ∈ s.db.jobs, job.state = .succeeded →
        ∃ publication ∈ s.published, publication.lease.jobId = job.id
          ∧ s.db.artifactsOf job.id = publication.artifacts
          ∧ job.resultProjectId = publication.projectId.filter s.db.hasProject
          ∧ ∀ other ∈ s.published, other.lease.jobId = job.id → other = publication) := by
  rcases hexec : exec (step sampleExternals .default) {} overtakenRun with _ | s
  · have hsome : (exec (step sampleExternals .default) {} overtakenRun).isSome = true := by
      decide +kernel
    rw [hexec] at hsome
    simp at hsome
  · have hs : s = (exec (step sampleExternals .default) {} overtakenRun).getD {} := by
      rw [hexec]
      rfl
    refine ⟨s, rfl, ?_, ?_, ?_, (finalized_once (exec_run hexec)).2.1⟩
    · rw [hs]
      decide +kernel
    · rw [hs]
      decide +kernel
    · rw [hs]
      decide +kernel

end Toss.Processing
