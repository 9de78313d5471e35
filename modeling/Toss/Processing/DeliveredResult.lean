import Toss.Processing.StagedArtifacts

/-!
# A completion and the load of its result

What an accepted completion validated is what `load_staged_artifacts` returns,
from the completion to the end of the job, over whole runs whose steps are timely.

* `ValidatedAs` — an entry of a completion and the artifact it stands for;
* `Delivered.load` — what is loaded of a delivered result;
* `staged_result_survives` — over whole runs;
* `lateTick_loses` — a tick after the transfers' lifetime.
-/

namespace Toss.Processing

open Toss.Foundation

variable {externals : Externals} {config : ProcessingConfig}

/-! ## What a completion validates -/

/-- A transfer as it is staged with the blob that `blobOf` finds for it. -/
def TransferRow.stagedWith (blobOf : Uuid → Option BlobRow) (transfer : TransferRow) :
    Option StagedArtifact :=
  (transfer.blobId.bind blobOf).bind transfer.staged

/-- The artifact that an entry of a completion stands for. -/
structure ValidatedAs (db : Database) (input : CompletedArtifactInput) (artifact : StagedArtifact) :
    Prop where
  stored : ∃ transfer ∈ db.transfers, transfer.id = input.transferId
    ∧ transfer.stagedWith db.blob? = some artifact
  role : artifact.role = input.role
  sizeBytes : artifact.sizeBytes = input.sizeBytes
  sha256 : hexDecode input.sha256 = some artifact.sha256

/-- An entry of a completion, the uploaded transfer it names and its artifact. -/
structure NamedBy (db : Database) (attempt : AttemptRow) (input : CompletedArtifactInput)
    (transfer : TransferRow) (artifact : StagedArtifact) : Prop where
  uploaded : transfer ∈ db.transfers.filter (TransferRow.isStagedFor attempt)
  id : transfer.id = input.transferId
  role : transfer.role = input.role
  staged : transfer.stagedWith db.blob? = some artifact
  validated : ValidatedAs db input artifact

variable {artifacts : List CompletedArtifactInput} {attempt : AttemptRow} {db : Database}

variable {claimId : Uuid}

theorem checkArtifacts_entries {contract : OperationContract} {roles : List Text}
    (h : checkArtifacts db contract attempt claimId roles artifacts = true) :
    (artifacts.map CompletedArtifactInput.role).Nodup
    ∧ (∀ role ∈ roles, role ∉ artifacts.map CompletedArtifactInput.role)
    ∧ ∀ input ∈ artifacts, ∃ digest, hexDecode input.sha256 = some digest
      ∧ ∃ transfer ∈ db.transfers, input.isDeliveredBy attempt claimId digest transfer = true := by
  induction artifacts generalizing roles with
  | nil => exact ⟨List.nodup_nil, fun _ _ => List.not_mem_nil, fun _ h => absurd h List.not_mem_nil⟩
  | cons input inputs ih =>
    rw [checkArtifacts] at h
    simp only [Bool.and_eq_true, Bool.not_eq_true', List.contains_eq_mem,
      decide_eq_false_iff_not] at h
    rcases h with ⟨⟨⟨hnew, _⟩, hentry⟩, hrest⟩
    rcases ih hrest with ⟨hnodup, hfresh, hall⟩
    refine ⟨?_, ?_, ?_⟩
    · rw [List.map_cons, List.nodup_cons]
      exact ⟨hfresh _ List.mem_cons_self, hnodup⟩
    · intro role hrole hmem
      rcases List.mem_cons.mp hmem with rfl | hlater
      · exact hnew hrole
      · exact hfresh role (List.mem_cons_of_mem _ hrole) hlater
    · intro other hother
      rcases List.mem_cons.mp hother with rfl | hlater
      · split at hentry
        · simp at hentry
        · rename_i digest hdigest
          simp only [Bool.and_eq_true, List.any_eq_true] at hentry
          exact ⟨digest, hdigest, hentry.2⟩
      · exact hall other hlater

/-- Each entry names an uploaded transfer with its blob, unless the job has
already succeeded. -/
theorem named_of_delivered (htransfers : TransferInv db) (hkeys : WellKeyed db)
    (hconsumed : UploadsConsumed db) {job : JobRow} (hjob : job ∈ db.jobs)
    (hattempt : attempt ∈ db.attempts) (howner : attempt.jobId = job.id)
    (hstate : job.state ≠ .succeeded) {input : CompletedArtifactInput} {digest : Bytes}
    (hdigest : hexDecode input.sha256 = some digest) {transfer : TransferRow}
    (htransfer : transfer ∈ db.transfers)
    (h : input.isDeliveredBy attempt claimId digest transfer = true) :
    ∃ artifact, NamedBy db attempt input transfer artifact := by
  simp only [CompletedArtifactInput.isDeliveredBy, Bool.and_eq_true, Bool.or_eq_true,
    decide_eq_true_eq] at h
  rcases h with ⟨⟨⟨⟨⟨⟨⟨⟨hid, hattemptId⟩, hclaim⟩, hupload⟩, huploaded⟩, hrole⟩, hsize⟩, hsha⟩, hblobId⟩
  have hstored : transfer.state = .uploaded := by
    rcases huploaded with h | h
    · exact h
    rcases hconsumed transfer htransfer hupload h with ⟨owner, hownerMem, hownerId, hsucceeded⟩
    have hsame : owner.id = job.id := calc
      owner.id = transfer.jobId := hownerId
      _ = attempt.jobId :=
        (htransfers.ownsTransfers hkeys hattempt transfer htransfer hattemptId).2
      _ = job.id := howner
    rw [hkeys.job_eq hjob hownerMem hsame] at hsucceeded
    exact absurd hsucceeded hstate
  have hstaged : transfer.isStagedFor attempt = true := by
    simp [TransferRow.isStagedFor, hattemptId, hupload, hstored]
  rcases Option.isSome_iff_exists.mp hblobId with ⟨blobId, hblobId⟩
  rcases Option.isSome_iff_exists.mp (htransfers.blob transfer htransfer blobId hblobId) with
    ⟨blob, hblob⟩
  rcases Option.isSome_iff_exists.mp (htransfers.declared transfer htransfer hupload).1 with
    ⟨filename, hfilename⟩
  have hartifact : transfer.stagedWith db.blob? = some
      { transferId := some transfer.id
        blobId := blob.id
        role := transfer.role
        mediaType := transfer.mediaType
        filename := filename
        sizeBytes := input.sizeBytes
        sha256 := digest
        content := blob.content } := by
    simp [TransferRow.stagedWith, TransferRow.staged, hblobId, hblob, hfilename, hsize, hsha]
  exact ⟨_, List.mem_filter.mpr ⟨htransfer, hstaged⟩, hid, hrole, hartifact,
    ⟨transfer, htransfer, hid, hartifact⟩, hrole, rfl, hdigest⟩

/-- The transfers and the artifacts of all entries. -/
theorem exists_named
    (h : ∀ input ∈ artifacts, ∃ transfer artifact, NamedBy db attempt input transfer artifact) :
    ∃ (transfers : List TransferRow) (validated : List StagedArtifact),
      List.Forall₂ (ValidatedAs db) artifacts validated
      ∧ transfers.map TransferRow.id = artifacts.map CompletedArtifactInput.transferId
      ∧ transfers.map TransferRow.role = artifacts.map CompletedArtifactInput.role
      ∧ (∀ transfer ∈ transfers, transfer ∈ db.transfers.filter (TransferRow.isStagedFor attempt))
      ∧ transfers.mapM (TransferRow.stagedWith db.blob?) = some validated := by
  induction artifacts with
  | nil => exact ⟨[], [], .nil, rfl, rfl, fun _ h => absurd h List.not_mem_nil, rfl⟩
  | cons input inputs ih =>
    rcases h input List.mem_cons_self with ⟨transfer, artifact, hnamed⟩
    rcases ih fun other hother => h other (List.mem_cons_of_mem _ hother) with
      ⟨transfers, validated, hall, hids, hroles, huploaded, hstaged⟩
    refine ⟨transfer :: transfers, artifact :: validated, .cons hnamed.validated hall, ?_, ?_, ?_, ?_⟩
    · rw [List.map_cons, List.map_cons, hids, hnamed.id]
    · rw [List.map_cons, List.map_cons, hroles, hnamed.role]
    · intro other hother
      rcases List.mem_cons.mp hother with rfl | hlater
      · exact hnamed.uploaded
      · exact huploaded other hlater
    · exact mapM_eq_some.mpr (.cons hnamed.staged (mapM_eq_some.mp hstaged))

variable {transfers : List TransferRow} {jobId : Uuid} {s t : System}

/-- A completion that names all that was uploaded names the uploaded transfers,
each once. -/
theorem named_perm (htransfers : TransferInv db)
    (hroles : (artifacts.map CompletedArtifactInput.role).Nodup)
    (hids : transfers.map TransferRow.id = artifacts.map CompletedArtifactInput.transferId)
    (hsame : transfers.map TransferRow.role = artifacts.map CompletedArtifactInput.role)
    (huploaded : ∀ transfer ∈ transfers,
      transfer ∈ db.transfers.filter (TransferRow.isStagedFor attempt))
    (hall : ∀ transfer ∈ db.transfers, transfer.isStagedFor attempt = true →
      transfer.id ∈ artifacts.map CompletedArtifactInput.transferId) :
    (db.transfers.filter (TransferRow.isStagedFor attempt)).Perm transfers := by
  have hnodup : transfers.Nodup := by
    refine List.Nodup.of_map TransferRow.role ?_
    rw [hsame]
    exact hroles
  have hrows : (db.transfers.filter (TransferRow.isStagedFor attempt)).Nodup :=
    (List.Nodup.of_map TransferRow.id htransfers.ids).filter _
  refine (List.perm_ext_iff_of_nodup hrows hnodup).mpr fun transfer => ⟨?_, huploaded transfer⟩
  intro hmem
  have hmem := List.mem_filter.mp hmem
  have hid := hall transfer hmem.1 hmem.2
  rw [← hids] at hid
  rcases List.mem_map.mp hid with ⟨named, hnamed, heq⟩
  have hnamedMem := (List.mem_filter.mp (huploaded named hnamed)).1
  rw [← List.inj_on_of_nodup_map htransfers.ids hnamedMem hmem.1 heq]
  exact hnamed

/-! ## What is loaded -/

variable {staged : List StagedArtifact}

/-- The rows of the query, each staged, are the transfers, each staged. -/
theorem mapM_withBlobs {blobOf blobOf' : Uuid → Option BlobRow}
    (h : transfers.mapM (TransferRow.stagedWith blobOf) = some staged)
    (hblobs : ∀ transfer ∈ transfers, ∀ id ∈ transfer.blobId, blobOf' id = blobOf id) :
    (transfers.filterMap fun transfer =>
      (transfer.blobId.bind blobOf').map fun blob => (transfer, blob)).mapM
        (fun entry : TransferRow × BlobRow => entry.1.staged entry.2) = some staged := by
  have hall := mapM_eq_some.mp h
  clear h
  induction hall with
  | nil => rfl
  | @cons transfer artifact transfers staged hartifact _ ih =>
    have hrest := ih fun other hother => hblobs other (List.mem_cons_of_mem _ hother)
    rcases Option.bind_eq_some_iff.mp hartifact with ⟨blob, hblob, hstaged⟩
    rcases Option.bind_eq_some_iff.mp hblob with ⟨id, hid, hfound⟩
    have hfound' : transfer.blobId.bind blobOf' = some blob := by
      rw [hid, Option.bind_some, hblobs transfer List.mem_cons_self id hid, hfound]
    rw [List.filterMap_cons, hfound']
    exact mapM_eq_some.mpr (.cons hstaged (mapM_eq_some.mp hrest))

/-- A finalizer that holds the lease of a delivered job loads its staged result. -/
theorem Delivered.load {s : System} {blobOf : Uuid → Option BlobRow} (hinv : ProcessingInv s)
    (hdelivered : Delivered s jobId attempt transfers blobOf)
    (hstaged : transfers.mapM (TransferRow.stagedWith blobOf) = some staged) {job : JobRow}
    (hjob : job ∈ s.db.jobs) (hid : job.id = jobId) {token : Uuid}
    (htoken : job.finalizationToken = some token) :
    loadStagedArtifacts s.db (job.lease token) = some (sortStaged staged) := by
  rcases hdelivered.job with ⟨owner, howner, hownerId, hstate, hsource, hattempt, hlast⟩
  have heq : owner = job := hinv.jobs.keyed.job_eq hjob howner (hownerId.trans hid.symm)
  rw [heq] at hstate hsource hattempt hlast
  have hnumbers : ((s.db.attemptsOf job.id).map AttemptRow.attemptNumber).Nodup := by
    rw [(hinv.jobs.job job hjob).numbers]
    exact List.nodup_range'
  have hone : s.db.attempts.filter (AttemptRow.isDeliveredOf job) = [attempt] := by
    have hfiltered : s.db.attempts.filter (AttemptRow.isDeliveredOf job)
        = (s.db.attemptsOf job.id).filter (AttemptRow.isDeliveredOf job) := by
      rw [Database.attemptsOf, List.filter_filter]
      refine List.filter_congr fun row _ => ?_
      by_cases hrow : row.jobId = job.id <;> simp [AttemptRow.isDeliveredOf, hrow]
    rw [hfiltered]
    refine filter_eq_singleton hnumbers hattempt hlast ?_
    intro other _ hother
    simp only [AttemptRow.isDeliveredOf, Bool.and_eq_true, decide_eq_true_eq] at hother hlast
    exact hother.1.2.trans hlast.1.2.symm
  have hrows : stagedTransfers s.db job = transfers.filterMap fun transfer =>
      (transfer.blobId.bind s.db.blob?).map fun blob => (transfer, blob) := by
    rw [stagedTransfers, hone, List.flatMap_singleton, hdelivered.uploaded]
  have hfound : s.db.job? (job.lease token).jobId = some job :=
    find?_of_key hinv.jobs.keyed.jobs hjob rfl
  have hcached : (job.lease token).cacheSourceJobId = none := hsource
  have howns : ¬ (job.state ≠ .finalizing
      ∨ job.finalizationToken ≠ some (job.lease token).token) := by
    rintro (h | h)
    · exact h hstate
    · exact h htoken
  simp only [loadStagedArtifacts, hfound, hcached]
  rw [if_neg howns, hrows, mapM_withBlobs hstaged hdelivered.blobs]
  rfl

/-! ## The completion -/

variable {sessionId : Uuid} {worker : AuthenticatedWorker}

/-- An accepted completion: its entries passed the check, and it repeats one that
was accepted before or delivers the running attempt. -/
theorem completeClaim_accepted {now : Timestamp}
    (h : (completeClaim worker db sessionId claimId artifacts now).1 = .accepted jobId) :
    ∃ attempt job, db.claimOf worker sessionId claimId = some (attempt, job) ∧ job.id = jobId
      ∧ checkArtifacts db job.operation.contract attempt claimId [] artifacts = true
      ∧ ((isDeliveryReplay job attempt = true
          ∧ (completeClaim worker db sessionId claimId artifacts now).2 = db)
        ∨ (holdsClaim job attempt claimId now = true
          ∧ (completeClaim worker db sessionId claimId artifacts now).2
            = (db.updateAttempts (fun row => row.id = attempt.id) AttemptRow.delivered).updateJobs
              (fun row => row.id = job.id) JobRow.delivered)) := by
  unfold completeClaim at h ⊢
  split at h
  · simp at h
  rename_i hempty
  rw [if_neg hempty]
  split at h
  · simp at h
  rename_i attempt job hclaim
  split at h
  · simp at h
  rename_i hcancelled
  split at h
  · simp at h
  rename_i hlost
  split at h
  · simp at h
  rename_i hcount
  split at h
  · simp at h
  rename_i hcheck
  simp only [hclaim, hcancelled, hlost, hcount, hcheck, if_false]
  have hcheck : checkArtifacts db job.operation.contract attempt claimId [] artifacts
      = true := by simpa using hcheck
  split at h
  · -- a result delivered before is accepted again, and nothing is written
    rename_i hreplay
    rw [if_pos hreplay]
    exact ⟨attempt, job, rfl, CompleteClaimOutcome.accepted.inj h, hcheck,
      .inl ⟨hreplay, rfl⟩⟩
  · rename_i hreplay
    rw [if_neg hreplay]
    refine ⟨attempt, job, rfl, CompleteClaimOutcome.accepted.inj h, hcheck,
      .inr ⟨?_, rfl⟩⟩
    have hfirst : isDeliveryReplay job attempt = false := by simpa using hreplay
    simpa [hfirst] using hlost

/-- What is known of every reachable state. -/
structure StagedInv (s : System) : Prop where
  processing : ProcessingInv s
  last : ∀ job ∈ s.db.jobs, DeliveredLast job (s.db.attemptsOf job.id)
  consumed : UploadsConsumed s.db

theorem StagedInv.step {action : Action} (hinv : StagedInv s)
    (h : Step externals config s action t) : StagedInv t where
  processing := hinv.processing.step h
  last := step_deliveredLast hinv.processing.jobs h hinv.last
  consumed := step_consumed hinv.processing h hinv.consumed

theorem initial_stagedInv : StagedInv {} where
  processing := initial_processingInv
  last _ h := absurd h List.not_mem_nil
  consumed _ h := absurd h List.not_mem_nil

theorem run_stagedInv {actions : List Action}
    (hrun : Run (Step externals config) s actions t) (hinv : StagedInv s) : StagedInv t :=
  hrun.invariant (fun _ _ _ hinv h => StagedInv.step hinv h) hinv

/-- After an accepted completion the job has ended, or its result is delivered as
the completion validated it. -/
theorem accepted_delivered {now : Timestamp} (hinv : StagedInv s)
    (htimely : IsTimely s (.completeClaim worker sessionId claimId artifacts now))
    (h : Step externals config s (.completeClaim worker sessionId claimId artifacts now) t)
    (haccepted : (completeClaim worker s.db sessionId claimId artifacts now).1 = .accepted jobId) :
    IsOver t jobId ∨ ∃ attempt transfers validated,
      Delivered t jobId attempt (s.db.transfers.filter (TransferRow.isStagedFor attempt)) s.db.blob?
      ∧ (s.db.transfers.filter (TransferRow.isStagedFor attempt)).Perm transfers
      ∧ transfers.map TransferRow.id = artifacts.map CompletedArtifactInput.transferId
      ∧ transfers.mapM (TransferRow.stagedWith s.db.blob?) = some validated
      ∧ List.Forall₂ (ValidatedAs s.db) artifacts validated := by
  have hprocessing := hinv.processing
  rcases completeClaim_accepted haccepted with ⟨attempt, job, hclaim, hid, hcheck, hcase⟩
  rcases claimOf_some hclaim with ⟨hattempt, _, hjob, howner⟩
  have hmem : attempt ∈ s.db.attemptsOf job.id := mem_attemptsOf.mpr ⟨hattempt, howner⟩
  rcases htimely attempt job hclaim (by rw [haccepted, hid]) with ⟨hall, hpending⟩
  rcases checkArtifacts_entries hcheck with ⟨hroles, _, hentries⟩
  have hdb : t.db = (completeClaim worker s.db sessionId claimId artifacts now).2 := committed_db h
  have huploads : t.uploads = s.uploads := by rw [(committed_some h).2]
  by_cases hsucceeded : job.state = .succeeded
  · -- only a repeated completion meets a job that has succeeded
    rcases hcase with ⟨_, hsame⟩ | ⟨hholds, _⟩
    · rw [hsame] at hdb
      exact .inl (.inr ⟨job, by rw [hdb]; exact hjob, hid, by rw [hsucceeded]; rfl⟩)
    · simp only [holdsClaim, Bool.and_eq_true, decide_eq_true_eq] at hholds
      rw [hholds.2] at hsucceeded
      simp at hsucceeded
  -- each artifact of the completion names a transfer of this attempt
  have hnamed : ∀ input ∈ artifacts, ∃ transfer artifact,
      NamedBy s.db attempt input transfer artifact := by
    intro input hinput
    rcases hentries input hinput with ⟨digest, hdigest, transfer, htransfer, hdelivered⟩
    exact ⟨transfer, named_of_delivered hprocessing.transfers hprocessing.jobs.keyed hinv.consumed
      hjob hattempt howner hsucceeded hdigest htransfer hdelivered⟩
  rcases exists_named hnamed with ⟨transfers, validated, hvalidated, hids, hsame, huploaded, hstaged⟩
  have hperm := named_perm hprocessing.transfers hroles hids hsame huploaded hall
  rcases hcase with ⟨hreplay, hkept⟩ | ⟨hholds, hkept⟩
  · -- a replay: the attempt has delivered before, and nothing is written
    rw [hkept] at hdb
    have hdelivered : attempt.state = .delivered := by
      simp only [isDeliveryReplay, Bool.and_eq_true, decide_eq_true_eq] at hreplay
      exact hreplay.1
    rcases hinv.last job hjob attempt hmem hdelivered with ⟨hnumber, hsource, hstate⟩
    rcases hstate with hstate | hstate
    · refine .inr ⟨attempt, transfers, validated, ⟨?_, ?_, ?_, ?_⟩, hperm, hids, hstaged,
        hvalidated⟩
      · refine ⟨job, by rw [hdb]; exact hjob, hid, hstate, hsource, by rw [hdb]; exact hmem, ?_⟩
        simp [AttemptRow.isDeliveredOf, howner, hnumber, hdelivered]
      · rw [hdb]
      · intro _ _ _ _
        rw [hdb]
      · rw [HasPendingUpload, huploads, hdb]
        exact hpending
    · exact .inl (.inr ⟨job, by rw [hdb]; exact hjob, hid, hstate⟩)
  · rw [hkept] at hdb
    simp only [holdsClaim, Bool.and_eq_true, decide_eq_true_eq] at hholds
    -- the first completion: the attempt becomes the delivered one
    have hcurrent : job.currentClaimId = some attempt.claimId := by
      rw [(claimOf_some hclaim).2.1]
      exact hholds.1.1.2
    rcases (hprocessing.jobs.job job hjob).holder (claims_attemptsOf hprocessing.jobs.keyed job.id)
      hholds.2 hmem hcurrent with ⟨-, -, hlast⟩
    refine .inr ⟨attempt.delivered, transfers, validated, ⟨?_, ?_, ?_, ?_⟩, hperm, hids, hstaged,
      hvalidated⟩
    · refine ⟨job.delivered, ?_, hid, rfl,
        (hprocessing.jobs.job job hjob).uncached (.inr (.inr hholds.2)), ?_, ?_⟩
      · rw [hdb]
        exact mem_updateWhere.mpr ⟨job, hjob, .inl ⟨decide_eq_true rfl, rfl⟩⟩
      · rw [hdb]
        refine mem_attemptsOf.mpr ⟨?_, howner⟩
        exact mem_updateWhere.mpr ⟨attempt, hattempt, .inl ⟨decide_eq_true rfl, rfl⟩⟩
      · simp [AttemptRow.isDeliveredOf, AttemptRow.delivered, JobRow.delivered, howner, hlast]
    · rw [hdb]
      rfl
    · intro _ _ _ _
      rw [hdb]
      rfl
    · rw [HasPendingUpload, huploads, hdb]
      exact hpending

/-! ## Over whole runs -/

/-- Once a completion was accepted, the artifacts it validated are what a finalizer
of the job loads, for as long as the job is being finalized: in every run in which
the completion and every later step are timely. The transfers it named stay
uploaded, and their blobs stay. -/
theorem staged_result_survives {before after : List Action} {s t u : System}
    {worker : AuthenticatedWorker} {sessionId claimId : Uuid}
    {artifacts : List CompletedArtifactInput} {now : Timestamp} {jobId : Uuid}
    (hbefore : Run (Step externals config) {} before s)
    (htimely : IsTimely s (.completeClaim worker sessionId claimId artifacts now))
    (hcomplete : Step externals config s (.completeClaim worker sessionId claimId artifacts now) t)
    (haccepted : (completeClaim worker s.db sessionId claimId artifacts now).1 = .accepted jobId)
    (hafter : Run (Guarded IsTimely (Step externals config)) t after u) :
    ∀ job ∈ u.db.jobs, job.id = jobId → job.state = .finalizing →
      ∃ validated, List.Forall₂ (ValidatedAs s.db) artifacts validated
        ∧ (∀ token, job.finalizationToken = some token →
            ∃ staged, loadStagedArtifacts u.db (job.lease token) = some staged
              ∧ staged.Perm validated)
        ∧ ∀ input ∈ artifacts, ∃ transfer ∈ u.db.transfers, transfer.id = input.transferId
            ∧ transfer.state = .uploaded ∧ (transfer.blobId.bind u.db.blob?).isSome = true := by
  intro job hjob hid hstate
  have hstaged := run_stagedInv hbefore initial_stagedInv
  have hprocessing := (hstaged.step hcomplete).processing
  have hprocessing' : ProcessingInv u := by
    refine run_processingInv (hafter.mono fun _ _ _ h => h.2) hprocessing
  -- a job that has ended is not being finalized
  have hover : ¬ IsOver u jobId := by
    rintro (hgone | ⟨other, hother, hotherId, hterminal⟩)
    · exact hgone.absent job hjob hid
    · rw [hprocessing'.jobs.keyed.job_eq hjob hother (hotherId.trans hid.symm), hstate] at hterminal
      simp [ProcessingJobState.isTerminal] at hterminal
  rcases accepted_delivered hstaged htimely hcomplete haccepted with
    hended | ⟨attempt, transfers, validated, hdelivered, hperm, hids, hstage, hvalidated⟩
  · have hstep : ∀ v action w, ProcessingInv v ∧ IsOver v jobId →
        Guarded IsTimely (Step externals config) v action w → ProcessingInv w ∧ IsOver w jobId :=
      fun v action w hboth h => ⟨hboth.1.step h.2, hboth.2.step hboth.1 h.2⟩
    exact absurd (hafter.invariant hstep ⟨hprocessing, hended⟩).2 hover
  · have hstep : ∀ v action w,
        ProcessingInv v ∧ (IsOver v jobId ∨ Delivered v jobId attempt
          (s.db.transfers.filter (TransferRow.isStagedFor attempt)) s.db.blob?) →
        Guarded IsTimely (Step externals config) v action w →
        ProcessingInv w ∧ (IsOver w jobId ∨ Delivered w jobId attempt
          (s.db.transfers.filter (TransferRow.isStagedFor attempt)) s.db.blob?) := by
      rintro v action w ⟨hinv, hended | hdelivered⟩ h
      · exact ⟨hinv.step h.2, .inl (hended.step hinv h.2)⟩
      · exact ⟨hinv.step h.2, hdelivered.step hinv h.1 h.2⟩
    rcases (hafter.invariant hstep ⟨hprocessing, .inr hdelivered⟩).2 with hended | hlast
    · exact absurd hended hover
    refine ⟨validated, hvalidated, ?_, ?_⟩
    · intro token htoken
      rcases mapM_perm hperm hstage with ⟨loaded, hloaded, hsame⟩
      refine ⟨sortStaged loaded, hlast.load hprocessing' hloaded hjob hid htoken, ?_⟩
      exact (List.perm_insertionSort _ _).trans hsame
    · intro input hinput
      have hnamed : input.transferId ∈ transfers.map TransferRow.id := by
        rw [hids]
        exact List.mem_map_of_mem hinput
      rcases List.mem_map.mp hnamed with ⟨transfer, htransfer, htransferId⟩
      have huploaded := hperm.mem_iff.mpr htransfer
      have hthere := huploaded
      rw [← hlast.uploaded] at hthere
      have hthere := List.mem_filter.mp hthere
      have huploadedState : transfer.state = .uploaded := by
        have hcond := hthere.2
        simp only [TransferRow.isStagedFor, Bool.and_eq_true, decide_eq_true_eq] at hcond
        exact hcond.2
      refine ⟨transfer, hthere.1, htransferId, huploadedState, ?_⟩
      rcases exists_of_mapM hstage htransfer with ⟨artifact, hone⟩
      rcases Option.bind_eq_some_iff.mp hone with ⟨blob, hblob, _⟩
      rcases Option.bind_eq_some_iff.mp hblob with ⟨id, hblobId, hfound⟩
      rw [hblobId, Option.bind_some, hlast.blobs transfer huploaded id hblobId, hfound]
      rfl

/-! ## Runs to evaluate -/

def sampleArtifacts : List CompletedArtifactInput :=
  [⟨33, "pdf".toList, 32, hexEncode samplePdf⟩]

/-- The completion that ends the delivery. -/
def sampleCompletion : Action :=
  .completeClaim sampleWorker 20 31 sampleArtifacts (seconds 4)

/-- The state the completion is called in. -/
def sampleUploaded : System :=
  (exec (step sampleExternals .default) {} sampleDelivery.dropLast).getD {}

/-- A tick in time, and a finalizer that takes the job. -/
def timelyTick : List Action :=
  [.maintainLifecycle [] (seconds 5), .acquireFinalizationLease 0 1 60 (seconds 6)]

/-- A tick after the lifetime of the transfer, which was issued at two seconds,
and a finalizer that takes the job. -/
def lateTick : List Action :=
  [.maintainLifecycle [] (seconds 303), .acquireFinalizationLease 0 1 60 (seconds 304)]

theorem sampleUploaded_run :
    Run (Step sampleExternals .default) {} sampleDelivery.dropLast sampleUploaded := by
  rcases hexec : exec (step sampleExternals .default) {} sampleDelivery.dropLast with _ | s
  · have hsome : (exec (step sampleExternals .default) {} sampleDelivery.dropLast).isSome = true := by
      decide +kernel
    rw [hexec] at hsome
    simp at hsome
  · rw [sampleUploaded, hexec]
    exact exec_run hexec

theorem sampleCompletion_isTimely : IsTimely sampleUploaded sampleCompletion := by
  intro attempt job _ _
  refine ⟨?_, ?_⟩
  · intro transfer htransfer hstaged
    have huploads : ∀ transfer ∈ sampleUploaded.db.transfers, transfer.direction = .upload →
        transfer.id ∈ sampleArtifacts.map CompletedArtifactInput.transferId := by
      decide +kernel
    simp only [TransferRow.isStagedFor, Bool.and_eq_true, decide_eq_true_eq] at hstaged
    exact huploads transfer htransfer hstaged.1.2
  · rintro ⟨upload, hupload, _⟩
    have hnone : sampleUploaded.uploads = [] := by decide +kernel
    rw [hnone] at hupload
    simp at hupload

/-- A tick in time leaves the delivered result to the finalizer. -/
theorem timelyTick_survives : ∃ t u,
    step sampleExternals .default sampleUploaded sampleCompletion = some t
    ∧ exec (step sampleExternals .default) t timelyTick = some u
    ∧ u.db.jobs.map (fun job => (job.id, job.state, job.finalizationToken))
        = [(1, .finalizing, some 60)]
    ∧ ∀ job ∈ u.db.jobs, job.id = 1 → job.state = .finalizing →
      ∃ validated, List.Forall₂ (ValidatedAs sampleUploaded.db) sampleArtifacts validated
        ∧ (∀ token, job.finalizationToken = some token →
            ∃ staged, loadStagedArtifacts u.db (job.lease token) = some staged
              ∧ staged.Perm validated)
        ∧ ∀ input ∈ sampleArtifacts, ∃ transfer ∈ u.db.transfers,
            transfer.id = input.transferId ∧ transfer.state = .uploaded
              ∧ (transfer.blobId.bind u.db.blob?).isSome = true := by
  have hcomplete : step sampleExternals .default sampleUploaded sampleCompletion = some _ :=
    eq_some_getD (by decide +kernel) {}
  generalize ht : (step sampleExternals .default sampleUploaded sampleCompletion).getD {} = t
    at hcomplete
  have htick : step sampleExternals .default t (.maintainLifecycle [] (seconds 5)) = some _ :=
    eq_some_getD (by rw [← ht]; decide +kernel) {}
  generalize hv : (step sampleExternals .default t (.maintainLifecycle [] (seconds 5))).getD {} = v
    at htick
  have hlease : step sampleExternals .default v (.acquireFinalizationLease 0 1 60 (seconds 6))
      = some _ :=
    eq_some_getD (by rw [← hv, ← ht]; decide +kernel) {}
  generalize hu : (step sampleExternals .default v
    (.acquireFinalizationLease 0 1 60 (seconds 6))).getD {} = u at hlease
  have htimely : IsTimely t (.maintainLifecycle [] (seconds 5)) := by
    intro job _ _ attempt _ _ transfer htransfer _
    have hlater : ∀ transfer ∈ t.db.transfers, seconds 5 < transfer.expiresAt := by
      rw [← ht]
      decide +kernel
    exact hlater transfer htransfer
  have hfree : IsTimely v (.acquireFinalizationLease 0 1 60 (seconds 6)) := trivial
  refine ⟨t, u, hcomplete, ?_, ?_, ?_⟩
  · simp only [timelyTick, exec, htick, hlease, Option.bind_some]
  · rw [← hu, ← hv, ← ht]
    decide +kernel
  · refine staged_result_survives sampleUploaded_run sampleCompletion_isTimely hcomplete ?_
      (.cons ⟨htimely, htick⟩ (.cons ⟨hfree, hlease⟩ (.nil u)))
    decide +kernel

/-- A tick after the transfer's lifetime expires it while its job is being
finalized: the completion was accepted, and the finalizer loads nothing. -/
theorem lateTick_loses : ∃ t u,
    (completeClaim sampleWorker sampleUploaded.db 20 31 sampleArtifacts (seconds 4)).1
        = .accepted 1
    ∧ step sampleExternals .default sampleUploaded sampleCompletion = some t
    ∧ (t.db.transfers.filter fun transfer => transfer.id = 33).map TransferRow.state = [.uploaded]
    ∧ exec (step sampleExternals .default) t lateTick = some u
    ∧ u.db.jobs.map (fun job => (job.id, job.state, job.finalizationToken))
        = [(1, .finalizing, some 60)]
    ∧ (u.db.transfers.filter fun transfer => transfer.id = 33).map TransferRow.state = [.expired]
    ∧ ∀ job ∈ u.db.jobs, loadStagedArtifacts u.db (job.lease 60) = some [] := by
  refine ⟨(step sampleExternals .default sampleUploaded sampleCompletion).getD {},
    (exec (step sampleExternals .default) ((step sampleExternals .default sampleUploaded
      sampleCompletion).getD {}) lateTick).getD {}, ?_, ?_, ?_, ?_, ?_, ?_, ?_⟩
  · decide +kernel
  · exact eq_some_getD (by decide +kernel) {}
  · decide +kernel
  · exact eq_some_getD (by decide +kernel) {}
  · decide +kernel
  · decide +kernel
  · decide +kernel

end Toss.Processing
