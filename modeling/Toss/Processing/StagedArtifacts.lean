import Toss.Processing.Publications

/-!
# The delivered result until it is finalized

A completion validates the artifacts it names; a finalizer loads the transfers
that are uploaded. Both are the same set as long as every completion names all
that was uploaded, with no upload still under way, and no tick expires a transfer
whose job is being finalized. Nothing in the source sees to either.

* `IsTimely` — that condition, step by step;
* `StagedKept` — what a statement leaves of the transfers of an attempt;
* `Delivered` — the result of a job as it was validated, and `Delivered.step`;
* `UploadsConsumed` — an upload is consumed by the publication of its job.
-/

namespace Toss.Processing

open Toss.Foundation

variable {externals : Externals} {config : ProcessingConfig}

/-- An upload of an attempt has passed its check and is still to be stored. -/
def HasPendingUpload (s : System) (attempt : AttemptRow) : Prop :=
  ∃ upload ∈ s.uploads, ∃ transfer ∈ s.db.transfers, transfer.id = upload.transferId
    ∧ transfer.attemptId = attempt.id

/-- An accepted completion names every artifact that was uploaded, and no tick
comes after the lifetime of a transfer that a finalizer still has to read. -/
def IsTimely (s : System) : Action → Prop
  | .completeClaim worker sessionId claimId artifacts now =>
    ∀ attempt job, s.db.claimOf worker sessionId claimId = some (attempt, job) →
      (completeClaim worker s.db sessionId claimId artifacts now).1 = .accepted job.id →
      (∀ transfer ∈ s.db.transfers, transfer.isStagedFor attempt = true →
        transfer.id ∈ artifacts.map CompletedArtifactInput.transferId)
      ∧ ¬ HasPendingUpload s attempt
  | .maintainLifecycle _ now =>
    ∀ job ∈ s.db.jobs, job.state = .finalizing → ∀ attempt ∈ s.db.attempts,
      attempt.isDeliveredOf job = true → ∀ transfer ∈ s.db.transfers,
        transfer.isStagedFor attempt = true → now < transfer.expiresAt
  | _ => True

/-! ## Jobs with a delivered attempt -/

/-- What happens to a job that is being finalized. -/
structure FinalizingKept (job : JobRow) (attempts : List AttemptRow) (job' : JobRow)
    (attempts' : List AttemptRow) : Prop where
  terminal : job.state.isTerminal = true → job'.state.isTerminal = true
  finalizing : job.state = .finalizing → job'.state.isTerminal = true ∨
    (job'.state = .finalizing ∧ attempts' = attempts ∧ job'.attemptCount = job.attemptCount
      ∧ (job.cacheSourceJobId = none → job'.cacheSourceJobId = none))

theorem FinalizingKept.refl (job : JobRow) (attempts : List AttemptRow) :
    FinalizingKept job attempts job attempts :=
  ⟨fun h => h, fun h => .inr ⟨h, rfl, rfl, fun h => h⟩⟩

theorem FinalizingKept.trans {a b c : JobRow} {as bs cs : List AttemptRow}
    (hab : FinalizingKept a as b bs) (hbc : FinalizingKept b bs c cs) :
    FinalizingKept a as c cs := by
  refine ⟨fun h => hbc.terminal (hab.terminal h), ?_⟩
  intro hstate
  rcases hab.finalizing hstate with hended | ⟨hstate', hattempts, hcount, hsource⟩
  · exact .inl (hbc.terminal hended)
  rcases hbc.finalizing hstate' with hended | ⟨hstate'', hattempts', hcount', hsource'⟩
  · exact .inl hended
  · exact .inr ⟨hstate'', hattempts'.trans hattempts, hcount'.trans hcount,
      fun h => hsource' (hsource h)⟩

variable {job job' : JobRow} {attempts attempts' : List AttemptRow}

theorem JobMove.finalizingKept (h : JobMove config job attempts job' attempts') :
    FinalizingKept job attempts job' attempts' := by
  refine ⟨fun hterminal => by rw [h.terminal hterminal]; exact hterminal, ?_⟩
  intro hfinalizing
  have hnot : ∀ state : ProcessingJobState, state ≠ .finalizing → job.state ≠ state := by
    intro state hne hstate
    exact hne (hstate.symm.trans hfinalizing)
  cases h with
  | same => exact (FinalizingKept.refl job attempts).finalizing hfinalizing
  | prepared _ _ hstate | cancelling hstate | cacheHit _ _ hstate | claimed _ _ _ _ hstate
  | givenUp _ _ _ _ _ _ _ _ hstate | lost _ _ _ hstate => exact absurd hstate (hnot _ (by simp))
  | waitingEnded _ _ _ hwaiting | cancelledWaiting _ hwaiting =>
    rcases hwaiting with h | h
    · exact absurd h (hnot _ (by simp))
    · exact absurd h (hnot _ (by simp))
  | renewed _ _ _ _ hholds | delivered _ _ _ hholds =>
    simp only [holdsClaim, Bool.and_eq_true, decide_eq_true_eq] at hholds
    exact absurd hholds.2 (hnot _ (by simp))
  | leased => exact .inr ⟨hfinalizing, rfl, rfl, fun h => h⟩
  | succeeded | rejected => exact .inl rfl
  | detached source result hsource =>
    refine .inr ⟨hfinalizing, rfl, rfl, ?_⟩
    intro hnone
    rcases hsource with h | h
    · exact h
    · exact h.trans hnone

/-- A delivered attempt is the last one of a job that is past running. -/
def DeliveredLast (job : JobRow) (attempts : List AttemptRow) : Prop :=
  ∀ attempt ∈ attempts, attempt.state = .delivered →
    attempt.attemptNumber = job.attemptCount ∧ job.cacheSourceJobId = none
      ∧ (job.state = .finalizing ∨ job.state.isTerminal = true)

theorem JobMove.deliveredLast (h : JobMove config job attempts job' attempts')
    (hinv : JobInv job attempts) (hclaims : (attempts.map AttemptRow.claimId).Nodup)
    (hids : (attempts.map AttemptRow.id).Nodup) (hlast : DeliveredLast job attempts) :
    DeliveredLast job' attempts' := by
  -- a job that is waiting or running has no delivered attempt
  have hnone : job.state ≠ .finalizing → job.state.isTerminal = false →
      ∀ attempt ∈ attempts, attempt.state ≠ .delivered := by
    intro hfinalizing hterminal attempt hattempt hstate
    rcases (hlast attempt hattempt hstate).2.2 with h | h
    · exact hfinalizing h
    · rw [hterminal] at h
      simp at h
  have hactive : ∀ state : ProcessingJobState, job.state = state → state ≠ .finalizing →
      state.isTerminal = false → ∀ attempt ∈ attempts, attempt.state ≠ .delivered := by
    intro state hstate hfinalizing hterminal
    exact hnone (by rw [hstate]; exact hfinalizing) (by rw [hstate]; exact hterminal)
  have hupdated : ∀ {cond : AttemptRow → Bool} {set : AttemptRow → AttemptRow},
      (∀ attempt ∈ attempts, attempt.state ≠ .delivered) →
      (∀ row, row.state ≠ .delivered → (set row).state ≠ .delivered) →
      DeliveredLast job' (updateWhere cond set attempts) := by
    intro cond set hbefore hset attempt hattempt hstate
    rcases mem_updateWhere.mp hattempt with ⟨row, hrow, ⟨_, rfl⟩ | ⟨_, rfl⟩⟩
    · exact absurd hstate (hset row (hbefore row hrow))
    · exact absurd hstate (hbefore _ hrow)
  cases h with
  | same | leased => exact hlast
  | prepared _ _ hstate | cancelling hstate | cacheHit _ _ hstate =>
    exact fun attempt hattempt h => absurd h (hactive _ hstate (by simp) rfl attempt hattempt)
  | waitingEnded _ _ _ hwaiting | cancelledWaiting _ hwaiting =>
    rcases hwaiting with hstate | hstate
    · exact fun attempt hattempt h => absurd h (hactive _ hstate (by simp) rfl attempt hattempt)
    · exact fun attempt hattempt h => absurd h (hactive _ hstate (by simp) rfl attempt hattempt)
  | claimed draw sessionId contract now hstate =>
    intro attempt hattempt h
    rcases List.mem_append.mp hattempt with hold | hnew
    · exact absurd h (hactive _ hstate (by simp) rfl attempt hold)
    · rw [List.mem_singleton.mp hnew] at h
      simp [JobRow.openedAttempt] at h
  | renewed _ _ _ _ hholds =>
    simp only [holdsClaim, Bool.and_eq_true, decide_eq_true_eq] at hholds
    exact hupdated (hactive _ hholds.2 (by simp) rfl) fun _ h => h
  | delivered attempt now hmem hholds =>
    simp only [holdsClaim, Bool.and_eq_true, decide_eq_true_eq] at hholds
    rcases hinv.holder hclaims hholds.2 hmem hholds.1.1.2 with ⟨-, -, hnumber⟩
    intro row hrow h
    refine ⟨?_, hinv.uncached (.inr (.inr hholds.2)), .inl rfl⟩
    rcases mem_updateWhere.mp hrow with ⟨old, hold, ⟨hcond, hset⟩ | ⟨_, hset⟩⟩
    · have hsame : old = attempt :=
        List.inj_on_of_nodup_map hids hold hmem (of_decide_eq_true hcond)
      rw [hset, hsame]
      exact hnumber
    · rw [hset] at h
      exact absurd h (hactive _ hholds.2 (by simp) rfl old hold)
  | givenUp attempt failure state texts jobTexts now nextAttemptAt hmem hstate hclaim hclosed =>
    refine hupdated (hactive _ hstate (by simp) rfl) ?_
    intro row _ h
    rcases hclosed with hc | hc
    · rw [hc] at h
      simp [AttemptRow.closed] at h
    · rw [hc] at h
      simp [AttemptRow.closed] at h
  | lost claimId now nextAttemptAt hstate =>
    refine hupdated (hactive _ hstate (by simp) rfl) ?_
    intro row _ h
    simp [AttemptRow.closed] at h
  | succeeded | rejected =>
    intro row hrow h
    exact ⟨(hlast row hrow h).1, (hlast row hrow h).2.1, .inr rfl⟩
  | detached source result hsource =>
    intro row hrow h
    refine ⟨(hlast row hrow h).1, ?_, (hlast row hrow h).2.2⟩
    rcases hsource with hs | hs
    · exact hs
    · exact hs.trans (hlast row hrow h).2.1

variable {action : Action} {s t : System} {db : Database} {now : Timestamp}

theorem step_deliveredLast (hinv : Inv s.db) (h : Step externals config s action t)
    (hlast : ∀ job ∈ s.db.jobs, DeliveredLast job (s.db.attemptsOf job.id)) :
    ∀ job ∈ t.db.jobs, DeliveredLast job (t.db.attemptsOf job.id) := by
  intro job' hjob'
  rcases step_moves hinv h with hmoves | ⟨command, _, _, hinsert⟩
  · have hrel := Moves.relAttempts
      (r := fun job attempts job' attempts' =>
        DeliveredLast job attempts → DeliveredLast job' attempts')
      (fun _ _ h => h) (fun _ _ _ _ _ _ hab hbc h => hbc (hab h))
      (fun _ _ _ _ hmove hinv hclaims hids => hmove.deliveredLast hinv hclaims hids)
      hmoves hinv job' hjob'
    rcases hrel with ⟨job, hjob, _, hkept⟩
    exact hkept (hlast job hjob)
  · rcases insertJob_cases hinsert with ⟨hfresh, hdb⟩
    rw [hdb] at hjob' ⊢
    rcases List.mem_append.mp hjob' with hold | hnew
    · exact hlast job' hold
    intro attempt hattempt _
    rcases mem_attemptsOf.mp hattempt with ⟨hmem, howner⟩
    rcases hinv.keyed.owned attempt hmem with ⟨job, hjob, hid⟩
    rw [List.mem_singleton.mp hnew] at howner
    exact absurd (hid.trans howner) (hfresh job hjob).1

/-! ## What a statement leaves of the transfers of an attempt -/

/-- The transfers of an attempt belong to its claim and its job. -/
def OwnsTransfers (db : Database) (attempt : AttemptRow) : Prop :=
  ∀ transfer ∈ db.transfers, transfer.attemptId = attempt.id →
    transfer.claimId = attempt.claimId ∧ transfer.jobId = attempt.jobId

theorem TransferInv.ownsTransfers (hinv : TransferInv db) (hkeys : WellKeyed db)
    {attempt : AttemptRow} (hattempt : attempt ∈ db.attempts) : OwnsTransfers db attempt := by
  intro transfer htransfer hid
  rcases hinv.owner transfer htransfer with ⟨owner, howner, hownerId, hclaim, hjob⟩
  rw [hkeys.attempt_eq hattempt howner (hownerId.trans hid)] at hclaim hjob
  exact ⟨hclaim.symm, hjob.symm⟩

/-- A statement that leaves the uploaded transfers of an attempt alone, with the
blobs they name, and issues it none. -/
structure StagedKept (attempt : AttemptRow) (db db' : Database) : Prop where
  transfers : db'.transfers.filter (TransferRow.isStagedFor attempt)
    = db.transfers.filter (TransferRow.isStagedFor attempt)
  blobs : ∀ transfer ∈ db.transfers, transfer.isStagedFor attempt = true →
    ∀ id ∈ transfer.blobId, db'.blob? id = db.blob? id
  old : ∀ transfer' ∈ db'.transfers, transfer'.attemptId = attempt.id →
    ∃ transfer ∈ db.transfers, SameTransfer transfer transfer'

variable {a b c db' : Database} {cond : TransferRow → Bool} {set : TransferRow → TransferRow}
  {transfer : TransferRow}

namespace StagedKept

variable {attempt : AttemptRow}

theorem refl (db : Database) : StagedKept attempt db db :=
  ⟨rfl, fun _ _ _ _ _ => rfl, fun transfer htransfer _ => ⟨transfer, htransfer, .refl _⟩⟩

theorem trans (hab : StagedKept attempt a b) (hbc : StagedKept attempt b c) :
    StagedKept attempt a c := by
  refine ⟨hbc.transfers.trans hab.transfers, ?_, ?_⟩
  · intro transfer htransfer hstaged id hid
    have hmem : transfer ∈ b.transfers.filter (TransferRow.isStagedFor attempt) := by
      rw [hab.transfers]
      exact List.mem_filter.mpr ⟨htransfer, hstaged⟩
    rw [hbc.blobs transfer (List.mem_filter.mp hmem).1 hstaged id hid,
      hab.blobs transfer htransfer hstaged id hid]
  · intro last hlast hid
    rcases hbc.old last hlast hid with ⟨between, hbetween, hsame⟩
    rcases hab.old between hbetween (hsame.attemptId.symm.trans hid) with ⟨first, hfirst, hsame'⟩
    exact ⟨first, hfirst, hsame'.trans hsame⟩

/-- An update that finds no staged transfer and makes none. -/
theorem of_update {db : Database} (htransfers : db'.transfers = updateWhere cond set db.transfers)
    (hset : ∀ row, SameTransfer row (set row)) (hnot : ∀ row ∈ db.transfers, cond row = true →
      row.isStagedFor attempt = false ∧ (set row).isStagedFor attempt = false)
    (hblobs : ∀ transfer ∈ db.transfers, transfer.isStagedFor attempt = true →
      ∀ id ∈ transfer.blobId, db'.blob? id = db.blob? id) : StagedKept attempt db db' := by
  refine ⟨?_, hblobs, ?_⟩
  · rw [htransfers]
    exact filter_updateWhere_of_not hnot
  · intro transfer' htransfer' _
    rw [htransfers] at htransfer'
    rcases mem_updateWhere.mp htransfer' with ⟨row, hrow, ⟨_, rfl⟩ | ⟨_, rfl⟩⟩
    · exact ⟨row, hrow, hset row⟩
    · exact ⟨_, hrow, .refl _⟩

/-- A statement on other tables, which may add blobs. -/
theorem of_frame {db : Database} (htransfers : db'.transfers = db.transfers)
    (hblobs : ∀ transfer ∈ db.transfers, transfer.isStagedFor attempt = true →
      ∀ id ∈ transfer.blobId, db'.blob? id = db.blob? id) : StagedKept attempt db db' := by
  refine ⟨by rw [htransfers], hblobs, ?_⟩
  intro transfer htransfer _
  rw [htransfers] at htransfer
  exact ⟨transfer, htransfer, .refl _⟩

/-- A transfer that is issued, and not to this attempt. -/
theorem of_issue {db : Database} (htransfers : db'.transfers = db.transfers ++ [transfer])
    (hblobs : db'.blobs = db.blobs) (hother : transfer.attemptId ≠ attempt.id) :
    StagedKept attempt db db' := by
  refine ⟨?_, ?_, ?_⟩
  · have hnot : transfer.isStagedFor attempt = false := by
      simp [TransferRow.isStagedFor, hother]
    rw [htransfers, List.filter_append, List.filter_cons, hnot]
    simp
  · intro _ _ _ id _
    rw [Database.blob?, hblobs]
    rfl
  · intro row hrow hid
    rw [htransfers] at hrow
    rcases List.mem_append.mp hrow with hold | hnew
    · exact ⟨row, hold, .refl _⟩
    · rw [List.mem_singleton.mp hnew] at hid
      exact absurd hid hother

/-- A delete of other jobs. -/
theorem of_deleteJobs {db : Database} {gone : JobRow → Bool} (howns : OwnsTransfers db attempt)
    (hstays : (db.jobs.any fun job => job.id = attempt.jobId && gone job) = false) :
    StagedKept attempt db (deleteJobs db gone) := by
  refine ⟨?_, fun _ _ _ _ _ => rfl, ?_⟩
  · simp only [deleteJobs, List.filter_filter]
    refine List.filter_congr fun transfer htransfer => ?_
    by_cases hstaged : transfer.isStagedFor attempt = true
    · have hid : transfer.attemptId = attempt.id := by
        simp only [TransferRow.isStagedFor, Bool.and_eq_true, decide_eq_true_eq] at hstaged
        exact hstaged.1.1
      rw [(howns transfer htransfer hid).2, hstays, hstaged]
      rfl
    · simp [Bool.not_eq_true _ ▸ hstaged]
  · intro transfer htransfer _
    exact ⟨transfer, (List.mem_filter.mp htransfer).1, .refl _⟩

theorem ownsTransfers {db : Database} (hkept : StagedKept attempt db db')
    (howns : OwnsTransfers db attempt) : OwnsTransfers db' attempt := by
  intro transfer' htransfer' hid
  rcases hkept.old transfer' htransfer' hid with ⟨transfer, htransfer, hsame⟩
  rw [hsame.claimId, hsame.jobId]
  exact howns transfer htransfer (hsame.attemptId.symm.trans hid)

end StagedKept

/-- Blobs that are there stay when another one is stored. -/
theorem storeBlob_blob? {db stored : Database} {id blobId : Uuid} {digest : Bytes}
    {mediaType : Text} {content : Bytes}
    (h : storeBlob db id digest mediaType content = some (stored, blobId)) {other : Uuid}
    (hthere : (db.blob? other).isSome = true) : stored.blob? other = db.blob? other := by
  unfold storeBlob at h
  split at h
  · simp only [Option.some.injEq, Prod.mk.injEq] at h
    rw [← h.1]
  split at h
  · simp at h
  simp only [Option.some.injEq, Prod.mk.injEq] at h
  rw [← h.1]
  simp only [Database.blob?, List.find?_append]
  rcases Option.isSome_iff_exists.mp hthere with ⟨blob, hblob⟩
  have hfound : db.blobs.find? (fun blob => blob.id = other) = some blob := hblob
  rw [hfound]
  rfl

/-! ## The tick -/

/-- A claim that expires is not the claim of a delivered attempt. -/
theorem expireClaim_stagedKept {attempt : AttemptRow} (howns : OwnsTransfers db attempt)
    (hclaim : job.currentClaimId ≠ some attempt.claimId) :
    StagedKept attempt db (expireClaim now db job) := by
  unfold expireClaim
  rcases hcurrent : job.currentClaimId with _ | claimId
  · exact .of_frame rfl fun _ _ _ _ _ => rfl
  refine .of_update rfl (fun _ => ⟨rfl, rfl, rfl, rfl, rfl, rfl, rfl, rfl⟩) ?_
    fun _ _ _ _ _ => rfl
  intro row hrow hcond
  have hother : row.attemptId ≠ attempt.id := by
    intro hid
    simp only [Bool.and_eq_true, decide_eq_true_eq] at hcond
    exact hclaim (by rw [hcurrent, ← hcond.1, (howns row hrow hid).1])
  exact ⟨by simp [TransferRow.isStagedFor, hother],
    by simp [TransferRow.isStagedFor, TransferRow.expire]⟩

theorem foldl_expireClaim_stagedKept {attempt : AttemptRow} (jobs : List JobRow)
    (howns : OwnsTransfers db attempt)
    (hclaims : ∀ job ∈ jobs, job.currentClaimId ≠ some attempt.claimId) :
    StagedKept attempt db (jobs.foldl (expireClaim now) db) := by
  induction jobs generalizing db with
  | nil => exact .refl db
  | cons job jobs ih =>
    have hone : StagedKept attempt db (expireClaim now db job) :=
      expireClaim_stagedKept howns (hclaims job List.mem_cons_self)
    exact hone.trans (ih (hone.ownsTransfers howns)
      fun other hother => hclaims other (List.mem_cons_of_mem _ hother))

theorem deleteUnusedBlobs_stagedKept {attempt : AttemptRow} :
    StagedKept attempt db (deleteUnusedBlobs db) := by
  refine .of_frame rfl ?_
  intro transfer htransfer _ id hid
  have hused : ∀ blob : BlobRow, blob.id = id →
      ((db.jobs.any fun job => job.inputBlobId = some blob.id)
        || (db.transfers.any fun transfer => transfer.blobId = some blob.id)
        || db.artifacts.any fun artifact => artifact.blobId = blob.id) = true := by
    intro blob hblob
    have hnamed : (db.transfers.any fun transfer => transfer.blobId = some blob.id) = true :=
      List.any_eq_true.mpr ⟨transfer, htransfer, by rw [hblob]; exact decide_eq_true hid⟩
    rw [hnamed]
    simp
  simp only [Database.blob?, deleteUnusedBlobs, List.find?_filter]
  refine congrArg (fun lookup => db.blobs.find? lookup) (funext fun blob => ?_)
  by_cases hblob : blob.id = id
  · rw [hused blob hblob]
    simp
  · simp [hblob]

theorem foldl_expireClaim_job (jobs : List JobRow) (hjob : job ∈ db.jobs)
    (hother : ∀ other ∈ jobs, other.id ≠ job.id) :
    job ∈ (jobs.foldl (expireClaim now) db).jobs := by
  induction jobs generalizing db with
  | nil => exact hjob
  | cons first jobs ih =>
    refine ih ?_ fun other hmem => hother other (List.mem_cons_of_mem _ hmem)
    have hne : job.id ≠ first.id := (hother first List.mem_cons_self).symm
    unfold expireClaim
    rcases first.currentClaimId with _ | claimId
    · exact mem_updateWhere.mpr ⟨job, hjob, .inr ⟨decide_eq_false hne, rfl⟩⟩
    · exact mem_updateWhere.mpr ⟨job, hjob, .inr ⟨decide_eq_false hne, rfl⟩⟩

/-- A tick that comes before the staged transfers expire leaves them alone. -/
theorem maintainLifecycle_stagedKept (hinv : Inv db) (htransfers : TransferInv db)
    {attempt : AttemptRow} (hjob : job ∈ db.jobs) (hstate : job.state = .finalizing)
    (hattempt : attempt ∈ db.attempts) (howner : attempt.jobId = job.id)
    (hdelivered : attempt.state = .delivered) (locked : List Uuid)
    (htimely : ∀ transfer ∈ db.transfers, transfer.isStagedFor attempt = true →
      now < transfer.expiresAt) : StagedKept attempt db (maintainLifecycle locked db now) := by
  have howns := htransfers.ownsTransfers hinv.keyed hattempt
  -- overdue claims are of running jobs, so neither this attempt nor its job is among them
  have hoverdue : ∀ other ∈ overdueJobs (expireSessions db now) locked now,
      other ∈ db.jobs ∧ other.state = .running := by
    intro other hother
    have hsub := overdueJobs_subset hother
    simp only [JobRow.claimOverdue, Bool.and_eq_true, decide_eq_true_eq] at hsub
    exact ⟨hsub.1, hsub.2.1⟩
  have hclaims : ∀ other ∈ overdueJobs (expireSessions db now) locked now,
      other.currentClaimId ≠ some attempt.claimId := by
    intro other hother hcurrent
    rcases mem_runningAttempt hinv (hoverdue other hother).1 (hoverdue other hother).2 with
      ⟨running, hrunning, _, hrunningState, hclaim, _⟩
    rw [hclaim] at hcurrent
    rw [hinv.keyed.claim_eq hattempt hrunning (Option.some.inj hcurrent), hdelivered]
      at hrunningState
    simp at hrunningState
  have hids : ∀ other ∈ overdueJobs (expireSessions db now) locked now, other.id ≠ job.id := by
    intro other hother hid
    have hrunning := (hoverdue other hother).2
    rw [hinv.keyed.job_eq hjob (hoverdue other hother).1 hid, hstate] at hrunning
    simp at hrunning
  have hkeyed := expireClaims_keyed hinv locked now
  have hthere : job ∈ ((overdueJobs (expireSessions db now) locked now).foldl (expireClaim now)
      (expireSessions db now)).jobs := foldl_expireClaim_job _ hjob hids
  have hkept : StagedKept attempt db ((overdueJobs (expireSessions db now) locked now).foldl
      (expireClaim now) (expireSessions db now)) := by
    have hframe : StagedKept attempt db (expireSessions db now) := .of_frame rfl fun _ _ _ _ _ => rfl
    exact hframe.trans (foldl_expireClaim_stagedKept _ howns hclaims)
  unfold maintainLifecycle
  dsimp only
  generalize (overdueJobs (expireSessions db now) locked now).foldl (expireClaim now)
    (expireSessions db now) = expired at hkeyed hthere hkept ⊢
  have hqueued : job ∈ (expireQueue expired now).jobs :=
    mem_updateWhere.mpr ⟨job, hthere, .inr ⟨by simp [hstate], rfl⟩⟩
  -- the transfers that expire are overdue, and the staged ones are not
  have hlast : StagedKept attempt db
      (expireTransfers (releaseEndedPins (expireQueue expired now)) now) := by
    refine hkept.trans (.of_update rfl (fun _ => ⟨rfl, rfl, rfl, rfl, rfl, rfl, rfl, rfl⟩) ?_
      fun _ _ _ _ _ => rfl)
    intro row hrow hcond
    refine ⟨Bool.eq_false_iff.mpr fun hstaged => ?_,
      by simp [TransferRow.isStagedFor, TransferRow.expire]⟩
    have hmem : row ∈ db.transfers.filter (TransferRow.isStagedFor attempt) := by
      rw [← hkept.transfers]
      exact List.mem_filter.mpr ⟨hrow, hstaged⟩
    have hlater := htimely row (List.mem_filter.mp hmem).1 hstaged
    simp only [TransferRow.isOverdue, Bool.and_eq_true, decide_eq_true_eq] at hcond
    exact absurd hcond.2 (Int.not_le.mpr hlater)
  have hjobLast : job ∈ (expireTransfers (releaseEndedPins (expireQueue expired now)) now).jobs :=
    hqueued
  have hkeyedLast := expireQueue_keyed hkeyed now
  generalize expireTransfers (releaseEndedPins (expireQueue expired now)) now = last
    at hlast hjobLast hkeyedLast ⊢
  -- the job is not forgotten, as it has not ended
  have hstays : (last.jobs.any fun row => row.id = attempt.jobId && row.isForgotten last now)
      = false := by
    refine List.any_eq_false.mpr fun row hrow hcond => ?_
    simp only [Bool.and_eq_true, decide_eq_true_eq, JobRow.isForgotten] at hcond
    rw [hkeyedLast.job_eq hjobLast hrow (hcond.1.trans howner), (hinv.job job hjob).completed,
      hstate] at hcond
    simp [ProcessingJobState.isTerminal] at hcond
  exact (hlast.trans (.of_deleteJobs (hlast.ownsTransfers howns) hstays)).trans
    deleteUnusedBlobs_stagedKept

/-! ## Publications of other jobs -/

theorem publishStagedArtifacts_stagedKept {attempt : AttemptRow} (jobId : Uuid)
    (staged : List StagedArtifact) (ids : List Uuid)
    (hother : ∀ artifact ∈ staged, ∀ transferId ∈ artifact.transferId, ∀ row ∈ db.transfers,
      row.id = transferId → row.attemptId ≠ attempt.id) :
    StagedKept attempt db (publishStagedArtifacts db jobId staged ids) := by
  unfold publishStagedArtifacts
  have hentries : ∀ entry ∈ staged.zip ids, ∀ transferId ∈ entry.1.transferId,
      ∀ row ∈ db.transfers, row.id = transferId → row.attemptId ≠ attempt.id := by
    intro entry hentry
    exact hother entry.1 (List.of_mem_zip hentry).1
  generalize staged.zip ids = entries at hentries ⊢
  clear hother
  induction entries generalizing db with
  | nil => exact .refl db
  | cons entry entries ih =>
    rcases publishArtifact_transfers jobId db entry with ⟨htransfers, _, hblobs⟩
    have hsame : ∀ row : TransferRow, SameTransfer row row.consume :=
      fun _ => ⟨rfl, rfl, rfl, rfl, rfl, rfl, rfl, rfl⟩
    have hone : StagedKept attempt db (publishArtifact jobId db entry) := by
      refine .of_update htransfers hsame ?_ fun _ _ _ id _ => by
        rw [Database.blob?, hblobs]
        rfl
      intro row hrow hcond
      have hne := hentries entry List.mem_cons_self row.id (of_decide_eq_true hcond) row hrow rfl
      exact ⟨by simp [TransferRow.isStagedFor, hne],
        by simp [TransferRow.isStagedFor, TransferRow.consume]⟩
    refine hone.trans (ih ?_)
    intro other hmem transferId hid row' hrow' hrowId
    rw [htransfers] at hrow'
    have hnever := hentries other (List.mem_cons_of_mem _ hmem) transferId hid
    rcases mem_updateWhere.mp hrow' with ⟨row, hrow, ⟨_, rfl⟩ | ⟨_, rfl⟩⟩
    · exact hnever row hrow hrowId
    · exact hnever _ hrow hrowId

theorem publish_stagedKept {db : Database} {attempt : AttemptRow} {publication : Publication}
    {updated : Bool} (h : publish db publication = some (db', updated))
    (hother : ∀ artifact ∈ publication.staged, ∀ transferId ∈ artifact.transferId,
      ∀ row ∈ db.transfers, row.id = transferId → row.attemptId ≠ attempt.id) :
    StagedKept attempt db db' := by
  rcases publish_cases h with ⟨_, provisioned, hprovisioned, rfl⟩
  have hsame : provisioned.transfers = db.transfers ∧ provisioned.blobs = db.blobs := by
    rcases provision_cases hprovisioned with ⟨_, rfl⟩ | ⟨graph, _, _, rfl⟩
    · exact ⟨rfl, rfl⟩
    · exact ⟨rfl, rfl⟩
  have hfirst : StagedKept attempt db provisioned :=
    .of_frame hsame.1 fun _ _ _ id _ => by rw [Database.blob?, hsame.2]; rfl
  have hpublished : StagedKept attempt provisioned (publishStagedArtifacts provisioned
      publication.lease.jobId publication.staged publication.artifactIds) :=
    publishStagedArtifacts_stagedKept _ _ _ (by rw [hsame.1]; exact hother)
  exact (hfirst.trans hpublished).trans (.of_frame rfl fun _ _ _ _ _ => rfl)

/-! ## Steps -/

/-- What a step does to the uploads under way. -/
theorem step_uploads (h : Step externals config s action t) :
    (∀ upload ∈ t.uploads, upload ∈ s.uploads) ∨
    ∃ transferId token content now upload,
      checkUpload externals.sha256 s.db transferId token content now = .ok upload
        ∧ t.db = s.db ∧ t.uploads = upload :: s.uploads := by
  have hcommitted : ∀ {s' : System} {db : Database}, s'.committed db = some t →
      (∀ upload ∈ s'.uploads, upload ∈ s.uploads) → ∀ upload ∈ t.uploads, upload ∈ s.uploads := by
    intro s' db hdb hsub
    rw [(committed_some hdb).2]
    exact hsub
  have hsome : ∀ {s' : System}, some s' = some t → (∀ upload ∈ s'.uploads, upload ∈ s.uploads) →
      ∀ upload ∈ t.uploads, upload ∈ s.uploads := by
    intro s' heq hsub
    cases heq
    exact hsub
  have hdropped : ∀ transferId, ∀ upload ∈ (s.dropUpload transferId).uploads,
      upload ∈ s.uploads :=
    fun _ _ hupload => (List.mem_filter.mp hupload).1
  cases action with
  | checkUpload transferId token content now =>
    simp only [Step, step] at h
    split at h
    · simp at h
    split at h
    · exact .inl (hsome h fun _ h => h)
    · rename_i upload hchecked
      have heq := Option.some.inj h
      exact .inr ⟨transferId, token, content, now, upload, hchecked, by rw [← heq], by rw [← heq]⟩
  | reserveBegin command =>
    simp only [Step, step] at h
    split at h
    · simp at h
    · exact .inl (hsome h fun _ h => h)
  | reserveNext =>
    rcases reserveNext_cases h with ⟨admission, _, ⟨stage, _, rfl⟩ | ⟨reply, db, _, rfl⟩⟩
    · exact .inl fun _ h => h
    · exact .inl fun _ h => h
  | reserveAbort =>
    rcases Option.map_eq_some_iff.mp h with ⟨admission, _, rfl⟩
    exact .inl fun _ h => h
  | storeUpload transferId blobId =>
    simp only [Step, step, finishUpload] at h
    split at h
    · simp at h
    · exact .inl (hcommitted h (hdropped transferId))
  | abortUpload transferId =>
    simp only [Step, step] at h
    exact .inl (hsome h (hdropped transferId))
  | _ =>
    have hsame : t.uploads = s.uploads := congrArg (fun calls => calls.2.2) (step_calls h rfl)
    exact .inl fun _ hupload => hsame ▸ hupload

/-- The result of a job as it was delivered: the job is being finalized, the
uploaded transfers of its attempt are `staged`, with the blobs `blobOf` finds, and
no upload of the attempt is under way. -/
structure Delivered (s : System) (jobId : Uuid) (attempt : AttemptRow) (staged : List TransferRow)
    (blobOf : Uuid → Option BlobRow) : Prop where
  job : ∃ job ∈ s.db.jobs, job.id = jobId ∧ job.state = .finalizing ∧ job.cacheSourceJobId = none
    ∧ attempt ∈ s.db.attemptsOf job.id ∧ attempt.isDeliveredOf job = true
  uploaded : s.db.transfers.filter (TransferRow.isStagedFor attempt) = staged
  blobs : ∀ transfer ∈ staged, ∀ id ∈ transfer.blobId, s.db.blob? id = blobOf id
  settledUploads : ¬ HasPendingUpload s attempt

/-- The job has ended, or is gone. -/
def IsOver (s : System) (jobId : Uuid) : Prop :=
  Gone s jobId ∨ ∃ job ∈ s.db.jobs, job.id = jobId ∧ job.state.isTerminal = true

/-- What each step leaves of the transfers of a delivered attempt, while its job
is being finalized. -/
theorem step_stagedKept (hinv : ProcessingInv s) (htimely : IsTimely s action)
    (h : Step externals config s action t) {attempt : AttemptRow} (hjob : job ∈ s.db.jobs)
    (hstate : job.state = .finalizing) (hattempt : attempt ∈ s.db.attemptsOf job.id)
    (hdelivered : attempt.isDeliveredOf job = true) (hjob' : job' ∈ t.db.jobs)
    (hid' : job'.id = job.id) (hstate' : job'.state = .finalizing)
    (huploads : ¬ HasPendingUpload s attempt) : StagedKept attempt s.db t.db := by
  rcases mem_attemptsOf.mp hattempt with ⟨hmem, howner⟩
  have howns := hinv.transfers.ownsTransfers hinv.jobs.keyed hmem
  have hattemptState : attempt.state = .delivered := by
    simp only [AttemptRow.isDeliveredOf, Bool.and_eq_true, decide_eq_true_eq] at hdelivered
    exact hdelivered.2
  have hframe : ∀ {db : Database}, db.transfers = s.db.transfers → db.blobs = s.db.blobs →
      StagedKept attempt s.db db := by
    intro db htransfers hblobs
    exact .of_frame htransfers fun _ _ _ id _ => by rw [Database.blob?, hblobs]; rfl
  have hstored : ∀ {stored : Database} {id blobId : Uuid} {digest : Bytes} {mediaType : Text}
      {content : Bytes}, storeBlob s.db id digest mediaType content = some (stored, blobId) →
      ∀ transfer ∈ s.db.transfers, transfer.isStagedFor attempt = true →
        ∀ id ∈ transfer.blobId, stored.blob? id = s.db.blob? id :=
    fun hstored transfer htransfer _ id hid =>
      storeBlob_blob? hstored (hinv.transfers.blob transfer htransfer id hid)
  -- another attempt that is running is not the delivered one
  have hother : ∀ {other : AttemptRow} {otherJob : JobRow} {claimId : Uuid} {now : Timestamp},
      other ∈ s.db.attempts → holdsClaim otherJob other claimId now = true →
      other.id ≠ attempt.id := by
    intro other otherJob claimId now hotherMem hholds hsame
    simp only [holdsClaim, Bool.and_eq_true, decide_eq_true_eq] at hholds
    have hrunning := hholds.1.1.1
    rw [hinv.jobs.keyed.attempt_eq hmem hotherMem hsame, hattemptState] at hrunning
    simp at hrunning
  have hthere : ∀ gone : JobRow → Bool, job'.id ∈ (deleteJobs s.db gone).jobs.map JobRow.id →
      (s.db.jobs.any fun row => row.id = attempt.jobId && gone row) = false := by
    intro gone hkept
    have hshrunk := deleteJobs_shrunk hinv.jobs.keyed gone
    rcases List.mem_map.mp hkept with ⟨row, hrow, hid⟩
    have hkeep := hshrunk.jobs row hrow
    rw [hid, hid', ← howner] at hkeep
    simpa using hkeep
  have heffect := step_effect h
  generalize t.db = db at heffect hjob' ⊢
  cases heffect with
  | same => exact .refl s.db
  | inserted command hinsert =>
    rw [(insertJob_cases hinsert).2]
    exact hframe rfl rfl
  | pins | workers | preparationFailed | cancelledWaiting | cancelling | cacheHit | renewed
  | delivered | givenUp | leased | rejected => exact hframe rfl rfl
  | prepared jobId blobId input _ _ hblob =>
    have hblobs := hstored hblob
    rcases storeBlob_cases hblob with ⟨blobs, rfl⟩
    exact .of_frame rfl hblobs
  | claimed _ draw sessionId contract now _ _ _ hfresh _ =>
    exact .of_issue rfl rfl (hfresh attempt hmem).1.symm
  | @issued _ other _ id token request now _ hotherMem _ _ hholds _ =>
    have hcleared : StagedKept attempt s.db (s.db.updateTransfers
        (TransferRow.isStaleUploadOf other.id request.role now) TransferRow.expire) := by
      refine .of_update rfl (fun _ => ⟨rfl, rfl, rfl, rfl, rfl, rfl, rfl, rfl⟩) ?_
        fun _ _ _ _ _ => rfl
      intro row _ hcond
      simp only [TransferRow.isStaleUploadOf, Bool.and_eq_true, decide_eq_true_eq] at hcond
      exact ⟨by simp [TransferRow.isStagedFor, hcond.1.2],
        by simp [TransferRow.isStagedFor, TransferRow.expire]⟩
    exact hcleared.trans (.of_issue rfl rfl (hother hotherMem hholds))
  | read _ now hlive hdownload =>
    rcases liveTransfer_some hlive with ⟨hlivemem, _, _⟩
    refine .of_update rfl (fun _ => ⟨rfl, rfl, rfl, rfl, rfl, rfl, rfl, rfl⟩) ?_
      fun _ _ _ _ _ => rfl
    intro row hrow hcond
    have hsame := List.inj_on_of_nodup_map hinv.transfers.ids hrow hlivemem
      (of_decide_eq_true hcond)
    rw [hsame]
    exact ⟨by simp [TransferRow.isStagedFor, hdownload],
      by simp [TransferRow.isStagedFor, TransferRow.read, hdownload]⟩
  | stored _ blobId upload hupload hblob =>
    have hblobs := hstored hblob
    rcases storeBlob_cases hblob with ⟨blobs, rfl⟩
    refine .of_update rfl (fun _ => ⟨rfl, rfl, rfl, rfl, rfl, rfl, rfl, rfl⟩) ?_ hblobs
    intro row hrow hcond
    have hne : row.attemptId ≠ attempt.id :=
      fun hsame => huploads ⟨upload, hupload, row, hrow, of_decide_eq_true hcond, hsame⟩
    exact ⟨by simp [TransferRow.isStagedFor, hne],
      by simp [TransferRow.isStagedFor, TransferRow.stored, hne]⟩
  | tick locked now =>
    exact maintainLifecycle_stagedKept hinv.jobs hinv.transfers hjob hstate hmem howner
      hattemptState locked (htimely job hjob hstate attempt hmem hdelivered)
  | published finalizer publication hat hpublish =>
    -- the job would have succeeded, had the publication been its own
    have hmemFinalizer := finalizer?_mem hat
    rcases hinv.finalizers.held _ hmemFinalizer rfl with ⟨owned, howned, howns'⟩
    rcases job?_some howned with ⟨hownedMem, hownedId⟩
    have hne : publication.lease.jobId ≠ job.id := by
      intro hsame
      rw [publish_jobs hpublish] at hjob'
      have hownedJob : owned = job := hinv.jobs.keyed.job_eq hjob hownedMem (hownedId.trans hsame)
      rcases mem_updateWhere.mp hjob' with ⟨row, hrow, ⟨_, heq⟩ | ⟨hcond, heq⟩⟩
      · rw [heq] at hstate'
        simp [JobRow.succeeded] at hstate'
      rw [heq] at hid'
      rw [hinv.jobs.keyed.job_eq hjob hrow hid', ← hownedJob] at hcond
      have howned' : publication.lease.owns owned = true := howns'
      rw [howned'] at hcond
      simp at hcond
    refine publish_stagedKept hpublish ?_
    intro artifact hartifact transferId hid row hrow hrowId hrowAttempt
    rcases hinv.finalizers.staged _ hmemFinalizer with hgone | hstaged
    · exact hgone.absent owned hownedMem hownedId
    rcases hstaged artifact hartifact transferId hid with ⟨transfer, htransfer, hsame, hjobId⟩
    have heq : row = transfer :=
      List.inj_on_of_nodup_map hinv.transfers.ids hrow htransfer (hrowId.trans hsame.symm)
    rw [heq] at hrowAttempt
    refine hne ?_
    calc publication.lease.jobId = transfer.jobId := hjobId.symm
      _ = attempt.jobId := (howns transfer htransfer hrowAttempt).2
      _ = job.id := howner
  | deletedJobs gone =>
    exact .of_deleteJobs howns (hthere _ (List.mem_map_of_mem hjob'))
  | deletedProject projectId =>
    have hids : job'.id ∈ (deleteJobs s.db fun job => job.projectId = some projectId).jobs.map
        JobRow.id := by
      rcases mem_updateWhere.mp hjob' with ⟨row, hrow, ⟨_, rfl⟩ | ⟨_, rfl⟩⟩
      · exact List.mem_map.mpr ⟨row, hrow, rfl⟩
      · exact List.mem_map.mpr ⟨_, hrow, rfl⟩
    have hdeleted := StagedKept.of_deleteJobs howns (hthere _ hids)
    exact hdeleted.trans (.of_frame rfl fun _ _ _ _ _ => rfl)

theorem checkUpload_ok {sha256 : Bytes → Bytes} {transferId : Uuid}
    {token content : Bytes} {upload : PendingUpload}
    (h : checkUpload sha256 db transferId token content now = .ok upload) :
    ∃ transfer, liveTransfer db transferId now = some transfer
      ∧ upload.transferId = transferId := by
  unfold checkUpload at h
  dsimp only at h
  split at h
  · simp at h
  rename_i transfer hlive
  refine ⟨transfer, hlive, ?_⟩
  split at h
  · simp at h
  split at h
  · simp at h
  split at h
  · simp at h
  split at h
  · split at h
    · simp at h
    · split at h <;> simp at h
  · rw [← Except.ok.inj h]

theorem IsOver.step {jobId : Uuid} (hinv : ProcessingInv s)
    (h : Step externals config s action t) (hover : IsOver s jobId) : IsOver t jobId := by
  rcases hover with hgone | ⟨job, hjob, hid, hterminal⟩
  · exact .inl (hgone.step hinv.jobs h)
  by_cases hthere : ∃ job' ∈ t.db.jobs, job'.id = jobId
  · rcases hthere with ⟨job', hjob', hid'⟩
    have hrel := step_rel (r := fun a b => a.state.isTerminal = true → b.state.isTerminal = true)
      (fun _ h => h) (fun _ _ _ hab hbc h => hbc (hab h))
      (fun _ _ _ _ hmove _ _ h => by rw [hmove.terminal h]; exact h) hinv.jobs h hjob hjob'
      (hid'.trans hid.symm)
    exact .inr ⟨job', hjob', hid', hrel hterminal⟩
  · refine .inl ⟨?_, fun job' hjob' hid' => hthere ⟨job', hjob', hid'⟩⟩
    rw [← hid]
    exact ((hinv.ids.settled hjob).step hinv.jobs h).1

/-- A delivered result stays as it is until its job has ended. -/
theorem Delivered.step {jobId : Uuid} {attempt : AttemptRow}
    {staged : List TransferRow} {blobOf : Uuid → Option BlobRow} (hinv : ProcessingInv s)
    (htimely : IsTimely s action) (h : Step externals config s action t)
    (hdelivered : Delivered s jobId attempt staged blobOf) :
    IsOver t jobId ∨ Delivered t jobId attempt staged blobOf := by
  rcases hdelivered.job with ⟨job, hjob, hid, hstate, hsource, hattempt, hlast⟩
  -- the job is there after the step, or it is gone for good
  by_cases hthere : ∃ job' ∈ t.db.jobs, job'.id = jobId
  · rcases hthere with ⟨job', hjob', hid'⟩
    have hrel := step_relAttempts FinalizingKept.refl
      (fun _ _ _ _ _ _ hab hbc => hab.trans hbc)
      (fun _ _ _ _ hmove _ _ _ => hmove.finalizingKept) hinv.jobs h hjob hjob' (hid'.trans hid.symm)
    rcases hrel.finalizing hstate with hterminal | ⟨hstate', hattempts, hcount, hsource'⟩
    · exact .inl (.inr ⟨job', hjob', hid', hterminal⟩)
    have hkept := step_stagedKept hinv htimely h hjob hstate hattempt hlast hjob'
      (hid'.trans hid.symm) hstate' hdelivered.settledUploads
    refine .inr ⟨⟨job', hjob', hid', hstate', hsource' hsource, ?_, ?_⟩, ?_, ?_, ?_⟩
    · rw [hattempts]
      exact hattempt
    · rw [AttemptRow.isDeliveredOf, hcount, hid'.trans hid.symm]
      exact hlast
    · rw [hkept.transfers]
      exact hdelivered.uploaded
    · intro transfer htransfer id hblob
      have hmem := htransfer
      rw [← hdelivered.uploaded] at hmem
      have hmem := List.mem_filter.mp hmem
      rw [hkept.blobs transfer hmem.1 hmem.2 id hblob]
      exact hdelivered.blobs transfer htransfer id hblob
    · rintro ⟨upload, hupload, transfer', htransfer', hsame, hattemptId⟩
      rcases hkept.old transfer' htransfer' hattemptId with ⟨transfer, htransfer, hsame'⟩
      rcases step_uploads h with hsub | ⟨transferId, token, content, now, new, hcheck, hdb, huploads⟩
      · exact hdelivered.settledUploads ⟨upload, hsub upload hupload, transfer, htransfer,
          hsame'.id.symm.trans hsame, hsame'.attemptId.symm.trans hattemptId⟩
      rw [huploads] at hupload
      rcases List.mem_cons.mp hupload with rfl | hold
      · -- an upload starts under a running attempt only
        rcases checkUpload_ok hcheck with ⟨live, hlive, hid''⟩
        rcases liveTransfer_some hlive with
          ⟨hliveMem, hliveId, owner, _, howner, _, hrunning, _⟩
        have heq : transfer = live := by
          refine List.inj_on_of_nodup_map hinv.transfers.ids htransfer hliveMem ?_
          rw [← hsame'.id, hsame, hid'', hliveId]
        have hownerId : owner.id = live.attemptId := by simpa using List.find?_some howner
        have hown := hinv.jobs.keyed.attempt_eq (mem_attemptsOf.mp hattempt).1
          (List.mem_of_find?_eq_some howner)
          (by rw [hownerId, ← heq, ← hsame'.attemptId, hattemptId])
        simp only [AttemptRow.isDeliveredOf, Bool.and_eq_true, decide_eq_true_eq] at hlast
        rw [hown, hlast.2] at hrunning
        simp at hrunning
      · exact hdelivered.settledUploads ⟨upload, hold, transfer, htransfer,
          hsame'.id.symm.trans hsame, hsame'.attemptId.symm.trans hattemptId⟩
  · refine .inl (.inl ⟨?_, fun job' hjob' hid' => hthere ⟨job', hjob', hid'⟩⟩)
    rw [← hid]
    exact ((hinv.ids.settled hjob).step hinv.jobs h).1

/-! ## Consumed uploads -/

/-- An upload is consumed by the publication of its job. -/
def UploadsConsumed (db : Database) : Prop :=
  ∀ transfer ∈ db.transfers, transfer.direction = .upload → transfer.state = .consumed →
    ∃ job ∈ db.jobs, job.id = transfer.jobId ∧ job.state = .succeeded

/-- A statement that consumes no upload. -/
def ConsumesNone (db db' : Database) : Prop :=
  ∀ transfer' ∈ db'.transfers, transfer'.direction = .upload → transfer'.state = .consumed →
    ∃ transfer ∈ db.transfers, transfer.direction = .upload ∧ transfer.state = .consumed
      ∧ transfer.jobId = transfer'.jobId

namespace ConsumesNone

theorem of_subset {db : Database} (hsub : ∀ transfer ∈ db'.transfers, transfer ∈ db.transfers) :
    ConsumesNone db db' :=
  fun transfer htransfer hupload hstate =>
    ⟨transfer, hsub transfer htransfer, hupload, hstate, rfl⟩

theorem trans (hab : ConsumesNone a b) (hbc : ConsumesNone b c) : ConsumesNone a c := by
  intro last hlast hupload hstate
  rcases hbc last hlast hupload hstate with ⟨between, hbetween, hupload', hstate', hjob⟩
  rcases hab between hbetween hupload' hstate' with ⟨first, hfirst, hupload'', hstate'', hjob'⟩
  exact ⟨first, hfirst, hupload'', hstate'', hjob'.trans hjob⟩

theorem of_update {db : Database} (htransfers : db'.transfers = updateWhere cond set db.transfers)
    (hset : ∀ row ∈ db.transfers, cond row = true → (set row).direction = .upload →
      (set row).state ≠ .consumed) : ConsumesNone db db' := by
  intro transfer' htransfer' hupload hstate
  rw [htransfers] at htransfer'
  rcases mem_updateWhere.mp htransfer' with ⟨row, hrow, ⟨hcond, rfl⟩ | ⟨_, rfl⟩⟩
  · exact absurd hstate (hset row hrow hcond hupload)
  · exact ⟨_, hrow, hupload, hstate, rfl⟩

theorem of_issue {db : Database} (htransfers : db'.transfers = db.transfers ++ [transfer])
    (hissued : transfer.state = .issued) : ConsumesNone db db' := by
  intro row hrow hupload hstate
  rw [htransfers] at hrow
  rcases List.mem_append.mp hrow with hold | hnew
  · exact ⟨row, hold, hupload, hstate, rfl⟩
  · rw [List.mem_singleton.mp hnew, hissued] at hstate
    simp at hstate

end ConsumesNone

theorem maintainLifecycle_consumesNone (db : Database) (locked : List Uuid) (now : Timestamp) :
    ConsumesNone db (maintainLifecycle locked db now) := by
  refine maintainLifecycle_related (r := ConsumesNone) ?_ ?_ ?_ db locked now
  · exact ConsumesNone.trans
  · exact fun hsubset => .of_subset hsubset
  · exact fun hrows => .of_update hrows fun row _ _ _ => by simp [TransferRow.expire]

variable {transfer' : TransferRow}

/-- The transfers that `publish_staged_artifacts` consumes are those it is given. -/
theorem publishStagedArtifacts_consumes (jobId : Uuid) (staged : List StagedArtifact)
    (ids : List Uuid) (hmem : transfer' ∈ (publishStagedArtifacts db jobId staged ids).transfers)
    (hstate : transfer'.state = .consumed) :
    ∃ transfer ∈ db.transfers, SameTransfer transfer transfer' ∧ (transfer.state = .consumed
      ∨ ∃ artifact ∈ staged, artifact.transferId = some transfer.id) := by
  unfold publishStagedArtifacts at hmem
  have hentries : ∀ entry ∈ staged.zip ids, entry.1 ∈ staged :=
    fun entry hentry => (List.of_mem_zip hentry).1
  generalize staged.zip ids = entries at hmem hentries
  induction entries generalizing db with
  | nil => exact ⟨transfer', hmem, .refl _, .inl hstate⟩
  | cons entry entries ih =>
    rcases ih hmem fun other hother => hentries other (List.mem_cons_of_mem _ hother) with
      ⟨between, hbetween, hsame, hcase⟩
    rw [(publishArtifact_transfers _ _ _).1] at hbetween
    rcases mem_updateWhere.mp hbetween with ⟨row, hrow, ⟨hcond, rfl⟩ | ⟨_, rfl⟩⟩
    · have hconsumed : SameTransfer row row.consume := ⟨rfl, rfl, rfl, rfl, rfl, rfl, rfl, rfl⟩
      refine ⟨row, hrow, hconsumed.trans hsame, .inr ⟨entry.1, ?_, of_decide_eq_true hcond⟩⟩
      exact hentries entry List.mem_cons_self
    · exact ⟨_, hrow, hsame, hcase⟩

/-- The uploads a publication consumes are those it staged. -/
theorem publish_consumes {db : Database} {publication : Publication} {updated : Bool}
    (h : publish db publication = some (db', updated)) (hmem : transfer' ∈ db'.transfers)
    (hstate : transfer'.state = .consumed) :
    ∃ transfer ∈ db.transfers, SameTransfer transfer transfer' ∧ (transfer.state = .consumed
      ∨ ∃ artifact ∈ publication.staged, artifact.transferId = some transfer.id) := by
  rcases publish_cases h with ⟨_, provisioned, hprovisioned, rfl⟩
  have hsame : provisioned.transfers = db.transfers := by
    rcases provision_cases hprovisioned with ⟨_, rfl⟩ | ⟨graph, _, _, rfl⟩
    · rfl
    · rfl
  rw [← hsame]
  exact publishStagedArtifacts_consumes publication.lease.jobId publication.staged
    publication.artifactIds hmem hstate

/-- Only the publication of its job consumes an upload. -/
theorem step_consumed (hinv : ProcessingInv s)
    (h : Step externals config s action t) (hconsumed : UploadsConsumed s.db) :
    UploadsConsumed t.db := by
  -- the job of a transfer that was consumed is still the succeeded one
  have hkept : ∀ transfer' ∈ t.db.transfers, ∀ job ∈ s.db.jobs, job.id = transfer'.jobId →
      job.state = .succeeded → ∃ job' ∈ t.db.jobs, job'.id = transfer'.jobId
        ∧ job'.state = .succeeded := by
    intro transfer' htransfer' job hjob hid hstate
    have hinv' := hinv.step h
    rcases hinv'.transfers.owner transfer' htransfer' with ⟨attempt, hattempt, _, _, howner⟩
    rcases hinv'.jobs.keyed.owned attempt hattempt with ⟨job', hjob', hid'⟩
    have hsame : job'.id = transfer'.jobId := hid'.trans howner
    exact ⟨job', hjob', hsame,
      step_succeeded hinv.jobs h hjob hstate hjob' (hsame.trans hid.symm)⟩
  have hnone : ConsumesNone s.db t.db → UploadsConsumed t.db := by
    intro hnone transfer' htransfer' hupload hstate
    rcases hnone transfer' htransfer' hupload hstate with
      ⟨transfer, htransfer, hupload', hstate', hjob⟩
    rcases hconsumed transfer htransfer hupload' hstate' with ⟨job, hjobMem, hid, hsucceeded⟩
    exact hkept transfer' htransfer' job hjobMem (hid.trans hjob) hsucceeded
  have hsub : t.db.transfers = s.db.transfers → UploadsConsumed t.db := by
    intro hsame
    refine hnone (.of_subset fun transfer htransfer => ?_)
    rw [← hsame]
    exact htransfer
  have hcases : ∀ db, Effect externals config s action db → t.db = db →
      UploadsConsumed t.db := by
    intro db heffect hdb
    cases heffect with
    | same | pins | workers => exact hsub (by rw [hdb])
    | inserted command hinsert => exact hsub (by rw [hdb, (insertJob_cases hinsert).2])
    | prepared jobId blobId input _ _ hblob =>
      rcases storeBlob_cases hblob with ⟨blobs, rfl⟩
      exact hsub (by rw [hdb]; rfl)
    | preparationFailed | cancelledWaiting | cancelling | cacheHit | renewed | delivered
    | givenUp | leased | rejected => exact hsub (by rw [hdb]; rfl)
    | claimed => exact hnone (by rw [hdb]; exact .of_issue rfl rfl)
    | @issued _ other _ id token request now =>
      have hcleared : ConsumesNone s.db (s.db.updateTransfers
          (TransferRow.isStaleUploadOf other.id request.role now) TransferRow.expire) :=
        .of_update rfl fun row _ _ _ => by simp [TransferRow.expire]
      exact hnone (by rw [hdb]; exact hcleared.trans (.of_issue rfl rfl))
    | read _ now hlive hdownload =>
      have hread : ConsumesNone s.db t.db := by
        rw [hdb]
        refine .of_update rfl ?_
        intro row hrow hcond hupload
        have hsame := List.inj_on_of_nodup_map hinv.transfers.ids hrow (liveTransfer_some hlive).1
          (of_decide_eq_true hcond)
        rw [hsame] at hupload
        simp [TransferRow.read, hdownload] at hupload
      exact hnone hread
    | stored _ blobId upload _ hblob =>
      rcases storeBlob_cases hblob with ⟨blobs, rfl⟩
      exact hnone (by rw [hdb]; exact .of_update rfl fun row _ _ _ => by simp [TransferRow.stored])
    | tick locked now =>
      exact hnone (by rw [hdb]; exact maintainLifecycle_consumesNone s.db locked now)
    | published finalizer publication hat hpublish =>
      have hmemFinalizer := finalizer?_mem hat
      rcases hinv.finalizers.held _ hmemFinalizer rfl with ⟨owned, howned, howns⟩
      rcases job?_some howned with ⟨hownedMem, hownedId⟩
      have howns : publication.lease.owns owned = true := howns
      have hsucceeded : ∃ job ∈ t.db.jobs, job.id = publication.lease.jobId
          ∧ job.state = .succeeded := by
        rw [hdb, publish_jobs hpublish]
        exact ⟨_, mem_updateWhere.mpr ⟨owned, hownedMem, .inl ⟨howns, rfl⟩⟩, hownedId, rfl⟩
      intro transfer' htransfer' hupload hstate
      rcases publish_consumes hpublish (hdb ▸ htransfer') hstate with
        ⟨transfer, htransfer, hsame, hbefore | ⟨artifact, hartifact, hid⟩⟩
      · rcases hconsumed transfer htransfer (hsame.direction.symm.trans hupload) hbefore with
          ⟨job, hjob, hjobId, hjobState⟩
        exact hkept transfer' htransfer' job hjob (hjobId.trans hsame.jobId.symm) hjobState
      rcases hinv.finalizers.staged _ hmemFinalizer with hgone | hstaged
      · exact absurd hownedId (hgone.absent owned hownedMem)
      rcases hstaged artifact hartifact transfer.id hid with
        ⟨other, hother, hotherId, hotherJob⟩
      have heq : other = transfer :=
        List.inj_on_of_nodup_map hinv.transfers.ids hother htransfer hotherId
      rcases hsucceeded with ⟨job, hjob, hjobId, hjobState⟩
      refine ⟨job, hjob, ?_, hjobState⟩
      rw [hjobId, hsame.jobId, ← heq]
      exact hotherJob.symm
    | deletedJobs gone | deletedProject projectId =>
      exact hnone (by rw [hdb]; exact .of_subset fun _ h => (List.mem_filter.mp h).1)
  exact hcases t.db (step_effect h) rfl

end Toss.Processing
