import Toss.Processing.Effects

/-!
# The invariant of transfers

A transfer belongs to an attempt of its job, under that attempt's claim, and the
blob it names is there. No statement takes a transfer away without its job.

* `TransferInv` — the invariant of the table;
* `TransfersKept` — a transfer stays as long as its job does;
* `step_transfers` — both, for every step.
-/

namespace Toss.Processing

open Toss.Foundation

/-- The columns that a transfer is issued with and keeps. -/
structure SameTransfer (transfer transfer' : TransferRow) : Prop where
  id : transfer'.id = transfer.id
  jobId : transfer'.jobId = transfer.jobId
  attemptId : transfer'.attemptId = transfer.attemptId
  claimId : transfer'.claimId = transfer.claimId
  direction : transfer'.direction = transfer.direction
  filename : transfer'.filename = transfer.filename
  exactSizeBytes : transfer'.exactSizeBytes = transfer.exactSizeBytes
  expectedSha256 : transfer'.expectedSha256 = transfer.expectedSha256

theorem SameTransfer.refl (transfer : TransferRow) : SameTransfer transfer transfer :=
  ⟨rfl, rfl, rfl, rfl, rfl, rfl, rfl, rfl⟩

theorem SameTransfer.trans {a b c : TransferRow} (hab : SameTransfer a b) (hbc : SameTransfer b c) :
    SameTransfer a c :=
  ⟨hbc.id.trans hab.id, hbc.jobId.trans hab.jobId, hbc.attemptId.trans hab.attemptId,
    hbc.claimId.trans hab.claimId, hbc.direction.trans hab.direction,
    hbc.filename.trans hab.filename, hbc.exactSizeBytes.trans hab.exactSizeBytes,
    hbc.expectedSha256.trans hab.expectedSha256⟩

/-- An upload is issued with the columns that a staged result is read from. -/
def IsDeclared (transfer : TransferRow) : Prop :=
  transfer.direction = .upload → transfer.filename.isSome = true
    ∧ transfer.exactSizeBytes.isSome = true ∧ transfer.expectedSha256.isSome = true

/-- The attempt of a transfer. -/
def OwnedBy (transfer : TransferRow) (attempt : AttemptRow) : Prop :=
  attempt.id = transfer.attemptId ∧ attempt.claimId = transfer.claimId
    ∧ attempt.jobId = transfer.jobId

structure TransferInv (db : Database) : Prop where
  ids : (db.transfers.map TransferRow.id).Nodup
  owner : ∀ transfer ∈ db.transfers, ∃ attempt ∈ db.attempts, OwnedBy transfer attempt
  declared : ∀ transfer ∈ db.transfers, IsDeclared transfer
  blob : ∀ transfer ∈ db.transfers, ∀ id ∈ transfer.blobId, (db.blob? id).isSome = true

/-- Transfers are kept with the columns they were issued with. -/
def TransfersUpdated (db db' : Database) : Prop :=
  ∀ transfer ∈ db.transfers, ∃ transfer' ∈ db'.transfers, SameTransfer transfer transfer'

/-- A transfer stays as long as its job does. -/
def TransfersKept (db db' : Database) : Prop :=
  ∀ transfer ∈ db.transfers, (∃ transfer' ∈ db'.transfers, SameTransfer transfer transfer')
    ∨ ∀ job ∈ db'.jobs, job.id ≠ transfer.jobId

/-- Attempts are kept with their keys. -/
def AttemptsKept (db db' : Database) : Prop :=
  ∀ attempt ∈ db.attempts, ∃ attempt' ∈ db'.attempts, attempt'.id = attempt.id
    ∧ attempt'.claimId = attempt.claimId ∧ attempt'.jobId = attempt.jobId

/-- Blobs are kept. -/
def BlobsKept (db db' : Database) : Prop :=
  ∀ id, (db.blob? id).isSome = true → (db'.blob? id).isSome = true

theorem TransfersUpdated.refl (db : Database) : TransfersUpdated db db :=
  fun transfer htransfer => ⟨transfer, htransfer, .refl transfer⟩

theorem TransfersUpdated.trans {a b c : Database} (hab : TransfersUpdated a b)
    (hbc : TransfersUpdated b c) : TransfersUpdated a c := by
  intro transfer htransfer
  rcases hab transfer htransfer with ⟨between, hbetween, hsame⟩
  rcases hbc between hbetween with ⟨last, hlast, hsame'⟩
  exact ⟨last, hlast, hsame.trans hsame'⟩

theorem TransfersUpdated.kept {a b c : Database} (hab : TransfersUpdated a b)
    (hbc : TransfersKept b c) : TransfersKept a c := by
  intro transfer htransfer
  rcases hab transfer htransfer with ⟨between, hbetween, hsame⟩
  rcases hbc between hbetween with ⟨last, hlast, hsame'⟩ | hgone
  · exact .inl ⟨last, hlast, hsame.trans hsame'⟩
  · exact .inr (by rw [← hsame.jobId]; exact hgone)

theorem TransfersKept.refl (db : Database) : TransfersKept db db :=
  fun transfer htransfer => .inl ⟨transfer, htransfer, .refl transfer⟩

theorem TransfersUpdated.toKept {a b : Database} (h : TransfersUpdated a b) : TransfersKept a b :=
  h.kept (.refl b)

theorem AttemptsKept.refl (db : Database) : AttemptsKept db db :=
  fun attempt hattempt => ⟨attempt, hattempt, rfl, rfl, rfl⟩

variable {db db' : Database}

theorem attemptsKept_updateWhere {cond : AttemptRow → Bool} {set : AttemptRow → AttemptRow}
    (hattempts : db'.attempts = updateWhere cond set db.attempts)
    (hset : ∀ row, (set row).id = row.id ∧ (set row).claimId = row.claimId
      ∧ (set row).jobId = row.jobId) : AttemptsKept db db' := by
  intro attempt hattempt
  by_cases hcond : cond attempt = true
  · refine ⟨set attempt, ?_, hset attempt⟩
    rw [hattempts]
    exact mem_updateWhere.mpr ⟨attempt, hattempt, .inl ⟨hcond, rfl⟩⟩
  · refine ⟨attempt, ?_, rfl, rfl, rfl⟩
    rw [hattempts]
    exact mem_updateWhere.mpr ⟨attempt, hattempt, .inr ⟨by simpa using hcond, rfl⟩⟩

/-! ## Statements that update, insert or delete -/

/-- An update of transfers. -/
theorem TransferInv.update (hinv : TransferInv db) {cond : TransferRow → Bool}
    {set : TransferRow → TransferRow} (htransfers : db'.transfers = updateWhere cond set db.transfers)
    (hset : ∀ row, SameTransfer row (set row)) (hattempts : AttemptsKept db db')
    (hblobs : BlobsKept db db') (hblob : ∀ row ∈ db.transfers, cond row = true →
      ∀ id ∈ (set row).blobId, (db'.blob? id).isSome = true) :
    TransferInv db' ∧ TransfersUpdated db db' := by
  have hold : ∀ transfer' ∈ db'.transfers, ∃ transfer ∈ db.transfers,
      SameTransfer transfer transfer' := by
    intro transfer' htransfer'
    rw [htransfers] at htransfer'
    rcases mem_updateWhere.mp htransfer' with ⟨row, hrow, ⟨_, rfl⟩ | ⟨_, rfl⟩⟩
    · exact ⟨row, hrow, hset row⟩
    · exact ⟨_, hrow, .refl _⟩
  refine ⟨⟨?_, ?_, ?_, ?_⟩, ?_⟩
  · rw [htransfers, map_updateWhere fun row _ => (hset row).id]
    exact hinv.ids
  · intro transfer' htransfer'
    rcases hold transfer' htransfer' with ⟨transfer, htransfer, hsame⟩
    rcases hinv.owner transfer htransfer with ⟨attempt, hattempt, hid, hclaim, hjob⟩
    rcases hattempts attempt hattempt with ⟨attempt', hattempt', hid', hclaim', hjob'⟩
    refine ⟨attempt', hattempt', ?_, ?_, ?_⟩
    · rw [hid', hid, hsame.attemptId]
    · rw [hclaim', hclaim, hsame.claimId]
    · rw [hjob', hjob, hsame.jobId]
  · intro transfer' htransfer' hupload
    rcases hold transfer' htransfer' with ⟨transfer, htransfer, hsame⟩
    rw [hsame.filename, hsame.exactSizeBytes, hsame.expectedSha256]
    exact hinv.declared transfer htransfer (by rw [← hsame.direction]; exact hupload)
  · intro transfer' htransfer' id hid
    rw [htransfers] at htransfer'
    rcases mem_updateWhere.mp htransfer' with ⟨row, hrow, ⟨hcond, rfl⟩ | ⟨_, rfl⟩⟩
    · exact hblob row hrow hcond id hid
    · exact hblobs id (hinv.blob _ hrow id hid)
  · intro transfer htransfer
    by_cases hcond : cond transfer = true
    · refine ⟨set transfer, ?_, hset transfer⟩
      rw [htransfers]
      exact mem_updateWhere.mpr ⟨transfer, htransfer, .inl ⟨hcond, rfl⟩⟩
    · refine ⟨transfer, ?_, .refl transfer⟩
      rw [htransfers]
      exact mem_updateWhere.mpr ⟨transfer, htransfer, .inr ⟨by simpa using hcond, rfl⟩⟩

/-- A statement on other tables. -/
theorem TransferInv.frame (hinv : TransferInv db)
    (htransfers : db'.transfers = db.transfers) (hattempts : AttemptsKept db db')
    (hblobs : BlobsKept db db') : TransferInv db' ∧ TransfersUpdated db db' := by
  have hkept : db'.transfers = updateWhere (fun _ => false) id db.transfers := by
    rw [htransfers, updateWhere_eq_self fun _ _ => rfl]
  refine hinv.update hkept (fun row => .refl row) hattempts hblobs ?_
  intro row _ hcond
  simp at hcond

/-- A transfer that is issued. -/
theorem TransferInv.issue (hinv : TransferInv db) {transfer : TransferRow}
    (htransfers : db'.transfers = db.transfers ++ [transfer])
    (hfresh : ∀ row ∈ db.transfers, row.id ≠ transfer.id) (hattempts : AttemptsKept db db')
    (hblobs : BlobsKept db db') (howner : ∃ attempt ∈ db'.attempts, OwnedBy transfer attempt)
    (hdeclared : IsDeclared transfer)
    (hblob : ∀ id ∈ transfer.blobId, (db'.blob? id).isSome = true) :
    TransferInv db' ∧ TransfersUpdated db db' := by
  -- what is there already is as in a statement on other tables
  have hsame : ({ db' with transfers := db.transfers } : Database).transfers = db.transfers := rfl
  have hrest := (hinv.frame hsame hattempts hblobs).1
  have hcases : ∀ row ∈ db'.transfers, row ∈ db.transfers ∨ row = transfer := by
    intro row hrow
    simpa [htransfers] using hrow
  refine ⟨⟨?_, ?_, ?_, ?_⟩, ?_⟩
  · rw [htransfers, List.map_append, List.nodup_append]
    refine ⟨hinv.ids, List.nodup_singleton _, ?_⟩
    intro id hid id' hid' heq
    rcases List.mem_map.mp hid with ⟨row, hrow, rfl⟩
    exact hfresh row hrow (heq.trans (List.mem_singleton.mp hid'))
  · intro row hrow
    rcases hcases row hrow with hold | rfl
    · exact hrest.owner row hold
    · exact howner
  · intro row hrow
    rcases hcases row hrow with hold | rfl
    · exact hinv.declared row hold
    · exact hdeclared
  · intro row hrow
    rcases hcases row hrow with hold | rfl
    · exact hrest.blob row hold
    · exact hblob
  · intro row hrow
    refine ⟨row, ?_, .refl row⟩
    rw [htransfers]
    exact List.mem_append_left _ hrow

theorem TransferInv.deleteJobs {db : Database} (hinv : TransferInv db) (hkeys : WellKeyed db)
    (gone : JobRow → Bool) :
    TransferInv (deleteJobs db gone) ∧ TransfersKept db (deleteJobs db gone) := by
  refine ⟨⟨?_, ?_, ?_, ?_⟩, ?_⟩
  · exact hinv.ids.sublist (List.filter_sublist.map _)
  · intro transfer htransfer
    have htransfer := List.mem_filter.mp htransfer
    rcases hinv.owner transfer htransfer.1 with ⟨attempt, hattempt, howned⟩
    refine ⟨attempt, List.mem_filter.mpr ⟨hattempt, ?_⟩, howned⟩
    rw [howned.2.2]
    exact htransfer.2
  · intro transfer htransfer
    exact hinv.declared transfer (List.mem_filter.mp htransfer).1
  · intro transfer htransfer
    exact hinv.blob transfer (List.mem_filter.mp htransfer).1
  · intro transfer htransfer
    by_cases hgone : (db.jobs.any fun job => job.id = transfer.jobId && gone job) = true
    · refine .inr ?_
      intro job' hjob' hid
      rcases List.any_eq_true.mp hgone with ⟨job, hjob, hcond⟩
      simp only [Bool.and_eq_true, decide_eq_true_eq] at hcond
      rcases mem_updateWhere.mp hjob' with ⟨row, hrow, hcase⟩
      have hrow := List.mem_filter.mp hrow
      have hsame : row.id = job.id := by
        rcases hcase with ⟨_, heq⟩ | ⟨_, heq⟩ <;> rw [heq] at hid <;> exact hid.trans hcond.1.symm
      -- the job that stays would be the one that goes
      have hstays := hrow.2
      rw [hkeys.job_eq hjob hrow.1 hsame, hcond.2] at hstays
      simp at hstays
    · exact .inl ⟨transfer, List.mem_filter.mpr ⟨htransfer, by simpa using hgone⟩, .refl _⟩

/-- The blobs that transfers name are in use. -/
theorem TransferInv.deleteUnusedBlobs {db : Database} (hinv : TransferInv db) :
    TransferInv (deleteUnusedBlobs db) := by
  refine ⟨hinv.ids, hinv.owner, hinv.declared, ?_⟩
  intro transfer htransfer id hid
  rcases Option.isSome_iff_exists.mp (hinv.blob transfer htransfer id hid) with ⟨blob, hblob⟩
  have hfound : blob.id = id := by simpa using List.find?_some hblob
  refine List.find?_isSome.mpr ⟨blob, List.mem_filter.mpr ⟨List.mem_of_find?_eq_some hblob, ?_⟩,
    by simpa using hfound⟩
  have hused : (db.transfers.any fun transfer => transfer.blobId = some blob.id) = true :=
    List.any_eq_true.mpr ⟨transfer, htransfer, by rw [hfound]; exact decide_eq_true hid⟩
  rw [hused]
  simp

/-- A blob that is stored, and the blobs that were there. -/
theorem storeBlob_blobs {db stored : Database} {id blobId : Uuid} {digest : Bytes}
    {mediaType : Text} {content : Bytes}
    (h : storeBlob db id digest mediaType content = some (stored, blobId)) :
    BlobsKept db stored ∧ (stored.blob? blobId).isSome = true := by
  unfold storeBlob at h
  split at h
  · rename_i blob hfound
    simp only [Option.some.injEq, Prod.mk.injEq] at h
    rw [← h.1, ← h.2]
    refine ⟨fun _ hid => hid, List.find?_isSome.mpr ⟨blob, List.mem_of_find?_eq_some hfound, ?_⟩⟩
    simp
  · split at h
    · simp at h
    · simp only [Option.some.injEq, Prod.mk.injEq] at h
      rw [← h.1, ← h.2]
      refine ⟨?_, ?_⟩
      · intro other hother
        rcases List.find?_isSome.mp hother with ⟨blob, hblob, hcond⟩
        exact List.find?_isSome.mpr ⟨blob, List.mem_append_left _ hblob, hcond⟩
      · refine List.find?_isSome.mpr ⟨_, List.mem_append_right _ (List.mem_singleton.mpr rfl), ?_⟩
        simp

/-! ## The lifecycle tick -/

theorem expireClaim_transfers {db : Database} (hinv : TransferInv db) (now : Timestamp)
    (job : JobRow) :
    TransferInv (expireClaim now db job) ∧ TransfersUpdated db (expireClaim now db job) := by
  unfold expireClaim
  rcases job.currentClaimId with _ | claimId
  · exact hinv.frame rfl (.refl db) fun _ hid => hid
  refine hinv.update rfl ?_ (attemptsKept_updateWhere rfl ?_) ?_ ?_
  · exact fun _ => ⟨rfl, rfl, rfl, rfl, rfl, rfl, rfl, rfl⟩
  · exact fun _ => ⟨rfl, rfl, rfl⟩
  · exact fun _ hid => hid
  · exact fun row hrow _ => hinv.blob row hrow

theorem foldl_expireClaim_transfers {now : Timestamp} (jobs : List JobRow) {db : Database}
    (hinv : TransferInv db) : TransferInv (jobs.foldl (expireClaim now) db)
      ∧ TransfersUpdated db (jobs.foldl (expireClaim now) db) := by
  refine List.foldlRecOn (motive := fun between => TransferInv between ∧ TransfersUpdated db between)
    jobs _ ⟨hinv, .refl db⟩ fun between h job _ => ?_
  rcases expireClaim_transfers h.1 now job with ⟨hnext, hupdated⟩
  exact ⟨hnext, h.2.trans hupdated⟩

theorem maintainLifecycle_transfers {db : Database} (hkeys : Inv db) (hinv : TransferInv db)
    (locked : List Uuid) (now : Timestamp) :
    TransferInv (maintainLifecycle locked db now)
      ∧ TransfersKept db (maintainLifecycle locked db now) := by
  have hkeyed := expireClaims_keyed hkeys locked now
  have hexpired : TransferInv (expireSessions db now) := ⟨hinv.ids, hinv.owner, hinv.declared, hinv.blob⟩
  rcases foldl_expireClaim_transfers (overdueJobs (expireSessions db now) locked now) hexpired with
    ⟨hclaims, hupdated⟩
  unfold maintainLifecycle
  dsimp only
  generalize (overdueJobs (expireSessions db now) locked now).foldl (expireClaim now)
    (expireSessions db now) = db₁ at hkeyed hclaims hupdated ⊢
  have htransfers : TransferInv (expireTransfers (releaseEndedPins (expireQueue db₁ now)) now)
      ∧ TransfersUpdated db₁ (expireTransfers (releaseEndedPins (expireQueue db₁ now)) now) := by
    refine hclaims.update rfl ?_ (.refl db₁) ?_ ?_
    · exact fun _ => ⟨rfl, rfl, rfl, rfl, rfl, rfl, rfl, rfl⟩
    · exact fun _ hid => hid
    · exact fun row hrow _ => hclaims.blob row hrow
  have hlast := expireQueue_keyed hkeyed now
  rcases htransfers with ⟨hinv₂, hupdated₂⟩
  rcases hinv₂.deleteJobs hlast (JobRow.isForgotten _ now) with ⟨hinv₃, hkept⟩
  exact ⟨hinv₃.deleteUnusedBlobs, (hupdated.trans hupdated₂).kept hkept⟩

/-- To the transfers the lifecycle expires some and deletes others. -/
theorem maintainLifecycle_related {r : Database → Database → Prop}
    (htrans : ∀ {a b c}, r a b → r b c → r a c)
    (hsubset : ∀ {db db'}, db'.transfers ⊆ db.transfers → r db db')
    (hexpire : ∀ {db db' cond},
      db'.transfers = updateWhere cond TransferRow.expire db.transfers → r db db')
    (db : Database) (locked : List Uuid) (now : Timestamp) :
    r db (maintainLifecycle locked db now) := by
  have hclaim : ∀ (db : Database) (job : JobRow), r db (expireClaim now db job) := by
    intro db job
    unfold expireClaim
    rcases job.currentClaimId with _ | claimId
    · exact hsubset fun _ hrow => hrow
    · exact hexpire rfl
  have hclaims : ∀ jobs : List JobRow, r (expireSessions db now)
      (jobs.foldl (expireClaim now) (expireSessions db now)) := fun jobs =>
    List.foldlRecOn jobs _ (hsubset fun _ hrow => hrow) fun between h job _ =>
      htrans h (hclaim between job)
  have hsessions : r db (expireSessions db now) := hsubset fun _ hrow => hrow
  have hexpired := htrans hsessions (hclaims (overdueJobs (expireSessions db now) locked now))
  unfold maintainLifecycle
  dsimp only
  generalize (overdueJobs (expireSessions db now) locked now).foldl (expireClaim now)
    (expireSessions db now) = expired at hexpired ⊢
  have htransfers : r expired
      (expireTransfers (releaseEndedPins (expireQueue expired now)) now) := hexpire rfl
  exact htrans (htrans hexpired htransfers) (hsubset fun _ hrow => (List.mem_filter.mp hrow).1)

/-! ## Publications -/

/-- The transfers after an artifact has been published: its own is consumed. -/
theorem publishArtifact_transfers (jobId : Uuid) (db : Database) (entry : StagedArtifact × Uuid) :
    (publishArtifact jobId db entry).transfers
        = updateWhere (fun row => entry.1.transferId = some row.id) TransferRow.consume db.transfers
      ∧ (publishArtifact jobId db entry).attempts = db.attempts
      ∧ (publishArtifact jobId db entry).blobs = db.blobs := by
  unfold publishArtifact
  dsimp only
  split
  · rename_i hnone
    have hsame : updateWhere (fun row => entry.1.transferId = some row.id) TransferRow.consume
        db.transfers = db.transfers :=
      updateWhere_eq_self fun row _ => by simp [hnone]
    rw [hsame]
    split
    · exact ⟨rfl, rfl, rfl⟩
    · exact ⟨rfl, rfl, rfl⟩
  · rename_i transferId hsome
    have hcond : (fun row : TransferRow => decide (entry.1.transferId = some row.id))
        = fun row => decide (row.id = transferId) := by
      funext row
      simp only [hsome, Option.some.injEq, eq_comm]
    rw [hcond]
    split
    · exact ⟨rfl, rfl, rfl⟩
    · exact ⟨rfl, rfl, rfl⟩

theorem publishStagedArtifacts_transfers {db : Database} (hinv : TransferInv db) (jobId : Uuid)
    (staged : List StagedArtifact) (ids : List Uuid) :
    TransferInv (publishStagedArtifacts db jobId staged ids)
      ∧ TransfersUpdated db (publishStagedArtifacts db jobId staged ids) := by
  unfold publishStagedArtifacts
  generalize staged.zip ids = entries
  induction entries generalizing db with
  | nil => exact ⟨hinv, .refl db⟩
  | cons entry entries ih =>
    rcases publishArtifact_transfers jobId db entry with ⟨htransfers, hattempts, hblobs⟩
    have hone : TransferInv (publishArtifact jobId db entry)
        ∧ TransfersUpdated db (publishArtifact jobId db entry) := by
      refine hinv.update htransfers (fun _ => ⟨rfl, rfl, rfl, rfl, rfl, rfl, rfl, rfl⟩) ?_ ?_ ?_
      · intro attempt hattempt
        exact ⟨attempt, by rw [hattempts]; exact hattempt, rfl, rfl, rfl⟩
      · intro id hid
        rw [Database.blob?, hblobs]
        exact hid
      · intro row hrow _ id hid
        rw [Database.blob?, hblobs]
        exact hinv.blob row hrow id hid
    rcases ih hone.1 with ⟨hlast, hupdated⟩
    exact ⟨hlast, hone.2.trans hupdated⟩

theorem publish_transfers (hinv : TransferInv db) {publication : Publication}
    {updated : Bool} (h : publish db publication = some (db', updated)) :
    TransferInv db' ∧ TransfersUpdated db db' := by
  rcases publish_cases h with ⟨_, provisioned, hprovisioned, rfl⟩
  have hprovision : TransferInv provisioned ∧ TransfersUpdated db provisioned := by
    rcases provision_cases hprovisioned with ⟨_, rfl⟩ | ⟨graph, _, _, rfl⟩
    · exact ⟨hinv, .refl _⟩
    · exact hinv.frame rfl (.refl db) fun _ hid => hid
  rcases publishStagedArtifacts_transfers hprovision.1 publication.lease.jobId publication.staged
    publication.artifactIds with ⟨hpublished, hupdated⟩
  exact ⟨⟨hpublished.ids, hpublished.owner, hpublished.declared, hpublished.blob⟩,
    hprovision.2.trans hupdated⟩

/-! ## Steps -/

variable {externals : Externals} {config : ProcessingConfig}

/-- A step keeps the invariant, and each transfer as long as its job. -/
theorem step_transfers {s t : System} {action : Action} (hkeys : Inv s.db) (hinv : TransferInv s.db)
    (h : Step externals config s action t) :
    TransferInv t.db ∧ TransfersKept s.db t.db := by
  have hkept : ∀ {db : Database}, TransferInv db ∧ TransfersUpdated s.db db →
      TransferInv db ∧ TransfersKept s.db db :=
    fun hboth => ⟨hboth.1, hboth.2.toKept⟩
  have hframe : ∀ {db : Database}, db.transfers = s.db.transfers → db.attempts = s.db.attempts →
      db.blobs = s.db.blobs → TransferInv db ∧ TransfersKept s.db db := by
    intro db htransfers hattempts hblobs
    refine hkept (hinv.frame htransfers ?_ ?_)
    · intro attempt hattempt
      exact ⟨attempt, by rw [hattempts]; exact hattempt, rfl, rfl, rfl⟩
    · intro id hid
      rw [Database.blob?, hblobs]
      exact hid
  have heffect := step_effect h
  generalize t.db = db at heffect ⊢
  cases heffect with
  | same | pins | workers | preparationFailed | cancelledWaiting | cancelling | cacheHit
  | leased | rejected => exact hframe rfl rfl rfl
  | inserted command hinsert =>
    rw [(insertJob_cases hinsert).2]
    exact hframe rfl rfl rfl
  | prepared jobId blobId input hjob hstate hstored =>
    rcases storeBlob_cases hstored with ⟨blobs, rfl⟩
    exact hkept (hinv.frame rfl (.refl s.db) (storeBlob_blobs hstored).1)
  | claimed _ draw sessionId contract now hjob hstate hblob hfresh htransfer =>
    refine hkept (hinv.issue rfl htransfer ?_ (fun _ hid => hid) ?_ ?_ ?_)
    · intro attempt hattempt
      exact ⟨attempt, List.mem_append_left _ hattempt, rfl, rfl, rfl⟩
    · exact ⟨_, List.mem_append_right _ (List.mem_singleton.mpr rfl), rfl, rfl, rfl⟩
    · intro hupload
      simp [inputTransfer] at hupload
    · intro id hid
      cases hid
      exact Option.isSome_iff_exists.mpr ⟨_, hblob⟩
  | renewed _ phase now hjob hattempt howner hholds
  | delivered _ now hjob hattempt howner hholds
  | givenUp _ failure now hjob hattempt howner hstate =>
    refine hkept (hinv.frame rfl (attemptsKept_updateWhere rfl ?_) fun _ hid => hid)
    exact fun _ => ⟨rfl, rfl, rfl⟩
  | @issued job attempt _ id token request now hjob hattempt howner hclaim hholds hfresh =>
    have hsame : ∀ row : TransferRow, SameTransfer row row.expire :=
      fun _ => ⟨rfl, rfl, rfl, rfl, rfl, rfl, rfl, rfl⟩
    -- the stale transfers expire first
    have hcleared : TransferInv (s.db.updateTransfers
          (TransferRow.isStaleUploadOf attempt.id request.role now) TransferRow.expire)
        ∧ TransfersUpdated s.db _ :=
      hinv.update rfl hsame (.refl s.db) (fun _ hid => hid) fun row hrow _ => hinv.blob row hrow
    have hids : ∀ row ∈ (s.db.updateTransfers
        (TransferRow.isStaleUploadOf attempt.id request.role now) TransferRow.expire).transfers,
        row.id ≠ id := by
      intro row hrow
      rcases mem_updateWhere.mp hrow with ⟨old, hold, ⟨_, rfl⟩ | ⟨_, rfl⟩⟩
      · exact hfresh old hold
      · exact hfresh _ hold
    have hblobless : ∀ blobId ∈ (artifactTransfer config externals.sha256 id token request attempt
        now).blobId, (s.db.blob? blobId).isSome = true := by
      intro _ hid
      simp [artifactTransfer] at hid
    have hupdated : ∀ {db : Database}, TransferInv db ∧ TransfersUpdated _ db →
        TransferInv db ∧ TransfersKept s.db db :=
      fun hboth => ⟨hboth.1, (hcleared.2.trans hboth.2).toKept⟩
    exact hupdated (hcleared.1.issue rfl hids (.refl _) (fun _ hid => hid)
      ⟨attempt, hattempt, rfl, hclaim, rfl⟩ (fun _ => ⟨rfl, rfl, rfl⟩) hblobless)
  | read _ now hlive hdownload =>
    refine hkept (hinv.update rfl ?_ (.refl s.db) (fun _ hid => hid) ?_)
    · exact fun _ => ⟨rfl, rfl, rfl, rfl, rfl, rfl, rfl, rfl⟩
    · exact fun row hrow _ => hinv.blob row hrow
  | stored _ blobId upload hupload hstored =>
    rcases storeBlob_cases hstored with ⟨blobs, rfl⟩
    refine hkept (hinv.update rfl ?_ (.refl s.db) (storeBlob_blobs hstored).1 ?_)
    · exact fun _ => ⟨rfl, rfl, rfl, rfl, rfl, rfl, rfl, rfl⟩
    · intro row hrow _ id hid
      cases hid
      exact (storeBlob_blobs hstored).2
  | tick locked now => exact maintainLifecycle_transfers hkeys hinv locked now
  | published finalizer publication hfinalizer hpublish =>
    exact hkept (publish_transfers hinv hpublish)
  | deletedJobs gone => exact hinv.deleteJobs hkeys.keyed _
  | deletedProject projectId =>
    rcases hinv.deleteJobs hkeys.keyed fun job => job.projectId = some projectId with
      ⟨hlast, hdeleted⟩
    refine ⟨⟨hlast.ids, hlast.owner, hlast.declared, hlast.blob⟩, ?_⟩
    intro transfer htransfer
    rcases hdeleted transfer htransfer with hthere | hgone
    · exact .inl hthere
    refine .inr ?_
    intro job' hjob' hid
    rcases mem_updateWhere.mp hjob' with ⟨job, hjob, ⟨_, heq⟩ | ⟨_, heq⟩⟩
    · exact hgone job hjob (by rw [← hid, heq])
    · exact hgone job hjob (by rw [← hid, heq])

theorem initial_transferInv : TransferInv ({} : System).db where
  ids := List.nodup_nil
  owner _ h := absurd h List.not_mem_nil
  declared _ h := absurd h List.not_mem_nil
  blob _ h := absurd h List.not_mem_nil

end Toss.Processing
