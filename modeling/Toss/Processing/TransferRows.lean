import Toss.Processing.TransferRequests

/-!
# Transfers under other calls

Calls that are no requests on a transfer leave its row alone, or end it: it expires or is consumed.
The rows that they insert are those of the transfers that they issue. The blob that a transfer
names stays the one it is.

* `Settles` — a row and what other calls leave of it;
* `TransferOrigin`, `step_origins` — where the rows after a call come from;
* `SameBlobs`, `step_blobs` — a blob that is there before and after a call is the same.
-/

namespace Toss.Processing

open Toss.Foundation

/-- A row of transfers after other calls. -/
structure Settles (old row : TransferRow) : Prop where
  same : row = { old with state := row.state }
  state : row.state = old.state ∨ row.state = .expired ∨ row.state = .consumed

theorem Settles.refl (row : TransferRow) : Settles row row := ⟨rfl, .inl rfl⟩

theorem Settles.trans {a b c : TransferRow} (hab : Settles a b) (hbc : Settles b c) :
    Settles a c := by
  constructor
  · have hsame := hbc.same
    rw [hab.same] at hsame
    exact hsame
  · rcases hbc.state with hstate | hended
    · rw [hstate]
      exact hab.state
    · exact .inr hended

theorem Settles.expire (row : TransferRow) : Settles row row.expire := ⟨rfl, .inr (.inl rfl)⟩

theorem Settles.consume (row : TransferRow) : Settles row row.consume := ⟨rfl, .inr (.inr rfl)⟩

/-- Every row comes from one that was there. -/
def SettledFrom (db db' : Database) : Prop :=
  ∀ row ∈ db'.transfers, ∃ old ∈ db.transfers, Settles old row

variable {a b c db db' : Database}

namespace SettledFrom

theorem of_subset (hsub : db'.transfers ⊆ db.transfers) : SettledFrom db db' :=
  fun row hrow => ⟨row, hsub hrow, .refl row⟩

theorem trans (hab : SettledFrom a b) (hbc : SettledFrom b c) : SettledFrom a c := by
  intro row hrow
  rcases hbc row hrow with ⟨between, hbetween, hlast⟩
  rcases hab between hbetween with ⟨old, hold, hfirst⟩
  exact ⟨old, hold, hfirst.trans hlast⟩

theorem of_update {cond : TransferRow → Bool} {set : TransferRow → TransferRow}
    (htransfers : db'.transfers = updateWhere cond set db.transfers)
    (hset : ∀ row, Settles row (set row)) : SettledFrom db db' := by
  intro row hrow
  rw [htransfers] at hrow
  rcases mem_updateWhere.mp hrow with ⟨old, hold, ⟨_, rfl⟩ | ⟨_, rfl⟩⟩
  · exact ⟨old, hold, hset old⟩
  · exact ⟨row, hold, .refl row⟩

end SettledFrom

theorem maintainLifecycle_settled (db : Database) (locked : List Uuid) (now : Timestamp) :
    SettledFrom db (maintainLifecycle locked db now) := by
  refine maintainLifecycle_related (r := SettledFrom) ?_ ?_ ?_ db locked now
  · exact SettledFrom.trans
  · exact fun hsubset => .of_subset hsubset
  · exact fun hrows => .of_update hrows Settles.expire

theorem publish_settled {publication : Publication} {updated : Bool}
    (h : publish db publication = some (db', updated)) : SettledFrom db db' := by
  have hpublished : ∀ (entries : List (StagedArtifact × Uuid)) (db : Database),
      SettledFrom db (entries.foldl (publishArtifact publication.lease.jobId) db) := fun entries _ =>
    List.foldlRecOn entries _ (.of_subset fun _ hrow => hrow) fun between h entry _ =>
      h.trans (.of_update (publishArtifact_transfers publication.lease.jobId between entry).1
        Settles.consume)
  rcases publish_cases h with ⟨_, provisioned, hprovisioned, rfl⟩
  have hsame : SettledFrom db provisioned := by
    rcases provision_cases hprovisioned with ⟨_, rfl⟩ | ⟨graph, _, _, rfl⟩
    · exact .of_subset fun _ hrow => hrow
    · exact .of_subset fun _ hrow => hrow
  exact hsame.trans (hpublished (publication.staged.zip publication.artifactIds) provisioned)

/-! ## Issued transfers -/

/-- Where a row after another call comes from. -/
inductive TransferOrigin (config : ProcessingConfig) (sha256 : Bytes → Bytes) (db : Database)
    (row : TransferRow) : Prop
  | settled {old : TransferRow} (hold : old ∈ db.transfers) (hsettles : Settles old row)
  | input {blob : BlobRow} (draw : ClaimDraw) (job : JobRow) (now : Timestamp)
      (hfresh : ∀ other ∈ db.transfers, other.id ≠ row.id)
      (hrow : row = inputTransfer config sha256 draw job blob now)
  | artifact (id : Uuid) (token : Bytes) (request : ArtifactTransferRequest)
      (attempt : AttemptRow) (now : Timestamp)
      (hfresh : ∀ other ∈ db.transfers, other.id ≠ row.id)
      (hrow : row = artifactTransfer config sha256 id token request attempt now)

variable {externals : Externals} {config : ProcessingConfig}

theorem step_origins {s t : System} {action : Action} (h : Step externals config s action t)
    (haction : action.isTransferRequest = false) :
    ∀ row ∈ t.db.transfers, TransferOrigin config externals.sha256 s.db row := by
  have hsettled : ∀ {db : Database}, SettledFrom s.db db →
      ∀ row ∈ db.transfers, TransferOrigin config externals.sha256 s.db row := by
    intro db hfrom row hrow
    rcases hfrom row hrow with ⟨old, hold, hsettles⟩
    exact .settled hold hsettles
  have hsame : ∀ row ∈ s.db.transfers, TransferOrigin config externals.sha256 s.db row :=
    hsettled (.of_subset fun _ hrow => hrow)
  have heffect := step_effect h
  generalize t.db = db at heffect ⊢
  cases heffect with
  | inserted command hinsert =>
    rw [(insertJob_cases hinsert).2]
    exact hsame
  | prepared jobId blobId input _ _ hstored =>
    rcases storeBlob_cases hstored with ⟨blobs, rfl⟩
    exact hsame
  | @claimed job _ _ draw _ _ now _ _ _ _ hfresh =>
    -- a claim issues the transfer of its input
    intro row hrow
    rcases List.mem_append.mp hrow with hold | hnew
    · exact hsame row hold
    · rcases List.mem_singleton.mp hnew with rfl
      exact .input draw job now hfresh rfl
  | @issued _ attempt _ id token request now _ _ _ _ _ hfresh =>
    -- a worker asks for one, and those it replaces expire
    intro row hrow
    rcases List.mem_append.mp hrow with hkept | hnew
    · rcases mem_updateWhere.mp hkept with ⟨old, hold, ⟨_, rfl⟩ | ⟨_, rfl⟩⟩
      · exact .settled hold (.expire old)
      · exact hsame row hold
    · rcases List.mem_singleton.mp hnew with rfl
      exact .artifact id token request attempt now hfresh rfl
  | read _ _ _ _ hread =>
    rcases hread with ⟨_, rfl⟩
    cases haction
  | stored _ _ _ _ _ hstored =>
    rcases hstored with ⟨_, rfl⟩
    cases haction
  | tick locked now => exact hsettled (maintainLifecycle_settled s.db locked now)
  | published finalizer publication _ hpublish => exact hsettled (publish_settled hpublish)
  | deletedJobs gone => exact hsettled (.of_subset fun _ hrow => (List.mem_filter.mp hrow).1)
  | deletedProject projectId =>
    exact hsettled (.of_subset fun _ hrow => (List.mem_filter.mp hrow).1)
  | _ => exact hsame

/-! ## Blobs -/

/-- Blobs that are there before and after are the same, and keys stay unique. -/
structure SameBlobs (db db' : Database) : Prop where
  same : ∀ id blob blob', db.blob? id = some blob → db'.blob? id = some blob' → blob' = blob
  keys : (db.blobs.map BlobRow.id).Nodup → (db'.blobs.map BlobRow.id).Nodup

namespace SameBlobs

theorem of_blobs (h : db'.blobs = db.blobs) : SameBlobs db db' := by
  constructor
  · intro id blob blob' hblob hblob'
    rw [Database.blob?, h] at hblob'
    exact Option.some.inj (hblob'.symm.trans hblob)
  · rw [h]
    exact fun hkeys => hkeys

theorem congr (h : SameBlobs a b) (heq : c.blobs = b.blobs) : SameBlobs a c := by
  constructor
  · intro id blob blob' hblob hblob'
    rw [Database.blob?, heq] at hblob'
    exact h.same id blob blob' hblob hblob'
  · rw [heq]
    exact h.keys

theorem of_store {stored : Database} {id blobId : Uuid} {digest : Bytes} {mediaType : Text}
    {content : Bytes} (h : storeBlob db id digest mediaType content = some (stored, blobId)) :
    SameBlobs db stored := by
  unfold storeBlob at h
  split at h
  · simp only [Option.some.injEq, Prod.mk.injEq] at h
    rw [← h.1]
    exact .of_blobs rfl
  split at h
  · cases h
  rename_i hfresh
  simp only [Option.some.injEq, Prod.mk.injEq] at h
  rw [← h.1]
  constructor
  · intro other blob blob' hblob hblob'
    have hfound : db.blobs.find? (fun blob => blob.id = other) = some blob := hblob
    rw [Database.blob?, List.find?_append, hfound] at hblob'
    exact (Option.some.inj hblob').symm
  · intro hkeys
    rw [List.map_append, List.nodup_append]
    refine ⟨hkeys, List.nodup_singleton _, ?_⟩
    intro key hkey key' hkey' heq
    rcases List.mem_map.mp hkey with ⟨blob, hblob, rfl⟩
    refine hfresh (List.find?_isSome.mpr ⟨blob, hblob, decide_eq_true ?_⟩)
    exact heq.trans (List.mem_singleton.mp hkey')

theorem deleteUnused (h : db.blobs = a.blobs) : SameBlobs a (deleteUnusedBlobs db) := by
  constructor
  · intro id blob blob' hblob hblob'
    have hid : blob'.id = id := by simpa using List.find?_some hblob'
    -- whether a blob is in use is asked of its key
    have hused := (List.mem_filter.mp (List.mem_of_find?_eq_some hblob')).2
    have hsame : (deleteUnusedBlobs db).blob? id = db.blob? id := by
      simp only [Database.blob?, deleteUnusedBlobs, List.find?_filter]
      refine congrArg (fun lookup => db.blobs.find? lookup) (funext fun other => ?_)
      by_cases hother : other.id = id
      · rw [hid] at hused
        rw [hother, hused]
        simp
      · simp [hother]
    rw [hsame, Database.blob?, h] at hblob'
    exact Option.some.inj (hblob'.symm.trans hblob)
  · intro hkeys
    refine List.Nodup.sublist (List.filter_sublist.map _) ?_
    rw [h]
    exact hkeys

end SameBlobs

theorem foldl_expireClaim_blobs {now : Timestamp} (jobs : List JobRow) (db : Database) :
    (jobs.foldl (expireClaim now) db).blobs = db.blobs := by
  induction jobs generalizing db with
  | nil => rfl
  | cons job jobs ih =>
    rw [List.foldl_cons, ih, expireClaim]
    cases job.currentClaimId <;> rfl

theorem maintainLifecycle_blobs (db : Database) (locked : List Uuid) (now : Timestamp) :
    SameBlobs db (maintainLifecycle locked db now) := by
  have hclaims : ((overdueJobs (expireSessions db now) locked now).foldl (expireClaim now)
      (expireSessions db now)).blobs = db.blobs := foldl_expireClaim_blobs _ _
  unfold maintainLifecycle
  dsimp only
  generalize (overdueJobs (expireSessions db now) locked now).foldl (expireClaim now)
    (expireSessions db now) = expired at hclaims ⊢
  exact .deleteUnused hclaims

theorem step_blobs {s t : System} {action : Action} (h : Step externals config s action t) :
    SameBlobs s.db t.db := by
  have heffect := step_effect h
  generalize t.db = db at heffect ⊢
  cases heffect with
  | inserted command hinsert =>
    rw [(insertJob_cases hinsert).2]
    exact .of_blobs rfl
  | prepared jobId blobId input hjob hstate hstored | stored _ blobId upload hupload hstored =>
    exact (SameBlobs.of_store hstored).congr rfl
  | tick locked now => exact maintainLifecycle_blobs s.db locked now
  | published finalizer publication hfinalizer hpublish =>
    exact .of_blobs (publish_frame hpublish).2.2.1
  | _ => exact .of_blobs rfl

end Toss.Processing
