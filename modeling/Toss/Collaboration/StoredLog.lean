import Toss.Collaboration.Operations

/-!
# The stored log of a document identity

The two tables, read at one identity, are a `CompactedLog`: the latest snapshot
with its watermark and the update rows that are still there. This module says
what each statement does to that log and to the invariant the tables keep.

* `WellFormed` — the invariant of the tables;
* `Tracks` — the invariant of one bootstrapped identity;
* `Keeps` — a move of the database that keeps both and takes the log of the
  identity through moves of the abstract log.
-/

namespace Toss.Collaboration

open Toss.Foundation Toss.Workspace

/-! ## Identities -/

theorem CollaborationDocument.eq_of_revision {a b : CollaborationDocument}
    (hrevision : a.revision = b.revision) (hepoch : a.contentEpoch = b.contentEpoch) :
    a = b := by
  cases a
  cases b
  simp_all [revision]

/-- The document at this revision and epoch is the one the workspace holds. -/
def CollaborationDocument.IsCurrent (tables : WorkspaceTables) (document : CollaborationDocument) :
    Prop :=
  projectContentEpoch tables document.projectId = some document.contentEpoch
    ∧ lockProjectCollaborationDocument tables document.projectId document.documentId
        document.collaborationRevision = true

theorem CollaborationDocument.IsCurrent.of_sameIdentities {tables tables' : WorkspaceTables}
    {document : CollaborationDocument} (h : document.IsCurrent tables)
    (hsame : SameIdentities tables tables') : document.IsCurrent tables' :=
  ⟨(hsame.epochs _).trans h.1, (hsame.lock_eq _ _ _).trans h.2⟩

/-- At one revision there is only one current document. -/
theorem CollaborationDocument.IsCurrent.eq_of_revision {tables : WorkspaceTables}
    {a b : CollaborationDocument} (ha : a.IsCurrent tables) (hb : b.IsCurrent tables)
    (hrevision : a.revision = b.revision) : a = b := by
  refine CollaborationDocument.eq_of_revision hrevision ?_
  have hproject : a.projectId = b.projectId := congrArg Prod.fst hrevision
  have hepoch := ha.1
  rw [hproject, hb.1] at hepoch
  simpa using hepoch.symm

/-! ## The tables' invariant -/

section

variable {State : Type} (yjs : YjsLibrary State)

/-- What holds of the tables whatever the operations did so far. -/
structure WellFormed (db : CollaborationDb) : Prop where
  /-- `documents` is keyed by its id. -/
  documentKeys : (db.workspace.documents.map DocumentRow.id).Nodup
  nextPositive : 0 < db.nextUpdateId
  updateIds : ∀ row ∈ db.updates, row.id < db.nextUpdateId
  updatePayloads : ∀ row ∈ db.updates, Valid yjs row.payload
  snapshotKeys : (db.snapshots.map fun row => row.document.revision).Nodup
  snapshotIds : ∀ row ∈ db.snapshots, row.uptoUpdateId < db.nextUpdateId
  snapshotPayloads : ∀ row ∈ db.snapshots, Valid yjs row.stateUpdate
  /-- No snapshot is of a content generation that is still to come. -/
  snapshotEpochs : ∀ row ∈ db.snapshots, ∀ epoch,
    projectContentEpoch db.workspace row.document.projectId = some epoch →
      row.document.contentEpoch ≤ epoch

/-- The invariant of a document identity once it was bootstrapped. -/
structure Tracks (document : CollaborationDocument) (db : CollaborationDb) : Prop where
  wellFormed : WellFormed yjs db
  current : document.IsCurrent db.workspace
  bootstrapped : (latestSnapshot db document).isSome

end

section

variable {State : Type} {yjs : YjsLibrary State} {db : CollaborationDb}

variable {row : SnapshotRow} {uptoUpdateId : Int}

theorem latestSnapshot_mem {document : CollaborationDocument}
    (h : latestSnapshot db document = some row) : row ∈ db.snapshots ∧ row.document = document :=
  ⟨List.mem_of_find?_eq_some h, by simpa using List.find?_some h⟩

section

variable (hwf : WellFormed yjs db)
include hwf

/-- Two stored snapshots of one revision are the same row. -/
theorem WellFormed.snapshot_eq {a b : SnapshotRow} (ha : a ∈ db.snapshots) (hb : b ∈ db.snapshots)
    (hsame : a.document.revision = b.document.revision) : a = b :=
  List.inj_on_of_nodup_map hwf.snapshotKeys ha hb hsame

/-- The latest snapshot of an identity is the only one. -/
theorem WellFormed.latestSnapshot_eq (hmem : row ∈ db.snapshots)
    : latestSnapshot db row.document = some row := by
  have hsome : (latestSnapshot db row.document).isSome := by
    rw [latestSnapshot, List.find?_isSome]
    exact ⟨row, hmem, by simp⟩
  obtain ⟨found, hfound⟩ := Option.isSome_iff_exists.mp hsome
  obtain ⟨hfoundMem, hdocument⟩ := latestSnapshot_mem hfound
  rw [hfound, hwf.snapshot_eq hfoundMem hmem (by rw [hdocument])]

theorem WellFormed.watermark_eq (hmem : row ∈ db.snapshots)
    : watermark db row.document = row.uptoUpdateId := by
  simp only [watermark, hwf.latestSnapshot_eq hmem]

theorem WellFormed.watermark_lt (document : CollaborationDocument) :
    watermark db document < db.nextUpdateId := by
  cases h : latestSnapshot db document with
  | none => simpa only [watermark, h] using hwf.nextPositive
  | some row => simpa only [watermark, h] using hwf.snapshotIds row (latestSnapshot_mem h).1

theorem WellFormed.le_watermark_of_isCovered {document : CollaborationDocument} {cutoff : Int}
    (h : isCovered db document cutoff = true) : cutoff ≤ watermark db document := by
  simp only [isCovered, List.any_eq_true, decide_eq_true_eq] at h
  obtain ⟨snapshot, hmem, rfl, hcutoff⟩ := h
  rwa [hwf.watermark_eq hmem]

theorem WellFormed.workspace {tables : WorkspaceTables}
    (hsame : SameIdentities db.workspace tables) :
    WellFormed yjs { db with workspace := tables } := by
  have hids : tables.documents.map DocumentRow.id
      = db.workspace.documents.map DocumentRow.id := by
    have := congrArg (List.map fun identity : Uuid × Uuid × Int => identity.2.1) hsame.documents
    simpa [Function.comp_def, DocumentRow.identity] using this
  exact
    { hwf with
      documentKeys := hids ▸ hwf.documentKeys
      snapshotEpochs := fun row hrow epoch hepoch =>
        hwf.snapshotEpochs row hrow epoch ((hsame.epochs _).symm.trans hepoch) }

theorem WellFormed.filter (keepUpdate : UpdateRow → Bool) (keepSnapshot : SnapshotRow → Bool) :
    WellFormed yjs
      { db with
        updates := db.updates.filter keepUpdate
        snapshots := db.snapshots.filter keepSnapshot } where
  documentKeys := hwf.documentKeys
  nextPositive := hwf.nextPositive
  updateIds := fun row hrow => hwf.updateIds row (List.mem_of_mem_filter hrow)
  updatePayloads := fun row hrow => hwf.updatePayloads row (List.mem_of_mem_filter hrow)
  snapshotKeys := hwf.snapshotKeys.sublist (List.filter_sublist.map _)
  snapshotIds := fun row hrow => hwf.snapshotIds row (List.mem_of_mem_filter hrow)
  snapshotPayloads := fun row hrow => hwf.snapshotPayloads row (List.mem_of_mem_filter hrow)
  snapshotEpochs := fun row hrow => hwf.snapshotEpochs row (List.mem_of_mem_filter hrow)

theorem WellFormed.insertUpdate {write : CollaborationUpdateWrite}
    (hvalid : Valid yjs write.payload) : WellFormed yjs (insertUpdate db write).1 where
  documentKeys := hwf.documentKeys
  nextPositive := hwf.nextPositive.trans (Int.lt_succ _)
  updateIds := by
    intro row hrow
    rcases List.mem_append.mp hrow with hrow | hrow
    · exact (hwf.updateIds row hrow).trans (Int.lt_succ _)
    · obtain rfl := List.mem_singleton.mp hrow
      exact Int.lt_succ _
  updatePayloads := by
    intro row hrow
    rcases List.mem_append.mp hrow with hrow | hrow
    · exact hwf.updatePayloads row hrow
    · obtain rfl := List.mem_singleton.mp hrow
      exact hvalid
  snapshotKeys := hwf.snapshotKeys
  snapshotIds := fun row hrow => (hwf.snapshotIds row hrow).trans (Int.lt_succ _)
  snapshotPayloads := hwf.snapshotPayloads
  snapshotEpochs := hwf.snapshotEpochs

end

/-! ## Pruning -/

section

variable (self : CollaborationPersistence)

/-- A pruning deletes rows of `collab_doc_updates` and nothing else. -/
theorem pruneUpdates_eq (db : CollaborationDb)
    (document : CollaborationDocument) (latestUpdateId : Int) :
    ∃ updates, pruneUpdates self db document latestUpdateId = { db with updates := updates } := by
  unfold pruneUpdates
  lift_lets
  intro cutoff
  split
  · exact ⟨db.updates, rfl⟩
  · exact ⟨_, rfl⟩

@[simp] theorem pruneUpdates_workspace (document : CollaborationDocument) (latestUpdateId : Int) :
    (pruneUpdates self db document latestUpdateId).workspace = db.workspace := by
  obtain ⟨updates, heq⟩ := pruneUpdates_eq self db document latestUpdateId
  rw [heq]

theorem pruneUpdates_latestSnapshot (document other : CollaborationDocument) (latestUpdateId : Int)
    :
    latestSnapshot (pruneUpdates self db document latestUpdateId) other
      = latestSnapshot db other := by
  obtain ⟨updates, heq⟩ := pruneUpdates_eq self db document latestUpdateId
  rw [heq]
  rfl

theorem pruneUpdates_watermark (document other : CollaborationDocument) (latestUpdateId : Int) :
    watermark (pruneUpdates self db document latestUpdateId) other = watermark db other := by
  rw [watermark, pruneUpdates_latestSnapshot, watermark]

@[simp] theorem pruneUpdates_nextUpdateId (document : CollaborationDocument) (latestUpdateId : Int)
    :
    (pruneUpdates self db document latestUpdateId).nextUpdateId = db.nextUpdateId := by
  obtain ⟨updates, heq⟩ := pruneUpdates_eq self db document latestUpdateId
  rw [heq]

end

/-- A row that a pruning deletes lies below the watermark of its identity. -/
theorem WellFormed.lt_watermark_of_pruned (hwf : WellFormed yjs db)
    {self : CollaborationPersistence} {document : CollaborationDocument} {latestUpdateId : Int}
    {row : UpdateRow} (hmem : row ∈ db.updates)
    (hgone : row ∉ (pruneUpdates self db document latestUpdateId).updates) :
    row.id < watermark db row.document := by
  simp only [pruneUpdates] at hgone
  split at hgone
  · exact absurd hmem hgone
  simp only [List.mem_filter, hmem, true_and, Bool.not_eq_true', Bool.not_eq_false, isPrunable,
    Bool.and_eq_true, decide_eq_true_eq] at hgone
  obtain ⟨⟨rfl, hid⟩, hcovered⟩ := hgone
  exact hid.trans_le (hwf.le_watermark_of_isCovered hcovered)

theorem WellFormed.pruneUpdates (hwf : WellFormed yjs db) (self : CollaborationPersistence)
    (document : CollaborationDocument) (latestUpdateId : Int) :
    WellFormed yjs (pruneUpdates self db document latestUpdateId) := by
  simp only [Collaboration.pruneUpdates]
  split
  · exact hwf
  exact
    { hwf with
      updateIds := fun row hrow => hwf.updateIds row (List.mem_of_mem_filter hrow)
      updatePayloads := fun row hrow => hwf.updatePayloads row (List.mem_of_mem_filter hrow) }

/-! ## The snapshot upsert -/

/-- The upsert stores its row when every stored row of the revision gives way. -/
theorem latestSnapshot_upsertSnapshot {document : CollaborationDocument} {stateUpdate : Bytes}
    (hgives : ∀ row ∈ db.snapshots, row.document.revision = document.revision →
      row.givesWayTo { document, uptoUpdateId, stateUpdate } = true) :
    latestSnapshot (upsertSnapshot db document uptoUpdateId stateUpdate) document
      = some { document, uptoUpdateId, stateUpdate } := by
  unfold upsertSnapshot
  lift_lets
  intro excluded
  split
  · -- on conflict: the row of the revision is replaced
    rename_i hany
    have hsome : (latestSnapshot
        { db with
          snapshots := updateWhere
            (fun stored => stored.document.revision = document.revision
              && stored.givesWayTo excluded)
            (fun _ => excluded) db.snapshots } document).isSome := by
      obtain ⟨row, hrow, hrevision⟩ := List.any_eq_true.mp hany
      rw [latestSnapshot, List.find?_isSome]
      refine ⟨excluded, mem_updateWhere.mpr ⟨row, hrow, .inl ⟨?_, rfl⟩⟩, by simp [excluded]⟩
      simp [of_decide_eq_true hrevision, hgives row hrow (of_decide_eq_true hrevision), excluded]
    obtain ⟨found, hfound⟩ := Option.isSome_iff_exists.mp hsome
    obtain ⟨hmem, hdocument⟩ := latestSnapshot_mem hfound
    rw [hfound]
    obtain ⟨old, hold, ⟨-, rfl⟩ | ⟨hkept, rfl⟩⟩ := mem_updateWhere.mp hmem
    · rfl
    · have := hgives _ hold (by rw [hdocument])
      simp [hdocument, excluded, this] at hkept
  · -- no row of the revision: a new one is stored
    rename_i hany
    have hnone : db.snapshots.find? (·.document = document) = none := by
      rw [List.find?_eq_none]
      intro row hrow hdocument
      refine hany (List.any_eq_true.mpr ⟨row, hrow, ?_⟩)
      simp [of_decide_eq_true hdocument]
    simp [latestSnapshot, List.find?_append, hnone, excluded]

theorem latestSnapshot_upsertSnapshot_of_ne {document other : CollaborationDocument}
    (hne : document.revision ≠ other.revision) (uptoUpdateId : Int) (stateUpdate : Bytes) :
    latestSnapshot (upsertSnapshot db other uptoUpdateId stateUpdate) document
      = latestSnapshot db document := by
  have hdocument : other ≠ document := fun h => hne (by rw [h])
  unfold upsertSnapshot
  split
  · refine find?_updateWhere_of_frame (fun row hcond => ?_) _
    have hrevision : row.document.revision = other.revision := by
      simp only [Bool.and_eq_true, decide_eq_true_eq] at hcond
      exact hcond.1
    refine ⟨decide_eq_false fun hrow => ?_, decide_eq_false hdocument⟩
    exact hne (hrow ▸ hrevision)
  · simp [latestSnapshot, List.find?_append, hdocument]

section

variable (document : CollaborationDocument) (uptoUpdateId : Int) (stateUpdate : Bytes)

@[simp] theorem upsertSnapshot_workspace :
    (upsertSnapshot db document uptoUpdateId stateUpdate).workspace = db.workspace := by
  unfold upsertSnapshot
  split <;> rfl

@[simp] theorem upsertSnapshot_updates :
    (upsertSnapshot db document uptoUpdateId stateUpdate).updates = db.updates := by
  unfold upsertSnapshot
  split <;> rfl

@[simp] theorem upsertSnapshot_nextUpdateId :
    (upsertSnapshot db document uptoUpdateId stateUpdate).nextUpdateId = db.nextUpdateId := by
  unfold upsertSnapshot
  split <;> rfl

end

theorem mem_upsertSnapshot {document : CollaborationDocument} {stateUpdate : Bytes}
    (hrow : row ∈ (upsertSnapshot db document uptoUpdateId stateUpdate).snapshots) :
    row ∈ db.snapshots ∨ row = { document, uptoUpdateId, stateUpdate } := by
  unfold upsertSnapshot at hrow
  split at hrow
  · obtain ⟨old, hold, ⟨-, rfl⟩ | ⟨-, rfl⟩⟩ := mem_updateWhere.mp hrow
    · exact .inr rfl
    · exact .inl hold
  · rcases List.mem_append.mp hrow with hrow | hrow
    · exact .inl hrow
    · exact .inr (List.mem_singleton.mp hrow)

/-- The upsert keeps the primary key of the snapshot table. -/
theorem upsertSnapshot_keys (hkeys : (db.snapshots.map fun row => row.document.revision).Nodup)
    (document : CollaborationDocument) (uptoUpdateId : Int) (stateUpdate : Bytes) :
    ((upsertSnapshot db document uptoUpdateId stateUpdate).snapshots.map
      fun row => row.document.revision).Nodup := by
  unfold upsertSnapshot
  split
  · rw [map_updateWhere]
    · exact hkeys
    · intro row hcond
      simp only [Bool.and_eq_true, decide_eq_true_eq] at hcond
      exact hcond.1.symm
  · rename_i hany
    simp only [List.map_append, List.map_cons, List.map_nil]
    refine List.Nodup.append hkeys (List.nodup_singleton _) ?_
    intro key hkey hnew
    obtain ⟨row, hrow, rfl⟩ := List.mem_map.mp hkey
    refine hany (List.any_eq_true.mpr ⟨row, hrow, ?_⟩)
    simpa using hnew

theorem WellFormed.upsertSnapshot (hwf : WellFormed yjs db) {document : CollaborationDocument}
    (hcurrent : document.IsCurrent db.workspace) {stateUpdate : Bytes}
    (hupto : uptoUpdateId < db.nextUpdateId) (hvalid : Valid yjs stateUpdate) :
    WellFormed yjs (upsertSnapshot db document uptoUpdateId stateUpdate) where
  documentKeys := by simpa using hwf.documentKeys
  nextPositive := by simpa using hwf.nextPositive
  updateIds := by simpa using hwf.updateIds
  updatePayloads := by simpa using hwf.updatePayloads
  snapshotKeys := upsertSnapshot_keys hwf.snapshotKeys _ _ _
  snapshotIds := by
    intro row hrow
    rw [upsertSnapshot_nextUpdateId]
    rcases mem_upsertSnapshot hrow with hrow | rfl
    · exact hwf.snapshotIds row hrow
    · exact hupto
  snapshotPayloads := by
    intro row hrow
    rcases mem_upsertSnapshot hrow with hrow | rfl
    · exact hwf.snapshotPayloads row hrow
    · exact hvalid
  snapshotEpochs := by
    intro row hrow epoch hepoch
    rw [upsertSnapshot_workspace] at hepoch
    rcases mem_upsertSnapshot hrow with hrow | rfl
    · exact hwf.snapshotEpochs row hrow epoch hepoch
    · rw [hcurrent.1] at hepoch
      exact (Option.some.inj hepoch).le

/-- A stored snapshot gives way to one of the current document at a watermark
that is not lower than the stored one. -/
theorem WellFormed.givesWayTo (hwf : WellFormed yjs db) {document : CollaborationDocument}
    (hcurrent : document.IsCurrent db.workspace)
    (hupto : watermark db document ≤ uptoUpdateId) (stateUpdate : Bytes) :
    ∀ row ∈ db.snapshots, row.document.revision = document.revision →
      row.givesWayTo { document, uptoUpdateId, stateUpdate } = true := by
  intro row hrow hrevision
  have hproject : row.document.projectId = document.projectId := congrArg Prod.fst hrevision
  have hepoch : row.document.contentEpoch ≤ document.contentEpoch :=
    hwf.snapshotEpochs row hrow _ (hproject ▸ hcurrent.1)
  simp only [SnapshotRow.givesWayTo, decide_eq_true_eq]
  rcases hepoch.lt_or_eq with hlt | heq
  · exact .inl hlt
  · obtain rfl := CollaborationDocument.eq_of_revision hrevision heq
    exact .inr ⟨rfl, hwf.watermark_eq hrow ▸ hupto⟩

/-! ## What `load_state` reads -/

theorem mem_pendingRows {document : CollaborationDocument} {row : UpdateRow} :
    row ∈ pendingRows db document
      ↔ row ∈ db.updates ∧ row.document = document ∧ watermark db document < row.id := by
  simp [pendingRows, mem_orderBy]

theorem foldl_loadRow_snapshotPayload (rows : List UpdateRow) (state : BootstrapState) :
    (rows.foldl loadRow state).snapshotPayload = state.snapshotPayload := by
  induction rows generalizing state with
  | nil => rfl
  | cons row rows ih => exact ih (loadRow state row)

theorem foldl_loadRow_updates (rows : List UpdateRow) (state : BootstrapState) :
    (rows.foldl loadRow state).updates
      = state.updates ++ rows.map fun row => (row.kind, row.payload) := by
  induction rows generalizing state with
  | nil => simp
  | cons row rows ih =>
    rw [List.foldl_cons, ih (loadRow state row)]
    simp [loadRow]

/-- The loaded watermark is the last row's id, or the snapshot's without rows. -/
theorem foldl_loadRow_upto (rows : List UpdateRow) (state : BootstrapState) :
    (rows.foldl loadRow state).uptoUpdateId
      = (rows.getLast?.map UpdateRow.id).getD state.uptoUpdateId := by
  induction rows generalizing state with
  | nil => rfl
  | cons row rows ih =>
    rw [List.foldl_cons, ih (loadRow state row), List.getLast?_cons]
    cases rows.getLast? <;> rfl

@[simp] theorem loadState_snapshotPayload (document : CollaborationDocument) :
    (loadState db document).snapshotPayload
      = (latestSnapshot db document).map (·.stateUpdate) :=
  foldl_loadRow_snapshotPayload _ _

theorem loadState_payloads (document : CollaborationDocument) :
    (loadState db document).updates.map Prod.snd
      = (pendingRows db document).map UpdateRow.payload := by
  rw [loadState, foldl_loadRow_updates]
  simp

/-- The watermark that a load reports is at or above the stored one and every
row of the identity. -/
theorem loadState_upto_ge (db : CollaborationDb) (document : CollaborationDocument) :
    watermark db document ≤ (loadState db document).uptoUpdateId
      ∧ ∀ row ∈ db.updates, row.document = document →
          row.id ≤ (loadState db document).uptoUpdateId := by
  have hupto : (loadState db document).uptoUpdateId
      = ((pendingRows db document).getLast?.map UpdateRow.id).getD (watermark db document) :=
    foldl_loadRow_upto _ _
  have hcovered : ∀ row ∈ db.updates, row.document = document →
      row ∉ pendingRows db document → row.id ≤ watermark db document := by
    intro row hmem hdocument hnot
    rw [mem_pendingRows] at hnot
    exact not_lt.mp fun hlt => hnot ⟨hmem, hdocument, hlt⟩
  rw [hupto]
  cases hlast : (pendingRows db document).getLast? with
  | none =>
    have hnil : pendingRows db document = [] := List.getLast?_eq_none_iff.mp hlast
    refine ⟨le_rfl, fun row hmem hdocument => ?_⟩
    exact hcovered row hmem hdocument (by simp [hnil])
  | some last =>
    obtain ⟨rows, hrows⟩ := List.getLast?_eq_some_iff.mp hlast
    have hmark := (mem_pendingRows.mp (hrows ▸ List.mem_append_right rows (by simp) :
      last ∈ pendingRows db document)).2.2
    have hsorted : (pendingRows db document).Pairwise fun a b => a.id ≤ b.id :=
      orderBy_sorted UpdateRow.id _
    rw [hrows, List.pairwise_append] at hsorted
    refine ⟨hmark.le, fun row hmem hdocument => ?_⟩
    by_cases hpending : row ∈ pendingRows db document
    · rw [hrows, List.mem_append, List.mem_singleton] at hpending
      rcases hpending with hrow | rfl
      · exact hsorted.2.2 row hrow last (by simp)
      · exact le_rfl
    · exact (hcovered row hmem hdocument hpending).trans hmark.le

theorem WellFormed.loadState_upto_lt (hwf : WellFormed yjs db)
    (document : CollaborationDocument) :
    (loadState db document).uptoUpdateId < db.nextUpdateId := by
  have hupto : (loadState db document).uptoUpdateId
      = ((pendingRows db document).getLast?.map UpdateRow.id).getD (watermark db document) :=
    foldl_loadRow_upto _ _
  rw [hupto]
  cases hlast : (pendingRows db document).getLast? with
  | none => exact hwf.watermark_lt document
  | some last =>
    have hmem : last ∈ pendingRows db document := List.mem_of_getLast? hlast
    exact hwf.updateIds last (mem_pendingRows.mp hmem).1

end

/-! ## The log read at one identity -/

section

variable {State : Type} [SemilatticeSup State] [OrderBot State] (yjs : YjsLibrary State)

/-- The two tables at one identity, as an abstract log of document states. -/
def storedLog (db : CollaborationDb) (document : CollaborationDocument) : CompactedLog State where
  snapshot := (latestSnapshot db document).map fun row =>
    (row.uptoUpdateId, denote yjs row.stateUpdate)
  entries := (db.updates.filter (·.document = document)).map fun row =>
    (row.id, denote yjs row.payload)

variable {yjs} {db : CollaborationDb}

theorem storedLog_snapshot (document : CollaborationDocument) :
    (storedLog yjs db document).snapshot
      = (latestSnapshot db document).map fun row =>
          (row.uptoUpdateId, denote yjs row.stateUpdate) := rfl

theorem storedLog_watermark (document : CollaborationDocument) :
    (storedLog yjs db document).watermark = watermark db document := by
  simp only [CompactedLog.watermark, storedLog, watermark]
  cases latestSnapshot db document <;> rfl

/-- The log depends on its own rows and its own snapshot only. -/
theorem storedLog_congr {db' : CollaborationDb} {document : CollaborationDocument}
    (hsnapshot : latestSnapshot db' document = latestSnapshot db document)
    (hupdates : db'.updates.filter (·.document = document)
      = db.updates.filter (·.document = document)) :
    storedLog yjs db' document = storedLog yjs db document := by
  simp only [storedLog, hsnapshot, hupdates]

theorem storedLog_pending (document : CollaborationDocument) :
    (storedLog yjs db document).pending.Perm
      ((pendingRows db document).map fun row => (row.id, denote yjs row.payload)) := by
  rw [CompactedLog.pending, storedLog_watermark, storedLog, List.filter_map, List.filter_filter,
    pendingRows]
  refine List.Perm.map _ ?_
  refine (List.Perm.of_eq ?_).trans (orderBy_perm UpdateRow.id _).symm
  refine List.filter_congr fun row _ => ?_
  simp [Bool.and_comm]

/-- Merging what `load_state` returns, over an optional seed, joins the seed
into the log's value when nothing else stands below. -/
theorem mergeStates_loadState (hwf : WellFormed yjs db) (document : CollaborationDocument)
    {seed : Option Bytes} (hseed : ∀ p ∈ seed, Valid yjs p) :
    ∃ state, mergeStates yjs ((loadState db document).snapshotPayload.or seed)
        ((loadState db document).updates.map Prod.snd) = .ok state
      ∧ ((latestSnapshot db document).isSome → state = (storedLog yjs db document).value)
      ∧ (seed = none → state = (storedLog yjs db document).value) := by
  have hsnapshot : ∀ p ∈ ((latestSnapshot db document).map (·.stateUpdate)).or seed,
      Valid yjs p := by
    intro p hp
    cases h : latestSnapshot db document with
    | none => exact hseed p (by simpa [h] using hp)
    | some row =>
      obtain rfl : row.stateUpdate = p := by simpa [h] using hp
      exact hwf.snapshotPayloads row (latestSnapshot_mem h).1
  have hupdates : ∀ p ∈ (pendingRows db document).map UpdateRow.payload, Valid yjs p := by
    intro p hp
    obtain ⟨row, hrow, rfl⟩ := List.mem_map.mp hp
    exact hwf.updatePayloads row (mem_pendingRows.mp hrow).1
  have hjoin : CompactedLog.joinAll (((pendingRows db document).map UpdateRow.payload).map
        (denote yjs))
      = CompactedLog.joinAll ((storedLog yjs db document).pending.map Prod.snd) := by
    rw [CompactedLog.joinAll_perm ((storedLog_pending document).map Prod.snd), List.map_map,
      List.map_map]
    rfl
  rw [loadState_snapshotPayload, loadState_payloads, mergeStates_of_valid yjs hsnapshot hupdates,
    hjoin]
  refine ⟨_, rfl, ?_, ?_⟩
  · intro hsome
    obtain ⟨row, hrow⟩ := Option.isSome_iff_exists.mp hsome
    simp [CompactedLog.value, CompactedLog.base, storedLog, hrow]
  · rintro rfl
    cases h : latestSnapshot db document <;>
      simp [CompactedLog.value, CompactedLog.base, storedLog, h]

/-! ## Moves of the database -/

/-- What a move of the database did to the log of `document`: abstract moves
that appended `ps`, and no row removed that the watermark does not cover. -/
structure Kept (yjs : YjsLibrary State) (document : CollaborationDocument) (db : CollaborationDb)
    (ps : List State) (db' : CollaborationDb) : Prop where
  evolves : (storedLog yjs db document).Evolves ps (storedLog yjs db' document)
  rows : ∀ row ∈ db.updates, row.document = document → row ∉ db'.updates →
    row.id ≤ watermark db' document
  tracks : Tracks yjs document db'

/-- A move from `db` to `db'` that keeps a bootstrapped `document`. -/
def Keeps (yjs : YjsLibrary State) (document : CollaborationDocument) (db : CollaborationDb)
    (ps : List State) (db' : CollaborationDb) : Prop :=
  Tracks yjs document db → Kept yjs document db ps db'

namespace Keeps

variable {document : CollaborationDocument} {db' db'' : CollaborationDb} {ps qs : List State}

/-- A move that leaves the log as it was and every row of it in place. -/
theorem of_log_eq (hlog : storedLog yjs db' document = storedLog yjs db document)
    (hrows : ∀ row ∈ db.updates, row.document = document → row ∈ db'.updates)
    (htracks : Tracks yjs document db') : Kept yjs document db [] db' :=
  ⟨hlog ▸ .refl _, fun row hmem hdocument hgone => absurd (hrows row hmem hdocument) hgone,
    htracks⟩

theorem refl (db : CollaborationDb) : Keeps yjs document db [] db :=
  fun h => of_log_eq rfl (fun _ hmem _ => hmem) h

theorem trans (hfst : Keeps yjs document db ps db') (hsnd : Keeps yjs document db' qs db'') :
    Keeps yjs document db (ps ++ qs) db'' := by
  intro h
  have h₁ := hfst h
  have h₂ := hsnd h₁.tracks
  refine ⟨h₁.evolves.trans h₂.evolves, fun row hmem hdocument hgone => ?_, h₂.tracks⟩
  have hmark := h₂.evolves.watermark_le
  rw [storedLog_watermark, storedLog_watermark] at hmark
  by_cases hmid : row ∈ db'.updates
  · exact h₂.rows row hmid hdocument hgone
  · exact (h₁.rows row hmem hdocument hmid).trans hmark

/-- A move that appends nothing may be put in front. -/
theorem nil_trans (hfst : Keeps yjs document db [] db') (hsnd : Keeps yjs document db' qs db'') :
    Keeps yjs document db qs db'' := by
  simpa using hfst.trans hsnd

/-! ## What each statement does -/

variable {db : CollaborationDb} {document other : CollaborationDocument}

/-- A projection or any other write that keeps the document identities. -/
theorem workspace {tables : WorkspaceTables} (hsame : SameIdentities db.workspace tables) :
    Keeps yjs document db [] { db with workspace := tables } := by
  intro h
  exact of_log_eq rfl (fun _ hmem _ => hmem)
    ⟨h.wellFormed.workspace hsame, h.current.of_sameIdentities hsame, h.bootstrapped⟩

/-- Dropping rows and snapshots of other identities only. -/
theorem filter {keepUpdate : UpdateRow → Bool} {keepSnapshot : SnapshotRow → Bool}
    (hupdate : ∀ row, row.document = document → keepUpdate row = true)
    (hsnapshot : ∀ row, row.document = document → keepSnapshot row = true) :
    Keeps yjs document db []
      { db with
        updates := db.updates.filter keepUpdate
        snapshots := db.snapshots.filter keepSnapshot } := by
  intro h
  have hlatest : (db.snapshots.filter keepSnapshot).find? (·.document = document)
      = latestSnapshot db document := by
    rw [List.find?_filter, latestSnapshot]
    congr 1
    funext row
    by_cases hrow : row.document = document
    · simp [hrow, hsnapshot row hrow]
    · simp [hrow]
  refine of_log_eq (storedLog_congr hlatest ?_) ?_
    ⟨h.wellFormed.filter keepUpdate keepSnapshot, h.current, ?_⟩
  · rw [List.filter_filter]
    refine List.filter_congr fun row _ => ?_
    by_cases hrow : row.document = document
    · simp [hrow, hupdate row hrow]
    · simp [hrow]
  · intro row hmem hdocument
    exact List.mem_filter.mpr ⟨hmem, hupdate row hdocument⟩
  · simpa only [latestSnapshot, hlatest] using h.bootstrapped

theorem clearDocumentRevision (hother : document.revision ≠ other.revision) :
    Keeps yjs document db [] (clearDocumentRevision db other) := by
  refine filter ?_ ?_
  · rintro row rfl
    simpa using hother
  · rintro row rfl
    simpa using hother

theorem clearSuperseded (hother : other.supersedes document = false) :
    Keeps yjs document db [] (clearSupersededDocumentRevisions db other) := by
  refine filter ?_ ?_
  · rintro row rfl
    simpa using hother
  · rintro row rfl
    simpa using hother

/-- What an inserted update appends to the log of `document`. -/
theorem insertUpdate {write : CollaborationUpdateWrite} (hvalid : Valid yjs write.payload) :
    Keeps yjs document db
      (if write.document = document then [denote yjs write.payload] else [])
      (insertUpdate db write).1 := by
  intro h
  have htracks : Tracks yjs document (Collaboration.insertUpdate db write).1 :=
    ⟨h.wellFormed.insertUpdate hvalid, h.current, h.bootstrapped⟩
  have hrows : ∀ row ∈ db.updates, row.document = document →
      row ∈ (Collaboration.insertUpdate db write).1.updates :=
    fun row hmem _ => List.mem_append_left _ hmem
  split
  · -- the document's own update: a fresh entry above the watermark
    rename_i hdocument
    refine ⟨.single (.append db.nextUpdateId _ ?_ rfl ?_),
      fun row hmem hrow hgone => absurd (hrows row hmem hrow) hgone, htracks⟩
    · rw [storedLog_watermark]
      exact h.wellFormed.watermark_lt document
    · simp [storedLog, Collaboration.insertUpdate, List.filter_append, hdocument]
  · -- another document's row
    rename_i hdocument
    refine of_log_eq (storedLog_congr rfl ?_) hrows htracks
    simp [Collaboration.insertUpdate, List.filter_append, hdocument]

theorem pruneUpdates (self : CollaborationPersistence) (other : CollaborationDocument)
    (latestUpdateId : Int) :
    Keeps yjs document db [] (pruneUpdates self db other latestUpdateId) := by
  intro h
  have hwf := h.wellFormed
  refine ⟨?_, fun row hmem hdocument hgone => ?_, ?_, ?_, ?_⟩
  · unfold Collaboration.pruneUpdates
    lift_lets
    intro cutoff
    split
    · exact .refl _
    refine .single (.prune (fun entry =>
      !(document = other && entry.1 < cutoff && isCovered db other cutoff)) ?_ rfl ?_)
    · -- what is dropped lies below a cutoff that the snapshot has reached
      intro entry _ hdrop
      simp only [Bool.not_eq_false', Bool.and_eq_true, decide_eq_true_eq] at hdrop
      obtain ⟨⟨rfl, hid⟩, hcovered⟩ := hdrop
      rw [storedLog_watermark]
      exact hid.le.trans (hwf.le_watermark_of_isCovered hcovered)
    · simp only [storedLog, List.filter_map, List.filter_filter]
      refine congrArg (List.map _) (List.filter_congr fun row _ => ?_)
      by_cases hrow : row.document = document
      · simp [hrow, isPrunable]
      · simp [hrow]
  · subst hdocument
    rw [pruneUpdates_watermark]
    exact (hwf.lt_watermark_of_pruned hmem hgone).le
  · exact hwf.pruneUpdates self other latestUpdateId
  · simpa using h.current
  · rw [pruneUpdates_latestSnapshot]
    exact h.bootstrapped

/-- A transaction that did not commit leaves the rows as they were. -/
theorem rollback {inside : CollaborationDb} (hnext : db.nextUpdateId ≤ inside.nextUpdateId) :
    Keeps yjs document db [] (db.rollback inside) := by
  intro h
  have hwf := h.wellFormed
  exact of_log_eq rfl (fun _ hmem _ => hmem)
    ⟨{ hwf with
        nextPositive := hwf.nextPositive.trans_le hnext
        updateIds := fun row hrow => (hwf.updateIds row hrow).trans_le hnext
        snapshotIds := fun row hrow => (hwf.snapshotIds row hrow).trans_le hnext },
      h.current, h.bootstrapped⟩

/-- The snapshot of another current document. -/
theorem upsertSnapshot_of_ne (hcurrent : other.IsCurrent db.workspace) (hne : document ≠ other)
    {uptoUpdateId : Int} {stateUpdate : Bytes} (hupto : uptoUpdateId < db.nextUpdateId)
    (hvalid : Valid yjs stateUpdate) :
    Keeps yjs document db [] (upsertSnapshot db other uptoUpdateId stateUpdate) := by
  intro h
  have hrevision : document.revision ≠ other.revision :=
    fun heq => hne (h.current.eq_of_revision hcurrent heq)
  have hlatest : latestSnapshot (Collaboration.upsertSnapshot db other uptoUpdateId stateUpdate)
      document = latestSnapshot db document :=
    latestSnapshot_upsertSnapshot_of_ne hrevision uptoUpdateId stateUpdate
  refine of_log_eq (storedLog_congr hlatest (by rw [upsertSnapshot_updates]))
    (fun row hmem _ => by simpa using hmem)
    ⟨h.wellFormed.upsertSnapshot hcurrent hupto hvalid, by simpa using h.current, ?_⟩
  rw [hlatest]
  exact h.bootstrapped

/-- The document's own snapshot takes over the value of its log. -/
theorem upsertSnapshot_self {uptoUpdateId : Int} (hupto : uptoUpdateId < db.nextUpdateId)
    (hmark : watermark db document ≤ uptoUpdateId)
    (hcovers : ∀ row ∈ db.updates, row.document = document → row.id ≤ uptoUpdateId) :
    Keeps yjs document db []
      (upsertSnapshot db document uptoUpdateId
        (yjs.encode (storedLog yjs db document).value)) := by
  intro h
  have hlatest := latestSnapshot_upsertSnapshot
    (h.wellFormed.givesWayTo h.current hmark (yjs.encode (storedLog yjs db document).value))
  refine ⟨.single (.compact uptoUpdateId ?_ ?_ ?_ ?_), ?_,
    h.wellFormed.upsertSnapshot h.current hupto (valid_encode yjs _), ?_, ?_⟩
  · rwa [storedLog_watermark]
  · intro entry hentry
    simp only [storedLog, List.mem_map, List.mem_filter, decide_eq_true_eq] at hentry
    obtain ⟨row, ⟨hrow, hdocument⟩, rfl⟩ := hentry
    exact hcovers row hrow hdocument
  · rw [storedLog_snapshot, hlatest, Option.map_some, denote_encode]
  · simp only [storedLog, upsertSnapshot_updates]
  · intro row hmem _ hgone
    rw [upsertSnapshot_updates] at hgone
    exact absurd hmem hgone
  · simpa using h.current
  · rw [hlatest]
    rfl

end Keeps

end

end Toss.Collaboration
