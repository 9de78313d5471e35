import Toss.Collaboration.StoredLog

/-!
# Compaction never loses an accepted update

Every operation on the stored collaboration state, on whatever document it
runs, takes the log of a bootstrapped identity through moves of the abstract
log: it appends what `persist_update` accepted and otherwise keeps the value.
A run of operations therefore ends with the canonical seed joined with every
accepted update, whatever was compacted and pruned on the way.
-/

namespace Toss.Collaboration

open Toss.Foundation Toss.Workspace Toss.Access

section

variable {State : Type} [SemilatticeSup State] [OrderBot State]
variable {yjs : YjsLibrary State} {self : CollaborationPersistence}
variable {db db' : CollaborationDb} {document other : CollaborationDocument}

/-! ## Reconciliation -/

variable
  {result : Except ReconcileCollaborationDocumentError ReconcileCollaborationDocumentOutcome}
  {state : BootstrapState} {seed : Option Bytes}

/-- How a reconciliation ends: with nothing stored but perhaps the projected
text, with the revision cleared because its document is gone, or compacted. -/
theorem reconcileCollaborationDocument_cases
    (h : reconcileCollaborationDocument yjs self db document state seed = (db', result)) :
    ∃ tables, SameIdentities db.workspace tables ∧
      ((db' = { db with workspace := tables } ∧ ∀ compacted, result ≠ .ok (.current compacted))
        ∨ (db' = clearDocumentRevision { db with workspace := tables } document
            ∧ result = .ok .documentChanged
            ∧ lockProjectCollaborationDocument db.workspace document.projectId
                document.documentId document.collaborationRevision = false)
        ∨ (∃ merged compacted,
            mergeUpdates yjs (state.snapshotPayload.or seed) (state.updates.map Prod.snd)
              = .ok merged
            ∧ document.IsCurrent db.workspace
            ∧ db' = compact self { db with workspace := tables } document state.uptoUpdateId
                merged.update
            ∧ result = .ok (.current compacted))) := by
  unfold reconcileCollaborationDocument at h
  split at h
  · -- the stored payloads do not merge
    obtain ⟨rfl, rfl⟩ := Prod.mk.inj h
    exact ⟨db.workspace, .refl _, .inl ⟨rfl, by simp⟩⟩
  rename_i merged hmerged
  have hsame := projectCollaborationDocument_sameIdentities db.workspace
    (projectionOf document state merged.text)
  cases hproject : projectCollaborationDocument db.workspace
    (projectionOf document state merged.text) with
  | mk tables projection =>
    rw [hproject] at hsame
    refine ⟨tables, hsame, ?_⟩
    simp only [hproject] at h
    split at h
    · obtain ⟨rfl, rfl⟩ := Prod.mk.inj h
      exact .inl ⟨rfl, by simp⟩
    · -- the text was written
      obtain ⟨rfl, rfl⟩ := Prod.mk.inj h
      have hcurrent : (projectionOf document state merged.text).IsCurrent db.workspace := by
        simpa using projectCollaborationDocument_outcome hproject
      exact .inr (.inr ⟨merged, _, hmerged, hcurrent, rfl, rfl⟩)
    · -- the text was there already
      obtain ⟨rfl, rfl⟩ := Prod.mk.inj h
      have hcurrent : (projectionOf document state merged.text).IsCurrent db.workspace := by
        simpa using projectCollaborationDocument_outcome hproject
      exact .inr (.inr ⟨merged, _, hmerged, hcurrent, rfl, rfl⟩)
    · obtain ⟨rfl, rfl⟩ := Prod.mk.inj h
      exact .inl ⟨rfl, by simp⟩
    · obtain ⟨rfl, rfl⟩ := Prod.mk.inj h
      have hlock : lockProjectCollaborationDocument db.workspace document.projectId
          document.documentId document.collaborationRevision = false := by
        simpa [projectionOf] using projectCollaborationDocument_outcome hproject
      exact .inr (.inl ⟨rfl, rfl, hlock⟩)

/-- A reconciliation of what `load_state` read, seeded or not, keeps every
bootstrapped log. -/
theorem Keeps.reconcile (hseed : ∀ p ∈ seed, Valid yjs p)
    (h : reconcileCollaborationDocument yjs self db other (loadState db other) seed
      = (db', result)) :
    Keeps yjs document db [] db' := by
  intro htracks
  obtain ⟨tables, hsame, ⟨rfl, -⟩ | ⟨rfl, -, hlock⟩ | ⟨merged, _, hmerged, hother, rfl, -⟩⟩ :=
    reconcileCollaborationDocument_cases h
  · exact Keeps.workspace hsame htracks
  · -- the cleared revision is not the bootstrapped one, whose document is there
    have hne : document.revision ≠ other.revision := by
      intro heq
      have hcurrent := htracks.current.2
      simp only [CollaborationDocument.revision, Prod.mk.injEq] at heq
      rw [heq.1, heq.2.1, heq.2.2, hlock] at hcurrent
      exact absurd hcurrent (by simp)
    exact ((Keeps.workspace hsame).nil_trans (Keeps.clearDocumentRevision hne)) htracks
  · have hwf := htracks.wellFormed
    obtain ⟨state, hstate, hvalue, -⟩ := mergeStates_loadState hwf other hseed
    simp only [mergeUpdates, hstate, ok_bind, pure_eq_ok, Except.ok.injEq] at hmerged
    subst hmerged
    have hupto := loadState_upto_ge db other
    refine ((Keeps.workspace hsame).nil_trans (Keeps.nil_trans ?_ (Keeps.pruneUpdates self _ _)))
      htracks
    by_cases hdocument : document = other
    · -- its own snapshot: the merged state is the value of the log
      subst hdocument
      rw [hvalue htracks.bootstrapped]
      exact Keeps.upsertSnapshot_self (hwf.loadState_upto_lt document) hupto.1 hupto.2
    · exact Keeps.upsertSnapshot_of_ne (hother.of_sameIdentities hsame) hdocument
        (hwf.loadState_upto_lt other) (valid_encode yjs state)

/-- A reconciliation draws no update id. -/
theorem reconcile_nextUpdateId
    (h : reconcileCollaborationDocument yjs self db document state seed = (db', result)) :
    db'.nextUpdateId = db.nextUpdateId := by
  obtain ⟨tables, -, ⟨rfl, -⟩ | ⟨rfl, -⟩ | ⟨_, _, -, -, rfl, -⟩⟩ :=
    reconcileCollaborationDocument_cases h
  · rfl
  · rfl
  · simp [compact]

theorem Keeps.reconcilePendingDocument :
    Keeps yjs document db [] (reconcilePendingDocument yjs self db other).1 := by
  unfold Collaboration.reconcilePendingDocument
  split
  · exact Keeps.refl db
  split
  · rename_i hreconcile
    exact Keeps.rollback (reconcile_nextUpdateId hreconcile).ge
  · rename_i hreconcile
    exact Keeps.reconcile (by simp) hreconcile

/-! ## Flushes -/

theorem Keeps.flushDocuments (documents : List CollaborationDocument) :
    Keeps yjs document db [] (flushDocuments yjs self db documents).1 := by
  induction documents generalizing db with
  | nil => exact Keeps.refl db
  | cons other documents ih =>
    have hkeeps : Keeps yjs document db [] (Collaboration.reconcilePendingDocument yjs self db
      other).1 := Keeps.reconcilePendingDocument
    unfold Collaboration.flushDocuments
    split
    · rename_i heq
      rwa [heq] at hkeeps
    · rename_i heq
      rw [heq] at hkeeps
      exact hkeeps.nil_trans ih

theorem Keeps.flushProjectCollaboration (projectId : Uuid) :
    Keeps yjs document db [] (flushProjectCollaboration yjs self db projectId).1 := by
  unfold Collaboration.flushProjectCollaboration
  split
  · exact Keeps.refl db
  · exact Keeps.flushDocuments _

theorem flushDocumentsForCapture_keeps (documents : List CollaborationDocument) :
    Keeps yjs document db [] (flushDocumentsForCapture yjs self db documents).1
      ∧ (flushDocumentsForCapture yjs self db documents).1.nextUpdateId = db.nextUpdateId := by
  induction documents generalizing db with
  | nil => exact ⟨Keeps.refl db, rfl⟩
  | cons other documents ih =>
    unfold flushDocumentsForCapture
    split
    · rename_i hreconcile
      exact ⟨Keeps.reconcile (by simp) hreconcile, reconcile_nextUpdateId hreconcile⟩
    · rename_i inside outcome hreconcile
      exact ⟨(Keeps.reconcile (by simp) hreconcile).nil_trans ih.1,
        ih.2.trans (reconcile_nextUpdateId hreconcile)⟩

theorem Keeps.flushProjectCollaborationForCapture (projectId : Uuid) :
    Keeps yjs document db [] (flushProjectCollaborationForCapture yjs self db projectId).1 := by
  unfold Collaboration.flushProjectCollaborationForCapture
  split
  · exact Keeps.refl db
  rename_i targetUpdateId _
  have hflush : Keeps yjs document db []
        (flushDocumentsForCapture yjs self db
          (pendingProjectDocuments db projectId targetUpdateId)).1
      ∧ (flushDocumentsForCapture yjs self db
          (pendingProjectDocuments db projectId targetUpdateId)).1.nextUpdateId
        = db.nextUpdateId := flushDocumentsForCapture_keeps _
  split
  · rename_i heq
    rw [heq] at hflush
    exact Keeps.rollback hflush.2.ge
  · rename_i heq
    rw [heq] at hflush
    exact hflush.1

/-! ## Bootstrap -/

/-- A document that is there is not superseded by a current one. -/
theorem supersedes_eq_false (hkeys : (db.workspace.documents.map DocumentRow.id).Nodup)
    (hdocument : document.IsCurrent db.workspace)
    (hother : lockProjectCollaborationDocument db.workspace other.projectId other.documentId
      other.collaborationRevision = true) :
    other.supersedes document = false := by
  by_contra hsupersedes
  simp only [CollaborationDocument.supersedes, decide_eq_true_eq, Bool.not_eq_false] at hsupersedes
  obtain ⟨-, hid, hrevision⟩ := hsupersedes
  obtain ⟨row, hrow, hrowIdentity⟩ :=
    List.mem_map.mp (lockProjectCollaborationDocument_iff.mp hdocument.2)
  obtain ⟨row', hrow', hrowIdentity'⟩ :=
    List.mem_map.mp (lockProjectCollaborationDocument_iff.mp hother)
  simp only [DocumentRow.identity, Prod.mk.injEq] at hrowIdentity hrowIdentity'
  have hsame : row = row' := List.inj_on_of_nodup_map hkeys hrow hrow'
    (by rw [hrowIdentity.2.1, hrowIdentity'.2.1, hid])
  rw [← hrowIdentity.2.2, hsame, hrowIdentity'.2.2] at hrevision
  exact hrevision rfl

theorem valid_seedText (content : Text) : Valid yjs (seedText yjs content) :=
  valid_encode yjs _

theorem Keeps.prepareDocumentBootstrap :
    Keeps yjs document db [] (prepareDocumentBootstrap yjs self db other).1 := by
  intro htracks
  unfold Collaboration.prepareDocumentBootstrap
  split
  · exact Keeps.refl db htracks
  rename_i content hcontent
  have hlock : lockProjectCollaborationDocument db.workspace other.projectId other.documentId
      other.collaborationRevision = true := by
    have hsome := congrArg Option.isSome hcontent
    simpa [collaborationSeedContent, lockProjectCollaborationDocument] using hsome
  have hcleared : Keeps yjs document db [] (clearSupersededDocumentRevisions db other) :=
    Keeps.clearSuperseded
      (supersedes_eq_false htracks.wellFormed.documentKeys htracks.current hlock)
  lift_lets
  intro cleared state hasPersistedState canonicalSeed
  have hseed : ∀ p ∈ canonicalSeed, Valid yjs p := by
    intro p hp
    simp only [canonicalSeed] at hp
    split at hp
    · simp at hp
    · obtain rfl : seedText yjs content = p := by simpa using hp
      exact valid_seedText content
  split
  · rename_i hreconcile
    exact Keeps.rollback (reconcile_nextUpdateId hreconcile).ge htracks
  · rename_i hreconcile
    exact (hcleared.nil_trans (Keeps.reconcile hseed hreconcile)) htracks
  · rename_i hreconcile
    exact Keeps.rollback (reconcile_nextUpdateId hreconcile).ge htracks

/-! ## Durable updates -/

/-- Whether `persist_update` answered that the update was accepted. -/
def isAccepted :
    Except ReconcileCollaborationDocumentError PersistUpdateOutcome → Bool
  | .ok (.accepted _) => true
  | _ => false

/-- How `persist_update` ends: refused with nothing stored, or accepted with
the row inserted and the log pruned or reconciled behind it. -/
theorem persistUpdate_cases {write : CollaborationUpdateWrite} {accessEpoch : Int}
    {result : Except ReconcileCollaborationDocumentError PersistUpdateOutcome}
    (h : persistUpdate yjs self db write accessEpoch = (db', result)) :
    (isAccepted result = false
        ∧ (db' = db ∨ ∃ inside, db' = db.rollback inside
            ∧ inside.nextUpdateId = (insertUpdate db write).1.nextUpdateId))
      ∨ (isAccepted result = true
          ∧ write.document.IsCurrent db.workspace
          ∧ lockProjectAccessEpoch db.workspace write.document.projectId accessEpoch = .current
          ∧ ((write.kind = .update
                ∧ db' = pruneUpdates self (insertUpdate db write).1 write.document
                  (insertUpdate db write).2)
              ∨ (write.kind = .sync ∧ ∃ compacted,
                  reconcileCollaborationDocument yjs self (insertUpdate db write).1
                    write.document (loadState (insertUpdate db write).1 write.document) none
                  = (db', .ok (.current compacted))))) := by
  simp only [persistUpdate] at h
  split at h
  · obtain ⟨rfl, rfl⟩ := Prod.mk.inj h
    exact .inl ⟨rfl, .inl rfl⟩
  rename_i hepoch
  split at h
  · obtain ⟨rfl, rfl⟩ := Prod.mk.inj h
    exact .inl ⟨rfl, .inl rfl⟩
  · obtain ⟨rfl, rfl⟩ := Prod.mk.inj h
    exact .inl ⟨rfl, .inl rfl⟩
  rename_i haccess
  split at h
  · obtain ⟨rfl, rfl⟩ := Prod.mk.inj h
    exact .inl ⟨rfl, .inl rfl⟩
  rename_i hlock
  have hcurrent : write.document.IsCurrent db.workspace :=
    ⟨lockProjectContentEpoch_eq_current.mp (not_not.mp hepoch), by simpa using hlock⟩
  split at h
  · -- `Update`: rows far behind the new one are pruned
    rename_i hkind
    obtain ⟨rfl, rfl⟩ := Prod.mk.inj h
    exact .inr ⟨rfl, hcurrent, haccess, .inl ⟨hkind, rfl⟩⟩
  · -- `Sync`: the log is reconciled before the commit
    rename_i hkind
    split at h
    · rename_i hreconcile
      obtain ⟨rfl, rfl⟩ := Prod.mk.inj h
      exact .inl ⟨rfl, .inr ⟨_, rfl, reconcile_nextUpdateId hreconcile⟩⟩
    · rename_i hreconcile
      obtain ⟨rfl, rfl⟩ := Prod.mk.inj h
      exact .inr ⟨rfl, hcurrent, haccess, .inr ⟨hkind, _, hreconcile⟩⟩
    · rename_i hreconcile
      obtain ⟨rfl, rfl⟩ := Prod.mk.inj h
      exact .inl ⟨rfl, .inr ⟨_, rfl, reconcile_nextUpdateId hreconcile⟩⟩
    · rename_i hreconcile
      obtain ⟨rfl, rfl⟩ := Prod.mk.inj h
      exact .inl ⟨rfl, .inr ⟨_, rfl, reconcile_nextUpdateId hreconcile⟩⟩

theorem Keeps.persistUpdate {write : CollaborationUpdateWrite} {accessEpoch : Int}
    {result : Except ReconcileCollaborationDocumentError PersistUpdateOutcome}
    (hvalid : Valid yjs write.payload)
    (h : persistUpdate yjs self db write accessEpoch = (db', result)) :
    Keeps yjs document db
      (if isAccepted result ∧ write.document = document then [denote yjs write.payload] else [])
      db' := by
  have hinsert : Keeps yjs document db
      (if write.document = document then [denote yjs write.payload] else [])
      (Collaboration.insertUpdate db write).1 := Keeps.insertUpdate hvalid
  rcases persistUpdate_cases h with ⟨hresult, hnone | ⟨inside, hundone, hnext⟩⟩ |
    ⟨hresult, -, -, ⟨-, rfl⟩ | ⟨-, compacted, hreconcile⟩⟩
  · rw [hnone]
    simpa [hresult] using Keeps.refl db
  · have hle : db.nextUpdateId ≤ inside.nextUpdateId :=
      hnext ▸ Int.le_add_of_nonneg_right zero_le_one
    rw [hundone]
    simpa [hresult] using Keeps.rollback hle
  · simpa [hresult] using hinsert.trans (Keeps.pruneUpdates self _ _)
  · simpa [hresult] using hinsert.trans (Keeps.reconcile (by simp) hreconcile)

/-! ## Runs of operations -/

/-- The operations on the stored state, in the order their transactions commit. -/
inductive Operation
  | prepareDocumentBootstrap (document : CollaborationDocument)
  /-- `persist_update` for a payload that `validate_update` is asked about first,
  as its only caller does. -/
  | persistUpdate (write : CollaborationUpdateWrite) (accessEpoch : Int)
  | reconcilePendingDocument (document : CollaborationDocument)
  | flushProjectCollaboration (projectId : Uuid)
  | flushProjectCollaborationForCapture (projectId : Uuid)
  /-- A transaction the database aborted, after it drew values of the sequences. -/
  | aborted (updateIds changeSequences : Nat)
deriving DecidableEq, Repr

section

variable (yjs) (self)

def perform (db : CollaborationDb) : Operation → CollaborationDb
  | .prepareDocumentBootstrap document => (prepareDocumentBootstrap yjs self db document).1
  | .persistUpdate write accessEpoch =>
    match validateUpdate yjs write.payload with
    | .error _ => db
    | .ok () => (persistUpdate yjs self db write accessEpoch).1
  | .reconcilePendingDocument document => (reconcilePendingDocument yjs self db document).1
  | .flushProjectCollaboration projectId => (flushProjectCollaboration yjs self db projectId).1
  | .flushProjectCollaborationForCapture projectId =>
    (flushProjectCollaborationForCapture yjs self db projectId).1
  | .aborted updateIds changeSequences =>
    db.rollback
      { db with
        nextUpdateId := db.nextUpdateId + updateIds
        workspace :=
          { db.workspace with
            nextChangeSequence := db.workspace.nextChangeSequence + changeSequences } }

/-- The payload that an operation made durable for `document`, if any. -/
def acceptedPayload (db : CollaborationDb) (document : CollaborationDocument) :
    Operation → List Bytes
  | .persistUpdate write accessEpoch =>
    match validateUpdate yjs write.payload with
    | .error _ => []
    | .ok () =>
      if isAccepted (persistUpdate yjs self db write accessEpoch).2
          ∧ write.document = document then [write.payload] else []
  | _ => []

def performAll (db : CollaborationDb) : List Operation → CollaborationDb
  | [] => db
  | operation :: operations => performAll (perform yjs self db operation) operations

/-- What a run of operations accepted for `document`, in order. -/
def acceptedPayloads (db : CollaborationDb) (document : CollaborationDocument) :
    List Operation → List Bytes
  | [] => []
  | operation :: operations =>
    acceptedPayload yjs self db document operation
      ++ acceptedPayloads (perform yjs self db operation) document operations

end

theorem performAll_append (earlier later : List Operation) :
    performAll yjs self db (earlier ++ later)
      = performAll yjs self (performAll yjs self db earlier) later := by
  induction earlier generalizing db with
  | nil => rfl
  | cons operation operations ih => exact ih

/-- One operation, on whatever document, appends to the log of `document` what
it accepted there and loses nothing. -/
theorem Keeps.perform (operation : Operation) :
    Keeps yjs document db
      ((acceptedPayload yjs self db document operation).map (denote yjs))
      (perform yjs self db operation) := by
  cases operation with
  | prepareDocumentBootstrap other => exact Keeps.prepareDocumentBootstrap
  | persistUpdate write accessEpoch =>
    simp only [acceptedPayload, Collaboration.perform]
    cases hvalidate : validateUpdate yjs write.payload with
    | error e => exact Keeps.refl db
    | ok _ =>
      cases hpersist : Collaboration.persistUpdate yjs self db write accessEpoch with
      | mk inside result =>
        have hkeeps : Keeps yjs document db
            (if isAccepted result ∧ write.document = document
              then [denote yjs write.payload] else []) inside :=
          Keeps.persistUpdate ((validateUpdate_ok yjs).mp hvalidate) hpersist
        dsimp only
        split
        · rename_i haccepted
          simpa [haccepted] using hkeeps
        · rename_i hrefused
          simpa [hrefused] using hkeeps
  | reconcilePendingDocument other => exact Keeps.reconcilePendingDocument
  | flushProjectCollaboration projectId => exact Keeps.flushProjectCollaboration projectId
  | flushProjectCollaborationForCapture projectId =>
    exact Keeps.flushProjectCollaborationForCapture projectId
  | aborted updateIds changeSequences => exact Keeps.rollback (Int.le_add_of_nonneg_right (by simp))

theorem Keeps.performAll (operations : List Operation) :
    Keeps yjs document db
      ((acceptedPayloads yjs self db document operations).map (denote yjs))
      (performAll yjs self db operations) := by
  induction operations generalizing db with
  | nil => exact Keeps.refl db
  | cons operation operations ih =>
    rw [acceptedPayloads, List.map_append]
    exact (Keeps.perform operation).trans ih

/-! ## The first bootstrap -/

/-- Neither table holds anything of the document identity. -/
def NothingStored (db : CollaborationDb) (document : CollaborationDocument) : Prop :=
  latestSnapshot db document = none ∧ ∀ row ∈ db.updates, row.document ≠ document

theorem NothingStored.clearSuperseded (h : NothingStored db document)
    (other : CollaborationDocument) :
    NothingStored (clearSupersededDocumentRevisions db other) document := by
  obtain ⟨hsnapshot, hrows⟩ := h
  refine ⟨?_, fun row hrow => hrows row (List.mem_of_mem_filter hrow)⟩
  rw [latestSnapshot, List.find?_eq_none] at hsnapshot ⊢
  exact fun row hrow => hsnapshot row (List.mem_of_mem_filter hrow)

theorem NothingStored.loadState (h : NothingStored db document) :
    loadState db document
      = { uptoUpdateId := 0, snapshotPayload := none, updates := [], contributors := [] } := by
  have hrows : pendingRows db document = [] := by
    refine List.eq_nil_iff_forall_not_mem.mpr fun row hrow => ?_
    have hmem := mem_pendingRows.mp hrow
    exact h.2 row hmem.1 hmem.2.1
  simp [Collaboration.loadState, hrows, watermark, h.1]

/-- Storing the seed where nothing is stored makes it the value of the log. -/
theorem upsertSnapshot_seed (hwf : WellFormed yjs db) (hnothing : NothingStored db document)
    (hcurrent : document.IsCurrent db.workspace) (seed : State) :
    Tracks yjs document (upsertSnapshot db document 0 (yjs.encode seed))
      ∧ (storedLog yjs (upsertSnapshot db document 0 (yjs.encode seed)) document).value = seed := by
  have hmark : watermark db document ≤ 0 := by simp [watermark, hnothing.1]
  have hlatest := latestSnapshot_upsertSnapshot
    (hwf.givesWayTo hcurrent hmark (yjs.encode seed))
  refine ⟨⟨hwf.upsertSnapshot hcurrent hwf.nextPositive (valid_encode yjs seed),
    by simpa using hcurrent, by rw [hlatest]; rfl⟩, ?_⟩
  have hentries : db.updates.filter (·.document = document) = [] := by
    simpa [List.filter_eq_nil_iff] using hnothing.2
  simp [CompactedLog.value, CompactedLog.base, CompactedLog.pending, storedLog, hlatest, hentries]

/-- The first bootstrap of a document stores its canonical seed. -/
theorem prepareDocumentBootstrap_fresh (hwf : WellFormed yjs db)
    (hnothing : NothingStored db document)
    (h : prepareDocumentBootstrap yjs self db document = (db', .ok state)) :
    ∃ content,
      collaborationSeedContent db.workspace document.projectId document.documentId
          document.collaborationRevision = some content
        ∧ Tracks yjs document db' ∧ (storedLog yjs db' document).value = seedState yjs content := by
  have hcleared := hnothing.clearSuperseded document
  simp only [prepareDocumentBootstrap, hcleared.loadState] at h
  split at h
  · simp at h
  rename_i content hcontent
  refine ⟨content, hcontent, ?_⟩
  split at h
  · simp at h
  · rename_i compacted hreconcile
    obtain ⟨rfl, -⟩ := Prod.mk.inj h
    obtain ⟨tables, hsame, ⟨-, hresult⟩ | ⟨-, hresult, -⟩ |
      ⟨merged, _, hmerged, hcurrent, hdb, -⟩⟩ := reconcileCollaborationDocument_cases hreconcile
    · exact absurd rfl (hresult _)
    · simp at hresult
    have hwf' : WellFormed yjs
        { clearSupersededDocumentRevisions db document with workspace := tables } :=
      (hwf.filter _ _).workspace hsame
    have hupdate : merged.update = yjs.encode (seedState yjs content) := by
      have hseeded : mergeUpdates yjs (some (seedText yjs content)) [] = .ok merged := hmerged
      rw [mergeUpdates_seedText, Except.ok.injEq] at hseeded
      rw [← hseeded]
    obtain ⟨htracks, hvalue⟩ := upsertSnapshot_seed hwf' hcleared
      (hcurrent.of_sameIdentities hsame) (seedState yjs content)
    rw [hdb, compact, hupdate]
    have hkept := Keeps.pruneUpdates self document 0 htracks
    refine ⟨hkept.tracks, ?_⟩
    rw [hkept.evolves.value_eq, hvalue]
    simp
  · simp at h

/-! ## Loaded states -/

/-- Compaction never loses an accepted update. Whatever retention is configured
and whatever operations follow the first bootstrap of a document, on it and on
any other: loading and merging what is stored yields the canonical seed joined
with every payload that was accepted for the document; its watermark never moves
backwards, and every row that disappears, and every row a further pruning would
delete, is at or below the watermark that is stored then. -/
theorem loaded_state_eq_seed_and_accepted (retention : Option Text) (hwf : WellFormed yjs db)
    (hnothing : NothingStored db document) {bootstrap : BootstrapState}
    (hbootstrap : prepareDocumentBootstrap yjs (.new retention) db document
      = (db', .ok bootstrap))
    (operations : List Operation) :
    ∃ content,
      collaborationSeedContent db.workspace document.projectId document.documentId
          document.collaborationRevision = some content
        ∧ (let final := performAll yjs (.new retention) db' operations
          let loaded := loadState final document
          let value := seedState yjs content ⊔ CompactedLog.joinAll
            ((acceptedPayloads yjs (.new retention) db' document operations).map (denote yjs))
          mergeUpdates yjs loaded.snapshotPayload (loaded.updates.map Prod.snd)
              = .ok { update := yjs.encode value, text := yjs.getString value }
            ∧ (∀ earlier later, operations = earlier ++ later →
                let before := performAll yjs (.new retention) db' earlier
                watermark before document ≤ watermark final document
                  ∧ ∀ row ∈ before.updates, row.document = document → row ∉ final.updates →
                    row.id ≤ watermark final document)
            ∧ ∀ pruned latestUpdateId, ∀ row ∈ final.updates,
                row ∉ (pruneUpdates (.new retention) final pruned latestUpdateId).updates →
                  row.id < watermark final row.document) := by
  obtain ⟨content, hcontent, htracks, hvalue⟩ := prepareDocumentBootstrap_fresh hwf hnothing
    hbootstrap
  have hperform : ∀ operations, Kept yjs document db'
      ((acceptedPayloads yjs (.new retention) db' document operations).map (denote yjs))
      (performAll yjs (.new retention) db' operations) :=
    fun operations => Keeps.performAll operations htracks
  have hkept := hperform operations
  refine ⟨content, hcontent, ?_, ?_, ?_⟩
  · -- what is loaded is the value of the log, which evolved from the seed
    have hnoseed : ∀ p ∈ (none : Option Bytes), Valid yjs p := by simp
    obtain ⟨state, hstate, hloaded, -⟩ :=
      mergeStates_loadState hkept.tracks.wellFormed document hnoseed
    rw [Option.or_none] at hstate
    rw [mergeUpdates, hstate, hloaded hkept.tracks.bootstrapped, hkept.evolves.value_eq, hvalue]
    rfl
  · rintro earlier later rfl before
    have hafter : Kept yjs document before _
        (performAll yjs (.new retention) before later) :=
      Keeps.performAll later (hperform earlier).tracks
    rw [performAll_append]
    have hmark := hafter.evolves.watermark_le
    rw [storedLog_watermark, storedLog_watermark] at hmark
    exact ⟨hmark, hafter.rows⟩
  · intro pruned latestUpdateId row hmem hgone
    exact hkept.tracks.wellFormed.lt_watermark_of_pruned hmem hgone

end

/-! ## A run, computed

One client that only ever types `a`: a state is how many it typed, an update
carries its first so many, and applying one keeps the longer text. -/

def typist : YjsLibrary ℕ where
  decode payload := .ok payload.length
  encode state := List.replicate state 97
  getString state := List.replicate state 'a'
  insertText content := content.length
  decode_encode state := by simp

def typistDocument : CollaborationDocument where
  projectId := 1
  documentId := 7
  collaborationRevision := 0
  contentEpoch := 0

/-- A project with the one document `"a"`, nothing stored for it yet. -/
def typistDb : CollaborationDb where
  workspace :=
    { projects := [{ id := 1, workspaceVersion := 0, contentEpoch := 0, accessEpoch := 0 }]
      documents :=
        [{ id := 7, projectId := 1, path := "main.typ".toList, pathRevision := 0,
           collaborationRevision := 0, changeSequence := 1, content := ['a'] }]
      nextChangeSequence := 2
      changes := [] }
  updates := []
  snapshots := []
  nextUpdateId := 1

def typed (kind : PersistedUpdateKind) (count : Nat) : Operation :=
  .persistUpdate
    { document := typistDocument
      userId := some 3
      kind := kind
      payload := List.replicate count 97
      guestDisplayName := none } 0

/-- Two updates, the second of them synced, and a flush. -/
def typistRun : List Operation :=
  [typed .update 2, typed .sync 4, .flushProjectCollaboration 1]

theorem typistDb_wellFormed : WellFormed typist typistDb where
  documentKeys := by decide
  nextPositive := by decide
  updateIds := by simp [typistDb]
  updatePayloads := by simp [typistDb]
  snapshotKeys := by decide
  snapshotIds := by simp [typistDb]
  snapshotPayloads := by simp [typistDb]
  snapshotEpochs := by simp [typistDb]

/-- After the run the four typed characters are loaded. -/
theorem typistRun_loaded :
    let bootstrapped := (prepareDocumentBootstrap typist (.new none) typistDb typistDocument).1
    let loaded := loadState (performAll typist (.new none) bootstrapped typistRun) typistDocument
    mergeUpdates typist loaded.snapshotPayload (loaded.updates.map Prod.snd)
      = .ok { update := [97, 97, 97, 97], text := ['a', 'a', 'a', 'a'] } := by
  intro bootstrapped loaded
  have hbootstrap : prepareDocumentBootstrap typist (.new none) typistDb typistDocument
      = (bootstrapped, .ok
          { uptoUpdateId := 0, snapshotPayload := some [97], updates := [], contributors := [] }) :=
    Prod.ext rfl (by decide +kernel)
  have haccepted : acceptedPayloads typist (.new none) bootstrapped typistDocument typistRun
      = [[97, 97], [97, 97, 97, 97]] := by decide +kernel
  have hseed : collaborationSeedContent typistDb.workspace 1 7 0 = some ['a'] := by decide
  obtain ⟨content, hcontent, hmerged, -⟩ := loaded_state_eq_seed_and_accepted none
    typistDb_wellFormed ⟨rfl, by simp [typistDb]⟩ hbootstrap typistRun
  obtain rfl : ['a'] = content := Option.some.inj (hseed.symm.trans hcontent)
  rw [hmerged, haccepted]
  decide

end Toss.Collaboration
