import Toss.BrowserBackend.BrowserStoreSteps

/-!
# The lineages of browser documents

A document keeps its identifier and its Yjs state under every operation of the store but two:
a merge adds to the state, and `upsertText` over a document starts a new state under the next
collaboration revision.

* `Resets` — an operation that starts a new state for a document;
* `Descends` — where a document of a later store comes from;
* `Written` — what is kept by the writes of an operation;
* `written_of_execute`, `mergeDocumentUpdate_ok` — every operation.
-/

namespace Toss.BrowserBackend

open Toss.Foundation Toss.Workspace

variable {Y : Type} {platform : BrowserPlatform Y}

/-! ## Identified documents -/

/-- Documents have identifiers of their own, and show the text of their states. -/
structure Identified (platform : BrowserPlatform Y) (db : BrowserDatabase Y) : Prop where
  id_inj : ∀ document ∈ db.documents, ∀ other ∈ db.documents, document.id = other.id →
    document = other
  drawn : ∀ document ∈ db.documents, document.id < db.nextId
  content : ∀ document ∈ db.documents, document.content = platform.textOf document.yUpdate

/-- One document, perhaps at another path. -/
structure SameLineage (document document' : StoredBrowserDocument Y) : Prop where
  id : document'.id = document.id
  projectId : document'.projectId = document.projectId
  content : document'.content = document.content
  yUpdate : document'.yUpdate = document.yUpdate
  collaborationRevision : document'.collaborationRevision = document.collaborationRevision

theorem SameLineage.refl (document : StoredBrowserDocument Y) : SameLineage document document :=
  ⟨rfl, rfl, rfl, rfl, rfl⟩

/-- Where a document comes from, when `resets` are the ones that start anew. -/
inductive Descends (db : BrowserDatabase Y) (resets : StoredBrowserDocument Y → Prop)
    (document' : StoredBrowserDocument Y) : Prop
  | same (document : StoredBrowserDocument Y) (hdocument : document ∈ db.documents)
      (hsame : SameLineage document document')
  | reset (document : StoredBrowserDocument Y) (hdocument : document ∈ db.documents)
      (hresets : resets document) (hid : document'.id = document.id)
      (hprojectId : document'.projectId = document.projectId)
      (hrevision : document'.collaborationRevision = document.collaborationRevision + 1)
  | new (hid : db.nextId ≤ document'.id)

/-! ## Writes -/

/-- What the writes of an operation on `base` have made of it so far. -/
structure Written (platform : BrowserPlatform Y) (base : BrowserDatabase Y)
    (resets : StoredBrowserDocument Y → Prop) (db : BrowserDatabase Y) : Prop where
  nextId : base.nextId ≤ db.nextId
  identified : Identified platform db
  descends : ∀ document ∈ db.documents, Descends base resets document

namespace Written

variable {base db db' : BrowserDatabase Y} {resets : StoredBrowserDocument Y → Prop}

theorem refl (h : Identified platform base) : Written platform base resets base :=
  ⟨le_rfl, h, fun document hdocument => .same document hdocument (.refl document)⟩

section

variable (h : Written platform base resets db)
include h

theorem drawn : Written platform base resets db.drawn :=
  ⟨h.nextId.trans (Nat.le_succ _),
    ⟨h.identified.id_inj, fun document hdocument =>
      (h.identified.drawn document hdocument).trans_le (Nat.le_succ _), h.identified.content⟩,
    h.descends⟩

/-- A write that at most removes documents. -/
theorem leaves (hdocuments : ∀ document ∈ db'.documents, document ∈ db.documents)
    (hnext : db.nextId ≤ db'.nextId) : Written platform base resets db' := by
  refine ⟨h.nextId.trans hnext, ⟨?_, ?_, ?_⟩, ?_⟩
  · exact fun document hdocument other hother => h.identified.id_inj document
      (hdocuments document hdocument) other (hdocuments other hother)
  · exact fun document hdocument =>
      (h.identified.drawn document (hdocuments document hdocument)).trans_le hnext
  · exact fun document hdocument => h.identified.content document (hdocuments document hdocument)
  · exact fun document hdocument => h.descends document (hdocuments document hdocument)

theorem putProject (project : StoredBrowserProject) :
    Written platform base resets (db.putProject project) :=
  h.leaves (fun _ hdocument => hdocument) le_rfl

theorem putAsset {asset : StoredBrowserAsset}
    (hput : db.putAsset asset = .ok db') : Written platform base resets db' := by
  rcases BrowserDatabase.putAsset_ok hput with ⟨rfl, -⟩
  exact h.leaves (fun _ hdocument => hdocument) le_rfl

variable {row : StoredBrowserDocument Y}

theorem putDocument (hput : db.putDocument row = .ok db') (hid : row.id < db.nextId)
    (hcontent : row.content = platform.textOf row.yUpdate) (hrow : Descends base resets row) :
    Written platform base resets db' := by
  rcases BrowserDatabase.putDocument_ok hput with ⟨rfl, -⟩
  refine ⟨h.nextId, ⟨?_, ?_, ?_⟩, ?_⟩
  · intro document hdocument other hother heq
    rcases mem_upsertRow.mp hdocument with rfl | ⟨hdocument, hne⟩
    · rcases mem_upsertRow.mp hother with rfl | ⟨-, hne⟩
      · rfl
      · exact absurd heq.symm hne
    · rcases mem_upsertRow.mp hother with rfl | ⟨hother, -⟩
      · exact absurd heq hne
      · exact h.identified.id_inj document hdocument other hother heq
  · intro document hdocument
    rcases mem_upsertRow.mp hdocument with rfl | ⟨hdocument, -⟩
    · exact hid
    · exact h.identified.drawn document hdocument
  · intro document hdocument
    rcases mem_upsertRow.mp hdocument with rfl | ⟨hdocument, -⟩
    · exact hcontent
    · exact h.identified.content document hdocument
  · intro document hdocument
    rcases mem_upsertRow.mp hdocument with rfl | ⟨hdocument, -⟩
    · exact hrow
    · exact h.descends document hdocument

/-- A document under the key that is drawn next. -/
theorem putNew (hput : db.drawn.putDocument row = .ok db') (hid : row.id = db.nextId)
    (hcontent : row.content = platform.textOf row.yUpdate) : Written platform base resets db' := by
  refine h.drawn.putDocument hput ?_ hcontent (.new ?_)
  · rw [hid]
    exact Nat.lt_succ_self _
  · rw [hid]
    exact h.nextId

end

end Written

/-! ## Operations -/

variable {document : StoredBrowserDocument Y} {projectId : Uuid}

section Operations

variable {base db db' : BrowserDatabase Y} {resets : StoredBrowserDocument Y → Prop}

/-- A loop of writes keeps what each of them keeps. -/
theorem written_foldlM {σ α : Type} (store : σ → BrowserDatabase Y)
    {f : σ → α → Except BrowserStoreError σ} {rows : List α} {start done : σ}
    (hf : ∀ state row state', row ∈ rows → Written platform base resets (store state) →
      f state row = .ok state' → Written platform base resets (store state'))
    (hstart : Written platform base resets (store start)) (h : rows.foldlM f start = .ok done) :
    Written platform base resets (store done) := by
  refine foldlM_ok (P := fun _ state => Written platform base resets (store state)) h hstart ?_
  intro _ row state state' hstate hrest hstep
  refine hf state row state' ?_ hstate hstep
  rcases hrest with ⟨rest, rfl⟩
  exact List.mem_append_right _ List.mem_cons_self

variable [SemilatticeSup Y] [OrderBot Y]

/-- A new state for a text shows the text. -/
theorem textOf_stateForText (hblank : platform.textOf ⊥ = []) (client : Uuid) (content : Text) :
    platform.textOf (stateForText platform client content) = content := by
  unfold stateForText
  split
  · next hempty => rw [hblank, List.isEmpty_iff.mp hempty]
  · exact platform.textOf_insertText client content

theorem written_seedFile (hblank : platform.textOf ⊥ = []) {loop loop' : SeedLoop Y}
    {file : BrowserTemplateFile} (h : Written platform base resets loop.db)
    (hseed : seedFile platform projectId loop file = .ok loop') :
    Written platform base resets loop'.db := by
  unfold seedFile at hseed
  rcases bind_eq_ok.mp hseed with ⟨path, -, hseed⟩
  split at hseed
  · cases hseed
  split at hseed
  · rcases bind_eq_ok.mp hseed with ⟨next, hput, hseed⟩
    cases hseed
    exact h.putNew hput rfl (textOf_stateForText hblank _ _).symm
  split at hseed
  · cases hseed
  · rcases bind_eq_ok.mp hseed with ⟨next, hput, hseed⟩
    cases hseed
    exact h.drawn.putAsset hput

omit [SemilatticeSup Y] [OrderBot Y] in
theorem written_moveDocument {fromPath toPath : Text} {loop loop' : BrowserDatabase Y × Int}
    (h : Written platform base resets loop.1) (hdocument : document ∈ base.documents)
    (hbase : Identified platform base)
    (hmove : moveDocument fromPath toPath loop document = .ok loop') :
    Written platform base resets loop'.1 := by
  unfold moveDocument at hmove
  split at hmove
  · rcases bind_eq_ok.mp hmove with ⟨next, hput, hmove⟩
    cases hmove
    refine h.putDocument hput ?_ (hbase.content document hdocument)
      (.same document hdocument ⟨rfl, rfl, rfl, rfl, rfl⟩)
    exact (hbase.drawn document hdocument).trans_le h.nextId
  · cases hmove
    exact h

omit [SemilatticeSup Y] [OrderBot Y] in
theorem written_moveAsset {fromPath toPath : Text} {asset : StoredBrowserAsset}
    (h : Written platform base resets db) (hmove : moveAsset fromPath toPath db asset = .ok db') :
    Written platform base resets db' := by
  unfold moveAsset at hmove
  split at hmove
  · exact h.putAsset hmove
  · cases hmove
    exact h

end Operations

variable [SemilatticeSup Y] [OrderBot Y]

/-- The operation starts a new state for the document. -/
def Resets (platform : BrowserPlatform Y) (db : BrowserDatabase Y) (action : BrowserAction Y)
    (document : StoredBrowserDocument Y) : Prop :=
  match action with
  | .upsertText projectId value _ _ => document.projectId = projectId
    ∧ validPath value = .ok document.path ∧ ∃ next, db.execute platform action = .ok next
  | _ => False

variable {db db' : BrowserDatabase Y}

/-- What an operation other than a merge makes of the documents. -/
theorem written_of_execute (hblank : platform.textOf ⊥ = []) (h : Identified platform db)
    {action : BrowserAction Y}
    (hordinary : ∀ projectId documentId update,
      action ≠ .mergeDocumentUpdate projectId documentId update)
    (hexec : db.execute platform action = .ok db') :
    Written platform db (Resets platform db action) db' := by
  have hcommits := hexec
  have hbase : Written platform db (Resets platform db action) db := .refl h
  cases action with
  | createSeededProject name seed =>
    unfold BrowserDatabase.execute createSeededProject at hexec
    rcases bind_eq_ok.mp hexec with ⟨name, -, hexec⟩
    rcases bind_eq_ok.mp hexec with ⟨entryFilePath, -, hexec⟩
    rcases bind_eq_ok.mp hexec with ⟨files, -, hexec⟩
    rcases bind_eq_ok.mp hexec with ⟨⟨⟩, -, hexec⟩
    rcases bind_eq_ok.mp hexec with ⟨loop, hloop, hexec⟩
    cases hexec
    exact (written_foldlM SeedLoop.db (fun _ _ _ _ => written_seedFile hblank) hbase.drawn
      hloop).putProject _
  | copyProject sourceProjectId name =>
    unfold BrowserDatabase.execute copyProject at hexec
    rcases bind_eq_ok.mp hexec with ⟨source, -, hexec⟩
    rcases bind_eq_ok.mp hexec with ⟨normalized, -, hexec⟩
    rcases bind_eq_ok.mp hexec with ⟨copied, hdocuments, hexec⟩
    -- copies are new documents with the text of the originals
    have hcopied : Written platform db (Resets platform db (.copyProject sourceProjectId name))
        copied := by
      refine written_foldlM id ?_ (hbase.drawn.putProject _) hdocuments
      intro loop document loop' hdocument hloop hput
      exact hloop.putNew hput rfl
        (h.content document (BrowserDatabase.mem_documentsOf.mp hdocument).1)
    exact written_foldlM id (fun _ _ _ _ hloop hput => hloop.drawn.putAsset hput) hcopied hexec
  | createFile projectId input =>
    unfold BrowserDatabase.execute createFile at hexec
    rcases bind_eq_ok.mp hexec with ⟨path, -, hexec⟩
    rcases bind_eq_ok.mp hexec with ⟨project, -, hexec⟩
    rcases bind_eq_ok.mp hexec with ⟨directories, -, hexec⟩
    split at hexec
    · cases hexec
    rcases bind_eq_ok.mp hexec with ⟨⟨⟩, -, hexec⟩
    split at hexec
    · rcases bind_eq_ok.mp hexec with ⟨next, hput, hexec⟩
      cases hexec
      -- a new document begins with the state of its text
      exact (hbase.putNew hput rfl (textOf_stateForText hblank _ _).symm).putProject _
    · cases hexec
      exact hbase.putProject _
  | movePath projectId fromValue toValue =>
    unfold BrowserDatabase.execute moveTree at hexec
    rcases bind_eq_ok.mp hexec with ⟨fromPath, -, hexec⟩
    rcases bind_eq_ok.mp hexec with ⟨toPath, -, hexec⟩
    split at hexec
    · cases hexec
      exact hbase
    rcases bind_eq_ok.mp hexec with ⟨project, -, hexec⟩
    dsimp only at hexec
    split at hexec
    · cases hexec
    split at hexec
    · cases hexec
    split at hexec
    · cases hexec
    rcases bind_eq_ok.mp hexec with ⟨directories, -, hexec⟩
    rcases bind_eq_ok.mp hexec with ⟨⟨⟩, -, hexec⟩
    rcases bind_eq_ok.mp hexec with ⟨loop, hloop, hexec⟩
    rcases bind_eq_ok.mp hexec with ⟨moved, hmoved, hexec⟩
    cases hexec
    have hdocuments := written_foldlM Prod.fst (fun _ document _ hdocument hwritten =>
      written_moveDocument hwritten (BrowserDatabase.mem_documentsOf.mp hdocument).1 h) hbase hloop
    exact (written_foldlM id (fun _ _ _ _ => written_moveAsset) hdocuments hmoved).putProject _
  | deletePath projectId value =>
    unfold BrowserDatabase.execute deletePath at hexec
    rcases bind_eq_ok.mp hexec with ⟨path, -, hexec⟩
    rcases bind_eq_ok.mp hexec with ⟨project, -, hexec⟩
    dsimp only at hexec
    split at hexec
    · cases hexec
    rcases bind_eq_ok.mp hexec with ⟨directories, -, hexec⟩
    rw [pure_eq_ok, Except.ok.injEq, foldl_deleteDocument, foldl_deleteAsset] at hexec
    subst hexec
    refine Written.putProject ?_ _
    exact hbase.leaves (fun _ hdocument => List.mem_of_mem_filter hdocument) le_rfl
  | upsertText projectId value content expectedContentEpoch =>
    rcases map_eq_ok.mp hexec with ⟨⟨next, document⟩, hupsert, rfl⟩
    unfold upsertText at hupsert
    rcases bind_eq_ok.mp hupsert with ⟨path, hpath, hupsert⟩
    rcases bind_eq_ok.mp hupsert with ⟨project, -, hupsert⟩
    split at hupsert
    · cases hupsert
    dsimp only at hupsert
    split at hupsert
    · cases hupsert
    rcases bind_eq_ok.mp hupsert with ⟨directories, -, hupsert⟩
    rcases bind_eq_ok.mp hupsert with ⟨⟨⟩, -, hupsert⟩
    rcases bind_eq_ok.mp hupsert with ⟨written, hput, hupsert⟩
    cases hupsert
    refine Written.putProject ?_ _
    -- an asset at the path is deleted first
    have hkept : Written platform db
        (Resets platform db (.upsertText projectId value content expectedContentEpoch))
        ((db.assetAt projectId path).elim db fun asset => db.deleteAsset asset.id) := by
      cases db.assetAt projectId path with
      | none => exact hbase
      | some asset => exact hbase.leaves (fun _ hdocument => hdocument) le_rfl
    have hnext : ((db.assetAt projectId path).elim db fun asset => db.deleteAsset asset.id).nextId
        = db.nextId := by
      cases db.assetAt projectId path with
      | none => rfl
      | some asset => rfl
    cases hexisting : db.documentAt projectId path with
    | none =>
      rw [hexisting] at hput
      exact hkept.putNew hput hnext.symm (textOf_stateForText hblank _ _).symm
    | some existing =>
      rw [hexisting] at hput
      rcases BrowserDatabase.documentAt_some hexisting with ⟨hmem, hproject, rfl⟩
      -- the document at the path begins a new state, under a key drawn now
      refine hkept.drawn.putDocument hput ?_ (textOf_stateForText hblank _ _).symm
        (.reset existing hmem ⟨hproject, hpath, _, hcommits⟩ rfl hproject.symm rfl)
      exact (h.drawn existing hmem).trans_le hkept.drawn.nextId
  | uploadAsset projectId input =>
    unfold BrowserDatabase.execute uploadAsset at hexec
    rcases bind_eq_ok.mp hexec with ⟨path, -, hexec⟩
    split at hexec
    · cases hexec
    rcases bind_eq_ok.mp hexec with ⟨project, -, hexec⟩
    dsimp only at hexec
    split at hexec
    · cases hexec
    rcases bind_eq_ok.mp hexec with ⟨directories, -, hexec⟩
    rcases bind_eq_ok.mp hexec with ⟨⟨⟩, -, hexec⟩
    rcases bind_eq_ok.mp hexec with ⟨written, hput, hexec⟩
    cases hexec
    refine Written.putProject (Written.putAsset (Written.drawn ?_) hput) _
    cases db.documentAt projectId path with
    | none => exact hbase
    | some document =>
      exact hbase.leaves (fun _ hdocument => List.mem_of_mem_filter hdocument) le_rfl
  | updateEntryFile projectId value =>
    unfold BrowserDatabase.execute updateEntryFile at hexec
    rcases bind_eq_ok.mp hexec with ⟨path, -, hexec⟩
    rcases bind_eq_ok.mp hexec with ⟨project, -, hexec⟩
    cases hexec
    exact hbase.putProject _
  | mergeDocumentUpdate projectId documentId update =>
    exact absurd rfl (hordinary projectId documentId update)

variable {documentId : Uuid}

omit [SemilatticeSup Y] [OrderBot Y] in
theorem loadDocumentState_id (h : loadDocumentState db projectId documentId = .ok document) :
    document.id = documentId := by
  unfold loadDocumentState at h
  split at h
  · cases h
  next found hfound =>
  split at h
  · cases h
    simpa using List.find?_some hfound
  · cases h

omit [OrderBot Y] in
/-- What a merge makes of the documents. -/
theorem mergeDocumentUpdate_ok {update : Y} {document' : StoredBrowserDocument Y}
    (hmerge : mergeDocumentUpdate platform db projectId documentId update = .ok (db', document')) :
    db'.nextId = db.nextId
      ∧ ∃ document ∈ db.documents, document.id = documentId ∧ document.projectId = projectId
        ∧ document'.id = documentId ∧ document'.projectId = projectId
        ∧ document'.collaborationRevision = document.collaborationRevision
        ∧ document'.yUpdate = document.yUpdate ⊔ update
        ∧ document'.content = platform.textOf document'.yUpdate
        ∧ ∀ other, other ∈ db'.documents
          ↔ other = document' ∨ (other ∈ db.documents ∧ other.id ≠ documentId) := by
  unfold mergeDocumentUpdate at hmerge
  rcases bind_eq_ok.mp hmerge with ⟨project, -, hmerge⟩
  rcases bind_eq_ok.mp hmerge with ⟨document, hload, hmerge⟩
  rcases bind_eq_ok.mp hmerge with ⟨written, hput, hmerge⟩
  cases hmerge
  rcases loadDocumentState_ok hload with ⟨hdocument, hproject⟩
  have hid := loadDocumentState_id hload
  rcases BrowserDatabase.putDocument_ok hput with ⟨rfl, -⟩
  refine ⟨rfl, document, hdocument, hid, hproject, hid, hproject, rfl, rfl, rfl, fun other => ?_⟩
  show other ∈ upsertRow StoredBrowserDocument.id _ db.documents ↔ _
  rw [mem_upsertRow]
  rw [hid]

end Toss.BrowserBackend
