import Toss.Versioning.HeadMirrors

/-!
# Rejected pushes and the users of the workspace

What a push that is not accepted leaves. Whether the workspace is restored from the snapshot
is decided by its version alone, one ahead of the snapshot's.

* `SameWorkspace`, `IsRestorable` — equal workspaces, and those that an import of their own
  files makes again;
* `World.RejectionFacts` — what holds at every step of a push;
* `rejected_push_keeps_the_workspace` — whole runs;
* `edit_during_a_rejected_push_is_lost` — a run in which a user's edit is restored away.
-/

namespace Toss.Versioning

open Toss.Foundation Toss.Workspace
open Toss.Processing (decodeUtf8)

/-! ## Equal workspaces -/

/-- The same documents, assets and directories, and the same entry file. -/
structure SameWorkspace (projectType : ProjectType) (content content' : ProjectContent) :
    Prop where
  documents : content.documents.Perm content'.documents
  assets : content.assets.Perm content'.assets
  directories : content.directories.Perm content'.directories
  entryFilePath : content.entryFilePath.getD projectType.defaultEntryFilePath
    = content'.entryFilePath.getD projectType.defaultEntryFilePath

instance (projectType : ProjectType) (content content' : ProjectContent) :
    Decidable (SameWorkspace projectType content content') :=
  decidable_of_iff
    (content.documents.Perm content'.documents ∧ content.assets.Perm content'.assets
      ∧ content.directories.Perm content'.directories
      ∧ content.entryFilePath.getD projectType.defaultEntryFilePath
        = content'.entryFilePath.getD projectType.defaultEntryFilePath)
    ⟨fun h => ⟨h.1, h.2.1, h.2.2.1, h.2.2.2⟩, fun h => ⟨h.1, h.2, h.3, h.4⟩⟩

theorem SameWorkspace.refl (projectType : ProjectType) (content : ProjectContent) :
    SameWorkspace projectType content content :=
  ⟨List.Perm.refl _, List.Perm.refl _, List.Perm.refl _, rfl⟩

/-! ## Restoring a snapshot -/

/-- An import of the content's own files makes every row again: each document reads as text
and no asset does, the content types are the guessed ones, the directories are those above
some file, and the entry file is the project's. -/
structure IsRestorable (git : GitLibrary) (project : Project) (content : ProjectContent) :
    Prop where
  distinct : HasDistinctPaths content
  documents : ∀ document ∈ content.documents,
    (isDocumentTextPath document.path && looksLikeText (encodeUtf8 document.content)) = true
  assets : ∀ asset ∈ content.assets,
    (isDocumentTextPath asset.path && looksLikeText asset.bytes) = false
      ∧ asset.contentType = git.contentType asset.path
  directories : ∀ directory, directory ∈ content.directories
    ↔ ∃ file ∈ workspaceFiles content, directory ∈ parentDirectories file.1
  entryFilePath : project.entryFilePath
    = content.entryFilePath.getD project.projectType.defaultEntryFilePath
  entryDocument : ∃ document ∈ content.documents, document.path = project.entryFilePath
  entryAccepted : project.projectType.acceptsEntryFilePath project.entryFilePath = true

/-- The rows of text files are imported as they are. -/
theorem importedDocument_encodeUtf8 {document : WorkspaceDocument}
    (h : (isDocumentTextPath document.path && looksLikeText (encodeUtf8 document.content)) = true) :
    importedDocument (document.path, encodeUtf8 document.content) = some document := by
  simp [importedDocument, h, decodeUtf8_encodeUtf8]

variable {content : ProjectContent}

/-- The documents among the files of a restorable content. -/
theorem documents_of_isRestorable {git : GitLibrary} {project : Project}
    (h : IsRestorable git project content) :
    (workspaceFiles content).filterMap importedDocument = content.documents := by
  have hdocuments : ∀ documents : List WorkspaceDocument,
      (∀ document ∈ documents, document ∈ content.documents) →
        (documents.map fun document => (document.path, encodeUtf8 document.content)).filterMap
          importedDocument = documents := by
    intro documents hmem
    induction documents with
    | nil => rfl
    | cons document documents ih =>
      have hdocument := importedDocument_encodeUtf8
        (h.documents document (hmem document List.mem_cons_self))
      simp [hdocument, ih fun other hother => hmem other (List.mem_cons_of_mem _ hother)]
  have hassets : (content.assets.map fun asset => (asset.path, asset.bytes)).filterMap
      importedDocument = [] := by
    rw [List.filterMap_eq_nil_iff]
    intro file hfile
    rcases List.mem_map.mp hfile with ⟨asset, hasset, rfl⟩
    simp [importedDocument, (h.assets asset hasset).1]
  rw [workspaceFiles, List.filterMap_append, hdocuments _ fun _ hmem => hmem, hassets,
    List.append_nil]

/-- The assets among the files of a restorable content. -/
theorem assets_of_isRestorable {git : GitLibrary} {project : Project}
    (h : IsRestorable git project content) :
    (workspaceFiles content).filterMap (importedAsset git) = content.assets := by
  have hassets : ∀ assets : List WorkspaceAsset, (∀ asset ∈ assets, asset ∈ content.assets) →
      (assets.map fun asset => (asset.path, asset.bytes)).filterMap (importedAsset git)
        = assets := by
    intro assets hmem
    induction assets with
    | nil => rfl
    | cons asset assets ih =>
      rcases h.assets asset (hmem asset List.mem_cons_self) with ⟨hbinary, htype⟩
      have hasset : importedAsset git (asset.path, asset.bytes) = some asset := by
        simp [importedAsset, hbinary, ← htype]
      simp [hasset, ih fun other hother => hmem other (List.mem_cons_of_mem _ hother)]
  have hdocuments : (content.documents.map fun document =>
      (document.path, encodeUtf8 document.content)).filterMap (importedAsset git) = [] := by
    rw [List.filterMap_eq_nil_iff]
    intro file hfile
    rcases List.mem_map.mp hfile with ⟨document, hdocument, rfl⟩
    simp [importedAsset, h.documents document hdocument]
  rw [workspaceFiles, List.filterMap_append, hassets _ fun _ hmem => hmem, hdocuments,
    List.nil_append]

/-- The current entry file is chosen while it can be. -/
theorem chooseEntryFilePath_of_mem {projectType : ProjectType} {current : Text}
    {documentPaths : List Text} (hmem : current ∈ documentPaths)
    (haccepted : projectType.acceptsEntryFilePath current = true) :
    projectType.chooseEntryFilePath current documentPaths = some current := by
  unfold ProjectType.chooseEntryFilePath
  have hany : (((documentPaths.filter projectType.acceptsEntryFilePath).insertionSort
      fun left right => pathLe left right = true).any (· = current)) = true := by
    simp [List.mem_insertionSort, List.mem_filter, hmem, haccepted]
  simp [hany]

/-- A restorable content that is imported from its own files is the same workspace. -/
theorem sameWorkspace_of_restore {git : GitLibrary} {project : Project}
    {files : List (Text × Bytes)} {prepared : PreparedRepoImport}
    (hstored : isStored content = true) (hrestorable : IsRestorable git project content)
    (hfiles : materializeMergeMapToDir (mergeMap content) = some files)
    (h : prepareRepoImport git project.projectType project.entryFilePath files = .ok prepared) :
    SameWorkspace project.projectType content prepared.content := by
  have hpaths := isProjectPath_of_isStored hstored
  have hcontent : files = contentFiles content := by
    unfold materializeMergeMapToDir at hfiles
    split at hfiles
    · exact (Option.some.inj hfiles).symm
    · simp at hfiles
  have hperm := contentFiles_perm hrestorable.distinct
  rw [hcontent] at h
  have hclean := clean_of_prepareRepoImport
    (fun file hfile => hpaths file (hperm.mem_iff.mp hfile)) h
  rcases hclean with ⟨clean, hsorted, hdocuments, hassets, hdirectories, hentry⟩
  -- the files that are restored are those of the content, in some order
  have hclean : clean.Perm (workspaceFiles content) := hsorted.trans hperm
  have hsame : prepared.documents.Perm content.documents := by
    rw [hdocuments, ← documents_of_isRestorable hrestorable]
    exact hclean.filterMap _
  constructor
  · exact hsame.symm
  · show content.assets.Perm prepared.assets
    rw [hassets, ← assets_of_isRestorable hrestorable]
    exact (hclean.filterMap _).symm
  · show content.directories.Perm prepared.directories
    have hnodup : content.directories.Nodup := by
      simp only [isStored, Bool.and_eq_true, decide_eq_true_eq] at hstored
      exact hstored.2
    rw [hdirectories, sortPaths]
    refine List.Perm.trans ?_ (List.perm_insertionSort _ _).symm
    rw [List.perm_ext_iff_of_nodup hnodup (List.nodup_dedup _)]
    intro directory
    rw [hrestorable.directories, List.mem_dedup, List.mem_flatMap]
    exact exists_congr fun file => and_congr_left fun _ => hclean.mem_iff.symm
  · rcases hrestorable.entryDocument with ⟨document, hdocument, hpath⟩
    have hmem : project.entryFilePath ∈ prepared.documents.map WorkspaceDocument.path := by
      rw [← hpath]
      exact List.mem_map_of_mem (hsame.mem_iff.mpr hdocument)
    rw [chooseEntryFilePath_of_mem hmem hrestorable.entryAccepted] at hentry
    rw [← hrestorable.entryFilePath, Option.some.inj hentry]
    rfl

/-! ## The facts -/

/-- The users find what they left. -/
def World.Kept (w : World) (push : PushSession) : Prop :=
  SameWorkspace w.project.projectType push.latest w.project.content

/-- Nobody has changed anything while the version is the one of the snapshot. -/
structure World.Fresh (w : World) (push : PushSession) : Prop where
  kept : w.Kept push
  le : push.before.version ≤ w.project.workspaceVersion
  latest_eq : push.before.version = w.project.workspaceVersion →
    push.latest = push.before.content
  stored : isStored push.before.content = true

/-- The workspace is what the push replaced it by, and nobody has changed anything. -/
structure World.HasReplaced (w : World) (push : PushSession) : Prop where
  version : w.project.workspaceVersion = push.before.version + 1
  latest_eq : push.latest = push.before.content

/-- What a recovery finds. -/
structure World.Recoverable (w : World) (push : PushSession) : Prop where
  kept_or_replaced : w.Kept push ∨ w.HasReplaced push
  stored : isStored push.before.content = true

/-- What an import will insert comes from some directory. -/
def IsPrepared (git : GitLibrary) (prepared : PreparedRepoImport) : Prop :=
  ∃ projectType entryFilePath files,
    prepareRepoImport git projectType entryFilePath files = .ok prepared

/-- What a restoration will insert comes from the snapshot, and was prepared for the version
that it expects. -/
def World.Restores (git : GitLibrary) (w : World) (push : PushSession) (version : Int)
    (prepared : PreparedRepoImport) : Prop :=
  version ≤ w.project.workspaceVersion
    ∧ ∃ projectType entryFilePath files,
      materializeMergeMapToDir (mergeMap push.before.content) = some files
        ∧ prepareRepoImport git projectType entryFilePath files = .ok prepared
        ∧ (version = w.project.workspaceVersion →
          projectType = w.project.projectType ∧ entryFilePath = w.project.entryFilePath)

/-- The facts, by where the operation under way stands. -/
def World.RejectionFacts (git : GitLibrary) (w : World) : Session → Prop
  | .flush _ (.replaceInbound prepared) | .replaceInbound prepared _ =>
    isStored prepared.content = true
  | .pushBackend push | .pushReconcile push _ => w.Fresh push
  | .pushImport push prepared | .pushMerge push prepared => w.Fresh push ∧ IsPrepared git prepared
  | .pushImportRecord push _ | .pushMergeSync push | .pushMergeRecord push _ _
  | .restoreHead push true | .restoreCompare push => w.Recoverable push
  | .restoreApply push version prepared =>
    w.Recoverable push ∧ w.Restores git push version prepared
  | .restoreHead push false | .restoreLoad push | .restoreSync push | .restoreRecord push _
  | .flush _ (.rejected push) => w.Kept push
  | _ => True

/-- The invariant of every world. -/
structure World.Recovers (git : GitLibrary) (w : World) : Prop where
  stored : isStored w.project.content = true
  session : ∀ session ∈ w.session, w.RejectionFacts git session
  outcomes : ∀ outcome ∈ w.outcomes,
    SameWorkspace w.project.projectType outcome.latest outcome.content

/-! ## The guard -/

/-- A restoration that goes through undoes the replacement of its own push, and can. -/
def Session.MayRestore (git : GitLibrary) (w : World) : Session → Prop
  | .restoreApply push version _ =>
    version = w.project.workspaceVersion →
      push.latest = push.before.content ∧ IsRestorable git w.project push.before.content
  | _ => True

/-- A recovery does not fail while the workspace is what its push replaced it by. -/
def Session.MayStop (w : World) (effective : Bool) : Session → Prop
  | .restoreHead push _ | .restoreCompare push => w.HasReplaced push → w.Kept push
  | .restoreApply push _ _ => effective = false → w.HasReplaced push → w.Kept push
  | _ => True

/-- The steps that keep the workspace of a rejected push. -/
def RestoreGuard (git : GitLibrary) (w : World) : Action → Prop
  | .advance => ∀ session ∈ w.session, session.MayRestore git w
  | .fail effective =>
    ∀ session ∈ w.session,
      (effective = true → session.MayRestore git w) ∧ session.MayStop w effective
  | _ => True

instance (git : GitLibrary) (project : Project) (content : ProjectContent) :
    Decidable (IsRestorable git project content) :=
  decidable_of_iff
    (HasDistinctPaths content
      ∧ (∀ document ∈ content.documents,
        (isDocumentTextPath document.path && looksLikeText (encodeUtf8 document.content)) = true)
      ∧ (∀ asset ∈ content.assets, (isDocumentTextPath asset.path && looksLikeText asset.bytes) = false
        ∧ asset.contentType = git.contentType asset.path)
      ∧ ((∀ directory ∈ content.directories,
          ∃ file ∈ workspaceFiles content, directory ∈ parentDirectories file.1)
        ∧ ∀ file ∈ workspaceFiles content, ∀ directory ∈ parentDirectories file.1,
          directory ∈ content.directories)
      ∧ project.entryFilePath
        = content.entryFilePath.getD project.projectType.defaultEntryFilePath
      ∧ (∃ document ∈ content.documents, document.path = project.entryFilePath)
      ∧ project.projectType.acceptsEntryFilePath project.entryFilePath = true)
    ⟨fun ⟨hdistinct, hdocuments, hassets, hdirectories, hentry, hdocument, haccepted⟩ =>
      ⟨hdistinct, hdocuments, hassets, fun directory =>
        ⟨hdirectories.1 directory, fun ⟨file, hfile, hmem⟩ => hdirectories.2 file hfile _ hmem⟩,
        hentry, hdocument, haccepted⟩,
      fun h => ⟨h.distinct, h.documents, h.assets,
        ⟨fun directory => (h.directories directory).mp,
          fun file hfile directory hmem => (h.directories directory).mpr ⟨file, hfile, hmem⟩⟩,
        h.entryFilePath, h.entryDocument, h.entryAccepted⟩⟩

instance (w : World) (push : PushSession) : Decidable (w.Kept push) :=
  inferInstanceAs (Decidable (SameWorkspace _ _ _))

instance (w : World) (push : PushSession) : Decidable (w.HasReplaced push) :=
  decidable_of_iff
    (w.project.workspaceVersion = push.before.version + 1 ∧ push.latest = push.before.content)
    ⟨fun h => ⟨h.1, h.2⟩, fun h => ⟨h.version, h.latest_eq⟩⟩

instance (git : GitLibrary) (w : World) :
    (session : Session) → Decidable (session.MayRestore git w)
  | .restoreApply .. => inferInstanceAs (Decidable (_ → _ ∧ _))
  | .flush .. | .revision .. | .replaceInbound .. | .pushLoad | .pushCapture .. | .pushBackend ..
  | .pushReconcile .. | .pushImport .. | .pushImportRecord .. | .pushMerge .. | .pushMergeSync ..
  | .pushMergeRecord .. | .restoreHead .. | .restoreCompare .. | .restoreLoad .. | .restoreSync ..
  | .restoreRecord .. => instDecidableTrue

instance (w : World) (effective : Bool) :
    (session : Session) → Decidable (session.MayStop w effective)
  | .restoreHead .. | .restoreCompare _ => inferInstanceAs (Decidable (_ → _))
  | .restoreApply .. => inferInstanceAs (Decidable (_ → _ → _))
  | .flush .. | .revision .. | .replaceInbound .. | .pushLoad | .pushCapture .. | .pushBackend ..
  | .pushReconcile .. | .pushImport .. | .pushImportRecord .. | .pushMerge .. | .pushMergeSync ..
  | .pushMergeRecord .. | .restoreLoad .. | .restoreSync .. | .restoreRecord .. => instDecidableTrue

instance (git : GitLibrary) (w : World) : (action : Action) → Decidable (RestoreGuard git w action)
  | .advance | .fail _ => inferInstanceAs (Decidable (∀ session ∈ w.session, _))
  | .edit _ | .persistUpdate _ | .project _ _ | .markPending | .ensureRepository | .startFlush
  | .startRevision | .startPush | .startInbound _ _ | .backend _ _ _ => instDecidableTrue

namespace World

variable {git : GitLibrary} {w w' w₀ : World} {push : PushSession} {session : Session}

/-! ## What keeps the facts -/

/-- The facts are about the project alone. -/
theorem RejectionFacts.congr (hw : w.RejectionFacts git session)
    (hproject : w'.project = w.project) : w'.RejectionFacts git session := by
  have hfresh : ∀ push, w.Fresh push → w'.Fresh push := by
    intro push hfresh
    refine ⟨?_, ?_, ?_, hfresh.stored⟩
    · rw [World.Kept, hproject]
      exact hfresh.kept
    · rw [hproject]
      exact hfresh.le
    · rw [hproject]
      exact hfresh.latest_eq
  have hrecoverable : ∀ push, w.Recoverable push → w'.Recoverable push := by
    intro push hpush
    refine ⟨hpush.kept_or_replaced.imp ?_ ?_, hpush.stored⟩
    · rw [World.Kept, World.Kept, hproject]
      exact id
    · exact fun hreplaced => ⟨by rw [hproject]; exact hreplaced.version, hreplaced.latest_eq⟩
  unfold RejectionFacts at hw ⊢
  split at hw
  · exact hw
  · exact hw
  · exact hfresh _ hw
  · exact hfresh _ hw
  · exact ⟨hfresh _ hw.1, hw.2⟩
  · exact ⟨hfresh _ hw.1, hw.2⟩
  · exact hrecoverable _ hw
  · exact hrecoverable _ hw
  · exact hrecoverable _ hw
  · exact hrecoverable _ hw
  · exact hrecoverable _ hw
  · refine ⟨hrecoverable _ hw.1, ?_⟩
    rw [World.Restores, hproject]
    exact hw.2
  all_goals first
    | exact trivial
    | (rw [World.Kept, hproject]; exact hw)

/-- A change by a user is what the users leave. -/
theorem RejectionFacts.changeBy (hw : w.RejectionFacts git session) (content : ProjectContent) :
    (w.changeBy content).RejectionFacts git (session.noteChange content) := by
  have hkept : ∀ push : PushSession, (w.changeBy content).Kept { push with latest := content } :=
    fun push => SameWorkspace.refl _ _
  have hfresh : ∀ push, w.Fresh push →
      (w.changeBy content).Fresh { push with latest := content } := by
    intro push hfresh
    have hversion : (w.changeBy content).project.workspaceVersion
        = w.project.workspaceVersion + 1 := rfl
    have hle := hfresh.le
    refine ⟨hkept push, ?_, ?_, hfresh.stored⟩
    · rw [hversion]
      show push.before.version ≤ w.project.workspaceVersion + 1
      omega
    · -- the version has moved on
      intro hsame
      rw [hversion] at hsame
      have : push.before.version = w.project.workspaceVersion + 1 := hsame
      omega
  have hrecoverable : ∀ push, w.Recoverable push →
      (w.changeBy content).Recoverable { push with latest := content } :=
    fun push hpush => ⟨.inl (hkept push), hpush.stored⟩
  cases session with
  | flush next after => cases after <;> first | exact hw | exact hkept _
  | pushBackend push | pushReconcile push success => exact hfresh push hw
  | pushImport push prepared | pushMerge push prepared => exact ⟨hfresh push hw.1, hw.2⟩
  | pushImportRecord push version | pushMergeSync push | pushMergeRecord push snapshot isClean
  | restoreCompare push => exact hrecoverable push hw
  | restoreHead push restoreWorkspace =>
    cases restoreWorkspace with
    | true => exact hrecoverable push hw
    | false => exact hkept push
  | restoreApply push version prepared =>
    rcases hw with ⟨hpush, hle, projectType, entryFilePath, files, hfiles, hprepared, -⟩
    refine ⟨hrecoverable push hpush, ?_, projectType, entryFilePath, files, hfiles, hprepared, ?_⟩
    · show version ≤ w.project.workspaceVersion + 1
      omega
    · intro hsame
      have : version = w.project.workspaceVersion + 1 := hsame
      omega
  | restoreLoad push | restoreSync push | restoreRecord push snapshot => exact hkept push
  | replaceInbound prepared synced => exact hw
  | _ => trivial

theorem Fresh.recoverable (h : w.Fresh push) : w.Recoverable push :=
  ⟨.inl h.kept, h.stored⟩

/-! ## Moving on -/

/-- The project and the outcomes stay, and the operation goes on with what it knows. -/
theorem Recovers.moved (h : w.Recovers git) (hproject : w'.project = w.project)
    (houtcomes : w'.outcomes = w.outcomes)
    (hfacts : ∀ session ∈ w'.session, w.RejectionFacts git session) : w'.Recovers git := by
  constructor
  · rw [hproject]
    exact h.stored
  · exact fun session hsession => (hfacts session hsession).congr hproject
  · rw [houtcomes, hproject]
    exact h.outcomes

theorem Recovers.goto (h : w.Recovers git) (session : Session)
    (hfacts : w.RejectionFacts git session) :
    (w.goto session).Recovers git := by
  refine h.moved rfl rfl ?_
  intro session' hsession
  cases hsession
  exact hfacts

theorem Recovers.release (h : w.Recovers git) : w.release.Recovers git :=
  h.moved rfl rfl (by simp [World.release])

theorem Recovers.endPush (h : w.Recovers git) (hkept : w.Kept push) :
    (w.endPush push).Recovers git := by
  refine ⟨h.stored, by simp [World.endPush], ?_⟩
  intro outcome houtcome
  rcases List.mem_append.mp houtcome with hbefore | hnew
  · exact h.outcomes outcome hbefore
  · rw [List.mem_singleton] at hnew
    rw [hnew]
    exact hkept

variable {next : FlushStep}

theorem Recovers.afterFlush {after : AfterFlush} (h : w.Recovers git)
    (hfacts : w.RejectionFacts git (.flush next after)) : (w.afterFlush after).Recovers git := by
  cases after with
  | release => exact h.release
  | replaceInbound prepared => exact h.goto (.replaceInbound prepared true) hfacts
  | rejected push => exact h.endPush hfacts

/-- The statement that records a synchronization leaves the project alone. -/
theorem Recovers.recordSync (h : w.Recovers git) (version : Int) (pendingSync : Bool) :
    (w.recordSync version pendingSync).Recovers git := by
  rcases w.recordSync_cases version pendingSync with hsame | ⟨-, hset⟩
  · rwa [hsame]
  · rw [hset]
    exact h.moved rfl rfl h.session

theorem Recovers.checkoutBranch (h : w.Recovers git) : (w.checkoutBranch git).Recovers git :=
  h.moved rfl rfl h.session

theorem Recovers.syncToRepo (h : w.Recovers git) (hsync : w.syncToRepo = some w') :
    w'.Recovers git := by
  rcases Option.map_eq_some_iff.mp hsync with ⟨tree, -, rfl⟩
  exact h.moved rfl rfl h.session

variable {prepared : PreparedRepoImport} {project : Project}

theorem projectType_applyRepoImport {project project' : Project} {expected : Option Int}
    (h : applyRepoImport project expected prepared = .ok project') :
    project'.projectType = project.projectType := by
  unfold applyRepoImport at h
  split at h
  · simp at h
  · simp at h
  · simp at h
  next hreplaced =>
  rw [← Except.ok.inj h]
  exact (replaceProjectContent_replaced hreplaced).2.2.1

/-- A replacement goes on with what holds of the new content. -/
theorem Recovers.replace {expected : Option Int}
    (h : w.Recovers git) (session : Session) (absorbed : List Nat)
    (happlied : applyRepoImport w.project expected prepared = .ok project)
    (hstored : isStored project.content = true)
    (hfacts : (w.replace project absorbed).RejectionFacts git session) :
    ((w.replace project absorbed).goto session).Recovers git := by
  refine ⟨hstored, ?_, ?_⟩
  · intro session' hsession
    cases hsession
    exact hfacts.congr rfl
  · intro outcome houtcome
    show SameWorkspace project.projectType outcome.latest outcome.content
    rw [projectType_applyRepoImport happlied]
    exact h.outcomes outcome houtcome

/-! ## Steps -/

theorem recovers_advanceFlush {after : AfterFlush} (h : w.Recovers git)
    (hfacts : w.RejectionFacts git (.flush next after))
    (hstep : w.advanceFlush git after next = some w') : w'.Recovers git := by
  -- the facts of a flush are those of what it is part of
  have hflush : ∀ next', w.RejectionFacts git (.flush next' after) := by
    intro next'
    cases after <;> exact hfacts
  cases next with
  | load =>
    cases hstep
    split
    · exact h.checkoutBranch.goto _ ((hflush .sync).congr rfl)
    · exact h.afterFlush hfacts
  | sync =>
    rcases Option.map_eq_some_iff.mp hstep with ⟨written, hsync, rfl⟩
    exact (h.syncToRepo hsync).goto _ ((hflush _).congr (sameRows_syncToRepo hsync).project)
  | commit snapshot =>
    cases hstep
    refine h.moved rfl rfl ?_
    intro session hsession
    cases hsession
    exact hflush _
  | complete snapshot =>
    cases hstep
    exact (h.recordSync snapshot.version false).afterFlush
      (hfacts.congr (project_recordSync w snapshot.version false))

theorem recovers_advanceRevision (h : w.Recovers git)
    (hstep : w.advanceRevision git next = some w') : w'.Recovers git := by
  have hrevision : ∀ w' : World, w'.Recovers git → ∀ next', (w'.goto (.revision next')).Recovers git :=
    fun w' hw' next' => hw'.goto _ trivial
  cases next with
  | load =>
    simp only [World.advanceRevision] at hstep
    split at hstep
    · simp at hstep
    · cases hstep
      exact hrevision _ h.checkoutBranch _
  | sync =>
    rcases Option.map_eq_some_iff.mp hstep with ⟨written, hsync, rfl⟩
    exact hrevision _ (h.syncToRepo hsync) _
  | commit snapshot =>
    cases hstep
    refine h.moved rfl rfl ?_
    intro session hsession
    cases hsession
    trivial
  | complete snapshot =>
    cases hstep
    exact (h.recordSync snapshot.version false).release

/-- A push that has not replaced anything is rejected. -/
theorem recovers_restoreHead (h : w.Recovers git) (hfresh : w.Fresh push)
    (restoreWorkspace : Bool) : (w.goto (.restoreHead push restoreWorkspace)).Recovers git := by
  cases restoreWorkspace with
  | true => exact h.goto (.restoreHead push true) hfresh.recoverable
  | false => exact h.goto (.restoreHead push false) hfresh.kept

theorem recovers_reconcile {success : Bool} (h : w.Recovers git) (hfresh : w.Fresh push) :
    (w.reconcile git push success).Recovers git := by
  unfold World.reconcile
  dsimp only
  split
  · exact h.release
  split
  · exact recovers_restoreHead h hfresh _
  split
  · split
    · exact recovers_restoreHead h hfresh _
    · split
      · exact recovers_restoreHead h hfresh _
      · next prepared hprepared =>
        exact h.goto (.pushMerge push prepared) ⟨hfresh, _, _, _, hprepared⟩
  · split
    · exact recovers_restoreHead h hfresh _
    · next prepared hprepared =>
      exact h.goto (.pushImport push prepared) ⟨hfresh, _, _, _, hprepared⟩

/-- A push that goes through has replaced what it found. -/
theorem recoverable_replace (absorbed : List Nat) (hfresh : w.Fresh push)
    (happlied : applyRepoImport w.project (some push.before.version) prepared = .ok project) :
    (w.replace project absorbed).Recoverable push := by
  rcases applyRepoImport_ok happlied with ⟨hexpected, -, -, -, hversion, -⟩
  have hsame := hexpected _ rfl
  refine ⟨.inr ⟨?_, hfresh.latest_eq hsame⟩, hfresh.stored⟩
  show project.workspaceVersion = push.before.version + 1
  rw [hversion, hsame]

section

variable (h : w.Recovers git)
include h

/-- The replacement of a push, imported or merged. -/
theorem recovers_import {absorbed : List Nat}
    {next : Session} (hfacts : w.Fresh push ∧ IsPrepared git prepared)
    (happlied : applyRepoImport w.project (some push.before.version) prepared = .ok project)
    (hnext : (w.replace project absorbed).Recoverable push →
      (w.replace project absorbed).RejectionFacts git next) :
    ((w.replace project absorbed).goto next).Recovers git := by
  rcases hfacts with ⟨hfresh, projectType, entryFilePath, files, hprepared⟩
  exact h.replace next absorbed happlied (isStored_of_applyRepoImport hprepared happlied)
    (hnext (recoverable_replace absorbed hfresh happlied))

/-- A restoration leaves what the users left. -/
theorem recovers_restoreApply {version : Int}
    (hfacts : w.RejectionFacts git (.restoreApply push version prepared))
    (hguard : (Session.restoreApply push version prepared).MayRestore git w)
    (hstep : w.advance git (.restoreApply push version prepared) = some w') :
    w'.Recovers git ∧ w'.Kept push := by
  rcases hfacts with ⟨hpush, -, projectType, entryFilePath, files, hfiles, hprepared, hcurrent⟩
  simp only [World.advance] at hstep
  split at hstep
  · simp at hstep
  next project happlied =>
  cases hstep
  rcases applyRepoImport_ok happlied with ⟨hexpected, -, -, -, -, hcontent⟩
  have hversion := hexpected version rfl
  rcases hguard hversion with ⟨hlatest, hrestorable⟩
  rcases hcurrent hversion with ⟨rfl, rfl⟩
  have hkept : (w.replace project push.before.absorbed).Kept push := by
    show SameWorkspace project.projectType push.latest project.content
    rw [projectType_applyRepoImport happlied, hcontent, hlatest]
    exact sameWorkspace_of_restore hpush.stored hrestorable hfiles hprepared
  exact ⟨h.replace (.restoreLoad push) _ happlied
    (isStored_of_applyRepoImport hprepared happlied) hkept, hkept⟩

theorem recovers_restoreCompare (hpush : w.Recoverable push)
    (hstep : w.advance git (.restoreCompare push) = some w') : w'.Recovers git := by
  simp only [World.advance] at hstep
  split at hstep
  · split at hstep
    · next hprepared =>
      rcases Option.map_eq_some_iff.mp hprepared with ⟨files, hfiles, hprepared⟩
      cases hstep
      refine h.goto _ ⟨hpush, le_refl _, _, _, files, hfiles, hprepared, fun _ => ⟨rfl, rfl⟩⟩
    · simp at hstep
  · next hversion =>
    cases hstep
    rcases hpush.kept_or_replaced with hkept | hreplaced
    · exact h.goto (.restoreLoad push) hkept
    · exact absurd hreplaced.version hversion

/-- The operation under way takes a step. -/
theorem Recovers.advance (hsession : w.session = some session)
    (hguard : session.MayRestore git w) (hstep : w.advance git session = some w') :
    w'.Recovers git := by
  have hfacts := h.session session hsession
  cases session with
  | flush next after => exact recovers_advanceFlush h hfacts hstep
  | revision next => exact recovers_advanceRevision h hstep
  | replaceInbound prepared synced =>
    simp only [World.advance] at hstep
    split at hstep
    · cases hstep
      exact h.release
    rename_i project happlied
    cases hstep
    -- what an inbound synchronization replaces was prepared storable
    have hstored : isStored project.content = true := by
      rw [(applyRepoImport_ok happlied).2.2.2.2.2]
      exact hfacts
    have hnext := h.replace (.flush .load .release) [] happlied hstored trivial
    exact hnext.moved rfl rfl hnext.session
  | pushLoad =>
    simp only [World.advance] at hstep
    split at hstep
    · cases hstep
      exact h.release
    · next pendingSync hpending =>
      cases hstep
      exact h.checkoutBranch.goto (.pushCapture pendingSync) trivial
  | pushCapture pendingSync =>
    -- the snapshot is what is there now
    cases hstep
    exact h.goto _ ⟨SameWorkspace.refl _ _, le_refl _, fun _ => rfl, h.stored⟩
  | pushBackend push => simp [World.advance] at hstep
  | pushReconcile push success =>
    cases hstep
    exact recovers_reconcile h hfacts
  | pushImport push prepared | pushMerge push prepared =>
    simp only [World.advance] at hstep
    split at hstep
    · cases hstep
      exact recovers_restoreHead h hfacts.1 _
    · next project happlied =>
      cases hstep
      exact recovers_import h hfacts happlied id
  | pushImportRecord push version =>
    cases hstep
    exact (h.recordSync version false).release
  | pushMergeSync push =>
    rcases Option.map_eq_some_iff.mp hstep with ⟨written, hsync, rfl⟩
    have hnext : w.RejectionFacts git (.pushMergeRecord push w.snapshot
      (written.repository.worktreeIsClean git)) := hfacts
    exact (h.syncToRepo hsync).goto _ (hnext.congr (sameRows_syncToRepo hsync).project)
  | pushMergeRecord push snapshot isClean =>
    cases hstep
    exact (h.recordSync snapshot.version !isClean).release
  | restoreHead push restoreWorkspace =>
    cases hstep
    refine h.moved rfl rfl ?_
    intro session hsession
    cases hsession
    -- the outcome of the restoration is the same question either way
    cases restoreWorkspace with
    | true | false => exact hfacts
  | restoreCompare push => exact recovers_restoreCompare h hfacts hstep
  | restoreApply push version prepared => exact (recovers_restoreApply h hfacts hguard hstep).1
  | restoreLoad push =>
    cases hstep
    refine h.goto _ ?_
    split <;> exact hfacts
  | restoreSync push =>
    rcases Option.map_eq_some_iff.mp hstep with ⟨written, hsync, rfl⟩
    have hnext : w.RejectionFacts git (.restoreRecord push w.snapshot) := hfacts
    exact (h.syncToRepo hsync).goto _ (hnext.congr (sameRows_syncToRepo hsync).project)
  | restoreRecord push snapshot =>
    cases hstep
    refine (h.recordSync snapshot.version false).endPush ?_
    rw [World.Kept, project_recordSync]
    exact hfacts

/-- A push whose transaction may have been committed is rejected. -/
theorem recovers_fail_import (hfacts : w₀.Fresh push) (hproject : w.project = w₀.project
      ∨ applyRepoImport w₀.project (some push.before.version) prepared = .ok w.project) :
    (w.goto (.restoreHead push true)).Recovers git := by
  refine h.goto (.restoreHead push true) ?_
  rcases hproject with hsame | happlied
  · have hnext : w₀.RejectionFacts git (.restoreHead push true) := hfacts.recoverable
    exact hnext.congr hsame
  · have hnext : (w₀.replace w.project []).RejectionFacts git (.restoreHead push true) :=
      recoverable_replace [] hfacts happlied
    exact hnext.congr rfl

/-- The operation under way fails in a step, with or without effect. -/
theorem Recovers.fail {effective : Bool} (hsession : w.session = some session)
    (hguard : effective = true → session.MayRestore git w) (hstop : session.MayStop w effective)
    (hstep : (if effective then w.advance git session else some w) = some w') :
    (w'.failed session).Recovers git := by
  have hfacts := h.session session hsession
  have hnext : w'.Recovers git := by
    cases effective with
    | true => exact h.advance hsession (hguard rfl) hstep
    | false => exact Option.some.inj hstep ▸ h
  have hproject : w'.project = w.project
      ∨ ∃ expected prepared, session.replacement = some (expected, prepared)
        ∧ applyRepoImport w.project expected prepared = .ok w'.project := by
    cases effective with
    | true => exact project_advance hstep
    | false => exact .inl (Option.some.inj hstep ▸ rfl)
  -- a step that replaces nothing leaves the facts as they were
  have hkeep : session.replacement = none → w'.RejectionFacts git session := by
    intro hnone
    rcases hproject with hsame | ⟨expected, prepared, hsome, -⟩
    · exact hfacts.congr hsame
    · rw [hnone] at hsome
      simp at hsome
  have himport : ∀ {expected prepared}, session.replacement = some (expected, prepared) →
      w'.project = w.project ∨ applyRepoImport w.project expected prepared = .ok w'.project := by
    intro expected prepared hsome
    refine hproject.imp_right ?_
    rintro ⟨expected', prepared', hsome', happlied⟩
    rw [hsome, Option.some.injEq, Prod.mk.injEq] at hsome'
    rcases hsome' with ⟨rfl, rfl⟩
    exact happlied
  have hkept : ∀ push, w.Recoverable push → (w.HasReplaced push → w.Kept push) → w.Kept push := by
    intro push hpush hreplaced
    exact hpush.kept_or_replaced.elim id hreplaced
  cases session with
  | flush next after =>
    cases after with
    | rejected push => exact hnext.endPush (hkeep rfl)
    | release | replaceInbound => exact hnext.release
  | revision | replaceInbound | pushLoad | pushCapture => exact hnext.release
  | pushBackend push => exact hnext.goto (.pushReconcile push false) (hkeep rfl)
  | pushReconcile push success => exact recovers_restoreHead hnext (hkeep rfl) true
  | pushImport push prepared | pushMerge push prepared =>
    exact recovers_fail_import hnext hfacts.1 (himport rfl)
  | pushImportRecord push version | pushMergeSync push | pushMergeRecord push snapshot isClean =>
    exact hnext.goto (.restoreHead push true) (hkeep rfl)
  | restoreHead push restoreWorkspace =>
    have hbefore : w.Kept push := by
      cases restoreWorkspace with
      | true => exact hkept push hfacts hstop
      | false => exact hfacts
    have hafter : w.RejectionFacts git (.restoreLoad push) := hbefore
    rcases hproject with hsame | ⟨_, _, hsome, -⟩
    · exact hnext.endPush (hafter.congr hsame)
    · simp [Session.replacement] at hsome
  | restoreCompare push =>
    have hafter : w.RejectionFacts git (.restoreLoad push) := hkept push hfacts hstop
    rcases hproject with hsame | ⟨_, _, hsome, -⟩
    · exact hnext.endPush (hafter.congr hsame)
    · simp [Session.replacement] at hsome
  | restoreApply push version prepared =>
    cases effective with
    | true => exact hnext.endPush (recovers_restoreApply h hfacts (hguard rfl) hstep).2
    | false =>
      cases hstep
      exact hnext.endPush (hkept push hfacts.1 (hstop rfl))
  | restoreLoad push | restoreSync push | restoreRecord push snapshot =>
    exact hnext.endPush (hkeep rfl)

/-- The Git backend of a push ends. -/
theorem Recovers.backend {commits : List CommitObject} {head : Option Oid}
    {outcome : BackendOutcome} (hsession : w.session = some (.pushBackend push)) :
    (w.runBackend git push commits head outcome).Recovers git := by
  have hfresh : w.Fresh push := h.session _ hsession
  have hmoved : ∀ repository, World.Recovers git { w with repository } :=
    fun repository => h.moved rfl rfl h.session
  cases outcome with
  | responded success =>
    have hnext : w.RejectionFacts git (.pushReconcile push success) := hfresh
    exact (hmoved _).goto _ (hnext.congr rfl)
  | interrupted index worktree =>
    have hnext : w.RejectionFacts git (.restoreHead push false) := hfresh.kept
    simp only [runBackend]
    split
    · exact (hmoved _).endPush hfresh.kept
    · exact (hmoved _).goto _ (hnext.congr rfl)

theorem Recovers.step {action : Action} (hguard : RestoreGuard git w action)
    (hstep : w.step git action = some w') : w'.Recovers git := by
  rcases isOthers_or_starts action with hothers | ⟨started, hstart⟩ | rfl | ⟨effective, rfl⟩
    | ⟨commits, head, outcome, rfl⟩
  · rcases others_cases hothers hstep with
      ⟨houtcomes, ⟨hproject, hsession⟩ | ⟨content, hproject, hsession, -⟩⟩
    · refine h.moved hproject houtcomes ?_
      rw [hsession]
      exact h.session
    · -- a user changes the content
      refine ⟨(step_others hothers hstep).2.1 h.stored, ?_, ?_⟩
      · intro session hmem
        rw [hsession, Option.mem_def] at hmem
        rcases Option.map_eq_some_iff.mp hmem with ⟨before, hbefore, rfl⟩
        exact ((h.session before hbefore).changeBy content).congr hproject
      · rw [houtcomes, hproject]
        exact h.outcomes
  · rcases step_start hstart hstep with ⟨-, rfl⟩
    refine h.goto started ?_
    cases action with
    | startInbound prepared synced =>
      have hstored : isStored prepared.content = true := by
        simp only [World.step] at hstep
        split at hstep
        · next hfree =>
          simp only [Bool.and_eq_true] at hfree
          exact hfree.2
        · simp at hstep
      cases hstart
      cases synced <;> exact hstored
    | startFlush | startRevision | startPush =>
      cases hstart
      trivial
    | _ => simp [Action.startedSession] at hstart
  · rcases Option.bind_eq_some_iff.mp hstep with ⟨session, hsession, hadvance⟩
    exact h.advance hsession (hguard session hsession) hadvance
  · rcases Option.bind_eq_some_iff.mp hstep with ⟨session, hsession, hfail⟩
    rcases Option.map_eq_some_iff.mp hfail with ⟨w₁, hadvance, rfl⟩
    rcases hguard session hsession with ⟨hrestores, hstop⟩
    exact h.fail hsession hrestores hstop hadvance
  · rcases step_backend hstep with ⟨push, hsession, -, rfl⟩
    exact h.backend hsession

end

theorem recovers_initial (hproject : isStored project.content = true) :
    (World.initial project).Recovers git :=
  ⟨hproject, by simp [World.initial], by simp [World.initial]⟩

end World

/-! ## Whole runs -/

/-- In a run in which a snapshot is restored only over the replacement of its own push, and in
which no recovery fails behind such a replacement, a push that is not accepted leaves what its
users left: the workspace that it found, or their last change since. Up to its replacement it
has left the workspace alone. -/
theorem rejected_push_keeps_the_workspace {git : GitLibrary} {project : Project} {w : World}
    {actions : List Action} (hproject : isStored project.content = true)
    (hrun : Run (Guarded (RestoreGuard git) fun w action w' => w.step git action = some w')
      (World.initial project) actions w) :
    (∀ outcome ∈ w.outcomes, SameWorkspace w.project.projectType outcome.latest outcome.content)
      ∧ ∀ push success, w.session = some (.pushReconcile push success) →
        SameWorkspace w.project.projectType push.latest w.project.content := by
  have hinv : w.Recovers git :=
    hrun.invariant_of_guard (fun s a t hs hguard hstep => hs.step hguard hstep)
      (World.recovers_initial hproject)
  refine ⟨hinv.outcomes, ?_⟩
  intro push success hsession
  have hfresh : w.Fresh push := hinv.session _ hsession
  exact hfresh.kept

/-! ### A restored edit -/

/-- A push with a file whose name is blank. -/
def blankNamePushed : Action :=
  .backend
    [⟨fileTree [(mainFile, encodeUtf8 ['z']), ([' '], encodeUtf8 ['b'])], [0]⟩] (some 1)
    (.responded true)

/-- A user edits while the push is received, and the push is rejected for the name. -/
def editDuringARejectedPush : List Action :=
  editAndFlush oneDocument.content
    ++ [.startPush, .advance, .advance, blankNamePushed, .edit ⟨[⟨mainFile, ['y']⟩], [], [], none⟩]
    ++ List.replicate 9 .advance

theorem edit_during_a_rejected_push_is_lost :
    ¬ ∀ (git : GitLibrary) (project : Project) (w : World) (actions : List Action),
      isStored project.content = true →
      Run (fun w action w' => w.step git action = some w') (World.initial project) actions w →
        ∀ outcome ∈ w.outcomes,
          SameWorkspace w.project.projectType outcome.latest outcome.content := by
  intro hclaim
  let w := (exec (World.step plainGit) (World.initial oneDocument) editDuringARejectedPush).getD
    (World.initial oneDocument)
  have hexec : exec (World.step plainGit) (World.initial oneDocument) editDuringARejectedPush
      = some w := eq_some_getD (by decide +kernel) _
  have hkept := hclaim _ _ _ _ (by decide +kernel) (exec_run hexec)
  have hlost : ∃ outcome ∈ w.outcomes,
      outcome.latest.documents = [⟨mainFile, ['y']⟩]
        ∧ outcome.content.documents = [⟨mainFile, ['x']⟩] := by decide +kernel
  rcases hlost with ⟨outcome, houtcome, hlatest, hcontent⟩
  have hsame := (hkept outcome houtcome).documents
  rw [hlatest, hcontent] at hsame
  have hdiffers : ¬ List.Perm [WorkspaceDocument.mk mainFile ['y']] [⟨mainFile, ['x']⟩] := by
    decide +kernel
  exact hdiffers hsame

/-- A push is imported, its record fails, and the workspace is restored. -/
def recordFails : List Action :=
  editAndFlush oneDocument.content
    ++ [.startPush, .advance, .advance,
      .backend [⟨fileTree [(mainFile, encodeUtf8 ['z'])], [0]⟩] (some 1) (.responded true),
      .advance, .advance, .fail false]
    ++ List.replicate 6 .advance

theorem unrecorded_push_is_undone :
    ∃ w : World, ∃ outcome ∈ w.outcomes, w.project.workspaceVersion = 3
      ∧ SameWorkspace w.project.projectType oneDocument.content outcome.content := by
  have hexec : exec (fun w action => if RestoreGuard plainGit w action then w.step plainGit action
      else none) (World.initial oneDocument) recordFails = some _ :=
    eq_some_getD (by decide +kernel) (World.initial oneDocument)
  have hkept := (rejected_push_keeps_the_workspace (by decide +kernel)
    (exec_guarded_run hexec)).1
  have houtcome : (⟨oneDocument.content, ⟨[⟨mainFile, ['x']⟩], [], [], some mainFile⟩⟩
      : PushOutcome) ∈ ((exec (fun w action => if RestoreGuard plainGit w action
        then w.step plainGit action else none) (World.initial oneDocument) recordFails).getD
        (World.initial oneDocument)).outcomes := by
    decide +kernel
  refine ⟨_, _, houtcome, ?_, hkept _ houtcome⟩
  decide +kernel

end Toss.Versioning
