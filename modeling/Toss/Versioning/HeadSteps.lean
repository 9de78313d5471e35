import Toss.Versioning.HeadInvariant

/-!
# The steps of an operation

One lemma for each thing that the holder of the lock can do, done or failed.

* `Mirrored.advanceFlush`, `Mirrored.advanceRevision` — commits of what was written;
* `Mirrored.reconcile`, `Mirrored.pushImport`, `Mirrored.pushMerge` — pushes;
* `Mirrored.restoreHead`, `Mirrored.restoreApply`, `settled_restoreRecord` — recovery;
* `Mirrored.advance`, `Mirrored.raise` — all of them.
-/

namespace Toss.Versioning

open Toss.Foundation Toss.Workspace

/-! ## Imports -/

theorem applyRepoImport_ok {project project' : Project} {expected : Option Int}
    {prepared : PreparedRepoImport} (h : applyRepoImport project expected prepared = .ok project') :
    (∀ version ∈ expected, version = project.workspaceVersion)
      ∧ (prepared.content.documents.map WorkspaceDocument.path).Nodup
      ∧ (prepared.content.assets.map WorkspaceAsset.path).Nodup
      ∧ prepared.content.directories.Nodup
      ∧ project'.workspaceVersion = project.workspaceVersion + 1
      ∧ project'.content = prepared.content := by
  unfold applyRepoImport at h
  split at h
  · simp at h
  · simp at h
  · simp at h
  next hreplaced =>
  rcases replaceProjectContent_replaced hreplaced with
    ⟨hexpected, hinsertable, -, hversion, -, hcontent⟩
  rw [← Except.ok.inj h]
  simp only [ReplaceProjectContent.isInsertable, Bool.and_eq_true, decide_eq_true_eq]
    at hinsertable
  rcases hinsertable with ⟨⟨⟨⟨⟨hdocuments, hassets⟩, hdirectories⟩, -⟩, -⟩, -⟩
  exact ⟨hexpected, hdocuments, hassets, hdirectories, hversion, hcontent⟩

variable {files : List (Text × Bytes)}

/-- What the files of a directory become has sanitized paths. -/
theorem sanitized_of_prepareRepoImport {git : GitLibrary} {projectType : ProjectType}
    {entryFilePath : Text} {prepared : PreparedRepoImport}
    (h : prepareRepoImport git projectType entryFilePath files = .ok prepared) :
    (∀ document ∈ prepared.documents, IsProjectPath document.path)
      ∧ (∀ asset ∈ prepared.assets, IsProjectPath asset.path)
      ∧ ∀ directory ∈ prepared.directories, IsProjectPath directory := by
  rcases prepareRepoImport_ok h with ⟨clean, hclean, hdocuments, hassets, hdirectories, -⟩
  have hpaths : ∀ file ∈ clean, IsProjectPath file.1 := by
    intro file hfile
    rcases (mem_of_mapM hclean).mp hfile with ⟨raw, -, hraw⟩
    rcases Option.map_eq_some_iff.mp hraw with ⟨path, hpath, rfl⟩
    exact isProjectPath_of_sanitizeProjectPath hpath
  refine ⟨?_, ?_, ?_⟩
  · intro document hdocument
    rw [hdocuments] at hdocument
    rcases List.mem_filterMap.mp hdocument with ⟨file, hfile, himported⟩
    have hpath := congrArg Prod.fst (importedDocument_file himported)
    dsimp only at hpath
    rw [hpath]
    exact hpaths file hfile
  · intro asset hasset
    rw [hassets] at hasset
    rcases List.mem_filterMap.mp hasset with ⟨file, hfile, himported⟩
    unfold importedAsset at himported
    split at himported
    · simp at himported
    · cases himported
      exact hpaths file hfile
  · intro directory hdirectory
    rw [hdirectories, sortPaths, List.mem_insertionSort, List.mem_dedup,
      List.mem_flatMap] at hdirectory
    rcases hdirectory with ⟨file, hfile, hdirectory⟩
    exact isProjectPath_of_mem_parentDirectories (hpaths file hfile) hdirectory

/-- What a directory was imported as can be stored. -/
theorem isStored_of_applyRepoImport {git : GitLibrary} {projectType : ProjectType}
    {entryFilePath : Text} {prepared : PreparedRepoImport} {project project' : Project}
    {expected : Option Int}
    (hprepared : prepareRepoImport git projectType entryFilePath files = .ok prepared)
    (h : applyRepoImport project expected prepared = .ok project') :
    isStored project'.content = true := by
  rcases applyRepoImport_ok h with ⟨-, hdocuments, hassets, hdirectories, -, hcontent⟩
  rcases sanitized_of_prepareRepoImport hprepared with ⟨hdocument, hasset, hdirectory⟩
  rw [hcontent]
  simp only [isStored, Bool.and_eq_true, List.all_eq_true, decide_eq_true_eq]
  exact ⟨⟨⟨⟨⟨hdocument, hasset⟩, hdirectory⟩, hdocuments⟩, hassets⟩, hdirectories⟩

/-- The files of a stored content have sanitized paths. -/
theorem isProjectPath_of_isStored {content : ProjectContent} (h : isStored content = true) :
    ∀ file ∈ workspaceFiles content, IsProjectPath file.1 := by
  simp only [isStored, Bool.and_eq_true, List.all_eq_true, decide_eq_true_eq] at h
  rcases h with ⟨⟨⟨⟨⟨hdocuments, hassets⟩, -⟩, -⟩, -⟩, -⟩
  intro file hfile
  rcases List.mem_append.mp hfile with hdocument | hasset
  · rcases List.mem_map.mp hdocument with ⟨document, hmem, rfl⟩
    exact hdocuments document hmem
  · rcases List.mem_map.mp hasset with ⟨asset, hmem, rfl⟩
    exact hassets asset hmem

/-! ## Moving on -/

namespace World

variable {git : GitLibrary} {w w' : World} {push : PushSession} {session : Session}

section

variable (hknown : w.repository.Knows w.repository.head)
  (hstored : isStored w.project.content = true)
include hknown hstored

theorem Mirrored.goto (h : w.Sound git session) : (w.goto session).Mirrored git := by
  refine ⟨hknown, hstored, by simp [World.goto], ?_⟩
  intro session' hsession
  cases hsession
  exact h.drift (w.drifts_goto _)

theorem Mirrored.release (h : w.Settled) : w.release.Mirrored git := by
  refine ⟨hknown, hstored, fun _ => Settled.drift h (w.drifts_goto none), ?_⟩
  simp [World.release]

theorem Mirrored.endPush (h : w.Settled) (push : PushSession) : (w.endPush push).Mirrored git := by
  refine ⟨hknown, hstored, fun _ => h, ?_⟩
  simp [World.endPush]

theorem Mirrored.afterFlush (h : w.Settled) {after : AfterFlush}
    (hafter : after.IsStored) : (w.afterFlush after).Mirrored git := by
  cases after with
  | release => exact Mirrored.release hknown hstored h
  | replaceInbound prepared => exact Mirrored.goto hknown hstored ⟨h, hafter⟩
  | rejected push => exact Mirrored.endPush hknown hstored h push

end

/-- The flag is cleared for the version that HEAD holds, or stays. -/
theorem Committed.settled_recordSync {version : Int} {content : ProjectContent}
    (h : w.Committed version content) (pendingSync : Bool) :
    (w.recordSync version pendingSync).Settled := by
  rcases w.recordSync_cases version pendingSync with hsame | ⟨hversion, hrecord⟩
  · rw [hsame]
    exact h.isSettled
  · rw [hrecord]
    intro _
    exact h.2.content_eq hversion ▸ h.1

/-- The worktree and the index change under the same head. -/
structure SameHead (w w' : World) : Prop where
  objects : w'.repository.objects = w.repository.objects
  head : w'.repository.head = w.repository.head
  project : w'.project = w.project
  pendingSync : w'.pendingSync = w.pendingSync

theorem SameHead.headTree (h : w.SameHead w') :
    w'.repository.headTree = w.repository.headTree := by
  rw [Repository.headTree_eq, Repository.headTree_eq, h.head]
  exact Repository.treeAt_congr h.objects

theorem SameHead.knows (h : w.SameHead w') {head : Option Oid}
    (hknown : w.repository.Knows head) : w'.repository.Knows head := by
  intro oid hoid
  rw [h.objects]
  exact hknown oid hoid

theorem SameHead.settled (h : w.SameHead w') (hw : w.Settled) : w'.Settled := by
  intro hpending
  rw [h.headTree, h.project]
  exact hw (h.pendingSync ▸ hpending)

/-- What a push relies on is in the objects and in the flag. -/
theorem PushSound.congr (hw : w.PushSound push)
    (hobjects : w'.repository.objects = w.repository.objects)
    (hpendingSync : w'.pendingSync = w.pendingSync) : w'.PushSound push := by
  constructor
  · intro hmerges
    rw [hpendingSync]
    exact hw.merges hmerges
  · intro hpending
    rw [Repository.treeAt_congr hobjects]
    exact hw.mirrored (hpendingSync ▸ hpending)
  · exact hw.stored
  · intro oid hoid
    rw [hobjects]
    exact hw.known oid hoid

theorem sameHead_checkoutBranch (git : GitLibrary) (w : World) :
    w.SameHead (w.checkoutBranch git) :=
  ⟨Repository.objects_checkoutBranch git w.repository,
    Repository.head_checkoutBranch git w.repository, rfl, rfl⟩

/-- What `sync_project_documents_to_repo` does. -/
theorem syncToRepo_some (h : w.syncToRepo = some w') :
    w.SameHead w' ∧ w'.Written w.snapshot := by
  rcases Option.map_eq_some_iff.mp h with ⟨tree, htree, rfl⟩
  refine ⟨⟨rfl, rfl, rfl, rfl⟩, worktree_of_materialize htree, ?_⟩
  exact ⟨le_refl _, fun _ => rfl, fun _ => rfl⟩

/-! ## Flushes and revisions -/

/-- A commit that stages the worktree as it is holds what was written there. -/
theorem Written.committed {snapshot : Snapshot} {repository : Repository}
    (hw : w.Written snapshot) (hdistinct : HasDistinctPaths snapshot.content)
    (htree : SameEntries repository.headTree w.repository.worktree) :
    World.Committed { w with repository } snapshot.version snapshot.content := by
  refine ⟨?_, ⟨hw.2.le, hw.2.content_eq, hw.2.settled⟩⟩
  rw [hw.1] at htree
  exact mirrors_of_materialize hdistinct htree

variable {next : FlushStep}

theorem Mirrored.advanceFlush {after : AfterFlush} (hknown : w.repository.Knows w.repository.head)
    (hstored : isStored w.project.content = true) (hw : w.SoundFlush next)
    (hafter : after.IsStored) (hmeets : (Session.flush next after).Meets git w)
    (h : w.advanceFlush git after next = some w') : w'.Mirrored git := by
  cases next with
  | load =>
    cases h
    split
    · have hsame := w.sameHead_checkoutBranch git
      exact Mirrored.goto (hsame.head ▸ hsame.knows hknown) hstored ⟨hsame.settled hw, hafter⟩
    · exact Mirrored.afterFlush hknown hstored hw hafter
  | sync =>
    rcases Option.map_eq_some_iff.mp h with ⟨written, hsync, rfl⟩
    rcases syncToRepo_some hsync with ⟨hsame, hwritten⟩
    refine Mirrored.goto (hsame.head ▸ hsame.knows hknown) (hsame.project ▸ hstored) ?_
    exact ⟨⟨hsame.settled hw, hwritten⟩, hafter⟩
  | commit snapshot =>
    cases h
    set repository := if w.repository.worktreeIsClean git then w.repository
      else w.repository.commitStagedIfChanged git with hrepository
    have htree : SameEntries repository.headTree
        (git.stage w.repository.index w.repository.worktree) :=
      Repository.headTree_flushed git w.repository
    have hknown' : repository.Knows repository.head := by
      rw [hrepository]
      split
      · exact hknown
      · exact Repository.knows_commitStagedIfChanged hknown
    refine Mirrored.goto hknown' hstored ⟨?_, hafter⟩
    exact hw.2.committed hmeets.1 (htree.trans hmeets.2)
  | complete snapshot =>
    cases h
    refine Mirrored.afterFlush ?_ ?_ (hw.settled_recordSync false) hafter
    · simpa using hknown
    · simpa using hstored

theorem Mirrored.advanceRevision (hknown : w.repository.Knows w.repository.head)
    (hstored : isStored w.project.content = true) (hw : w.SoundFlush next)
    (hmeets : (Session.revision next).Meets git w) (h : w.advanceRevision git next = some w') :
    w'.Mirrored git := by
  cases next with
  | load =>
    simp only [World.advanceRevision] at h
    split at h
    · simp at h
    · cases h
      have hsame := w.sameHead_checkoutBranch git
      exact Mirrored.goto (hsame.head ▸ hsame.knows hknown) hstored (hsame.settled hw)
  | sync =>
    rcases Option.map_eq_some_iff.mp h with ⟨written, hsync, rfl⟩
    rcases syncToRepo_some hsync with ⟨hsame, hwritten⟩
    refine Mirrored.goto (hsame.head ▸ hsame.knows hknown) (hsame.project ▸ hstored) ?_
    exact ⟨hsame.settled hw, hwritten⟩
  | commit snapshot =>
    cases h
    set staged := w.repository.commitStagedIfChanged git with hstaged
    set repository := if staged.head = w.repository.head then staged.commitAllowEmpty git
      else staged with hrepository
    have htree : SameEntries repository.headTree w.repository.worktree := by
      have hworktree : staged.worktree = w.repository.worktree := by
        rw [hstaged]
        exact Repository.worktree_commitStagedIfChanged git w.repository
      rw [hrepository]
      split
      · rw [Repository.headTree_commitAllowEmpty, ← hworktree]
        exact hmeets.2.2
      · exact (Repository.headTree_commitStagedIfChanged git w.repository).trans hmeets.1.2
    have hknown' : repository.Knows repository.head := by
      rw [hrepository]
      split
      · exact Repository.knows_commit _ _
      · exact Repository.knows_commitStagedIfChanged hknown
    exact Mirrored.goto hknown' hstored (hw.2.committed hmeets.1.1 htree)
  | complete snapshot =>
    cases h
    refine Mirrored.release ?_ ?_ (hw.settled_recordSync false)
    · simpa using hknown
    · simpa using hstored

/-! ## Pushes -/

/-- A push that has exchanged nothing finds the workspace as the HEAD that it found. -/
theorem PushSound.settled_of_head (hw : w.PushSound push) (hunreplaced : w.Unreplaced push)
    (hhead : w.repository.headTree = w.repository.treeAt push.headBefore) : w.Settled := by
  intro hpending
  rw [hhead, (hunreplaced hpending).2]
  exact hw.mirrored hpending

theorem Mirrored.reconcile {success : Bool} (hknown : w.repository.Knows w.repository.head)
    (hstored : isStored w.project.content = true) (hpush : w.PushSound push)
    (hunreplaced : w.Unreplaced push) : (w.reconcile git push success).Mirrored git := by
  have hreject : ∀ restoreWorkspace, (w.goto (.restoreHead push restoreWorkspace)).Mirrored git :=
    fun _ => Mirrored.goto hknown hstored ⟨hpush, .inl hunreplaced⟩
  unfold World.reconcile
  dsimp only
  split
  · next hhead =>
    refine Mirrored.release hknown hstored (hpush.settled_of_head hunreplaced ?_)
    rw [← hhead, Repository.headTree_eq]
  split
  · exact hreject _
  split
  · next hmerges =>
    -- merge with what was edited online
    split
    · exact hreject _
    split
    · exact hreject _
    · next prepared hprepared =>
      exact Mirrored.goto hknown hstored ⟨hpush, hunreplaced, hmerges, _, _, _, hprepared⟩
  · -- import the worktree
    split
    · exact hreject _
    · next prepared hprepared =>
      exact Mirrored.goto hknown hstored ⟨hpush, hunreplaced, _, _, hprepared⟩

variable {prepared : PreparedRepoImport}

section

variable (hknown : w.repository.Knows w.repository.head)
  (hstored : isStored w.project.content = true)
include hknown hstored

theorem Mirrored.pushImport (hw : w.Sound git (.pushImport push prepared))
    (hmeets : (Session.pushImport push prepared).Meets git w)
    (h : w.advance git (.pushImport push prepared) = some w') : w'.Mirrored git := by
  rcases hw with ⟨hpush, hunreplaced, projectType, entryFilePath, hprepared⟩
  simp only [World.advance] at h
  split at h
  · cases h
    exact Mirrored.goto hknown hstored ⟨hpush, .inl hunreplaced⟩
  rename_i project happlied
  cases h
  rcases applyRepoImport_ok happlied with ⟨hexpected, -, -, -, hversion, hcontent⟩
  have hbefore : push.before.version = w.project.workspaceVersion := hexpected _ rfl
  rcases hmeets hbefore with ⟨hplain, htree⟩
  refine Mirrored.goto hknown (isStored_of_applyRepoImport hprepared happlied) ?_
  refine ⟨hpush.congr rfl rfl, fun _ => ?_, prepared.content, ?_, ?_⟩
  · show project.workspaceVersion = _
    rw [hversion, hbefore]
  · exact mirrors_of_prepareRepoImport hplain htree hprepared
  · exact ⟨le_refl _, fun _ => hcontent.symm, fun _ => rfl⟩

theorem Mirrored.pushMerge (hw : w.Sound git (.pushMerge push prepared))
    (h : w.advance git (.pushMerge push prepared) = some w') : w'.Mirrored git := by
  rcases hw with ⟨hpush, hunreplaced, hmerges, projectType, entryFilePath, files, hprepared⟩
  simp only [World.advance] at h
  split at h
  · cases h
    exact Mirrored.goto hknown hstored ⟨hpush, .inl hunreplaced⟩
  rename_i project happlied
  cases h
  exact Mirrored.goto hknown (isStored_of_applyRepoImport hprepared happlied)
    ⟨hpush.congr rfl rfl, hmerges⟩

theorem Mirrored.pushMergeSync (hw : w.Sound git (.pushMergeSync push))
    (h : w.advance git (.pushMergeSync push) = some w') : w'.Mirrored git := by
  rcases Option.map_eq_some_iff.mp h with ⟨written, hsync, rfl⟩
  rcases syncToRepo_some hsync with ⟨hsame, hwritten⟩
  refine Mirrored.goto (hsame.head ▸ hsame.knows hknown) (hsame.project ▸ hstored) ?_
  exact ⟨hw.1.congr hsame.objects hsame.pendingSync, hw.2, hwritten, rfl⟩

end

/-- A merge clears the flag if the HEAD that was pushed holds what was written. -/
theorem settled_pushMergeRecord {snapshot : Snapshot} {isClean : Bool}
    (hw : w.Sound git (.pushMergeRecord push snapshot isClean))
    (hmeets : (Session.pushMergeRecord push snapshot isClean).Meets git w) :
    (w.recordSync snapshot.version !isClean).Settled := by
  rcases hw with ⟨hpush, hmerges, hwritten, hclean⟩
  have hpending := hpush.merges hmerges
  rcases w.recordSync_cases snapshot.version !isClean with hsame | ⟨hversion, hrecord⟩
  · rw [hsame]
    intro hcleared
    rw [hpending] at hcleared
    exact absurd hcleared (by decide)
  · rw [hrecord]
    intro hcleared
    rw [hpending] at hcleared
    have hisClean : isClean = true := by simpa using hcleared
    rcases hmeets hisClean hversion with ⟨hdistinct, hwhole⟩
    have htree := Repository.stage_of_worktreeIsClean (hclean ▸ hisClean)
    have hmirrors := mirrors_of_materialize hdistinct
      (hwritten.1 ▸ htree.trans hwhole)
    exact hwritten.2.content_eq hversion ▸ hmirrors

/-! ## Recovery -/

/-- The head that the push found is back. -/
theorem Mirrored.restoreHead {restoreWorkspace : Bool} (hstored : isStored w.project.content = true)
    (hw : w.Sound git (.restoreHead push restoreWorkspace))
    (h : w.advance git (.restoreHead push restoreWorkspace) = some w') : w'.Mirrored git := by
  rcases hw with ⟨hpush, hworkspace⟩
  cases h
  set restored : World :=
    { w with repository := w.repository.restoreHead git push.headBefore } with hrestored
  have hobjects : restored.repository.objects = w.repository.objects :=
    Repository.objects_restoreHead git w.repository push.headBefore
  have hhead : restored.repository.head = push.headBefore :=
    Repository.head_restoreHead git w.repository push.headBefore
  have hpush' : restored.PushSound push := hpush.congr hobjects rfl
  have hknown' : restored.repository.Knows restored.repository.head := by
    rw [hhead]
    exact hpush'.known
  refine Mirrored.goto hknown' hstored ?_
  split
  · refine ⟨hpush', hhead, ?_⟩
    rcases hworkspace with hunreplaced | ⟨-, hreplaced⟩
    · exact .inl hunreplaced
    · exact .inr hreplaced
  · next hkeep =>
    rcases hworkspace with hunreplaced | ⟨hrestore, -⟩
    · refine hpush'.settled_of_head hunreplaced ?_
      rw [Repository.headTree_eq, hhead]
    · exact absurd hrestore hkeep

theorem Mirrored.restoreCompare (hknown : w.repository.Knows w.repository.head)
    (hstored : isStored w.project.content = true) (hw : w.Sound git (.restoreCompare push))
    (h : w.advance git (.restoreCompare push) = some w') : w'.Mirrored git := by
  rcases hw with ⟨hpush, hhead, hworkspace⟩
  simp only [World.advance] at h
  split at h
  · split at h
    · next prepared hprepared =>
      cases h
      rcases Option.map_eq_some_iff.mp hprepared with ⟨files, hfiles, hok⟩
      exact Mirrored.goto hknown hstored ⟨hpush, hhead, _, _, files, hfiles, hok⟩
    · simp at h
  · next hversion =>
    cases h
    refine Mirrored.goto hknown hstored ?_
    intro hpending
    rcases hworkspace with hunreplaced | hreplaced
    · refine hpush.settled_of_head hunreplaced ?_ hpending
      rw [Repository.headTree_eq, hhead]
    · exact absurd (hreplaced hpending) hversion

theorem Mirrored.restoreApply {version : Int} (hknown : w.repository.Knows w.repository.head)
    (hw : w.Sound git (.restoreApply push version prepared))
    (h : w.advance git (.restoreApply push version prepared) = some w') : w'.Mirrored git := by
  rcases hw with ⟨hpush, hhead, projectType, entryFilePath, files, hfiles, hprepared⟩
  simp only [World.advance] at h
  split at h
  · simp at h
  rename_i project happlied
  cases h
  rcases applyRepoImport_ok happlied with ⟨-, -, -, -, -, hcontent⟩
  refine Mirrored.goto hknown (isStored_of_applyRepoImport hprepared happlied) ?_
  intro hpending
  have hmirrors := hpush.mirrored hpending
  have hperm := workspaceFiles_of_restore hmirrors.1 (isProjectPath_of_isStored hpush.stored)
    hfiles hprepared
  show Mirrors w.repository.headTree project.content
  rw [hcontent, Repository.headTree_eq, hhead]
  exact hmirrors.congr_content hperm.symm

theorem settled_restoreRecord {snapshot : Snapshot}
    (hw : w.Sound git (.restoreRecord push snapshot))
    (hmeets : (Session.restoreRecord push snapshot).Meets git w) :
    (w.recordSync snapshot.version false).Settled := by
  rcases hw with ⟨hsettled, hwritten⟩
  rcases w.recordSync_cases snapshot.version false with hsame | ⟨hversion, hrecord⟩
  · rw [hsame]
    exact hsettled
  rw [hrecord]
  intro hcleared
  rcases hpending : w.pendingSync with _ | pending
  · simp [hpending] at hcleared
  cases pending with
  | false => exact hsettled hpending
  | true =>
    rcases hmeets hpending hversion with ⟨hdistinct, htree⟩
    have hmirrors := mirrors_of_materialize hdistinct (hwritten.1 ▸ htree.symm)
    exact hwritten.2.content_eq hversion ▸ hmirrors

/-! ## Every step -/

/-- A step of the operation that holds the lock goes through. -/
theorem Mirrored.advance (hknown : w.repository.Knows w.repository.head)
    (hstored : isStored w.project.content = true) (hw : w.Sound git session)
    (hmeets : session.Meets git w) (h : w.advance git session = some w') : w'.Mirrored git := by
  cases session with
  | flush next after => exact Mirrored.advanceFlush hknown hstored hw.1 hw.2 hmeets h
  | revision next => exact Mirrored.advanceRevision hknown hstored hw hmeets h
  | replaceInbound prepared synced =>
    simp only [World.advance] at h
    split at h
    · cases h
      exact Mirrored.release hknown hstored hw.1
    rename_i project happlied
    cases h
    rcases applyRepoImport_ok happlied with ⟨-, -, -, -, -, hcontent⟩
    refine Mirrored.goto hknown (hcontent ▸ hw.2) ⟨?_, trivial⟩
    -- the replacement has set the flag
    intro hpending
    simp at hpending
  | pushLoad =>
    simp only [World.advance] at h
    split at h
    · cases h
      exact Mirrored.release hknown hstored hw
    rename_i pendingSync hpending
    cases h
    have hsame := w.sameHead_checkoutBranch git
    refine Mirrored.goto (hsame.head ▸ hsame.knows hknown) hstored ⟨hsame.settled hw, ?_⟩
    rintro rfl
    exact hpending
  | pushCapture pendingSync =>
    cases h
    refine Mirrored.goto hknown hstored ⟨⟨hw.2, hw.1, hstored, hknown⟩, ?_, rfl⟩
    exact fun _ => ⟨rfl, rfl⟩
  | pushBackend push => simp [World.advance] at h
  | pushReconcile push success =>
    cases h
    exact Mirrored.reconcile hknown hstored hw.1 hw.2
  | pushImport push prepared => exact Mirrored.pushImport hknown hstored hw hmeets h
  | pushImportRecord push version =>
    cases h
    rcases hw with ⟨-, -, content, hcommitted⟩
    exact Mirrored.release (by simpa using hknown) (by simpa using hstored)
      (hcommitted.settled_recordSync false)
  | pushMerge push prepared => exact Mirrored.pushMerge hknown hstored hw h
  | pushMergeSync push => exact Mirrored.pushMergeSync hknown hstored hw h
  | pushMergeRecord push snapshot isClean =>
    cases h
    exact Mirrored.release (by simpa using hknown) (by simpa using hstored)
      (settled_pushMergeRecord hw hmeets)
  | restoreHead push restoreWorkspace => exact Mirrored.restoreHead hstored hw h
  | restoreCompare push => exact Mirrored.restoreCompare hknown hstored hw h
  | restoreApply push version prepared => exact Mirrored.restoreApply hknown hw h
  | restoreLoad push =>
    cases h
    split
    · exact Mirrored.goto hknown hstored ⟨hw, trivial⟩
    · exact Mirrored.goto hknown hstored hw
  | restoreSync push =>
    rcases Option.map_eq_some_iff.mp h with ⟨written, hsync, rfl⟩
    rcases syncToRepo_some hsync with ⟨hsame, hwritten⟩
    exact Mirrored.goto (hsame.head ▸ hsame.knows hknown) (hsame.project ▸ hstored)
      ⟨hsame.settled hw, hwritten⟩
  | restoreRecord push snapshot =>
    cases h
    exact Mirrored.endPush (by simpa using hknown) (by simpa using hstored)
      (settled_restoreRecord hw hmeets) push

theorem SoundFlush.isSettled (h : w.SoundFlush next) : w.Settled := by
  cases next with
  | load | sync => exact h
  | commit snapshot => exact h.1
  | complete snapshot => exact Committed.isSettled h

/-- A push that merges leaves the flag set. -/
theorem PushSound.isSettled_of_merges (hw : w.PushSound push) (hmerges : push.pendingSync = true) :
    w.Settled := by
  intro hpending
  rw [hw.merges hmerges] at hpending
  exact absurd hpending (by decide)

theorem PushSound.replaced_of_merges (hw : w.PushSound push) (hmerges : push.pendingSync = true) :
    w.Replaced push := by
  intro hpending
  rw [hw.merges hmerges] at hpending
  exact absurd hpending (by decide)

/-- Nothing is out of step but where a push reconciles. -/
theorem Sound.isSettled (hw : w.Sound git session) (hcalm : session.isReconciling = false) :
    w.Settled := by
  cases session with
  | flush next after => exact SoundFlush.isSettled hw.1
  | revision next => exact SoundFlush.isSettled hw
  | replaceInbound prepared synced | pushCapture pendingSync | restoreRecord push snapshot =>
    exact hw.1
  | pushLoad | restoreLoad push | restoreSync push => exact hw
  | pushBackend push =>
    refine hw.1.settled_of_head hw.2.1 ?_
    rw [hw.2.2, Repository.headTree_eq]
  | pushImportRecord push version =>
    rcases hw with ⟨-, -, content, hcommitted⟩
    exact hcommitted.isSettled
  | pushMerge push prepared => exact hw.1.isSettled_of_merges hw.2.2.1
  | pushMergeSync push => exact hw.1.isSettled_of_merges hw.2
  | pushMergeRecord push snapshot isClean => exact hw.1.isSettled_of_merges hw.2.1
  | pushReconcile push success | pushImport push prepared | restoreHead push restoreWorkspace
  | restoreCompare push | restoreApply push version prepared =>
    simp [Session.isReconciling] at hcalm

theorem Mirrored.isSettled (h : w.Mirrored git)
    (hcalm : ∀ session ∈ w.session, session.isReconciling = false) : w.Settled := by
  rcases hsession : w.session with _ | session
  · exact h.idle hsession
  · exact (h.session session hsession).isSettled (hcalm session hsession)

/-- A rejection restores the head that the push found. -/
theorem Mirrored.reject (hknown : w.repository.Knows w.repository.head)
    (hstored : isStored w.project.content = true) (hpush : w.PushSound push)
    (hworkspace : w.Unreplaced push ∨ w.Replaced push) :
    (w.goto (.restoreHead push true)).Mirrored git :=
  Mirrored.goto hknown hstored ⟨hpush, hworkspace.imp_right fun hreplaced => ⟨rfl, hreplaced⟩⟩

/-- No such step leads a push to where it reconciles. -/
theorem advance_calm (hcalm : session.isCalm = true) (h : w.advance git session = some w') :
    ∀ session' ∈ w'.session, session'.isReconciling = false := by
  intro session' hsession'
  have hleads := advance_leadsTo h session' hsession'
  cases session' with
  | pushReconcile push success | pushImport push prepared | restoreHead push restoreWorkspace
  | restoreCompare push | restoreApply push version prepared =>
    cases session <;> simp_all [Session.isCalm, Session.leadsTo]
  | _ => rfl

theorem failed_of_isCalm (hcalm : session.isCalm = true) :
    w.failed session = w.release ∨ ∃ push, w.failed session = w.endPush push := by
  cases session with
  | flush next after =>
    cases after with
    | rejected push => exact .inr ⟨push, rfl⟩
    | _ => exact .inl rfl
  | restoreLoad push | restoreSync push | restoreRecord push snapshot => exact .inr ⟨push, rfl⟩
  | revision next | replaceInbound prepared synced | pushLoad | pushCapture pendingSync =>
    exact .inl rfl
  | _ => simp [Session.isCalm] at hcalm

theorem Mirrored.fail_of_isCalm (h : w.Mirrored git) (hcalm : session.isCalm = true)
    (hsession : ∀ session ∈ w.session, session.isReconciling = false) :
    (w.failed session).Mirrored git := by
  rcases failed_of_isCalm hcalm with hrelease | ⟨push, hend⟩
  · rw [hrelease]
    exact Mirrored.release h.known h.stored (h.isSettled hsession)
  · rw [hend]
    exact Mirrored.endPush h.known h.stored (h.isSettled hsession) push

theorem isReconciling_of_isCalm (h : session.isCalm = true) : session.isReconciling = false := by
  cases session <;> first | rfl | simp [Session.isCalm] at h

/-- A recovery that fails while the flag is set leaves the rest to the next flush. -/
theorem Mirrored.fail_recovery {effective : Bool} (h : w.Mirrored git)
    (hpending : w.pendingSync = some true) (hunchanged : effective = false → w' = w)
    (hadvanced : effective = true → w'.Mirrored git)
    (hkept : effective = true → w'.pendingSync = w.pendingSync) :
    (w'.endPush push).Mirrored git := by
  have hmirrored : w'.Mirrored git ∧ w'.pendingSync = some true := by
    cases effective with
    | false =>
      rw [hunchanged rfl]
      exact ⟨h, hpending⟩
    | true => exact ⟨hadvanced rfl, (hkept rfl).trans hpending⟩
  refine Mirrored.endPush hmirrored.1.known hmirrored.1.stored ?_ push
  intro hnone
  rw [hmirrored.2] at hnone
  exact absurd hnone (by decide)

/-- What a rejection after a replacement finds of the push. -/
theorem fail_pushImport (h : w.Mirrored git) (hw : w.Sound git (.pushImport push prepared))
    (hadvance : w.advance git (.pushImport push prepared) = some w') :
    w'.PushSound push ∧ (w'.Unreplaced push ∨ w'.Replaced push)
      ∧ isStored w'.project.content = true ∧ w'.repository = w.repository := by
  rcases hw with ⟨hpush, hunreplaced, projectType, entryFilePath, hprepared⟩
  simp only [World.advance] at hadvance
  split at hadvance
  · cases hadvance
    exact ⟨hpush.congr rfl rfl, .inl hunreplaced, h.stored, rfl⟩
  rename_i project happlied
  cases hadvance
  rcases applyRepoImport_ok happlied with ⟨hexpected, -, -, -, hversion, -⟩
  have hbefore : push.before.version = w.project.workspaceVersion := hexpected _ rfl
  refine ⟨hpush.congr rfl rfl, .inr fun _ => ?_,
    isStored_of_applyRepoImport hprepared happlied, rfl⟩
  show project.workspaceVersion = _
  rw [hversion, hbefore]

theorem fail_pushMerge (h : w.Mirrored git) (hw : w.Sound git (.pushMerge push prepared))
    (hadvance : w.advance git (.pushMerge push prepared) = some w') :
    w'.PushSound push ∧ isStored w'.project.content = true ∧ w'.repository = w.repository := by
  rcases hw with ⟨hpush, -, -, projectType, entryFilePath, files, hprepared⟩
  simp only [World.advance] at hadvance
  split at hadvance
  · cases hadvance
    exact ⟨hpush.congr rfl rfl, h.stored, rfl⟩
  · next project happlied =>
    cases hadvance
    exact ⟨hpush.congr rfl rfl, isStored_of_applyRepoImport hprepared happlied, rfl⟩

/-- Recovery leaves the flag alone up to its last statement. -/
theorem pendingSync_restoreCompare (h : w.advance git (.restoreCompare push) = some w') :
    w'.pendingSync = w.pendingSync := by
  simp only [World.advance] at h
  split at h
  · split at h
    · cases h
      rfl
    · simp at h
  · cases h
    rfl

theorem pendingSync_restoreApply {version : Int}
    (h : w.advance git (.restoreApply push version prepared) = some w') :
    w'.pendingSync = w.pendingSync := by
  simp only [World.advance] at h
  split at h
  · simp at h
  · cases h
    rfl

/-- A step of the operation that holds the lock fails, with or without its effect. -/
theorem Mirrored.raise {effective : Bool} (h : w.Mirrored git) (hsession : w.session = some session)
    (hmeets : effective = true → session.Meets git w) (hfail : session.MayFail w effective)
    (hw' : (if effective then w.advance git session else some w) = some w') :
    (w'.failed session).Mirrored git := by
  have hw := h.session session hsession
  have hadvanced : effective = true → w'.Mirrored git := by
    rintro rfl
    exact Mirrored.advance h.known h.stored hw (hmeets rfl) hw'
  have hunchanged : effective = false → w' = w := by
    rintro rfl
    exact (Option.some.inj hw').symm
  -- where it is calm, no push stands between HEAD and the workspace
  by_cases hcalm : session.isCalm = true
  · cases effective with
    | false =>
      rw [hunchanged rfl]
      refine h.fail_of_isCalm hcalm ?_
      intro session' hsession'
      rw [hsession, Option.mem_some_iff] at hsession'
      exact hsession' ▸ isReconciling_of_isCalm hcalm
    | true => exact (hadvanced rfl).fail_of_isCalm hcalm (advance_calm hcalm hw')
  cases session with
  | flush next after | revision next | replaceInbound prepared synced | pushLoad
  | pushCapture pendingSync | restoreLoad push | restoreSync push | restoreRecord push snapshot =>
    exact absurd rfl hcalm
  | pushBackend push =>
    cases effective with
    | true => simp [World.advance] at hw'
    | false =>
      rw [hunchanged rfl]
      exact Mirrored.goto h.known h.stored ⟨hw.1, hw.2.1⟩
  | pushReconcile push success =>
    cases effective with
    | false =>
      rw [hunchanged rfl]
      exact Mirrored.reject h.known h.stored hw.1 (.inl hw.2)
    | true =>
      rcases reconcile_eq git w push success with ⟨session, hreconcile⟩
      have hw'' : w' = { w with session } := by
        rw [← hreconcile]
        exact (Option.some.inj hw').symm
      rw [hw'']
      exact Mirrored.reject h.known h.stored (hw.1.congr rfl rfl) (.inl hw.2)
  | pushImport push prepared =>
    -- whether or not the import was made, the push is rejected as a whole
    cases effective with
    | false =>
      rw [hunchanged rfl]
      exact Mirrored.reject h.known h.stored hw.1 (.inl hw.2.1)
    | true =>
      rcases fail_pushImport h hw hw' with ⟨hpush, hworkspace, hstored, hrepository⟩
      exact Mirrored.reject (hrepository ▸ h.known) hstored hpush hworkspace
  | pushImportRecord push version =>
    rcases hw with ⟨hpush, hreplaced, -⟩
    cases effective with
    | false =>
      rw [hunchanged rfl]
      exact Mirrored.reject h.known h.stored hpush (.inr hreplaced)
    | true =>
      -- the statement has changed nothing
      have hpending : (w.recordSync version false).pendingSync = w.pendingSync := by
        rcases w.recordSync_cases version false with hsame | ⟨hversion, hrecord⟩
        · rw [hsame]
        rw [hrecord]
        rcases hpending : w.pendingSync with _ | pending
        · rfl
        cases pending with
        | false => rfl
        | true => exact absurd hversion (hfail rfl hpending)
      cases hw'
      refine Mirrored.reject (by simpa [World.release] using h.known)
        (by simpa [World.release] using h.stored) (hpush.congr (by simp [World.release]) hpending)
        (.inr ?_)
      intro hnone
      have hversion := hreplaced (hpending ▸ hnone)
      simpa [World.release] using hversion
  | pushMerge push prepared =>
    cases effective with
    | false =>
      rw [hunchanged rfl]
      exact Mirrored.reject h.known h.stored hw.1 (.inl hw.2.1)
    | true =>
      rcases fail_pushMerge h hw hw' with ⟨hpush, hstored, hrepository⟩
      exact Mirrored.reject (hrepository ▸ h.known) hstored hpush
        (.inr (hpush.replaced_of_merges hw.2.2.1))
  | pushMergeSync push =>
    cases effective with
    | false =>
      rw [hunchanged rfl]
      exact Mirrored.reject h.known h.stored hw.1 (.inr (hw.1.replaced_of_merges hw.2))
    | true =>
      rcases Option.map_eq_some_iff.mp hw' with ⟨written, hsync, rfl⟩
      have hsame := (syncToRepo_some hsync).1
      have hpush := hw.1.congr hsame.objects hsame.pendingSync
      exact Mirrored.reject (hsame.head ▸ hsame.knows h.known) (hsame.project ▸ h.stored)
        (hpush.congr rfl rfl) (.inr (hpush.replaced_of_merges hw.2))
  | pushMergeRecord push snapshot isClean =>
    rcases hw with ⟨hpush, hmerges, -, -⟩
    cases effective with
    | false =>
      rw [hunchanged rfl]
      exact Mirrored.reject h.known h.stored hpush (.inr (hpush.replaced_of_merges hmerges))
    | true =>
      have hpending : (w.recordSync snapshot.version !isClean).pendingSync = w.pendingSync := by
        rcases w.recordSync_cases snapshot.version !isClean with hsame | ⟨hversion, hrecord⟩
        · rw [hsame]
        rw [hrecord, hpush.merges hmerges]
        cases isClean with
        | false => rfl
        | true => exact absurd hversion (hfail rfl rfl)
      cases hw'
      have hpush' : (w.recordSync snapshot.version !isClean).release.PushSound push :=
        hpush.congr (by simp [World.release]) hpending
      exact Mirrored.reject (by simpa [World.release] using h.known)
        (by simpa [World.release] using h.stored) hpush' (.inr (hpush'.replaced_of_merges hmerges))
  | restoreHead push restoreWorkspace =>
    refine h.fail_recovery hfail hunchanged hadvanced ?_
    rintro rfl
    cases hw'
    rfl
  | restoreCompare push =>
    refine h.fail_recovery hfail hunchanged hadvanced ?_
    rintro rfl
    exact pendingSync_restoreCompare hw'
  | restoreApply push version prepared =>
    refine h.fail_recovery hfail hunchanged hadvanced ?_
    rintro rfl
    exact @pendingSync_restoreApply git w w' push prepared version hw'

end World

end Toss.Versioning
