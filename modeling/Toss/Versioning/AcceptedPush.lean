import Toss.Versioning.HeadMirrors
import Toss.Versioning.Merging

/-!
# Accepted pushes and online edits

A push is imported as it is or merged, as `pending_sync` said when its request began; the
workspace that it compares with is read later.

* `World.PushFacts` — what a push knows of the workspace up to its replacement;
* `online_edits_survive` — every file that was changed online is kept or merged;
* `edit_before_the_capture_is_overwritten` — a run in which one is not.
-/

namespace Toss.Versioning

open Toss.Foundation Toss.Workspace

/-! ## The facts -/

/-- What a push captured: a snapshot that is current while its version is, and that the HEAD
before the push mirrors if nothing was pending. -/
structure World.Captured (w : World) (push : PushSession) : Prop where
  le : push.before.version ≤ w.project.workspaceVersion
  content_eq : push.before.version = w.project.workspaceVersion →
    push.before.content = w.project.content
  mirrored : push.pendingSync = false →
    Mirrors (w.repository.treeAt push.headBefore) push.before.content
  known : w.repository.Knows push.headBefore

/-- What a merge prepared comes from the HEAD before the push and the captured snapshot. -/
def MergedFrom (git : GitLibrary) (repository : Repository) (push : PushSession)
    (prepared : PreparedRepoImport) : Prop :=
  ∃ base pushed merged files projectType entryFilePath,
    loadGitState git (repository.treeAt push.headBefore) = some base
      ∧ (∀ file ∈ pushed, IsProjectPath file.1)
      ∧ mergeOnlineOverPushed git base pushed (mergeMap push.before.content) = some merged
      ∧ materializeMergeMapToDir merged = some files
      ∧ prepareRepoImport git projectType entryFilePath files = .ok prepared

def World.PushFacts (git : GitLibrary) (w : World) : Session → Prop
  | .pushCapture pendingSync =>
    pendingSync = false → Mirrors w.repository.headTree w.project.content
  | .pushBackend push | .pushReconcile push _ => w.Captured push
  | .pushImport push _ => w.Captured push ∧ push.pendingSync = false
  | .pushMerge push prepared => w.Captured push ∧ MergedFrom git w.repository push prepared
  | _ => True

/-- A push has not yet replaced the workspace. -/
def Session.isPending : Session → Bool
  | .pushCapture _ | .pushBackend _ | .pushReconcile _ _ | .pushImport _ _ | .pushMerge _ _ => true
  | _ => false

/-- Nobody changes a file between a push's look at the flag, if it was not set, and its
snapshot; and a workspace that is merged holds no path twice. -/
def PushGuard (w : World) : Action → Prop
  | .edit content | .project _ content =>
    w.session = some (.pushCapture false) →
      (workspaceFiles w.project.content).Perm (workspaceFiles content)
  | .advance =>
    match w.session with
    | some (.pushMerge push _) =>
      push.before.version = w.project.workspaceVersion → HasDistinctPaths w.project.content
    | _ => True
  | _ => True

instance (w : World) (action : Action) : Decidable (PushGuard w action) := by
  unfold PushGuard
  split
  · infer_instance
  · infer_instance
  · split <;> infer_instance
  · infer_instance

namespace World

variable {git : GitLibrary} {w w' : World} {push : PushSession} {session : Session}

theorem PushFacts.of_not_pending (h : session.isPending = false) : w.PushFacts git session := by
  cases session with
  | pushCapture | pushBackend | pushReconcile | pushImport | pushMerge =>
    simp [Session.isPending] at h
  | _ => trivial

/-! ## What keeps the facts -/

theorem Captured.drift (hw : w.Captured push) (h : w.Drifts w') : w'.Captured push := by
  constructor
  · rcases h.moved with ⟨hproject, -⟩ | ⟨-, hle, -⟩
    · rw [hproject]
      exact hw.le
    · exact hw.le.trans hle
  · intro hversion
    rcases h.moved with ⟨hproject, -⟩ | ⟨-, hle, heq⟩
    · rw [hproject] at hversion ⊢
      exact hw.content_eq hversion
    -- the version has not moved, so neither has the content
    have hsame := heq (le_antisymm (hversion ▸ hw.le) hle)
    rw [hsame] at hversion ⊢
    exact hw.content_eq hversion
  · intro hclear
    rw [h.repository]
    exact hw.mirrored hclear
  · rw [h.repository]
    exact hw.known

theorem Captured.withLatest (hw : w.Captured push) (content : ProjectContent) :
    w.Captured { push with latest := content } :=
  ⟨hw.le, hw.content_eq, hw.mirrored, hw.known⟩

/-- New objects leave what was captured alone. -/
theorem Captured.append {commits : List CommitObject} (hw : w.Captured push)
    (hproject : w'.project = w.project)
    (hobjects : w'.repository.objects = w.repository.objects ++ commits) : w'.Captured push := by
  constructor
  · rw [hproject]
    exact hw.le
  · rw [hproject]
    exact hw.content_eq
  · intro hclear
    rw [Repository.treeAt_append hw.known hobjects]
    exact hw.mirrored hclear
  · exact hw.known.append hobjects

theorem PushFacts.drift (hw : w.PushFacts git session) (h : w.Drifts w')
    (hfiles : session = .pushCapture false →
      (workspaceFiles w.project.content).Perm (workspaceFiles w'.project.content)) :
    w'.PushFacts git session := by
  cases session with
  | pushCapture pendingSync =>
    intro hclear
    rw [h.repository]
    exact (hw hclear).congr_content (hfiles (by rw [hclear]))
  | pushBackend push | pushReconcile push success => exact Captured.drift hw h
  | pushImport push prepared => exact ⟨hw.1.drift h, hw.2⟩
  | pushMerge push prepared =>
    refine ⟨hw.1.drift h, ?_⟩
    rw [h.repository]
    exact hw.2
  | _ => trivial

theorem PushFacts.noteChange {content : ProjectContent} (hw : w.PushFacts git session) :
    w.PushFacts git (session.noteChange content) := by
  cases session with
  | flush next after => cases after <;> trivial
  | pushCapture pendingSync => exact hw
  | pushBackend push | pushReconcile push success => exact Captured.withLatest hw content
  | pushImport push prepared | pushMerge push prepared => exact ⟨hw.1.withLatest content, hw.2⟩
  | _ => trivial

theorem noteChange_eq_pushCapture {content : ProjectContent} {pendingSync : Bool}
    (h : session.noteChange content = .pushCapture pendingSync) :
    session = .pushCapture pendingSync := by
  cases session with
  | flush next after => cases after <;> simp [Session.noteChange] at h
  | pushCapture pendingSync' => exact h
  | _ => simp [Session.noteChange] at h

theorem pushFacts_goto {next : Session} (h : w.PushFacts git next) :
    ∀ session ∈ (w.goto next).session, (w.goto next).PushFacts git session := by
  intro session hsession
  cases hsession
  exact h.drift (w.drifts_goto _) fun _ => List.Perm.refl _

/-! ## Steps -/

/-- A merge that was built is one of the HEAD before the push and the snapshot. -/
theorem mergedFrom_of_mergedWorkspace {merged : List (Text × MergeFileValue)}
    {files : List (Text × Bytes)} {prepared : PreparedRepoImport} {projectType : ProjectType}
    {entryFilePath : Text} (hmerged : w.mergedWorkspace git push = some merged)
    (hfiles : materializeMergeMapToDir merged = some files)
    (hprepared : prepareRepoImport git projectType entryFilePath files = .ok prepared) :
    MergedFrom git w.repository push prepared := by
  simp only [mergedWorkspace, Option.bind_eq_bind, Option.bind_eq_some_iff] at hmerged
  rcases hmerged with ⟨old, hold, new, -, base, hbase, pushed, hpushed, hmerged⟩
  refine ⟨base, pushed, merged, files, projectType, entryFilePath, ?_,
    fun _ hfile => (blob_of_loadGitState hpushed hfile).1, hmerged, hfiles, hprepared⟩
  rw [Repository.treeAt, Option.bind_eq_some_iff.mpr hold]
  exact hbase

theorem pushFacts_reconcile {success : Bool} (hw : w.Captured push) :
    ∀ session ∈ (w.reconcile git push success).session,
      (w.reconcile git push success).PushFacts git session := by
  unfold World.reconcile
  dsimp only
  split
  · simp [World.release]
  split
  · exact pushFacts_goto (PushFacts.of_not_pending rfl)
  split
  · split
    · exact pushFacts_goto (PushFacts.of_not_pending rfl)
    · next files hfiles =>
      split
      · exact pushFacts_goto (PushFacts.of_not_pending rfl)
      · next prepared hprepared =>
        rcases Option.bind_eq_some_iff.mp hfiles with ⟨merged, hmerged, hwritten⟩
        exact pushFacts_goto ⟨hw, mergedFrom_of_mergedWorkspace hmerged hwritten hprepared⟩
  · next hclear =>
    split
    · exact pushFacts_goto (PushFacts.of_not_pending rfl)
    · exact pushFacts_goto ⟨hw, by simpa using hclear⟩

theorem pushFacts_advance (hmirrored : w.Mirrored git) (hsession : w.session = some session)
    (hw : w.PushFacts git session) (h : w.advance git session = some w') :
    ∀ next ∈ w'.session, w'.PushFacts git next := by
  cases session with
  | pushLoad =>
    simp only [World.advance] at h
    split at h
    · cases h
      simp [World.release]
    rename_i pendingSync hpending
    cases h
    refine pushFacts_goto ?_
    rintro rfl
    -- nothing is pending, so HEAD mirrors the workspace
    have hsame := w.sameHead_checkoutBranch git
    have hsettled : w.Settled := hmirrored.session _ hsession
    exact hsame.settled hsettled hpending
  | pushCapture pendingSync =>
    cases h
    refine pushFacts_goto ⟨le_refl _, fun _ => rfl, hw, hmirrored.known⟩
  | pushReconcile push success =>
    cases h
    exact pushFacts_reconcile hw
  | _ =>
    intro next hnext
    have hleads := advance_leadsTo h next hnext
    refine PushFacts.of_not_pending ?_
    cases next <;> first | rfl | simp [Session.leadsTo] at hleads

theorem files_others_of_pushGuard {action : Action} (hothers : action.isOthers = true)
    (hguard : PushGuard w action) (hstep : w.step git action = some w')
    (hsession : w.session = some (.pushCapture false)) :
    (workspaceFiles w.project.content).Perm (workspaceFiles w'.project.content) := by
  rcases content_others hothers hstep with hsame | ⟨content, hcontent, rfl | ⟨updates, rfl⟩⟩
  · rw [hsame]
  · rw [hcontent]
    exact hguard hsession
  · rw [hcontent]
    exact hguard hsession

theorem pushFacts_step {action : Action} (hmirrored : w.Mirrored git)
    (hw : ∀ session ∈ w.session, w.PushFacts git session) (hguard : PushGuard w action)
    (hstep : w.step git action = some w') : ∀ session ∈ w'.session, w'.PushFacts git session := by
  refine forall_session_step (fun _ _ _ => PushFacts.of_not_pending rfl) ?_ ?_ ?_ ?_ ?_ hstep
  · intro hothers hdrift session hsession
    refine ⟨(hw session hsession).drift hdrift ?_, fun content =>
      (hw session hsession).noteChange.drift hdrift ?_⟩
    · rintro rfl
      exact files_others_of_pushGuard hothers hguard hstep hsession
    · intro hcapture
      rw [noteChange_eq_pushCapture hcapture] at hsession
      exact files_others_of_pushGuard hothers hguard hstep hsession
  · intro started hstart
    refine PushFacts.of_not_pending ?_
    cases action with
    | startInbound prepared synced =>
      cases hstart
      cases synced <;> rfl
    | startFlush | startRevision | startPush =>
      cases hstart
      rfl
    | _ => simp [Action.startedSession] at hstart
  · intro _ session hsession hadvance
    exact pushFacts_advance hmirrored hsession (hw session hsession) hadvance
  · intro push hsession
    have hcaptured : w.Captured push := hw (.pushBackend push) hsession
    exact pushFacts_goto (show w.PushFacts git (.pushReconcile push false) from hcaptured) _ rfl
  · intro push commits head success hsession
    have hcaptured : w.Captured push := hw (.pushBackend push) hsession
    refine pushFacts_goto ?_ _ rfl
    exact hcaptured.append rfl (by simp only; split <;> rfl)

end World

/-- The invariant of every world with the facts of a push. -/
structure World.PushMirrored (git : GitLibrary) (w : World) : Prop extends w.Mirrored git where
  push : ∀ session ∈ w.session, w.PushFacts git session

/-! ## Whole runs -/

/-- The steps that keep what was changed online. -/
def OnlineGuard (git : GitLibrary) (w : World) (action : Action) : Prop :=
  HeadGuard git w action ∧ PushGuard w action

instance (git : GitLibrary) (w : World) (action : Action) : Decidable (OnlineGuard git w action) :=
  inferInstanceAs (Decidable (_ ∧ _))

theorem pushMirrored_of_run {git : GitLibrary} {project : Project} {w : World}
    {actions : List Action} (hproject : isStored project.content = true)
    (hrun : Run (Guarded (OnlineGuard git) fun w action w' => w.step git action = some w')
      (World.initial project) actions w) : w.PushMirrored git := by
  refine hrun.invariant_of_guard ?_ ⟨World.mirrored_initial hproject, by simp [World.initial]⟩
  intro s a t hs hguard hstep
  exact ⟨hs.toMirrored.step hguard.1 hstep,
    World.pushFacts_step hs.toMirrored hs.push hguard.2 hstep⟩

/-- The content that a push replaces is the one that it captured. -/
theorem replaced_of_push {w w' : World} {git : GitLibrary} {push : PushSession}
    {prepared : PreparedRepoImport}
    (hsession : w.session = some (.pushImport push prepared)
      ∨ w.session = some (.pushMerge push prepared))
    (hstep : w.step git .advance = some w') (hreplaced : w'.project ≠ w.project) :
    push.before.version = w.project.workspaceVersion
      ∧ w'.project.content = prepared.content := by
  rcases Option.bind_eq_some_iff.mp hstep with ⟨session, hmem, hadvance⟩
  rcases hsession with hsession | hsession
  all_goals
    rw [hsession] at hmem
    cases hmem
    simp only [World.advance] at hadvance
    split at hadvance
    · rw [← Option.some.inj hadvance] at hreplaced
      exact absurd rfl hreplaced
    rename_i project happlied
    cases hadvance
    rcases applyRepoImport_ok happlied with ⟨hexpected, -, -, -, -, hcontent⟩
    exact ⟨hexpected _ rfl, hcontent⟩

/-- In a run in which nobody changes a file between a push's look at the flag and its snapshot,
the replacement of an accepted push keeps every file that was changed online since the HEAD
before the push, or merges its text; and what is imported unmerged replaces a workspace that
this HEAD mirrors. -/
theorem online_edits_survive {git : GitLibrary} {project : Project} {w w' : World}
    {actions : List Action} (hproject : isStored project.content = true)
    (hrun : Run (Guarded (OnlineGuard git) fun w action w' => w.step git action = some w')
      (World.initial project) actions w)
    (hstep : Guarded (OnlineGuard git) (fun w action w' => w.step git action = some w')
      w .advance w') :
    ∀ push prepared, (w.session = some (.pushImport push prepared)
        ∨ w.session = some (.pushMerge push prepared)) → w'.project ≠ w.project →
      KeepsOnline git (w.repository.treeAt push.headBefore) w.project.content w'.project.content
        ∧ (w.session = some (.pushImport push prepared) →
          Mirrors (w.repository.treeAt push.headBefore) w.project.content) := by
  have hinv := pushMirrored_of_run hproject hrun
  have hpaths := isProjectPath_of_isStored hinv.stored
  intro push prepared hsession hreplaced
  rcases replaced_of_push hsession hstep.2 hreplaced with ⟨hversion, hcontent⟩
  rw [hcontent]
  rcases hsession with hsession | hsession
  · -- a plain import, with nothing pending
    rcases hinv.push _ hsession with ⟨hcaptured, hclear⟩
    have hmirrors := hcaptured.mirrored hclear
    rw [hcaptured.content_eq hversion] at hmirrors
    exact ⟨keepsOnline_of_mirrors hpaths hmirrors prepared.content, fun _ => hmirrors⟩
  · rcases hinv.push _ hsession with ⟨hcaptured, base, pushed, merged, files, projectType,
      entryFilePath, hbase, hpushed, hmerged, hfiles, hprepared⟩
    rw [hcaptured.content_eq hversion] at hmerged
    have hdistinct : HasDistinctPaths w.project.content := by
      have hguard := hstep.1.2
      simp only [PushGuard, hsession] at hguard
      exact hguard hversion
    refine ⟨keepsOnline_of_merge hpaths hdistinct hbase hpushed hmerged hfiles hprepared, ?_⟩
    intro himport
    rw [hsession] at himport
    simp at himport

/-! ### An edit before the capture -/

/-- A commit of the one document with another text. -/
def pushedText : Action :=
  .backend [⟨fileTree [(mainFile, encodeUtf8 ['z'])], [0]⟩] (some 1) (.responded true)

def editedOnline : ProjectContent := ⟨[⟨mainFile, ['y']⟩], [], [], none⟩

/-- A user edits between the look at the flag and the snapshot. -/
def editBeforeTheCapture : List Action :=
  editAndFlush oneDocument.content
    ++ [.startPush, .advance, .edit editedOnline, .advance, pushedText, .advance]

def capturedEdit : PushSession := ⟨false, some 0, ⟨2, editedOnline, []⟩, editedOnline⟩

def pushedImport : PreparedRepoImport := ⟨[⟨mainFile, ['z']⟩], [], [], mainFile⟩

theorem edit_before_the_capture_is_overwritten :
    ¬ ∀ (git : GitLibrary) (project : Project) (w w' : World) (actions : List Action),
      isStored project.content = true →
      Run (fun w action w' => w.step git action = some w') (World.initial project) actions w →
        w.step git .advance = some w' →
          ∀ push prepared, (w.session = some (.pushImport push prepared)
              ∨ w.session = some (.pushMerge push prepared)) → w'.project ≠ w.project →
            KeepsOnline git (w.repository.treeAt push.headBefore) w.project.content
              w'.project.content := by
  intro hclaim
  let w := (exec (World.step plainGit) (World.initial oneDocument) editBeforeTheCapture).getD
    (World.initial oneDocument)
  have hexec : exec (World.step plainGit) (World.initial oneDocument) editBeforeTheCapture
      = some w := eq_some_getD (by decide +kernel) _
  let w' := (w.step plainGit .advance).getD w
  have hstep : w.step plainGit .advance = some w' := eq_some_getD (by decide +kernel) _
  have hsession : w.session = some (.pushImport capturedEdit pushedImport) := by decide +kernel
  have hreplaced : w'.project ≠ w.project := by decide +kernel
  have hkeeps := hclaim _ _ _ _ _ (by decide +kernel) (exec_run hexec) hstep _ _ (.inl hsession)
    hreplaced mainFile
  have hdiffers : workspaceFile w.project.content mainFile
      ≠ headFile plainGit (w.repository.treeAt capturedEdit.headBefore) mainFile := by
    decide +kernel
  have hlost : workspaceFile w'.project.content mainFile
      ≠ workspaceFile w.project.content mainFile := by decide +kernel
  rcases hkeeps hdiffers with hkept | ⟨_, _, _, _, hmerge, -⟩
  · exact hlost hkept
  · simp [plainGit] at hmerge

def addedOnline : ProjectContent :=
  ⟨[⟨mainFile, ['x']⟩, ⟨['n', '.', 't', 'y', 'p'], ['n']⟩], [], [], none⟩

/-- A document that was added online is kept by a push of another one. -/
theorem added_document_is_kept :
    ∃ w w' : World, ∃ push prepared, w.session = some (.pushMerge push prepared)
      ∧ w'.project.content.documents = [⟨mainFile, ['z']⟩, ⟨['n', '.', 't', 'y', 'p'], ['n']⟩]
      ∧ KeepsOnline plainGit (w.repository.treeAt push.headBefore) w.project.content
        w'.project.content := by
  let actions := editAndFlush oneDocument.content
    ++ [.edit addedOnline, .startPush, .advance, .advance, pushedText, .advance]
  let start := World.initial oneDocument
  let guarded := fun w action =>
    if OnlineGuard plainGit w action then World.step plainGit w action else none
  let w := (exec guarded start actions).getD start
  have hexec : exec guarded start actions = some w := eq_some_getD (by decide +kernel) _
  let w' := (w.step plainGit .advance).getD w
  have hstep : w.step plainGit .advance = some w' := eq_some_getD (by decide +kernel) _
  have hguard : OnlineGuard plainGit w .advance := by decide +kernel
  let push : PushSession := ⟨true, some 0, ⟨2, addedOnline, []⟩, addedOnline⟩
  let prepared : PreparedRepoImport :=
    ⟨[⟨mainFile, ['z']⟩, ⟨['n', '.', 't', 'y', 'p'], ['n']⟩], [], [], mainFile⟩
  have hsession : w.session = some (.pushMerge push prepared) := by decide +kernel
  have hkeeps := online_edits_survive (by decide +kernel) (exec_guarded_run hexec)
    ⟨hguard, hstep⟩ push prepared (.inr hsession) (by decide +kernel)
  exact ⟨w, w', push, prepared, hsession, by decide +kernel, hkeeps.1⟩

end Toss.Versioning
