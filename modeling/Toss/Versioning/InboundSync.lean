import Toss.Versioning.HeadMirrors

/-!
# What an inbound Sync replaces

`apply_external_git_inbound_content` flushes, and then replaces the workspace in a
transaction that expects no version. Between the two nothing keeps the content that was
committed in place but the absence of edits.

* `SyncGuard` — nobody changes the files between the snapshot and the replacement;
* `synced_content_is_committed` — then what is replaced is in HEAD;
* `edit_behind_the_flush_is_lost` — a run in which it is not.
-/

namespace Toss.Versioning

open Toss.Foundation Toss.Workspace

/-- The flush of a Sync has read the workspace, and the replacement has not happened. -/
def Session.isSyncing : Session → Bool
  | .flush (.commit _) (.replaceInbound _) | .flush (.complete _) (.replaceInbound _)
  | .replaceInbound _ true => true
  | _ => false

/-- A Sync is about to read whether anything is pending. -/
def Session.startsSync : Session → Bool
  | .flush .load (.replaceInbound _) => true
  | _ => false

/-- While a Sync is past its snapshot, changes leave the documents and assets alone; and the
project has a repository. -/
def SyncGuard (w : World) : Action → Prop
  | .edit content | .project _ content =>
    w.session.any Session.isSyncing = true →
      (workspaceFiles w.project.content).Perm (workspaceFiles content)
  | .advance => w.session.any Session.startsSync = true → w.pendingSync.isSome = true
  | _ => True

instance (w : World) : (action : Action) → Decidable (SyncGuard w action)
  | .edit _ | .project _ _ | .advance => inferInstanceAs (Decidable (_ → _))
  | .persistUpdate _ | .markPending | .ensureRepository | .startFlush | .startRevision | .startPush
  | .startInbound _ _ | .backend _ _ _ | .fail _ => instDecidableTrue

/-- What a Sync knows of the workspace that it will replace. -/
def World.SyncSound (w : World) : Session → Prop
  | .flush (.commit snapshot) (.replaceInbound _)
  | .flush (.complete snapshot) (.replaceInbound _) =>
    (workspaceFiles snapshot.content).Perm (workspaceFiles w.project.content)
  | .replaceInbound _ true => Mirrors w.repository.headTree w.project.content
  | _ => True

/-- The invariant of every world with the facts of a Sync. -/
structure World.SyncMirrored (git : GitLibrary) (w : World) : Prop extends w.Mirrored git where
  sync : ∀ session ∈ w.session, w.SyncSound session

namespace World

variable {git : GitLibrary} {w w' : World} {session : Session}

theorem SyncSound.of_not_syncing (h : session.isSyncing = false) : w.SyncSound session := by
  unfold SyncSound
  split
  · simp [Session.isSyncing] at h
  · simp [Session.isSyncing] at h
  · simp [Session.isSyncing] at h
  · trivial

/-- The facts are kept while the files are. -/
theorem SyncSound.keep (hw : w.SyncSound session) (hrepository : w'.repository = w.repository)
    (hfiles : session.isSyncing = true →
      (workspaceFiles w.project.content).Perm (workspaceFiles w'.project.content)) :
    w'.SyncSound session := by
  unfold SyncSound at hw ⊢
  split at hw
  · exact hw.trans (hfiles rfl)
  · exact hw.trans (hfiles rfl)
  · rw [hrepository]
    exact hw.congr_content (hfiles rfl)
  · trivial

theorem isSyncing_noteChange (content : ProjectContent) (session : Session) :
    (session.noteChange content).isSyncing = session.isSyncing := by
  cases session with
  | flush next after => cases next <;> cases after <;> rfl
  | _ => rfl

theorem syncSound_noteChange {content : ProjectContent} (hw : w.SyncSound session) :
    w.SyncSound (session.noteChange content) := by
  cases hsyncing : session.isSyncing with
  | false => exact SyncSound.of_not_syncing ((isSyncing_noteChange content session).trans hsyncing)
  | true =>
    -- a Sync is no push
    have hsame : session.noteChange content = session := by
      cases session with
      | flush next after => cases next <;> cases after <;> first | rfl | simp [Session.isSyncing] at hsyncing
      | replaceInbound prepared synced => rfl
      | _ => simp [Session.isSyncing] at hsyncing
    rw [hsame]
    exact hw

/-! ## Steps -/

/-- Only the flush of a Sync leads to its replacement. -/
theorem flush_of_isSyncing {next : Session} (hleads : session.leadsTo next = true)
    (hsyncing : next.isSyncing = true) :
    ∃ step prepared, session = .flush step (.replaceInbound prepared) := by
  cases next with
  | flush step after =>
    cases after with
    | replaceInbound prepared =>
      cases session with
      | flush step' after' =>
        refine ⟨step', prepared, ?_⟩
        simp only [Session.leadsTo, decide_eq_true_eq] at hleads
        rw [hleads]
      | restoreLoad push | replaceInbound prepared' synced =>
        cases step <;> simp [Session.leadsTo] at hleads
      | _ => simp [Session.leadsTo] at hleads
    | _ => cases step <;> simp [Session.isSyncing] at hsyncing
  | replaceInbound prepared synced =>
    cases session with
    | flush step after =>
      cases after with
      | replaceInbound prepared' => exact ⟨step, prepared', rfl⟩
      | _ => simp [Session.leadsTo] at hleads
    | _ => simp [Session.leadsTo] at hleads
  | _ => simp [Session.isSyncing] at hsyncing

theorem syncSound_goto {next : Session} (h : w.SyncSound next) :
    ∀ session ∈ (w.goto next).session, (w.goto next).SyncSound session := by
  intro session hsession
  cases hsession
  exact h.keep rfl fun _ => List.Perm.refl _

/-- The flush of a Sync goes on. -/
theorem syncSound_advanceFlush {next : FlushStep} {prepared : PreparedRepoImport}
    (hmirrored : w.SoundFlush next) (hw : w.SyncSound (.flush next (.replaceInbound prepared)))
    (hmeets : (Session.flush next (.replaceInbound prepared)).Meets git w)
    (hpending : next = .load → w.pendingSync.isSome = true)
    (h : w.advanceFlush git (.replaceInbound prepared) next = some w') :
    ∀ session ∈ w'.session, w'.SyncSound session := by
  cases next with
  | load =>
    cases h
    split
    · exact syncSound_goto (SyncSound.of_not_syncing rfl)
    rename_i hclear
    -- nothing is pending, so HEAD mirrors the workspace
    refine syncSound_goto ?_
    rcases hflag : w.pendingSync with _ | pending
    · simp [hflag] at hpending
    · cases pending with
      | false => exact hmirrored hflag
      | true => exact absurd hflag hclear
  | sync =>
    rcases Option.map_eq_some_iff.mp h with ⟨written, hsync, rfl⟩
    refine syncSound_goto ?_
    show (workspaceFiles w.project.content).Perm (workspaceFiles written.project.content)
    rw [(syncToRepo_some hsync).1.project]
  | commit snapshot =>
    cases h
    exact syncSound_goto hw
  | complete snapshot =>
    cases h
    refine syncSound_goto ?_
    show Mirrors (w.recordSync snapshot.version false).repository.headTree
      (w.recordSync snapshot.version false).project.content
    rw [repository_recordSync, project_recordSync]
    exact hmirrored.1.congr_content hw

/-- Others leave the files alone while a Sync is past its snapshot. -/
theorem files_others {action : Action} (hothers : action.isOthers = true)
    (hsync : SyncGuard w action) (hstep : w.step git action = some w')
    (hsession : session ∈ w.session) (hsyncing : session.isSyncing = true) :
    (workspaceFiles w.project.content).Perm (workspaceFiles w'.project.content) := by
  have hany : w.session.any Session.isSyncing = true := by
    rw [Option.mem_def.mp hsession]
    exact hsyncing
  rcases content_others hothers hstep with hsame | ⟨content, hcontent, rfl | ⟨updates, rfl⟩⟩
  · rw [hsame]
  · rw [hcontent]
    exact hsync hany
  · rw [hcontent]
    exact hsync hany

theorem syncSound_step {action : Action} (hmirrored : w.Mirrored git)
    (hw : ∀ session ∈ w.session, w.SyncSound session) (hguard : HeadGuard git w action)
    (hsync : SyncGuard w action) (hstep : w.step git action = some w') :
    ∀ session ∈ w'.session, w'.SyncSound session := by
  refine forall_session_step (fun _ _ _ => SyncSound.of_not_syncing rfl) ?_ ?_ ?_
    (fun _ _ => SyncSound.of_not_syncing rfl) (fun _ _ _ _ _ => SyncSound.of_not_syncing rfl) hstep
  · intro hothers hdrift session hsession
    have hbefore := hw session hsession
    have hfiles := files_others hothers hsync hstep hsession
    refine ⟨hbefore.keep hdrift.repository hfiles, fun content =>
      (syncSound_noteChange hbefore).keep hdrift.repository ?_⟩
    rw [isSyncing_noteChange]
    exact hfiles
  · intro started hstart
    refine SyncSound.of_not_syncing ?_
    cases action with
    | startInbound prepared synced =>
      cases hstart
      cases synced <;> rfl
    | startFlush | startRevision | startPush =>
      cases hstart
      rfl
    | _ => simp [Action.startedSession] at hstart
  · rintro rfl session hsession hadvance
    by_cases hflush : ∃ next prepared, session = .flush next (.replaceInbound prepared)
    · rcases hflush with ⟨next, prepared, rfl⟩
      refine syncSound_advanceFlush (hmirrored.session _ hsession).1 (hw _ hsession)
        (hguard _ hsession) ?_ hadvance
      rintro rfl
      refine hsync ?_
      rw [hsession]
      rfl
    · intro next hnext
      refine SyncSound.of_not_syncing ?_
      rw [Bool.eq_false_iff]
      exact fun hsyncing => hflush (flush_of_isSyncing (advance_leadsTo hadvance next hnext) hsyncing)

end World

/-! ## Whole runs -/

/-- In a run that keeps HEAD and the workspace together, and in which nobody changes a file
between the snapshot of a Sync and its replacement, the content that is replaced is in HEAD. -/
theorem synced_content_is_committed {git : GitLibrary} {project : Project} {w : World}
    {actions : List Action} (hproject : isStored project.content = true)
    (hrun : Run (Guarded (fun w action => HeadGuard git w action ∧ SyncGuard w action)
      fun w action w' => w.step git action = some w') (World.initial project) actions w) :
    ∀ prepared, w.session = some (.replaceInbound prepared true) →
      Mirrors w.repository.headTree w.project.content := by
  have hinitial : (World.initial project).SyncMirrored git :=
    ⟨World.mirrored_initial hproject, by simp [World.initial]⟩
  have hinv : w.SyncMirrored git := by
    refine hrun.invariant_of_guard ?_ hinitial
    intro s a t hs hguard hstep
    exact ⟨hs.toMirrored.step hguard.1 hstep,
      World.syncSound_step hs.toMirrored hs.sync hguard.1 hguard.2 hstep⟩
  intro prepared hsession
  exact hinv.sync _ hsession

/-! ### An edit behind the flush -/

/-- What a Sync has fetched. -/
def fetched : PreparedRepoImport :=
  ⟨[⟨mainFile, ['r']⟩], [], [], mainFile⟩

/-- A Sync flushes an edit, and the user edits once more before it is completed. -/
def editBehindTheFlush : List Action :=
  [.edit oneDocument.content, .startInbound fetched true, .advance, .advance,
    .edit ⟨[⟨mainFile, ['y']⟩], [], [], none⟩, .advance, .advance]

theorem edit_behind_the_flush_is_lost :
    ¬ ∀ (git : GitLibrary) (project : Project) (w : World) (actions : List Action),
      isStored project.content = true →
      Run (fun w action w' => w.step git action = some w') (World.initial project) actions w →
        ∀ prepared, w.session = some (.replaceInbound prepared true) →
          Mirrors w.repository.headTree w.project.content := by
  intro hclaim
  let w := (exec (World.step plainGit) (World.initial oneDocument) editBehindTheFlush).getD
    (World.initial oneDocument)
  have hexec : exec (World.step plainGit) (World.initial oneDocument) editBehindTheFlush = some w :=
    eq_some_getD (by decide +kernel) _
  have hsession : w.session = some (.replaceInbound fetched true) := by decide +kernel
  have hmirrors := hclaim _ _ _ _ (by decide +kernel) (exec_run hexec) fetched hsession
  have hlost : ¬ Mirrors w.repository.headTree w.project.content := by decide +kernel
  exact hlost hmirrors

/-- A Sync that nobody disturbs, up to its replacement. -/
theorem undisturbed_sync_replaces_what_is_committed :
    ∃ w : World, w.session = some (.replaceInbound fetched true)
      ∧ w.project.content = oneDocument.content
      ∧ Mirrors w.repository.headTree w.project.content := by
  let actions : List Action :=
    [.edit oneDocument.content, .startInbound fetched true] ++ List.replicate 4 .advance
  have hexec : exec (fun w action => if HeadGuard plainGit w action ∧ SyncGuard w action
      then w.step plainGit action else none) (World.initial oneDocument) actions = some _ :=
    eq_some_getD (by decide +kernel) (World.initial oneDocument)
  have hsession : ((exec (fun w action => if HeadGuard plainGit w action ∧ SyncGuard w action
      then w.step plainGit action else none) (World.initial oneDocument) actions).getD
      (World.initial oneDocument)).session = some (.replaceInbound fetched true) := by
    decide +kernel
  exact ⟨_, hsession, by decide +kernel,
    synced_content_is_committed (by decide +kernel) (exec_guarded_run hexec) fetched hsession⟩

end Toss.Versioning
