import Toss.ExternalRepositories.CheckpointRetry

/-!
# The synchronized version

`synced_workspace_version` is captured before the flush reads the workspace, and is recorded
with the commit that is made behind the flush.

* `CheckpointSystem.Contains` — a commit holds what a flush read, at a version at least as new;
* `CheckpointSystem.Recorded` — the rows, the external repositories and the pushed commits;
* `synced_version_is_sound` — over all runs in which Git stages what the flush has written;
* `ignored_document_is_not_pushed` — a run in which it does not.
-/

namespace Toss.ExternalRepositories

open Toss.Foundation Toss.Workspace Toss.Versioning

namespace CheckpointSystem

variable {git : GitLibrary} {s s' : CheckpointSystem}

/-! ## The facts -/

/-- A commit holds the workspace as a flush has read it, at a version or later. -/
def Contains (s : CheckpointSystem) (version : Int) (sha : Oid) : Prop :=
  sha < s.world.repository.objects.length
    ∧ ∃ snapshot ∈ s.snapshots, version ≤ snapshot.version
      ∧ Mirrors (s.world.repository.treeAt (some sha)) snapshot.content

/-- A version between the synchronized one and that of the workspace. -/
def Reads (s : CheckpointSystem) (version : Int) : Prop :=
  version ≤ s.world.project.workspaceVersion
    ∧ ∀ link ∈ s.link, link.syncedWorkspaceVersion ≤ version

def Captures (s : CheckpointSystem) (captured : Int × Oid) : Prop :=
  s.Reads captured.1 ∧ s.Contains captured.1 captured.2

/-- The facts about the rows. -/
structure Recorded (s : CheckpointSystem) : Prop where
  nonneg : 0 ≤ s.world.project.workspaceVersion
  synced : ∀ link ∈ s.link, link.syncedWorkspaceVersion ≤ s.world.project.workspaceVersion
  link : ∀ link ∈ s.link, ∀ sha, link.lastRemoteSha = some sha →
    (link.repositoryId, sha) ∈ s.pushed ∧ s.Contains link.syncedWorkspaceVersion sha
  queue : ∀ row ∈ s.queue, ∀ captured ∈ row.captured, s.Captures captured
  remotes : ∀ repositoryId sha, s.remotes repositoryId = some (.ours sha) →
    (repositoryId, sha) ∈ s.pushed

/-- The facts of the flush of an attempt, by where it stands. -/
def Flushes (s : CheckpointSystem) (version : Int) : Session → Prop
  | .flush .load .release => s.world.pendingSync = some true
  | .flush .sync .release => True
  | .flush (.commit snapshot) .release =>
    snapshot ∈ s.snapshots ∧ version ≤ snapshot.version
      ∧ s.world.repository.worktree = fileTree (contentFiles snapshot.content)
  | .flush (.complete snapshot) .release =>
    snapshot ∈ s.snapshots ∧ version ≤ snapshot.version
      ∧ Mirrors s.world.repository.headTree snapshot.content
  | _ => False

/-- The facts of an attempt, by where it stands. -/
def Follows (s : CheckpointSystem) : CheckpointStep → Prop
  | .loadLink => True
  | .loadVersion link => ∀ captured ∈ link.captured, s.Captures captured
  | .ensureRepository context =>
    s.Reads context.workspaceVersion ∧ ∀ captured ∈ context.link.captured, s.Captures captured
  | .markPending context =>
    s.Reads context.workspaceVersion ∧ s.world.pendingSync.isSome = true
  | .flush context =>
    s.Reads context.workspaceVersion
      ∧ ∃ session ∈ s.world.session, s.Flushes context.workspaceVersion session
  | .commit context =>
    s.Reads context.workspaceVersion
      ∧ ∃ snapshot ∈ s.snapshots, context.workspaceVersion ≤ snapshot.version
        ∧ Mirrors s.world.repository.headTree snapshot.content
  | .capture context sha => s.Captures (context.workspaceVersion, sha)
  | .inspectRemote _ captured | .push _ captured => s.Captures captured
  | .verify link captured => s.Captures captured ∧ (link.repositoryId, captured.2) ∈ s.pushed
  | .complete captured =>
    s.Captures captured ∧ s.queue.isSome = true
      ∧ ∃ link ∈ s.link, (link.repositoryId, captured.2) ∈ s.pushed

/-- The invariant of every system. -/
structure Sound (s : CheckpointSystem) : Prop where
  consistent : s.Consistent
  recorded : s.Recorded
  worker : ∀ step ∈ s.worker, s.Follows step

/-- What the commit of a flush of an attempt has to find: Git stages what was written. -/
def CheckpointGuard (git : GitLibrary) (s : CheckpointSystem) : CheckpointAction → Prop
  | .advance =>
    match s.world.session with
    | some (.flush (.commit snapshot) .release) => s.world.StagesWhole git snapshot.content
    | _ => True
  | _ => True

instance (git : GitLibrary) (s : CheckpointSystem) (action : CheckpointAction) :
    Decidable (CheckpointGuard git s action) := by
  unfold CheckpointGuard
  split
  · split <;> infer_instance
  · infer_instance

/-! ## What keeps the facts -/

/-- Everything that is noted stays, and the version does not go back. -/
structure Grows (s s' : CheckpointSystem) : Prop where
  objects : ∃ commits, s'.world.repository.objects = s.world.repository.objects ++ commits
  version : s.world.project.workspaceVersion ≤ s'.world.project.workspaceVersion
  snapshots : s.snapshots ⊆ s'.snapshots
  pushed : s.pushed ⊆ s'.pushed

theorem Grows.of_eq (hobjects : s'.world.repository.objects = s.world.repository.objects)
    (hproject : s'.world.project = s.world.project) (hsnapshots : s'.snapshots = s.snapshots)
    (hpushed : s'.pushed = s.pushed) : s.Grows s' :=
  ⟨⟨[], by simp [hobjects]⟩, by rw [hproject], by rw [hsnapshots]; exact fun _ => id,
    by rw [hpushed]; exact fun _ => id⟩

variable {version : Int}

theorem Contains.grow {sha : Oid} (h : s.Contains version sha)
    (hgrows : s.Grows s') : s'.Contains version sha := by
  rcases h with ⟨hsha, snapshot, hsnapshot, hversion, hmirrors⟩
  rcases hgrows.objects with ⟨commits, hobjects⟩
  refine ⟨?_, snapshot, hgrows.snapshots hsnapshot, hversion, ?_⟩
  · rw [hobjects, List.length_append]
    exact Nat.lt_add_right _ hsha
  · have hknown : s.world.repository.Knows (some sha) := by
      intro oid hoid
      cases hoid
      exact hsha
    rw [Repository.treeAt_append hknown hobjects]
    exact hmirrors

theorem Reads.grow (h : s.Reads version) (hgrows : s.Grows s')
    (hlink : s'.link = s.link) : s'.Reads version :=
  ⟨h.1.trans hgrows.version, by rw [hlink]; exact h.2⟩

theorem Captures.grow {captured : Int × Oid} (h : s.Captures captured) (hgrows : s.Grows s')
    (hlink : s'.link = s.link) : s'.Captures captured :=
  ⟨h.1.grow hgrows hlink, h.2.grow hgrows⟩

/-- The facts about the rows where the link stays. -/
theorem Recorded.grow (h : s.Recorded) (hgrows : s.Grows s') (hlink : s'.link = s.link)
    (hqueue : ∀ row' ∈ s'.queue, ∀ captured ∈ row'.captured,
      (∃ row ∈ s.queue, captured ∈ row.captured) ∨ s.Captures captured)
    (hremotes : ∀ repositoryId sha, s'.remotes repositoryId = some (.ours sha) →
      s.remotes repositoryId = some (.ours sha) ∨ (repositoryId, sha) ∈ s'.pushed) :
    s'.Recorded := by
  constructor
  · exact h.nonneg.trans hgrows.version
  · intro link hmem
    exact (h.synced link (hlink ▸ hmem)).trans hgrows.version
  · intro link hmem sha hsha
    rcases h.link link (hlink ▸ hmem) sha hsha with ⟨hpushed, hcontains⟩
    exact ⟨hgrows.pushed hpushed, hcontains.grow hgrows⟩
  · intro row' hrow' captured hcaptured
    rcases hqueue row' hrow' captured hcaptured with ⟨row, hrow, hmem⟩ | hcaptures
    · exact (h.queue row hrow captured hmem).grow hgrows hlink
    · exact hcaptures.grow hgrows hlink
  · intro repositoryId sha hremote
    rcases hremotes repositoryId sha hremote with hbefore | hpushed
    · exact hgrows.pushed (h.remotes repositoryId sha hbefore)
    · exact hpushed

/-! ## The steps of an attempt -/

/-- What a step of an attempt has to show. -/
def Continues (git : GitLibrary) (s s' : CheckpointSystem) : Prop :=
  s'.Recorded ∧ (CheckpointGuard git s .advance → ∀ step ∈ s'.worker, s'.Follows step)

/-- The worker goes on, and the rows and the external repositories stay. -/
theorem Recorded.continues {next : CheckpointStep} (h : s.Recorded) (hgrows : s.Grows s')
    (hlink : s'.link = s.link) (hqueue : s'.queue = s.queue) (hremotes : s'.remotes = s.remotes)
    (hworker : s'.worker = some next)
    (hfollows : CheckpointGuard git s .advance → s'.Follows next) : s.Continues git s' := by
  refine ⟨h.grow hgrows hlink ?_ ?_, ?_⟩
  · exact fun row hrow captured hcaptured => .inl ⟨row, hqueue ▸ hrow, hcaptured⟩
  · exact fun repositoryId sha hremote => .inl (hremotes ▸ hremote)
  · intro hguard step hstep
    rw [hworker, Option.mem_some_iff] at hstep
    exact hstep ▸ hfollows hguard

/-- The flush of an attempt takes a step. -/
theorem Sound.advance_flush {context : CheckpointContext} (h : s.Sound)
    (hfollows : s.Follows (.flush context)) (hstep : s.advance git (.flush context) = some s') :
    s.Continues git s' := by
  rcases hfollows with ⟨hreads, session, hsession, hflushes⟩
  rw [Option.mem_def] at hsession
  rcases Option.map_eq_some_iff.mp hstep with ⟨world, hworld, rfl⟩
  have hadvance : s.world.advance git session = some world := by
    have hbind : (s.world.session.bind fun session => s.world.advance git session) = some world :=
      hworld
    rw [hsession] at hbind
    exact hbind
  -- the snapshot that the flush writes is recorded
  let snapshots := if s.world.session = some (Session.flush .sync .release) then
    s.snapshots ++ [s.world.snapshot] else s.snapshots
  have hsnapshots : s.snapshots ⊆ snapshots := by
    show s.snapshots ⊆ if _ then _ else _
    split
    · exact List.subset_append_left _ _
    · exact fun _ => id
  have hgrows : ∀ next, s.Grows ({ s with world, snapshots }.goto next) :=
    fun _ => ⟨World.objects_step hworld, World.version_step hworld, hsnapshots, fun _ => id⟩
  refine h.recorded.continues (hgrows _) rfl rfl rfl rfl ?_
  intro hguard
  have hreads' : ∀ next, ({ s with world, snapshots }.goto next).Reads context.workspaceVersion :=
    fun next => hreads.grow (hgrows next) rfl
  cases session with
  | flush next after =>
    cases after with
    | release =>
      cases next with
      | load =>
        have hpending : s.world.pendingSync = some true := hflushes
        simp only [World.advance, World.advanceFlush, if_pos hpending, Option.some.injEq]
          at hadvance
        subst hadvance
        exact ⟨hreads' _, _, rfl, trivial⟩
      | sync =>
        rcases Option.map_eq_some_iff.mp hadvance with ⟨written, hsync, rfl⟩
        rcases World.syncToRepo_some hsync with ⟨-, hwritten⟩
        refine ⟨hreads' _, _, rfl, ?_, hreads.1, hwritten.1⟩
        show s.world.snapshot ∈ if _ then _ else _
        rw [if_pos hsession]
        simp
      | commit snapshot =>
        cases hadvance
        rcases hflushes with ⟨hmem, hversion, hwritten⟩
        refine ⟨hreads' _, _, rfl, hsnapshots hmem, hversion, ?_⟩
        -- the guard: what is committed is the whole of the snapshot
        have hwhole : s.world.StagesWhole git snapshot.content := by
          simpa [CheckpointGuard, hsession] using hguard
        have htree := (Repository.headTree_flushed git s.world.repository).trans hwhole.2
        rw [hwritten] at htree
        exact mirrors_of_materialize hwhole.1 htree
      | complete snapshot =>
        cases hadvance
        rcases hflushes with ⟨hmem, hversion, hmirrors⟩
        refine ⟨hreads' _, snapshot, hsnapshots hmem, hversion, ?_⟩
        show Mirrors (World.recordSync _ _ _).repository.headTree _
        rw [World.repository_recordSync]
        exact hmirrors
    | _ => cases next <;> exact hflushes.elim
  | _ => exact hflushes.elim

/-- What was pushed for the link that an attempt has loaded was pushed for the project's. -/
theorem Loads.pushed {link : CheckpointLink} {sha : Oid} (h : s.Loads link)
    (hpushed : (link.repositoryId, sha) ∈ s.pushed) :
    s.queue.isSome = true ∧ ∃ row ∈ s.link, (row.repositoryId, sha) ∈ s.pushed := by
  rcases h with ⟨hqueue, ⟨row, hrow, hsame, -⟩, -⟩
  exact ⟨hqueue, row, hrow, hsame ▸ hpushed⟩

/-- An attempt takes its next step. -/
theorem Sound.advance {step : CheckpointStep} (h : s.Sound) (hworker : s.worker = some step)
    (hstep : s.advance git step = some s') : s.Continues git s' := by
  have hfollows := h.worker step hworker
  have hmatches := h.consistent.worker step hworker
  have hsame : ∀ next, s.Grows (s.goto next) := fun next => .of_eq rfl rfl rfl rfl
  have hgoto : ∀ next, (s.goto next).Follows next → s.Continues git (s.goto next) :=
    fun next hnext => h.recorded.continues (hsame next) rfl rfl rfl rfl fun _ => hnext
  cases step with
  | loadLink =>
    rcases Option.bind_eq_some_iff.mp hstep with ⟨link, hlink, hrow⟩
    rcases Option.bind_eq_some_iff.mp hrow with ⟨row, hqueue, hnext⟩
    cases hnext
    exact hgoto _ fun captured hcaptured => h.recorded.queue row hqueue captured hcaptured
  | loadVersion link =>
    cases hstep
    exact hgoto _ ⟨⟨le_refl _, h.recorded.synced⟩, hfollows⟩
  | ensureRepository context =>
    simp only [CheckpointSystem.advance, Option.map_eq_some_iff] at hstep
    rcases hstep with ⟨world, hensured, rfl⟩
    cases hensured
    refine h.recorded.continues (.of_eq rfl rfl rfl rfl) rfl rfl rfl rfl fun _ => ?_
    split
    · next captured hcaptured => exact hfollows.2 captured hcaptured
    · exact ⟨hfollows.1, rfl⟩
  | markPending context =>
    rcases Option.map_eq_some_iff.mp hstep with ⟨world, hboth, rfl⟩
    rcases Option.bind_eq_some_iff.mp hboth with ⟨marked, hmarked, hstarted⟩
    cases hmarked
    rcases World.step_start rfl hstarted with ⟨-, rfl⟩
    refine h.recorded.continues (.of_eq rfl rfl rfl rfl) rfl rfl rfl rfl fun _ => ?_
    refine ⟨hfollows.1, _, rfl, ?_⟩
    rcases Option.isSome_iff_exists.mp hfollows.2 with ⟨pendingSync, hpending⟩
    show s.world.pendingSync.map (fun _ => true) = some true
    rw [hpending]
    rfl
  | flush context => exact h.advance_flush hfollows hstep
  | commit context =>
    rcases Option.map_eq_some_iff.mp hstep with ⟨commit, hcommit, rfl⟩
    -- the checkpoint commit has the tree of HEAD, which mirrors the snapshot
    have hknown := h.consistent.heads.head
    have hmade := made_of_createCheckpointCommit hknown hcommit
    rcases hmade.objects with ⟨commits, hobjects⟩
    rcases hfollows with ⟨hreads, snapshot, hsnapshot, hversion, hmirrors⟩
    refine h.recorded.continues ⟨⟨commits, hobjects⟩, le_refl _, fun _ => id, fun _ => id⟩ rfl rfl
      rfl rfl fun _ => ?_
    refine ⟨hreads, hmade.prepares.1, snapshot, hsnapshot, hversion, ?_⟩
    rw [← headTree_append hknown hobjects hmade.head] at hmirrors
    exact hmirrors.congr_tree hmade.tree.symm
  | capture context sha =>
    cases hstep
    refine ⟨h.recorded.grow (.of_eq rfl rfl rfl rfl) rfl ?_ fun _ _ => .inl, ?_⟩
    · -- what the queue captures is what the attempt has made
      intro row hrow captured hcaptured
      rcases Option.map_eq_some_iff.mp hrow with ⟨row', -, rfl⟩
      cases hcaptured
      exact .inr hfollows
    · intro _ step hmem
      cases hmem
      exact hfollows
  | inspectRemote link captured =>
    simp only [CheckpointSystem.advance] at hstep
    split at hstep
    · next hremote =>
      -- the remote has the commit already
      cases hstep
      exact hgoto (.complete captured)
        ⟨hfollows, hmatches.1.pushed (h.recorded.remotes _ _ hremote)⟩
    · split at hstep
      · cases hstep
        exact hgoto (.push link captured) hfollows
      · simp at hstep
  | push link captured =>
    simp only [CheckpointSystem.advance] at hstep
    split at hstep
    · cases hstep
      -- the push is recorded along with what the remote now has
      have hgrows : s.Grows ({ s with
          remotes := Function.update s.remotes link.repositoryId (some (.ours captured.2))
          pushed := s.pushed ++ [(link.repositoryId, captured.2)] }.goto (.verify link captured)) :=
        ⟨⟨[], by simp [goto]⟩, le_refl _, fun _ => id, List.subset_append_left _ _⟩
      refine ⟨h.recorded.grow hgrows rfl ?_ ?_, ?_⟩
      · exact fun row hrow captured hcaptured => .inl ⟨row, hrow, hcaptured⟩
      · intro repositoryId sha hremote
        by_cases hthere : repositoryId = link.repositoryId
        · subst hthere
          have hsha : captured.2 = sha := by simpa [goto] using hremote
          exact .inr (by simp [goto, hsha])
        · exact .inl (by simpa [goto, Function.update_of_ne hthere] using hremote)
      · intro _ step hmem
        cases hmem
        exact ⟨hfollows.grow hgrows rfl, by simp [goto]⟩
    · simp at hstep
  | verify link captured =>
    simp only [CheckpointSystem.advance] at hstep
    split at hstep
    · cases hstep
      exact hgoto (.complete captured) ⟨hfollows.1, hmatches.1.pushed hfollows.2⟩
    · simp at hstep
  | complete captured =>
    cases hstep
    rcases hfollows with ⟨hcaptures, -, link, hlink, hpushed⟩
    -- the link is synchronized to the captured version, never back
    have hversion : ∀ link ∈ s.link, max link.syncedWorkspaceVersion captured.1 = captured.1 :=
      fun link hlink => max_eq_right (hcaptures.1.2 link hlink)
    refine ⟨⟨h.recorded.nonneg, ?_, ?_, by simp [completeCheckpoint], h.recorded.remotes⟩, by
      simp [completeCheckpoint]⟩
    · intro link' hlink'
      rcases Option.map_eq_some_iff.mp hlink' with ⟨before, hbefore, rfl⟩
      show max before.syncedWorkspaceVersion captured.1 ≤ _
      rw [hversion before hbefore]
      exact hcaptures.1.1
    · intro link' hlink' sha hsha
      rcases Option.map_eq_some_iff.mp hlink' with ⟨before, hbefore, rfl⟩
      cases hsha
      rcases Option.mem_unique hbefore hlink with rfl
      refine ⟨hpushed, ?_⟩
      show s.Contains (max before.syncedWorkspaceVersion captured.1) captured.2
      rw [hversion before hbefore]
      exact hcaptures.2

/-! ## The steps of everyone -/

theorem Flushes.eq_flush {session : Session} (h : s.Flushes version session) :
    ∃ next, session = .flush next .release := by
  cases session with
  | flush next after =>
    cases after with
    | release => exact ⟨next, rfl⟩
    | _ => cases next <;> exact h.elim
  | _ => exact h.elim

/-- What an attempt relies on is left alone by others. -/
structure Undisturbed (s s' : CheckpointSystem) : Prop extends s.Grows s' where
  link : s'.link = s.link
  queue : s.queue.isSome = true → s'.queue.isSome = true
  repository : s'.world.repository = s.world.repository
  row : s.world.pendingSync.isSome = true → s'.world.pendingSync.isSome = true
  pending : s.world.pendingSync = some true → s'.world.pendingSync = some true
  session : ∀ next, s.world.session = some (.flush next .release) →
    s'.world.session = some (.flush next .release)

theorem Follows.frame {step : CheckpointStep} (h : s.Follows step) (hframe : s.Undisturbed s') :
    s'.Follows step := by
  have hgrows := hframe.toGrows
  have hreads : ∀ {version}, s.Reads version → s'.Reads version :=
    fun hreads => hreads.grow hgrows hframe.link
  have hcaptures : ∀ {captured}, s.Captures captured → s'.Captures captured :=
    fun hcaptures => hcaptures.grow hgrows hframe.link
  cases step with
  | loadLink => trivial
  | loadVersion link => exact fun captured hcaptured => hcaptures (h captured hcaptured)
  | ensureRepository context =>
    exact ⟨hreads h.1, fun captured hcaptured => hcaptures (h.2 captured hcaptured)⟩
  | markPending context => exact ⟨hreads h.1, hframe.row h.2⟩
  | flush context =>
    rcases h with ⟨hversion, session, hsession, hflushes⟩
    rcases hflushes.eq_flush with ⟨next, rfl⟩
    refine ⟨hreads hversion, _, hframe.session next hsession, ?_⟩
    cases next with
    | load => exact hframe.pending hflushes
    | sync => trivial
    | commit snapshot | complete snapshot =>
      refine ⟨hgrows.snapshots hflushes.1, hflushes.2.1, ?_⟩
      rw [hframe.repository]
      exact hflushes.2.2
  | commit context =>
    rcases h with ⟨hversion, snapshot, hsnapshot, hle, hmirrors⟩
    refine ⟨hreads hversion, snapshot, hgrows.snapshots hsnapshot, hle, ?_⟩
    rw [hframe.repository]
    exact hmirrors
  | capture context sha | inspectRemote link captured | push link captured => exact hcaptures h
  | verify link captured => exact ⟨hcaptures h.1, hgrows.pushed h.2⟩
  | complete captured =>
    rcases h with ⟨hcaptured, hqueue, link, hlink, hpushed⟩
    exact ⟨hcaptures hcaptured, hframe.queue hqueue, link, hframe.link ▸ hlink,
      hgrows.pushed hpushed⟩

/-- Others take a step in the workspace. -/
theorem undisturbed_others {action : Versioning.Action} {world : World} (hothers : action.isOthers = true)
    (hworld : s.world.step git action = some world) : s.Undisturbed { s with world } := by
  rcases World.step_others hothers hworld with ⟨hdrift, -, hsession⟩
  refine ⟨⟨World.objects_step hworld, World.version_step hworld, fun _ => id, fun _ => id⟩, rfl,
    id, hdrift.repository, ?_, hdrift.pending, ?_⟩
  · intro hsome
    show world.pendingSync.isSome = true
    rcases hdrift.moved with ⟨-, hsame⟩ | ⟨hset, -⟩
    · rw [hsame]
      exact hsome
    · rw [hset]
      rfl
  · intro next hflush
    show world.session = some (.flush next .release)
    rcases hsession with hsame | ⟨content, hnoted⟩
    · rw [hsame]
      exact hflush
    · rw [hnoted, hflush]
      rfl

/-- The world and what is counted along stay. -/
theorem undisturbed_of_world (hworld : s'.world = s.world) (hlink : s'.link = s.link)
    (hqueue : s.queue.isSome = true → s'.queue.isSome = true)
    (hsnapshots : s'.snapshots = s.snapshots) (hpushed : s'.pushed = s.pushed) :
    s.Undisturbed s' :=
  ⟨.of_eq (by rw [hworld]) (by rw [hworld]) hsnapshots hpushed, hlink, hqueue, by rw [hworld],
    by rw [hworld]; exact id, by rw [hworld]; exact id, by rw [hworld]; exact fun _ => id⟩

/-- An attempt has a row, and a link. -/
theorem Sound.rows {step : CheckpointStep} (h : s.Sound) (hworker : s.worker = some step) :
    s.queue.isSome = true ∧ ∃ link, s.link = some link := by
  have hmatches := h.consistent.worker step hworker
  have hloads : ∀ link, s.Loads link → s.queue.isSome = true ∧ ∃ link, s.link = some link :=
    fun link hloads => ⟨hloads.1, hloads.2.1.imp fun _ hrow => hrow.1⟩
  cases step with
  | loadLink => exact ⟨hmatches.1, Option.isSome_iff_exists.mp hmatches.2⟩
  | loadVersion link => exact hloads link hmatches
  | ensureRepository context | markPending context | flush context | commit context =>
    exact hloads _ hmatches
  | capture context sha => exact hloads _ hmatches.1
  | inspectRemote link captured | push link captured | verify link captured =>
    exact hloads _ hmatches.1
  | complete captured =>
    rcases h.worker _ hworker with ⟨-, hqueue, link, hlink, -⟩
    exact ⟨hqueue, link, hlink⟩

/-- The rows behind a change that keeps the link and the external repositories. -/
theorem Recorded.requeue (h : s.Recorded) (hgrows : s.Grows s') (hlink : s'.link = s.link)
    (hremotes : s'.remotes = s.remotes)
    (hqueue : ∀ row' ∈ s'.queue, ∀ captured ∈ row'.captured,
      ∃ row ∈ s.queue, captured ∈ row.captured) : s'.Recorded := by
  refine h.grow hgrows hlink ?_ ?_
  · exact fun row hrow captured hcaptured => .inl (hqueue row hrow captured hcaptured)
  · intro _ _ hremote
    rw [hremotes] at hremote
    exact .inl hremote

theorem Recorded.stopped (h : s.Recorded) (failure : Option ExternalGitCommandFailureKind) :
    (s.stopped failure).Recorded := by
  refine h.requeue (.of_eq rfl rfl rfl rfl) rfl rfl ?_
  intro row' hrow' captured hcaptured
  rcases Option.map_eq_some_iff.mp hrow' with ⟨row, hrow, rfl⟩
  exact ⟨row, hrow, hcaptured⟩

theorem Sound.step {action : CheckpointAction} (h : s.Sound) (hguard : CheckpointGuard git s action)
    (hstep : s.step git action = some s') : s'.Sound := by
  have hall : s'.Recorded ∧ ∀ step ∈ s'.worker, s'.Follows step := by
    cases step_move hstep with
    | same => exact ⟨h.recorded, h.worker⟩
    | world hfree hworld =>
      refine ⟨h.recorded.requeue ⟨World.objects_step hworld, World.version_step hworld,
        fun _ => id, fun _ => id⟩ rfl rfl fun row hrow _ hmem => ⟨row, hrow, hmem⟩, ?_⟩
      intro step hmem
      -- beside an attempt only others take steps of the world
      rcases hfree with hidle | hothers
      · rw [hidle] at hmem
        simp at hmem
      · exact (h.worker step hmem).frame (undisturbed_others hothers hworld)
    | linked repositoryId hlink =>
      refine ⟨⟨h.recorded.nonneg, ?_, ?_, ?_, h.recorded.remotes⟩, ?_⟩
      · rintro link ⟨⟩
        exact h.recorded.nonneg
      · rintro link ⟨⟩ sha hsha
        simp at hsha
      · intro row hrow captured hcaptured
        rcases h.consistent.captured row hrow captured hcaptured with ⟨link, hmem, -⟩
        simp [hlink] at hmem
      · intro step hmem
        rcases (h.rows hmem).2 with ⟨link, hsome⟩
        simp [hlink] at hsome
    | unlinked hqueue =>
      refine ⟨⟨h.recorded.nonneg, by simp, by simp, by simp [hqueue], h.recorded.remotes⟩, ?_⟩
      intro step hmem
      have hsome := (h.rows hmem).1
      simp [hqueue] at hsome
    | queued action hrow =>
      refine ⟨h.recorded.requeue (.of_eq rfl rfl rfl rfl) rfl rfl ?_, fun step hmem =>
        (h.worker step hmem).frame (undisturbed_of_world rfl rfl (fun _ => rfl) rfl rfl)⟩
      rintro row ⟨⟩ captured hcaptured
      exact hrow captured hcaptured
    | claimed hrow hlink =>
      refine ⟨h.recorded.requeue (.of_eq rfl rfl rfl rfl) rfl rfl ?_, ?_⟩
      · rintro row ⟨⟩ captured hcaptured
        exact ⟨_, hrow, hcaptured⟩
      · rintro step ⟨⟩
        trivial
    | advanced hworker hnext => exact (h.advance hworker hnext).imp_right fun hnext => hnext hguard
    | stopped effective hlast =>
      refine ⟨?_, by simp [stopped]⟩
      rcases hlast with rfl | ⟨step, hworker, hnext⟩
      · exact h.recorded.stopped _
      · exact (h.advance hworker hnext).1.stopped _
    | @remoteMoved repositoryId tip htip =>
      refine ⟨h.recorded.grow (.of_eq rfl rfl rfl rfl) rfl
        (fun row hrow _ hmem => .inl ⟨row, hrow, hmem⟩) ?_, h.worker⟩
      intro repositoryId' sha hremote
      by_cases hthere : repositoryId' = repositoryId
      · subst hthere
        exact .inr (htip sha (by simpa using hremote))
      · exact .inl (by simpa [Function.update_of_ne hthere] using hremote)
  exact ⟨h.consistent.step hstep, hall.1, hall.2⟩

theorem sound_initial {project : Project} (hversion : 0 ≤ project.workspaceVersion) :
    (initial project).Sound :=
  ⟨consistent_initial project,
    ⟨hversion, by simp [initial], by simp [initial], by simp [initial], by simp [initial]⟩,
    by simp [initial]⟩

/-! ## An edit that is not captured -/

/-- The version that an attempt will record, once it is captured. -/
def carried : CheckpointStep → Option (Int × Oid)
  | .loadVersion link => link.captured
  | .ensureRepository context => context.link.captured
  | .inspectRemote _ captured | .push _ captured | .verify _ captured | .complete captured =>
    some captured
  | _ => none

/-- What is recorded, or will be, is older than a version that the workspace has reached. -/
structure Behind (s : CheckpointSystem) (version : Int) : Prop where
  le : version ≤ s.world.project.workspaceVersion
  link : ∀ link ∈ s.link, link.syncedWorkspaceVersion < version
  queue : ∀ row ∈ s.queue, ∀ captured ∈ row.captured, captured.1 < version
  worker : ∀ step ∈ s.worker, ∀ captured ∈ carried step, captured.1 < version

/-- What is captured is older than a version. -/
def CapturesBefore (version : Int) (s : CheckpointSystem) (_ : CheckpointAction) : Prop :=
  ∀ context sha, s.worker = some (.capture context sha) → context.workspaceVersion < version

theorem Behind.advance {step : CheckpointStep} (h : s.Behind version)
    (hguard : s.CapturesBefore version .advance) (hworker : s.worker = some step)
    (hstep : s.advance git step = some s') : s'.Behind version := by
  have hcarried := h.worker step hworker
  have hgoto : ∀ {world snapshots next}, version ≤ world.project.workspaceVersion →
      (∀ captured ∈ carried next, captured.1 < version) →
        Behind { s with world := world, snapshots := snapshots, worker := some next } version := by
    intro world snapshots next hle hnext
    refine ⟨hle, h.link, h.queue, ?_⟩
    intro step hmem
    cases hmem
    exact hnext
  cases step with
  | loadLink =>
    rcases Option.bind_eq_some_iff.mp hstep with ⟨link, hlink, hrow⟩
    rcases Option.bind_eq_some_iff.mp hrow with ⟨row, hqueue, hnext⟩
    cases hnext
    exact hgoto h.le fun captured hcaptured => h.queue row hqueue captured hcaptured
  | loadVersion link =>
    cases hstep
    exact hgoto h.le hcarried
  | ensureRepository context =>
    simp only [CheckpointSystem.advance, Option.map_eq_some_iff] at hstep
    rcases hstep with ⟨world, hensured, rfl⟩
    refine hgoto (h.le.trans (World.version_step hensured)) ?_
    -- a commit that was captured is taken up again, else nothing is carried yet
    split
    · next captured hcaptured =>
      intro captured' hmem
      cases hmem
      exact hcarried _ hcaptured
    · simp [carried]
  | markPending context =>
    rcases Option.map_eq_some_iff.mp hstep with ⟨world, hboth, rfl⟩
    rcases Option.bind_eq_some_iff.mp hboth with ⟨marked, hmarked, hstarted⟩
    have hle : version ≤ world.project.workspaceVersion := calc
      version ≤ s.world.project.workspaceVersion := h.le
      _ ≤ marked.project.workspaceVersion := World.version_step hmarked
      _ ≤ world.project.workspaceVersion := World.version_step hstarted
    exact hgoto hle (by simp [carried])
  | flush context =>
    rcases Option.map_eq_some_iff.mp hstep with ⟨world, hflushed, rfl⟩
    refine hgoto (h.le.trans (World.version_step hflushed)) ?_
    split <;> simp [carried]
  | commit context =>
    rcases Option.map_eq_some_iff.mp hstep with ⟨commit, -, rfl⟩
    exact ⟨h.le, h.link, h.queue, by simp [goto, carried]⟩
  | capture context sha =>
    cases hstep
    -- a new capture is before the version by the guard
    have hbefore := hguard context sha hworker
    refine ⟨h.le, h.link, ?_, ?_⟩
    · intro row hrow captured hcaptured
      rcases Option.map_eq_some_iff.mp hrow with ⟨row', -, rfl⟩
      cases hcaptured
      exact hbefore
    · intro step hmem captured hcaptured
      cases hmem
      cases hcaptured
      exact hbefore
  | inspectRemote link captured =>
    simp only [CheckpointSystem.advance] at hstep
    split at hstep
    · cases hstep
      exact hgoto h.le hcarried
    split at hstep
    · cases hstep
      exact hgoto h.le hcarried
    · simp at hstep
  | push link captured =>
    simp only [CheckpointSystem.advance] at hstep
    split at hstep
    · cases hstep
      refine ⟨h.le, h.link, h.queue, ?_⟩
      intro step hmem
      cases hmem
      exact hcarried
    · simp at hstep
  | verify link captured =>
    simp only [CheckpointSystem.advance] at hstep
    split at hstep
    · cases hstep
      exact hgoto h.le hcarried
    · simp at hstep
  | complete captured =>
    cases hstep
    refine ⟨h.le, ?_, by simp [completeCheckpoint], by simp [completeCheckpoint]⟩
    intro link hlink
    rcases Option.map_eq_some_iff.mp hlink with ⟨before, hbefore, rfl⟩
    exact max_lt (h.link before hbefore) (hcarried captured rfl)

theorem Behind.stopped (h : s.Behind version)
    (failure : Option ExternalGitCommandFailureKind) : (s.stopped failure).Behind version := by
  refine ⟨h.le, h.link, ?_, by simp [CheckpointSystem.stopped]⟩
  intro row' hrow' captured hcaptured
  rcases Option.map_eq_some_iff.mp hrow' with ⟨row, hrow, rfl⟩
  exact h.queue row hrow captured hcaptured

theorem Behind.step {action : CheckpointAction} (hpos : 0 < version)
    (h : s.Behind version) (hguard : s.CapturesBefore version action)
    (hstep : s.step git action = some s') : s'.Behind version := by
  cases step_move hstep with
  | same => exact h
  | world hfree hworld => exact ⟨h.le.trans (World.version_step hworld), h.link, h.queue, h.worker⟩
  | linked repositoryId hlink =>
    refine ⟨h.le, ?_, h.queue, h.worker⟩
    rintro link ⟨⟩
    exact hpos
  | unlinked hqueue => exact ⟨h.le, by simp, h.queue, h.worker⟩
  | queued action hrow =>
    refine ⟨h.le, h.link, ?_, h.worker⟩
    rintro row ⟨⟩ captured hcaptured
    rcases hrow captured hcaptured with ⟨old, hold, hmem⟩
    exact h.queue old hold captured hmem
  | claimed hrow hlink =>
    refine ⟨h.le, h.link, ?_, by simp [goto, carried]⟩
    rintro row ⟨⟩ captured hcaptured
    exact h.queue _ hrow captured hcaptured
  | advanced hworker hnext => exact h.advance hguard hworker hnext
  | stopped effective hlast =>
    rcases hlast with rfl | ⟨step, hworker, hnext⟩
    · exact h.stopped _
    · exact (h.advance hguard hworker hnext).stopped _
  | remoteMoved htip => exact ⟨h.le, h.link, h.queue, h.worker⟩

/-- What is recorded and what is carried is at most the version of the workspace. -/
theorem Sound.behind (h : s.Sound) (hversion : s.world.project.workspaceVersion < version)
    (hworld : version ≤ s'.world.project.workspaceVersion) (hlink : s'.link = s.link)
    (hqueue : s'.queue = s.queue) (hworker : s'.worker = s.worker) : s'.Behind version := by
  have hcaptures : ∀ captured, s.Captures captured → captured.1 < version :=
    fun captured hcaptures => lt_of_le_of_lt hcaptures.1.1 hversion
  refine ⟨hworld, ?_, ?_, ?_⟩
  · intro link hmem
    exact lt_of_le_of_lt (h.recorded.synced link (hlink ▸ hmem)) hversion
  · intro row hrow captured hcaptured
    exact hcaptures captured (h.recorded.queue row (hqueue ▸ hrow) captured hcaptured)
  · intro step hmem captured hcaptured
    rw [hworker] at hmem
    have hfollows := h.worker step hmem
    cases step with
    | loadVersion link => exact hcaptures captured (hfollows captured hcaptured)
    | ensureRepository context => exact hcaptures captured (hfollows.2 captured hcaptured)
    | inspectRemote link captured' | push link captured' =>
      cases hcaptured
      exact hcaptures _ hfollows
    | verify link captured' | complete captured' =>
      cases hcaptured
      exact hcaptures _ hfollows.1
    | _ => simp [carried] at hcaptured

/-! ## Whole runs -/

theorem enqueueCheckpoint_upToDate {inboundActive : Bool}
    (h : (s.enqueueCheckpoint inboundActive).1 = .upToDate version) :
    s.queue = none ∧ version = s.world.project.workspaceVersion
      ∧ ∃ link ∈ s.link, link.lastRemoteSha.isSome = true
        ∧ version ≤ link.syncedWorkspaceVersion := by
  unfold enqueueCheckpoint at h
  split at h
  · simp at h
  next link hlink =>
  split at h
  · simp at h
  split at h
  · simp at h
  next hqueue =>
  dsimp only at h
  split at h
  · next hsynced =>
    rw [Bool.and_eq_true, decide_eq_true_eq] at hsynced
    have hversion : s.world.project.workspaceVersion = version := by simpa using h
    exact ⟨hqueue, hversion.symm, link, hlink, hsynced.1, hversion ▸ hsynced.2⟩
  · simp at h

/-- An edit moves the version on. -/
theorem step_edit {content : ProjectContent}
    (h : s.step git (.world (.edit content)) = some s') :
    s'.world.project.workspaceVersion = s.world.project.workspaceVersion + 1
      ∧ s'.link = s.link ∧ s'.queue = s.queue ∧ s'.worker = s.worker := by
  simp only [CheckpointSystem.step, Versioning.Action.isOthers, Bool.or_true, if_true] at h
  rcases Option.map_eq_some_iff.mp h with ⟨world, hworld, rfl⟩
  refine ⟨?_, rfl, rfl, rfl⟩
  simp only [World.step] at hworld
  split at hworld
  · cases hworld
    rfl
  · simp at hworld

theorem Contains.mono {version version' : Int} {sha : Oid} (h : s.Contains version sha)
    (hle : version' ≤ version) : s.Contains version' sha := by
  rcases h with ⟨hsha, snapshot, hsnapshot, hversion, hmirrors⟩
  exact ⟨hsha, snapshot, hsnapshot, hle.trans hversion, hmirrors⟩

/-- In a run in which Git stages what the flushes have written, the commit of the link was
pushed and holds the workspace at the synchronized version or later; and an edit leaves the
link dirty until a version that includes it is captured. -/
theorem synced_version_is_sound {project : Project} {actions : List CheckpointAction}
    (hversion : 0 ≤ project.workspaceVersion)
    (hrun : Run (Guarded (CheckpointGuard git) fun s action s' => s.step git action = some s')
      (initial project) actions s) :
    (∀ inboundActive version, (s.enqueueCheckpoint inboundActive).1 = .upToDate version →
        s.queue = none ∧ ∃ link ∈ s.link, ∃ sha, link.lastRemoteSha = some sha
          ∧ (link.repositoryId, sha) ∈ s.pushed ∧ s.Contains version sha)
      ∧ (∀ link ∈ s.link, ∀ sha, link.lastRemoteSha = some sha →
        s.Contains link.syncedWorkspaceVersion sha)
      ∧ ∀ content s₁ s₂ actions', s.step git (.world (.edit content)) = some s₁ →
        Run (Guarded (CapturesBefore s₁.world.project.workspaceVersion)
          fun s action s' => s.step git action = some s') s₁ actions' s₂ →
        ∀ inboundActive version, (s₂.enqueueCheckpoint inboundActive).1 ≠ .upToDate version := by
  have hsound : s.Sound :=
    hrun.invariant_of_guard (fun _ _ _ hinv hguard hstep => hinv.step hguard hstep)
      (sound_initial hversion)
  refine ⟨?_, fun link hlink sha hsha => (hsound.recorded.link link hlink sha hsha).2, ?_⟩
  · intro inboundActive version hanswer
    rcases enqueueCheckpoint_upToDate hanswer with ⟨hqueue, -, link, hlink, hsome, hle⟩
    rcases Option.isSome_iff_exists.mp hsome with ⟨sha, hsha⟩
    rcases hsound.recorded.link link hlink sha hsha with ⟨hpushed, hcontains⟩
    exact ⟨hqueue, link, hlink, sha, hsha, hpushed, hcontains.mono hle⟩
  · intro content s₁ s₂ actions' hedit hrest inboundActive version hanswer
    rcases step_edit hedit with ⟨hnext, hlink, hqueue, hworker⟩
    have hbehind₁ : s₁.Behind s₁.world.project.workspaceVersion :=
      hsound.behind (by omega) (le_refl _) hlink hqueue hworker
    have hpos : 0 < s₁.world.project.workspaceVersion := by
      have hnonneg := hsound.recorded.nonneg
      omega
    have hbehind₂ := hrest.invariant_of_guard
      (fun _ _ _ hinv hguard hstep => Behind.step hpos hinv hguard hstep) hbehind₁
    rcases enqueueCheckpoint_upToDate hanswer with ⟨-, hcurrent, link, hlink, -, hle⟩
    have hlt := hbehind₂.link link hlink
    have hreached := hbehind₂.le
    omega

/-! ### A document that Git ignores -/

/-- The first checkpoint of a project goes through. -/
theorem first_checkpoint_is_contained :
    ∃ s : CheckpointSystem, (s.enqueueCheckpoint false).1 = .upToDate 0 ∧ s.queue = none
      ∧ ∃ link ∈ s.link, ∃ sha, link.lastRemoteSha = some sha
        ∧ (link.repositoryId, sha) ∈ s.pushed ∧ s.Contains 0 sha := by
  let guarded := fun s action => if CheckpointGuard plainGit s action then
    CheckpointSystem.step plainGit s action else none
  let start := initial oneDocument
  let s := (exec guarded start (firstAttempt 14)).getD start
  have hexec : exec guarded start (firstAttempt 14) = some s := eq_some_getD (by decide +kernel) _
  have hanswer : (s.enqueueCheckpoint false).1 = .upToDate 0 := by decide +kernel
  have hsound := synced_version_is_sound (by decide) (exec_guarded_run hexec)
  exact ⟨s, hanswer, hsound.1 false 0 hanswer⟩

theorem ignored_document_is_not_pushed :
    ¬ ∀ (git : GitLibrary) (project : Project) (s : CheckpointSystem)
        (actions : List CheckpointAction), 0 ≤ project.workspaceVersion →
      Run (fun s action s' => CheckpointSystem.step git s action = some s')
        (initial project) actions s →
      ∀ inboundActive version, (s.enqueueCheckpoint inboundActive).1 = .upToDate version →
        s.queue = none ∧ ∃ link ∈ s.link, ∃ sha, link.lastRemoteSha = some sha
          ∧ (link.repositoryId, sha) ∈ s.pushed ∧ s.Contains version sha := by
  intro hclaim
  let actions := .world (.edit withIgnored) :: firstAttempt 14
  have hexec : exec (step plainGit) (initial oneDocument) actions = some (attempted actions) :=
    eq_some_getD (by decide +kernel) _
  have hanswer : ((attempted actions).enqueueCheckpoint false).1 = .upToDate 1 := by decide +kernel
  have hlink : (attempted actions).link = some ⟨['r'], 1, some 1⟩ := by decide +kernel
  have hmissing : ∀ snapshot ∈ (attempted actions).snapshots,
      ¬ Mirrors ((attempted actions).world.repository.treeAt (some 1)) snapshot.content := by
    decide +kernel
  rcases hclaim _ _ _ _ (by decide) (exec_run hexec) false 1 hanswer with
    ⟨-, link, hmem, sha, hsha, -, -, snapshot, hsnapshot, -, hmirrors⟩
  rw [hlink, Option.mem_some_iff] at hmem
  rw [← hmem, Option.some.injEq] at hsha
  exact hmissing snapshot hsnapshot (hsha ▸ hmirrors)

end CheckpointSystem

end Toss.ExternalRepositories
