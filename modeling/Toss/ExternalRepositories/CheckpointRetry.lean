import Toss.ExternalRepositories.CheckpointInvariant
import Toss.Versioning.AcceptedPush

/-!
# Retrying a checkpoint

An attempt that nothing disturbs, behind any number of attempts that have failed or stopped.

* `checkpoint_retry_succeeds` — it pushes the captured commit, or one of what HEAD shows;
* `retries_fail_or_push_an_old_commit` — the commit that no row has captured, and the one that
  was captured before HEAD moved.
-/

namespace Toss.ExternalRepositories

open Toss.Foundation Toss.Workspace Toss.Versioning

namespace CheckpointSystem

/-- The worker alone takes steps. -/
def Advances (git : GitLibrary) (s s' : CheckpointSystem) : Prop :=
  ∃ n, exec (step git) s (List.replicate n .advance) = some s'

/-- An attempt that nothing disturbs goes through. -/
def Completes (git : GitLibrary) (s s' : CheckpointSystem) : Prop :=
  (s.goto .loadLink).Advances git s' ∧ s'.worker = none

/-- The workspace can be written, there is something to commit, and the checkpoint branch is
where the link says. -/
structure Preparable (git : GitLibrary) (s : CheckpointSystem) (link : RepositoryLink) : Prop where
  commits : ∃ worktree, materialize s.world.project.content = some worktree
    ∧ (s.world.repository.head.isSome = true
      ∨ { s.world.repository with worktree }.worktreeIsClean git = false)
  branch : s.branch = none ∨ s.branch = link.lastRemoteSha

variable {git : GitLibrary} {s s' t : CheckpointSystem}

theorem Advances.refl (s : CheckpointSystem) : s.Advances git s := ⟨0, rfl⟩

theorem Advances.step {next : CheckpointStep} (hworker : s.worker = some next)
    (hstep : s.advance git next = some t) (h : t.Advances git s') : s.Advances git s' := by
  rcases h with ⟨n, h⟩
  refine ⟨n + 1, ?_⟩
  have hadvance : CheckpointSystem.step git s .advance = some t := by
    simp [CheckpointSystem.step, hworker, hstep]
  rw [List.replicate_succ]
  show (CheckpointSystem.step git s .advance).bind _ = some s'
  rw [hadvance]
  exact h

theorem Advances.run (h : s.Advances git s') :
    ∃ actions, Run (fun s action s' => CheckpointSystem.step git s action = some s') s actions s' := by
  rcases h with ⟨n, h⟩
  exact ⟨_, exec_run h⟩

theorem Advances.trans (hfst : s.Advances git t) (hsnd : t.Advances git s') :
    s.Advances git s' := by
  rcases hfst with ⟨n, hfst⟩
  rcases hsnd with ⟨m, hsnd⟩
  refine ⟨n + m, ?_⟩
  rw [← List.replicate_append_replicate, exec_append, hfst]
  exact hsnd

theorem Consistent.advances (h : s.Consistent) (hadvances : s.Advances git s') : s'.Consistent := by
  rcases hadvances.run with ⟨actions, hrun⟩
  exact hrun.invariant (fun _ _ _ hinv hstep => hinv.step hstep) h

/-! ## Pushing -/

/-- A commit can be pushed on top of its parent. -/
theorem acceptsPush_of_prepares {repositoryId : Text} {lastRemoteSha : Option Oid} {sha : Oid}
    (hprepares : Prepares s.world.repository lastRemoteSha sha)
    (hremote : s.remotes repositoryId = lastRemoteSha.map .ours) :
    s.acceptsPush repositoryId sha = true := by
  unfold acceptsPush
  rw [hremote]
  cases lastRemoteSha with
  | none => rfl
  | some tip =>
    rcases hprepares.2 with hsame | ⟨object, hfind, hparents⟩
    · simp [Option.some.inj hsame]
    · have hancestor : s.world.repository.isAncestor tip sha = true := by
        simp [Repository.isAncestor, Repository.descends, hfind, hparents]
      simp [hancestor]

/-- The last statements of an attempt, from the captured commit on. -/
theorem push_completes (git : GitLibrary) {link : CheckpointLink} {captured : Int × Oid}
    (hworker : s.worker = some (.inspectRemote link captured))
    (hprepares : Prepares s.world.repository link.lastRemoteSha captured.2)
    (hremote : s.remotes link.repositoryId = link.lastRemoteSha.map .ours) :
    ∃ t : CheckpointSystem, t.world = s.world ∧ t.link = s.link
      ∧ t.remotes link.repositoryId = some (.ours captured.2)
      ∧ s.Advances git (t.completeCheckpoint captured) := by
  have hcomplete : ∀ t : CheckpointSystem, (t.goto (.complete captured)).Advances git
      (t.completeCheckpoint captured) :=
    fun t => Advances.step rfl rfl (.refl _)
  by_cases hthere : s.remotes link.repositoryId = some (.ours captured.2)
  · refine ⟨s, rfl, rfl, hthere, ?_⟩
    refine Advances.step (t := s.goto (.complete captured)) hworker ?_ (hcomplete s)
    simp [CheckpointSystem.advance, hthere]
  let pushed : CheckpointSystem :=
    { s with
      remotes := Function.update s.remotes link.repositoryId (some (.ours captured.2))
      pushed := s.pushed ++ [(link.repositoryId, captured.2)] }
  have htip : pushed.remotes link.repositoryId = some (.ours captured.2) := by simp [pushed]
  have haccepts : (s.goto (.push link captured)).acceptsPush link.repositoryId captured.2 = true :=
    acceptsPush_of_prepares hprepares hremote
  refine ⟨pushed, rfl, rfl, htip, ?_⟩
  refine Advances.step (t := s.goto (.push link captured)) hworker ?_ ?_
  · simp only [CheckpointSystem.advance, if_neg hthere, if_pos hremote]
  refine Advances.step (t := pushed.goto (.verify link captured)) rfl ?_ ?_
  · simp only [CheckpointSystem.advance, if_pos haccepts]
    rfl
  refine Advances.step (t := pushed.goto (.complete captured)) rfl ?_ (hcomplete pushed)
  have htip' : (pushed.goto (.verify link captured)).remotes link.repositoryId
      = some (.ours captured.2) := htip
  simp only [CheckpointSystem.advance, if_pos htip']
  rfl

/-! ## Flushing -/

theorem head_commitStagedIfChanged (git : GitLibrary) (repository : Repository) :
    (repository.commitStagedIfChanged git).head.isSome = true := by
  unfold Repository.commitStagedIfChanged
  dsimp only
  split
  · next hsame =>
    show repository.head.isSome = true
    cases hhead : repository.head with
    | none => simp [Repository.headCommit, hhead] at hsame
    | some oid => rfl
  · rfl

variable {context : CheckpointContext}

/-- The flush of an attempt takes a step; what it reads is noted. -/
theorem Advances.flush (next : FlushStep) (world : World)
    (hworker : s.worker = some (.flush context))
    (hsession : s.world.session = some (.flush next .release))
    (hworld : s.world.advanceFlush git .release next = some world) (h : ({ s with
        world
        snapshots := if next = FlushStep.sync then s.snapshots ++ [s.world.snapshot] else s.snapshots }.goto
      (if world.session.isNone then .commit context else .flush context)).Advances git s') :
    s.Advances git s' := by
  have hstep : s.world.step git .advance = some world := by
    show (s.world.session.bind fun session => s.world.advance git session) = some world
    rw [hsession]
    exact hworld
  refine Advances.step hworker ?_ h
  simp only [CheckpointSystem.advance, hstep, hsession, Option.map_some, Option.some.injEq,
    Session.flush.injEq, and_true]

variable {link : RepositoryLink}

/-- The flush of an attempt brings HEAD to the workspace. -/
theorem flush_completes (hworker : s.worker = some (.markPending context))
    (hsession : s.world.session = none) (hrow : s.world.pendingSync.isSome = true)
    (hpreparable : s.Preparable git link) :
    ∃ world snapshots, world.repository.head.isSome = true
      ∧ s.Advances git ({ s with world, snapshots }.goto (.commit context)) := by
  rcases hpreparable.commits with ⟨worktree, hmaterialize, hcommits⟩
  let loaded : World := { s.world with pendingSync := some true }
  let checkedOut : World := loaded.checkoutBranch git
  let repository : Repository := { checkedOut.repository with worktree }
  let committed : Repository :=
    if repository.worktreeIsClean git then repository else repository.commitStagedIfChanged git
  have hhead : committed.head.isSome = true := by
    show (if _ then _ else _ : Repository).head.isSome = true
    split
    · next hclean =>
      cases hborn : s.world.repository.head with
      | some head =>
        show (s.world.repository.checkoutBranch git).head.isSome = true
        simp [hborn]
      | none =>
        -- nothing is checked out, and nothing would be committed
        have hsame : repository = { s.world.repository with worktree } := by
          simp [repository, checkedOut, loaded, World.checkoutBranch, Repository.checkoutBranch,
            hborn]
        rw [hsame] at hclean
        rcases hcommits with hhead | hdirty
        · simp [hborn] at hhead
        · simp [hdirty] at hclean
    · exact head_commitStagedIfChanged git repository
  have hsync : ∀ session, (checkedOut.goto session).syncToRepo
      = some { checkedOut.goto session with repository } := by
    intro session
    show (materialize s.world.project.content).map _ = _
    rw [hmaterialize]
    rfl
  let done : World := (({ checkedOut with repository := committed }.goto
    (.flush (.complete checkedOut.snapshot) .release)).recordSync
      checkedOut.snapshot.version false).release
  have hadvances : s.Advances git ({ s with
      world := done, snapshots := s.snapshots ++ [checkedOut.snapshot] }.goto (.commit context)) := by
    refine Advances.step
      (t := { s with world := loaded.goto (.flush .load .release) }.goto (.flush context))
      hworker ?_ ?_
    · cases hpending : s.world.pendingSync with
      | none => simp [hpending] at hrow
      | some pendingSync =>
        simp [CheckpointSystem.advance, World.step, hpending, hsession, loaded, World.goto]
    refine Advances.flush .load (checkedOut.goto (.flush .sync .release)) rfl rfl ?_ ?_
    · rfl
    refine Advances.flush .sync
      ({ checkedOut with repository }.goto (.flush (.commit checkedOut.snapshot) .release))
      rfl rfl ?_ ?_
    · show ((checkedOut.goto _).syncToRepo.map fun world =>
        world.goto (.flush (.commit checkedOut.snapshot) .release)) = _
      rw [hsync]
      rfl
    refine Advances.flush (.commit checkedOut.snapshot)
      ({ checkedOut with repository := committed }.goto
        (.flush (.complete checkedOut.snapshot) .release)) rfl rfl ?_ ?_
    · rfl
    refine Advances.flush (.complete checkedOut.snapshot) done rfl rfl ?_ ?_
    · rfl
    exact .refl _
  refine ⟨_, _, ?_, hadvances⟩
  show (World.recordSync _ _ _).repository.head.isSome = true
  rw [World.repository_recordSync]
  exact hhead

/-- What a completed attempt leaves. -/
structure Pushed (s : CheckpointSystem) (repositoryId : Text) (sha : Oid) : Prop where
  remote : s.remotes repositoryId = some (.ours sha)
  link : ∃ link ∈ s.link, link.repositoryId = repositoryId ∧ link.lastRemoteSha = some sha
  queue : s.queue = none

theorem pushed_completeCheckpoint {captured : Int × Oid} (hlink : s.link = some link)
    (hremote : s.remotes link.repositoryId = some (.ours captured.2)) :
    (s.completeCheckpoint captured).Pushed link.repositoryId captured.2 := by
  refine ⟨hremote, ?_, rfl⟩
  simp [completeCheckpoint, hlink]

/-- What `checkpoint_link` returns of its rows. -/
def checkpointLink (link : RepositoryLink) (row : QueuedCheckpoint) : CheckpointLink :=
  ⟨link.repositoryId, link.lastRemoteSha, row.captured⟩

/-- The first statements of an attempt. -/
theorem load_completes (git : GitLibrary) {row : QueuedCheckpoint}
    (hlink : s.link = some link) (hqueue : s.queue = some row) :
    ∃ world : World, world.pendingSync.isSome = true ∧ world.project = s.world.project
      ∧ world.repository = s.world.repository ∧ world.session = s.world.session
      ∧ (s.goto .loadLink).Advances git ({ s with world }.goto <|
        match row.captured with
        | some captured => .inspectRemote (checkpointLink link row) captured
        | none => .markPending ⟨checkpointLink link row, s.world.project.workspaceVersion⟩) := by
  refine ⟨{ s.world with pendingSync := some (s.world.pendingSync.getD true) }, rfl, rfl, rfl, rfl, ?_⟩
  refine Advances.step (t := s.goto (.loadVersion (checkpointLink link row))) rfl ?_ ?_
  · simp [CheckpointSystem.advance, CheckpointSystem.goto, hlink, hqueue, checkpointLink]
  refine Advances.step (t := s.goto
    (.ensureRepository ⟨checkpointLink link row, s.world.project.workspaceVersion⟩)) rfl rfl ?_
  exact Advances.step rfl rfl (.refl _)

/-- From the commit on, an attempt captures and pushes what HEAD shows. -/
theorem commit_completes (hconsistent : s.Consistent)
    (hworker : s.worker = some (.commit context)) (hlink : s.link = some link)
    (hrepositoryId : context.link.repositoryId = link.repositoryId)
    (hlastRemoteSha : context.link.lastRemoteSha = link.lastRemoteSha)
    (hhead : s.world.repository.head.isSome = true)
    (hbranch : s.branch = none ∨ s.branch = link.lastRemoteSha)
    (hremote : s.remotes link.repositoryId = link.lastRemoteSha.map .ours) :
    ∃ s' sha, s.Advances git s' ∧ s'.worker = none ∧ s'.Pushed link.repositoryId sha
      ∧ SameEntries (s'.world.repository.treeAt (some sha)) s'.world.repository.headTree := by
  rw [← hlastRemoteSha] at hbranch hremote
  have hparent : s.world.repository.Knows context.link.lastRemoteSha := by
    rw [hlastRemoteSha]
    exact hconsistent.known link hlink
  rcases createCheckpointCommit_isSome hhead hconsistent.heads.head hparent hbranch with
    ⟨commit, hcommit⟩
  have hmade := made_of_createCheckpointCommit hconsistent.heads.head hcommit
  let captured : Int × Oid := (context.workspaceVersion, commit.oid)
  let committed : CheckpointSystem :=
    { s with
      world := { s.world with repository := commit.repository }
      branch := commit.branch }
  let queue : Option QueuedCheckpoint :=
    s.queue.map fun row => { row with captured := some captured }
  let ready : CheckpointSystem :=
    { committed with queue }.goto (.inspectRemote context.link captured)
  rcases push_completes git (s := ready) rfl hmade.prepares
    (by rw [hrepositoryId]; exact hremote) with ⟨t, hworld, hlinked, htip, hpush⟩
  refine ⟨t.completeCheckpoint captured, commit.oid, ?_, rfl, ?_, ?_⟩
  · refine Advances.step (t := committed.goto (.capture context commit.oid)) hworker ?_ ?_
    · simp only [CheckpointSystem.advance, hcommit]
      rfl
    · exact Advances.step rfl rfl hpush
  · rw [hrepositoryId] at htip
    exact pushed_completeCheckpoint (hlinked.trans hlink) htip
  · show SameEntries (t.world.repository.treeAt (some commit.oid)) t.world.repository.headTree
    rw [hworld]
    exact hmade.tree

/-- Behind every run, an attempt that nothing disturbs pushes the captured commit, or a commit
of what HEAD shows. -/
theorem checkpoint_retry_succeeds {project : Project} {actions : List CheckpointAction}
    {link : RepositoryLink} {row : QueuedCheckpoint}
    (hrun : Run (fun s action s' => CheckpointSystem.step git s action = some s')
      (initial project) actions s)
    (hunlocked : s.world.session = none) (hlink : s.link = some link) (hqueue : s.queue = some row)
    (hremote : s.remotes link.repositoryId = link.lastRemoteSha.map .ours)
    (hpreparable : row.captured = none → s.Preparable git link) :
    ∃ s' sha, s.Completes git s' ∧ s'.Pushed link.repositoryId sha
      ∧ match row.captured with
        | some captured => sha = captured.2
        | none =>
          SameEntries (s'.world.repository.treeAt (some sha)) s'.world.repository.headTree := by
  have hconsistent : s.Consistent :=
    hrun.invariant (fun _ _ _ hinv hstep => hinv.step hstep) (consistent_initial project)
  rcases load_completes git hlink hqueue with
    ⟨world, hrow, hproject, hrepository, hsession, hload⟩
  cases hcaptured : row.captured with
  | some captured =>
    -- a captured commit is pushed again
    rw [hcaptured] at hload
    rcases hconsistent.captured row hqueue captured hcaptured with ⟨link', hlink', hprepares⟩
    rw [hlink, Option.mem_some_iff] at hlink'
    rw [← hlink', ← hrepository] at hprepares
    rcases push_completes git
      (s := { s with world }.goto (.inspectRemote (checkpointLink link row) captured)) rfl
      hprepares hremote with ⟨t, -, hlinked, htip, hpush⟩
    exact ⟨_, captured.2, ⟨hload.trans hpush, rfl⟩,
      pushed_completeCheckpoint (hlinked.trans hlink) htip, rfl⟩
  | none =>
    -- nothing was captured: flush, commit and push from the start
    rw [hcaptured] at hload
    let context : CheckpointContext := ⟨checkpointLink link row, s.world.project.workspaceVersion⟩
    have hready : ({ s with world }.goto (.markPending context)).Preparable git link := by
      rcases hpreparable hcaptured with ⟨hcommits, hbranch⟩
      refine ⟨?_, hbranch⟩
      show ∃ worktree, materialize world.project.content = some worktree
        ∧ (world.repository.head.isSome = true
          ∨ { world.repository with worktree }.worktreeIsClean git = false)
      rw [hproject, hrepository]
      exact hcommits
    rcases flush_completes rfl (hsession.trans hunlocked) hrow hready with
      ⟨flushed, snapshots, hhead, hflush⟩
    have hreach := hload.trans hflush
    have hstart : (s.goto .loadLink).Consistent := by
      refine hconsistent.goto hconsistent.heads rfl rfl ⟨[], by simp [goto]⟩ ?_
      intro step hstep
      cases hstep
      exact ⟨by simp [hqueue], by simp [hlink]⟩
    rcases commit_completes (hstart.advances hreach) rfl hlink rfl rfl hhead
      hready.branch hremote with ⟨s', sha, hadvances, hended, hpushed, htree⟩
    exact ⟨s', sha, ⟨hreach.trans hadvances, hended⟩, hpushed, htree⟩

/-! ### Runs -/

/-- A repository is linked and a checkpoint of the project is attempted. -/
def firstAttempt (steps : Nat) : List CheckpointAction :=
  [.linkRepository ['r'], .enqueue false, .claim] ++ List.replicate steps .advance

def attempted (actions : List CheckpointAction) : CheckpointSystem :=
  (exec (step plainGit) (initial oneDocument) actions).getD (initial oneDocument)

/-- The attempt stops behind the capture, and an edit is flushed. -/
def stoppedAttempt : List CheckpointAction :=
  firstAttempt 10 ++ [.stop false none, .world (.edit editedOnline), .world .startFlush]
    ++ List.replicate 4 (.world .advance)

/-- The first checkpoint of a project; and one that is tried again, with a commit captured that
HEAD has left behind. -/
theorem first_and_retried_checkpoints_succeed :
    (∃ s' sha, (attempted (firstAttempt 0)).Completes plainGit s' ∧ s'.Pushed ['r'] sha
      ∧ SameEntries (s'.world.repository.treeAt (some sha)) s'.world.repository.headTree)
    ∧ ∃ s', (attempted stoppedAttempt).world.repository.head ≠ some 1
      ∧ (attempted stoppedAttempt).Completes plainGit s' ∧ s'.Pushed ['r'] 1 := by
  constructor
  · have hexec : exec (step plainGit) (initial oneDocument) (firstAttempt 0)
        = some (attempted (firstAttempt 0)) := eq_some_getD (by decide +kernel) _
    have hpreparable : (attempted (firstAttempt 0)).Preparable plainGit ⟨['r'], 0, none⟩ :=
      ⟨⟨_, rfl, .inr (by decide +kernel)⟩, .inl (by decide +kernel)⟩
    have hqueue : (attempted (firstAttempt 0)).queue = some ⟨0, none, .processing⟩ := by
      decide +kernel
    exact checkpoint_retry_succeeds (exec_run hexec) (by decide +kernel) (by decide +kernel)
      hqueue (by decide +kernel) (fun _ => hpreparable)
  · have hexec : exec (step plainGit) (initial oneDocument) stoppedAttempt
        = some (attempted stoppedAttempt) := eq_some_getD (by decide +kernel) _
    have hlink : (attempted stoppedAttempt).link = some ⟨['r'], 0, none⟩ := by decide +kernel
    have hqueue : (attempted stoppedAttempt).queue = some ⟨0, some (0, 1), .processing⟩ := by
      decide +kernel
    rcases checkpoint_retry_succeeds (exec_run hexec) (by decide +kernel) hlink hqueue
      (by decide +kernel) (by simp) with ⟨s', sha, hcompletes, hpushed, hsha⟩
    have hcaptured : sha = 1 := hsha
    rw [hcaptured] at hpushed
    exact ⟨s', by decide +kernel, hcompletes, hpushed⟩

/-- An attempt that gets stuck does not go through. -/
theorem not_completes (k : Nat)
    (hstuck : (exec (step git) (s.goto .loadLink) (List.replicate k .advance)).isNone = true)
    (hworker : ∀ n < k, (exec (step git) (s.goto .loadLink) (List.replicate n .advance)).all
      (fun t => t.worker.isSome) = true) : ¬ s.Completes git s' := by
  rintro ⟨⟨n, hexec⟩, hended⟩
  rcases Nat.lt_or_ge n k with hlt | hge
  · have hall := hworker n hlt
    simp [hexec, hended] at hall
  have htake := exec_take (Option.isSome_iff_exists.mpr ⟨_, hexec⟩) k
  rw [List.take_replicate, Nat.min_eq_left hge] at htake
  rw [Option.isNone_iff_eq_none] at hstuck
  simp [hstuck] at htake

/-- The worker stops between the commit and its capture; or it stops behind the capture, and
an edit is flushed. -/
theorem retries_fail_or_push_an_old_commit :
    (∃ s actions, Run (fun s action s' => CheckpointSystem.step plainGit s action = some s')
        (initial oneDocument) actions s
      ∧ s.worker = none ∧ s.world.session = none ∧ s.link = some ⟨['r'], 0, none⟩
      ∧ s.queue.isSome = true ∧ s.remotes ['r'] = none ∧ ∀ s', ¬ s.Completes plainGit s')
    ∧ ∃ s s' actions sha, Run (fun s action s' => CheckpointSystem.step plainGit s action = some s')
        (initial oneDocument) actions s
      ∧ s.worker = none ∧ s.world.session = none ∧ s.link = some ⟨['r'], 0, none⟩
      ∧ s.queue.isSome = true ∧ s.remotes ['r'] = none ∧ s.Completes plainGit s'
      ∧ s'.remotes ['r'] = some (.ours sha)
      ∧ ¬ SameEntries (s'.world.repository.treeAt (some sha)) s'.world.repository.headTree := by
  constructor
  · let actions := firstAttempt 8 ++ [.stop true none]
    have hexec : exec (step plainGit) (initial oneDocument) actions = some (attempted actions) :=
      eq_some_getD (by decide +kernel) _
    refine ⟨attempted actions, actions, exec_run hexec, ?_, ?_, ?_, ?_, ?_, ?_⟩
    · decide +kernel
    · decide +kernel
    · decide +kernel
    · decide +kernel
    · decide +kernel
    · exact fun s' => not_completes 9 (by decide +kernel) (by decide +kernel)
  · have hexec : exec (step plainGit) (initial oneDocument) stoppedAttempt
        = some (attempted stoppedAttempt) := eq_some_getD (by decide +kernel) _
    let last := (exec (step plainGit) ((attempted stoppedAttempt).goto .loadLink)
      (List.replicate 7 .advance)).getD (initial oneDocument)
    have hlast : exec (step plainGit) ((attempted stoppedAttempt).goto .loadLink)
        (List.replicate 7 .advance) = some last := eq_some_getD (by decide +kernel) _
    refine ⟨attempted stoppedAttempt, last, stoppedAttempt, 1, exec_run hexec, ?_, ?_, ?_, ?_, ?_,
      ⟨⟨7, hlast⟩, ?_⟩, ?_, ?_⟩
    · decide +kernel
    · decide +kernel
    · decide +kernel
    · decide +kernel
    · decide +kernel
    · decide +kernel
    · decide +kernel
    · decide +kernel

end CheckpointSystem

end Toss.ExternalRepositories
