import Toss.ExternalRepositories.Checkpoints
import Toss.Versioning.LocalHistory

/-!
# The records of a checkpoint

What an attempt that has stopped leaves to the next one: the link with the commit that it was
last synchronized to, and the captured commit of the queue row.

* `CheckpointCommit.Made` — what `create_checkpoint_commit` leaves;
* `CheckpointSystem.Consistent` — a captured commit can be pushed on top of the one of the link.
-/

namespace Toss.ExternalRepositories

open Toss.Foundation Toss.Workspace Toss.Versioning

/-! ## Checkpoint commits -/

/-- A commit that can be pushed on top of another, or is that one. -/
def Prepares (repository : Repository) (lastRemoteSha : Option Oid) (sha : Oid) : Prop :=
  sha < repository.objects.length
    ∧ (lastRemoteSha = some sha
      ∨ ∃ object, repository.find sha = some object ∧ object.parents = lastRemoteSha.toList)

variable {commits : List CommitObject}

theorem find_append {repository repository' : Repository} {oid : Oid}
    (hobjects : repository'.objects = repository.objects ++ commits)
    (hoid : oid < repository.objects.length) : repository'.find oid = repository.find oid := by
  simp [Repository.find, hobjects, List.getElem?_append_left hoid]

theorem Prepares.append {repository repository' : Repository} {lastRemoteSha : Option Oid}
    {sha : Oid} (h : Prepares repository lastRemoteSha sha)
    (hobjects : repository'.objects = repository.objects ++ commits) :
    Prepares repository' lastRemoteSha sha := by
  refine ⟨?_, ?_⟩
  · rw [hobjects, List.length_append]
    exact Nat.lt_add_right _ h.1
  · rcases h.2 with hsame | ⟨object, hfind, hparents⟩
    · exact .inl hsame
    · exact .inr ⟨object, by rw [find_append hobjects h.1]; exact hfind, hparents⟩

/-- What `create_checkpoint_commit` leaves. -/
structure CheckpointCommit.Made (repository : Repository) (parentSha : Option Oid)
    (commit : CheckpointCommit) : Prop where
  objects : ∃ commits, commit.repository.objects = repository.objects ++ commits
  head : commit.repository.head = repository.head
  prepares : Prepares commit.repository parentSha commit.oid
  tree : SameEntries (commit.repository.treeAt (some commit.oid)) commit.repository.headTree

theorem headTree_append {repository repository' : Repository}
    (hknown : repository.Knows repository.head)
    (hobjects : repository'.objects = repository.objects ++ commits)
    (hhead : repository'.head = repository.head) : repository'.headTree = repository.headTree := by
  rw [Repository.headTree_eq, hhead, Repository.treeAt_append hknown hobjects]
  rfl

variable {repository : Repository}

theorem headTree_of_headCommit {source : CommitObject}
    (h : repository.headCommit = some source) : repository.headTree = source.tree := by
  simp [Repository.headTree, h]

variable {branch : Option Oid}

theorem made_commitOn {parent : Option Oid} {source : CommitObject} {commit : CheckpointCommit}
    (hknown : repository.Knows repository.head) (hsource : repository.headCommit = some source)
    (h : commitOn repository branch parent source.tree = some commit) :
    commit.Made repository parent := by
  unfold commitOn at h
  split at h
  · simp at h
  cases h
  have hobjects : ({ repository with
      objects := repository.objects ++ [⟨source.tree, parent.toList⟩] } : Repository).objects
      = repository.objects ++ [⟨source.tree, parent.toList⟩] := rfl
  have hhead := headTree_append hknown hobjects rfl
  refine ⟨⟨_, hobjects⟩, rfl, ⟨by simp, .inr ⟨⟨source.tree, parent.toList⟩, ?_, rfl⟩⟩, ?_⟩
  · simp [Repository.find]
  · rw [hhead, headTree_of_headCommit hsource]
    simp [Repository.treeAt, Repository.find, SameEntries.refl]

variable {parentSha : Option Oid}

theorem made_of_createCheckpointCommit {commit : CheckpointCommit}
    (hknown : repository.Knows repository.head)
    (h : createCheckpointCommit repository branch parentSha = some commit) :
    commit.Made repository parentSha := by
  rcases Option.bind_eq_some_iff.mp h with ⟨source, hsource, hcommit⟩
  cases parentSha with
  | none => exact made_commitOn hknown hsource hcommit
  | some sha =>
    rcases Option.bind_eq_some_iff.mp hcommit with ⟨parent, hparent, hcommit⟩
    split at hcommit
    · next hsame =>
      -- the tree is the parent's, and no commit is made
      cases hcommit
      have hsha := (List.getElem?_eq_some_iff.mp hparent).1
      refine ⟨⟨[], by simp⟩, rfl, ⟨hsha, .inl rfl⟩, ?_⟩
      have htree : repository.treeAt (some sha) = parent.tree := by
        simp [Repository.treeAt, hparent]
      rw [htree, headTree_of_headCommit hsource]
      exact hsame
    · exact made_commitOn hknown hsource hcommit

/-- A commit can be made where the checkpoint branch is absent, or at its parent. -/
theorem createCheckpointCommit_isSome (hhead : repository.head.isSome = true)
    (hknown : repository.Knows repository.head) (hparent : repository.Knows parentSha)
    (hbranch : branch = none ∨ branch = parentSha) :
    ∃ commit, createCheckpointCommit repository branch parentSha = some commit := by
  have hfind : ∀ oid : Oid, oid < repository.objects.length →
      ∃ object, repository.find oid = some object :=
    fun oid hoid => ⟨_, List.getElem?_eq_getElem hoid⟩
  have hcommitOn : ∀ tree, ∃ commit, commitOn repository branch parentSha tree = some commit := by
    intro tree
    unfold commitOn
    rw [if_neg]
    · exact ⟨_, rfl⟩
    · rcases hbranch with rfl | rfl <;> simp
  rcases Option.isSome_iff_exists.mp hhead with ⟨head, heq⟩
  rcases hfind head (hknown head heq) with ⟨source, hsource⟩
  have hcommit : repository.headCommit = some source := by
    simp [Repository.headCommit, heq, hsource]
  cases parentSha with
  | none =>
    rcases hcommitOn source.tree with ⟨commit, hmade⟩
    exact ⟨commit, Option.bind_eq_some_iff.mpr ⟨source, hcommit, hmade⟩⟩
  | some sha =>
    rcases hfind sha (hparent sha rfl) with ⟨parent, hfound⟩
    rcases hcommitOn source.tree with ⟨commit, hmade⟩
    by_cases hsame : SameEntries parent.tree source.tree
    · exact ⟨⟨repository, branch, sha⟩, by simp [createCheckpointCommit, hcommit, hfound, hsame]⟩
    · exact ⟨commit, by simp [createCheckpointCommit, hcommit, hfound, hsame, hmade]⟩

/-! ## The invariant -/

namespace CheckpointSystem

/-- What the worker has loaded is still in the rows. -/
def Loads (s : CheckpointSystem) (link : CheckpointLink) : Prop :=
  s.queue.isSome = true
    ∧ (∃ row ∈ s.link, row.repositoryId = link.repositoryId
      ∧ row.lastRemoteSha = link.lastRemoteSha)
    ∧ ∀ captured ∈ link.captured,
      Prepares s.world.repository link.lastRemoteSha captured.2

/-- The facts of an attempt, by where it stands. -/
def Matches (s : CheckpointSystem) : CheckpointStep → Prop
  | .loadLink => s.queue.isSome = true ∧ s.link.isSome = true
  | .loadVersion link => s.Loads link
  | .ensureRepository context | .markPending context | .flush context | .commit context =>
    s.Loads context.link
  | .capture context sha =>
    s.Loads context.link ∧ Prepares s.world.repository context.link.lastRemoteSha sha
  | .inspectRemote link captured | .push link captured | .verify link captured =>
    s.Loads link ∧ Prepares s.world.repository link.lastRemoteSha captured.2
  | .complete captured => captured.2 < s.world.repository.objects.length

/-- The invariant of every system. -/
structure Consistent (s : CheckpointSystem) : Prop where
  heads : s.world.KnowsHeads
  known : ∀ link ∈ s.link, s.world.repository.Knows link.lastRemoteSha
  captured : ∀ row ∈ s.queue, ∀ captured ∈ row.captured, ∃ link ∈ s.link,
    Prepares s.world.repository link.lastRemoteSha captured.2
  worker : ∀ step ∈ s.worker, s.Matches step

variable {git : GitLibrary} {s s' : CheckpointSystem} {world : World}

/-! ## What keeps the facts -/

theorem Loads.frame {link : CheckpointLink} (h : s.Loads link)
    (hqueue : s.queue.isSome = true → s'.queue.isSome = true) (hlink : s'.link = s.link)
    (hobjects : ∃ commits,
      s'.world.repository.objects = s.world.repository.objects ++ commits) : s'.Loads link := by
  rcases h with ⟨hsome, hrow, hcaptured⟩
  rcases hobjects with ⟨commits, hobjects⟩
  refine ⟨hqueue hsome, ?_, ?_⟩
  · rw [hlink]
    exact hrow
  · exact fun captured hmem => (hcaptured captured hmem).append hobjects

theorem Matches.frame {step : CheckpointStep} (h : s.Matches step)
    (hqueue : s.queue.isSome = true → s'.queue.isSome = true) (hlink : s'.link = s.link)
    (hobjects : ∃ commits,
      s'.world.repository.objects = s.world.repository.objects ++ commits) : s'.Matches step := by
  have hprepares : ∀ {lastRemoteSha sha}, Prepares s.world.repository lastRemoteSha sha →
      Prepares s'.world.repository lastRemoteSha sha := by
    intro lastRemoteSha sha hsha
    rcases hobjects with ⟨commits, hobjects⟩
    exact hsha.append hobjects
  cases step with
  | loadLink => exact ⟨hqueue h.1, by rw [hlink]; exact h.2⟩
  | loadVersion link => exact Loads.frame h hqueue hlink hobjects
  | ensureRepository context | markPending context | flush context | commit context =>
    exact Loads.frame h hqueue hlink hobjects
  | capture context sha => exact ⟨h.1.frame hqueue hlink hobjects, hprepares h.2⟩
  | inspectRemote link captured | push link captured | verify link captured =>
    exact ⟨h.1.frame hqueue hlink hobjects, hprepares h.2⟩
  | complete captured =>
    rcases hobjects with ⟨commits, hobjects⟩
    show captured.2 < s'.world.repository.objects.length
    rw [hobjects, List.length_append]
    exact Nat.lt_add_right _ h

/-- The link stays, the local repository grows, and a captured commit was there before. -/
theorem Consistent.frame (h : s.Consistent) (hheads : s'.world.KnowsHeads)
    (hlink : s'.link = s.link)
    (hobjects : ∃ commits, s'.world.repository.objects = s.world.repository.objects ++ commits)
    (hqueue : ∀ row ∈ s'.queue, ∀ captured ∈ row.captured,
      ∃ link ∈ s.link, Prepares s'.world.repository link.lastRemoteSha captured.2)
    (hworker : ∀ step ∈ s'.worker, s'.Matches step) : s'.Consistent := by
  refine ⟨hheads, ?_, ?_, hworker⟩
  · intro link hmem
    rw [hlink] at hmem
    rcases hobjects with ⟨commits, hobjects⟩
    exact (h.known link hmem).append hobjects
  · rw [hlink]
    exact hqueue

/-- The captured commits of a row that is still there. -/
theorem Consistent.captured_frame (h : s.Consistent)
    (hobjects : ∃ commits, s'.world.repository.objects = s.world.repository.objects ++ commits)
    (hqueue : ∀ row' ∈ s'.queue, ∃ row ∈ s.queue, row'.captured = row.captured) :
    ∀ row ∈ s'.queue, ∀ captured ∈ row.captured,
      ∃ link ∈ s.link, Prepares s'.world.repository link.lastRemoteSha captured.2 := by
  intro row' hrow' captured hcaptured
  rcases hqueue row' hrow' with ⟨row, hrow, hsame⟩
  rw [hsame] at hcaptured
  rcases h.captured row hrow captured hcaptured with ⟨link, hlink, hprepares⟩
  rcases hobjects with ⟨commits, hobjects⟩
  exact ⟨link, hlink, hprepares.append hobjects⟩

/-- The worker goes on while the rows stay. -/
theorem Consistent.goto (h : s.Consistent) (hheads : s'.world.KnowsHeads)
    (hlink : s'.link = s.link) (hqueue : s'.queue = s.queue)
    (hobjects : ∃ commits, s'.world.repository.objects = s.world.repository.objects ++ commits)
    (hworker : ∀ step ∈ s'.worker, s.Matches step) : s'.Consistent := by
  refine h.frame hheads hlink hobjects ?_ ?_
  · exact h.captured_frame hobjects fun row hrow => ⟨row, hqueue ▸ hrow, rfl⟩
  · exact fun step hstep =>
      (hworker step hstep).frame (fun hsome => by rw [hqueue]; exact hsome) hlink hobjects

/-! ## Steps -/

/-- An attempt takes its next step. -/
theorem Consistent.advance {step : CheckpointStep} (h : s.Consistent)
    (hworker : s.worker = some step) (hstep : s.advance git step = some s') : s'.Consistent := by
  have hmatches := h.worker step hworker
  have hgoto : ∀ next, s.Matches next → (s.goto next).Consistent := by
    intro next hnext
    refine h.goto h.heads rfl rfl ⟨[], by simp [CheckpointSystem.goto]⟩ ?_
    intro step hmem
    cases hmem
    exact hnext
  -- the local repository takes a step of its own
  have hworld : ∀ {action world next snapshots}, s.world.step git action = some world →
      s.Matches next →
        Consistent { s with world := world, snapshots := snapshots, worker := some next } := by
    intro action world next snapshots hworld hnext
    refine h.goto (h.heads.step hworld) rfl rfl (World.objects_step hworld) ?_
    intro step hmem
    cases hmem
    exact hnext
  cases step with
  | loadLink =>
    -- the attempt begins from the link and the row as stored
    rcases Option.bind_eq_some_iff.mp hstep with ⟨link, hlink, hrow⟩
    rcases Option.bind_eq_some_iff.mp hrow with ⟨row, hqueue, hnext⟩
    cases hnext
    refine hgoto _ ⟨hmatches.1, ⟨link, hlink, rfl, rfl⟩, ?_⟩
    intro captured hcaptured
    rcases h.captured row hqueue captured hcaptured with ⟨link', hlink', hprepares⟩
    rw [hlink, Option.mem_some_iff] at hlink'
    exact hlink' ▸ hprepares
  | loadVersion link =>
    cases hstep
    exact hgoto _ hmatches
  | ensureRepository context =>
    simp only [CheckpointSystem.advance, Option.map_eq_some_iff] at hstep
    rcases hstep with ⟨world, hensured, rfl⟩
    refine hworld hensured ?_
    split
    · next captured hcaptured => exact ⟨hmatches, hmatches.2.2 captured hcaptured⟩
    · exact hmatches
  | markPending context =>
    rcases Option.map_eq_some_iff.mp hstep with ⟨world, hboth, rfl⟩
    rcases Option.bind_eq_some_iff.mp hboth with ⟨marked, hmarked, hstarted⟩
    rcases World.objects_step hmarked with ⟨commits, hcommits⟩
    rcases World.objects_step hstarted with ⟨commits', hcommits'⟩
    refine h.goto ((h.heads.step hmarked).step hstarted) rfl rfl
      ⟨commits ++ commits', ?_⟩ ?_
    · show world.repository.objects = _
      rw [hcommits', hcommits, List.append_assoc]
    · intro step hmem
      cases hmem
      exact hmatches
  | flush context =>
    rcases Option.map_eq_some_iff.mp hstep with ⟨world, hflushed, rfl⟩
    refine hworld hflushed ?_
    split
    · exact hmatches
    · exact hmatches
  | commit context =>
    -- a new commit has the head of the branch for parent
    rcases Option.map_eq_some_iff.mp hstep with ⟨commit, hcommit, rfl⟩
    have hmade := made_of_createCheckpointCommit h.heads.head hcommit
    rcases hmade.objects with ⟨commits, hobjects⟩
    have hheads : ∀ head, s.world.repository.Knows head → commit.repository.Knows head :=
      fun head hknown => hknown.append hobjects
    refine h.frame ⟨?_, ?_⟩ rfl ⟨commits, hobjects⟩ ?_ ?_
    · show commit.repository.Knows commit.repository.head
      rw [hmade.head]
      exact hheads _ h.heads.head
    · exact fun session hsession before hbefore =>
        hheads before (h.heads.before session hsession before hbefore)
    · exact h.captured_frame ⟨commits, hobjects⟩ fun row hrow => ⟨row, hrow, rfl⟩
    · intro step hmem
      cases hmem
      exact ⟨Loads.frame hmatches id rfl ⟨commits, hobjects⟩, hmade.prepares⟩
  | capture context sha =>
    -- the row records what the attempt prepared
    cases hstep
    have hloads : Loads s context.link := hmatches.1
    refine h.frame h.heads rfl ⟨[], by simp [CheckpointSystem.goto]⟩ ?_ ?_
    · intro row hrow captured hcaptured
      rcases Option.map_eq_some_iff.mp hrow with ⟨row', -, rfl⟩
      cases hcaptured
      rcases hloads.2.1 with ⟨link, hlink, -, hsame⟩
      exact ⟨link, hlink, by rw [hsame]; exact hmatches.2⟩
    · intro step hmem
      cases hmem
      refine ⟨hloads.frame ?_ rfl ⟨[], by simp [CheckpointSystem.goto]⟩, hmatches.2⟩
      intro hsome
      simpa [CheckpointSystem.goto] using hsome
  | inspectRemote link captured =>
    simp only [CheckpointSystem.advance] at hstep
    split at hstep
    · cases hstep
      exact hgoto (.complete captured) hmatches.2.1
    split at hstep
    · cases hstep
      exact hgoto (.push link captured) hmatches
    · simp at hstep
  | push link captured =>
    simp only [CheckpointSystem.advance] at hstep
    split at hstep
    · cases hstep
      refine h.goto h.heads rfl rfl ⟨[], by simp [CheckpointSystem.goto]⟩ ?_
      intro step hmem
      cases hmem
      exact hmatches
    · simp at hstep
  | verify link captured =>
    simp only [CheckpointSystem.advance] at hstep
    split at hstep
    · cases hstep
      exact hgoto (.complete captured) hmatches.2.1
    · simp at hstep
  | complete captured =>
    -- the row is gone, and the link names what was pushed
    cases hstep
    refine ⟨h.heads, ?_, by simp [completeCheckpoint], by simp [completeCheckpoint]⟩
    intro link hlink
    rcases Option.map_eq_some_iff.mp hlink with ⟨before, -, rfl⟩
    intro oid hoid
    cases hoid
    exact hmatches

theorem knowsHeads_release {w : World} (h : w.KnowsHeads) : w.release.KnowsHeads :=
  ⟨h.head, by simp [World.release]⟩

/-- An attempt ends where it stands. -/
theorem Consistent.stopped (h : s.Consistent) (failure : Option ExternalGitCommandFailureKind) :
    (s.stopped failure).Consistent := by
  refine h.frame (knowsHeads_release h.heads) rfl
    ⟨[], by simp [CheckpointSystem.stopped, World.release]⟩ ?_ (by simp [CheckpointSystem.stopped])
  refine h.captured_frame ⟨[], by simp [CheckpointSystem.stopped, World.release]⟩ ?_
  intro row' hrow'
  rcases Option.map_eq_some_iff.mp hrow' with ⟨row, hrow, rfl⟩
  exact ⟨row, hrow, rfl⟩

/-- What a step does to the rows, the world and the worker. -/
inductive CheckpointMove (git : GitLibrary) (s : CheckpointSystem) :
    CheckpointAction → CheckpointSystem → Prop
  | same (action : CheckpointAction) : CheckpointMove git s action s
  | world {action : Versioning.Action} {world : World}
      (hfree : s.worker = none ∨ action.isOthers = true)
      (hworld : s.world.step git action = some world) :
      CheckpointMove git s (.world action) { s with world }
  | linked (repositoryId : Text) (hlink : s.link = none) :
      CheckpointMove git s (.linkRepository repositoryId)
        { s with link := some ⟨repositoryId, 0, none⟩ }
  | unlinked (hqueue : s.queue = none) :
      CheckpointMove git s .unlinkRepository { s with link := none }
  | queued (action : CheckpointAction) {row : QueuedCheckpoint}
      (hrow : ∀ captured ∈ row.captured, ∃ old ∈ s.queue, captured ∈ old.captured) :
      CheckpointMove git s action { s with queue := some row }
  | claimed {row : QueuedCheckpoint} (hrow : s.queue = some row) (hlink : s.link.isSome = true) :
      CheckpointMove git s .claim
        ({ s with queue := some { row with state := .processing } }.goto .loadLink)
  | advanced {step : CheckpointStep} {next : CheckpointSystem} (hworker : s.worker = some step)
      (hnext : s.advance git step = some next) : CheckpointMove git s .advance next
  | stopped (effective : Bool) {failure : Option ExternalGitCommandFailureKind}
      {last : CheckpointSystem}
      (hlast : last = s ∨ ∃ step, s.worker = some step ∧ s.advance git step = some last) :
      CheckpointMove git s (.stop effective failure) (last.stopped failure)
  | remoteMoved {repositoryId : Text} {tip : Option RemoteCommit}
      (htip : ∀ oid, tip = some (.ours oid) → (repositoryId, oid) ∈ s.pushed) :
      CheckpointMove git s (.moveRemote repositoryId tip)
        { s with remotes := Function.update s.remotes repositoryId tip }

theorem step_move {action : CheckpointAction} (hstep : s.step git action = some s') :
    CheckpointMove git s action s' := by
  cases action with
  | world action =>
    simp only [CheckpointSystem.step] at hstep
    split at hstep
    · next hfree =>
      rcases Option.map_eq_some_iff.mp hstep with ⟨world, hworld, rfl⟩
      rw [Bool.or_eq_true, Option.isNone_iff_eq_none] at hfree
      exact .world hfree hworld
    · simp at hstep
  | linkRepository repositoryId =>
    simp only [CheckpointSystem.step] at hstep
    split at hstep
    · next hlink =>
      cases hstep
      exact .linked repositoryId hlink
    · split at hstep
      · cases hstep
        exact .same _
      · simp at hstep
  | unlinkRepository =>
    simp only [CheckpointSystem.step] at hstep
    split at hstep
    · next hqueue =>
      cases hstep
      exact .unlinked (Option.isNone_iff_eq_none.mp hqueue)
    · simp at hstep
  | enqueue inboundActive =>
    cases hstep
    unfold enqueueCheckpoint
    split
    · exact .same _
    split
    · exact .same _
    split
    · next row hrow => exact .queued _ fun captured hcaptured => ⟨row, hrow, hcaptured⟩
    · dsimp only
      split
      · exact .same _
      · exact .queued _ (by simp)
  | claim =>
    simp only [CheckpointSystem.step] at hstep
    split at hstep
    · simp at hstep
    rename_i row hrow
    split at hstep
    · next hfree =>
      simp only [Bool.and_eq_true] at hfree
      cases hstep
      exact .claimed hrow hfree.1.2
    · simp at hstep
  | advance =>
    rcases Option.bind_eq_some_iff.mp hstep with ⟨step, hworker, hnext⟩
    exact .advanced hworker hnext
  | stop effective failure =>
    rcases Option.bind_eq_some_iff.mp hstep with ⟨step, hworker, hstop⟩
    rcases Option.map_eq_some_iff.mp hstop with ⟨last, hlast, rfl⟩
    refine .stopped effective ?_
    cases effective with
    | true => exact .inr ⟨step, hworker, hlast⟩
    | false => exact .inl (Option.some.inj hlast).symm
  | moveRemote repositoryId tip =>
    simp only [CheckpointSystem.step] at hstep
    split at hstep
    · next htip =>
      cases hstep
      refine .remoteMoved ?_
      rintro oid rfl
      simpa using htip
    · simp at hstep

theorem Consistent.step {action : CheckpointAction} (h : s.Consistent)
    (hstep : s.step git action = some s') : s'.Consistent := by
  have hempty : ∃ commits, s.world.repository.objects = s.world.repository.objects ++ commits :=
    ⟨[], by simp⟩
  cases step_move hstep with
  | same => exact h
  | world hfree hworld =>
    exact h.goto (h.heads.step hworld) rfl rfl (World.objects_step hworld) h.worker
  | linked repositoryId hlink =>
    refine ⟨h.heads, ?_, ?_, ?_⟩
    · intro link hmem
      cases hmem
      simp [Repository.Knows]
    · intro row hrow captured hcaptured
      rcases h.captured row hrow captured hcaptured with ⟨link, hmem, -⟩
      simp [hlink] at hmem
    · -- an attempt keeps its link
      intro step hmem
      have hmatches := h.worker step hmem
      cases step <;>
        first
        | exact hmatches
        | simp [Matches, Loads, hlink] at hmatches
  | unlinked hqueue =>
    refine ⟨h.heads, by simp, by simp [hqueue], ?_⟩
    intro step hmem
    have hmatches := h.worker step hmem
    cases step <;>
      first
      | exact hmatches
      | simp [Matches, Loads, hqueue] at hmatches
  | queued action hrow =>
    refine h.frame h.heads rfl hempty ?_ ?_
    · rintro row ⟨⟩ captured hcaptured
      rcases hrow captured hcaptured with ⟨old, hold, hmem⟩
      exact h.captured old hold captured hmem
    · exact fun step hmem => (h.worker step hmem).frame (fun _ => rfl) rfl hempty
  | claimed hrow hlink =>
    refine h.frame h.heads rfl hempty ?_ ?_
    · rintro row ⟨⟩ captured hcaptured
      exact h.captured _ hrow captured hcaptured
    · rintro step ⟨⟩
      exact ⟨rfl, hlink⟩
  | advanced hworker hnext => exact h.advance hworker hnext
  | stopped effective hlast =>
    rcases hlast with rfl | ⟨step, hworker, hnext⟩
    · exact h.stopped _
    · exact (h.advance hworker hnext).stopped _
  | remoteMoved htip => exact h.goto h.heads rfl rfl hempty h.worker

theorem consistent_initial (project : Project) : (initial project).Consistent := by
  refine ⟨⟨?_, by simp [initial, World.initial]⟩, by simp [initial], by simp [initial],
    by simp [initial]⟩
  simp [initial, World.initial, Repository.initialized, Repository.Knows]

end CheckpointSystem

end Toss.ExternalRepositories
