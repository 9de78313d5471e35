import Toss.ExternalRepositories.InboundJobs
import Toss.Foundation.Fallible

/-!
# The inbound worker

`process_inbound_job` of `worker.rs` and what it commits, statement by statement:
every statement can fail, with or without its effect, and the process can stop
between any two. The system is one project with its link and its jobs. The unique
index leaves the project one active job, and one worker at a time attempts it.

* `Stage` — where an attempt stands;
* `InboundDatabase.applyInbound` — the transaction of
  `apply_external_git_inbound_content`;
* `System.step` — the steps of the worker and of everyone else.
-/

namespace Toss.ExternalRepositories

open Toss.Foundation Toss.Workspace

/-- The columns of `external_git_project_links` that inbound jobs use. -/
structure ProjectLink where
  linkedByUserId : Uuid
  cloneUrl : Text
  fullPath : Text
  lastImportBranch : Option Text
  lastImportSha : Option Text
  lastImportAt : Option Timestamp
  lastImportError : Option ExternalGitFailureCode
deriving DecidableEq, Repr

structure InboundDatabase where
  project : Project
  link : Option ProjectLink
  jobs : List InboundJobRow
deriving DecidableEq, Repr

structure InboundJobLink where
  operation : ExternalGitInboundOperation
  sourceBranch : Text
  requestedByUserId : Uuid
  linkedByUserId : Uuid
  cloneUrl : Text
  fullPath : Text
deriving DecidableEq, Repr

/-- `inbound_job_link`. -/
def inboundJobLink (db : InboundDatabase) (jobId : Uuid) : Option InboundJobLink := do
  let job ← db.jobs.find? (·.id = jobId)
  let link ← db.link
  some ⟨job.operation, job.sourceBranch, job.requestedByUserId, link.linkedByUserId,
    link.cloneUrl, link.fullPath⟩

/-- What `prepare_external_git_import` read from the checkout. -/
structure PreparedExternalGitImport where
  remoteSha : Text
  entryFilePath : Text
  documents : List WorkspaceDocument
  directories : List Text
  assets : List WorkspaceAsset
deriving DecidableEq, Repr

/-- `record_link_import`. -/
def recordLinkImport (link : ProjectLink) (sourceBranch remoteSha : Text) (now : Timestamp) :
    ProjectLink :=
  { link with
    lastImportBranch := some sourceBranch
    lastImportSha := some remoteSha
    lastImportAt := some now
    lastImportError := none }

/-- The transaction of `apply_external_git_inbound_content`, up to its commit. -/
def InboundDatabase.applyInbound (db : InboundDatabase) (jobId : Uuid) (link : InboundJobLink)
    (prepared : PreparedExternalGitImport) (now : Timestamp) :
    Except ApplyExternalGitInboundError InboundDatabase :=
  let content : ReplaceProjectContent :=
    { expectedWorkspaceVersion := none
      documents := prepared.documents
      directories := prepared.directories
      assets := prepared.assets
      entryFilePath := prepared.entryFilePath }
  match replaceProjectContent db.project content with
  | none => .error .persistence
  | some .workspaceVersionChanged => .error .workspaceChanged
  | some .invalidEntryFile => .error .invalidEntryFile
  | some (.replaced project) =>
    match markJobApplied db.jobs jobId prepared.remoteSha project.workspaceVersion now with
    | none => .error .persistence
    | some jobs =>
      .ok
        { project, jobs
          link := db.link.map fun row =>
            recordLinkImport row link.sourceBranch prepared.remoteSha now }

/-- `complete_job` of `job_lifecycle.rs`; `none` when the job is no longer processing. -/
def InboundDatabase.completeInbound (db : InboundDatabase) (jobId : Uuid) :
    Option InboundDatabase := do
  let (jobs, completed) ← completeJob db.jobs jobId
  guard completed
  some
    { db with
      jobs
      link := db.link.map fun row => { row with lastImportError := none } }

/-- `record_failure`; `none` stands for a statement that fails. -/
def InboundDatabase.recordFailure (db : InboundDatabase) (claimed : ClaimedInboundJob)
    (failure : InboundFailure) (now : Timestamp) : Option InboundDatabase :=
  match failure.transition claimed.attemptCount now with
  | .preserveProcessingLease => some db
  | .record state retryPhase nextAttemptAt => do
    let (jobs, updated) ← failJob db.jobs claimed.id state retryPhase nextAttemptAt
      failure.errorCode
    some
      { db with
        jobs
        link :=
          if updated then
            db.link.map fun row => { row with lastImportError := some failure.errorCode }
          else db.link }

/-! ## Attempts -/

/-- The statements and commands before the import is known. -/
inductive FetchStep
  | loadEntryPoint
  | clone
  | recordLfsPhase
  | lfsPull
  | revParse
  | recordValidationPhase
  | prepareImport
deriving DecidableEq, Repr

/-- The statements and uploads of `stage_assets`, with the assets still to store. -/
inductive StagingStep
  | recordAssetsPhase
  | storeAsset (remaining : List WorkspaceAsset)
  | recordAssetPhase (remaining : List WorkspaceAsset)
  | recordApplyPhase
deriving DecidableEq, Repr

inductive Stage
  | loadLink
  | fetching (link : InboundJobLink) (next : FetchStep)
  | staging (link : InboundJobLink) (prepared : PreparedExternalGitImport) (next : StagingStep)
  | applying (link : InboundJobLink) (prepared : PreparedExternalGitImport)
  | flushing (applied : AppliedInboundJob)
  | completing (applied : AppliedInboundJob)
  | failed (error : InboundJobError)
deriving DecidableEq, Repr

structure Attempt where
  claimed : ClaimedInboundJob
  stage : Stage
deriving DecidableEq, Repr

/-- The errors that the statement or command a stage is about can end in. -/
def Stage.raises : Stage → InboundJobError → Bool
  | .loadLink, .persistence .loadLink => true
  | .fetching _ .loadEntryPoint, .entryPointProjectNotFound => true
  | .fetching _ .loadEntryPoint, .entryPointPersistence => true
  | .fetching _ .clone, .checkout => true
  | .fetching _ .clone, .provider _ _ => true
  | .fetching _ .recordLfsPhase, .persistence .recordLfsPhase => true
  | .fetching _ .lfsPull, .provider _ _ => true
  | .fetching _ .revParse, .provider _ _ => true
  | .fetching _ .revParse, .invalidRemoteRevision => true
  | .fetching _ .recordValidationPhase, .persistence .recordValidationPhase => true
  | .fetching _ .prepareImport, .importFailed _ => true
  | .staging _ _ .recordAssetsPhase, .persistence .recordAssetsPhase => true
  | .staging _ _ (.storeAsset _), .contentRead => true
  | .staging _ _ (.storeAsset _), .assetStorage => true
  | .staging _ _ (.recordAssetPhase _), .persistence .recordAssetsPhase => true
  | .staging _ _ .recordApplyPhase, .persistence .recordApplyPhase => true
  | .applying _ _, .contentRead => true
  | .applying _ _, .apply .workspaceFlush => true
  | .applying _ _, .apply .persistence => true
  | .applying _ _, .apply .commitAmbiguous => true
  | .flushing _, .revision => true
  | .completing _, .completion => true
  | _, _ => false

structure System where
  db : InboundDatabase
  attempt : Option Attempt
  now : Timestamp
  /-- The jobs whose replacement of the content was committed, the latest last. -/
  replacements : List Uuid
deriving DecidableEq, Repr

inductive Action
  /-- A user relinks, unlinks, enqueues, reauthorizes or edits. -/
  | linkRepository (link : ProjectLink)
  | unlinkRepository
  | enqueue (jobId : Uuid) (operation : ExternalGitInboundOperation) (sourceBranch : Text)
      (requestedByUserId : Uuid)
  | reauthorize
  | edit (content : ProjectContent)
  | wait (seconds : Nat)
  /-- The worker claims a job, takes the next step, fails in it or is killed. -/
  | claim (jobId : Uuid)
  | advance
  | prepared (result : PreparedExternalGitImport)
  | raise (error : InboundJobError) (effective : Bool)
  | crash
deriving DecidableEq, Repr

/-- `now - chrono::Duration::minutes(15)`. -/
def staleInboundLeaseSeconds : Int := 900

/-- The next statement of an attempt goes through. -/
def System.advance (s : System) (attempt : Attempt) : Option System :=
  let goto := fun stage => { s with attempt := some { attempt with stage } }
  let record := fun phase stage =>
    (updateJobPhase s.db.jobs attempt.claimed.id phase s.now).map fun jobs =>
      { s with db := { s.db with jobs }, attempt := some { attempt with stage } }
  match attempt.stage with
  | .loadLink =>
    match inboundJobLink s.db attempt.claimed.id with
    | none => some (goto (.failed .linkMissing))
    | some link =>
      match attempt.claimed.appliedState with
      | some applied => some (goto (.flushing applied))
      | none => some (goto (.fetching link .loadEntryPoint))
  | .fetching link .loadEntryPoint => some (goto (.fetching link .clone))
  | .fetching link .clone => some (goto (.fetching link .recordLfsPhase))
  | .fetching link .recordLfsPhase => record .lfs (.fetching link .lfsPull)
  | .fetching link .lfsPull => some (goto (.fetching link .revParse))
  | .fetching link .revParse => some (goto (.fetching link .recordValidationPhase))
  | .fetching link .recordValidationPhase => record .validate (.fetching link .prepareImport)
  | .fetching _ .prepareImport => none
  | .staging link prepared .recordAssetsPhase =>
    record .assets (.staging link prepared (.storeAsset prepared.assets))
  | .staging link prepared (.storeAsset []) => some (goto (.staging link prepared .recordApplyPhase))
  | .staging link prepared (.storeAsset (_ :: remaining)) =>
    some (goto (.staging link prepared (.recordAssetPhase remaining)))
  | .staging link prepared (.recordAssetPhase remaining) =>
    record .assets (.staging link prepared (.storeAsset remaining))
  | .staging link prepared .recordApplyPhase => record .apply (.applying link prepared)
  | .applying link prepared =>
    match s.db.applyInbound attempt.claimed.id link prepared s.now with
    | .error error => some (goto (.failed (.apply error)))
    | .ok db =>
      let applied := ⟨prepared.remoteSha, db.project.workspaceVersion⟩
      some
        { s with
          db
          attempt := some { attempt with stage := .flushing applied }
          replacements := s.replacements ++ [attempt.claimed.id] }
  | .flushing applied => some (goto (.completing applied))
  | .completing _ =>
    match s.db.completeInbound attempt.claimed.id with
    | none => some (goto (.failed .completion))
    | some db => some { s with db, attempt := none }
  | .failed error =>
    (s.db.recordFailure attempt.claimed error.failure s.now).map fun db =>
      { s with db, attempt := none }

/-- What a statement that reported an error may have done all the same: the one it
would have done, had its result arrived. -/
def System.effect (s : System) (attempt : Attempt) : Option System :=
  match attempt.stage with
  | .fetching _ .recordLfsPhase | .fetching _ .recordValidationPhase
  | .staging _ _ .recordAssetsPhase | .staging _ _ (.recordAssetPhase _)
  | .staging _ _ .recordApplyPhase | .applying _ _ | .completing _ | .failed _ =>
    s.advance attempt
  | _ => none

/-- The state behind a statement that reported an error. Of the statements of the apply
only the commit leaves open whether it took place. -/
def System.reported (s : System) (attempt : Attempt) (error : InboundJobError)
    (effective : Bool) : Option System :=
  if effective then
    match attempt.stage with
    | .applying _ _ => if error = .apply .commitAmbiguous then s.effect attempt else none
    | _ => s.effect attempt
  else some s

def System.step (s : System) : Action → Option System
  | .linkRepository link =>
    if s.db.link.isNone then some { s with db := { s.db with link := some link } } else none
  | .unlinkRepository =>
    -- deleting the link deletes its jobs
    if s.db.jobs.any fun job => job.state.isActive then none
    else some { s with db := { s.db with link := none, jobs := [] } }
  | .enqueue jobId operation sourceBranch requestedByUserId => do
    guard (s.db.link.isSome ∧ jobId ∉ s.replacements)
    let jobs ← insertInboundJob s.db.jobs jobId operation sourceBranch requestedByUserId s.now
    some { s with db := { s.db with jobs } }
  | .reauthorize => do
    let jobs ← resumeReauthorizedJobs s.db.jobs s.now
    some { s with db := { s.db with jobs } }
  | .edit content =>
    let project :=
      { s.db.project with content, workspaceVersion := s.db.project.workspaceVersion + 1 }
    some { s with db := { s.db with project } }
  | .wait seconds => some { s with now := s.now + seconds }
  | .claim jobId => do
    guard s.attempt.isNone
    let (jobs, claimed) ← claimDueJob s.db.jobs jobId s.now (s.now - staleInboundLeaseSeconds)
    some { s with db := { s.db with jobs }, attempt := some ⟨claimed, .loadLink⟩ }
  | .advance => do
    let attempt ← s.attempt
    s.advance attempt
  | .prepared result => do
    let attempt ← s.attempt
    match attempt.stage with
    | .fetching link .prepareImport =>
      let attempt := { attempt with stage := .staging link result .recordAssetsPhase }
      some { s with attempt := some attempt }
    | _ => none
  | .raise error effective => do
    let attempt ← s.attempt
    match attempt.stage with
    | .failed _ =>
      -- the failure could not be recorded, or was without the worker knowing
      if effective then s.effect attempt else some { s with attempt := none }
    | stage =>
      guard (stage.raises error)
      let after ← s.reported attempt error effective
      some { after with attempt := some { attempt with stage := .failed error } }
  | .crash => some { s with attempt := none }

/-- A project without link or jobs. -/
def System.initial (project : Project) : System := ⟨⟨project, none, []⟩, none, 0, []⟩

end Toss.ExternalRepositories
