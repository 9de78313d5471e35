import Toss.Versioning.Materialization
import Toss.Workspace.ProjectReads

/-!
# Opening a revision

`revision_transfer.rs` and `revision_documents.rs`: the manifest of a commit, the full transfer
and the deltas over what a client may already show, and the one of them that is sent. A blob
is a document or an asset by the name of its path alone.

* `loadCommitManifest`, `diffChangedPathsBetween`, `buildTransferCandidate`;
* `prepareRevisionTransfer`, `addLiveAnchorCandidate`, `materializeBestRevisionTransfer`;
* `revisionDocuments` — a request.

A revision ID is the commit that it parses to, and the bytes of an asset are not encoded.
-/

namespace Toss.Versioning

open Toss.Foundation Toss.Workspace
open Toss.Processing (decodeUtf8)

inductive RevisionTransferMode
  | full
  | delta
deriving DecidableEq, Repr

inductive RevisionBaseAnchor
  | none
  | live
  | revision
deriving DecidableEq, Repr

inductive RevisionTransferError
  | revisionNotFound (revisionId : Oid)
  | git
  | invalidPath (path : Text)
  | invalidDocumentEncoding (path : Text)
deriving DecidableEq, Repr

structure RevisionFileNode where
  path : Text
  kind : ProjectFileKind
deriving DecidableEq, Repr

structure RevisionDocument where
  path : Text
  content : Text
deriving DecidableEq, Repr

structure RevisionAsset where
  path : Text
  contentType : Text
  sizeBytes : Nat
  bytes : Bytes
deriving DecidableEq, Repr

structure RevisionTransfer where
  revisionId : Oid
  entryFilePath : Text
  transferMode : RevisionTransferMode
  baseAnchor : RevisionBaseAnchor
  baseRevisionId : Option Oid
  nodes : List RevisionFileNode
  documents : List RevisionDocument
  deletedDocuments : List Text
  assets : List RevisionAsset
  deletedAssets : List Text
deriving DecidableEq, Repr

inductive RevisionAnchorKind
  | none
  | live
  | revision (revisionId : Oid)
deriving DecidableEq, Repr

inductive CommitPathKind
  | document
  | asset
deriving DecidableEq, Repr

structure CommitPathMeta where
  kind : CommitPathKind
  contentType : Text
  sizeBytes : Nat
deriving DecidableEq, Repr

structure CommitManifest where
  files : List (Text × CommitPathMeta)
  directories : List Text
deriving DecidableEq, Repr

structure RevisionTransferCandidate where
  transferMode : RevisionTransferMode
  anchorKind : RevisionAnchorKind
  documentPaths : List Text
  deletedDocuments : List Text
  assetPaths : List Text
  deletedAssets : List Text
  estimatedBytes : Nat
deriving DecidableEq, Repr

structure PreparedRevisionTransfer where
  targetManifest : CommitManifest
  nodes : List RevisionFileNode
  candidates : List RevisionTransferCandidate
  /-- The manifest of HEAD, and the paths that differ between it and the revision. -/
  liveBaseContext : Option (CommitManifest × List Text)
deriving DecidableEq, Repr

/-! ## Manifests -/

/-- The sanitized path of an entry of the walk; `none` for an entry that is passed over. -/
def manifestPath (entry : Bytes × TreeFile) : Except RevisionTransferError (Option Text) :=
  if (decodeUtf8 (treeRoot entry.1)).isNone then .error .git
  else if entry.2.mode = .gitlink then .ok none
  else
    match decodeUtf8 entry.1 with
    | none => .ok none
    | some raw =>
      match sanitizeProjectPath raw with
      | none => .error (.invalidPath raw)
      | some path => .ok (some path)

/-- What the manifest says of a path. It is loaded without reading the blob. -/
def commitPathMeta (git : GitLibrary) (path : Text) : CommitPathMeta :=
  { kind := if isDocumentTextPath path then .document else .asset
    contentType := git.contentType path
    sizeBytes := 0 }

def loadCommitManifest (git : GitLibrary) (tree : Tree) :
    Except RevisionTransferError CommitManifest := do
  let paths ← (dedupKeys tree).mapM manifestPath
  let clean := (paths.filterMap id).dedup
  .ok
    { files := clean.map fun path => (path, commitPathMeta git path)
      directories := (clean.flatMap parentDirectories).dedup }

/-- `diff_tree_to_tree`: the paths at which two trees differ. -/
def diffChangedPathsBetween (base target : Tree) : List Text :=
  let paths := (base.map Prod.fst ++ target.map Prod.fst).filter fun path =>
    base.lookup path ≠ target.lookup path
  (paths.filterMap fun path => (decodeUtf8 path).bind sanitizeProjectPath).dedup

/-- A path that a transfer has to name, with the error it may be. -/
def cleanPath (path : Text) : Except RevisionTransferError Text :=
  match sanitizeProjectPath path with
  | none => .error (.invalidPath path)
  | some clean => .ok clean

def buildNodesFromManifest (manifest : CommitManifest) :
    Except RevisionTransferError (List RevisionFileNode) := do
  let files ← (manifest.files.map Prod.fst).mapM cleanPath
  let directories ← manifest.directories.mapM cleanPath
  let nodes := files.map (RevisionFileNode.mk · .file)
    ++ (files.flatMap parentDirectories ++ directories).dedup.map (RevisionFileNode.mk · .directory)
  .ok (nodes.dedup.insertionSort fun left right => pathLe left.path right.path = true)

/-! ## Candidates -/

def saturatingAdd (left right : Nat) : Nat :=
  min (left + right) (2 ^ 64 - 1)

def estimateAssetB64Bytes (sizeBytes : Nat) : Nat :=
  (sizeBytes + 2) / 3 * 4

/-- How a path of the target takes part in a transfer. -/
inductive PathTransfer
  | document
  | asset
  | deletedDocument
  | deletedAsset
deriving DecidableEq, Repr

def CommitManifest.pathTransfer (manifest : CommitManifest) (path : Text) : PathTransfer :=
  match manifest.files.lookup path with
  | some { kind := .document, .. } => .document
  | some { kind := .asset, .. } => .asset
  | none => if isDocumentTextPath path then .deletedDocument else .deletedAsset

/-- What a path adds to the estimate of a transfer. -/
def CommitManifest.addEstimate (manifest : CommitManifest) (estimatedBytes : Nat) (path : Text) :
    Nat :=
  let named := saturatingAdd estimatedBytes (encodeUtf8 path).length
  match manifest.files.lookup path with
  | some file =>
    match file.kind with
    | .document => saturatingAdd (saturatingAdd named (max file.sizeBytes 1024)) 24
    | .asset =>
      saturatingAdd
        (saturatingAdd (saturatingAdd named (encodeUtf8 file.contentType).length)
          (max (estimateAssetB64Bytes file.sizeBytes) (256 * 1024))) 32
  | none => saturatingAdd named 12

def buildTransferCandidate (targetManifest : CommitManifest) (changedPaths : Option (List Text))
    (anchorKind : RevisionAnchorKind) : RevisionTransferCandidate :=
  let paths := sortPaths (changedPaths.getD (targetManifest.files.map Prod.fst)).dedup
  let taking := fun transfer => paths.filter fun path => targetManifest.pathTransfer path = transfer
  { transferMode := if changedPaths.isSome then .delta else .full
    anchorKind
    documentPaths := taking .document
    deletedDocuments := taking .deletedDocument
    assetPaths := taking .asset
    deletedAssets := taking .deletedAsset
    estimatedBytes := paths.foldl targetManifest.addEstimate 0 }

/-- The object of a revision. -/
def findRevision (repository : Repository) (revisionId : Oid) :
    Except RevisionTransferError CommitObject :=
  match repository.find revisionId with
  | some object => .ok object
  | none => .error (.revisionNotFound revisionId)

def prepareRevisionTransfer (git : GitLibrary) (repository : Repository) (revisionId : Oid)
    (currentRevisionId : Option Oid) : Except RevisionTransferError PreparedRevisionTransfer := do
  let target ← findRevision repository revisionId
  let targetManifest ← loadCommitManifest git target.tree
  let nodes ← buildNodesFromManifest targetManifest
  let candidate := fun changedPaths anchorKind =>
    buildTransferCandidate targetManifest changedPaths anchorKind
  let liveBaseContext ←
    match repository.headCommit with
    | none => .ok none
    | some head => do
      let headManifest ← loadCommitManifest git head.tree
      .ok <| some (headManifest,
        if repository.head = some revisionId then []
        else diffChangedPathsBetween head.tree target.tree)
  let overHead :=
    match repository.head, liveBaseContext with
    | some head, some (_, headToTarget) =>
      if head ≠ revisionId && currentRevisionId.isSome then
        [candidate (some headToTarget) (.revision head)]
      else []
    | _, _ => []
  let overCurrent :=
    match currentRevisionId.bind fun current => (repository.find current).map (current, ·) with
    | some (current, base) =>
      if current ≠ revisionId && !overHead.any (·.anchorKind = .revision current) then
        [candidate (some (diffChangedPathsBetween base.tree target.tree)) (.revision current)]
      else []
    | none => []
  .ok
    { targetManifest, nodes
      candidates := candidate none .none :: (overHead ++ overCurrent)
      liveBaseContext }

/-! ## The live anchor -/

structure RevisionPathSnapshot where
  changedDocumentPaths : List Text
  changedAssetPaths : List Text
  liveDocumentPaths : List Text
  liveAssetPaths : List Text
deriving DecidableEq, Repr

/-- The paths at which HEAD does not show the live workspace, as far as the snapshot tells. -/
def liveToHead (headManifest : CommitManifest) (snapshot : RevisionPathSnapshot) : List Text :=
  let livePaths :=
    (snapshot.liveDocumentPaths ++ snapshot.liveAssetPaths).filterMap sanitizeProjectPath
  let headPaths := headManifest.files.map Prod.fst
  (snapshot.changedDocumentPaths ++ snapshot.changedAssetPaths).filterMap sanitizeProjectPath
    ++ headPaths.filter (· ∉ livePaths) ++ livePaths.filter (· ∉ headPaths)

/-- `add_live_anchor_candidate`; `none` stands for no live snapshot. -/
def addLiveAnchorCandidate (prepared : PreparedRevisionTransfer)
    (snapshot : Option RevisionPathSnapshot) : PreparedRevisionTransfer :=
  match prepared.liveBaseContext with
  | none => prepared
  | some (headManifest, headToTarget) =>
    let changed := headToTarget ++ (snapshot.map (liveToHead headManifest)).getD []
    { prepared with
      candidates := prepared.candidates ++
        [buildTransferCandidate prepared.targetManifest (some changed) .live] }

/-! ## Materializing -/

/-- `select_transfer_candidate`: the first of the smallest, a delta before the full one. -/
def selectTransferCandidate (targetManifest : CommitManifest)
    (candidates : List RevisionTransferCandidate) : RevisionTransferCandidate :=
  (candidates.minOn? fun candidate =>
      2 * candidate.estimatedBytes + if candidate.transferMode = .full then 1 else 0).getD
    (buildTransferCandidate targetManifest none .none)

def cleanTransferPaths (paths : List Text) : Except RevisionTransferError (List Text) := do
  let clean ← paths.mapM cleanPath
  .ok (sortPaths clean.dedup)

def loadBlobBytesAtPath (tree : Tree) (path : Text) : Except RevisionTransferError Bytes :=
  match tree.lookup (encodeUtf8 path) with
  | some file => if file.mode = .gitlink then .error .git else .ok file.bytes
  | none => .error .git

/-- A document of a transfer. -/
def loadRevisionDocument (tree : Tree) (path : Text) :
    Except RevisionTransferError RevisionDocument := do
  let bytes ← loadBlobBytesAtPath tree path
  match decodeUtf8 bytes with
  | some content => .ok ⟨path, content⟩
  | none => .error (.invalidDocumentEncoding path)

/-- An asset of a transfer; `none` where the manifest has none. -/
def loadRevisionAsset (manifest : CommitManifest) (tree : Tree) (path : Text) :
    Except RevisionTransferError (Option RevisionAsset) :=
  match manifest.files.lookup path with
  | none => .ok none
  | some file => do
    let bytes ← loadBlobBytesAtPath tree path
    .ok (some ⟨path, file.contentType, bytes.length, bytes⟩)

def RevisionAnchorKind.baseAnchor : RevisionAnchorKind → RevisionBaseAnchor
  | .none => .none
  | .live => .live
  | .revision _ => .revision

def RevisionAnchorKind.baseRevisionId : RevisionAnchorKind → Option Oid
  | .revision revisionId => some revisionId
  | _ => Option.none

def materializeRevisionTransfer (repository : Repository) (revisionId : Oid) (entryFilePath : Text)
    (prepared : PreparedRevisionTransfer) (selected : RevisionTransferCandidate) :
    Except RevisionTransferError RevisionTransfer := do
  let target ← findRevision repository revisionId
  let documentPaths ← cleanTransferPaths selected.documentPaths
  let documents ← documentPaths.mapM (loadRevisionDocument target.tree)
  let assetPaths ← cleanTransferPaths selected.assetPaths
  let assets ← assetPaths.mapM (loadRevisionAsset prepared.targetManifest target.tree)
  let deletedDocuments ← cleanTransferPaths selected.deletedDocuments
  let deletedAssets ← cleanTransferPaths selected.deletedAssets
  .ok
    { revisionId, entryFilePath
      transferMode := selected.transferMode
      baseAnchor := selected.anchorKind.baseAnchor
      baseRevisionId := selected.anchorKind.baseRevisionId
      nodes := prepared.nodes
      documents, deletedDocuments
      assets := assets.filterMap id
      deletedAssets }

def materializeBestRevisionTransfer (repository : Repository) (revisionId : Oid)
    (entryFilePath : Text) (prepared : PreparedRevisionTransfer) :
    Except RevisionTransferError RevisionTransfer :=
  materializeRevisionTransfer repository revisionId entryFilePath prepared
    (selectTransferCandidate prepared.targetManifest prepared.candidates)

/-! ## Requests -/

structure RevisionTransferRequest where
  currentRevisionId : Option Oid
  includeLiveAnchor : Bool
deriving DecidableEq, Repr

/-- `revision_documents` under the project's Git lock, behind the lookups of the repository and
of the entry file; `live` is what `load_live_revision_paths` has found. -/
def revisionDocuments (git : GitLibrary) (repository : Repository) (entryFilePath : Text)
    (live : Option RevisionPathSnapshot) (revisionId : Oid) (request : RevisionTransferRequest) :
    Except RevisionTransferError RevisionTransfer := do
  let prepared ← prepareRevisionTransfer git repository revisionId request.currentRevisionId
  materializeBestRevisionTransfer repository revisionId entryFilePath <|
    if request.includeLiveAnchor && request.currentRevisionId.isNone then
      addLiveAnchorCandidate prepared live
    else prepared

end Toss.Versioning
