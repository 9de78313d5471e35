import Toss.Processing.Model
import Toss.Workspace.ProjectReads

/-!
# Worker-produced workspaces

`workspace_bundle.rs`: the archive an import delivers, checked against its
manifest and taken apart into the files of the project it becomes. The ZIP
reader, the JSON reader, the MIME parser and SHA-256 are `Externals`.

* `readArchive` — the manifest and the files of an archive, path by path;
* `materializeManifest` — the files against the records of the manifest;
* `validateWorkspaceBundle`.
-/

namespace Toss.Processing

open Toss.Workspace

/-! ## UTF-8 -/

def isContinuation (byte : UInt8) : Bool :=
  0x80 ≤ byte && byte < 0xC0

/-- The scalar value that a multi-byte sequence stands for; surrogates and
values out of range are refused, and so are those a shorter sequence spells. -/
def scalarValue (value least : Nat) : Option Char :=
  if least ≤ value ∧ value.isValidChar then some (Char.ofNat value) else none

/-- `String::from_utf8`. -/
def decodeUtf8 : Bytes → Option Text
  | [] => some []
  | a :: rest =>
    if a < 0x80 then (decodeUtf8 rest).map (Char.ofNat a.toNat :: ·)
    else
      match rest with
      | [] => none
      | b :: rest =>
        if !isContinuation b then none
        else if 0xC0 ≤ a && a < 0xE0 then do
          let c ← scalarValue ((a.toNat - 0xC0) * 64 + (b.toNat - 0x80)) 0x80
          let text ← decodeUtf8 rest
          return c :: text
        else
          match rest with
          | [] => none
          | c :: rest =>
            if !isContinuation c then none
            else if 0xE0 ≤ a && a < 0xF0 then do
              let c ← scalarValue
                (((a.toNat - 0xE0) * 64 + (b.toNat - 0x80)) * 64 + (c.toNat - 0x80)) 0x800
              let text ← decodeUtf8 rest
              return c :: text
            else
              match rest with
              | [] => none
              | d :: rest =>
                if !isContinuation d then none
                else if 0xF0 ≤ a && a < 0xF8 then do
                  let c ← scalarValue ((((a.toNat - 0xF0) * 64 + (b.toNat - 0x80)) * 64
                    + (c.toNat - 0x80)) * 64 + (d.toNat - 0x80)) 0x10000
                  let text ← decodeUtf8 rest
                  return c :: text
                else none

/-! ## The archive -/

structure WorkspaceDocument where
  path : Text
  content : Text
deriving DecidableEq, Repr

structure WorkspaceBundleAsset where
  path : Text
  mediaType : Text
  bytes : Bytes
deriving DecidableEq, Repr

structure ValidatedWorkspaceBundle where
  entryFilePath : Text
  directories : List Text
  documents : List WorkspaceDocument
  assets : List WorkspaceBundleAsset
deriving DecidableEq, Repr

inductive WorkspaceBundleError
  | archive
  | unsafePath
  | limit
  | manifest
  | manifestMismatch
deriving DecidableEq, Repr

structure WorkspaceBundleFile where
  path : Text
  kind : Text
  mediaType : Option Text
  sizeBytes : Int
  sha256 : Text
deriving DecidableEq, Repr

structure WorkspaceBundleManifest where
  schema : Text
  projectType : ProjectType
  entryFilePath : Text
  files : List WorkspaceBundleFile
deriving DecidableEq, Repr

/-- An entry of a ZIP archive: what its directory says of it, the bytes that
reading it yields, and whether the read breaks off after them. -/
structure ArchiveEntry where
  name : Text
  isDir : Bool
  unixMode : Option Nat
  size : Nat
  bytes : Bytes
  broken : Bool
deriving DecidableEq, Repr

/-- What finalization takes from libraries: SHA-256, the ZIP and JSON readers,
the essence of a MIME type, and the check of a presentation. -/
structure Externals where
  sha256 : Bytes → Bytes
  openArchive : Bytes → Option (List (Option ArchiveEntry))
  parseManifest : Bytes → Option WorkspaceBundleManifest
  mimeEssence : Text → Option Text
  reportSchema : Bytes → Option Text
  validatePptx : Bytes → Nat → Bool

def bundleSchema : Text := "workspace-bundle/v1".toList

def maxFiles : Nat := 4096

def maxManifestBytes : Nat := 4 * 1024 * 1024

def manifestName : Text := "manifest.json".toList

def projectPrefix : Text := "project/".toList

/-- `str::strip_prefix`. -/
def stripPrefix (head text : Text) : Option Text :=
  if head.isPrefixOf text then some (text.drop head.length) else none

/-- `char::is_control`. -/
def isControl (c : Char) : Bool :=
  c.toNat < 0x20 || (0x7F ≤ c.toNat && c.toNat < 0xA0)

def safeArchiveName (name : Text) : Bool :=
  name = manifestName
    || (match stripPrefix projectPrefix name with
        | none => false
        | some path =>
          !path.isEmpty && !path.contains '\\' && !path.any isControl
            && sanitizeProjectPath path = some path)

/-- `read_bounded`. -/
def ArchiveEntry.readBounded (entry : ArchiveEntry) (limit : Nat) :
    Except WorkspaceBundleError Bytes :=
  if limit < entry.bytes.length then .error .limit
  else if entry.broken then .error .archive
  else .ok entry.bytes

/-- `mode & 0o170000` is that of a regular file, or is left out. -/
def ArchiveEntry.isRegular (entry : ArchiveEntry) : Bool :=
  let kind := (entry.unixMode.getD 0o100644) &&& 0o170000
  kind = 0 || kind = 0o100000

/-- What has been read of an archive. -/
structure ArchiveContent where
  names : List Text := []
  expandedBytes : Nat := 0
  manifest : Option Bytes := none
  files : List (Text × Bytes) := []

/-- The entries of an archive in turn. -/
def readEntries (maxExpandedBytes : Nat) :
    ArchiveContent → List (Option ArchiveEntry) → Except WorkspaceBundleError ArchiveContent
  | content, [] => .ok content
  | _, none :: _ => .error .archive
  | content, some entry :: entries =>
    if entry.isDir || !safeArchiveName entry.name || content.names.contains entry.name then
      .error .unsafePath
    else if !entry.isRegular then .error .unsafePath
    else if maxExpandedBytes < content.expandedBytes + entry.size then .error .limit
    else do
      let limit :=
        if entry.name = manifestName then min maxManifestBytes maxExpandedBytes
        else maxExpandedBytes
      let bytes ← entry.readBounded limit
      let content :=
        { content with
          names := entry.name :: content.names
          expandedBytes := content.expandedBytes + entry.size }
      if entry.name = manifestName then
        readEntries maxExpandedBytes { content with manifest := some bytes } entries
      else
        match (stripPrefix projectPrefix entry.name).bind sanitizeProjectPath with
        | none => .error .unsafePath
        | some path =>
          if content.files.any fun file => file.1 = path then .error .unsafePath
          else
            readEntries maxExpandedBytes { content with files := (path, bytes) :: content.files }
              entries

/-! ## The manifest -/

/-- `ProjectType::Typst.accepts_entry_file_path`. -/
def acceptsTypstEntryFilePath (path : Text) : Bool :=
  ".typ".toList.isSuffixOf (path.map toAsciiLowercase)

/-- What the records of a manifest have come to. -/
structure BundleContent where
  paths : List Text := []
  directories : List Text := []
  documents : List WorkspaceDocument := []
  assets : List WorkspaceBundleAsset := []
  entryIsDocument : Bool := false

/-- `mime::Mime` reads the value back as its own essence. -/
def isMediaType (externals : Externals) (value : Text) : Bool :=
  utf8Length value ≤ 127 && externals.mimeEssence value = some value
where
  /-- `str::len`. -/
  utf8Length (text : Text) : Nat := (text.map Char.utf8Size).sum

/-- A record of the manifest that names the bytes of a file. -/
def materializeRecord (externals : Externals) (entryFilePath : Text) (content : BundleContent)
    (record : WorkspaceBundleFile) (path : Text) (bytes : Bytes) : Option BundleContent :=
  let content :=
    { content with
      paths := path :: content.paths
      directories := parentDirectories path ++ content.directories }
  if record.kind = "document".toList ∧ record.mediaType = none ∧ isDocumentTextPath path = true then
    (decodeUtf8 bytes).map fun text =>
      { content with
        documents := ⟨path, text⟩ :: content.documents
        entryIsDocument := content.entryIsDocument || path = entryFilePath }
  else if record.kind = "asset".toList then
    (record.mediaType.filter (isMediaType externals)).map fun mediaType =>
      { content with assets := ⟨path, mediaType, bytes⟩ :: content.assets }
  else none

/-- The records of the manifest in turn, each against its file; the files that no
record has named yet are threaded through. -/
def materializeRecords (externals : Externals) (entryFilePath : Text) :
    BundleContent → List (Text × Bytes) → List WorkspaceBundleFile →
      Option (BundleContent × List (Text × Bytes))
  | content, files, [] => some (content, files)
  | content, files, record :: records => do
    let path ← sanitizeProjectPath record.path
    guard (path = record.path ∧ content.paths.contains path = false ∧ 0 ≤ record.sizeBytes
      ∧ (record.sha256.map Char.utf8Size).sum = 64)
    let file ← files.find? fun file => file.1 = path
    guard ((file.2.length : Int) = record.sizeBytes
      ∧ hexEncode (externals.sha256 file.2) = record.sha256)
    let content ← materializeRecord externals entryFilePath content record path file.2
    materializeRecords externals entryFilePath content
      (files.filter fun file => file.1 ≠ path) records

/-- `materialize_manifest`; `none` stands for `ManifestMismatch`. -/
def materializeManifest (externals : Externals) (manifest : WorkspaceBundleManifest)
    (files : List (Text × Bytes)) : Option ValidatedWorkspaceBundle := do
  let entryFilePath ← sanitizeProjectPath manifest.entryFilePath
  guard (manifest.schema = bundleSchema ∧ manifest.projectType = .typst
    ∧ acceptsTypstEntryFilePath entryFilePath = true ∧ manifest.files ≠ []
    ∧ manifest.files.length ≤ maxFiles ∧ manifest.files.length = files.length)
  let (content, left) ← materializeRecords externals entryFilePath {} files manifest.files
  guard (left = [] ∧ content.entryIsDocument = true
    ∧ content.paths.any content.directories.contains = false)
  return {
    entryFilePath := entryFilePath
    directories := content.directories.dedup.insertionSort fun left right =>
      pathLe left right = true
    documents := content.documents.insertionSort fun left right =>
      pathLe left.path right.path = true
    assets := content.assets.insertionSort fun left right =>
      pathLe left.path right.path = true }

/-- `validate_workspace_bundle`. -/
def validateWorkspaceBundle (externals : Externals) (content : Bytes) (maxExpandedBytes : Nat) :
    Except WorkspaceBundleError ValidatedWorkspaceBundle :=
  match externals.openArchive content with
  | none => .error .archive
  | some entries =>
    if entries = [] ∨ maxFiles + 1 < entries.length then .error .limit
    else do
      let archive ← readEntries maxExpandedBytes {} entries
      match archive.manifest.bind externals.parseManifest with
      | none => .error .manifest
      | some manifest =>
        match materializeManifest externals manifest archive.files with
        | none => .error .manifestMismatch
        | some bundle => .ok bundle

end Toss.Processing
