import Toss.Foundation.FileTree
import Toss.Processing.WorkspaceBundle

/-!
# Inputs of a worker

`input.rs` of the processing SDK: the bytes of an input against the claim, and a project bundle
taken apart into a fresh directory and checked against its manifest. The ZIP reader, the JSON
reader and SHA-256 are `InputLibraries`; the file system is a tree of files without links, in
which a name is what it is spelled.

* `resolve` — the place that a path names;
* `extractEntry`, `extractEntries` — the archive, entry by entry;
* `validateManifest` — the files against the records of the manifest;
* `verifyInput`.
-/

namespace Toss.ProcessingSdk

open Toss.Foundation
open Toss.Processing (ArchiveEntry hexEncode isControl manifestName projectPrefix stripPrefix)
open Toss.Workspace (segments)

/-- The files that a worker sees. -/
abbrev Files := FileTree Text Bytes

/-! ## Types -/

structure ProjectBundleFile where
  path : Text
  kind : Text
  sizeBytes : Int
  sha256 : Text
deriving DecidableEq, Repr

structure ProjectBundleManifest where
  schema : Text
  projectType : Text
  entryFilePath : Text
  latexEngine : Option Text
  workspaceVersion : Int
  contentGeneration : Int
  sourceEpoch : Int
  files : List ProjectBundleFile
deriving DecidableEq, Repr

inductive ProcessorInput
  | project (projectDir : List Text) (manifest : ProjectBundleManifest)
  | binary (schema : Text) (content : Bytes)
deriving DecidableEq, Repr

inductive InputError
  | sizeMismatch
  | digestMismatch
  | schema
  | archive
  | unsafePath
  | unsupportedFileType
  | limit
  | manifest
  | manifestMismatch
  | io
deriving DecidableEq, Repr

/-- What `verify_input` reads of a claim's input. -/
structure WorkerClaimInput where
  schema : Text
  sizeBytes : Int
  sha256 : Text
deriving DecidableEq, Repr

structure InputLibraries where
  sha256 : Bytes → Bytes
  openArchive : Bytes → Option (List (Option ArchiveEntry))
  parseManifest : Bytes → Option ProjectBundleManifest

structure InputLimits where
  maxBundleFiles : Nat
  maxExpandedBytes : Nat
  maxManifestBytes : Nat
deriving DecidableEq, Repr

/-- `MAX_BUNDLE_FILES`, `MAX_EXPANDED_BYTES`, `MAX_MANIFEST_BYTES`. -/
def inputLimits : InputLimits := ⟨4096, 256 * 1024 * 1024, 4 * 1024 * 1024⟩

def maxSourceEpoch : Int := 253402300799

def projectBundleSchemas : List Text :=
  ["project-bundle/v1".toList, "typst-project-bundle/v1".toList]

/-! ## Paths -/

/-- `str::len`. -/
def utf8Length (text : Text) : Nat := (text.map Char.utf8Size).sum

def safeRelativePath (value : Text) : Bool :=
  !value.isEmpty && utf8Length value ≤ 1024 && value.head? ≠ some '/' && !value.contains '\\'
    && !value.any isControl
    && (segments value).all fun component =>
      component ≠ [] && component ≠ ['.'] && component ≠ ['.', '.']

/-- `name.strip_suffix('/').unwrap_or(name)`. -/
def stripSlash (name : Text) : Text :=
  if name.getLast? = some '/' then name.dropLast else name

/-- `name.contains("//")`. -/
def hasDoubleSlash (name : Text) : Bool :=
  (name.zip name.tail).any fun pair => pair = ('/', '/')

def safeArchiveName (name : Text) : Bool :=
  if name.isEmpty || name.head? = some '/' || name.contains '\\' || name.contains '\x00'
      || hasDoubleSlash name then false
  else safeRelativePath (stripSlash name)

/-- One component of a path, as the kernel walks it. -/
def enter (place : List Text) (component : Text) : List Text :=
  if component = [] ∨ component = ['.'] then place
  else if component = ['.', '.'] then place.dropLast
  else place ++ [component]

/-- The place of `base.join(path)`: an absolute path leaves the base. -/
def resolve (base : List Text) (path : Text) : List Text :=
  (segments path).foldl enter (if path.head? = some '/' then [] else base)

/-! ## Bytes -/

/-- `hex::decode`. -/
def hexDecode : Text → Option Bytes
  | [] => some []
  | [_] => none
  | high :: low :: rest => do
    let high ← hexDigit high
    let low ← hexDigit low
    let bytes ← hexDecode rest
    return (high * 16 + low) :: bytes
where
  hexDigit (c : Char) : Option UInt8 :=
    if '0' ≤ c && c ≤ '9' then some (c.toNat - '0'.toNat).toUInt8
    else if 'a' ≤ c && c ≤ 'f' then some (c.toNat - 'a'.toNat + 10).toUInt8
    else if 'A' ≤ c && c ≤ 'F' then some (c.toNat - 'A'.toNat + 10).toUInt8
    else none

/-- `read_bounded`: one byte over the limit is read, and is too much. -/
def readBounded (entry : ArchiveEntry) (limit : Nat) : Except InputError Bytes :=
  if limit < entry.bytes.length then .error .limit
  else if entry.broken then .error .io
  else .ok entry.bytes

/-- `copy_bounded`: the same, and what is written. -/
def copyBounded (entry : ArchiveEntry) (limit : Nat) : Except InputError Bytes :=
  readBounded entry limit

/-! ## The archive -/

/-- What extraction has come to. -/
structure Extraction where
  names : List Text
  declaredExpanded : Nat
  actualExpanded : Nat
  manifestBytes : Option Bytes
  materializedFiles : List Text
  files : Files

/-- `mode & 0o170000` is that of a directory or of a regular file, or is left out. -/
def isPlainType (entry : ArchiveEntry) : Bool :=
  let fileType := (entry.unixMode.getD 0o100644) &&& 0o170000
  fileType = 0 || fileType = 0o040000 || fileType = 0o100000

/-- A file is made with its directories. A path that ends in a slash names no file. -/
def materializeFile (limits : InputLimits) (projectDir : List Text) (extraction : Extraction)
    (entry : ArchiveEntry) (relative : Text) : Except InputError Extraction :=
  let destination := resolve projectDir relative
  match destination.getLast? with
  | none => .error .unsafePath
  | some name =>
    match extraction.files.createDirAll destination.dropLast with
    | none => .error .io
    | some files =>
      if relative.getLast? = some '/' then .error .io
      else
        match files.createFile destination.dropLast name [] with
        | none => .error .io
        | some files => do
          let bytes ← copyBounded entry (limits.maxExpandedBytes - extraction.actualExpanded)
          .ok { extraction with
            actualExpanded := extraction.actualExpanded + bytes.length
            materializedFiles := extraction.materializedFiles.insert (projectPrefix ++ relative)
            files := files.put destination (.file bytes) }

/-- One entry of the archive. The sums are of `u64`, in which the limit leaves no overflow. -/
def extractEntry (limits : InputLimits) (projectDir : List Text) (extraction : Extraction)
    (entry : ArchiveEntry) : Except InputError Extraction :=
  if !safeArchiveName entry.name || extraction.names.contains (stripSlash entry.name) then
    .error .unsafePath
  else if !isPlainType entry then .error .unsupportedFileType
  else if limits.maxExpandedBytes < extraction.declaredExpanded + entry.size then .error .limit
  else
    let extraction : Extraction :=
      { extraction with
        names := stripSlash entry.name :: extraction.names
        declaredExpanded := extraction.declaredExpanded + entry.size }
    if entry.name = manifestName then
      if entry.isDir || limits.maxManifestBytes < entry.size then .error .manifest
      else do
        let remaining := limits.maxExpandedBytes - extraction.actualExpanded
        let bytes ← readBounded entry (min remaining limits.maxManifestBytes)
        .ok { extraction with
          actualExpanded := extraction.actualExpanded + bytes.length
          manifestBytes := some bytes }
    else
      match stripPrefix projectPrefix entry.name with
      | none => .error .unsafePath
      | some relative =>
        if relative.isEmpty then .ok extraction
        else if entry.isDir then
          if entry.size ≠ 0 then .error .archive
          else
            match extraction.files.createDirAll (resolve projectDir relative) with
            | none => .error .io
            | some files => .ok { extraction with files }
        else materializeFile limits projectDir extraction entry relative

/-- The entries in turn; one that cannot be opened ends it. -/
def extractEntries (limits : InputLimits) (projectDir : List Text) (extraction : Extraction)
    (entries : List (Option ArchiveEntry)) : Except InputError Extraction :=
  entries.foldlM (fun extraction entry =>
    match entry with
    | none => .error .archive
    | some entry => extractEntry limits projectDir extraction entry) extraction

/-! ## The manifest -/

/-- `fs::read`. -/
def readFile (files : Files) (place : List Text) : Option Bytes :=
  match files place with
  | some (.file bytes) => some bytes
  | _ => none

/-- One record, after the records with `paths`. -/
def checkRecord (libraries : InputLibraries) (projectDir : List Text) (extraction : Extraction)
    (paths : List Text) (record : ProjectBundleFile) : Except InputError (List Text) :=
  if !safeRelativePath record.path || paths.contains record.path
      || !extraction.materializedFiles.contains (projectPrefix ++ record.path)
      || !(["document".toList, "asset".toList].contains record.kind) || record.sizeBytes < 0
      || utf8Length record.sha256 ≠ 64 then .error .manifestMismatch
  else
    match readFile extraction.files (resolve projectDir record.path) with
    | none => .error .io
    | some bytes =>
      if (bytes.length : Int) ≠ record.sizeBytes
          ∨ hexEncode (libraries.sha256 bytes) ≠ record.sha256 then .error .manifestMismatch
      else .ok (record.path :: paths)

def validateManifest (libraries : InputLibraries) (manifest : ProjectBundleManifest)
    (inputSchema : Text) (projectDir : List Text) (extraction : Extraction) :
    Except InputError Unit :=
  if manifest.schema ≠ inputSchema || !projectBundleSchemas.contains manifest.schema
      || manifest.files.length ≠ extraction.materializedFiles.length
      || !safeRelativePath manifest.entryFilePath || manifest.workspaceVersion < 0
      || manifest.contentGeneration < 0 || manifest.sourceEpoch < 0
      || maxSourceEpoch < manifest.sourceEpoch then .error .manifestMismatch
  else do
    let paths ← manifest.files.foldlM (checkRecord libraries projectDir extraction) []
    let entryIsDocument := manifest.files.any fun record =>
      record.path = manifest.entryFilePath && record.kind = "document".toList
    let expectedPaths := paths.map (projectPrefix ++ ·)
    if expectedPaths.all extraction.materializedFiles.contains
        && extraction.materializedFiles.all expectedPaths.contains && entryIsDocument
        && (readFile extraction.files (resolve projectDir manifest.entryFilePath)).isSome then
      .ok ()
    else .error .manifestMismatch

/-! ## Inputs -/

/-- `fs::create_dir`. -/
def createDir (files : Files) (parent : List Text) (name : Text) : Option Files :=
  if files parent = some .directory ∧ files (parent ++ [name]) = none then
    some (files.put (parent ++ [name]) .directory)
  else none

/-- `verify_and_extract_project`, in a temporary directory that is called `temp`. -/
def verifyAndExtractProject (libraries : InputLibraries) (limits : InputLimits) (files : Files)
    (tempDir : List Text) (temp : Text) (content : Bytes) (inputSchema : Text) :
    Except InputError (ProcessorInput × Files) :=
  let root := tempDir ++ [temp]
  let projectDir := root ++ ["project".toList]
  match (createDir files tempDir temp).bind fun files => createDir files root "project".toList with
  | none => .error .io
  | some files =>
    match libraries.openArchive content with
    | none => .error .archive
    | some entries =>
      if entries = [] ∨ limits.maxBundleFiles + 1 < entries.length then .error .limit
      else do
        let extraction ← extractEntries limits projectDir ⟨[], 0, 0, none, [], files⟩ entries
        match extraction.manifestBytes.bind libraries.parseManifest with
        | none => .error .manifest
        | some manifest => do
          validateManifest libraries manifest inputSchema projectDir extraction
          .ok (.project projectDir manifest, extraction.files)

def verifyInput (libraries : InputLibraries) (limits : InputLimits) (files : Files)
    (tempDir : List Text) (temp : Text) (content : Bytes) (input : WorkerClaimInput) :
    Except InputError (ProcessorInput × Files) :=
  if (content.length : Int) ≠ input.sizeBytes then .error .sizeMismatch
  else if hexDecode input.sha256 ≠ some (libraries.sha256 content) then .error .digestMismatch
  else if projectBundleSchemas.contains input.schema then
    verifyAndExtractProject libraries limits files tempDir temp content input.schema
  else if input.schema = "pptx-input/v1".toList then .ok (.binary input.schema content, files)
  else .error .schema

end Toss.ProcessingSdk
