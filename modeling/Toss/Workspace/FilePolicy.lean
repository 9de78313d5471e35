import Toss.Basic
import Mathlib.Data.List.Basic

/-!
# Project paths

`file_policy.rs`: which paths a project may hold, how subtrees of paths are
matched and moved, and which paths hold text.
-/

namespace Toss.Workspace

/-- `char::is_whitespace`. -/
def isWhitespace (c : Char) : Bool :=
  (0x09 ≤ c.val ∧ c.val ≤ 0x0D) ∨ c.val = 0x20 ∨ c.val = 0x85 ∨ c.val = 0xA0 ∨ c.val = 0x1680
    ∨ (0x2000 ≤ c.val ∧ c.val ≤ 0x200A) ∨ c.val = 0x2028 ∨ c.val = 0x2029 ∨ c.val = 0x202F
    ∨ c.val = 0x205F ∨ c.val = 0x3000

/-- `str::trim`. -/
def trim (text : Text) : Text :=
  ((text.dropWhile isWhitespace).reverse.dropWhile isWhitespace).reverse

/-- `char::to_ascii_lowercase`. -/
def toAsciiLowercase (c : Char) : Char :=
  if 'A' ≤ c ∧ c ≤ 'Z' then Char.ofNat (c.toNat + 32) else c

/-- The segments of a path, `path.split('/')`. -/
def segments (path : Text) : List Text :=
  path.splitOn '/'

def joinSegments (parts : List Text) : Text :=
  ['/'].intercalate parts

def isAllowedSegment (segment : Text) : Bool :=
  !(segment.isEmpty || segment = ['.'] || segment = ['.', '.']
    || segment.map toAsciiLowercase = ['.', 'g', 'i', 't'] || segment.contains '\x00')

/-- `sanitize_project_path`; `none` stands for `InvalidProjectPath`. -/
def sanitizeProjectPath (raw : Text) : Option Text :=
  let trimmed := trim raw
  if trimmed.isEmpty || ['/'].isPrefixOf trimmed then none
  else
    let canonical := trimmed.map fun c => if c = '\\' then '/' else c
    let parts := (segments canonical).map trim
    if parts.all isAllowedSegment && !parts.isEmpty then some (joinSegments parts) else none

/-! ## Subtrees -/

/-- `path.strip_prefix(subtree)` with a suffix that starts with `/`. -/
def subtreeSuffix (path subtree : Text) : Option Text :=
  if (subtree ++ ['/']).isPrefixOf path then some (path.drop subtree.length) else none

def pathIsInSubtree (path subtree : Text) : Bool :=
  path = subtree || (subtreeSuffix path subtree).isSome

def movePathWithSubtree (path fromPath toPath : Text) : Option Text :=
  if path = fromPath then some toPath
  else (subtreeSuffix path fromPath).map fun suffix => toPath ++ suffix

/-- The directories above a path, the outermost first. -/
def parentDirectories (path : Text) : List Text :=
  ((segments path).inits.filter fun parts =>
    parts ≠ [] && parts.length < (segments path).length).map joinSegments

/-! ## Text files -/

def textExtensions : List Text :=
  [['.', 't', 'y', 'p'], ['.', 't', 'e', 'x'], ['.', 'l', 't', 'x'], ['.', 's', 't', 'y'],
   ['.', 'c', 'l', 's'], ['.', 'b', 's', 't'], ['.', 'b', 'i', 'b'], ['.', 't', 'x', 't'],
   ['.', 'm', 'd'], ['.', 'j', 's', 'o', 'n'], ['.', 't', 'o', 'm', 'l'],
   ['.', 'y', 'a', 'm', 'l'], ['.', 'y', 'm', 'l'], ['.', 'c', 's', 'v'], ['.', 'x', 'm', 'l'],
   ['.', 'h', 't', 'm', 'l'], ['.', 'c', 's', 's'], ['.', 'j', 's'], ['.', 't', 's'],
   ['.', 't', 's', 'x'], ['.', 'j', 's', 'x']]

def isDocumentTextPath (path : Text) : Bool :=
  textExtensions.any fun extension => extension.isSuffixOf (path.map toAsciiLowercase)

example : isDocumentTextPath ['r', '.', 'B', 'I', 'B'] = true := by decide

example : sanitizeProjectPath [' ', 'a', '/', 'b', ' '] = some ['a', '/', 'b'] := by decide

end Toss.Workspace
