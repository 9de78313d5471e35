import Toss.Workspace.FilePolicy

/-!
# Project types

`project_model.rs`: the types of a project and what they make of an entry file.
-/

namespace Toss.Workspace

inductive LatexEngine
  | pdftex
  | xetex
deriving DecidableEq, Repr

inductive ProjectType
  | typst
  | latex
deriving DecidableEq, Repr

def ProjectType.defaultEntryFilePath : ProjectType → Text
  | .typst => ['m', 'a', 'i', 'n', '.', 't', 'y', 'p']
  | .latex => ['m', 'a', 'i', 'n', '.', 't', 'e', 'x']

def ProjectType.acceptsEntryFilePath (projectType : ProjectType) (path : Text) : Bool :=
  let path := path.map toAsciiLowercase
  match projectType with
  | .typst => ['.', 't', 'y', 'p'].isSuffixOf path
  | .latex => ['.', 't', 'e', 'x'].isSuffixOf path || ['.', 'l', 't', 'x'].isSuffixOf path

end Toss.Workspace
