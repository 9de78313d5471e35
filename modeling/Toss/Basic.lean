import Mathlib

/-!
# Values shared by every part of the model

Identifiers, byte strings and text as the database and the wire carry them.
PostgreSQL keeps text free of `U+0000`; a statement that stores such a value
fails.
-/

namespace Toss

/-- `uuid`: an opaque identifier, compared and never computed with. -/
abbrev Uuid := Nat

/-- `bytea`, `Vec<u8>`. -/
abbrev Bytes := List UInt8

/-- `text`, `String`: a sequence of Unicode scalar values. -/
abbrev Text := List Char

-- every membership test over these types is decided through one proof
instance : LawfulBEq Bytes := List.instLawfulBEq

instance : LawfulBEq Text := List.instLawfulBEq

/-- A value PostgreSQL accepts for a `text` column. -/
def isStorableText (value : Text) : Bool :=
  !value.contains '\x00'

end Toss
