import Toss.Foundation.Offsets

/-!
# UTF-8 and UTF-16

What a text is as bytes and as UTF-16 units, and a decoder that replaces what is no character. Of the
bytes of a character the first one alone begins one.

* `encodeUtf8`, `decodeUtf8Lossy` — both ways, and `decodeUtf8Lossy_encode`, that they agree;
* `getElem?_encodeUtf8` — which bytes of an encoded text continue a character;
* `utf16Units`, `utf16Width` — the units of a character.
-/

namespace Toss.Foundation

/-! ## Bytes -/

def encodeUtf8 (text : List Char) : List UInt8 :=
  text.flatMap String.utf8EncodeChar

/-- How many bytes a character takes. -/
def utf8Width (c : Char) : Nat := (String.utf8EncodeChar c).length

def replacementCharacter : Char := Char.ofNat 0xFFFD

/-- A decoder between two bytes: the bits of the character so far, how many bytes it still needs,
and the bounds of the next one. -/
structure Utf8Decoder where
  codePoint : Nat := 0
  needed : Nat := 0
  lower : Nat := 0x80
  upper : Nat := 0xBF

/-- A byte that begins a character. -/
def firstByte (byte : Nat) : Option Char × Utf8Decoder :=
  if byte ≤ 0x7F then (some (Char.ofNat byte), {})
  else if 0xC2 ≤ byte ∧ byte ≤ 0xDF then
    (none, { codePoint := byte % 0x20, needed := 1 })
  else if 0xE0 ≤ byte ∧ byte ≤ 0xEF then
    (none, {
      codePoint := byte % 0x10
      needed := 2
      lower := if byte = 0xE0 then 0xA0 else 0x80
      upper := if byte = 0xED then 0x9F else 0xBF })
  else if 0xF0 ≤ byte ∧ byte ≤ 0xF4 then
    (none, {
      codePoint := byte % 8
      needed := 3
      lower := if byte = 0xF0 then 0x90 else 0x80
      upper := if byte = 0xF4 then 0x8F else 0xBF })
  else (some replacementCharacter, {})

/-- A byte, and the characters that it ends. -/
def nextByte (decoder : Utf8Decoder) (byte : Nat) : List Char × Utf8Decoder :=
  if decoder.needed = 0 then ((firstByte byte).1.toList, (firstByte byte).2)
  else if decoder.lower ≤ byte ∧ byte ≤ decoder.upper then
    if decoder.needed = 1 then ([Char.ofNat (decoder.codePoint * 64 + byte % 64)], {})
    else
      ([], {
        codePoint := decoder.codePoint * 64 + byte % 64
        needed := decoder.needed - 1 })
  else (replacementCharacter :: (firstByte byte).1.toList, (firstByte byte).2)

def decodeFrom (decoder : Utf8Decoder) : List UInt8 → List Char
  | [] => if decoder.needed = 0 then [] else [replacementCharacter]
  | byte :: bytes =>
    (nextByte decoder byte.toNat).1 ++ decodeFrom (nextByte decoder byte.toNat).2 bytes

/-- A decoder that never fails. -/
def decodeUtf8Lossy (bytes : List UInt8) : List Char := decodeFrom {} bytes

/-! ### Back and forth -/

theorem encodeUtf8_append (text more : List Char) :
    encodeUtf8 (text ++ more) = encodeUtf8 text ++ encodeUtf8 more :=
  List.flatMap_append

theorem length_encodeUtf8 (text : List Char) : (encodeUtf8 text).length = extent utf8Width text :=
  List.length_flatMap

variable {n : Nat} {byte : Nat}

theorem toNat_ofNat (h : n < 256) : (UInt8.ofNat n).toNat = n := by
  rw [UInt8.toNat_ofNat']
  exact Nat.mod_eq_of_lt h

/-- A character is no surrogate and within Unicode. -/
theorem val_bounds (c : Char) : c.toNat < 0xD800 ∨ 0xDFFF < c.toNat ∧ c.toNat < 0x110000 := c.valid

theorem decodeFrom_first (hbyte : byte < 256) (bytes : List UInt8) :
    decodeFrom {} (UInt8.ofNat byte :: bytes)
      = (firstByte byte).1.toList ++ decodeFrom (firstByte byte).2 bytes := by
  rw [decodeFrom, toNat_ofNat hbyte]
  rfl

theorem decodeFrom_continue {decoder : Utf8Decoder} (hneeded : 1 < decoder.needed)
    (hlower : decoder.lower ≤ byte) (hupper : byte ≤ decoder.upper) (hbyte : byte < 256)
    (bytes : List UInt8) :
    decodeFrom decoder (UInt8.ofNat byte :: bytes) = decodeFrom {
      codePoint := decoder.codePoint * 64 + byte % 64
      needed := decoder.needed - 1 } bytes := by
  rw [decodeFrom, toNat_ofNat hbyte, nextByte, if_neg (by omega), if_pos ⟨hlower, hupper⟩,
    if_neg (by omega)]
  rfl

theorem decodeFrom_last {decoder : Utf8Decoder} (hneeded : decoder.needed = 1)
    (hlower : decoder.lower ≤ byte) (hupper : byte ≤ decoder.upper) (hbyte : byte < 256)
    (bytes : List UInt8) :
    decodeFrom decoder (UInt8.ofNat byte :: bytes)
      = Char.ofNat (decoder.codePoint * 64 + byte % 64) :: decodeFrom {} bytes := by
  rw [decodeFrom, toNat_ofNat hbyte, nextByte, if_neg (by omega), if_pos ⟨hlower, hupper⟩,
    if_pos hneeded]
  rfl

theorem firstByte_two (h : 0xC2 ≤ byte ∧ byte ≤ 0xDF) :
    firstByte byte = (none, { codePoint := byte % 0x20, needed := 1 }) := by
  rw [firstByte, if_neg (by omega), if_pos h]

theorem firstByte_three (h : 0xE0 ≤ byte ∧ byte ≤ 0xEF) :
    firstByte byte = (none, {
      codePoint := byte % 0x10
      needed := 2
      lower := if byte = 0xE0 then 0xA0 else 0x80
      upper := if byte = 0xED then 0x9F else 0xBF }) := by
  rw [firstByte, if_neg (by omega), if_neg (by omega), if_pos h]

theorem firstByte_four (h : 0xF0 ≤ byte ∧ byte ≤ 0xF4) :
    firstByte byte = (none, {
      codePoint := byte % 8
      needed := 3
      lower := if byte = 0xF0 then 0x90 else 0x80
      upper := if byte = 0xF4 then 0x8F else 0xBF }) := by
  rw [firstByte, if_neg (by omega), if_neg (by omega), if_neg (by omega), if_pos h]

/-- The bytes of a character are read as that character. -/
theorem decodeFrom_char (c : Char) (bytes : List UInt8) :
    decodeFrom {} (String.utf8EncodeChar c ++ bytes) = c :: decodeFrom {} bytes := by
  have hbounds := val_bounds c
  have hc : Char.ofNat c.toNat = c := Char.ofNat_toNat c
  unfold String.utf8EncodeChar
  dsimp only
  rw [show c.val.toNat = c.toNat from rfl]
  generalize c.toNat = n at hbounds hc
  split
  · rw [List.cons_append, decodeFrom_first (by omega), firstByte, if_pos (by omega), hc]
    rfl
  -- one, two, three or four bytes
  split
  · rw [List.cons_append, decodeFrom_first (by omega), firstByte_two (by omega)]
    refine (decodeFrom_last rfl ?_ ?_ (by omega) bytes).trans ?_
    · show 0x80 ≤ n % 0x40 + 0x80
      omega
    · show n % 0x40 + 0x80 ≤ 0xBF
      omega
    · rw [← hc]
      congr 2
      dsimp only
      omega
  · split
    · rw [List.cons_append, decodeFrom_first (by omega), firstByte_three (by omega)]
      refine (decodeFrom_continue (by dsimp only; omega) ?_ ?_ (by omega) _).trans ?_
      · dsimp only
        split
        · omega
        · omega
      · dsimp only
        split
        · omega
        · omega
      · refine (decodeFrom_last rfl ?_ ?_ (by omega) bytes).trans ?_
        · show 0x80 ≤ n % 0x40 + 0x80
          omega
        · show n % 0x40 + 0x80 ≤ 0xBF
          omega
        · rw [← hc]
          congr 2
          dsimp only
          omega
    · rw [List.cons_append, decodeFrom_first (by omega), firstByte_four (by omega)]
      refine (decodeFrom_continue (by dsimp only; omega) ?_ ?_ (by omega) _).trans ?_
      · dsimp only
        split
        · omega
        · omega
      · dsimp only
        split
        · omega
        · omega
      · refine (decodeFrom_continue (by dsimp only; omega) ?_ ?_ (by omega) _).trans ?_
        · show 0x80 ≤ n / 64 % 0x40 + 0x80
          omega
        · show n / 64 % 0x40 + 0x80 ≤ 0xBF
          omega
        · refine (decodeFrom_last rfl ?_ ?_ (by omega) bytes).trans ?_
          · show 0x80 ≤ n % 0x40 + 0x80
            omega
          · show n % 0x40 + 0x80 ≤ 0xBF
            omega
          · rw [← hc]
            congr 2
            dsimp only
            omega

theorem decodeUtf8Lossy_encode (text : List Char) : decodeUtf8Lossy (encodeUtf8 text) = text := by
  unfold decodeUtf8Lossy encodeUtf8
  induction text with
  | nil => rfl
  | cons c text ih => rw [List.flatMap_cons, decodeFrom_char, ih]

/-! ### Continuation bytes -/

/-- A byte that continues a character. -/
def continuesCharacter (byte : UInt8) : Prop := 0x80 ≤ byte.toNat ∧ byte.toNat < 0xC0

theorem utf8Width_pos (c : Char) : 0 < utf8Width c := by
  rw [utf8Width, String.length_utf8EncodeChar]
  exact Char.utf8Size_pos c

/-- Of the bytes of a character, all but the first continue it. -/
theorem continuesCharacter_iff {c : Char} {byte : UInt8}
    (h : (String.utf8EncodeChar c)[n]? = some byte) : continuesCharacter byte ↔ 0 < n := by
  have hbounds := val_bounds c
  unfold String.utf8EncodeChar at h
  dsimp only at h
  rw [show c.val.toNat = c.toNat from rfl] at h
  unfold continuesCharacter
  generalize c.toNat = m at hbounds h
  have hbyte : ∀ k, k < 256 → byte = UInt8.ofNat k → byte.toNat = k := by
    intro k hk heq
    rw [heq, toNat_ofNat hk]
  split at h
  · match n with
    | 0 =>
      rw [hbyte _ (by omega) (Option.some.inj h).symm]
      omega
    | n + 1 => cases h
  · split at h
    · match n with
      | 0 | 1 =>
        rw [hbyte _ (by omega) (Option.some.inj h).symm]
        omega
      | n + 2 => cases h
    · split at h
      · match n with
        | 0 | 1 | 2 =>
          rw [hbyte _ (by omega) (Option.some.inj h).symm]
          omega
        | n + 3 => cases h
      · match n with
        | 0 | 1 | 2 | 3 =>
          rw [hbyte _ (by omega) (Option.some.inj h).symm]
          omega
        | n + 4 => cases h

/-- The byte at a place within a character. -/
theorem getElem?_encodeUtf8 (before after : List Char) (c : Char) (h : n < utf8Width c) :
    (encodeUtf8 (before ++ c :: after))[extent utf8Width before + n]?
      = (String.utf8EncodeChar c)[n]? := by
  rw [encodeUtf8_append, ← length_encodeUtf8, List.getElem?_append_right (Nat.le_add_right _ _),
    Nat.add_sub_cancel_left]
  exact List.getElem?_append_left h

/-! ## Units -/

/-- How many UTF-16 units a character takes. -/
def utf16Width (c : Char) : Nat := if c.toNat < 0x10000 then 1 else 2

def utf16Units (c : Char) : List UInt16 :=
  if c.toNat < 0x10000 then [UInt16.ofNat c.toNat]
  else [UInt16.ofNat (0xD800 + (c.toNat - 0x10000) / 0x400),
    UInt16.ofNat (0xDC00 + (c.toNat - 0x10000) % 0x400)]

theorem length_utf16Units (c : Char) : (utf16Units c).length = utf16Width c := by
  unfold utf16Units utf16Width
  split
  · rfl
  · rfl

theorem length_flatMap_utf16Units (text : List Char) :
    (text.flatMap utf16Units).length = extent utf16Width text := by
  rw [List.length_flatMap]
  unfold extent
  congr 1
  exact List.map_congr_left fun c _ => length_utf16Units c

end Toss.Foundation
