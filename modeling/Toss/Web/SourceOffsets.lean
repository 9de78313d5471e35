import Toss.Basic
import Toss.Foundation.Utf8
import Toss.Web.EditorSync

/-!
# Offsets into a source

`typstSync.ts`: the compiler counts bytes of UTF-8, the editor counts units of UTF-16, and a jump
between preview and source goes from one to the other. A decoder without options drops a byte-order
mark at the beginning, which is a character of the text to the editor.

* `toCharacters` — a string as what `TextEncoder` makes of it;
* `normalizeUtf16Offset_eq`, `utf16OffsetToUtf8ByteOffset_eq`, `utf8ByteOffsetToUtf16Offset_eq` — the
  functions by the characters of the string;
* `OffsetsAgree`, `offsets_agree_iff` — for which strings the conversions agree.
-/

namespace Toss.Web

open Toss.Foundation

/-! ## Strings as characters -/

def isHighSurrogate (unit : UInt16) : Bool := 0xD800 ≤ unit && unit ≤ 0xDBFF

def isLowSurrogate (unit : UInt16) : Bool := 0xDC00 ≤ unit && unit ≤ 0xDFFF

/-- The character of a unit on its own. -/
def unitCharacter (unit : UInt16) : Char :=
  if isHighSurrogate unit || isLowSurrogate unit then replacementCharacter
  else Char.ofNat unit.toNat

def pairCharacter (high low : UInt16) : Char :=
  Char.ofNat (0x10000 + (high.toNat - 0xD800) * 0x400 + (low.toNat - 0xDC00))

/-- The conversion in front of an encoder: a pair of surrogates is a character, and a lone one is
replaced. -/
def toCharacters : JsString → List Char
  | [] => []
  | [unit] => [unitCharacter unit]
  | high :: low :: units =>
    if isHighSurrogate high && isLowSurrogate low then pairCharacter high low :: toCharacters units
    else unitCharacter high :: toCharacters (low :: units)

/-- `new TextEncoder().encode`. -/
def textEncode (text : JsString) : Bytes := encodeUtf8 (toCharacters text)

def byteOrderMark : Char := Char.ofNat 0xFEFF

/-- `new TextDecoder().decode`. -/
def textDecode (bytes : Bytes) : JsString :=
  let text := decodeUtf8Lossy bytes
  (if text.head? = some byteOrderMark then text.tail else text).flatMap utf16Units

/-! ## The functions -/

/-- `Math.min(length, Math.max(0, offset))`. -/
def clampOffset (length : Nat) (offset : Int) : Nat := (min (length : Int) (max 0 offset)).toNat

/-- One unit back from within a pair. -/
def pairStart (text : JsString) (safe : Nat) : Nat :=
  if safe = 0 ∨ text.length ≤ safe then safe
  else if text[safe]?.any isLowSurrogate && text[safe - 1]?.any isHighSurrogate then safe - 1
  else safe

def normalizeUtf16Offset (text : JsString) (offset : Int) : Nat :=
  pairStart text (clampOffset text.length offset)

def utf16OffsetToUtf8ByteOffset (text : JsString) (offset : Int) : Nat :=
  (textEncode (text.take (normalizeUtf16Offset text offset))).length

/-- The loop: back while the byte continues a character. -/
def characterBoundary (encoded : Bytes) : Nat → Nat
  | 0 => 0
  | safe + 1 =>
    if safe + 1 < encoded.length && encoded[safe + 1]?.any (fun byte => byte &&& 0xC0 = 0x80) then
      characterBoundary encoded safe
    else safe + 1

def utf8ByteOffsetToUtf16Offset (text : JsString) (byteOffset : Int) : Nat :=
  let encoded := textEncode text
  let safe := characterBoundary encoded (clampOffset encoded.length byteOffset)
  (textDecode (encoded.take safe)).length

structure EditorPosition where
  offset : Nat
  line : Nat
  column : Nat
deriving DecidableEq, Repr

/-- The loop over the units before an offset, with the line and where it starts. -/
def lineOfOffset (text : JsString) (offset : Nat) : Nat × Nat :=
  (List.range offset).foldl (fun (line, lineStart) index =>
    if text[index]? = some 10 then (line + 1, index + 1) else (line, lineStart)) (1, 0)

def sourceByteOffsetToEditorPosition (text : JsString) (byteOffset : Int) : EditorPosition :=
  let offset := utf8ByteOffsetToUtf16Offset text byteOffset
  let (line, lineStart) := lineOfOffset text offset
  ⟨offset, line, offset - lineStart + 1⟩

/-! ## By the characters -/

theorem le_toNat {a b : UInt16} : a ≤ b ↔ a.toNat ≤ b.toNat := UInt16.le_iff_toNat_le

variable {unit : UInt16} {safe : Nat}

theorem isHighSurrogate_iff :
    isHighSurrogate unit = true ↔ 0xD800 ≤ unit.toNat ∧ unit.toNat ≤ 0xDBFF := by
  simp only [isHighSurrogate, Bool.and_eq_true, decide_eq_true_eq, le_toNat]
  exact Iff.rfl

theorem isLowSurrogate_iff :
    isLowSurrogate unit = true ↔ 0xDC00 ≤ unit.toNat ∧ unit.toNat ≤ 0xDFFF := by
  simp only [isLowSurrogate, Bool.and_eq_true, decide_eq_true_eq, le_toNat]
  exact Iff.rfl

theorem not_isHighSurrogate_of_low (h : isLowSurrogate unit = true) :
    isHighSurrogate unit = false := by
  rw [isLowSurrogate_iff] at h
  rw [← Bool.not_eq_true, isHighSurrogate_iff]
  omega

theorem toNat_ofNat_char {n : Nat} (h : n.isValidChar) : (Char.ofNat n).toNat = n := by
  rw [Char.ofNat, dif_pos h]
  rfl

/-- A unit on its own is one unit wide. -/
theorem utf16Width_unit (unit : UInt16) : utf16Width (unitCharacter unit) = 1 := by
  have hbound : unit.toNat < 0x10000 := unit.toNat_lt
  refine if_pos ?_
  unfold unitCharacter
  split
  · decide
  rename_i hplain
  simp only [Bool.or_eq_true, isHighSurrogate_iff, isLowSurrogate_iff, not_or] at hplain
  rw [toNat_ofNat_char]
  · exact hbound
  · unfold Nat.isValidChar
    omega

theorem utf16Width_pair {high low : UInt16} (hhigh : isHighSurrogate high = true)
    (hlow : isLowSurrogate low = true) : utf16Width (pairCharacter high low) = 2 := by
  rw [isHighSurrogate_iff] at hhigh
  rw [isLowSurrogate_iff] at hlow
  refine if_neg ?_
  unfold pairCharacter
  rw [toNat_ofNat_char]
  · omega
  · unfold Nat.isValidChar
    omega

/-- The characters take up the units of the string. -/
theorem extent_toCharacters (text : JsString) :
    extent utf16Width (toCharacters text) = text.length := by
  induction text using toCharacters.induct with
  | case1 => rfl
  | case2 unit =>
    rw [toCharacters, extent_cons, utf16Width_unit]
    rfl
  | case3 high low units hpair ih =>
    rw [Bool.and_eq_true] at hpair
    rw [toCharacters, if_pos (by rw [hpair.1, hpair.2]; rfl), extent_cons, ih,
      utf16Width_pair hpair.1 hpair.2]
    simp only [List.length_cons]
    omega
  | case4 high low units hpair ih =>
    rw [toCharacters, if_neg hpair, extent_cons, ih, utf16Width_unit]
    simp only [List.length_cons]
    omega

theorem pairStart_cons (unit : UInt16) (text : JsString) (h : 0 < safe) :
    pairStart (unit :: text) (safe + 1) = pairStart text safe + 1 := by
  cases safe with
  | zero => omega
  | succ safe =>
    unfold pairStart
    rw [List.length_cons, List.getElem?_cons_succ]
    by_cases hend : text.length ≤ safe + 1
    · rw [if_pos (.inr (by omega)), if_pos (.inr hend)]
    have houter : ¬(safe + 1 + 1 = 0 ∨ text.length + 1 ≤ safe + 1 + 1) := by omega
    have hinner : ¬(safe + 1 = 0 ∨ text.length ≤ safe + 1) := by omega
    rw [if_neg houter, if_neg hinner]
    simp only [Nat.add_sub_cancel, List.getElem?_cons_succ]
    split
    · rfl
    · rfl

/-- An offset goes to the start of its character. -/
theorem pairStart_eq (text : JsString) (h : safe ≤ text.length) :
    pairStart text safe = convert utf16Width utf16Width (toCharacters text) safe := by
  have hzero : ∀ text : JsString, pairStart text 0 = 0 := fun _ => if_pos (.inl rfl)
  have hconvertZero : ∀ text : JsString, convert utf16Width utf16Width (toCharacters text) 0 = 0 :=
    fun _ => Nat.le_zero.mp (extent_indexAt_le _ 0)
  induction text using toCharacters.induct generalizing safe with
  | case1 =>
    rw [Nat.le_zero.mp h]
    rfl
  | case2 unit =>
    rcases Nat.le_one_iff_eq_zero_or_eq_one.mp h with rfl | rfl
    · rw [hzero, hconvertZero]
    rw [toCharacters, convert, indexAt, if_neg (by rw [utf16Width_unit]; omega)]
    simp only [indexAt, List.take_succ_cons, List.take_zero, extent_cons, extent_nil,
      utf16Width_unit]
    rfl
  | case3 high low units hpair ih =>
    rw [Bool.and_eq_true] at hpair
    have hwidth := utf16Width_pair hpair.1 hpair.2
    have hcharacters : toCharacters (high :: low :: units)
        = pairCharacter high low :: toCharacters units := by
      rw [toCharacters, if_pos (by rw [hpair.1, hpair.2]; rfl)]
    obtain rfl | rfl | ⟨safe, rfl⟩ : safe = 0 ∨ safe = 1 ∨ ∃ n, safe = n + 2 := by
      rcases safe with _ | _ | n <;> simp
    · rw [hzero, hconvertZero]
    · rw [hcharacters, convert, indexAt, if_pos (by omega)]
      refine (if_neg ?_).trans (if_pos ?_)
      · simp
      · show (isLowSurrogate low && isHighSurrogate high) = true
        rw [hpair.1, hpair.2]
        rfl
    · have hle : safe ≤ units.length := by
        simp only [List.length_cons] at h
        omega
      rw [hcharacters, convert, indexAt, if_neg (by omega), List.take_succ_cons, extent_cons, hwidth,
        show safe + 2 - 2 = safe by omega]
      show _ = 2 + convert utf16Width utf16Width (toCharacters units) safe
      rw [← ih hle, pairStart_cons high (low :: units) (by omega)]
      rcases Nat.eq_zero_or_pos safe with rfl | hpos
      · rw [hzero]
        -- the unit before the offset is the second half of the pair
        have hstays : pairStart (low :: units) 1 = 1 := by
          unfold pairStart
          split
          · rfl
          rw [if_neg]
          show ¬(((low :: units)[1]?.any isLowSurrogate && isHighSurrogate low) = true)
          rw [not_isHighSurrogate_of_low hpair.2, Bool.and_false]
          exact Bool.false_ne_true
        rw [hstays]
      · rw [pairStart_cons low units hpos]
        omega
  | case4 high low units hpair ih =>
    have hcharacters : toCharacters (high :: low :: units)
        = unitCharacter high :: toCharacters (low :: units) := by
      rw [toCharacters, if_neg hpair]
    obtain rfl | ⟨safe, rfl⟩ : safe = 0 ∨ ∃ n, safe = n + 1 := by
      rcases safe with _ | n <;> simp
    · rw [hzero, hconvertZero]
    · have hle : safe ≤ (low :: units).length := by
        simp only [List.length_cons] at h ⊢
        omega
      rw [hcharacters, convert, indexAt, utf16Width_unit, if_neg (by omega), List.take_succ_cons,
        extent_cons, utf16Width_unit, Nat.add_sub_cancel]
      show _ = 1 + convert utf16Width utf16Width (toCharacters (low :: units)) safe
      rw [← ih hle]
      rcases Nat.eq_zero_or_pos safe with rfl | hpos
      · rw [hzero]
        refine (if_neg ?_).trans (if_neg ?_)
        · simp
        · show ¬((isLowSurrogate low && isHighSurrogate high) = true)
          rw [Bool.and_comm]
          exact hpair
      · rw [pairStart_cons high (low :: units) hpos, Nat.add_comm]

/-- The characters of a string up to the start of one. -/
theorem toCharacters_take (text : JsString) (n : Nat) :
    toCharacters (text.take (extent utf16Width ((toCharacters text).take n)))
      = (toCharacters text).take n := by
  induction text using toCharacters.induct generalizing n with
  | case1 => simp [toCharacters]
  | case2 unit =>
    cases n with
    | zero => rfl
    | succ n =>
      rw [toCharacters, List.take_succ_cons, List.take_nil, extent_cons, utf16Width_unit]
      rfl
  | case3 high low units hpair ih =>
    rw [Bool.and_eq_true] at hpair
    have hcharacters : ∀ units, toCharacters (high :: low :: units)
        = pairCharacter high low :: toCharacters units := by
      intro units
      rw [toCharacters, if_pos (by rw [hpair.1, hpair.2]; rfl)]
    cases n with
    | zero => rfl
    | succ n =>
      rw [hcharacters, List.take_succ_cons, extent_cons, utf16Width_pair hpair.1 hpair.2,
        Nat.add_comm, List.take_succ_cons, List.take_succ_cons, hcharacters, ih n]
  | case4 high low units hpair ih =>
    have hcharacters : toCharacters (high :: low :: units)
        = unitCharacter high :: toCharacters (low :: units) := by
      rw [toCharacters, if_neg hpair]
    cases n with
    | zero => rfl
    | succ n =>
      rw [hcharacters, List.take_succ_cons, extent_cons, utf16Width_unit, Nat.add_comm,
        List.take_succ_cons]
      have hrest := ih n
      generalize extent utf16Width ((toCharacters (low :: units)).take n) = taken at hrest ⊢
      rw [← hrest]
      -- what follows the unit begins as before, if at all
      cases taken with
      | zero => rfl
      | succ taken =>
        rw [List.take_succ_cons, toCharacters, if_neg hpair]

theorem clampOffset_le (length : Nat) (offset : Int) : clampOffset length offset ≤ length := by
  unfold clampOffset
  omega

theorem clampOffset_mono (length : Nat) {offset later : Int} (h : offset ≤ later) :
    clampOffset length offset ≤ clampOffset length later := by
  unfold clampOffset
  omega

theorem clampOffset_of_le {length offset : Nat} (h : offset ≤ length) :
    clampOffset length offset = offset := by
  unfold clampOffset
  omega

theorem normalizeUtf16Offset_eq (text : JsString) (offset : Int) :
    normalizeUtf16Offset text offset
      = convert utf16Width utf16Width (toCharacters text) (clampOffset text.length offset) :=
  pairStart_eq text (clampOffset_le _ _)

theorem utf16OffsetToUtf8ByteOffset_eq (text : JsString) (offset : Int) :
    utf16OffsetToUtf8ByteOffset text offset
      = convert utf16Width utf8Width (toCharacters text) (clampOffset text.length offset) := by
  unfold utf16OffsetToUtf8ByteOffset textEncode
  rw [normalizeUtf16Offset_eq, length_encodeUtf8, convert, toCharacters_take]
  rfl

/-! ## Bytes -/

theorem and_eq_iff (byte : UInt8) : byte &&& 0xC0 = 0x80 ↔ continuesCharacter byte := by
  have hevery : ∀ n : Fin 256, UInt8.ofNat n.val &&& 0xC0 = 0x80
      ↔ 0x80 ≤ (UInt8.ofNat n.val).toNat ∧ (UInt8.ofNat n.val).toNat < 0xC0 := by
    decide +kernel
  have hbyte := hevery ⟨byte.toNat, byte.toNat_lt⟩
  rw [UInt8.ofNat_toNat] at hbyte
  exact hbyte

/-- The loop goes back to the first byte of a character. -/
theorem characterBoundary_within (before after : List Char) (c : Char) {within : Nat}
    (h : within < utf8Width c) :
    characterBoundary (encodeUtf8 (before ++ c :: after)) (extent utf8Width before + within)
      = extent utf8Width before := by
  have hlength : extent utf8Width before + utf8Width c
      ≤ (encodeUtf8 (before ++ c :: after)).length := by
    rw [length_encodeUtf8, extent_append, extent_cons]
    omega
  induction within with
  | zero =>
    rw [Nat.add_zero]
    cases hstart : extent utf8Width before with
    | zero => rfl
    | succ start =>
      rw [characterBoundary, if_neg]
      rw [Bool.and_eq_true, not_and]
      intro _ hcontinues
      rw [Option.any_eq_true] at hcontinues
      rcases hcontinues with ⟨byte, hat, hbyte⟩
      have hfirst := getElem?_encodeUtf8 before after c h
      rw [Nat.add_zero, hstart, hat] at hfirst
      have hpos := (continuesCharacter_iff hfirst.symm).mp
        ((and_eq_iff byte).mp (of_decide_eq_true hbyte))
      omega
  | succ within ih =>
    rw [show extent utf8Width before + (within + 1) = extent utf8Width before + within + 1 by omega,
      characterBoundary, if_pos]
    · exact ih (by omega)
    · rw [Bool.and_eq_true]
      refine ⟨decide_eq_true (by omega), ?_⟩
      have hbyte := getElem?_encodeUtf8 before after c h
      have hthere : within + 1 < (String.utf8EncodeChar c).length := h
      rw [List.getElem?_eq_getElem hthere] at hbyte
      rw [show extent utf8Width before + within + 1 = extent utf8Width before + (within + 1) by omega,
        hbyte, Option.any_some]
      exact decide_eq_true ((and_eq_iff _).mpr
        ((continuesCharacter_iff (List.getElem?_eq_getElem hthere)).mpr (by omega)))

theorem characterBoundary_eq (text : List Char) (h : safe ≤ (encodeUtf8 text).length) :
    characterBoundary (encodeUtf8 text) safe = convert utf8Width utf8Width text safe := by
  rw [length_encodeUtf8] at h
  rcases indexAt_split text h with
    ⟨hend, hindex⟩ | ⟨before, c, after, within, rfl, hwithin, rfl, hindex⟩
  · rw [convert, hindex, List.take_length, hend]
    cases hextent : extent utf8Width text with
    | zero => rfl
    | succ last =>
      rw [characterBoundary, if_neg]
      rw [length_encodeUtf8, hextent]
      simp
  · rw [characterBoundary_within before after c hwithin, convert, hindex, List.take_left']
    rfl

/-- The bytes of the first characters. -/
theorem encodeUtf8_take (text : List Char) (n : Nat) :
    (encodeUtf8 text).take (extent utf8Width (text.take n)) = encodeUtf8 (text.take n) := by
  have hsplit : encodeUtf8 text = encodeUtf8 (text.take n) ++ encodeUtf8 (text.drop n) := by
    rw [← encodeUtf8_append, List.take_append_drop]
  rw [hsplit, ← length_encodeUtf8, List.take_left']
  rfl

/-- The characters before a byte, but for a byte-order mark. -/
theorem utf8ByteOffsetToUtf16Offset_eq (text : JsString) (byteOffset : Int) :
    utf8ByteOffsetToUtf16Offset text byteOffset
      = let characters := (toCharacters text).take
          (indexAt utf8Width (toCharacters text) (clampOffset (textEncode text).length byteOffset))
        extent utf16Width
          (if characters.head? = some byteOrderMark then characters.tail else characters) := by
  unfold utf8ByteOffsetToUtf16Offset textEncode textDecode
  dsimp only
  rw [characterBoundary_eq _ (clampOffset_le _ _), convert, encodeUtf8_take, decodeUtf8Lossy_encode,
    length_flatMap_utf16Units]

theorem unitCharacter_eq_mark : unitCharacter unit = byteOrderMark ↔ unit = 0xFEFF := by
  constructor
  · intro h
    unfold unitCharacter at h
    split at h
    · exact absurd h (by decide)
    rename_i hplain
    simp only [Bool.or_eq_true, isHighSurrogate_iff, isLowSurrogate_iff, not_or] at hplain
    have hbound : unit.toNat < 0x10000 := unit.toNat_lt
    have hsame := congrArg Char.toNat h
    rw [toNat_ofNat_char (by unfold Nat.isValidChar; omega)] at hsame
    exact UInt16.toNat_inj.mp hsame
  · rintro rfl
    rfl

/-- A string begins with a byte-order mark as its characters do. -/
theorem head?_toCharacters (text : JsString) :
    (toCharacters text).head? = some byteOrderMark ↔ text.head? = some 0xFEFF := by
  cases text using toCharacters.fun_cases_unfolding with
  | case1 => exact iff_of_false nofun nofun
  | case2 unit | case4 high low units hpair =>
    rw [List.head?_cons, List.head?_cons, Option.some.injEq, Option.some.injEq]
    exact unitCharacter_eq_mark
  | case3 high low units hpair =>
    rw [Bool.and_eq_true] at hpair
    have hwide := utf16Width_pair hpair.1 hpair.2
    refine iff_of_false ?_ ?_
    · rw [List.head?_cons, Option.some.injEq]
      intro hmark
      rw [hmark] at hwide
      exact absurd hwide (by decide)
    · rw [List.head?_cons, Option.some.injEq]
      rintro rfl
      exact absurd hpair.1 (by decide)

/-! ## Lines -/

/-- The line of an offset: one more than the line feeds before it. -/
def lineAt (text : JsString) (offset : Nat) : Nat := (text.take offset).count 10 + 1

/-- The column of an offset: one more than the units since the last line feed. -/
def columnAt (text : JsString) (offset : Nat) : Nat :=
  ((text.take offset).reverse.takeWhile (· ≠ 10)).length + 1

theorem lineOfOffset_eq (text : JsString) {offset : Nat} (h : offset ≤ text.length) :
    (lineOfOffset text offset).1 = lineAt text offset
      ∧ (lineOfOffset text offset).2 ≤ offset
      ∧ offset - (lineOfOffset text offset).2 + 1 = columnAt text offset := by
  induction offset with
  | zero => exact ⟨rfl, Nat.le_refl 0, rfl⟩
  | succ offset ih =>
    rcases ih (by omega) with ⟨hline, hstart, hcolumn⟩
    have hat : text[offset]? = some text[offset] := List.getElem?_eq_getElem (by omega)
    have htake : text.take (offset + 1) = text.take offset ++ [text[offset]] := by
      rw [List.take_add_one, hat]
      rfl
    have hstep : lineOfOffset text (offset + 1)
        = if text[offset]? = some 10 then ((lineOfOffset text offset).1 + 1, offset + 1)
          else lineOfOffset text offset := by
      unfold lineOfOffset
      rw [List.range_succ, List.foldl_append]
      rfl
    unfold lineAt at hline ⊢
    unfold columnAt at hcolumn ⊢
    rw [hstep, htake, List.count_append, List.reverse_append, List.reverse_singleton,
      List.singleton_append, hat]
    by_cases hfeed : text[offset] = 10
    · rw [if_pos (congrArg some hfeed), hfeed, List.takeWhile_cons_of_neg (by decide)]
      refine ⟨?_, Nat.le_refl _, ?_⟩
      · rw [hline]
        rfl
      · rw [Nat.sub_self]
        rfl
    · have hplain : decide (text[offset] ≠ 10) = true := decide_eq_true hfeed
      rw [if_neg fun hsame => hfeed (Option.some.inj hsame), List.takeWhile_cons, hplain, if_pos rfl,
        List.length_cons, List.count_cons_of_ne hfeed]
      refine ⟨hline, by omega, by omega⟩

/-! ## Agreement -/

/-- The conversions go by the characters of a string. -/
structure OffsetsAgree (text : JsString) : Prop where
  roundTrip : ∀ offset : Int,
    utf8ByteOffsetToUtf16Offset text (utf16OffsetToUtf8ByteOffset text offset)
      = convert utf16Width utf16Width (toCharacters text) (clampOffset text.length offset)
  bytesMono : ∀ offset later : Int, offset ≤ later →
    utf16OffsetToUtf8ByteOffset text offset ≤ utf16OffsetToUtf8ByteOffset text later
  unitsMono : ∀ offset later : Int, offset ≤ later →
    utf8ByteOffsetToUtf16Offset text offset ≤ utf8ByteOffsetToUtf16Offset text later
  position : ∀ byteOffset : Int, utf8ByteOffsetToUtf16Offset text byteOffset
    = convert utf8Width utf16Width (toCharacters text)
      (clampOffset (textEncode text).length byteOffset)
  editor : ∀ byteOffset : Int,
    let offset := convert utf8Width utf16Width (toCharacters text)
      (clampOffset (textEncode text).length byteOffset)
    sourceByteOffsetToEditorPosition text byteOffset
      = ⟨offset, lineAt text offset, columnAt text offset⟩

/-- Without a byte-order mark nothing is dropped. -/
theorem position_of_unmarked {text : JsString} (h : text.head? ≠ some 0xFEFF) (byteOffset : Int) :
    utf8ByteOffsetToUtf16Offset text byteOffset
      = convert utf8Width utf16Width (toCharacters text)
        (clampOffset (textEncode text).length byteOffset) := by
  rw [utf8ByteOffsetToUtf16Offset_eq]
  dsimp only
  rw [if_neg]
  · rfl
  · intro hmark
    refine h ((head?_toCharacters text).mp ?_)
    rw [List.head?_take] at hmark
    split at hmark
    · cases hmark
    · exact hmark

/-- The third byte after a byte-order mark ends it, but the mark is dropped. -/
theorem position_of_marked {text : JsString} (h : text.head? = some 0xFEFF) :
    utf8ByteOffsetToUtf16Offset text 3 = 0
      ∧ convert utf8Width utf16Width (toCharacters text) (clampOffset (textEncode text).length 3)
        = 1 := by
  rcases List.head?_eq_some_iff.mp ((head?_toCharacters text).mpr h) with ⟨rest, hcharacters⟩
  have hwidth : utf8Width byteOrderMark = 3 := by decide
  have hlength : 3 ≤ (textEncode text).length := by
    rw [textEncode, length_encodeUtf8, hcharacters, extent_cons, hwidth]
    omega
  have hindex : indexAt utf8Width (toCharacters text) 3 = 1 := by
    rw [hcharacters, indexAt, hwidth, if_neg (by omega)]
    cases rest with
    | nil => rfl
    | cons c rest => rw [indexAt, if_pos (utf8Width_pos c)]
  have hclamp : clampOffset (textEncode text).length 3 = 3 := clampOffset_of_le hlength
  constructor
  · rw [utf8ByteOffsetToUtf16Offset_eq]
    rw [hclamp, hindex, hcharacters]
    rfl
  · rw [hclamp, convert, hindex, hcharacters]
    rfl

/-- The conversions between bytes and units undo each other, are monotone, find the character that
holds a byte and its line and column, for the strings that begin with no byte-order mark. -/
theorem offsets_agree_iff (text : JsString) : OffsetsAgree text ↔ text.head? ≠ some 0xFEFF := by
  constructor
  · intro hagree hmark
    have hposition := hagree.position 3
    rw [(position_of_marked hmark).1, (position_of_marked hmark).2] at hposition
    cases hposition
  · intro hunmarked
    have hposition := position_of_unmarked hunmarked
    constructor
    · intro offset
      rw [hposition, utf16OffsetToUtf8ByteOffset_eq, clampOffset_of_le]
      · exact convert_convert (fun c _ => utf8Width_pos c) _
      · rw [textEncode, length_encodeUtf8]
        exact convert_le _ _
    · intro offset later hle
      rw [utf16OffsetToUtf8ByteOffset_eq, utf16OffsetToUtf8ByteOffset_eq]
      exact convert_mono _ (clampOffset_mono _ hle)
    · intro offset later hle
      rw [hposition, hposition]
      exact convert_mono _ (clampOffset_mono _ hle)
    · exact hposition
    · intro byteOffset
      have hle : convert utf8Width utf16Width (toCharacters text)
          (clampOffset (textEncode text).length byteOffset) ≤ text.length := by
        rw [← extent_toCharacters]
        exact convert_le _ _
      rcases lineOfOffset_eq text hle with ⟨hline, _, hcolumn⟩
      rw [sourceByteOffsetToEditorPosition, hposition]
      dsimp only
      rw [hline, hcolumn]

/-- A byte-order mark and a letter: the offset behind the mark comes back as the one before it. -/
theorem marked_offset_is_lost :
    utf8ByteOffsetToUtf16Offset [0xFEFF, 97] (utf16OffsetToUtf8ByteOffset [0xFEFF, 97] 1) = 0
      ∧ convert utf16Width utf16Width (toCharacters [0xFEFF, 97]) 1 = 1
      ∧ ¬OffsetsAgree [0xFEFF, 97] := by
  have hlost : utf8ByteOffsetToUtf16Offset [0xFEFF, 97]
      (utf16OffsetToUtf8ByteOffset [0xFEFF, 97] 1) = 0 := by
    decide +kernel
  have hone : convert utf16Width utf16Width (toCharacters [0xFEFF, 97]) 1 = 1 := by
    decide +kernel
  refine ⟨hlost, hone, fun hagree => ?_⟩
  have htrip := hagree.roundTrip 1
  rw [hlost] at htrip
  have hclamp : clampOffset [(0xFEFF : UInt16), 97].length 1 = 1 := by decide +kernel
  rw [hclamp, hone] at htrip
  cases htrip

end Toss.Web
