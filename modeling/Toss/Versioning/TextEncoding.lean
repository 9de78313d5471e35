import Toss.Processing.WorkspaceBundle

/-!
# The bytes of a text

`str::as_bytes` next to `String::from_utf8`: a file in a worktree holds the bytes of a
document, and reading them back gives the document.

* `decodeUtf8_encodeUtf8`, `encodeUtf8_of_decodeUtf8` — the round trips;
* `fromUtf8Lossy` — `String::from_utf8_lossy`, for the names of files.
-/

namespace Toss.Versioning

open Toss.Processing

/-- `str::as_bytes`. -/
def encodeUtf8 (text : Text) : Bytes :=
  text.flatMap String.utf8EncodeChar

/-! ## Single bytes -/

variable {n : Nat} {b : UInt8}

theorem toNat_byte (h : n < 256) : (UInt8.ofNat n).toNat = n := by
  simp [UInt8.toNat_ofNat', Nat.mod_eq_of_lt h]

theorem byte_lt (h : n < 256) : UInt8.ofNat n < b ↔ n < b.toNat := by
  rw [UInt8.lt_iff_toNat_lt, toNat_byte h]

theorem le_byte (h : n < 256) : b ≤ UInt8.ofNat n ↔ b.toNat ≤ n := by
  rw [UInt8.le_iff_toNat_le, toNat_byte h]

theorem byte_eq (h : n = b.toNat) : UInt8.ofNat n = b := by
  subst h
  exact UInt8.ofNat_toNat

/-- The bounds that the lead bytes of the decoder are compared with. -/
theorem leadBounds : (0x80 : UInt8).toNat = 0x80 ∧ (0xC0 : UInt8).toNat = 0xC0
    ∧ (0xE0 : UInt8).toNat = 0xE0 ∧ (0xF0 : UInt8).toNat = 0xF0 ∧ (0xF8 : UInt8).toNat = 0xF8 := by
  decide

theorem isContinuation_iff :
    isContinuation b = true ↔ 0x80 ≤ b.toNat ∧ b.toNat < 0xC0 := by
  simp [isContinuation, UInt8.le_iff_toNat_le, UInt8.lt_iff_toNat_lt]

theorem isContinuation_byte (h : n < 64) :
    isContinuation (UInt8.ofNat (n + 0x80)) = true := by
  rw [isContinuation_iff, toNat_byte (by omega)]
  omega

theorem toNat_ofNat {value : Nat} (h : value.isValidChar) : (Char.ofNat value).toNat = value := by
  rw [Char.ofNat, dif_pos h]
  rfl

theorem scalarValue_toNat (c : Char) {value least : Nat} (hvalue : value = c.toNat)
    (h : least ≤ c.toNat) : scalarValue value least = some c := by
  have hvalid : c.toNat.isValidChar := c.valid
  simp [scalarValue, hvalue, h, hvalid]

theorem toNat_of_scalarValue {value least : Nat} {c : Char}
    (h : scalarValue value least = some c) : c.val.toNat = value ∧ least ≤ value := by
  unfold scalarValue at h
  split at h
  · next hvalid =>
    cases h
    exact ⟨toNat_ofNat hvalid.2, hvalid.1⟩
  · simp at h

/-- A byte below 0x80 is its own character. -/
theorem eq_ofNat_of_mem_utf8EncodeChar {c : Char} (hb : b.toNat < 0x80)
    (h : b ∈ String.utf8EncodeChar c) : c = Char.ofNat b.toNat := by
  -- the bytes of a longer sequence have their highest bit set
  have hbyte : ∀ n, n < 256 → 0x80 ≤ n → b ≠ UInt8.ofNat n := by
    rintro n hn hge rfl
    rw [toNat_byte hn] at hb
    omega
  unfold String.utf8EncodeChar at h
  dsimp only at h
  split at h
  · next hone =>
    rw [List.mem_singleton.mp h, toNat_byte (by omega)]
    exact (Char.ofNat_toNat c).symm
  split at h
  · simp only [List.mem_cons, List.not_mem_nil, or_false] at h
    rcases h with h | h <;> exact absurd h (hbyte _ (by omega) (by omega))
  split at h
  · simp only [List.mem_cons, List.not_mem_nil, or_false] at h
    rcases h with h | h | h <;> exact absurd h (hbyte _ (by omega) (by omega))
  · simp only [List.mem_cons, List.not_mem_nil, or_false] at h
    rcases h with h | h | h | h <;> exact absurd h (hbyte _ (by omega) (by omega))

/-! ## Decoding what was encoded -/

/-- The decoder takes the bytes of a character off the front. -/
theorem decodeUtf8_append (c : Char) (rest : Bytes) :
    decodeUtf8 (String.utf8EncodeChar c ++ rest) = (decodeUtf8 rest).map (c :: ·) := by
  rcases leadBounds with ⟨e80, eC0, eE0, eF0, eF8⟩
  have hc : c.toNat < 0x110000 := by
    have hval : c.val.toNat = c.toNat := rfl
    rcases c.valid with h | h
    · omega
    · omega
  have hval : c.val.toNat = c.toNat := rfl
  have hcont : ∀ n, isContinuation (UInt8.ofNat (n % 0x40 + 0x80)) = true :=
    fun n => isContinuation_byte (Nat.mod_lt _ (by decide))
  have hcontinued : ∀ n, (UInt8.ofNat (n % 0x40 + 0x80)).toNat = n % 0x40 + 0x80 :=
    fun n => toNat_byte (by omega)
  unfold String.utf8EncodeChar
  simp only [hval]
  split
  · next hone =>
    -- one byte
    have hlead : c.toNat < 256 := by omega
    rw [List.singleton_append]
    conv_lhs => unfold decodeUtf8
    rw [if_pos ((byte_lt hlead).mpr (by omega)), toNat_byte hlead, Char.ofNat_toNat]
  next hone =>
  split
  · next htwo =>
    -- two bytes
    have hlead : c.toNat / 64 % 0x20 + 0xC0 < 256 := by omega
    simp only [List.cons_append, List.nil_append]
    conv_lhs => unfold decodeUtf8
    simp only [byte_lt hlead, le_byte hlead, hcont, toNat_byte hlead, hcontinued, e80, eC0, eE0]
    rw [if_neg (by omega), if_neg (by simp), if_pos (by simp; omega),
      scalarValue_toNat c (by omega) (by omega)]
    cases decodeUtf8 rest <;> rfl
  next htwo =>
  split
  · next hthree =>
    -- three bytes
    have hlead : c.toNat / 4096 % 0x10 + 0xE0 < 256 := by omega
    simp only [List.cons_append, List.nil_append]
    conv_lhs => unfold decodeUtf8
    simp only [byte_lt hlead, le_byte hlead, hcont, toNat_byte hlead, hcontinued, e80, eC0, eE0,
      eF0]
    rw [if_neg (by omega), if_neg (by simp), if_neg (by simp), if_neg (by simp),
      if_pos (by simp; omega), scalarValue_toNat c (by omega) (by omega)]
    cases decodeUtf8 rest <;> rfl
  · next hthree =>
    have hlead : c.toNat / 262144 % 0x08 + 0xF0 < 256 := by omega
    simp only [List.cons_append, List.nil_append]
    conv_lhs => unfold decodeUtf8
    simp only [byte_lt hlead, le_byte hlead, hcont, toNat_byte hlead, hcontinued, e80, eC0, eE0,
      eF0, eF8]
    rw [if_neg (by omega), if_neg (by simp), if_neg (by simp), if_neg (by simp),
      if_neg (by simp), if_neg (by simp), if_pos (by simp; omega),
      scalarValue_toNat c (by omega) (by omega)]
    cases decodeUtf8 rest <;> rfl

theorem decodeUtf8_encodeUtf8 (text : Text) : decodeUtf8 (encodeUtf8 text) = some text := by
  induction text with
  | nil => rfl
  | cons c text ih =>
    rw [encodeUtf8, List.flatMap_cons, decodeUtf8_append, ← encodeUtf8, ih]
    rfl

theorem encodeUtf8_injective {text text' : Text} (h : encodeUtf8 text = encodeUtf8 text') :
    text = text' := by
  have hdecoded := decodeUtf8_encodeUtf8 text
  rw [h, decodeUtf8_encodeUtf8] at hdecoded
  exact (Option.some.inj hdecoded).symm

/-! ## Encoding what was decoded -/

theorem encodeUtf8_cons {c : Char} {text : Text} {front rest : Bytes}
    (hc : String.utf8EncodeChar c = front) (htext : encodeUtf8 text = rest) :
    encodeUtf8 (c :: text) = front ++ rest := by
  rw [encodeUtf8, List.flatMap_cons, hc, ← encodeUtf8, htext]

theorem encodeUtf8_of_decodeUtf8 {bytes : Bytes} {text : Text}
    (h : decodeUtf8 bytes = some text) : encodeUtf8 text = bytes := by
  induction bytes using decodeUtf8.induct generalizing text with
  | case1 =>
    rw [decodeUtf8, Option.some.injEq] at h
    rw [← h]
    rfl
  | case2 a rest hascii ih =>
    unfold decodeUtf8 at h
    rw [if_pos hascii] at h
    rcases Option.map_eq_some_iff.mp h with ⟨decoded, hdecoded, rfl⟩
    have hlead := UInt8.lt_iff_toNat_lt.mp hascii
    rw [leadBounds.1] at hlead
    have hval : (Char.ofNat a.toNat).val.toNat = a.toNat := toNat_ofNat (.inl (by omega))
    have hencoded : String.utf8EncodeChar (Char.ofNat a.toNat) = [a] := by
      unfold String.utf8EncodeChar
      simp only [hval]
      rw [if_pos (by omega), byte_eq rfl]
    exact encodeUtf8_cons hencoded (ih hdecoded)
  | case5 a ha b rest hb htwo ih =>
    unfold decodeUtf8 at h
    simp only [ha, hb, htwo, if_true, if_false, Bool.false_eq_true, Option.bind_eq_bind,
      Option.bind_eq_some_iff, Option.pure_def, Option.some.injEq] at h
    rcases h with ⟨c, hc, decoded, hdecoded, rfl⟩
    rcases toNat_of_scalarValue hc with ⟨hval, hleast⟩
    have hb' := isContinuation_iff.mp (by simpa using hb)
    simp only [Bool.and_eq_true, decide_eq_true_eq, UInt8.le_iff_toNat_le,
      UInt8.lt_iff_toNat_lt, leadBounds] at htwo
    have hencoded : String.utf8EncodeChar c = [a, b] := by
      unfold String.utf8EncodeChar
      simp only [hval]
      rw [if_neg (by omega), if_pos (by omega), byte_eq (b := a) (by omega),
        byte_eq (b := b) (by omega)]
    exact encodeUtf8_cons hencoded (ih hdecoded)
  | case8 a ha b hb htwo c rest hc hthree ih =>
    unfold decodeUtf8 at h
    simp only [ha, hb, htwo, hc, hthree, if_true, if_false, Bool.false_eq_true,
      Option.bind_eq_bind, Option.bind_eq_some_iff, Option.pure_def, Option.some.injEq] at h
    rcases h with ⟨char, hchar, decoded, hdecoded, rfl⟩
    rcases toNat_of_scalarValue hchar with ⟨hval, hleast⟩
    have hb' := isContinuation_iff.mp (by simpa using hb)
    have hc' := isContinuation_iff.mp (by simpa using hc)
    simp only [Bool.and_eq_true, decide_eq_true_eq, UInt8.le_iff_toNat_le,
      UInt8.lt_iff_toNat_lt, leadBounds] at hthree
    have hencoded : String.utf8EncodeChar char = [a, b, c] := by
      unfold String.utf8EncodeChar
      simp only [hval]
      rw [if_neg (by omega), if_neg (by omega), if_pos (by omega), byte_eq (b := a) (by omega),
        byte_eq (b := b) (by omega), byte_eq (b := c) (by omega)]
    exact encodeUtf8_cons hencoded (ih hdecoded)
  | case11 a ha b hb htwo c hc hthree d rest hd hfour ih =>
    unfold decodeUtf8 at h
    simp only [ha, hb, htwo, hc, hthree, hd, hfour, if_true, if_false, Bool.false_eq_true,
      Option.bind_eq_bind, Option.bind_eq_some_iff, Option.pure_def, Option.some.injEq] at h
    rcases h with ⟨char, hchar, decoded, hdecoded, rfl⟩
    rcases toNat_of_scalarValue hchar with ⟨hval, hleast⟩
    have hb' := isContinuation_iff.mp (by simpa using hb)
    have hc' := isContinuation_iff.mp (by simpa using hc)
    have hd' := isContinuation_iff.mp (by simpa using hd)
    simp only [Bool.and_eq_true, decide_eq_true_eq, UInt8.le_iff_toNat_le,
      UInt8.lt_iff_toNat_lt, leadBounds] at hfour
    have hencoded : String.utf8EncodeChar char = [a, b, c, d] := by
      unfold String.utf8EncodeChar
      simp only [hval]
      rw [if_neg (by omega), if_neg (by omega), if_neg (by omega), byte_eq (b := a) (by omega),
        byte_eq (b := b) (by omega), byte_eq (b := c) (by omega), byte_eq (b := d) (by omega)]
    exact encodeUtf8_cons hencoded (ih hdecoded)
  | _ =>
    -- the decoder refuses the bytes
    unfold decodeUtf8 at h
    simp only [*, if_true, if_false, Bool.false_eq_true] at h
    simp at h

/-! ## Names of files -/

/-- How many bytes the decoder takes for one character, or for the longest part of one
that it replaces. -/
def replacedLength : Bytes → Nat
  | [] => 0
  | a :: rest =>
    let second := rest.head?.any fun b =>
      if a = 0xE0 then 0xA0 ≤ b && b < 0xC0
      else if a = 0xED then 0x80 ≤ b && b < 0xA0
      else if a = 0xF0 then 0x90 ≤ b && b < 0xC0
      else if a = 0xF4 then 0x80 ≤ b && b < 0x90
      else 0xC2 ≤ a && a < 0xF5 && isContinuation b
    let third := (rest.drop 1).head?.any isContinuation
    if !second || a < 0xE0 then 1
    else if !third || a < 0xF0 then 2
    else 3

/-- `String::from_utf8_lossy`: each part that is no character becomes U+FFFD. The fuel
is the number of bytes. -/
def lossyFrom : Nat → Bytes → Text
  | 0, _ => []
  | _ + 1, [] => []
  | fuel + 1, bytes@(_ :: _) =>
    match (List.range 4).findSome? fun n => (decodeUtf8 (bytes.take (n + 1))).map (n + 1, ·) with
    | some (n, text) => text ++ lossyFrom fuel (bytes.drop n)
    | none => Char.ofNat 0xFFFD :: lossyFrom fuel (bytes.drop (replacedLength bytes))

def fromUtf8Lossy (bytes : Bytes) : Text :=
  match decodeUtf8 bytes with
  | some text => text
  | none => lossyFrom bytes.length bytes

@[simp] theorem fromUtf8Lossy_encodeUtf8 (text : Text) :
    fromUtf8Lossy (encodeUtf8 text) = text := by
  rw [fromUtf8Lossy, decodeUtf8_encodeUtf8]

end Toss.Versioning
