/-
Module: Webtor.Text.Utf8
Purpose: the bytes of a Rust string and the way back: `char::encode_utf8` (the bytes of a
  `str`), and `String::from_utf8_lossy` as `Utf8Chunks` decodes, one scalar value per valid
  sequence and one U+FFFD per maximal invalid prefix. `fromUtf8Lossy_asBytes` proves that
  lossy decoding of a string's bytes gives the string back.
Trusted boundary: none
Main exports: encodeUtf8, asBytes, utf8CharWidth, fromUtf8Lossy, fromUtf8Lossy_asBytes
-/
import Mathlib.Data.List.Basic

namespace Webtor.Text

/-! ### Encoding -/

/-- `char::encode_utf8`: the one to four bytes of a scalar value. -/
def encodeUtf8 (c : Char) : List UInt8 :=
  let v := c.toNat
  if v < 0x80 then [v.toUInt8]
  else if v < 0x800 then [(0xC0 + v / 0x40).toUInt8, (0x80 + v % 0x40).toUInt8]
  else if v < 0x10000 then
    [(0xE0 + v / 0x1000).toUInt8, (0x80 + v / 0x40 % 0x40).toUInt8, (0x80 + v % 0x40).toUInt8]
  else
    [(0xF0 + v / 0x40000).toUInt8, (0x80 + v / 0x1000 % 0x40).toUInt8,
      (0x80 + v / 0x40 % 0x40).toUInt8, (0x80 + v % 0x40).toUInt8]

/-- The bytes of a list of characters, as a `str` holds them. -/
def encodeChars (cs : List Char) : List UInt8 := cs.flatMap encodeUtf8

@[simp] theorem encodeChars_nil : encodeChars [] = [] := rfl

@[simp] theorem encodeChars_cons (c : Char) (cs : List Char) :
    encodeChars (c :: cs) = encodeUtf8 c ++ encodeChars cs := rfl

/-- `str::as_bytes`. -/
def asBytes (s : String) : List UInt8 := encodeChars s.data

/-! ### `String::from_utf8_lossy` -/

/-- `utf8_char_width`: the length of the sequence a first byte starts; `0` for a byte that
starts none. -/
def utf8CharWidth (b : UInt8) : Nat :=
  if b.toNat < 0x80 then 1
  else if b.toNat < 0xC2 then 0
  else if b.toNat < 0xE0 then 2
  else if b.toNat < 0xF0 then 3
  else if b.toNat < 0xF5 then 4
  else 0

/-- A continuation byte: `(b as i8) < -64`. -/
def isCont (b : UInt8) : Bool := 0x80 ≤ b.toNat && b.toNat < 0xC0

/-- The second bytes a three-byte sequence allows after its first byte. -/
def secondOk3 (first second : UInt8) : Bool :=
  if first.toNat = 0xE0 then 0xA0 ≤ second.toNat && second.toNat ≤ 0xBF
  else if first.toNat = 0xED then 0x80 ≤ second.toNat && second.toNat ≤ 0x9F
  else 0x80 ≤ second.toNat && second.toNat ≤ 0xBF

/-- The second bytes a four-byte sequence allows after its first byte. -/
def secondOk4 (first second : UInt8) : Bool :=
  if first.toNat = 0xF0 then 0x90 ≤ second.toNat && second.toNat ≤ 0xBF
  else if first.toNat = 0xF4 then 0x80 ≤ second.toNat && second.toNat ≤ 0x8F
  else 0x80 ≤ second.toNat && second.toNat ≤ 0xBF

/-- The scalar value of a valid two-byte sequence. -/
def decode2 (b0 b1 : UInt8) : Char :=
  Char.ofNat (b0.toNat % 0x20 * 0x40 + b1.toNat % 0x40)

/-- The scalar value of a valid three-byte sequence. -/
def decode3 (b0 b1 b2 : UInt8) : Char :=
  Char.ofNat (b0.toNat % 0x10 * 0x1000 + b1.toNat % 0x40 * 0x40 + b2.toNat % 0x40)

/-- The scalar value of a valid four-byte sequence. -/
def decode4 (b0 b1 b2 b3 : UInt8) : Char :=
  Char.ofNat (b0.toNat % 0x08 * 0x40000 + b1.toNat % 0x40 * 0x1000 + b2.toNat % 0x40 * 0x40 +
    b3.toNat % 0x40)

/-- `REPLACEMENT_CHARACTER`. -/
def replacement : Char := '�'

/-- One turn of `Utf8Chunks`' loop from a first byte `b0`, followed by `rest`: the scalar
value of a valid sequence and its length, or `none` and the length of the longest prefix that
could start one (at least `b0`), after which decoding goes on. -/
def decodeSeq (b0 : UInt8) (rest : List UInt8) : Option Char × Nat :=
  match utf8CharWidth b0 with
  | 1 => (some (Char.ofNat b0.toNat), 1)
  | 2 =>
      match rest with
      | b1 :: _ => if isCont b1 then (some (decode2 b0 b1), 2) else (none, 1)
      | [] => (none, 1)
  | 3 =>
      match rest with
      | b1 :: more =>
          if secondOk3 b0 b1 then
            match more with
            | b2 :: _ => if isCont b2 then (some (decode3 b0 b1 b2), 3) else (none, 2)
            | [] => (none, 2)
          else (none, 1)
      | [] => (none, 1)
  | 4 =>
      match rest with
      | b1 :: more =>
          if secondOk4 b0 b1 then
            match more with
            | b2 :: more' =>
                if isCont b2 then
                  match more' with
                  | b3 :: _ => if isCont b3 then (some (decode4 b0 b1 b2 b3), 4) else (none, 3)
                  | [] => (none, 3)
                else (none, 2)
            | [] => (none, 2)
          else (none, 1)
      | [] => (none, 1)
  | _ => (none, 1)

/-- The loop of `String::from_utf8_lossy` with `fuel` turns: each turn pushes the decoded value,
or one U+FFFD for an invalid prefix, and goes on after the bytes it used. -/
def lossyTurns : Nat → List UInt8 → List Char
  | 0, _ => []
  | _ + 1, [] => []
  | fuel + 1, b0 :: rest =>
      (decodeSeq b0 rest).1.getD replacement ::
        lossyTurns fuel ((b0 :: rest).drop (decodeSeq b0 rest).2)

/-- `String::from_utf8_lossy`. Every turn uses at least one byte, so as many turns as bytes
decode them all. -/
def fromUtf8Lossy (bytes : List UInt8) : List Char :=
  lossyTurns bytes.length bytes

example : fromUtf8Lossy [0x61, 0xE2, 0x82, 0xAC, 0xE2, 0x82, 0x61, 0xFF, 0xE0, 0x41] =
    ['a', '€', replacement, 'a', replacement, replacement, 'A'] := by decide

/-! ### Decoding a valid sequence -/

theorem toNat_toUInt8 {n : Nat} (small : n < 256) : n.toUInt8.toNat = n :=
  UInt8.toNat_ofNat_of_lt small

/-- A scalar value is below `0xD800`, or above `0xDFFF` and below `0x110000`. -/
theorem Char.toNat_valid (c : Char) :
    c.toNat < 0xD800 ∨ (0xDFFF < c.toNat ∧ c.toNat < 0x110000) :=
  c.valid

/-- The low six bits of a number, as a byte `10xxxxxx`, are a continuation byte. -/
theorem isCont_continuation (n : Nat) : isCont (0x80 + n % 0x40).toUInt8 = true := by
  have byte := toNat_toUInt8 (show 0x80 + n % 0x40 < 256 by omega)
  simp only [isCont, byte]; simp; omega

/-- The bytes of a character decode, in one turn, to the character and their number. -/
theorem decodeSeq_encodeUtf8 (c : Char) (rest : List UInt8) :
    ∃ b0 more, encodeUtf8 c ++ rest = b0 :: more ∧
      decodeSeq b0 more = (some c, (encodeUtf8 c).length) := by
  have valid := Char.toNat_valid c
  have back : ∀ v, v = c.toNat → Char.ofNat v = c := fun v same => same ▸ Char.ofNat_toNat c
  dsimp only [encodeUtf8]
  split_ifs with one two three
  · -- one byte
    have b0 := toNat_toUInt8 (show c.toNat < 256 by omega)
    have width : utf8CharWidth c.toNat.toUInt8 = 1 := by
      simp only [utf8CharWidth, b0, if_pos one]
    refine ⟨_, _, rfl, ?_⟩
    simp only [decodeSeq, width, b0, back _ rfl, List.length_singleton]
  · -- two bytes
    have b0 := toNat_toUInt8 (show 0xC0 + c.toNat / 0x40 < 256 by omega)
    have b1 := toNat_toUInt8 (show 0x80 + c.toNat % 0x40 < 256 by omega)
    have width : utf8CharWidth (0xC0 + c.toNat / 0x40).toUInt8 = 2 := by
      simp only [utf8CharWidth, b0]; split_ifs <;> omega
    refine ⟨_, (0x80 + c.toNat % 0x40).toUInt8 :: rest, rfl, ?_⟩
    simp only [decodeSeq, width, isCont_continuation, if_true, decode2, b0, b1, List.length_cons,
      List.length_nil]
    rw [back _ (by omega)]
  · -- three bytes
    have b0 := toNat_toUInt8 (show 0xE0 + c.toNat / 0x1000 < 256 by omega)
    have b1 := toNat_toUInt8 (show 0x80 + c.toNat / 0x40 % 0x40 < 256 by omega)
    have b2 := toNat_toUInt8 (show 0x80 + c.toNat % 0x40 < 256 by omega)
    have width : utf8CharWidth (0xE0 + c.toNat / 0x1000).toUInt8 = 3 := by
      simp only [utf8CharWidth, b0]; split_ifs <;> omega
    have second : secondOk3 (0xE0 + c.toNat / 0x1000).toUInt8
        (0x80 + c.toNat / 0x40 % 0x40).toUInt8 = true := by
      simp only [secondOk3, b0, b1]; split_ifs <;> simp <;> omega
    refine ⟨_, (0x80 + c.toNat / 0x40 % 0x40).toUInt8 :: (0x80 + c.toNat % 0x40).toUInt8 :: rest,
      rfl, ?_⟩
    simp only [decodeSeq, width, second, isCont_continuation, if_true, decode3, b0, b1, b2,
      List.length_cons, List.length_nil]
    rw [back _ (by omega)]
  · -- four bytes
    have b0 := toNat_toUInt8 (show 0xF0 + c.toNat / 0x40000 < 256 by omega)
    have b1 := toNat_toUInt8 (show 0x80 + c.toNat / 0x1000 % 0x40 < 256 by omega)
    have b2 := toNat_toUInt8 (show 0x80 + c.toNat / 0x40 % 0x40 < 256 by omega)
    have b3 := toNat_toUInt8 (show 0x80 + c.toNat % 0x40 < 256 by omega)
    have width : utf8CharWidth (0xF0 + c.toNat / 0x40000).toUInt8 = 4 := by
      simp only [utf8CharWidth, b0]; split_ifs <;> omega
    have second : secondOk4 (0xF0 + c.toNat / 0x40000).toUInt8
        (0x80 + c.toNat / 0x1000 % 0x40).toUInt8 = true := by
      simp only [secondOk4, b0, b1]; split_ifs <;> simp <;> omega
    refine ⟨_, (0x80 + c.toNat / 0x1000 % 0x40).toUInt8 :: (0x80 + c.toNat / 0x40 % 0x40).toUInt8 ::
      (0x80 + c.toNat % 0x40).toUInt8 :: rest, rfl, ?_⟩
    simp only [decodeSeq, width, second, isCont_continuation, if_true, decode4, b0, b1, b2, b3,
      List.length_cons, List.length_nil]
    rw [back _ (by omega)]

/-- Decoding the bytes of a character gives the character back. -/
theorem lossyTurns_encodeUtf8_append (c : Char) (rest : List UInt8) (fuel : Nat) :
    lossyTurns (fuel + 1) (encodeUtf8 c ++ rest) = c :: lossyTurns fuel rest := by
  obtain ⟨b0, more, split, decoded⟩ := decodeSeq_encodeUtf8 c rest
  rw [split, lossyTurns, decoded, ← split, List.drop_left]
  rfl

theorem length_encodeUtf8_pos (c : Char) : 0 < (encodeUtf8 c).length := by
  dsimp only [encodeUtf8]
  split_ifs <;> simp

/-- Lossy decoding of a string's bytes gives the string back. -/
theorem fromUtf8Lossy_encodeChars (cs : List Char) : fromUtf8Lossy (encodeChars cs) = cs := by
  suffices enough : ∀ fuel, (encodeChars cs).length ≤ fuel → lossyTurns fuel (encodeChars cs) = cs
    from enough _ (Nat.le_refl _)
  induction cs with
  | nil => intro fuel _; cases fuel <;> rfl
  | cons c cs ih =>
      intro fuel enough
      have used := length_encodeUtf8_pos c
      rw [encodeChars_cons, List.length_append] at enough
      obtain ⟨fuel, rfl⟩ : ∃ f, fuel = f + 1 := ⟨fuel - 1, by omega⟩
      rw [encodeChars_cons, lossyTurns_encodeUtf8_append, ih fuel (by omega)]

theorem fromUtf8Lossy_asBytes (s : String) : fromUtf8Lossy (asBytes s) = s.data :=
  fromUtf8Lossy_encodeChars s.data

end Webtor.Text
