/-
Module: Webtor.Text.Str
Purpose: the string primitives the consensus code calls, as they compute: `hex::encode`,
  `[String]::join` and `str::split` with a character pattern, and the last `/`-separated
  segment of a URL. The facts proved are the ones the batch URLs rest on: hex output is
  lowercase hex digits only (so it holds no `-` and no `/`), is twice as long as its input
  and determines it, and splitting a join at a separator no part contains gives the parts
  back. `slice::chunks` cuts a slice into `⌈length / size⌉` runs, each but the last full.
Trusted boundary: none
Main exports: hexEncode, IsLowerHex, join, split, lastSegment, hexEncode_injective,
  split_join, lastSegment_append, chunks, chunks_small, length_chunks,
  length_of_mem_dropLast_chunks
-/
import Mathlib.Data.List.Basic

namespace Webtor.Text

/-! ### `hex::encode` -/

/-- The lowercase digit of a nibble. -/
def hexDigit (nibble : Nat) : Char :=
  if nibble < 10 then Char.ofNat (0x30 + nibble) else Char.ofNat (0x57 + nibble)

/-- `hex::encode`: two lowercase digits per byte, high nibble first. -/
def hexEncode (bytes : List UInt8) : String :=
  ⟨bytes.flatMap fun byte => [hexDigit (byte.toNat / 16), hexDigit (byte.toNat % 16)]⟩

/-- A character `hex::encode` writes. -/
def IsLowerHex (c : Char) : Prop :=
  ('0' ≤ c ∧ c ≤ '9') ∨ ('a' ≤ c ∧ c ≤ 'f')

instance : DecidablePred IsLowerHex :=
  fun _ => inferInstanceAs (Decidable (_ ∨ _))

private theorem hexDigit_fin_isLowerHex : ∀ nibble : Fin 16, IsLowerHex (hexDigit nibble) := by
  decide

private theorem hexDigit_fin_injective :
    ∀ first second : Fin 16, hexDigit first = hexDigit second → first = second := by
  decide

theorem hexDigit_isLowerHex {nibble : Nat} (small : nibble < 16) :
    IsLowerHex (hexDigit nibble) :=
  hexDigit_fin_isLowerHex ⟨nibble, small⟩

theorem hexDigit_injective {first second : Nat} (smallFirst : first < 16)
    (smallSecond : second < 16) (same : hexDigit first = hexDigit second) : first = second :=
  congrArg Fin.val (hexDigit_fin_injective ⟨first, smallFirst⟩ ⟨second, smallSecond⟩ same)

private theorem uint8_toNat_lt (byte : UInt8) : byte.toNat < 256 := byte.toNat_lt_size

@[simp] theorem hexEncode_nil : hexEncode [] = "" := rfl

@[simp] theorem hexEncode_cons_data (byte : UInt8) (bytes : List UInt8) :
    (hexEncode (byte :: bytes)).data =
      hexDigit (byte.toNat / 16) :: hexDigit (byte.toNat % 16) :: (hexEncode bytes).data := rfl

/-- Every character of `hex::encode`'s output is a lowercase hex digit. -/
theorem isLowerHex_of_mem_hexEncode {bytes : List UInt8} {c : Char}
    (member : c ∈ (hexEncode bytes).data) : IsLowerHex c := by
  induction bytes with
  | nil => cases member
  | cons byte bytes ih =>
      have nibbles : byte.toNat / 16 < 16 ∧ byte.toNat % 16 < 16 := by
        have := uint8_toNat_lt byte
        omega
      simp only [hexEncode_cons_data, List.mem_cons] at member
      rcases member with rfl | rfl | rest
      · exact hexDigit_isLowerHex nibbles.1
      · exact hexDigit_isLowerHex nibbles.2
      · exact ih rest

/-- A character that is no hex digit never occurs in `hex::encode`'s output. -/
theorem not_mem_hexEncode {bytes : List UInt8} {c : Char} (notHex : ¬ IsLowerHex c) :
    c ∉ (hexEncode bytes).data :=
  fun member => notHex (isLowerHex_of_mem_hexEncode member)

theorem hexEncode_length (bytes : List UInt8) :
    (hexEncode bytes).data.length = 2 * bytes.length := by
  induction bytes with
  | nil => rfl
  | cons byte bytes ih => simp only [hexEncode_cons_data, List.length_cons, ih]; omega

/-- `hex::encode` is injective: its output determines the bytes. -/
theorem hexEncode_injective {first second : List UInt8}
    (same : hexEncode first = hexEncode second) : first = second := by
  induction first generalizing second with
  | nil =>
      cases second with
      | nil => rfl
      | cons byte bytes => exact absurd (congrArg (·.data.length) same) (by simp [hexEncode_length])
  | cons byte bytes ih =>
      cases second with
      | nil => exact absurd (congrArg (·.data.length) same) (by simp [hexEncode_length])
      | cons byte' bytes' =>
          have digits := congrArg String.data same
          simp only [hexEncode_cons_data, List.cons.injEq] at digits
          have bound := uint8_toNat_lt byte
          have bound' := uint8_toNat_lt byte'
          have high := hexDigit_injective (by omega) (by omega) digits.1
          have low := hexDigit_injective (by omega) (by omega) digits.2.1
          have sameByte : byte = byte' := UInt8.toNat.inj (by omega)
          rw [sameByte, ih (String.ext digits.2.2)]

/-! ### `[String]::join` and `str::split` -/

/-- `[String]::join(sep)`: the parts with `sep` between neighbours. -/
def join (sep : String) : List String → String
  | [] => ""
  | [part] => part
  | part :: rest => part ++ sep ++ join sep rest

/-- Put a character in front of the first piece. -/
def pushFront (c : Char) : List (List Char) → List (List Char)
  | piece :: pieces => (c :: piece) :: pieces
  | [] => [[c]]

/-- `str::split(sep)` for a character pattern, on the characters: the pieces between
separators, empty pieces included, so `[]` splits to `[[]]`. -/
def splitChars (sep : Char) : List Char → List (List Char)
  | [] => [[]]
  | c :: cs => if c = sep then [] :: splitChars sep cs else pushFront c (splitChars sep cs)

/-- `str::split(sep)`, collected. -/
def split (sep : Char) (s : String) : List String :=
  (splitChars sep s.data).map String.mk

/-- The text after the last `/` of a URL (all of it when it has none). -/
def lastSegment (url : String) : String :=
  ⟨(url.data.reverse.takeWhile (· ≠ '/')).reverse⟩

theorem splitChars_of_not_mem {sep : Char} {cs : List Char} (absent : sep ∉ cs) :
    splitChars sep cs = [cs] := by
  induction cs with
  | nil => rfl
  | cons c cs ih =>
      have differs : c ≠ sep := fun same => absent (same ▸ List.mem_cons_self _ _)
      simp only [splitChars, differs, if_false,
        ih (fun member => absent (List.mem_cons_of_mem _ member)), pushFront]

theorem splitChars_append_sep {sep : Char} {cs : List Char} (absent : sep ∉ cs)
    (rest : List Char) : splitChars sep (cs ++ sep :: rest) = cs :: splitChars sep rest := by
  induction cs with
  | nil => simp [splitChars]
  | cons c cs ih =>
      have differs : c ≠ sep := fun same => absent (same ▸ List.mem_cons_self _ _)
      rw [List.cons_append, splitChars, if_neg differs,
        ih (fun member => absent (List.mem_cons_of_mem _ member)), pushFront]

/-- Splitting a join at a separator that no part contains gives the parts back. -/
theorem split_join {sep : Char} {parts : List String} (nonempty : parts ≠ [])
    (absent : ∀ part ∈ parts, sep ∉ part.data) :
    split sep (join ⟨[sep]⟩ parts) = parts := by
  induction parts with
  | nil => exact absurd rfl nonempty
  | cons part rest ih =>
      cases rest with
      | nil =>
          simp [split, join, splitChars_of_not_mem (absent part (List.mem_cons_self _ _))]
      | cons next rest =>
          have tail := ih (List.cons_ne_nil _ _)
            (fun other member => absent other (List.mem_cons_of_mem _ member))
          simp only [split, join, String.data_append, List.append_assoc,
            List.singleton_append] at tail ⊢
          rw [splitChars_append_sep (absent part (List.mem_cons_self _ _)), List.map_cons, tail]

/-- The last segment of `pre ++ "/" ++ segment` is `segment` when it holds no `/`. -/
theorem lastSegment_append {pre segment : String} (absent : '/' ∉ segment.data) :
    lastSegment (pre ++ "/" ++ segment) = segment := by
  have keep : ∀ c ∈ segment.data.reverse, decide (c ≠ '/') = true := by
    intro c member
    simpa using fun same : c = '/' => absent (List.mem_reverse.mp (same ▸ member))
  simp only [lastSegment, String.data_append, List.reverse_append]
  rw [List.takeWhile_append_of_pos keep]
  simp

/-! ### `slice::chunks` -/

/-- `slice::chunks(size)`: runs of `size` elements from the front, the last one possibly
shorter. Rust panics on `size = 0`; the model gives no chunks there. -/
def chunks {α : Type} (size : Nat) (xs : List α) : List (List α) :=
  match xs with
  | [] => []
  | x :: rest =>
      if 0 < size then (x :: rest).take size :: chunks size ((x :: rest).drop size) else []
termination_by xs.length
decreasing_by simp only [List.length_drop, List.length_cons]; omega

@[simp] theorem chunks_nil {α : Type} (size : Nat) : chunks size ([] : List α) = [] := by
  simp [chunks]

theorem chunks_cons {α : Type} {size : Nat} (positive : 0 < size) (x : α) (rest : List α) :
    chunks size (x :: rest) =
      (x :: rest).take size :: chunks size ((x :: rest).drop size) := by
  rw [chunks, if_pos positive]

/-- A slice no longer than the chunk size is one chunk. -/
theorem chunks_small {α : Type} {size : Nat} {xs : List α} (nonempty : xs ≠ [])
    (small : xs.length ≤ size) : chunks size xs = [xs] := by
  obtain ⟨x, rest, rfl⟩ := List.exists_cons_of_ne_nil nonempty
  rw [chunks_cons (by simp at small; omega), List.take_of_length_le small,
    List.drop_of_length_le small, chunks_nil]

/-- The chunks put back together are the slice. -/
theorem flatten_chunks {α : Type} {size : Nat} (positive : 0 < size) (xs : List α) :
    (chunks size xs).flatten = xs := by
  induction xs using chunks.induct size with
  | case1 => simp
  | case2 x rest _ ih => rw [chunks_cons positive, List.flatten_cons, ih, List.take_append_drop]
  | case3 _ _ nonpositive => exact absurd positive nonpositive

/-- Every chunk has between one and `size` elements. -/
theorem length_of_mem_chunks {α : Type} {size : Nat} (positive : 0 < size) {xs chunk : List α}
    (member : chunk ∈ chunks size xs) : chunk ≠ [] ∧ chunk.length ≤ size := by
  induction xs using chunks.induct size with
  | case1 => simp at member
  | case2 x rest _ ih =>
      rw [chunks_cons positive] at member
      rcases List.mem_cons.mp member with rfl | later
      · refine ⟨?_, List.length_take_le _ _⟩
        simp [List.take_eq_nil_iff, Nat.pos_iff_ne_zero.mp positive]
      · exact ih later
  | case3 _ _ nonpositive => exact absurd positive nonpositive

/-- There are `⌈length / size⌉` chunks. -/
theorem length_chunks {α : Type} {size : Nat} (positive : 0 < size) (xs : List α) :
    (chunks size xs).length = (xs.length + size - 1) / size := by
  induction xs using chunks.induct size with
  | case1 => simp [Nat.div_eq_of_lt (Nat.sub_lt positive Nat.one_pos)]
  | case2 x rest _ ih =>
      rw [chunks_cons positive, List.length_cons, ih, List.length_drop]
      rcases le_or_lt size (x :: rest).length with long | short
      · rw [show (x :: rest).length - size + size - 1 = (x :: rest).length - 1 by omega,
          show (x :: rest).length + size - 1 = (x :: rest).length - 1 + size by
            simp only [List.length_cons]; omega, Nat.add_div_right _ positive]
      · rw [Nat.sub_eq_zero_of_le short.le, Nat.zero_add,
          Nat.div_eq_of_lt (Nat.sub_lt positive Nat.one_pos)]
        exact (Nat.div_eq_of_lt_le (by simp only [List.length_cons]; omega) (by omega)).symm
  | case3 _ _ nonpositive => exact absurd positive nonpositive

/-- Every chunk but the last has exactly `size` elements. -/
theorem length_of_mem_dropLast_chunks {α : Type} {size : Nat} (positive : 0 < size)
    {xs chunk : List α} (member : chunk ∈ (chunks size xs).dropLast) : chunk.length = size := by
  induction xs using chunks.induct size with
  | case1 => simp at member
  | case2 x rest _ ih =>
      rw [chunks_cons positive] at member
      cases tail : chunks size ((x :: rest).drop size) with
      | nil => simp [tail] at member
      | cons next more =>
          rw [tail, List.dropLast_cons₂] at member
          rcases List.mem_cons.mp member with rfl | later
          · have long : size < (x :: rest).length := by
              by_contra short
              rw [List.drop_eq_nil_of_le (Nat.le_of_not_lt short), chunks_nil] at tail
              exact List.cons_ne_nil _ _ tail.symm
            rw [List.length_take]
            omega
          · exact ih (tail ▸ later)
  | case3 _ _ nonpositive => exact absurd positive nonpositive

end Webtor.Text
