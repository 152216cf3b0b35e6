/-
Module: Webtor.Text.Search
Purpose: finding `\r\n\r\n` in a response and slicing after it, as the two header skips do:
  `str::find` (a byte search over the string's bytes), `slice::windows` with
  `Iterator::position`, and the panicking slices `&s[i..]` of a `str` and of a byte slice.
  For a needle of ASCII characters, the byte search finds exactly the byte offset of the
  first match among the characters (`findSub_encodeChars`): a byte below `0x80` is never part
  of a longer character's bytes.
Trusted boundary: none
Main exports: findSub, strFind, windows, position, strSliceFrom, bytesSliceFrom,
  findSub_encodeChars, position_windows, strSliceFrom_take
-/
import Webtor.Text.Utf8

namespace Webtor.Text

/-- The first index at which `needle` starts in the list. -/
def findSub {α : Type} [DecidableEq α] (needle : List α) : List α → Option Nat
  | [] => if needle <+: [] then some 0 else none
  | x :: xs => if needle <+: x :: xs then some 0 else (findSub needle xs).map (· + 1)

/-- `str::find` with a string pattern: the byte index of the first match, found on the
bytes as the two-way searcher does. -/
def strFind (haystack needle : String) : Option Nat :=
  findSub (asBytes needle) (asBytes haystack)

/-- `slice::windows(n)`: every run of `n` consecutive elements, from the front. -/
def windows {α : Type} (n : Nat) : List α → List (List α)
  | [] => []
  | x :: xs => if n ≤ xs.length + 1 then (x :: xs).take n :: windows n xs else []

/-- `Iterator::position`: the index of the first element satisfying `p`. -/
def position {α : Type} (p : α → Bool) : List α → Option Nat
  | [] => none
  | x :: xs => if p x then some 0 else (position p xs).map (· + 1)

/-- `&s[start..]` on a `str`, on its characters: `none` where Rust panics, when `start` is past
the end or inside a character's bytes. -/
def strSliceFrom : List Char → Nat → Option (List Char)
  | cs, 0 => some cs
  | [], _ + 1 => none
  | c :: cs, start + 1 =>
      if (encodeUtf8 c).length ≤ start + 1 then strSliceFrom cs (start + 1 - (encodeUtf8 c).length)
      else none

/-- `&bytes[start..]`: `none` where Rust panics, when `start` is past the end. -/
def bytesSliceFrom (bytes : List UInt8) (start : Nat) : Option (List UInt8) :=
  if start ≤ bytes.length then some (bytes.drop start) else none

/-! ### Bytes of ASCII and of wider characters -/

theorem Char.eq_of_toNat_eq {c d : Char} (same : c.toNat = d.toNat) : c = d := by
  rw [← Char.ofNat_toNat c, ← Char.ofNat_toNat d, same]

theorem encodeUtf8_of_lt {c : Char} (ascii : c.toNat < 0x80) :
    encodeUtf8 c = [c.toNat.toUInt8] := by
  simp [encodeUtf8, ascii]

/-- Every byte of a character at or above `0x80` is at or above `0x80`. -/
theorem le_of_mem_encodeUtf8 {c : Char} (wide : 0x80 ≤ c.toNat) {b : UInt8}
    (member : b ∈ encodeUtf8 c) : 0x80 ≤ b.toNat := by
  have valid := Char.toNat_valid c
  dsimp only [encodeUtf8] at member
  split_ifs at member <;> simp only [List.mem_cons, List.mem_singleton, List.not_mem_nil,
      or_false] at member <;>
    rcases member with rfl | rfl | rfl | rfl <;> rw [toNat_toUInt8 (by omega)] <;> omega

/-- A needle of ASCII characters: every character below `0x80`. -/
def IsAscii (cs : List Char) : Prop := ∀ c ∈ cs, c.toNat < 0x80

instance : DecidablePred IsAscii := fun cs => inferInstanceAs (Decidable (∀ c ∈ cs, c.toNat < 0x80))

/-- For an ASCII needle, a byte prefix is a character prefix. -/
theorem encodeChars_prefix_iff {needle : List Char} (ascii : IsAscii needle) (s : List Char) :
    encodeChars needle <+: encodeChars s ↔ needle <+: s := by
  induction needle generalizing s with
  | nil => simp
  | cons q needle ih =>
      have qAscii : q.toNat < 0x80 := ascii q (List.mem_cons_self _ _)
      have rest := ih (fun c member => ascii c (List.mem_cons_of_mem _ member))
      cases s with
      | nil => simp [encodeUtf8_of_lt qAscii]
      | cons c s =>
          rw [encodeChars_cons, encodeChars_cons, encodeUtf8_of_lt qAscii, List.singleton_append,
            List.cons_prefix_cons]
          by_cases cAscii : c.toNat < 0x80
          · rw [encodeUtf8_of_lt cAscii, List.singleton_append, List.cons_prefix_cons, rest]
            constructor
            · rintro ⟨same, tail⟩
              refine ⟨Char.eq_of_toNat_eq ?_, tail⟩
              have := congrArg UInt8.toNat same
              rwa [toNat_toUInt8 (by omega), toNat_toUInt8 (by omega)] at this
            · rintro ⟨rfl, tail⟩
              exact ⟨rfl, tail⟩
          · -- a wide character's first byte is no ASCII byte
            obtain ⟨b0, bytes, split⟩ : ∃ b0 bytes, encodeUtf8 c = b0 :: bytes := by
              cases encoded : encodeUtf8 c with
              | nil => exact absurd encoded (List.ne_nil_of_length_pos (length_encodeUtf8_pos c))
              | cons b0 bytes => exact ⟨b0, bytes, rfl⟩
            have wide : 0x80 ≤ b0.toNat :=
              le_of_mem_encodeUtf8 (by omega) (split ▸ List.mem_cons_self _ _)
            rw [split, List.cons_append, List.cons_prefix_cons]
            constructor
            · rintro ⟨same, -⟩
              have := congrArg UInt8.toNat same
              rw [toNat_toUInt8 (by omega)] at this
              omega
            · rintro ⟨rfl, -⟩
              exact absurd qAscii cAscii

theorem encodeChars_append (first second : List Char) :
    encodeChars (first ++ second) = encodeChars first ++ encodeChars second := by
  simp [encodeChars]

theorem length_encodeChars_ascii {cs : List Char} (ascii : IsAscii cs) :
    (encodeChars cs).length = cs.length := by
  induction cs with
  | nil => rfl
  | cons c cs ih =>
      rw [encodeChars_cons, List.length_append, encodeUtf8_of_lt (ascii c (List.mem_cons_self _ _)),
        ih fun d member => ascii d (List.mem_cons_of_mem _ member)]
      simp [Nat.add_comm]

/-! ### Searching the bytes -/

theorem findSub_eq_none_of_length_lt {α : Type} [DecidableEq α] {needle : List α} :
    ∀ l : List α, l.length < needle.length → findSub needle l = none
  | [], short => by simp [findSub, List.prefix_nil, List.ne_nil_of_length_pos (by omega : 0 < needle.length)]
  | x :: xs, short => by
      have notPrefix : ¬ needle <+: x :: xs := fun pre => absurd pre.length_le (by omega)
      have rest : findSub needle xs = none :=
        findSub_eq_none_of_length_lt xs (by simp at short; omega)
      simp only [findSub, notPrefix, if_false, rest, Option.map_none']

/-- Bytes at or above `0x80` never start a needle whose first byte is ASCII: the search steps
over them. -/
theorem findSub_skip {needle : List UInt8} {q : UInt8} {more : List UInt8}
    (head : needle = q :: more) (ascii : q.toNat < 0x80) :
    ∀ (skipped rest : List UInt8), (∀ b ∈ skipped, 0x80 ≤ b.toNat) →
      findSub needle (skipped ++ rest) = (findSub needle rest).map (· + skipped.length)
  | [], rest, _ => by simp
  | b :: skipped, rest, wide => by
      have notPrefix : ¬ needle <+: b :: (skipped ++ rest) := by
        rw [head, List.cons_prefix_cons]
        rintro ⟨rfl, -⟩
        exact absurd (wide q (List.mem_cons_self _ _)) (by omega)
      rw [List.cons_append, findSub, if_neg notPrefix,
        findSub_skip head ascii skipped rest fun b' member => wide b' (List.mem_cons_of_mem _ member),
        Option.map_map]
      rfl

/-- For a non-empty ASCII needle, the byte search finds the byte offset of the first match among
the characters. -/
theorem findSub_encodeChars {needle : List Char} (ascii : IsAscii needle) (nonempty : needle ≠ [])
    (s : List Char) :
    findSub (encodeChars needle) (encodeChars s) =
      (findSub needle s).map fun i => (encodeChars (s.take i)).length := by
  obtain ⟨q, more, rfl⟩ := List.exists_cons_of_ne_nil nonempty
  have qAscii : q.toNat < 0x80 := ascii q (List.mem_cons_self _ _)
  have head : encodeChars (q :: more) = q.toNat.toUInt8 :: encodeChars more := by
    rw [encodeChars_cons, encodeUtf8_of_lt qAscii, List.singleton_append]
  have headAscii : q.toNat.toUInt8.toNat < 0x80 := by rw [toNat_toUInt8 (by omega)]; exact qAscii
  induction s with
  | nil => simp [findSub, head]
  | cons c s ih =>
      obtain ⟨b0, bytes, split⟩ : ∃ b0 bytes, encodeUtf8 c = b0 :: bytes := by
        cases encoded : encodeUtf8 c with
        | nil => exact absurd encoded (List.ne_nil_of_length_pos (length_encodeUtf8_pos c))
        | cons b0 bytes => exact ⟨b0, bytes, rfl⟩
      have wide : ∀ b ∈ bytes, 0x80 ≤ b.toNat := by
        intro b member
        by_cases cAscii : c.toNat < 0x80
        · rw [encodeUtf8_of_lt cAscii, List.cons_eq_cons] at split
          rw [← split.2] at member
          cases member
        · exact le_of_mem_encodeUtf8 (by omega) (split ▸ List.mem_cons_of_mem _ member)
      have bytesOf : encodeChars (c :: s) = b0 :: (bytes ++ encodeChars s) := by
        rw [encodeChars_cons, split, List.cons_append]
      have prefixIff := encodeChars_prefix_iff ascii (c :: s)
      rw [bytesOf] at prefixIff
      rw [bytesOf, findSub, findSub]
      by_cases found : q :: more <+: c :: s
      · rw [if_pos (prefixIff.mpr found), if_pos found]
        rfl
      · rw [if_neg (mt prefixIff.mp found), if_neg found, findSub_skip head headAscii bytes _ wide, ih]
        simp only [Option.map_map]
        congr 1
        funext i
        simp only [Function.comp, List.take_succ_cons, encodeChars_cons, List.length_append, split,
          List.length_cons]
        omega

/-- `windows(n).position(|w| w == needle)` finds the first match of a needle of length `n`. -/
theorem position_windows {α : Type} [DecidableEq α] {needle : List α} (nonempty : needle ≠ []) :
    ∀ l : List α, position (· == needle) (windows needle.length l) = findSub needle l
  | [] => by simp [windows, position, findSub, nonempty]
  | x :: xs => by
      unfold windows
      split
      · next fits =>
          have window : ((x :: xs).take needle.length == needle) = true ↔ needle <+: x :: xs := by
            rw [beq_iff_eq, List.prefix_iff_eq_take, eq_comm]
          by_cases found : needle <+: x :: xs
          · simp [position, findSub, found, window.mpr found]
          · have notWindow : ((x :: xs).take needle.length == needle) = false := by
              rw [Bool.eq_false_iff]
              exact mt window.mp found
            simp only [position, notWindow, findSub, found, if_false, position_windows nonempty xs,
              Bool.false_eq_true]
      · next short =>
          rw [findSub_eq_none_of_length_lt _ (by simp at short ⊢; omega)]
          rfl

/-- Past a match of an ASCII needle at character `i`, the byte offset grows by the needle's
length. -/
theorem encodeChars_take_after_match {needle s : List Char} (ascii : IsAscii needle) {i : Nat}
    (found : needle <+: s.drop i) :
    (encodeChars (s.take (i + needle.length))).length =
      (encodeChars (s.take i)).length + needle.length := by
  have split : s.take (i + needle.length) = s.take i ++ needle := by
    rw [List.take_add, ← List.prefix_iff_eq_take.mp found]
  rw [split, encodeChars_append, List.length_append, length_encodeChars_ascii ascii]

/-- A reported match is a match. -/
theorem match_of_findSub_eq_some {α : Type} [DecidableEq α] {needle : List α} :
    ∀ {l : List α} {i : Nat}, findSub needle l = some i → needle <+: l.drop i
  | [], i, found => by
      simp only [findSub] at found
      split at found <;> simp_all
  | x :: xs, i, found => by
      simp only [findSub] at found
      split at found
      · next pre => cases found; exact pre
      · obtain ⟨j, rest, rfl⟩ := Option.map_eq_some'.mp found
        rw [List.drop_succ_cons]
        exact match_of_findSub_eq_some rest

/-! ### Slicing after a match -/

/-- Slicing a string at the byte offset of its first `k` characters gives the rest. -/
theorem strSliceFrom_take : ∀ (cs : List Char) (k : Nat),
    strSliceFrom cs (encodeChars (cs.take k)).length = some (cs.drop k)
  | [], k => by simp [strSliceFrom]
  | c :: cs, 0 => by simp [strSliceFrom]
  | c :: cs, k + 1 => by
      have used := length_encodeUtf8_pos c
      obtain ⟨start, eq⟩ : ∃ start, (encodeChars ((c :: cs).take (k + 1))).length = start + 1 :=
        ⟨_, (Nat.succ_pred_eq_of_pos (by simp [List.take_succ_cons]; omega)).symm⟩
      rw [eq, strSliceFrom, if_pos (by rw [← eq]; simp [List.take_succ_cons]),
        show start + 1 - (encodeUtf8 c).length = (encodeChars (cs.take k)).length by
          rw [← eq]; simp [List.take_succ_cons],
        strSliceFrom_take cs k, List.drop_succ_cons]

/-- Slicing a string's bytes at the byte offset of its first `k` characters gives the bytes of
the rest. -/
theorem bytesSliceFrom_take (cs : List Char) (k : Nat) :
    bytesSliceFrom (encodeChars cs) (encodeChars (cs.take k)).length =
      some (encodeChars (cs.drop k)) := by
  have split : encodeChars cs = encodeChars (cs.take k) ++ encodeChars (cs.drop k) := by
    rw [← encodeChars_append, List.take_append_drop]
  rw [bytesSliceFrom, if_pos (by rw [split, List.length_append]; omega), split, List.drop_left]

end Webtor.Text
