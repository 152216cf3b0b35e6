/-
Module: Webtor.Text.Digits
Purpose: the digits Rust prints for an integer (`{}` and `{:x}`, the same characters as core's
  `Nat.toDigits`) and the digit values `char::to_digit` reads. Reading printed digits back
  gives the number (`digitsValue_toDigits`); printed digits are digit characters, a positive
  number has no leading zero, and a number below `base ^ k` takes at most `k` digits.
Trusted boundary: none
Main exports: hexValue, decValue, digitsValue, toDigits_eq, digitsValue_toDigits,
  mem_toDigits, toDigits_head, length_toDigits_le
-/
import Mathlib.Data.Nat.Digits

namespace Webtor.Text

/-- `char::to_digit(16)`: the value of a hexadecimal digit of either case. -/
def hexValue (c : Char) : Option Nat :=
  if 48 ≤ c.toNat ∧ c.toNat ≤ 57 then some (c.toNat - 48)
  else if 97 ≤ c.toNat ∧ c.toNat ≤ 102 then some (c.toNat - 87)
  else if 65 ≤ c.toNat ∧ c.toNat ≤ 70 then some (c.toNat - 55)
  else none

/-- `char::to_digit(10)`. -/
def decValue (c : Char) : Option Nat :=
  if 48 ≤ c.toNat ∧ c.toNat ≤ 57 then some (c.toNat - 48) else none

/-- The number a run of digits denotes in `base`, as `u32::from_str_radix` reads it. -/
def digitsValue (base : Nat) (cs : List Char) : Nat :=
  cs.foldl (fun acc c => acc * base + (hexValue c).getD 0) 0

/-! ### Single digits -/

theorem hexValue_digitChar : ∀ d : Nat, d < 16 → hexValue (Nat.digitChar d) = some d
  | 0, _ | 1, _ | 2, _ | 3, _ | 4, _ | 5, _ | 6, _ | 7, _ | 8, _ | 9, _ | 10, _ | 11, _
  | 12, _ | 13, _ | 14, _ | 15, _ => by decide
  | _ + 16, small => absurd small (by omega)

theorem decValue_digitChar : ∀ d : Nat, d < 10 → decValue (Nat.digitChar d) = some d
  | 0, _ | 1, _ | 2, _ | 3, _ | 4, _ | 5, _ | 6, _ | 7, _ | 8, _ | 9, _ => by decide
  | _ + 10, small => absurd small (by omega)

theorem digitChar_ne_zero : ∀ d : Nat, 0 < d → d < 16 → Nat.digitChar d ≠ '0'
  | 1, _, _ | 2, _, _ | 3, _, _ | 4, _, _ | 5, _, _ | 6, _, _ | 7, _, _ | 8, _, _ | 9, _, _
  | 10, _, _ | 11, _, _ | 12, _, _ | 13, _, _ | 14, _, _ | 15, _, _ => by decide
  | 0, pos, _ => absurd pos (by omega)
  | _ + 16, _, small => absurd small (by omega)

/-! ### Printing -/

theorem div_lt_of_div_ne_zero {base n : Nat} (two : 2 ≤ base) (more : n / base ≠ 0) :
    n / base < n :=
  Nat.div_lt_self (Nat.pos_of_ne_zero fun zero => more (by rw [zero, Nat.zero_div])) (by omega)

theorem toDigitsCore_append (base : Nat) :
    ∀ (fuel n : Nat) (ds : List Char),
      Nat.toDigitsCore base fuel n ds = Nat.toDigitsCore base fuel n [] ++ ds
  | 0, _, _ => rfl
  | fuel + 1, n, ds => by
      simp only [Nat.toDigitsCore]
      split
      · rfl
      · rw [toDigitsCore_append base fuel _ (_ :: ds), toDigitsCore_append base fuel _ [_],
          List.append_assoc, List.singleton_append]

/-- Any fuel above the number prints the same digits. -/
theorem toDigitsCore_fuel {base : Nat} (two : 2 ≤ base) :
    ∀ (fuel fuel' n : Nat) (ds : List Char), n < fuel → n < fuel' →
      Nat.toDigitsCore base fuel n ds = Nat.toDigitsCore base fuel' n ds
  | 0, _, _, _, short, _ => absurd short (by omega)
  | _, 0, _, _, _, short => absurd short (by omega)
  | fuel + 1, fuel' + 1, n, ds, enough, enough' => by
      simp only [Nat.toDigitsCore]
      split
      · rfl
      · next more =>
          have smaller := div_lt_of_div_ne_zero two more
          exact toDigitsCore_fuel two fuel fuel' _ _ (by omega) (by omega)

/-- The last digit is printed after the digits of the quotient. -/
theorem toDigits_eq {base : Nat} (two : 2 ≤ base) (n : Nat) :
    Nat.toDigits base n =
      if n / base = 0 then [Nat.digitChar (n % base)]
      else Nat.toDigits base (n / base) ++ [Nat.digitChar (n % base)] := by
  have unfolded : Nat.toDigits base n = Nat.toDigitsCore base (n + 1) n [] := rfl
  rw [unfolded, Nat.toDigitsCore]
  split
  · rfl
  · next more =>
      rw [toDigitsCore_append,
        toDigitsCore_fuel two n (n / base + 1) _ _ (div_lt_of_div_ne_zero two more) (by omega)]
      rfl

theorem digitsValue_append_singleton (base : Nat) (cs : List Char) (c : Char) :
    digitsValue base (cs ++ [c]) = digitsValue base cs * base + (hexValue c).getD 0 := by
  simp [digitsValue, List.foldl_append]

/-- Reading the printed digits back gives the number. -/
theorem digitsValue_toDigits {base : Nat} (two : 2 ≤ base) (small : base ≤ 16) (n : Nat) :
    digitsValue base (Nat.toDigits base n) = n := by
  have last : hexValue (Nat.digitChar (n % base)) = some (n % base) :=
    hexValue_digitChar _ (by have := Nat.mod_lt n (show 0 < base by omega); omega)
  rw [toDigits_eq two]
  split
  · next single =>
      simp only [digitsValue, List.foldl_cons, List.foldl_nil, last, Option.getD_some]
      have := Nat.div_add_mod n base
      rw [single] at this
      omega
  · rw [digitsValue_append_singleton, digitsValue_toDigits two small (n / base), last,
      Option.getD_some, Nat.div_add_mod']
termination_by n
decreasing_by exact div_lt_of_div_ne_zero two (by assumption)

/-- Every printed character is the digit character of a digit below the base. -/
theorem mem_toDigits {base : Nat} (two : 2 ≤ base) {n : Nat} {c : Char}
    (member : c ∈ Nat.toDigits base n) : ∃ d < base, c = Nat.digitChar d := by
  rw [toDigits_eq two] at member
  split at member
  · exact ⟨n % base, Nat.mod_lt _ (by omega), List.mem_singleton.mp member⟩
  · rcases List.mem_append.mp member with earlier | last
    · exact mem_toDigits two earlier
    · exact ⟨n % base, Nat.mod_lt _ (by omega), List.mem_singleton.mp last⟩
termination_by n
decreasing_by exact div_lt_of_div_ne_zero two (by assumption)

/-- A positive number is printed without a leading zero. -/
theorem toDigits_head {base : Nat} (two : 2 ≤ base) {n : Nat} (pos : 0 < n) :
    ∃ d rest, 0 < d ∧ d < base ∧ Nat.toDigits base n = Nat.digitChar d :: rest := by
  rw [toDigits_eq two]
  split
  · next single =>
      have whole := Nat.div_add_mod n base
      have below := Nat.mod_lt n (show 0 < base by omega)
      rw [single] at whole
      exact ⟨n % base, [], by omega, below, rfl⟩
  · next more =>
      obtain ⟨d, rest, dPos, dSmall, eq⟩ := toDigits_head two (Nat.pos_of_ne_zero more)
      exact ⟨d, rest ++ [_], dPos, dSmall, by rw [eq, List.cons_append]⟩
termination_by n
decreasing_by exact div_lt_of_div_ne_zero two (by assumption)

theorem toDigits_ne_nil {base : Nat} (two : 2 ≤ base) (n : Nat) : Nat.toDigits base n ≠ [] := by
  rw [toDigits_eq two]
  split <;> simp

/-- A number below `base ^ k` takes at most `k` digits. -/
theorem length_toDigits_le {base : Nat} (two : 2 ≤ base) {n k : Nat} (below : n < base ^ k)
    (pos : 0 < k) : (Nat.toDigits base n).length ≤ k :=
  Nat.toDigitsCore_length base two (n + 1) n k below pos

end Webtor.Text
