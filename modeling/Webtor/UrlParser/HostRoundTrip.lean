/-
Module: Webtor.UrlParser.HostRoundTrip
Purpose: a host that `Host::parse` returns is printed (`host_str()`) as text that `Host::parse`
  reads back to the same host (`Host.parse_serialize`), and the printed text holds no character
  that ends the host, the userinfo or the authority early, so that the URL parser finds it again
  inside a printed URL (`Host.authorityChar_of_mem_serialize`, `Host.scanHost_serialize`).
Trusted boundary: the two laws of `Idna`.
Main exports: AuthorityChar, Host.Wellformed, Host.wellformed_of_parse,
  parseIpv4Number_toDigits, parseIpv4Addr_ipv4Serialize, Host.parse_serialize,
  Host.authorityChar_of_mem_serialize, Host.scanHost_serialize, afterLastAt_append
-/
import Webtor.Text.Search
import Webtor.UrlParser.Parse
import Webtor.UrlParser.Ipv6RoundTrip

namespace Webtor.UrlParser

open Webtor.Text

/-! ### The characters of a printed host -/

/-- A character that can stand in a printed authority without ending it early: visible, not
`@`, and not one of the characters that end the authority. -/
def AuthorityChar (c : Char) : Prop :=
  0x20 < c.toNat ∧ c ≠ '@' ∧ isSpecialAuthorityEnd c = false

instance : DecidablePred AuthorityChar := fun c =>
  inferInstanceAs (Decidable (0x20 < c.toNat ∧ c ≠ '@' ∧ isSpecialAuthorityEnd c = false))

/-- A character `Host::parse` allows in a domain ends nothing: it is visible, and neither `@`,
`:`, a bracket, `%` nor a character that ends the authority. -/
theorem allowed_of_not_forbidden {c : Char} (allowed : isForbiddenDomainChar c = false) :
    AuthorityChar c ∧ c ≠ ':' ∧ c ≠ '[' ∧ c ≠ ']' ∧ c ≠ '%' := by
  simp only [isForbiddenDomainChar, Bool.or_eq_false_iff, decide_eq_false_iff_not] at allowed
  refine ⟨⟨by omega, by tauto, ?_⟩, by tauto⟩
  simp only [isSpecialAuthorityEnd, Bool.or_eq_false_iff, decide_eq_false_iff_not]
  tauto

theorem allowed_of_any_eq_false {cs : List Char} (none : cs.any isForbiddenDomainChar = false) :
    ∀ c ∈ cs, isForbiddenDomainChar c = false := by
  simpa using none

theorem digitChar_allowed : ∀ d : Nat, d < 16 → isForbiddenDomainChar (Nat.digitChar d) = false
  | 0, _ | 1, _ | 2, _ | 3, _ | 4, _ | 5, _ | 6, _ | 7, _ | 8, _ | 9, _ | 10, _ | 11, _
  | 12, _ | 13, _ | 14, _ | 15, _ => by decide
  | _ + 16, small => absurd small (by omega)

theorem digitChar_isDigit : ∀ d : Nat, d < 10 → (Nat.digitChar d).isDigit ∧ Nat.digitChar d ≠ '.'
  | 0, _ | 1, _ | 2, _ | 3, _ | 4, _ | 5, _ | 6, _ | 7, _ | 8, _ | 9, _ => by decide
  | _ + 10, small => absurd small (by omega)

/-- Every character of a decimal number is an allowed digit. -/
theorem decimal_char {n : Nat} {c : Char} (member : c ∈ Nat.toDigits 10 n) :
    isForbiddenDomainChar c = false ∧ c.isDigit ∧ c ≠ '.' := by
  obtain ⟨d, small, rfl⟩ := mem_toDigits (by decide) member
  exact ⟨digitChar_allowed d (by omega), digitChar_isDigit d small⟩

/-- Every character of a printed IPv6 address is `:` or a hexadecimal digit. -/
theorem mem_writeIpv6 {pieces : List UInt16} {compress : Option (Nat × Nat)} {c : Char} :
    ∀ {fuel i : Nat}, c ∈ writeIpv6 pieces compress fuel i →
      c = ':' ∨ isForbiddenDomainChar c = false
  | 0, _, member => absurd member (List.not_mem_nil _)
  | fuel + 1, i, member => by
      have piece : ∀ j k, c ∈ ipv6Piece pieces j ++ writeIpv6 pieces compress fuel k →
          c = ':' ∨ isForbiddenDomainChar c = false := fun j k member => by
        rcases List.mem_append.mp member with inPiece | later
        · rcases List.mem_append.mp inPiece with digit | colon
          · obtain ⟨d, small, rfl⟩ := mem_toDigits (by decide) digit
            exact .inr (digitChar_allowed d small)
          · split at colon <;> simp_all
        · exact mem_writeIpv6 later
      simp only [writeIpv6] at member
      split at member
      · exact absurd member (List.not_mem_nil _)
      · split at member
        · split at member
          · rcases List.mem_append.mp member with start | rest
            · split at start <;> simp_all
            · split at rest
              · exact piece _ _ rest
              · exact absurd rest (List.not_mem_nil _)
          · exact piece _ _ member
        · exact piece _ _ member

/-- Every character of a printed IPv4 address is a decimal digit or a dot. -/
theorem ipv4Serialize_allowed (addr : UInt32) :
    ∀ c ∈ ipv4Serialize addr, isForbiddenDomainChar c = false ∧ (c.isDigit ∨ c = '.') := by
  intro c member
  simp only [ipv4Serialize, List.mem_append, List.mem_cons] at member
  rcases member with ((first | rfl | second) | rfl | third) | rfl | fourth <;>
    first
    | decide
    | exact ⟨(decimal_char ‹_›).1, .inl (decimal_char ‹_›).2.1⟩

/-! ### Well-formed hosts -/

/-- What `Host::parse` guarantees of the host it returns: a domain is a fixed point of IDNA, is
not empty, holds no forbidden character and does not end in a number. -/
def Host.Wellformed (idna : Idna) : Host → Prop
  | .domain name =>
      idna.domainToAscii name.data = some name.data ∧ name.data ≠ [] ∧
        name.data.any isForbiddenDomainChar = false ∧ endsInANumber name.data = false
  | .ipv4 _ => True
  | .ipv6 _ => True

theorem Host.wellformed_of_parseDomain {idna : Idna} {domain : List Char} {host : Host}
    (parsed : Host.parseDomain idna domain = .ok host) : host.Wellformed idna := by
  unfold Host.parseDomain at parsed
  split at parsed
  · cases parsed
  · next ascii mapped =>
      split at parsed
      · cases parsed
      rename_i nonempty
      split at parsed
      · cases parsed
      rename_i plain
      split at parsed
      · obtain ⟨addr, -, rfl⟩ := except_map_eq_ok.mp parsed
        trivial
      · rename_i notNumber
        cases parsed
        exact ⟨idna.idempotent _ _ mapped, nonempty, by simpa using plain,
          by simpa using notNumber⟩

/-- Every host `Host::parse` returns is well formed. -/
theorem Host.wellformed_of_parse {idna : Idna} {input : List Char} {host : Host}
    (parsed : Host.parse idna input = .ok host) : host.Wellformed idna := by
  unfold Host.parse at parsed
  split at parsed
  · split at parsed
    · obtain ⟨addr, -, rfl⟩ := except_map_eq_ok.mp parsed
      trivial
    · cases parsed
  · exact Host.wellformed_of_parseDomain parsed

/-- Every character of a printed well-formed host can stand in an authority. -/
theorem Host.authorityChar_of_mem_serialize {idna : Idna} {host : Host}
    (wellformed : host.Wellformed idna) {c : Char} (member : c ∈ host.serialize) :
    AuthorityChar c := by
  cases host with
  | domain name =>
      exact (allowed_of_not_forbidden (allowed_of_any_eq_false wellformed.2.2.1 c member)).1
  | ipv4 addr => exact (allowed_of_not_forbidden (ipv4Serialize_allowed addr c member).1).1
  | ipv6 addr =>
      simp only [Host.serialize, List.mem_cons, List.mem_append, List.not_mem_nil, or_false]
        at member
      rcases member with (rfl | inner) | rfl
      · decide
      · rcases mem_writeIpv6 inner with rfl | allowed
        · decide
        · exact (allowed_of_not_forbidden allowed).1
      · decide

/-! ### Finding the host in a printed authority -/

/-- `parse_userinfo` sees through text with no `@` and nothing that ends the authority. -/
theorem afterLastAt_append {front : List Char} (plain : ∀ c ∈ front, AuthorityChar c)
    (rest : List Char) : afterLastAt (front ++ rest) = afterLastAt rest := by
  induction front with
  | nil => rfl
  | cons c front ih =>
      have here := plain c (List.mem_cons_self _ _)
      rw [List.cons_append, afterLastAt, if_neg (by simp [here.2.2]),
        ih fun c member => plain c (List.mem_cons_of_mem _ member)]
      cases afterLastAt rest <;> simp [here.2.1]

theorem scanHost_append (inside : Bool) {front : List Char}
    (plain : ∀ c ∈ front, (c = ':' → inside = true) ∧ isSpecialAuthorityEnd c = false ∧
      c ≠ '[' ∧ c ≠ ']') (rest : List Char) :
    scanHost inside (front ++ rest) =
      (front ++ (scanHost inside rest).1, (scanHost inside rest).2) := by
  induction front with
  | nil => rfl
  | cons c front ih =>
      obtain ⟨colon, notEnd, notOpen, notClose⟩ := plain c (List.mem_cons_self _ _)
      have continues : ((c = ':' && !inside) || isSpecialAuthorityEnd c) = false := by
        cases inside <;> simp_all
      rw [List.cons_append, scanHost, if_neg (by simp only [continues]; decide),
        if_neg notOpen, if_neg notClose, ih fun c member => plain c (List.mem_cons_of_mem _ member)]
      rfl

theorem scanHost_stop (inside : Bool) {c : Char}
    (stop : (c = ':' ∧ inside = false) ∨ isSpecialAuthorityEnd c = true) (rest : List Char) :
    scanHost inside (c :: rest) = ([], c :: rest) := by
  rw [scanHost, if_pos]
  rcases stop with ⟨rfl, rfl⟩ | stop <;> simp [*]

/-- The scan of `parse_host` reads a text of allowed domain characters up to a `:` or a
character that ends the authority. -/
theorem scanHost_allowed {front : List Char}
    (allowed : ∀ c ∈ front, isForbiddenDomainChar c = false) {c : Char}
    (stop : c = ':' ∨ isSpecialAuthorityEnd c = true) (rest : List Char) :
    scanHost false (front ++ c :: rest) = (front, c :: rest) := by
  rw [scanHost_append false (fun c member => by
      obtain ⟨⟨-, -, notEnd⟩, notColon, notOpen, notClose, -⟩ :=
        allowed_of_not_forbidden (allowed c member)
      exact ⟨fun colon => absurd colon notColon, notEnd, notOpen, notClose⟩),
    scanHost_stop false (by tauto) rest, List.append_nil]

/-- The scan of `parse_host` stops right after a printed well-formed host, at a `:` or at a
character that ends the authority. -/
theorem Host.scanHost_serialize {idna : Idna} {host : Host} (wellformed : host.Wellformed idna)
    {c : Char} (stop : c = ':' ∨ isSpecialAuthorityEnd c = true) (rest : List Char) :
    scanHost false (host.serialize ++ c :: rest) = (host.serialize, c :: rest) := by
  cases host with
  | domain name => exact scanHost_allowed (allowed_of_any_eq_false wellformed.2.2.1) stop rest
  | ipv4 addr =>
      exact scanHost_allowed (fun c member => (ipv4Serialize_allowed addr c member).1) stop rest
  | ipv6 addr =>
      have inner : ∀ c ∈ ipv6Serialize addr, (c = ':' → true = true) ∧
          isSpecialAuthorityEnd c = false ∧ c ≠ '[' ∧ c ≠ ']' := by
        intro c member
        rcases mem_writeIpv6 member with rfl | allowed
        · decide
        · obtain ⟨⟨-, -, notEnd⟩, -, notOpen, notClose, -⟩ := allowed_of_not_forbidden allowed
          exact ⟨fun _ => rfl, notEnd, notOpen, notClose⟩
      simp only [Host.serialize, List.cons_append, List.append_assoc, List.singleton_append]
      rw [scanHost.eq_2, if_neg (by decide), if_pos rfl]
      dsimp only
      rw [scanHost_append true inner, scanHost.eq_2, if_neg (by decide), if_neg (by decide),
        if_pos rfl]
      dsimp only
      rw [List.nil_append, scanHost_stop false (by tauto) rest]

/-! ### Reading a printed host back -/

theorem percentDecodeLoop_of_not_mem :
    ∀ (fuel : Nat) (bytes : List UInt8), 37 ∉ bytes → percentDecodeLoop fuel bytes = bytes
  | 0, _, _ => rfl
  | _ + 1, [], _ => rfl
  | fuel + 1, b :: rest, absent => by
      have notPercent : b ≠ 37 := fun same => absent (same ▸ List.mem_cons_self _ _)
      rw [percentDecodeLoop.eq_def]
      dsimp only
      rw [if_neg notPercent,
        percentDecodeLoop_of_not_mem fuel rest fun member => absent (List.mem_cons_of_mem _ member)]

/-- A text without `%` is its own percent-decoding: no byte of another character is `%`. -/
theorem percentDecode_encodeChars {cs : List Char} (absent : '%' ∉ cs) :
    fromUtf8Lossy (percentDecode (encodeChars cs)) = cs := by
  rw [percentDecode, percentDecodeLoop_of_not_mem _ _ fun member => ?_, fromUtf8Lossy_encodeChars]
  obtain ⟨c, charMember, byteMember⟩ := List.mem_flatMap.mp member
  by_cases ascii : c.toNat < 0x80
  · rw [encodeUtf8_of_lt ascii, List.mem_singleton] at byteMember
    have same : c.toNat = 37 := by
      have := congrArg UInt8.toNat byteMember
      rw [toNat_toUInt8 (by omega)] at this
      exact this.symm
    exact absent (Char.eq_of_toNat_eq (c := c) (d := '%') same ▸ charMember)
  · exact absurd (le_of_mem_encodeUtf8 (by omega) byteMember) (by decide)

/-- `Host::parse` reads a text of allowed domain characters as a domain, which percent-decoding
leaves as it is. -/
theorem Host.parse_allowed (idna : Idna) {text : List Char} (nonempty : text ≠ [])
    (allowed : ∀ c ∈ text, isForbiddenDomainChar c = false) :
    Host.parse idna text = Host.parseDomain idna text := by
  obtain ⟨c, rest, rfl⟩ := List.exists_cons_of_ne_nil nonempty
  have notOpen := (allowed_of_not_forbidden (allowed c (List.mem_cons_self _ _))).2.2.1
  unfold Host.parse
  split
  · next same => exact absurd (List.cons.inj same).1 notOpen
  · rw [percentDecode_encodeChars fun member =>
      (allowed_of_not_forbidden (allowed _ member)).2.2.2.2 rfl]

/-- `parse_ipv4number` reads back a number printed in decimal. -/
theorem parseIpv4Number_toDigits {n : Nat} (small : n < 2 ^ 32) :
    parseIpv4Number (Nat.toDigits 10 n) = some (some n) := by
  rcases Nat.eq_zero_or_pos n with rfl | pos
  · decide
  obtain ⟨d, rest, dPos, dSmall, text⟩ := toDigits_head (show 2 ≤ 10 by decide) pos
  have radixDigits : (Nat.toDigits 10 n).all (isRadixDigit 10) := by
    refine List.all_eq_true.mpr fun c member => ?_
    obtain ⟨e, eSmall, rfl⟩ := mem_toDigits (show 2 ≤ 10 by decide) member
    rw [isRadixDigit, hexValue_digitChar e (by omega)]
    exact decide_eq_true eSmall
  have value := digitsValue_toDigits (show 2 ≤ 10 by decide) (by decide) n
  have notZero := digitChar_ne_zero d dPos (by omega)
  have radixTen : ipv4Radix (Nat.toDigits 10 n) = (Nat.toDigits 10 n, 10) := by
    rw [text, ipv4Radix.eq_def]
    split <;> simp_all
  unfold parseIpv4Number
  rw [if_neg (toDigits_ne_nil (by decide) n), radixTen]
  dsimp only
  rw [if_neg (toDigits_ne_nil (by decide) n), if_pos radixDigits, value, if_pos small]

/-- A printed IPv4 address is four decimal numbers joined by dots. -/
theorem splitChars_ipv4Serialize (addr : UInt32) :
    splitChars '.' (ipv4Serialize addr) =
      [Nat.toDigits 10 (addr.toNat / 2 ^ 24 % 256), Nat.toDigits 10 (addr.toNat / 2 ^ 16 % 256),
        Nat.toDigits 10 (addr.toNat / 2 ^ 8 % 256), Nat.toDigits 10 (addr.toNat % 256)] := by
  have noDot : ∀ n, '.' ∉ Nat.toDigits 10 n := fun n member => (decimal_char member).2.2 rfl
  rw [ipv4Serialize, List.append_assoc, List.append_assoc, List.cons_append, List.cons_append,
    splitChars_append_sep (noDot _), splitChars_append_sep (noDot _),
    splitChars_append_sep (noDot _), splitChars_of_not_mem (noDot _)]

/-- `parse_ipv4addr` reads back every printed IPv4 address. -/
theorem parseIpv4Addr_ipv4Serialize (addr : UInt32) :
    parseIpv4Addr (ipv4Serialize addr) = .ok addr := by
  have below : addr.toNat < 2 ^ 32 := addr.val.isLt
  have octet : ∀ n, n % 256 < 2 ^ 32 := fun n => by omega
  simp only [parseIpv4Addr, splitChars_ipv4Serialize, List.getLast?_cons_cons,
    List.getLast?_singleton, Option.some.injEq, List.length_cons, List.length_nil]
  rw [if_neg (toDigits_ne_nil (by decide) _)]
  simp only [List.mapM_cons, List.mapM_nil, parseIpv4Number_toDigits (octet _), bind, Except.bind,
    pure, Except.pure, List.reverse_cons, List.reverse_nil, List.nil_append, List.cons_append,
    List.singleton_append, List.length_cons, List.length_nil, List.any_cons, List.any_nil,
    List.reverse_cons, ipv4Combine]
  rw [if_neg (by omega), if_neg (by norm_num; omega), if_neg (by simp; omega)]
  congr 1
  apply UInt32.toNat.inj
  rw [Nat.toUInt32, UInt32.toNat_ofNat_of_lt] <;> norm_num [UInt32.size] at below ⊢ <;> omega

/-- IDNA leaves a printed IPv4 address as it is, and it ends in a number. -/
theorem parseDomain_ipv4Serialize (idna : Idna) (addr : UInt32) :
    Host.parseDomain idna (ipv4Serialize addr) = .ok (.ipv4 addr) := by
  have allowed := ipv4Serialize_allowed addr
  have nonempty : ipv4Serialize addr ≠ [] := by simp [ipv4Serialize]
  have number : endsInANumber (ipv4Serialize addr) = true := by
    obtain ⟨c, cs, text⟩ := List.exists_cons_of_ne_nil
      (toDigits_ne_nil (show 2 ≤ 10 by decide) (addr.toNat % 256))
    have digits : (Nat.toDigits 10 (addr.toNat % 256)).all Char.isDigit :=
      List.all_eq_true.mpr fun c member => (decimal_char member).2.1
    rw [endsInANumber, splitChars_ipv4Serialize]
    simp only [List.reverse_cons, List.reverse_nil, List.nil_append, List.cons_append,
      List.singleton_append]
    rw [text] at digits ⊢
    simp [digits]
  unfold Host.parseDomain
  rw [idna.keepsDigits _ nonempty fun c member => (allowed c member).2]
  dsimp only
  rw [if_neg nonempty, if_neg (by simpa using fun c member => (allowed c member).1), if_pos number,
    parseIpv4Addr_ipv4Serialize]
  rfl

/-- `Host::parse` reads a printed well-formed host back to the same host. -/
theorem Host.parse_serialize {idna : Idna} {host : Host} (wellformed : host.Wellformed idna) :
    Host.parse idna host.serialize = .ok host := by
  cases host with
  | domain name =>
      obtain ⟨fixed, nonempty, plain, notNumber⟩ := wellformed
      rw [Host.serialize, Host.parse_allowed idna nonempty (allowed_of_any_eq_false plain),
        Host.parseDomain, fixed]
      dsimp only
      rw [if_neg nonempty, if_neg (by simp [plain]), if_neg (by simp [notNumber])]
  | ipv4 addr =>
      rw [Host.serialize, Host.parse_allowed idna (by simp [ipv4Serialize])
        fun c member => (ipv4Serialize_allowed addr c member).1, parseDomain_ipv4Serialize]
  | ipv6 addr =>
      rw [Host.serialize, List.cons_append, Host.parse,
        if_pos (by rw [← List.cons_append, List.getLast?_concat]), List.dropLast_concat,
        parseIpv6Addr_ipv6Serialize]
      rfl

end Webtor.UrlParser
