/-
Module: Webtor.UrlParser.Reparse
Purpose: what `Url::parse` guarantees of a special URL it returns (`SpecialUrl`: a well-formed
  host, a port only when it differs from the scheme's default, and a nonempty path of segments
  that `parse_path` keeps as they are), and that such a URL, printed as
  `scheme://host[:port]path` under any special scheme with the same default port, is read back
  by `Url::parse` to the same URL with that scheme (`Url.parse_reprint`).
Trusted boundary: the two laws of `Idna`.
Main exports: isPathChar, NormalSegment, SpecialUrl, portSuffix, specialUrl_of_parseSpecial,
  Url.parse_special, parsePath_segments, parsePort_decimal, preprocess_of_visible,
  parseSpecial_reprint, Url.parse_reprint
-/
import Webtor.UrlParser.HostRoundTrip

namespace Webtor.UrlParser

open Webtor.Text

/-! ### Path segments -/

/-- A character `parse_path` keeps as it is inside a segment: ASCII, outside the `PATH` set,
and not a segment separator. -/
def isPathChar (c : Char) : Bool :=
  c.toNat < 0x80 && !inPathSet c && c != '/' && c.toNat != 0x5C

/-- A segment `parse_path` reads back as itself: path characters only, and no spelling of a
dot segment. -/
def NormalSegment (seg : String) : Prop :=
  seg.data.all isPathChar = true ∧
    (doubleDotSegments.any (·.data = seg.data) || singleDotSegments.any (·.data = seg.data)) = false

instance : DecidablePred NormalSegment := fun seg =>
  inferInstanceAs (Decidable (seg.data.all isPathChar = true ∧
    (doubleDotSegments.any (·.data = seg.data) || singleDotSegments.any (·.data = seg.data)) =
      false))

theorem upperHexDigit_isPathChar : ∀ n : Nat, n < 16 → isPathChar (upperHexDigit n) = true
  | 0, _ | 1, _ | 2, _ | 3, _ | 4, _ | 5, _ | 6, _ | 7, _ | 8, _ | 9, _ | 10, _ | 11, _
  | 12, _ | 13, _ | 14, _ | 15, _ => by decide
  | _ + 16, small => absurd small (by omega)

/-- Percent-encoding a character that is not a separator gives path characters only. -/
theorem isPathChar_of_mem_percentEncodePath {c x : Char} (notSlash : c ≠ '/')
    (notBackslash : c.toNat ≠ 0x5C) (member : x ∈ percentEncodePath c) : isPathChar x = true := by
  unfold percentEncodePath at member
  split at member
  · next kept =>
      rw [List.mem_singleton.mp member]
      simp only [Bool.and_eq_true, decide_eq_true_eq, Bool.not_eq_true'] at kept
      simp [isPathChar, kept, notSlash, notBackslash]
  · obtain ⟨b, -, encoded⟩ := List.mem_flatMap.mp member
    have low : b.toNat < 256 := b.val.isLt
    simp only [List.mem_cons, List.not_mem_nil, or_false] at encoded
    rcases encoded with rfl | rfl | rfl
    · decide
    · exact upperHexDigit_isPathChar _ (by omega)
    · exact upperHexDigit_isPathChar _ (by omega)

theorem normalSegment_empty : NormalSegment "" := by decide

/-- The end of a segment appends at most one normal segment, and nothing else. -/
theorem finishSegment_normal {path : List String} {buffer : List Char} (slash : Bool)
    (normal : ∀ seg ∈ path, NormalSegment seg) (chars : buffer.all isPathChar = true) :
    ∀ seg ∈ finishSegment path buffer slash, NormalSegment seg := by
  have dropped : ∀ seg ∈ path.dropLast, NormalSegment seg :=
    fun seg member => normal seg (List.dropLast_subset _ member)
  intro seg member
  unfold finishSegment at member
  split at member
  · split at member
    · exact dropped seg member
    · rcases List.mem_append.mp member with kept | added
      · exact dropped seg kept
      · rw [List.mem_singleton.mp added]; exact normalSegment_empty
  · split at member
    · split at member
      · exact normal seg member
      · rcases List.mem_append.mp member with kept | added
        · exact normal seg kept
        · rw [List.mem_singleton.mp added]; exact normalSegment_empty
    · next notDouble =>
        rcases List.mem_append.mp member with kept | added
        · exact normal seg kept
        · rw [List.mem_singleton.mp added]
          exact ⟨chars, by simp_all⟩

theorem finishSegment_ne_nil (path : List String) (buffer : List Char) :
    finishSegment path buffer false ≠ [] := by
  unfold finishSegment
  split <;> split <;> simp_all

/-- Every path `parse_path` returns is a nonempty list of normal segments. -/
theorem parsePath_normal :
    ∀ (input : List Char) (path : List String) (buffer : List Char),
      (∀ seg ∈ path, NormalSegment seg) → buffer.all isPathChar = true →
      parsePath path buffer input ≠ [] ∧ ∀ seg ∈ parsePath path buffer input, NormalSegment seg
  | [], path, buffer, normal, chars =>
      ⟨finishSegment_ne_nil path buffer, finishSegment_normal false normal chars⟩
  | c :: rest, path, buffer, normal, chars => by
      rw [parsePath]
      split
      · exact parsePath_normal rest _ [] (finishSegment_normal true normal chars) rfl
      · split
        · exact ⟨finishSegment_ne_nil path buffer, finishSegment_normal false normal chars⟩
        · next separator _ =>
            simp only [Bool.or_eq_true, decide_eq_true_eq, not_or] at separator
            refine parsePath_normal rest path _ normal ?_
            rw [List.all_append, chars, Bool.true_and]
            exact List.all_eq_true.mpr fun x member =>
              isPathChar_of_mem_percentEncodePath separator.1 separator.2 member

/-- `parse_path` copies path characters into the current segment. -/
theorem parsePath_pathChars (path : List String) :
    ∀ (cs buffer more : List Char), cs.all isPathChar = true →
      parsePath path buffer (cs ++ more) = parsePath path (buffer ++ cs) more
  | [], buffer, more, _ => by rw [List.nil_append, List.append_nil]
  | c :: cs, buffer, more, chars => by
      simp only [List.all_cons, Bool.and_eq_true] at chars
      have plain := chars.1
      simp only [isPathChar, Bool.and_eq_true, decide_eq_true_eq, Bool.not_eq_true',
        bne_iff_ne, ne_eq] at plain
      have kept : percentEncodePath c = [c] := by
        simp [percentEncodePath, plain.1.1.1, plain.1.1.2]
      have notQuery : ¬(c = '?' ∨ c = '#') := by
        rintro (rfl | rfl) <;> simp [inPathSet] at plain
      rw [List.cons_append, parsePath, if_neg (by simpa using ⟨plain.1.2, plain.2⟩),
        if_neg (by simpa using notQuery), kept, parsePath_pathChars path cs _ more chars.2,
        List.append_assoc, List.singleton_append]

/-- A normal segment ends as itself. -/
theorem finishSegment_of_normal {seg : String} (normal : NormalSegment seg) (path : List String)
    (slash : Bool) : finishSegment path seg.data slash = path ++ [seg] := by
  have notDot := normal.2
  simp only [Bool.or_eq_false_iff] at notDot
  rw [finishSegment, if_neg (by simp [notDot.1]), if_neg (by simp [notDot.2])]

/-- `parse_path` reads printed normal segments back. -/
theorem parsePath_segments (path : List String) :
    ∀ (seg : String) (more : List String), NormalSegment seg → (∀ s ∈ more, NormalSegment s) →
      parsePath path [] (seg.data ++ more.flatMap fun s => '/' :: s.data) = path ++ seg :: more
  | seg, [], normal, _ => by
      rw [List.flatMap_nil, parsePath_pathChars path _ [] [] normal.1, List.nil_append, parsePath,
        finishSegment_of_normal normal]
  | seg, next :: more, normal, rest => by
      rw [List.flatMap_cons, parsePath_pathChars path _ [] _ normal.1, List.nil_append,
        List.cons_append, parsePath, if_pos (by decide), finishSegment_of_normal normal,
        parsePath_segments _ next more (rest next (List.mem_cons_self _ _))
          (fun s member => rest s (List.mem_cons_of_mem _ member)),
        List.append_assoc, List.singleton_append]

/-! ### The port -/

theorem parsePort_ne_default {default : Option UInt16} :
    ∀ {input : List Char} {port : Nat} {hasDigit : Bool} {p : UInt16} {rest : List Char},
      parsePort default port hasDigit input = .ok (some p, rest) → some p ≠ default
  | [], port, hasDigit, p, rest, parsed => by
      simp only [parsePort, Except.ok.injEq, Prod.mk.injEq] at parsed
      split at parsed <;> simp_all
  | c :: cs, port, hasDigit, p, rest, parsed => by
      simp only [parsePort] at parsed
      split at parsed
      · split at parsed
        · cases parsed
        · exact parsePort_ne_default parsed
      · split at parsed
        · simp only [Except.ok.injEq, Prod.mk.injEq] at parsed
          split at parsed <;> simp_all
        · cases parsed

theorem le_foldl_digits (ds : List Char) (port : Nat) :
    port ≤ ds.foldl (fun acc x => acc * 10 + (hexValue x).getD 0) port := by
  induction ds generalizing port with
  | nil => exact le_refl _
  | cons x ds ih =>
      rw [List.foldl_cons]
      exact le_trans (by omega : port ≤ port * 10 + (hexValue x).getD 0) (ih _)

/-- `parse_port` reads decimal digits up to the end of the authority. -/
theorem parsePort_digits (default : Option UInt16) {c : Char} (stop : decValue c = none)
    (rest : List Char) :
    ∀ (ds : List Char) (port : Nat) (hasDigit : Bool), (∀ x ∈ ds, ∃ d < 10, x = Nat.digitChar d) →
      ds.foldl (fun acc x => acc * 10 + (hexValue x).getD 0) port ≤ 65535 →
      parsePort default port hasDigit (ds ++ c :: rest) =
        parsePort default (ds.foldl (fun acc x => acc * 10 + (hexValue x).getD 0) port)
          (hasDigit || !ds.isEmpty) (c :: rest)
  | [], port, hasDigit, _, _ => by simp
  | x :: ds, port, hasDigit, digits, fits => by
      obtain ⟨d, small, rfl⟩ := digits x (List.mem_cons_self _ _)
      rw [List.foldl_cons, hexValue_digitChar d (by omega), Option.getD_some] at fits ⊢
      have bounded := le_trans (le_foldl_digits ds (port * 10 + d)) fits
      rw [List.cons_append, parsePort, decValue_digitChar d small]
      dsimp only
      rw [if_neg (by omega), parsePort_digits default stop rest ds _ true
        (fun y member => digits y (List.mem_cons_of_mem _ member)) fits]
      simp

/-- `parse_port` reads back a port printed in decimal, and drops it when it is the default. -/
theorem parsePort_decimal (default : Option UInt16) (p : UInt16) {c : Char}
    (stop : isSpecialAuthorityEnd c = true) (rest : List Char) :
    parsePort default 0 false (Nat.toDigits 10 p.toNat ++ c :: rest) =
      .ok (if some p = default then none else some p, c :: rest) := by
  have notDigit : decValue c = none := by
    simp only [isSpecialAuthorityEnd, Bool.or_eq_true, decide_eq_true_eq] at stop
    rcases stop with ((rfl | rfl) | rfl) | backslash
    any_goals rfl
    simp [decValue, backslash]
  have value := digitsValue_toDigits (show 2 ≤ 10 by decide) (by decide) p.toNat
  rw [digitsValue] at value
  rw [parsePort_digits default notDigit rest _ 0 false
      (fun x member => mem_toDigits (by decide) member)
      (by rw [value]; exact Nat.le_of_lt_succ (uint16_toNat_lt p)),
    value, Bool.false_or, parsePort, notDigit]
  dsimp only
  rw [if_pos stop, toUInt16_toNat,
    List.isEmpty_eq_false.mpr (toDigits_ne_nil (show 2 ≤ 10 by decide) _)]
  simp

/-! ### The shape of a parsed special URL -/

/-- What `Url::parse` guarantees of a URL with a special scheme: a well-formed host, a port
only when it is not the scheme's default, and a nonempty path of normal segments. -/
structure SpecialUrl (idna : Idna) (url : Url) : Prop where
  host : ∃ host, url.host = some host ∧ host.Wellformed idna
  port : ∀ p, url.port = some p → some p ≠ defaultPort url.scheme
  path : ∃ seg more, url.path = .segments (seg :: more) ∧ NormalSegment seg ∧
    ∀ s ∈ more, NormalSegment s

theorem parsePortAfterHost_ne_default {scheme : String} {afterHost rest : List Char}
    {p : UInt16} (parsed : parsePortAfterHost scheme afterHost = .ok (some p, rest)) :
    some p ≠ defaultPort scheme := by
  unfold parsePortAfterHost at parsed
  split at parsed
  · exact parsePort_ne_default parsed
  · cases parsed

/-- Every URL `parse_special` returns has the scheme it was given and the shape of a special
URL. -/
theorem specialUrl_of_parseSpecial {idna : Idna} {scheme : String} {input : List Char}
    {url : Url} (parsed : parseSpecial idna scheme input = .ok url) :
    url.scheme = scheme ∧ SpecialUrl idna url := by
  unfold parseSpecial at parsed
  generalize scanHost false (specialAuthority input) = scanned at parsed
  obtain ⟨hostText, afterHost⟩ := scanned
  dsimp only at parsed
  split at parsed
  · cases parsed
  obtain ⟨host, hostParsed, parsed⟩ := except_bind_eq_ok.mp parsed
  obtain ⟨⟨port, afterPort⟩, portParsed, parsed⟩ := except_bind_eq_ok.mp parsed
  cases parsed
  obtain ⟨nonempty, normal⟩ := parsePath_normal (pathStart afterPort) [] []
    (fun _ member => absurd member (List.not_mem_nil _)) rfl
  obtain ⟨seg, more, segs⟩ := List.exists_cons_of_ne_nil nonempty
  refine ⟨rfl, ⟨host, rfl, Host.wellformed_of_parse hostParsed⟩, fun p portSome => ?_,
    ⟨seg, more, by rw [segs], normal seg (by rw [segs]; exact List.mem_cons_self _ _),
      fun s member => normal s (by rw [segs]; exact List.mem_cons_of_mem _ member)⟩⟩
  cases portSome
  exact parsePortAfterHost_ne_default portParsed

/-- A URL `Url::parse` returns with a special scheme comes from `parse_special`. -/
theorem Url.parse_special {idna : Idna} {otherSchemes : String → List Char → Except ParseError Url}
    {input : String} {url : Url} (parsed : Url.parse idna otherSchemes input = .ok url)
    (special : SchemeType.ofScheme url.scheme = .specialNotFile) :
    SpecialUrl idna url := by
  unfold Url.parse at parsed
  split at parsed
  · cases parsed
  · split at parsed
    · exact (specialUrl_of_parseSpecial parsed).2
    · next scheme rest kind notSpecial =>
        obtain ⟨other, -, rfl⟩ := except_map_eq_ok.mp parsed
        exact absurd special notSpecial

/-! ### Reading a printed special URL back -/

/-- `:` and the port in decimal, as `to_wss_url` writes a port; nothing when there is none. -/
def portSuffix : Option UInt16 → List Char
  | some p => ':' :: Nat.toDigits 10 p.toNat
  | none => []

theorem authorityChar_of_mem_portSuffix {port : Option UInt16} {c : Char}
    (member : c ∈ portSuffix port) : AuthorityChar c := by
  cases port with
  | none => exact absurd member (List.not_mem_nil _)
  | some p =>
      rcases List.mem_cons.mp member with rfl | digit
      · decide
      · exact (allowed_of_not_forbidden (decimal_char digit).1).1

theorem dropWhile_slashes {front : List Char} (nonempty : front ≠ [])
    (plain : ∀ c ∈ front, AuthorityChar c) (rest : List Char) :
    ('/' :: '/' :: (front ++ rest)).dropWhile (fun c => c = '/' || c.toNat = 0x5C) =
      front ++ rest := by
  obtain ⟨c, cs, rfl⟩ := List.exists_cons_of_ne_nil nonempty
  have notEnd := (plain c (List.mem_cons_self _ _)).2.2
  simp only [isSpecialAuthorityEnd, Bool.or_eq_false_iff, decide_eq_false_iff_not] at notEnd
  simp [List.dropWhile, notEnd.1.1.1, notEnd.2]

/-- `parse_special` reads back a special URL printed as `//host[:port]path`, under any scheme
with the same default port. -/
theorem parseSpecial_reprint {idna : Idna} {url : Url} (shape : SpecialUrl idna url)
    {host : Host} (hostSome : url.host = some host) (scheme : String)
    (sameDefault : defaultPort scheme = defaultPort url.scheme) :
    parseSpecial idna scheme
        ('/' :: '/' :: (host.serialize ++ portSuffix url.port ++ url.path.serialize)) =
      .ok { url with scheme := scheme } := by
  obtain ⟨host', hostSome', wellformed⟩ := shape.host
  rw [hostSome] at hostSome'
  cases hostSome'
  obtain ⟨seg, more, pathSegs, segNormal, moreNormal⟩ := shape.path
  have pathText : url.path.serialize =
      '/' :: (seg.data ++ more.flatMap fun s => '/' :: s.data) := by
    rw [pathSegs, UrlPath.serialize, List.flatMap_cons, List.cons_append]
  have nonempty : host.serialize ≠ [] := by
    cases host <;> simp [Host.serialize, ipv4Serialize]
    exact wellformed.2.1
  have hostChars c (member : c ∈ host.serialize) :=
    Host.authorityChar_of_mem_serialize wellformed member
  have authority : specialAuthority
      ('/' :: '/' :: (host.serialize ++ (portSuffix url.port ++ url.path.serialize))) =
        host.serialize ++ (portSuffix url.port ++ url.path.serialize) := by
    rw [specialAuthority, dropWhile_slashes nonempty hostChars, afterLastAt_append hostChars,
      afterLastAt_append fun c member => authorityChar_of_mem_portSuffix member, pathText,
      afterLastAt, if_pos (by decide)]
    rfl
  have scanned : scanHost false (host.serialize ++ (portSuffix url.port ++ url.path.serialize)) =
      (host.serialize, portSuffix url.port ++ url.path.serialize) := by
    cases url.port with
    | none => rw [portSuffix, List.nil_append, pathText, Host.scanHost_serialize wellformed
        (.inr (by decide))]
    | some p => rw [portSuffix, List.cons_append, Host.scanHost_serialize wellformed (.inl rfl)]
  have portRead : parsePortAfterHost scheme (portSuffix url.port ++ url.path.serialize) =
      .ok (url.port, url.path.serialize) := by
    cases portSome : url.port with
    | none => rw [portSuffix, List.nil_append, pathText]; rfl
    | some p =>
        rw [portSuffix, List.cons_append, parsePortAfterHost, pathText,
          parsePort_decimal _ p (by decide),
          if_neg (by rw [sameDefault]; exact shape.port p portSome)]
  unfold parseSpecial
  rw [List.append_assoc, authority, scanned]
  dsimp only
  rw [if_neg nonempty]
  simp only [bind, Except.bind, Host.parse_serialize wellformed, portRead, pure, Except.pure]
  rw [pathText, pathStart, if_pos (by decide), parsePath_segments [] seg more segNormal moreNormal,
    List.nil_append, ← pathSegs, ← hostSome]

/-! ### The whole printed URL -/

/-- A path character is visible: the controls and the space are in the `PATH` set. -/
theorem visible_of_isPathChar {c : Char} (kept : isPathChar c = true) : 0x20 < c.toNat := by
  rcases Nat.lt_or_ge 0x20 c.toNat with visible | low
  · exact visible
  · have encoded : inPathSet c = true := by
      rcases Nat.lt_or_eq_of_le low with below | space
      · simp [inPathSet, below]
      · simp [inPathSet, Char.eq_of_toNat_eq (d := ' ') space]
    simp [isPathChar, encoded] at kept

theorem mem_path_serialize {idna : Idna} {url : Url} (shape : SpecialUrl idna url) {c : Char}
    (member : c ∈ url.path.serialize) : c = '/' ∨ isPathChar c = true := by
  obtain ⟨seg, more, pathSegs, segNormal, moreNormal⟩ := shape.path
  rw [pathSegs, UrlPath.serialize] at member
  obtain ⟨s, segMember, charMember⟩ := List.mem_flatMap.mp member
  rcases List.mem_cons.mp charMember with slash | kept
  · exact .inl slash
  · have normal : NormalSegment s := by
      rcases List.mem_cons.mp segMember with rfl | later
      · exact segNormal
      · exact moreNormal s later
    exact .inr (List.all_eq_true.mp normal.1 c kept)

theorem dropWhile_of_forall_not {p : Char → Bool} {cs : List Char}
    (none : ∀ c ∈ cs, p c = false) : cs.dropWhile p = cs := by
  cases cs with
  | nil => rfl
  | cons c cs => simp [List.dropWhile, none c (List.mem_cons_self _ _)]

/-- `Input::new` leaves visible text as it is. -/
theorem preprocess_of_visible {input : String} (visible : ∀ c ∈ input.data, 0x20 < c.toNat) :
    preprocess input = input.data := by
  have notControl : ∀ c ∈ input.data, isC0ControlOrSpace c = false := fun c member => by
    simp only [isC0ControlOrSpace, decide_eq_false_iff_not, Nat.not_le]
    exact visible c member
  rw [preprocess, dropWhile_of_forall_not notControl,
    dropWhile_of_forall_not fun c member => notControl c (List.mem_reverse.mp member),
    List.reverse_reverse, List.filter_eq_self]
  intro c member
  have := visible c member
  simp only [isAsciiTabOrNewline, Bool.not_eq_true', Bool.or_eq_false_iff, decide_eq_false_iff_not]
  refine ⟨⟨?_, ?_⟩, ?_⟩ <;> rintro rfl <;> simp at this

theorem parseScheme_ws {scheme : String} (ws : scheme = "wss" ∨ scheme = "ws") (rest : List Char) :
    parseScheme (scheme.data ++ ':' :: rest) = some (scheme, rest) := by
  rcases ws with rfl | rfl <;> rfl

/-- `Url::parse` reads back a special URL printed as `scheme://host[:port]path` under `ws` or
`wss`, when that scheme has the same default port. -/
theorem Url.parse_reprint {idna : Idna}
    {otherSchemes : String → List Char → Except ParseError Url} {url : Url}
    (shape : SpecialUrl idna url) {host : Host} (hostSome : url.host = some host)
    {scheme : String} (ws : scheme = "wss" ∨ scheme = "ws")
    (sameDefault : defaultPort scheme = defaultPort url.scheme) :
    Url.parse idna otherSchemes
        ⟨scheme.data ++ ':' :: '/' :: '/' ::
          (host.serialize ++ portSuffix url.port ++ url.path.serialize)⟩ =
      .ok { url with scheme := scheme } := by
  obtain ⟨host', hostSome', wellformed⟩ := shape.host
  rw [hostSome] at hostSome'
  cases hostSome'
  have visible : ∀ c ∈ scheme.data ++ ':' :: '/' :: '/' ::
      (host.serialize ++ portSuffix url.port ++ url.path.serialize), 0x20 < c.toNat := by
    intro c member
    simp only [List.mem_append, List.mem_cons] at member
    rcases member with schemeChar | rfl | rfl | rfl | (hostChar | portChar) | pathChar
    · rcases ws with rfl | rfl <;> revert c <;> decide
    · decide
    · decide
    · decide
    · exact (Host.authorityChar_of_mem_serialize wellformed hostChar).1
    · exact (authorityChar_of_mem_portSuffix portChar).1
    · rcases mem_path_serialize shape pathChar with rfl | kept
      · decide
      · exact visible_of_isPathChar kept
  have special : SchemeType.ofScheme scheme = .specialNotFile := by
    rcases ws with rfl | rfl <;> rfl
  unfold Url.parse
  rw [preprocess_of_visible visible, parseScheme_ws ws]
  dsimp only
  rw [special]
  exact parseSpecial_reprint shape hostSome scheme sameDefault

end Webtor.UrlParser
