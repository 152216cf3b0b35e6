/-
Module: Webtor.UrlParser.Ipv6RoundTrip
Purpose: `parse_ipv6addr` reads back every address `write_ipv6` prints
  (`parseIpv6Addr_ipv6Serialize`). The printed text is groups of lower-case hex, each followed
  by `:`, around at most one `::` standing for the first longest run of zero pieces; the parser
  stores the groups before `::` from the front and those after it from piece `compress` on, and
  its closing swap loop moves the latter to the end.
Trusted boundary: none
Main exports: hexText, groupsText, PiecesForm, ipv6Groups_groups, swapLoop_moves,
  longestZeroSequence_zero, writeIpv6_compressed, parseIpv6Addr_ipv6Serialize
-/
import Webtor.UrlParser.Host

namespace Webtor.UrlParser

open Webtor.Text

/-- A piece in lower-case hex (`{:x}`). -/
def hexText (v : UInt16) : List Char := Nat.toDigits 16 v.toNat

/-- Pieces in hex, each followed by `:`. -/
def groupsText : List UInt16 → List Char
  | [] => []
  | v :: vs => hexText v ++ ':' :: groupsText vs

/-! ### One group -/

theorem uint16_toNat_lt (v : UInt16) : v.toNat < 65536 := v.val.isLt

theorem toUInt16_toNat (v : UInt16) : v.toNat.toUInt16 = v :=
  UInt16.toNat.inj (UInt16.toNat_ofNat_of_lt (uint16_toNat_lt v))

theorem hexValue_of_mem_hexText {v : UInt16} {c : Char} (member : c ∈ hexText v) :
    ∃ d, d < 16 ∧ hexValue c = some d ∧ c = Nat.digitChar d := by
  obtain ⟨d, small, rfl⟩ := mem_toDigits (by decide) member
  exact ⟨d, small, hexValue_digitChar d small, rfl⟩

theorem hexText_ne_nil (v : UInt16) : hexText v ≠ [] := toDigits_ne_nil (by decide) _

theorem length_hexText_le (v : UInt16) : (hexText v).length ≤ 4 :=
  length_toDigits_le (by decide) (by have := uint16_toNat_lt v; norm_num; omega) (by decide)

/-- `readHex` takes hexadecimal digits while its budget lasts, up to a non-digit. -/
theorem readHex_digits (value count budget : Nat) (ds rest : List Char)
    (digits : ∀ c ∈ ds, (hexValue c).isSome) (fits : ds.length ≤ budget)
    (stops : ∀ c rest', rest = c :: rest' → hexValue c = none) :
    readHex value count budget (ds ++ rest) =
      (ds.foldl (fun acc c => acc * 16 + (hexValue c).getD 0) value, count + ds.length, rest) := by
  induction ds generalizing value count budget with
  | nil =>
      cases budget with
      | zero => rfl
      | succ budget =>
          cases rest with
          | nil => rfl
          | cons c rest' => simp [readHex, stops c rest' rfl]
  | cons d ds ih =>
      obtain ⟨budget, rfl⟩ : ∃ b, budget = b + 1 := ⟨budget - 1, by simp at fits; omega⟩
      obtain ⟨digit, isDigit⟩ := Option.isSome_iff_exists.mp (digits d (List.mem_cons_self _ _))
      rw [List.cons_append, readHex, isDigit]
      dsimp only
      rw [ih (value * 16 + digit) (count + 1) budget
        (fun c member => digits c (List.mem_cons_of_mem _ member)) (by simp at fits; omega)]
      simp [isDigit, Nat.add_assoc, Nat.add_comm 1]

theorem readHex_hexText (v : UInt16) (rest : List Char)
    (stops : ∀ c rest', rest = c :: rest' → hexValue c = none) :
    readHex 0 0 4 (hexText v ++ rest) = (v.toNat, (hexText v).length, rest) := by
  rw [readHex_digits 0 0 4 _ rest (fun c member => by
      obtain ⟨d, -, value, -⟩ := hexValue_of_mem_hexText member
      simp [value]) (length_hexText_le v) stops, Nat.zero_add]
  have read := digitsValue_toDigits (show 2 ≤ 16 by decide) (le_refl 16) v.toNat
  rw [digitsValue] at read
  rw [hexText, read]

/-- The first character of a group is a digit, never `:`. -/
theorem hexText_cons (v : UInt16) :
    ∃ c cs, hexText v = c :: cs ∧ c ≠ ':' ∧ hexValue c ≠ none := by
  cases text : hexText v with
  | nil => exact absurd text (hexText_ne_nil v)
  | cons c cs =>
      obtain ⟨d, -, value, -⟩ := hexValue_of_mem_hexText (text ▸ List.mem_cons_self c cs)
      refine ⟨c, cs, rfl, fun colon => ?_, by simp [value]⟩
      rw [colon] at value
      cases value

/-! ### The group loop -/

theorem ipv6Groups_hex_colon (fuel : Nat) (scan : Ipv6Scan) (v : UInt16) (more : List Char)
    (room : scan.piecePointer ≠ 8) (nonempty : more ≠ []) :
    ipv6Groups (fuel + 1) (hexText v ++ ':' :: more) scan =
      ipv6Groups fuel more (scan.store v) := by
  obtain ⟨c, cs, text, notColon, -⟩ := hexText_cons v
  have read := readHex_hexText v (':' :: more) (by rintro _ _ ⟨⟩; rfl)
  rw [text] at read ⊢
  rw [List.cons_append, ipv6Groups, if_neg room, if_neg notColon]
  simp only [List.cons_append] at read
  simp only [read, if_neg nonempty, toUInt16_toNat]

theorem ipv6Groups_hex_end (fuel : Nat) (scan : Ipv6Scan) (v : UInt16)
    (room : scan.piecePointer ≠ 8) :
    ipv6Groups (fuel + 1) (hexText v) scan = .ok (scan.store v, none) := by
  obtain ⟨c, cs, text, notColon, -⟩ := hexText_cons v
  have read := readHex_hexText v [] (by rintro _ _ ⟨⟩)
  rw [List.append_nil, text] at read
  rw [text, ipv6Groups, if_neg room, if_neg notColon]
  simp only [read, toUInt16_toNat]

theorem ipv6Groups_colon (fuel : Nat) (scan : Ipv6Scan) (more : List Char)
    (room : scan.piecePointer ≠ 8) (fresh : scan.compressPointer = none) :
    ipv6Groups (fuel + 1) (':' :: more) scan =
      ipv6Groups fuel more { scan with piecePointer := scan.piecePointer + 1,
                                       compressPointer := some (scan.piecePointer + 1) } := by
  rw [ipv6Groups, if_neg room, if_pos rfl, fresh]
  rfl

@[simp] theorem Ipv6Scan.store_compressPointer (scan : Ipv6Scan) (v : UInt16) :
    (scan.store v).compressPointer = scan.compressPointer := rfl

@[simp] theorem Ipv6Scan.store_piecePointer (scan : Ipv6Scan) (v : UInt16) :
    (scan.store v).piecePointer = scan.piecePointer + 1 := rfl

/-- The pieces stored so far are `stored`, and the rest are still zero. -/
def PiecesForm (scan : Ipv6Scan) (stored : List UInt16) : Prop :=
  scan.pieces.pieces = stored ++ List.replicate (8 - stored.length) 0 ∧
    scan.piecePointer = stored.length

theorem PiecesForm.store {scan : Ipv6Scan} {stored : List UInt16} (form : PiecesForm scan stored)
    (room : stored.length < 8) (v : UInt16) : PiecesForm (scan.store v) (stored ++ [v]) := by
  obtain ⟨more, eq⟩ : ∃ more, 8 - stored.length = more + 1 := ⟨7 - stored.length, by omega⟩
  have shorter : 8 - (stored ++ [v]).length = more := by
    rw [List.length_append, List.length_singleton]
    omega
  constructor
  · show scan.pieces.pieces.set scan.piecePointer v = _
    rw [form.1, form.2, eq, shorter, List.replicate_succ, List.set_append_right _ _ (le_refl _),
      Nat.sub_self, List.set_cons_zero, List.append_assoc, List.singleton_append]
  · show scan.piecePointer + 1 = _
    simp [form.2]

theorem PiecesForm.skip {scan : Ipv6Scan} {stored : List UInt16} (form : PiecesForm scan stored)
    (room : stored.length < 8) (compress : Option Nat) :
    PiecesForm { scan with piecePointer := scan.piecePointer + 1, compressPointer := compress }
      (stored ++ [0]) := by
  obtain ⟨more, eq⟩ : ∃ more, 8 - stored.length = more + 1 := ⟨7 - stored.length, by omega⟩
  have shorter : 8 - (stored ++ [0]).length = more := by
    rw [List.length_append, List.length_singleton]
    omega
  constructor
  · show scan.pieces.pieces = _
    rw [form.1, eq, shorter, List.replicate_succ, List.append_assoc, List.singleton_append]
  · show scan.piecePointer + 1 = _
    simp [form.2]

/-- The loop stores a run of groups, each followed by `:`, from the front. -/
theorem ipv6Groups_groups (rest : List Char) (nonempty : rest ≠ []) :
    ∀ (vals : List UInt16) (fuel : Nat) (scan : Ipv6Scan) (stored : List UInt16),
      PiecesForm scan stored → stored.length + vals.length ≤ 8 →
      ∃ scan', ipv6Groups (fuel + vals.length) (groupsText vals ++ rest) scan =
          ipv6Groups fuel rest scan' ∧ PiecesForm scan' (stored ++ vals) ∧
          scan'.compressPointer = scan.compressPointer
  | [], fuel, scan, stored, form, _ => ⟨scan, rfl, by simpa using form, rfl⟩
  | v :: vals, fuel, scan, stored, form, fits => by
      have room : stored.length < 8 := by simp at fits; omega
      obtain ⟨scan', run, form', same⟩ := ipv6Groups_groups rest nonempty vals fuel
        (scan.store v) (stored ++ [v]) (form.store room v) (by simp at fits ⊢; omega)
      refine ⟨scan', ?_, by simpa using form', same⟩
      rw [groupsText, List.append_assoc, List.cons_append, List.length_cons, ← Nat.add_assoc,
        ipv6Groups_hex_colon _ _ _ _ (by rw [form.2]; omega) (by simp [nonempty]), run]

/-! ### The closing swap loop -/

theorem getD_middle {α : Type} (front rest : List α) (x d : α) :
    (front ++ x :: rest).getD front.length d = x := by
  induction front <;> simp_all

theorem set_middle {α : Type} (front rest : List α) (x y : α) :
    (front ++ x :: rest).set front.length y = front ++ y :: rest := by
  induction front <;> simp_all

/-- One swap moves the last stored piece `b` past `m` zeros. -/
theorem swap_past_zeros (addr : Ipv6Addr) (front : List UInt16) (b : UInt16) (m : Nat)
    (back : List UInt16) (form : addr.pieces = front ++ b :: (List.replicate m 0 ++ back)) :
    (addr.swap (front.length + m) front.length).pieces =
      front ++ List.replicate m 0 ++ b :: back := by
  show ((addr.pieces.set _ (addr.get _)).set _ (addr.get _)) = _
  have atFront : addr.get front.length = b := by
    rw [Ipv6Addr.get, form, getD_middle]
  rw [atFront]
  cases m with
  | zero =>
      rw [Nat.add_zero, atFront, form, List.replicate_zero, List.nil_append, set_middle, set_middle,
        List.append_nil]
  | succ k =>
      have shape : front ++ b :: (List.replicate (k + 1) 0 ++ back) =
          (front ++ b :: List.replicate k 0) ++ 0 :: back := by
        simp [List.replicate_succ']
      have farther : front.length + (k + 1) = (front ++ b :: List.replicate k 0).length := by
        simp only [List.length_append, List.length_cons, List.length_replicate]
      have atBack : addr.get (front.length + (k + 1)) = 0 := by
        rw [Ipv6Addr.get, form, shape, farther, getD_middle]
      rw [atBack, form, shape, farther, set_middle,
        show (front ++ b :: List.replicate k 0) ++ b :: back =
          front ++ b :: (List.replicate k 0 ++ b :: back) by simp,
        set_middle]
      simp [List.replicate_succ]

/-- The closing loop moves the pieces stored after `::` to the end, behind the zeros. -/
theorem swapLoop_moves (front : List UInt16) :
    ∀ (moved back : List UInt16) (m : Nat) (addr : Ipv6Addr),
      addr.pieces = front ++ moved ++ List.replicate m 0 ++ back →
      (swapLoop front.length addr moved.length (front.length + moved.length + m - 1)).pieces =
        front ++ List.replicate m 0 ++ moved ++ back := by
  intro moved
  induction moved using List.reverseRecOn with
  | nil => intro back m addr form; simpa using form
  | append_singleton moved b ih =>
      intro back m addr form
      have swapped := swap_past_zeros addr (front ++ moved) b m back (by simp [form])
      have rest := ih (b :: back) m
        (addr.swap ((front ++ moved).length + m) (front ++ moved).length)
        swapped
      simp only [List.length_append, List.length_singleton] at rest ⊢
      rw [swapLoop,
        show front.length + (moved.length + 1) + m - 1 - 1 = front.length + moved.length + m - 1 by
          omega,
        show front.length + (moved.length + 1) + m - 1 = front.length + moved.length + m by omega,
        rest]
      simp

/-! ### The compressed run -/

/-- The pieces from `start` to `stop` (exclusive) are zero. -/
def ZeroRun (pieces : List UInt16) (start stop : Nat) : Prop :=
  start ≤ stop ∧ stop ≤ pieces.length ∧ ∀ k, start ≤ k → k < stop → pieces.getD k 0 = 0

theorem ZeroRun.extend {pieces : List UInt16} {start i : Nat} (run : ZeroRun pieces start i)
    (inRange : i < pieces.length) (zero : pieces.getD i 0 = 0) : ZeroRun pieces start (i + 1) :=
  ⟨by have := run.1; omega, inRange, fun k low high =>
    if atI : k = i then atI ▸ zero else run.2.2 k low (by omega)⟩

theorem closeRun_zero {pieces : List UInt16} {start : Option Nat} {stop : Nat}
    {best : Option (Nat × Nat)} (current : ∀ st, start = some st → ZeroRun pieces st stop)
    (previous : ∀ s len, best = some (s, len) → ZeroRun pieces s (s + len)) :
    ∀ s len, closeRun start stop best = some (s, len) → ZeroRun pieces s (s + len) := by
  intro s len closed
  cases start with
  | none => exact previous s len closed
  | some st =>
      simp only [closeRun] at closed
      split at closed
      · have run := current st rfl
        simp only [Option.some.injEq, Prod.mk.injEq] at closed
        rw [← closed.1, ← closed.2, Nat.add_sub_cancel' run.1]
        exact run
      · exact previous s len closed

/-- Every run `zeroRuns` reports is a run of zero pieces. -/
theorem zeroRuns_zero (pieces : List UInt16) :
    ∀ (rest : List UInt16) (i : Nat) (start : Option Nat) (best : Option (Nat × Nat)),
      rest = pieces.drop i → i ≤ pieces.length →
      (∀ st, start = some st → ZeroRun pieces st i) →
      (∀ s len, best = some (s, len) → ZeroRun pieces s (s + len)) →
      ∀ s len, zeroRuns rest i start best = some (s, len) → ZeroRun pieces s (s + len)
  | [], _, _, _, _, _, current, previous => closeRun_zero current previous
  | p :: ps, i, start, best, rest, _, current, previous => by
      have inRange : i < pieces.length := by
        by_contra outside
        rw [List.drop_eq_nil_of_le (by omega)] at rest
        cases rest
      rw [List.drop_eq_getElem_cons inRange] at rest
      obtain ⟨rfl, rfl⟩ := List.cons.inj rest
      have atI : pieces.getD i 0 = pieces[i] := by simp [List.getElem?_eq_getElem inRange]
      intro s len run
      rw [zeroRuns] at run
      split at run
      · next zero =>
          refine zeroRuns_zero pieces _ (i + 1) _ best rfl (by omega) (fun st started => ?_)
            previous s len run
          split at started
          · exact (current st started).extend inRange (atI.trans zero)
          · cases started
            exact ⟨by omega, inRange, fun k low high => by
              rw [show k = i by omega, atI, zero]⟩
      · exact zeroRuns_zero pieces _ (i + 1) none _ rfl (by omega) (by simp)
          (closeRun_zero current previous) s len run

/-- The run `write_ipv6` compresses has at least two pieces, all zero. -/
theorem longestZeroSequence_zero {pieces : List UInt16} {s e : Nat}
    (found : longestZeroSequence pieces = some (s, e)) :
    s + 2 ≤ e ∧ ZeroRun pieces s e := by
  unfold longestZeroSequence at found
  split at found
  · next start length scanned =>
      split at found
      · cases found
      · cases found
        exact ⟨by omega, zeroRuns_zero pieces pieces 0 none none rfl (by omega) (by simp) (by simp)
          _ _ scanned⟩
  · cases found

/-! ### The printed text -/

theorem writeIpv6_eight (pieces : List UInt16) (compress : Option (Nat × Nat)) (fuel : Nat) :
    writeIpv6 pieces compress fuel 8 = [] := by
  cases fuel <;> rfl

theorem writeIpv6_step (pieces : List UInt16) (compress : Option (Nat × Nat)) (fuel i : Nat)
    (i8 : i < 8) (notStart : ∀ s e, compress = some (s, e) → s ≠ i) :
    writeIpv6 pieces compress (fuel + 1) i =
      ipv6Piece pieces i ++ writeIpv6 pieces compress fuel (i + 1) := by
  rw [writeIpv6.eq_def]
  dsimp only
  rw [if_neg (by omega)]
  cases compress with
  | none => rfl
  | some se =>
      obtain ⟨s, e⟩ := se
      exact if_neg (Ne.symm (notStart s e rfl))

theorem ipv6Piece_of_lt (pieces : List UInt16) {i : Nat} (i7 : i < 7) :
    ipv6Piece pieces i = hexText (pieces.getD i 0) ++ [':'] := by
  rw [ipv6Piece, if_pos i7]
  rfl

theorem groupsText_drop_take (pieces : List UInt16) {i : Nat} (inRange : i < pieces.length)
    (n : Nat) :
    groupsText ((pieces.drop i).take (n + 1)) =
      hexText (pieces.getD i 0) ++ ':' :: groupsText ((pieces.drop (i + 1)).take n) := by
  rw [List.drop_eq_getElem_cons inRange, List.take_succ_cons, groupsText]
  simp [List.getElem?_eq_getElem inRange]

/-- What `write_ipv6` prints after the `::` of a run of zeros ending before piece `e`. -/
def afterRunText (pieces : List UInt16) (e : Nat) : List Char :=
  if e < 8 then groupsText ((pieces.drop e).take (7 - e)) ++ hexText (pieces.getD 7 0) else []

section
variable (pieces : List UInt16) (eight : pieces.length = 8)
include eight

/-- Past the compressed run, every piece is printed, each but the last followed by `:`. -/
theorem writeIpv6_plain (compress : Option (Nat × Nat)) :
    ∀ (fuel i : Nat), i ≤ 7 → 8 - i ≤ fuel → (∀ s e, compress = some (s, e) → s < i) →
      writeIpv6 pieces compress fuel i =
        groupsText ((pieces.drop i).take (7 - i)) ++ hexText (pieces.getD 7 0)
  | 0, _, _, enough, _ => absurd enough (by omega)
  | fuel + 1, i, i7, enough, past => by
      rw [writeIpv6_step pieces compress fuel i (by omega)
        (fun s e found => by have := past s e found; omega)]
      by_cases last : i = 7
      · subst last
        rw [writeIpv6_eight, ipv6Piece, if_neg (by decide)]
        simp [hexText, groupsText]
      · rw [writeIpv6_plain compress fuel (i + 1) (by omega) (by omega)
            (fun s e found => by have := past s e found; omega),
          show 7 - i = 7 - (i + 1) + 1 by omega, groupsText_drop_take pieces (by omega),
          ipv6Piece_of_lt pieces (by omega : i < 7)]
        simp

/-- Up to the compressed run, the pieces are printed each followed by `:`, then `:` (`::` at
the start) stands for the run. -/
theorem writeIpv6_compressed {s e : Nat} (gap : s + 2 ≤ e) (e8 : e ≤ 8) :
    ∀ (fuel i : Nat), i ≤ s → 8 - i ≤ fuel →
      writeIpv6 pieces (some (s, e)) fuel i =
        groupsText ((pieces.drop i).take (s - i)) ++ (if s = 0 then [':', ':'] else [':']) ++
          afterRunText pieces e
  | 0, _, _, enough => absurd enough (by omega)
  | fuel + 1, i, before, enough => by
      by_cases atStart : i = s
      · subst atStart
        rw [writeIpv6.eq_def]
        dsimp only
        rw [if_neg (by omega), if_pos rfl, Nat.sub_self, List.take_zero, groupsText,
          List.nil_append,
          afterRunText]
        by_cases small : e < 8
        · rw [if_pos small, if_pos small,
            ← writeIpv6_step pieces _ fuel e (by omega) (fun s' e' found => by
              simp only [Option.some.injEq, Prod.mk.injEq] at found; omega),
            writeIpv6_plain pieces eight _ (fuel + 1) e (by omega) (by omega) (fun s' e' found => by
              simp only [Option.some.injEq, Prod.mk.injEq] at found; omega)]
        · rw [if_neg small, if_neg small]
      · rw [writeIpv6_step pieces _ fuel i (by omega) (fun s' e' found => by
            simp only [Option.some.injEq, Prod.mk.injEq] at found; omega),
          writeIpv6_compressed gap e8 fuel (i + 1) (by omega) (by omega),
          show s - i = s - (i + 1) + 1 by omega, groupsText_drop_take pieces (by omega),
          ipv6Piece_of_lt pieces (by omega : i < 7)]
        simp

end

/-! ### Reading the text back -/

theorem Ipv6Addr.eq_of_pieces {a b : Ipv6Addr} (same : a.pieces = b.pieces) : a = b := by
  cases a
  cases b
  cases same
  rfl

theorem length_groupsText : ∀ vals : List UInt16, 2 * vals.length ≤ (groupsText vals).length
  | [] => by simp [groupsText]
  | v :: vals => by
      have := List.length_pos.mpr (hexText_ne_nil v)
      have := length_groupsText vals
      simp only [groupsText, List.length_append, List.length_cons]
      omega

theorem ipv6Start_of_ne {c : Char} (notColon : c ≠ ':') (rest : List Char) :
    ipv6Start (c :: rest) = .ok (⟨Ipv6Addr.zero, 0, none⟩, c :: rest) := by
  unfold ipv6Start
  split
  · next eq => cases eq; exact absurd rfl notColon
  · rfl

theorem ipv6Start_hexText (v : UInt16) (rest : List Char) :
    ipv6Start (hexText v ++ rest) = .ok (⟨Ipv6Addr.zero, 0, none⟩, hexText v ++ rest) := by
  obtain ⟨c, cs, text, notColon, -⟩ := hexText_cons v
  rw [text, List.cons_append]
  exact ipv6Start_of_ne notColon _

theorem parseIpv6Addr_start {input : List Char} (long : 2 ≤ input.length) {start : Ipv6Scan}
    {rest : List Char} (started : ipv6Start input = .ok (start, rest)) :
    parseIpv6Addr input =
      (ipv6Groups (input.length + 1) rest start >>= fun r =>
        ipv6Close (input.length + 1) r.1 r.2) := by
  unfold parseIpv6Addr
  rw [if_neg (by omega)]
  simp only [started, bind, Except.bind]
  rfl

theorem piecesForm_start : PiecesForm ⟨Ipv6Addr.zero, 0, none⟩ [] := ⟨rfl, rfl⟩

/-- The pieces from `e` on are the groups before the last piece, then the last piece. -/
theorem drop_take_append_last {pieces : List UInt16} (eight : pieces.length = 8) {e : Nat}
    (e7 : e ≤ 7) : (pieces.drop e).take (7 - e) ++ [pieces.getD 7 0] = pieces.drop e := by
  have last : (pieces.drop e).drop (7 - e) = [pieces.getD 7 0] := by
    rw [List.drop_drop, show e + (7 - e) = 7 by omega,
      List.drop_eq_getElem_cons (by omega : 7 < pieces.length),
      List.drop_eq_nil_of_le (by omega : pieces.length ≤ 7 + 1)]
    simp [List.getElem?_eq_getElem (by omega : 7 < pieces.length)]
  rw [← last, List.take_append_drop]

theorem ipv6Start_groupsText {vals : List UInt16} (nonempty : vals ≠ []) (rest : List Char) :
    ipv6Start (groupsText vals ++ rest) =
      .ok (⟨Ipv6Addr.zero, 0, none⟩, groupsText vals ++ rest) := by
  obtain ⟨v, vs, rfl⟩ := List.exists_cons_of_ne_nil nonempty
  rw [groupsText, List.append_assoc]
  exact ipv6Start_hexText v _

/-- Around the compressed run, the zero pieces are the run itself. -/
theorem fill_zeros {pieces : List UInt16} {s e : Nat} (zeros : ZeroRun pieces s e) :
    pieces.take s ++ List.replicate (e - s) 0 ++ pieces.drop e = pieces := by
  have run : (pieces.drop s).take (e - s) = List.replicate (e - s) 0 := by
    rw [List.eq_replicate_iff]
    refine ⟨by simp; have := zeros.2.1; omega, fun b member => ?_⟩
    obtain ⟨k, inRange, rfl⟩ := List.getElem_of_mem member
    simp only [List.length_take, List.length_drop] at inRange
    have zero := zeros.2.2 (s + k) (by omega) (by omega)
    simp only [List.getD_eq_getElem?_getD, List.getElem?_eq_getElem (show s + k < pieces.length by
      omega), Option.getD_some] at zero
    simpa [List.getElem_take, List.getElem_drop] using zero
  have back : (pieces.drop s).drop (e - s) = pieces.drop e := by
    rw [List.drop_drop]
    congr 1
    have := zeros.1
    omega
  rw [← run, List.append_assoc, ← back, List.take_append_drop, List.take_append_drop]

section
variable (pieces : List UInt16) (eight : pieces.length = 8)
include eight

/-- After `::`, the groups past the run are stored from piece `s + 1` and moved to the end
behind the zeros. -/
theorem ipv6_after_compress {s e : Nat} (gap : s + 2 ≤ e) (zeros : ZeroRun pieces s e)
    (scan : Ipv6Scan) (form : PiecesForm scan (pieces.take s ++ [0]))
    (compressed : scan.compressPointer = some (s + 1)) (fuel closeFuel : Nat)
    (enough : (afterRunText pieces e).length < fuel) :
    (ipv6Groups fuel (afterRunText pieces e) scan >>= fun r => ipv6Close closeFuel r.1 r.2) =
      .ok ⟨pieces, eight⟩ := by
  have e8 := zeros.2.1
  have frontLength : (pieces.take s ++ [0]).length = s + 1 := by simp; omega
  by_cases small : e < 8
  · rw [afterRunText, if_pos small] at enough ⊢
    have groups := length_groupsText ((pieces.drop e).take (7 - e))
    rw [List.length_append] at enough
    simp only [List.length_take, List.length_drop] at groups
    obtain ⟨left, rfl⟩ : ∃ left, fuel = left + 1 + (7 - e) := ⟨fuel - 1 - (7 - e), by omega⟩
    obtain ⟨scan', run, form', same⟩ := ipv6Groups_groups (hexText (pieces.getD 7 0))
      (hexText_ne_nil _) ((pieces.drop e).take (7 - e)) (left + 1) scan _ form (by simp; omega)
    rw [show ((pieces.drop e).take (7 - e)).length = 7 - e by simp; omega] at run
    rw [run, ipv6Groups_hex_end _ _ _ (by rw [form'.2]; simp; omega)]
    have moved := drop_take_append_last eight (by omega : e ≤ 7)
    have final := form'.store (by simp; omega) (pieces.getD 7 0)
    rw [List.append_assoc, moved] at final
    simp only [bind, Except.bind, ipv6Close, Ipv6Scan.store_compressPointer, same, compressed,
      pure, Except.pure]
    congr 1
    apply Ipv6Addr.eq_of_pieces
    have swapped := swapLoop_moves (pieces.take s ++ [0]) (pieces.drop e) []
      (e - s - 1) (scan'.store (pieces.getD 7 0)).pieces (by
        rw [final.1, List.append_nil]
        congr 2
        simp; omega)
    rw [frontLength, show s + 1 + (pieces.drop e).length + (e - s - 1) - 1 = 7 by simp; omega]
      at swapped
    have pointer := final.2
    simp only [List.length_append, List.length_drop, List.length_singleton] at pointer
    rw [show (scan'.store (pieces.getD 7 0)).piecePointer - (s + 1) = (pieces.drop e).length by
      rw [pointer]; simp; omega]
    refine swapped.trans ?_
    have zerosFirst : ([0] ++ List.replicate (e - s - 1) 0 : List UInt16) =
        List.replicate (e - s) 0 := by
      rw [List.singleton_append, ← List.replicate_succ]; congr 1; omega
    rw [List.append_nil, List.append_assoc (pieces.take s), zerosFirst]
    exact fill_zeros zeros
  · rw [afterRunText, if_neg small] at enough ⊢
    obtain ⟨left, rfl⟩ : ∃ left, fuel = left + 1 := ⟨fuel - 1, by simp at enough; omega⟩
    simp only [ipv6Groups, bind, Except.bind, ipv6Close, compressed, pure, Except.pure]
    congr 1
    apply Ipv6Addr.eq_of_pieces
    rw [form.2, frontLength, Nat.sub_self, swapLoop, form.1, frontLength]
    have whole := fill_zeros zeros
    rw [show e = 8 by omega, List.drop_eq_nil_of_le (by omega), List.append_nil] at whole
    rw [List.append_assoc, List.singleton_append,
      show (0 : UInt16) :: List.replicate (8 - (s + 1)) 0 = List.replicate (8 - s) 0 by
        rw [← List.replicate_succ]; congr 1; omega]
    exact whole

end

/-- Without a compressed run, the eight printed groups fill the eight pieces. -/
theorem parseIpv6Addr_plain (pieces : List UInt16) (eight : pieces.length = 8) :
    parseIpv6Addr (groupsText (pieces.take 7) ++ hexText (pieces.getD 7 0)) =
      .ok ⟨pieces, eight⟩ := by
  have groups := length_groupsText (pieces.take 7)
  have last := List.length_pos.mpr (hexText_ne_nil (pieces.getD 7 0))
  rw [List.length_take, eight] at groups
  rw [parseIpv6Addr_start (by rw [List.length_append]; omega)
    (ipv6Start_groupsText (List.ne_nil_of_length_pos (by rw [List.length_take]; omega)) _)]
  obtain ⟨left, fuel⟩ : ∃ left,
      (groupsText (pieces.take 7) ++ hexText (pieces.getD 7 0)).length + 1 =
        left + 1 + (pieces.take 7).length :=
    ⟨(groupsText (pieces.take 7)).length + (hexText (pieces.getD 7 0)).length - 7, by
      rw [List.length_append, List.length_take, eight]; omega⟩
  obtain ⟨scan, run, form, same⟩ := ipv6Groups_groups _ (hexText_ne_nil (pieces.getD 7 0))
    (pieces.take 7) (left + 1) _ [] piecesForm_start (by simp [eight])
  rw [fuel, run, ipv6Groups_hex_end _ _ _ (by rw [form.2]; simp [eight])]
  have final := form.store (by simp [eight]) (pieces.getD 7 0)
  have whole := drop_take_append_last eight (e := 0) (by omega)
  rw [List.drop_zero, Nat.sub_zero] at whole
  rw [List.nil_append, whole] at final
  simp only [bind, Except.bind, ipv6Close, Ipv6Scan.store_compressPointer, same, final.2,
    eight, if_true, pure, Except.pure]
  congr 1
  apply Ipv6Addr.eq_of_pieces
  rw [final.1, eight, Nat.sub_self, List.replicate_zero, List.append_nil]

/-- Up to a compressed run, the printed groups are stored from the front and `::` opens the
run; what follows is left to `ipv6_after_compress`. -/
theorem parseIpv6Addr_before_run {pieces : List UInt16} (eight : pieces.length = 8) {s e : Nat}
    (gap : s + 2 ≤ e) (zeros : ZeroRun pieces s e) :
    ∃ scan fuel closeFuel, PiecesForm scan (pieces.take s ++ [0]) ∧
      scan.compressPointer = some (s + 1) ∧ (afterRunText pieces e).length < fuel ∧
      parseIpv6Addr (groupsText (pieces.take s) ++ (if s = 0 then [':', ':'] else [':']) ++
          afterRunText pieces e) =
        (ipv6Groups fuel (afterRunText pieces e) scan >>= fun r =>
          ipv6Close closeFuel r.1 r.2) := by
  have e8 := zeros.2.1
  by_cases atStart : s = 0
  · subst atStart
    rw [if_pos rfl]
    simp only [List.take_zero, groupsText, List.nil_append, List.cons_append]
    exact ⟨⟨Ipv6Addr.zero, 1, some 1⟩, _, _, ⟨rfl, rfl⟩, rfl,
      by simp only [List.length_cons]; omega, parseIpv6Addr_start (by simp) (by rfl)⟩
  · rw [if_neg atStart, List.append_assoc, List.singleton_append]
    have groups := length_groupsText (pieces.take s)
    rw [List.length_take] at groups
    rw [parseIpv6Addr_start (by rw [List.length_append, List.length_cons]; omega)
      (ipv6Start_groupsText (List.ne_nil_of_length_pos (by rw [List.length_take]; omega)) _)]
    obtain ⟨left, fuel, enough⟩ : ∃ left,
        (groupsText (pieces.take s) ++ ':' :: afterRunText pieces e).length + 1 =
          left + 1 + (pieces.take s).length ∧ (afterRunText pieces e).length < left :=
      ⟨(groupsText (pieces.take s)).length + (afterRunText pieces e).length + 1 - s, by
        rw [List.length_append, List.length_cons, List.length_take]; omega, by omega⟩
    obtain ⟨scan, run, form, same⟩ := ipv6Groups_groups _ (List.cons_ne_nil _ _)
      (pieces.take s) (left + 1) _ [] piecesForm_start (by simp; omega)
    rw [List.nil_append] at form
    have pointer : scan.piecePointer = s := by rw [form.2, List.length_take]; omega
    refine ⟨_, left, (groupsText (pieces.take s) ++ ':' :: afterRunText pieces e).length + 1,
      form.skip (by simp; omega) _, by rw [pointer], enough, ?_⟩
    rw [fuel, run, ipv6Groups_colon _ _ _ (by omega) same, pointer]

/-- `parse_ipv6addr` reads back every address `write_ipv6` prints. -/
theorem parseIpv6Addr_ipv6Serialize (addr : Ipv6Addr) :
    parseIpv6Addr (ipv6Serialize addr) = .ok addr := by
  obtain ⟨pieces, eight⟩ := addr
  unfold ipv6Serialize
  dsimp only
  cases found : longestZeroSequence pieces with
  | none =>
      rw [writeIpv6_plain pieces eight none 8 0 (by omega) (by omega) (by simp), List.drop_zero,
        Nat.sub_zero]
      exact parseIpv6Addr_plain pieces eight
  | some run =>
      obtain ⟨s, e⟩ := run
      obtain ⟨gap, zeros⟩ := longestZeroSequence_zero found
      rw [writeIpv6_compressed pieces eight gap (eight ▸ zeros.2.1) 8 0 (by omega) (by omega),
        List.drop_zero, Nat.sub_zero]
      obtain ⟨scan, fuel, closeFuel, form, compressed, enough, read⟩ :=
        parseIpv6Addr_before_run eight gap zeros
      rw [read]
      exact ipv6_after_compress pieces eight gap zeros scan form compressed fuel closeFuel enough

end Webtor.UrlParser
