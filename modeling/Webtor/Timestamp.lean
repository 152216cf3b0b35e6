/-
Module: Webtor.Timestamp
Purpose: `AtomicOptTimestamp` of `tor-proto/src/util/ts.rs`: one `u64` word `latest`, with the
  native operations (`update_to`, `update_if_none`, `clear`, `time_since_update_at`) and the
  wasm query `time_since_update`. Over it, `Marker` says what the word stands for: never
  updated, or the latest instant it was set to. `run_refines` proves that along every run of
  calls with nonzero ticks the word is the marker with `none` written as `0`, and
  `timestamp_refines_marker` adds what follows: both queries answer what the marker answers,
  `latest` only decreases at `clear`, the tick subtraction never wraps, and concurrent
  `update_to` calls commute. `wasm_timeSinceUpdate_eq_native` shows the two backends answer
  alike, and `run_forgets_zero_ticks` shows what the nonzero-tick hypothesis
  excludes: the word forgets every update at the sentinel tick `0`, which the marker records.
Trusted boundary: every call is one atomic read-modify-write of `latest` (`fetch_max`,
  `compare_exchange`, `store`), so an interleaving of concurrent callers is a list of calls.
Main exports: AtomicOptTimestamp, Call, Marker, abstraction, apply_refines, run_refines,
  timestamp_refines_marker, wasm_timeSinceUpdate_eq_native, run_forgets_zero_ticks
-/
import Mathlib.Data.List.Basic

namespace Webtor.Timestamp

/-- `AtomicOptTimestamp`: the word `latest`, in `coarsetime` ticks on native targets and in
milliseconds on wasm. `0` is the sentinel for "never updated". -/
structure AtomicOptTimestamp where
  latest : UInt64
deriving DecidableEq, Repr

namespace AtomicOptTimestamp

/-- `AtomicOptTimestamp::new` (also `Default`): never updated. -/
def new : AtomicOptTimestamp := ⟨0⟩

/-- `update_to`: `latest.fetch_max(now)`. The `update` of both backends is this call with the
clock's reading. -/
def updateTo (ts : AtomicOptTimestamp) (now : UInt64) : AtomicOptTimestamp :=
  ⟨max ts.latest now⟩

/-- `update_if_none`: `latest.compare_exchange(0, now)`, its result ignored. -/
def updateIfNone (ts : AtomicOptTimestamp) (now : UInt64) : AtomicOptTimestamp :=
  if ts.latest = 0 then ⟨now⟩ else ts

/-- `clear`: `latest.store(0)`. -/
def clear (_ts : AtomicOptTimestamp) : AtomicOptTimestamp := ⟨0⟩

/-- Native `time_since_update_at`: the ticks from `latest` to `now`, or `None` when the
timestamp is unset or `now` is earlier. -/
def timeSinceUpdateAt (ts : AtomicOptTimestamp) (now : UInt64) : Option UInt64 :=
  let earlier := ts.latest
  if now ≥ earlier ∧ earlier ≠ 0 then some (now - earlier) else none

/-- Wasm `time_since_update`, given the reading `now_ms()` returns after `latest` is loaded. -/
def Wasm.timeSinceUpdate (ts : AtomicOptTimestamp) (nowMs : UInt64) : Option UInt64 :=
  let earlier := ts.latest
  if earlier = 0 then none
  else if nowMs ≥ earlier then some (nowMs - earlier) else none

end AtomicOptTimestamp

/-- One call on a timestamp. The tick is the argument of `update_to`, or the clock's reading
for `update` and `update_if_none`. -/
inductive Call where
  | updateTo (now : UInt64)
  | updateIfNone (now : UInt64)
  | clear
deriving DecidableEq, Repr

/-- The call's tick is not the sentinel (a `clear` has no tick). -/
def Call.NonzeroTick : Call → Prop
  | .updateTo now | .updateIfNone now => now ≠ 0
  | .clear => True

instance : DecidablePred Call.NonzeroTick
  | .updateTo now | .updateIfNone now => inferInstanceAs (Decidable (now ≠ 0))
  | .clear => inferInstanceAs (Decidable True)

namespace AtomicOptTimestamp

/-- The effect of one call. -/
def apply (ts : AtomicOptTimestamp) : Call → AtomicOptTimestamp
  | .updateTo now => ts.updateTo now
  | .updateIfNone now => ts.updateIfNone now
  | .clear => ts.clear

/-- A run of calls, in the order their atomic operations took effect. -/
def run (ts : AtomicOptTimestamp) (calls : List Call) : AtomicOptTimestamp :=
  calls.foldl apply ts

end AtomicOptTimestamp

/-! ### What a timestamp stands for -/

/-- A marker: `none` before any update, or the latest instant it was set to. -/
abbrev Marker := Option Nat

namespace Marker

/-- Advance to at least `t`. -/
def updateTo : Marker → Nat → Marker
  | none, t => some t
  | some m, t => some (max m t)

/-- Set to `t` only when unset. -/
def updateIfNone : Marker → Nat → Marker
  | none, t => some t
  | some m, _ => some m

/-- The time from the marker to `now`; unset, or `now` before the marker, gives `none`. -/
def elapsed : Marker → Nat → Option Nat
  | some m, now => if m ≤ now then some (now - m) else none
  | none, _ => none

/-- The effect of one call on the marker. -/
def apply (marker : Marker) : Call → Marker
  | .updateTo now => updateTo marker now.toNat
  | .updateIfNone now => updateIfNone marker now.toNat
  | .clear => none

/-- A run of calls on the marker. -/
def run (marker : Marker) (calls : List Call) : Marker :=
  calls.foldl apply marker

/-- The word a marker is kept in: `none` is the sentinel `0`. -/
def encode : Marker → Nat
  | none => 0
  | some m => m

end Marker

/-- The marker a timestamp stands for. -/
def abstraction (ts : AtomicOptTimestamp) : Marker :=
  if ts.latest.toNat = 0 then none else some ts.latest.toNat

/-! ### Arithmetic of the word -/

private theorem uint64_le_iff {a b : UInt64} : a ≤ b ↔ a.toNat ≤ b.toNat := Iff.rfl

private theorem uint64_eq_zero_iff {a : UInt64} : a = 0 ↔ a.toNat = 0 :=
  ⟨fun zero => by simp [zero], fun zero => UInt64.toNat.inj (by simpa using zero)⟩

private theorem uint64_toNat_max (a b : UInt64) :
    (max a b).toNat = max a.toNat b.toNat := by
  show (if a ≤ b then b else a).toNat = _
  split
  · next le => exact (Nat.max_eq_right le).symm
  · next gt => exact (Nat.max_eq_left (Nat.le_of_not_le gt)).symm

/-! ### The word refines the marker -/

/-- The word is always the marker's encoding. -/
theorem encode_abstraction (ts : AtomicOptTimestamp) :
    (abstraction ts).encode = ts.latest.toNat := by
  unfold abstraction
  split <;> simp_all [Marker.encode]

/-- One call with a nonzero tick moves the word as it moves the marker. -/
theorem apply_refines (ts : AtomicOptTimestamp) (call : Call) (nonzero : call.NonzeroTick) :
    abstraction (ts.apply call) = (abstraction ts).apply call := by
  cases call with
  | updateTo now =>
      have tick : now.toNat ≠ 0 := mt uint64_eq_zero_iff.mpr nonzero
      unfold abstraction
      by_cases unset : ts.latest.toNat = 0 <;>
        simp [unset, AtomicOptTimestamp.apply, AtomicOptTimestamp.updateTo, Marker.apply,
          Marker.updateTo, uint64_toNat_max]; omega
  | updateIfNone now =>
      have tick : now.toNat ≠ 0 := mt uint64_eq_zero_iff.mpr nonzero
      unfold abstraction
      by_cases unset : ts.latest.toNat = 0 <;>
        simp [unset, tick, uint64_eq_zero_iff, AtomicOptTimestamp.apply,
          AtomicOptTimestamp.updateIfNone, Marker.apply, Marker.updateIfNone]
  | clear => simp [abstraction, AtomicOptTimestamp.apply, AtomicOptTimestamp.clear, Marker.apply]

/-- A whole run of calls with nonzero ticks moves the word as it moves the marker. -/
theorem run_refines (ts : AtomicOptTimestamp) (calls : List Call)
    (nonzero : ∀ call ∈ calls, call.NonzeroTick) :
    abstraction (ts.run calls) = (abstraction ts).run calls := by
  induction calls generalizing ts with
  | nil => rfl
  | cons call calls ih =>
      simp only [AtomicOptTimestamp.run, Marker.run, List.foldl_cons] at ih ⊢
      rw [← apply_refines ts call (nonzero call (List.mem_cons_self _ _))]
      exact ih _ fun later member => nonzero later (List.mem_cons_of_mem _ member)

/-- `time_since_update_at` answers what the marker answers, in every state. -/
theorem timeSinceUpdateAt_refines (ts : AtomicOptTimestamp) (now : UInt64) :
    (ts.timeSinceUpdateAt now).map UInt64.toNat = (abstraction ts).elapsed now.toNat := by
  unfold AtomicOptTimestamp.timeSinceUpdateAt abstraction
  by_cases unset : ts.latest.toNat = 0
  · simp [unset, uint64_eq_zero_iff, Marker.elapsed]
  · by_cases early : ts.latest ≤ now
    · simp [unset, uint64_eq_zero_iff, Marker.elapsed, early, uint64_le_iff.mp early]
    · simp [unset, uint64_eq_zero_iff, Marker.elapsed, early, uint64_le_iff.not.mp early]

/-- The wasm `time_since_update` answers what the marker answers, in every state. -/
theorem wasm_timeSinceUpdate_refines (ts : AtomicOptTimestamp) (nowMs : UInt64) :
    (AtomicOptTimestamp.Wasm.timeSinceUpdate ts nowMs).map UInt64.toNat =
      (abstraction ts).elapsed nowMs.toNat := by
  rw [← timeSinceUpdateAt_refines]
  unfold AtomicOptTimestamp.Wasm.timeSinceUpdate AtomicOptTimestamp.timeSinceUpdateAt
  by_cases unset : ts.latest = 0 <;> simp [unset]

/-! ### Consequences for every state -/

/-- Only `clear` lowers `latest`. -/
theorem latest_le_apply (ts : AtomicOptTimestamp) (call : Call) (notClear : call ≠ .clear) :
    ts.latest ≤ (ts.apply call).latest := by
  rw [uint64_le_iff]
  cases call with
  | updateTo now =>
      simp only [AtomicOptTimestamp.apply, AtomicOptTimestamp.updateTo, uint64_toNat_max]
      exact Nat.le_max_left _ _
  | updateIfNone now =>
      simp only [AtomicOptTimestamp.apply, AtomicOptTimestamp.updateIfNone]
      split
      · next unset => simp [unset]
      · exact Nat.le_refl _
  | clear => exact absurd rfl notClear

/-- An answer of `time_since_update_at` is an exact difference: `latest ≤ now`. -/
theorem timeSinceUpdateAt_exact (ts : AtomicOptTimestamp) (now d : UInt64)
    (answer : ts.timeSinceUpdateAt now = some d) :
    ts.latest ≤ now ∧ d.toNat = now.toNat - ts.latest.toNat := by
  dsimp only [AtomicOptTimestamp.timeSinceUpdateAt] at answer
  split at answer
  · next guard =>
      cases answer
      exact ⟨guard.1, UInt64.toNat_sub_of_le _ _ guard.1⟩
  · cases answer

/-- An answer of the wasm `time_since_update` is an exact difference too. -/
theorem wasm_timeSinceUpdate_exact (ts : AtomicOptTimestamp) (nowMs d : UInt64)
    (answer : AtomicOptTimestamp.Wasm.timeSinceUpdate ts nowMs = some d) :
    ts.latest ≤ nowMs ∧ d.toNat = nowMs.toNat - ts.latest.toNat := by
  dsimp only [AtomicOptTimestamp.Wasm.timeSinceUpdate] at answer
  split at answer
  · cases answer
  · split at answer
    · next early =>
        cases answer
        exact ⟨early, UInt64.toNat_sub_of_le _ _ early⟩
    · cases answer

/-- Concurrent `update_to` calls leave the same word in every order. -/
theorem run_updateTo_perm (ts : AtomicOptTimestamp) {first second : List UInt64}
    (reordered : first.Perm second) :
    ts.run (first.map .updateTo) = ts.run (second.map .updateTo) := by
  simp only [AtomicOptTimestamp.run, List.foldl_map]
  refine reordered.foldl_eq' (fun x _ y _ z => ?_) ts
  simp only [AtomicOptTimestamp.apply, AtomicOptTimestamp.updateTo, AtomicOptTimestamp.mk.injEq]
  apply UInt64.toNat.inj
  simp only [uint64_toNat_max]
  omega

/-- The timestamp refines the marker along every run of calls with nonzero ticks, from any
starting word: after the run `latest` is the marker's encoding, and the native and wasm queries
answer the marker's `elapsed` at every clock reading. Moreover, in every state only `clear`
lowers `latest`, an answer of either query is an exact difference of ticks (the `u64`
subtraction never wraps), and `update_to` calls commute. -/
theorem timestamp_refines_marker (ts : AtomicOptTimestamp) (calls : List Call)
    (nonzero : ∀ call ∈ calls, call.NonzeroTick) :
    (ts.run calls).latest.toNat = ((abstraction ts).run calls).encode ∧
      (∀ now, ((ts.run calls).timeSinceUpdateAt now).map UInt64.toNat =
        ((abstraction ts).run calls).elapsed now.toNat) ∧
      (∀ nowMs, (AtomicOptTimestamp.Wasm.timeSinceUpdate (ts.run calls) nowMs).map
        UInt64.toNat = ((abstraction ts).run calls).elapsed nowMs.toNat) ∧
      (∀ (state : AtomicOptTimestamp) (call : Call), call ≠ .clear →
        state.latest ≤ (state.apply call).latest) ∧
      (∀ (state : AtomicOptTimestamp) (now d : UInt64), state.timeSinceUpdateAt now = some d →
        state.latest ≤ now ∧ d.toNat = now.toNat - state.latest.toNat) ∧
      (∀ (state : AtomicOptTimestamp) (nowMs d : UInt64),
        AtomicOptTimestamp.Wasm.timeSinceUpdate state nowMs = some d →
        state.latest ≤ nowMs ∧ d.toNat = nowMs.toNat - state.latest.toNat) ∧
      (∀ (state : AtomicOptTimestamp) (first second : List UInt64), first.Perm second →
        state.run (first.map .updateTo) = state.run (second.map .updateTo)) := by
  have refines := run_refines ts calls nonzero
  refine ⟨?_, fun now => ?_, fun nowMs => ?_, latest_le_apply, timeSinceUpdateAt_exact,
    wasm_timeSinceUpdate_exact, fun state _ _ reordered => run_updateTo_perm state reordered⟩
  · rw [← refines, encode_abstraction]
  · rw [← refines, timeSinceUpdateAt_refines]
  · rw [← refines, wasm_timeSinceUpdate_refines]

/-- The refinement on the run of the `opt_timestamp` test's shape: two updates, a clear and an
`update_if_none`. -/
theorem timestamp_refines_marker_on_test_run :
    (∀ call ∈ [Call.updateTo 100, .updateTo 110, .clear, .updateIfNone 125], call.NonzeroTick) ∧
      (AtomicOptTimestamp.new.run [.updateTo 100, .updateTo 110, .clear, .updateIfNone 125]).latest.toNat =
        ((abstraction AtomicOptTimestamp.new).run
          [.updateTo 100, .updateTo 110, .clear, .updateIfNone 125]).encode :=
  ⟨by decide, (timestamp_refines_marker _ _ (by decide)).1⟩

example :
    (AtomicOptTimestamp.new.run [.updateTo 100, .updateTo 110]).timeSinceUpdateAt 100 = none ∧
      (AtomicOptTimestamp.new.run [.updateTo 100, .updateTo 110]).timeSinceUpdateAt 125 = some 15 := by
  decide

/-! ### The two backends -/

/-- The wasm `time_since_update` answers what the native `time_since_update_at` answers, on
every word and at every clock reading: both backends keep one state machine and read it the
same way. -/
theorem wasm_timeSinceUpdate_eq_native (ts : AtomicOptTimestamp) (now : UInt64) :
    AtomicOptTimestamp.Wasm.timeSinceUpdate ts now = ts.timeSinceUpdateAt now := by
  unfold AtomicOptTimestamp.Wasm.timeSinceUpdate AtomicOptTimestamp.timeSinceUpdateAt
  by_cases unset : ts.latest = 0 <;> simp [unset]

/-! ### The sentinel -/

/-- A call whose tick is the sentinel `0` leaves the word as it is. -/
theorem apply_of_zero_tick (ts : AtomicOptTimestamp) {call : Call} (zero : ¬ call.NonzeroTick) :
    ts.apply call = ts := by
  cases call with
  | updateTo now =>
      obtain rfl : now = 0 := not_not.mp zero
      simp only [AtomicOptTimestamp.apply, AtomicOptTimestamp.updateTo]
      congr 1
      apply UInt64.toNat.inj
      rw [uint64_toNat_max]
      exact Nat.max_eq_left (Nat.zero_le _)
  | updateIfNone now =>
      obtain rfl : now = 0 := not_not.mp zero
      simp only [AtomicOptTimestamp.apply, AtomicOptTimestamp.updateIfNone]
      split
      · next unset => rw [← unset]
      · rfl
  | clear => exact absurd trivial zero

/-- A run of calls leaves the word as the run of its nonzero-tick calls and `clear`s alone. -/
theorem run_filter_nonzeroTick (ts : AtomicOptTimestamp) (calls : List Call) :
    ts.run calls = ts.run (calls.filter fun call => decide call.NonzeroTick) := by
  induction calls generalizing ts with
  | nil => rfl
  | cons call calls ih =>
      by_cases nonzero : call.NonzeroTick
      · simp only [AtomicOptTimestamp.run, List.foldl_cons, List.filter_cons, nonzero,
          decide_True, if_true] at ih ⊢
        exact ih _
      · simp only [AtomicOptTimestamp.run, List.foldl_cons, List.filter_cons, nonzero,
          decide_False, if_false, Bool.false_eq_true, apply_of_zero_tick ts nonzero] at ih ⊢
        exact ih ts

/-- The word forgets every update at tick `0`, while the marker records it. From any word,
every run of calls leaves the word the run of its nonzero-tick calls and `clear`s alone
leaves, so the word stands for the marker of that filtered run; and after every run that
leaves the word unset, an update at tick `0` leaves it unset, while the marker the word stands
for would be set to `0`. This is the sentinel collision the refinement's nonzero-tick
hypothesis excludes. -/
theorem run_forgets_zero_ticks (ts : AtomicOptTimestamp) (calls : List Call) :
    ts.run calls = ts.run (calls.filter fun call => decide call.NonzeroTick) ∧
      abstraction (ts.run calls) =
        (abstraction ts).run (calls.filter fun call => decide call.NonzeroTick) ∧
      ∀ zero : Call, ¬ zero.NonzeroTick → (ts.run calls).latest = 0 →
        abstraction (ts.run (calls ++ [zero])) = none ∧
          (abstraction (ts.run calls)).apply zero = some 0 := by
  have filtered := run_filter_nonzeroTick ts calls
  refine ⟨filtered, ?_, fun zero isZero unset => ?_⟩
  · rw [filtered, run_refines _ _ fun call member => of_decide_eq_true (List.mem_filter.mp member).2]
  · have forgotten : ts.run (calls ++ [zero]) = ts.run calls := by
      rw [AtomicOptTimestamp.run, List.foldl_append, List.foldl_cons, List.foldl_nil]
      exact apply_of_zero_tick _ isZero
    have unmarked : abstraction (ts.run calls) = none := by simp [abstraction, unset]
    refine ⟨forgotten ▸ unmarked, ?_⟩
    rw [unmarked]
    cases zero with
    | updateTo now => obtain rfl : now = 0 := not_not.mp isZero; rfl
    | updateIfNone now => obtain rfl : now = 0 := not_not.mp isZero; rfl
    | clear => exact absurd trivial isZero

end Webtor.Timestamp
