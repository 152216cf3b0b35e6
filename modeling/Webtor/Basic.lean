/-
Module: Webtor.Basic
Purpose: the facts about `Except` that the proofs of `?` chains use: a chain that succeeded
  succeeded at every step.
Trusted boundary: none
Main exports: except_bind_eq_ok, except_map_eq_ok, except_mapError_eq_ok
-/
import Mathlib.Tactic.Basic

namespace Webtor

/-- A successful `?` chain: both steps succeeded. -/
theorem except_bind_eq_ok {ε α β : Type} {x : Except ε α} {f : α → Except ε β} {b : β} :
    x >>= f = .ok b ↔ ∃ a, x = .ok a ∧ f a = .ok b := by
  cases x <;> simp [bind, Except.bind]

/-- A successful `map`: the mapped computation succeeded. -/
theorem except_map_eq_ok {ε α β : Type} {f : α → β} {x : Except ε α} {b : β} :
    x.map f = .ok b ↔ ∃ a, x = .ok a ∧ f a = b := by
  cases x <;> simp [Except.map]

/-- A successful `map_err`: the computation succeeded with that value. -/
theorem except_mapError_eq_ok {ε ε' α : Type} {f : ε → ε'} {x : Except ε α} {a : α} :
    x.mapError f = .ok a ↔ x = .ok a := by
  cases x <;> simp [Except.mapError]

end Webtor
