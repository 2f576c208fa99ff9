import Mathlib.Data.List.Forall2

/-!
# Computations that may fail

The inversion rules of `Except`: what is known of the parts of a computation that
has returned.
-/

namespace Preseed.Effects

variable {ε α β : Type}

/-- A sequence returns if its first part does, and then the rest. -/
theorem bind_ok {x : Except ε α} {f : α → Except ε β} {b : β} (h : x >>= f = .ok b) :
    ∃ a, x = .ok a ∧ f a = .ok b := by
  cases x with
  | error e => cases h
  | ok a => exact ⟨a, rfl, h⟩

/-- A traversal returns the answers for its elements. -/
theorem mapM_ok {body : α → Except ε β} {xs : List α} {ys : List β} (h : xs.mapM body = .ok ys) :
    List.Forall₂ (fun x y => body x = .ok y) xs ys := by
  induction xs generalizing ys with
  | nil =>
    cases h
    exact .nil
  | cons x xs ih =>
    rw [List.mapM_cons] at h
    obtain ⟨y, hy, h⟩ := bind_ok h
    obtain ⟨rest, hrest, h⟩ := bind_ok h
    cases h
    exact .cons hy (ih hrest)

end Preseed.Effects
