import Mathlib.Logic.Function.Basic

/-!
# Interleaved processes

Processes with control points beside a shared state. One process takes one step at a time, and the
log keeps what happened, the newest first.
-/

namespace Preseed.Concurrency

variable {ι κ σ ε : Type}

/-- The control points of all processes, the shared state, and the log. -/
structure World (ι κ σ ε : Type) where
  pc : ι → κ
  shared : σ
  log : List ε

variable [DecidableEq ι]

/-- Process `p` goes to `k`. -/
def World.advance (w : World ι κ σ ε) (p : ι) (k : κ) (s : σ) (e : ε) : World ι κ σ ε where
  pc := Function.update w.pc p k
  shared := s
  log := e :: w.log

@[simp] theorem World.advance_self (w : World ι κ σ ε) (p : ι) (k : κ) (s : σ) (e : ε) :
    (w.advance p k s e).pc p = k := Function.update_self ..

theorem World.advance_of_ne (w : World ι κ σ ε) {p q : ι} (h : q ≠ p) (k : κ) (s : σ) (e : ε) :
    (w.advance p k s e).pc q = w.pc q := Function.update_of_ne h ..

/-- What a process may do in a world: its next control point, the shared state, the event. -/
abbrev Steps (ι κ σ ε : Type) := World ι κ σ ε → ι → κ → σ → ε → Prop

/-- The worlds that interleaved steps reach. -/
inductive Reachable (step : Steps ι κ σ ε) (first : World ι κ σ ε) : World ι κ σ ε → Prop
  | start : Reachable step first first
  | step {w : World ι κ σ ε} {p : ι} {k : κ} {s : σ} {e : ε} (h : Reachable step first w)
      (hstep : step w p k s e) : Reachable step first (w.advance p k s e)

/-- An assertion of every process holds throughout, when a step establishes the assertion of its
own process and does not interfere with that of another. -/
theorem Reachable.annotated {step : Steps ι κ σ ε} {first : World ι κ σ ε}
    {Good : World ι κ σ ε → ι → Prop} (hfirst : ∀ p, Good first p)
    (hown : ∀ w p k s e, (∀ q, Good w q) → step w p k s e → Good (w.advance p k s e) p)
    (hother : ∀ w p k s e, (∀ q, Good w q) → step w p k s e → ∀ q, q ≠ p →
      Good (w.advance p k s e) q)
    {w : World ι κ σ ε} (hw : Reachable step first w) (p : ι) : Good w p := by
  induction hw generalizing p with
  | start => exact hfirst p
  | @step w q k s e _ hstep ih =>
    by_cases hp : p = q
    · subst hp
      exact hown w p k s e ih hstep
    · exact hother w q k s e ih hstep p hp

end Preseed.Concurrency
