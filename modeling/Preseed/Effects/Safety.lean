import Mathlib
import Preseed.Effects.Program

/-!
# Safety of programs under every behaviour of the environment

`Program.Safe` says that each operation is issued in a situation a guard allows,
and that the program ends in its postcondition, whatever the environment answers.
Because the guard is checked at every node, a safe program satisfies it at every
point where the process may be stopped. `Act.wp` is the same predicate for
stateful programs with exceptions; its rules follow the program's structure.
-/

namespace Preseed.Effects

/-- What an environment may do: from its state, for the program's memory and an operation,
the possible answers and the states after them. -/
abbrev Environment (ι : Interface) (σ W : Type) : Type :=
  W → σ → (op : ι.Op) → ι.Res op → W → Prop

/-- A condition on the moments at which operations are issued. -/
abbrev Guard (ι : Interface) (σ W : Type) : Type := W → σ → ι.Op → Prop

/-- Every operation is allowed. -/
abbrev unguarded {ι : Interface} {σ W : Type} : Guard ι σ W := fun _ _ _ => True

/-- The environment restricted to operations issued under a guard. -/
def Environment.restrict {ι : Interface} {σ W : Type} (E : Environment ι σ W)
    (C : Guard ι σ W) : Environment ι σ W :=
  fun w s op r w' => C w s op ∧ E w s op r w'

/-- The environment has an answer. -/
def Environment.enabled {ι : Interface} {σ W : Type} (E : Environment ι σ W) : Guard ι σ W :=
  fun w s op => ∃ r w', E w s op r w'

namespace Program

variable {ι : Interface} {σ α β W : Type} {E E' : Environment ι σ W} {G G' : Guard ι σ W}

/-- Some number of operations have been answered. -/
inductive Steps (E : Environment ι σ W) : W → Program ι σ α → W → Program ι σ α → Prop
  | refl (w : W) (p : Program ι σ α) : Steps E w p w p
  | step {w w' w'' : W} {s : σ} {op : ι.Op} {next : ι.Res op → Program ι σ α} {r : ι.Res op}
      {p : Program ι σ α} (answered : E w s op r w') (rest : Steps E w' (next r) w'' p) :
      Steps E w (call s op next) w'' p

/-- Every operation is issued under the guard, and a finished program meets the postcondition. -/
def Safe (E : Environment ι σ W) (G : Guard ι σ W) (Q : α → W → Prop) :
    Program ι σ α → W → Prop
  | done a, w => Q a w
  | call s op next, w => G w s op ∧ ∀ r w', E w s op r w' → Safe E G Q (next r) w'

variable {p : Program ι σ α}

/-- A program with a result is finished. -/
theorem eq_done_of_result? {a : α} (h : p.result? = some a) : p = done a := by
  cases p with
  | done b =>
    cases h
    rfl
  | call mem op next => cases h

variable {p' : Program ι σ α} {w' : W}

variable {w : W}

/-- A run in an environment that may do less is a run. -/
theorem Steps.mono (h : Steps E' w p w' p')
    (henv : ∀ w s op r w', E' w s op r w' → E w s op r w') : Steps E w p w' p' := by
  induction h with
  | refl => exact .refl _ _
  | step answered _ ih => exact .step (henv _ _ _ _ _ answered) ih

/-- A run of the first part is a run of the composition. -/
theorem Steps.bind (h : Steps E w p w' p')
    (k : α → Program ι σ β) : Steps E w (p.bind k) w' (p'.bind k) := by
  induction h with
  | refl => exact .refl _ _
  | step answered _ ih => exact .step answered ih

/-- A deterministic run whose operations pass a check is a run, if the environment gives these
answers to operations that pass. -/
theorem Steps.of_checkedFor {answer : W → σ → (op : ι.Op) → ι.Res op × W}
    {check : W → σ → ι.Op → Bool}
    (hanswer : ∀ w s op, check w s op = true → E w s op (answer w s op).1 (answer w s op).2)
    (n : ℕ) (w : W) (p : Program ι σ α) (hcheck : checkedFor answer check n w p = true) :
    Steps E w p (runFor answer n w p).1 (runFor answer n w p).2 := by
  induction n generalizing w p with
  | zero => exact .refl w p
  | succ n ih =>
    cases p with
    | done a => exact .refl w _
    | call s op next =>
      obtain ⟨hpass, hrest⟩ := (Bool.and_eq_true _ _).mp hcheck
      exact .step (hanswer w s op hpass) (ih _ _ hrest)

/-- Running a program against a deterministic instance of the environment is a run. -/
theorem Steps.of_runFor {answer : W → σ → (op : ι.Op) → ι.Res op × W}
    (hanswer : ∀ w s op, E w s op (answer w s op).1 (answer w s op).2) (n : ℕ) (w : W)
    (p : Program ι σ α) : Steps E w p (runFor answer n w p).1 (runFor answer n w p).2 := by
  induction n generalizing w p with
  | zero => exact .refl w p
  | succ n ih =>
    cases p with
    | done a => exact .refl w _
    | call s op next => exact .step (hanswer w s op) (ih _ _)

variable {Q : α → W → Prop}

/-- Safety is kept by running: it holds again wherever the program may be stopped. -/
theorem Safe.steps (hsafe : Safe E G Q p w) (hrun : Steps E w p w' p') : Safe E G Q p' w' := by
  induction hrun with
  | refl => exact hsafe
  | step answered _ ih => exact ih (hsafe.2 _ _ answered)

/-- A safe program issues operations under its guard only. -/
theorem Safe.guard {s : σ} {op : ι.Op} (hsafe : Safe E G Q p w) (hrun : Steps E w p w' p')
    (hissued : p'.issued? = some (s, op)) :
    G w' s op := by
  have hsafe' := hsafe.steps hrun
  cases p' with
  | done a => cases hissued
  | call mem op' next =>
    cases hissued
    exact hsafe'.1

/-- An invariant of the steps that a guard allows holds wherever a safe program may be stopped. -/
theorem Safe.invariant {I : W → Prop} (hstep : ∀ w s op r w', G w s op → E w s op r w' → I w → I w')
    (hsafe : Safe E G Q p w) (hrun : Steps E w p w' p') (h : I w) : I w' := by
  induction hrun with
  | refl => exact h
  | step answered _ ih => exact ih (hsafe.2 _ _ answered) (hstep _ _ _ _ _ hsafe.1 answered h)

/-- A safe program ends in its postcondition. -/
theorem Safe.result {a : α} (hsafe : Safe E G Q p w) (hrun : Steps E w p w' (done a)) : Q a w' :=
  hsafe.steps hrun

/-- A program that always finds an answer comes to an end, and in its postcondition. -/
theorem Safe.terminates
    (hsafe : Safe E E.enabled Q p w) : ∃ a w', Steps E w p w' (done a) ∧ Q a w' := by
  induction p generalizing w with
  | done a => exact ⟨a, w, .refl _ _, hsafe⟩
  | call s op next ih =>
    obtain ⟨r, w', hanswer⟩ := hsafe.1
    obtain ⟨a, w'', hrest, hpost⟩ := ih r (hsafe.2 r w' hanswer)
    exact ⟨a, w'', .step hanswer hrest, hpost⟩

/-- Safety of a composition is safety of its parts. -/
theorem safe_bind {Q : β → W → Prop} {k : α → Program ι σ β} :
    Safe E G Q (p.bind k) w ↔ Safe E G (fun a w' => Safe E G Q (k a) w') p w := by
  induction p generalizing w with
  | done a => rfl
  | call s op next ih =>
    constructor
    · rintro ⟨hguard, hnext⟩
      exact ⟨hguard, fun r w' h => (ih r).mp (hnext r w' h)⟩
    · rintro ⟨hguard, hnext⟩
      exact ⟨hguard, fun r w' h => (ih r).mpr (hnext r w' h)⟩

/-- Weaker guards and postconditions, and fewer behaviours, keep safety. -/
theorem Safe.mono {Q' : α → W → Prop} (hsafe : Safe E G Q p w)
    (henv : ∀ w s op r w', E' w s op r w' → E w s op r w') (hguard : ∀ w s op, G w s op → G' w s op)
    (hpost : ∀ a w, Q a w → Q' a w) :
    Safe E' G' Q' p w := by
  induction p generalizing w with
  | done a => exact hpost a w hsafe
  | call s op next ih =>
    exact ⟨hguard w s op hsafe.1, fun r w' h => ih r (hsafe.2 r w' (henv _ _ _ _ _ h))⟩

theorem safe_congr {Q' : α → W → Prop} (h : ∀ a w, Q a w ↔ Q' a w) :
    Safe E G Q p w ↔ Safe E G Q' p w :=
  ⟨fun hs => hs.mono (fun _ _ _ _ _ hr => hr) (fun _ _ _ hg => hg) fun a w => (h a w).mp,
    fun hs => hs.mono (fun _ _ _ _ _ hr => hr) (fun _ _ _ hg => hg) fun a w => (h a w).mpr⟩

/-- Without a guard, every program meets the empty postcondition. -/
theorem safe_always (p : Program ι σ α) (w : W) :
    Safe E (fun _ _ _ => True) (fun _ _ => True) p w := by
  induction p generalizing w with
  | done a => exact trivial
  | call s op next ih => exact ⟨trivial, fun r w' _ => ih r w'⟩

/-- Two safety properties of one program hold together. -/
theorem Safe.and {Q' : α → W → Prop} (h : Safe E G Q p w) (h' : Safe E G' Q' p w) :
    Safe E (fun w s op => G w s op ∧ G' w s op) (fun a w => Q a w ∧ Q' a w) p w := by
  induction p generalizing w with
  | done a => exact ⟨h, h'⟩
  | call s op next ih =>
    exact ⟨⟨h.1, h'.1⟩, fun r w' hr => ih r (h.2 r w' hr) (h'.2 r w' hr)⟩

end Program

namespace Act

variable {ι : Interface} {σ ε α β γ W : Type}
variable {E : Environment ι σ W} {G G' : Guard ι σ W}

/-- The weakest precondition of a stateful program under a guard. -/
def wp (E : Environment ι σ W) (G : Guard ι σ W) (m : Act ι σ ε α)
    (Q : Except ε α → σ → W → Prop) (s : σ) (w : W) : Prop :=
  (m s).Safe E G (fun x w' => Q x.1 x.2 w') w

/-- A postcondition given separately for a result and for an exception. -/
def outcome (P : α → σ → W → Prop) (R : ε → σ → W → Prop) : Except ε α → σ → W → Prop
  | .ok a => P a
  | .error e => R e

@[simp] theorem outcome_ok (P : α → σ → W → Prop) (R : ε → σ → W → Prop) (a : α) :
    outcome P R (.ok a) = P a := rfl

@[simp] theorem outcome_error (P : α → σ → W → Prop) (R : ε → σ → W → Prop) (e : ε) :
    outcome P R (.error e) = R e := rfl

variable {Q Q' : Except ε α → σ → W → Prop} {s : σ} {w : W}

@[simp] theorem wp_pure (a : α) : wp E G (pure a : Act ι σ ε α) Q s w ↔ Q (.ok a) s w := Iff.rfl

@[simp] theorem wp_raise (e : ε) : wp E G (raise e) Q s w ↔ Q (.error e) s w := Iff.rfl

@[simp] theorem wp_get {Q : Except ε σ → σ → W → Prop} :
    wp E G get Q s w ↔ Q (.ok s) s w := Iff.rfl

@[simp] theorem wp_modify {Q : Except ε Unit → σ → W → Prop} (f : σ → σ) :
    wp E G (modify f) Q s w ↔ Q (.ok ()) (f s) w := Iff.rfl

@[simp] theorem wp_lift (x : Except ε α) : wp E G (lift x) Q s w ↔ Q x s w := Iff.rfl

@[simp] theorem wp_perform (op : ι.Op) {Q : Except ε (ι.Res op) → σ → W → Prop} :
    wp E G (perform op) Q s w ↔ G w s op ∧ ∀ r w', E w s op r w' → Q (.ok r) s w' := Iff.rfl

@[simp] theorem wp_when (c : Prop) [Decidable c] (m : Act ι σ ε Unit)
    {Q : Except ε Unit → σ → W → Prop} :
    wp E G (when c m) Q s w ↔ (c → wp E G m Q s w) ∧ (¬c → Q (.ok ()) s w) := by
  unfold when
  split <;> simp_all

section

variable (m : Act ι σ ε α)
include m

/-- The rule of composition. -/
@[simp] theorem wp_bind (f : α → Act ι σ ε β)
    {Q : Except ε β → σ → W → Prop} :
    wp E G (m >>= f) Q s w ↔
      wp E G m (outcome (fun a => wp E G (f a) Q) fun e => Q (.error e)) s w := by
  change Program.Safe E G _ (Program.bind _ _) w ↔ _
  rw [Program.safe_bind]
  refine Program.safe_congr ?_
  rintro ⟨x | x, s'⟩ w' <;> rfl

/-- The rule of exception handling. -/
@[simp] theorem wp_handle (h : ε → Act ι σ ε α) :
    wp E G (handle m h) Q s w ↔
      wp E G m (outcome (fun a => Q (.ok a)) fun e => wp E G (h e) Q) s w := by
  change Program.Safe E G _ (Program.bind _ _) w ↔ _
  rw [Program.safe_bind]
  refine Program.safe_congr ?_
  rintro ⟨x | x, s'⟩ w' <;> rfl

/-- The rule of selective exception handling. -/
@[simp] theorem wp_handleIf (selects : ε → Bool) (h : ε → Act ι σ ε α) :
    wp E G (handleIf m selects h) Q s w ↔
      wp E G m (outcome (fun a => Q (.ok a)) fun e s' w' =>
        if selects e then wp E G (h e) Q s' w' else Q (.error e) s' w') s w := by
  simp only [handleIf, wp_handle]
  refine iff_of_eq (congrArg (fun R => wp E G m (outcome _ R) s w) ?_)
  funext e s' w'
  cases selects e <;> simp

/-- The rule of selective exception handling, by cases. -/
theorem wp_handleIf_cases (selects : ε → Bool) (h : ε → Act ι σ ε α) :
    wp E G (handleIf m selects h) Q s w ↔
      wp E G m (outcome (fun a => Q (.ok a)) fun e s' w' =>
        (selects e = true → wp E G (h e) Q s' w') ∧
          (selects e = false → Q (.error e) s' w')) s w := by
  rw [wp_handleIf]
  refine iff_of_eq (congrArg (fun R => wp E G m (outcome _ R) s w) ?_)
  funext e s' w'
  cases selects e <;> simp

/-- The rule of finalizers. -/
theorem wp_ensuring (finalizer : Act ι σ ε Unit) :
    wp E G (ensuring m finalizer) Q s w ↔
      wp E G m (fun x => wp E G finalizer (outcome (fun _ => Q x) fun e => Q (.error e))) s w := by
  change Program.Safe E G _ (Program.bind _ _) w ↔ _
  rw [Program.safe_bind]
  refine Program.safe_congr fun x w' => ?_
  rw [Program.safe_bind]
  refine Program.safe_congr ?_
  rintro ⟨y | y, s'⟩ w'' <;> rfl

end

/-- The rule of consequence. -/
theorem wp_mono {m : Act ι σ ε α} (hwp : wp E G m Q s w)
    (hpost : ∀ x s w, Q x s w → Q' x s w) : wp E G m Q' s w :=
  Program.Safe.mono hwp (fun _ _ _ _ _ hr => hr) (fun _ _ _ hg => hg) fun x w => hpost x.1 x.2 w

/-- The invariant rule of a loop: the invariant speaks of the elements still to come, the
local variables, the memory and the environment. -/
theorem wp_fold {xs : List α} {f : β → α → Act ι σ ε β} {b : β}
    {Q : Except ε β → σ → W → Prop} (I : List α → β → σ → W → Prop) (hinit : I xs b s w)
    (hstep : ∀ x rest b s w, I (x :: rest) b s w →
      wp E G (f b x) (outcome (fun b' => I rest b') fun e => Q (.error e)) s w)
    (hend : ∀ b s w, I [] b s w → Q (.ok b) s w) : wp E G (fold f b xs) Q s w := by
  induction xs generalizing b s w with
  | nil => exact hend b s w hinit
  | cons x xs ih =>
    rw [fold, wp_bind]
    refine wp_mono (hstep x xs b s w hinit) ?_
    rintro (e | b') s' w' h
    · exact h
    · exact ih h

/-- The invariant rule of a loop without local variables. -/
theorem wp_forEach {xs : List α} {f : α → Act ι σ ε Unit} {Q : Except ε Unit → σ → W → Prop}
    (I : List α → σ → W → Prop) (hinit : I xs s w)
    (hstep : ∀ x rest s w, I (x :: rest) s w →
      wp E G (f x) (outcome (fun _ => I rest) fun e => Q (.error e)) s w)
    (hend : ∀ s w, I [] s w → Q (.ok ()) s w) : wp E G (forEach xs f) Q s w :=
  wp_fold (fun xs _ => I xs) hinit (fun x rest _ => hstep x rest) fun _ => hend

end Act

export Act (outcome outcome_error outcome_ok wp wp_bind wp_ensuring wp_fold wp_forEach wp_get
  wp_handle wp_handleIf wp_handleIf_cases wp_lift wp_modify wp_mono wp_perform wp_pure wp_raise wp_when)

end Preseed.Effects
