import Preseed.Effects.Safety

/-!
# Triples

A triple speaks of the environment's state only: from a precondition, a program issues operations
under a guard, and returns in one postcondition or raises in another. The rules follow the
program's structure.
-/

namespace Preseed.Effects

variable {ι : Interface} {σ ε α β W : Type} {E : Environment ι σ W} {G : Guard ι σ W}

/-- From `P`, a program returns in `Q`, or raises in `R`; its operations pass the guard. -/
def Triple (E : Environment ι σ W) (G : Guard ι σ W) (P : W → Prop) (m : Act ι σ ε α)
    (Q : α → W → Prop) (R : W → Prop) : Prop :=
  ∀ s w, P w → wp E G m (outcome (fun a _ => Q a) fun _ _ => R) s w

namespace Triple

variable {P P' R S : W → Prop} {Q Q' : α → W → Prop} {m : Act ι σ ε α}

theorem pure {a : α} (h : ∀ w, P w → Q a w) : Triple E G P (Pure.pure a : Act ι σ ε α) Q R :=
  fun _ w hw => h w hw

theorem raise {e : ε} (h : ∀ w, P w → R w) : Triple E G P (Act.raise e : Act ι σ ε α) Q R :=
  fun _ w hw => h w hw

/-- The rule of composition. -/
theorem bind {f : α → Act ι σ ε β} {Q' : β → W → Prop} (hm : Triple E G P m Q R)
    (hf : ∀ a, Triple E G (Q a) (f a) Q' R) : Triple E G P (m >>= f) Q' R := by
  intro s w hw
  rw [wp_bind]
  refine wp_mono (hm s w hw) ?_
  rintro (e | a) s' w' h
  · exact h
  · exact hf a s' w' h

/-- The rule of exception handling. -/
theorem handle {h : ε → Act ι σ ε α} (hm : Triple E G P m Q S)
    (hh : ∀ e, Triple E G S (h e) Q R) : Triple E G P (Act.handle m h) Q R := by
  intro s w hw
  rw [wp_handle]
  refine wp_mono (hm s w hw) ?_
  rintro (e | a) s' w' hpost
  · exact hh e s' w' hpost
  · exact hpost

/-- The rule of consequence. -/
theorem mono (hm : Triple E G P m Q R) (hP : ∀ w, P' w → P w) (hQ : ∀ a w, Q a w → Q' a w)
    (hR : ∀ w, R w → S w) : Triple E G P' m Q' S := by
  intro s w hw
  refine wp_mono (hm s w (hP w hw)) ?_
  rintro (e | a) s' w' h
  · exact hR w' h
  · exact hQ a w' h

/-- A stronger precondition. -/
theorem before (hm : Triple E G P m Q R) (hP : ∀ w, P' w → P w) : Triple E G P' m Q R :=
  hm.mono hP (fun _ _ h => h) fun _ h => h

theorem ite {c : Prop} [Decidable c] {m' : Act ι σ ε α} (hm : c → Triple E G P m Q R)
    (hm' : ¬c → Triple E G P m' Q R) : Triple E G P (if c then m else m') Q R := by
  split
  · exact hm ‹_›
  · exact hm' ‹_›

/-- What is known whatever the state is may be assumed. -/
theorem assume {p : Prop} (hp : ∀ w, P w → p) (hm : p → Triple E G P m Q R) :
    Triple E G P m Q R :=
  fun s w hw => hm (hp w hw) s w hw

/-- The rule of two preconditions. -/
theorem or {P' : W → Prop} (hm : Triple E G P m Q R) (hm' : Triple E G P' m Q R) :
    Triple E G (fun w => P w ∨ P' w) m Q R := by
  rintro s w (hw | hw)
  · exact hm s w hw
  · exact hm' s w hw

/-- Two facts about one program hold together. -/
theorem and (hm : Triple E G P m Q R) (hm' : Triple E G P' m Q' S) :
    Triple E G (fun w => P w ∧ P' w) m (fun a w => Q a w ∧ Q' a w) fun w => R w ∧ S w := by
  intro s w hw
  refine ((hm s w hw.1).and (hm' s w hw.2)).mono (fun _ _ _ _ _ hr => hr) (fun _ _ _ hg => hg.1) ?_
  rintro ⟨e | a, s'⟩ w' h
  · exact h
  · exact h

/-- The rule of a part of which nothing is asked. -/
theorem always (m : Act ι σ ε α) :
    Triple E (fun _ _ _ => True) P m (fun _ _ => True) fun _ => True := by
  refine fun s w _ => (Program.safe_always (m s) w).mono (fun _ _ _ _ _ hr => hr)
    (fun _ _ _ hg => hg) ?_
  rintro ⟨e | a, s'⟩ w' h
  · exact trivial
  · exact trivial

/-- A value of which the precondition knows something. -/
theorem exists_pre {γ : Type} {P : γ → W → Prop} (hm : ∀ c, Triple E G (P c) m Q R) :
    Triple E G (fun w => ∃ c, P c w) m Q R := by
  rintro s w ⟨c, hw⟩
  exact hm c s w hw

/-- The rule of an explicit result. -/
theorem lift {x : Except ε α} (hok : ∀ a w, x = .ok a → P w → Q a w) (hR : ∀ w, P w → R w) :
    Triple E G P (Act.lift x : Act ι σ ε α) Q R := by
  cases x with
  | ok a => exact fun _ w hw => hok a w rfl hw
  | error e => exact fun _ w hw => hR w hw

/-- The invariant rule of a loop with local variables. -/
theorem fold {γ : Type} {l : List γ} {f : α → γ → Act ι σ ε α} {b : α}
    (I : List γ → α → W → Prop)
    (hstep : ∀ x rest b, Triple E G (I (x :: rest) b) (f b x) (I rest) R) :
    Triple E G (I l b) (Act.fold f b l) (I []) R := by
  induction l generalizing b with
  | nil => exact pure fun _ hw => hw
  | cons x xs ih => exact bind (hstep x xs b) fun b' => ih

/-- The invariant rule of a loop. -/
theorem forEach {γ : Type} {l : List γ} {f : γ → Act ι σ ε Unit} (I : List γ → W → Prop)
    (hstep : ∀ x rest, Triple E G (I (x :: rest)) (f x) (fun _ => I rest) R) :
    Triple E G (I l) (Act.forEach l f) (fun _ => I []) R :=
  fold (fun xs _ => I xs) fun x rest _ => hstep x rest

/-- The rule of a loop whose rounds keep one predicate. -/
theorem forEach_const {γ : Type} {l : List γ} {f : γ → Act ι σ ε Unit} {I : W → Prop}
    (hstep : ∀ x ∈ l, Triple E G I (f x) (fun _ => I) R) :
    Triple E G I (Act.forEach l f) (fun _ => I) R := by
  induction l with
  | nil => exact pure fun _ hw => hw
  | cons x xs ih =>
    exact bind (hstep x (List.mem_cons_self ..)) fun _ =>
      ih fun y hy => hstep y (List.mem_cons_of_mem _ hy)

end Triple

/-- What every permitted step keeps may be assumed of each answer. -/
theorem Program.Safe.of_invariant {I : W → Prop} {Q : α → W → Prop} {p : Program ι σ α} {w : W}
    (hstep : ∀ w s op r w', G w s op → E w s op r w' → I w → I w')
    (hsafe : p.Safe (fun w s op r w' => E w s op r w' ∧ I w') G Q w) (h : I w) :
    p.Safe E G Q w := by
  induction p generalizing w with
  | done a => exact hsafe
  | call s op next ih =>
    refine ⟨hsafe.1, fun r w' hr => ?_⟩
    have hkept := hstep _ _ _ _ _ hsafe.1 hr h
    exact ih r (hsafe.2 r w' ⟨hr, hkept⟩) hkept

end Preseed.Effects
