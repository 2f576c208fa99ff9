import Preseed.Effects.Safety

/-!
# What a program does to its memory

A program guarantees a relation between memories if the memory moves along this
relation from each operation to the next, whatever the answers are. Unlike a
safety property this needs no environment, and for a preorder it is a matter of
the program's structure: only `modify` has an obligation.
-/

namespace Preseed.Effects

namespace Program

variable {ι : Interface} {σ α β W : Type} {E : Environment ι σ W} {R R' : σ → σ → Prop}

/-- The memory of a program that ends with its memory. -/
def memory : Program ι σ (α × σ) → σ
  | done x => x.2
  | call s _ _ => s

/-- The memory moves along a relation, from a given one to each operation and to the end. -/
def Follows (R : σ → σ → Prop) : Program ι σ (α × σ) → σ → Prop
  | done x, s => R s x.2
  | call s' _ next, s => R s s' ∧ ∀ r, Follows R (next r) s'

variable {s : σ} {p : Program ι σ (α × σ)}

/-- The first memory is related. -/
theorem Follows.memory (h : p.Follows R s) : R s p.memory := by
  cases p with
  | done x => exact h
  | call s' op next => exact h.1

/-- A program may be followed from an earlier memory. -/
theorem Follows.before [IsTrans σ R] {s' : σ} (h : p.Follows R s')
    (hbefore : R s s') : p.Follows R s := by
  cases p with
  | done x => exact trans_of R hbefore h
  | call s'' op next => exact ⟨trans_of R hbefore h.1, h.2⟩

/-- A composition follows the relation if its parts do. -/
theorem Follows.bind [IsTrans σ R] {k : α × σ → Program ι σ (β × σ)} (h : p.Follows R s)
    (hk : ∀ x, (k x).Follows R x.2) : (p.bind k).Follows R s := by
  induction p generalizing s with
  | done x => exact (hk x).before h
  | call s' op next ih => exact ⟨h.1, fun r => ih r (h.2 r)⟩

end Program

namespace Act

variable {ι : Interface} {σ ε α β γ : Type} {R : σ → σ → Prop}

/-- A stateful program moves its memory along a relation only. -/
def Keeps (R : σ → σ → Prop) (m : Act ι σ ε α) : Prop := ∀ s, (m s).Follows R s

namespace Keeps

variable [IsPreorder σ R]

theorem pure (a : α) : Keeps R (Pure.pure a : Act ι σ ε α) := fun s => refl_of R s

theorem raise (e : ε) : Keeps R (Act.raise e : Act ι σ ε α) := fun s => refl_of R s

theorem get : Keeps R (Act.get : Act ι σ ε σ) := fun s => refl_of R s

theorem lift (x : Except ε α) : Keeps R (Act.lift x : Act ι σ ε α) := fun s => refl_of R s

theorem perform (op : ι.Op) : Keeps R (Act.perform op : Act ι σ ε (ι.Res op)) :=
  fun s => ⟨refl_of R s, fun _ => refl_of R s⟩

omit [IsPreorder σ R] in
theorem modify {f : σ → σ} (h : ∀ s, R s (f s)) : Keeps R (Act.modify f : Act ι σ ε Unit) := h

variable {m : Act ι σ ε α}

/-- A composition from one memory, of which only the second part keeps to the relation always. -/
theorem bind_from {f : α → Act ι σ ε β} {s : σ} (hm : (m s).Follows R s)
    (hf : ∀ a, Keeps R (f a)) : ((m >>= f) s).Follows R s := by
  refine hm.bind fun x => ?_
  obtain ⟨e | a, s'⟩ := x
  · exact refl_of R s'
  · exact hf a s'

theorem bind {f : α → Act ι σ ε β} (hm : Keeps R m) (hf : ∀ a, Keeps R (f a)) : Keeps R (m >>= f) :=
  fun s => bind_from (hm s) hf

theorem handleIf {selects : ε → Bool} {h : ε → Act ι σ ε α} (hm : Keeps R m)
    (hh : ∀ e, Keeps R (h e)) : Keeps R (Act.handleIf m selects h) := by
  intro s
  refine (hm s).bind fun x => ?_
  obtain ⟨e | a, s'⟩ := x
  · change (ite _ (h e) (Act.raise e) s').Follows R s'
    split
    · exact hh e s'
    · exact refl_of R s'
  · exact refl_of R s'

omit [IsPreorder σ R] in
theorem ite {c : Prop} [Decidable c] {m' : Act ι σ ε α} (hm : Keeps R m) (hm' : Keeps R m') :
    Keeps R (if c then m else m') := by
  split <;> assumption

theorem when {c : Prop} [Decidable c] {m : Act ι σ ε Unit} (hm : Keeps R m) :
    Keeps R (Act.when c m) :=
  ite hm (pure ())

theorem fold {f : β → α → Act ι σ ε β} (hf : ∀ b a, Keeps R (f b a)) (b : β) (xs : List α) :
    Keeps R (Act.fold f b xs) := by
  induction xs generalizing b with
  | nil => exact pure b
  | cons x xs ih => exact bind (hf b x) fun b' => ih b'

theorem forEach {xs : List α} {f : α → Act ι σ ε Unit} (hf : ∀ a, Keeps R (f a)) :
    Keeps R (Act.forEach xs f) :=
  fold (fun _ a => hf a) () xs

end Keeps

end Act

end Preseed.Effects
