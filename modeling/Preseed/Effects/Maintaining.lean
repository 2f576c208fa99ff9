import Preseed.Effects.Safety

/-!
# Programs that keep an invariant

`Act.Maintains` says that a program issues operations under a guard only, keeps an invariant
of its memory and of the environment, and returns what it should, from any situation
that meets the invariant. Such programs compose without mention of their states.
-/

namespace Preseed.Effects.Act

variable {ι : Interface} {σ ε α β W : Type}

/-- Whatever the environment answers, a program operates under the guard and keeps the invariant,
and a result it returns has the property. -/
def Maintains (E : Environment ι σ W) (G : Guard ι σ W) (I : σ → W → Prop) (act : Act ι σ ε α)
    (P : α → Prop) : Prop :=
  ∀ s w, I s w → wp E G act (fun x s' w' => I s' w' ∧ ∀ a, x = .ok a → P a) s w

namespace Maintains

variable {E : Environment ι σ W} {G : Guard ι σ W} {I : σ → W → Prop} {P P' : α → Prop}
  {Q : β → Prop}

theorem pure {a : α} (h : P a) : Maintains E G I (Pure.pure a : Act ι σ ε α) P :=
  fun _ _ hI => ⟨hI, fun _ heq => by cases heq; exact h⟩

theorem raise (e : ε) : Maintains E G I (Act.raise e : Act ι σ ε α) P :=
  fun _ _ hI => ⟨hI, nofun⟩

theorem lift {x : Except ε α} (h : ∀ a, x = .ok a → P a) :
    Maintains E G I (Act.lift x : Act ι σ ε α) P :=
  fun _ _ hI => ⟨hI, h⟩

theorem modify {f : σ → σ} (h : ∀ s w, I s w → I (f s) w) :
    Maintains E G I (Act.modify f : Act ι σ ε Unit) fun _ => True :=
  fun s w hI => ⟨h s w hI, fun _ _ => trivial⟩

/-- The memory that is read meets the invariant, at some state of the environment. -/
theorem get : Maintains E G I (Act.get : Act ι σ ε σ) fun s => ∃ w, I s w :=
  fun _ w hI => ⟨hI, fun _ heq => by cases heq; exact ⟨w, hI⟩⟩

variable {act : Act ι σ ε α}

theorem mono (h : Maintains E G I act P) (hweaker : ∀ a, P a → P' a) :
    Maintains E G I act P' := by
  intro s w hI
  refine wp_mono (h s w hI) ?_
  rintro x s' w' ⟨hI', ha⟩
  exact ⟨hI', fun a heq => hweaker a (ha a heq)⟩

theorem bind {f : α → Act ι σ ε β} (hact : Maintains E G I act P)
    (hf : ∀ a, P a → Maintains E G I (f a) Q) : Maintains E G I (act >>= f) Q := by
  intro s w hI
  rw [wp_bind]
  refine wp_mono (hact s w hI) ?_
  rintro (e | a) s' w' ⟨hI', ha⟩
  · exact ⟨hI', nofun⟩
  · exact hf a (ha a rfl) s' w' hI'

theorem handle {body : Act ι σ ε α} {handler : ε → Act ι σ ε α} (hbody : Maintains E G I body P)
    (hhandler : ∀ e, Maintains E G I (handler e) P) :
    Maintains E G I (Act.handle body handler) P := by
  intro s w hI
  rw [wp_handle]
  refine wp_mono (hbody s w hI) ?_
  rintro (e | a) s' w' ⟨hI', ha⟩
  · exact hhandler e s' w' hI'
  · exact ⟨hI', ha⟩

theorem handleIf {body : Act ι σ ε α} {selects : ε → Bool} {handler : ε → Act ι σ ε α}
    (hbody : Maintains E G I body P) (hhandler : ∀ e, Maintains E G I (handler e) P) :
    Maintains E G I (Act.handleIf body selects handler) P := by
  refine handle hbody fun e => ?_
  split
  · exact hhandler e
  · exact raise e

theorem ite {c : Prop} [Decidable c] {act' : Act ι σ ε α} (h : c → Maintains E G I act P)
    (h' : ¬c → Maintains E G I act' P) : Maintains E G I (if c then act else act') P := by
  split
  · exact h ‹_›
  · exact h' ‹_›

theorem when {c : Prop} [Decidable c] {act : Act ι σ ε Unit}
    (h : c → Maintains E G I act fun _ => True) : Maintains E G I (Act.when c act) fun _ => True :=
  ite h fun _ => pure trivial

theorem fold {xs : List α} {f : β → α → Act ι σ ε β} {b : β} (hb : Q b)
    (hf : ∀ b, Q b → ∀ a ∈ xs, Maintains E G I (f b a) Q) :
    Maintains E G I (Act.fold f b xs) Q := by
  induction xs generalizing b with
  | nil => exact pure hb
  | cons x xs ih =>
    exact bind (hf b hb x (by simp)) fun b' hb' =>
      ih hb' fun b hb a ha => hf b hb a (List.mem_cons_of_mem _ ha)

theorem forEach {xs : List α} {f : α → Act ι σ ε Unit}
    (hf : ∀ a ∈ xs, Maintains E G I (f a) fun _ => True) :
    Maintains E G I (Act.forEach xs f) fun _ => True :=
  fold trivial fun _ _ a ha => hf a ha

/-- What every round of a loop without local variables shows holds of every element. -/
theorem forEach_all {xs : List α} {f : α → Act ι σ ε Unit} {P : α → Prop}
    (hf : ∀ a ∈ xs, Maintains E G I (f a) fun _ => P a) :
    Maintains E G I (Act.forEach xs f) fun _ => ∀ a ∈ xs, P a := by
  induction xs with
  | nil => exact pure (by simp)
  | cons x xs ih =>
    refine bind (hf x (by simp)) fun _ hx => ?_
    refine mono (ih fun a ha => hf a (List.mem_cons_of_mem _ ha)) fun _ hrest => ?_
    exact List.forall_mem_cons.mpr ⟨hx, hrest⟩

/-- Without a guard and an invariant there is nothing to keep. -/
theorem always (act : Act ι σ ε α) :
    Maintains E (fun _ _ _ => True) (fun _ _ => True) act fun _ => True :=
  fun s w _ => Program.Safe.mono (Program.safe_always (act s) w) (fun _ _ _ _ _ hr => hr)
    (fun _ _ _ hg => hg) fun _ _ _ => ⟨trivial, fun _ _ => trivial⟩

end Maintains

/-- Two postconditions of one program hold together; the guard of either one will do. -/
theorem wp_and {E : Environment ι σ W} {G G' : Guard ι σ W} {Q Q' : Except ε α → σ → W → Prop}
    {s : σ} {w : W} (h : wp E G act Q s w)
    (h' : wp E G' act Q' s w) : wp E G' act (fun x s w => Q x s w ∧ Q' x s w) s w :=
  Program.Safe.mono (Program.Safe.and h h') (fun _ _ _ _ _ hr => hr) (fun _ _ _ hg => hg.2)
    fun _ _ hpost => hpost

/-- What holds in an environment holds in a richer one of which it is a view. -/
theorem wp_project {V : Type} {E : Environment ι σ W} {E' : Environment ι σ V} {G : Guard ι σ W}
    {Q : Except ε α → σ → W → Prop} {s : σ} {v : V} (view : V → W)
    (hview : ∀ v s op r v', E' v s op r v' → E (view v) s op r (view v'))
    (h : wp E G act Q s (view v)) :
    wp E' (fun v => G (view v)) act (fun x s v => Q x s (view v)) s v := by
  have hsafe : ∀ (p : Program ι σ (Except ε α × σ)) v,
      p.Safe E G (fun x w => Q x.1 x.2 w) (view v) →
      p.Safe E' (fun v => G (view v)) (fun x v => Q x.1 x.2 (view v)) v := by
    intro p
    induction p with
    | done a => exact fun _ h => h
    | call s op next ih =>
      exact fun v h => ⟨h.1, fun r v' hr => ih r v' (h.2 r (view v') (hview v s op r v' hr))⟩
  exact hsafe (act s) v h

/-- Where an invariant of the environment alone implies the guard, and every operation keeps it,
any program is safe. -/
theorem wp_of_invariant {E : Environment ι σ W} {G : Guard ι σ W} {J : W → Prop}
    (hguard : ∀ w s op, J w → G w s op) (hkeep : ∀ w s op r w', J w → E w s op r w' → J w')
    (act : Act ι σ ε α) (s : σ) {w : W} (h : J w) : wp E G act (fun _ _ w' => J w') s w := by
  have hsafe : ∀ (p : Program ι σ (Except ε α × σ)) w, J w →
      p.Safe E G (fun _ w' => J w') w := by
    intro p
    induction p with
    | done a => exact fun _ h => h
    | call s op next ih =>
      exact fun w h => ⟨hguard w s op h, fun r w' hr => ih r w' (hkeep w s op r w' h hr)⟩
  exact hsafe (act s) w h

end Preseed.Effects.Act
