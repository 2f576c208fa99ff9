/-!
# Programs that raise and keep their state

Rules for `EStateM`: what holds where a program returns, and what holds where it raises. The
state of an object outlives the exception, so a raise says something about the state as well.
-/

namespace Preseed.Effects

variable {ε σ α β : Type}

/-- A program that starts in `s` returns in one condition, or raises in another. -/
def Ends (s : σ) (x : EStateM ε σ α) (returned : α → σ → Prop) (raised : ε → σ → Prop) : Prop :=
  match x s with
  | .ok a s => returned a s
  | .error e s => raised e s

/-- `try` with a handler, which sees the state the exception left. -/
def rescue (x : EStateM ε σ α) (h : ε → EStateM ε σ α) : EStateM ε σ α := fun s =>
  match x s with
  | .ok a s => .ok a s
  | .error e s => h e s

namespace Ends

variable {s : σ} {x : EStateM ε σ α} {returned : α → σ → Prop} {raised : ε → σ → Prop}

theorem pure {a : α} (h : returned a s) : Ends s (Pure.pure a : EStateM ε σ α) returned raised := h

theorem throw {e : ε} (h : raised e s) :
    Ends s (MonadExcept.throw e : EStateM ε σ α) returned raised := h

theorem set {returned : PUnit → σ → Prop} {s' : σ} (h : returned ⟨⟩ s') :
    Ends s (MonadStateOf.set s' : EStateM ε σ PUnit) returned raised := h

theorem modify {returned : PUnit → σ → Prop} {f : σ → σ} (h : returned ⟨⟩ (f s)) :
    Ends s (modifyGet fun s => (PUnit.unit, f s) : EStateM ε σ PUnit) returned raised := h

theorem bind_of_ok {f : α → EStateM ε σ β} {returned : β → σ → Prop} {a : α} {s' : σ}
    (h : x s = .ok a s') : Ends s (x >>= f) returned raised ↔ Ends s' (f a) returned raised := by
  have hbind : (x >>= f) s = f a s' := by
    change EStateM.bind x f s = f a s'
    rw [EStateM.bind, h]
  rw [Ends, Ends, hbind]

theorem bind_of_error {f : α → EStateM ε σ β} {returned : β → σ → Prop} {e : ε} {s' : σ}
    (h : x s = .error e s') : Ends s (x >>= f) returned raised ↔ raised e s' := by
  have hbind : (x >>= f) s = .error e s' := by
    change EStateM.bind x f s = .error e s'
    rw [EStateM.bind, h]
  rw [Ends, hbind]

theorem bind {f : α → EStateM ε σ β} {middle : α → σ → Prop} {returned : β → σ → Prop}
    (hx : Ends s x middle raised) (hf : ∀ a s, middle a s → Ends s (f a) returned raised) :
    Ends s (x >>= f) returned raised := by
  unfold Ends at hx
  cases h : x s with
  | ok a s' =>
    rw [h] at hx
    exact (bind_of_ok h).2 (hf a s' hx)
  | error e s' =>
    rw [h] at hx
    exact (bind_of_error h).2 hx

theorem get_bind {f : σ → EStateM ε σ β} {returned : β → σ → Prop}
    (h : Ends s (f s) returned raised) : Ends s (MonadState.get >>= f) returned raised := h

theorem set_bind {f : PUnit → EStateM ε σ β} {returned : β → σ → Prop} {s' : σ}
    (h : Ends s' (f ⟨⟩) returned raised) :
    Ends s (MonadStateOf.set s' >>= f) returned raised := h

theorem mono {returned' : α → σ → Prop} {raised' : ε → σ → Prop} (hx : Ends s x returned raised)
    (hreturned : ∀ a s, returned a s → returned' a s) (hraised : ∀ e s, raised e s → raised' e s) :
    Ends s x returned' raised' := by
  unfold Ends at hx ⊢
  cases h : x s with
  | ok a s' =>
    rw [h] at hx
    exact hreturned a s' hx
  | error e s' =>
    rw [h] at hx
    exact hraised e s' hx

/-- Where a program raises does not matter. -/
theorem anyRaise (hx : Ends s x returned raised) : Ends s x returned fun _ _ => True :=
  hx.mono (fun _ _ => id) fun _ _ _ => trivial

/-- A result that is known. -/
theorem of_ok (hx : Ends s x returned raised) {a : α} {s' : σ} (h : x s = .ok a s') :
    returned a s' := by
  unfold Ends at hx
  rwa [h] at hx

/-- A program that cannot raise returns. -/
theorem exists_ok (hx : Ends s x returned fun _ _ => False) :
    ∃ a s', x s = .ok a s' ∧ returned a s' := by
  unfold Ends at hx
  cases h : x s with
  | ok a s' =>
    rw [h] at hx
    exact ⟨a, s', rfl, hx⟩
  | error e s' =>
    rw [h] at hx
    exact hx.elim

theorem of_error (hx : Ends s x returned raised) {e : ε} {s' : σ} (h : x s = .error e s') :
    raised e s' := by
  unfold Ends at hx
  rwa [h] at hx

/-- A handler starts where the program raised. -/
theorem rescue {h : ε → EStateM ε σ α} {middle : ε → σ → Prop} (hx : Ends s x returned middle)
    (hh : ∀ e s, middle e s → Ends s (h e) returned raised) :
    Ends s (rescue x h) returned raised := by
  unfold Ends at hx
  cases hxs : x s with
  | ok a s' =>
    rw [hxs] at hx
    rw [Ends, Effects.rescue, hxs]
    exact hx
  | error e s' =>
    rw [hxs] at hx
    have hrun : Effects.rescue x h s = h e s' := by rw [Effects.rescue, hxs]
    rw [Ends, hrun]
    exact hh e s' hx

/-- A loop with an invariant of the elements it has done. -/
theorem forM_done {I : List β → σ → Prop} {f : β → EStateM ε σ PUnit} {xs : List β}
    (hf : ∀ done b rest, xs = done ++ b :: rest → ∀ s, I done s →
      Ends s (f b) (fun _ => I (done ++ [b])) raised) (h : I [] s) :
    Ends s (xs.forM f) (fun _ => I xs) raised := by
  suffices hrest : ∀ rest done, xs = done ++ rest → ∀ s, I done s →
      Ends s (rest.forM f) (fun _ => I xs) raised from hrest xs [] rfl s h
  intro rest
  induction rest with
  | nil =>
    intro done hxs s hs
    obtain rfl : xs = done := by simpa using hxs
    exact pure hs
  | cons b rest ih =>
    intro done hxs s hs
    refine bind (hf done b rest hxs s hs) fun _ s' hs' => ?_
    exact ih (done ++ [b]) (by simp [hxs]) s' hs'

theorem forM_append {f : β → EStateM ε σ PUnit} {xs ys : List β} {middle : σ → Prop}
    {returned : PUnit → σ → Prop} (hxs : Ends s (xs.forM f) (fun _ => middle) raised)
    (hys : ∀ s, middle s → Ends s (ys.forM f) returned raised) :
    Ends s ((xs ++ ys).forM f) returned raised := by
  induction xs generalizing s with
  | nil => exact hys s hxs
  | cons b xs ih =>
    change Ends s (f b >>= fun _ => (xs ++ ys).forM f) returned raised
    change Ends s (f b >>= fun _ => xs.forM f) (fun _ => middle) raised at hxs
    cases h : f b s with
    | ok a s' =>
      rw [bind_of_ok h] at hxs ⊢
      exact ih hxs
    | error e s' =>
      rw [bind_of_error h] at hxs ⊢
      exact hxs

/-- A loop that keeps an invariant. -/
theorem forM {I : σ → Prop} {xs : List β} {f : β → EStateM ε σ PUnit}
    (hf : ∀ b ∈ xs, ∀ s, I s → Ends s (f b) (fun _ => I) raised) (h : I s) :
    Ends s (xs.forM f) (fun _ => I) raised :=
  forM_done (fun done b rest hxs s hs => hf b (by simp [hxs]) s hs) h

end Ends

/-- The run of a program ends in `t`. -/
def runsTo [DecidableEq σ] (x : EStateM ε σ Unit) (s t : σ) : Bool :=
  match x s with
  | .ok _ s' => s' = t
  | .error _ _ => false

theorem ok_of_runsTo [DecidableEq σ] {x : EStateM ε σ Unit} {s t : σ} (h : runsTo x s t = true) :
    x s = .ok () t := by
  unfold runsTo at h
  cases hx : x s with
  | ok a s' =>
    rw [hx] at h
    rw [of_decide_eq_true h]
  | error e s' =>
    rw [hx] at h
    cases h

end Preseed.Effects
