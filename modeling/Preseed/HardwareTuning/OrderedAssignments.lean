import Preseed.HardwareTuning.PairedWrites

/-!
# The order of plain assignments

What `Engine.ordered` yields when a write is an assignment: every key once, and at no
point of the order is a pair inverted whose current and whose planned values are in
order, even if only one of its ends is planned.
-/

namespace Preseed.HardwareTuning

open Effects

/-- Controls that answer their value and take every value that is written. -/
def assigning : Environment Hardware Journal (String → Value) := fun hw _ op answer hw' =>
  match op with
  | .read key => answer = .ok (hw key) ∧ hw' = hw
  | .write key value => answer = .ok () ∧ hw' = Function.update hw key value
  | .writeMaximum _ | .restoreValue _ _ | .save _ | .temperature | .checkOwnership _ => hw' = hw

/-- The yielded keys, each of them written. -/
def assignInOrder (inventory : Inventory) (values : List (String × Value)) :
    EngineAct (List String) :=
  ordered inventory values [] fun yielded key value => do
    writeControl key value
    pure (yielded ++ [key])

/-- The value a control is to have: the planned one, or the one it has. -/
def aimedAt (values : List (String × Value)) (hw₀ : String → Value) (key : String) : Value :=
  (values.lookup key).getD (hw₀ key)

/-- The pairs that are in order, and are to be in order, are in order. -/
def KeptInOrder (inventory : Inventory) (values : List (String × Value)) (hw₀ hw : String → Value) :
    Prop :=
  ∀ lo hi, inventory.PairEnds lo hi → InOrder (hw₀ lo) (hw₀ hi) →
    InOrder (aimedAt values hw₀ lo) (aimedAt values hw₀ hi) → InOrder (hw lo) (hw hi)

/-- The visited controls have what they are to have, and the others what they had. -/
structure Assigned (inventory : Inventory) (values : List (String × Value)) (hw₀ : String → Value)
    (visited : List String) (hw : String → Value) : Prop where
  /-- Pairs are visited as a whole. -/
  whole : Visited inventory values visited
  /-- The values. -/
  assigned : ∀ key, hw key = if key ∈ visited then aimedAt values hw₀ key else hw₀ key

section

variable {inventory : Inventory} {values : List (String × Value)} {hw₀ hw : String → Value}
  {visited : List String}

section

variable (h : Assigned inventory values hw₀ visited hw)
include h

/-- An end that is not planned is to stay as it is. -/
theorem Assigned.unplanned {key : String}
    (hnot : key ∉ values.map Prod.fst) : hw key = aimedAt values hw₀ key := by
  have hnew : key ∉ visited := fun hin => hnot (h.whole.requested hin)
  have hnone : values.lookup key = none := by
    cases hlookup : values.lookup key with
    | none => rfl
    | some value => exact (hnot (List.mem_map_of_mem (mem_of_lookup hlookup))).elim
  rw [h.assigned key, if_neg hnew]
  unfold aimedAt
  rw [hnone]
  rfl

/-- Between two positions of the order all pairs are in order. -/
theorem Assigned.kept :
    KeptInOrder inventory values hw₀ hw := by
  intro lo hi hends hcurrent haimed
  have hdone : ∀ key ∈ visited, hw key = aimedAt values hw₀ key := fun key hin => by
    rw [h.assigned key, if_pos hin]
  have hold : ∀ key ∉ visited, hw key = hw₀ key := fun key hnew => by
    rw [h.assigned key, if_neg hnew]
  by_cases hlo : lo ∈ visited
  · by_cases hhi : hi ∈ visited
    · rw [hdone lo hlo, hdone hi hhi]
      exact haimed
    · -- The upper end is not planned, or it would have been visited.
      have hnot : hi ∉ values.map Prod.fst := fun hin =>
        hhi ((h.whole.closed lo hi hends (h.whole.requested hlo) hin).mp hlo)
      rw [hdone lo hlo, h.unplanned hnot]
      exact haimed
  · by_cases hhi : hi ∈ visited
    · have hnot : lo ∉ values.map Prod.fst := fun hin =>
        hlo ((h.whole.closed lo hi hends hin (h.whole.requested hhi)).mpr hhi)
      rw [hdone hi hhi, h.unplanned hnot]
      exact haimed
    · rw [hold lo hlo, hold hi hhi]
      exact hcurrent

/-- Writing the next controls. -/
theorem Assigned.next {order : List String}
    (hvisited : Visited inventory values (visited ++ order)) {hw' : String → Value}
    (hdone : ∀ key ∈ order, hw' key = aimedAt values hw₀ key)
    (hsame : ∀ key ∉ order, hw' key = hw key) :
    Assigned inventory values hw₀ (visited ++ order) hw' := by
  refine ⟨hvisited, fun key => ?_⟩
  by_cases hin : key ∈ order
  · rw [hdone key hin, if_pos (List.mem_append_right _ hin)]
  · rw [hsame key hin, h.assigned key]
    simp [hin]

end

/-- The value of a planned control. -/
theorem aimedAt_of_lookup {key : String} {value : Value} (h : values.lookup key = some value) :
    aimedAt values hw₀ key = value := by
  unfold aimedAt
  rw [h]
  rfl

/-- The first write of a pair keeps all pairs in order, if it keeps its own pair in order. -/
theorem KeptInOrder.first (h : KeptInOrder inventory values hw₀ hw) {key : String} {value : Value}
    (hlow : ∀ hi, inventory.PairEnds key hi → InOrder (hw₀ key) (hw₀ hi) →
      InOrder (aimedAt values hw₀ key) (aimedAt values hw₀ hi) → InOrder value (hw hi))
    (hhigh : ∀ lo, inventory.PairEnds lo key → InOrder (hw₀ lo) (hw₀ key) →
      InOrder (aimedAt values hw₀ lo) (aimedAt values hw₀ key) → InOrder (hw lo) value) :
    KeptInOrder inventory values hw₀ (Function.update hw key value) := by
  intro lo hi hends hcurrent haimed
  by_cases hlo : lo = key
  · subst hlo
    rw [Function.update_self, Function.update_of_ne hends.ne.symm]
    exact hlow hi hends hcurrent haimed
  · rw [Function.update_of_ne hlo]
    by_cases hhi : hi = key
    · subst hhi
      rw [Function.update_self]
      exact hhigh lo hends hcurrent haimed
    · rw [Function.update_of_ne hhi]
      exact h lo hi hends hcurrent haimed

/-- The rule of one assignment. -/
private theorem wp_assign {G : Guard Hardware Journal (String → Value)} {yielded : List String}
    {key : String} {value : Value} {s : Journal} (hguard : G hw s (.write key value))
    {Q : Except Failure (List String) → Journal → (String → Value) → Prop}
    (h : Q (.ok (yielded ++ [key])) s (Function.update hw key value)) :
    wp assigning G (do
      writeControl key value
      pure (yielded ++ [key])) Q s hw := by
  rw [wp_bind]
  refine (wp_request (.write key value)).mpr ⟨hguard, ?_⟩
  rintro answer hw' ⟨rfl, rfl⟩
  exact h

/-- The rule of the assignments in their order. -/
theorem wp_assignInOrder (hnodup : (values.map Prod.fst).Nodup)
    (hknown : ∀ key ∈ values.map Prod.fst, (inventory.get? key).isSome) (s : Journal) :
    wp assigning (fun hw _ _ => KeptInOrder inventory values hw₀ hw)
      (assignInOrder inventory values)
      (fun x _ hw => KeptInOrder inventory values hw₀ hw ∧
        (∀ yielded, x = .ok yielded → yielded.Perm (values.map Prod.fst)) ∧
        ∀ e, x = .error e → ∃ lo hi low, inventory.PairEnds lo hi ∧
          values.lookup lo = some low ∧ low.gt (hw₀ hi) = .error e) s hw₀ := by
  have hinit : Assigned inventory values hw₀ [] hw₀ :=
    ⟨⟨List.nodup_nil, List.nil_subset _, by simp⟩, by simp⟩
  refine wp_orderedPositions hnodup hknown
    (fun visited yielded _ hw => yielded = visited ∧ Assigned inventory values hw₀ visited hw)
    ⟨rfl, hinit⟩ ?_ ?_ ?_
  · -- A control whose partner is not planned.
    rintro visited _ s hw key value ⟨rfl, h⟩ hnew hvalue - halone
    have hkey : key ∈ values.map Prod.fst := List.mem_map_of_mem (mem_of_lookup hvalue)
    refine wp_assign h.kept ⟨rfl, h.next (h.whole.single hkey hnew halone) ?_ ?_⟩
    · intro k hk
      rw [List.mem_singleton.mp hk, Function.update_self, aimedAt_of_lookup hvalue]
    · intro k hk
      exact Function.update_of_ne (fun heq => hk (List.mem_singleton.mpr heq)) value hw
  · -- Both ends of a pair.
    rintro _ visited s hw lo hi low high ⟨rfl, h⟩ hends hlo hhi hlow hhigh -
    have hkeyLo : lo ∈ values.map Prod.fst := List.mem_map_of_mem (mem_of_lookup hlow)
    have hkeyHi : hi ∈ values.map Prod.fst := List.mem_map_of_mem (mem_of_lookup hhigh)
    have hcurrentLo : hw lo = hw₀ lo := by rw [h.assigned lo, if_neg hlo]
    have hcurrentHi : hw hi = hw₀ hi := by rw [h.assigned hi, if_neg hhi]
    refine ⟨h.kept, ?_⟩
    rintro answer hw' ⟨rfl, rfl⟩
    refine ⟨fun e he => ⟨h.kept, nofun, ?_⟩, ?_⟩
    · rintro _ ⟨⟩
      exact ⟨lo, hi, low, hends, hlow, hcurrentHi ▸ he⟩
    rintro current ⟨⟩
    -- The two writes, once the first one is known to keep the pair in order.
    have hboth : ∀ first second v v', [first, second].Perm [lo, hi] →
        values.lookup first = some v → values.lookup second = some v' → first ≠ second →
        KeptInOrder inventory values hw₀ (Function.update hw' first v) →
        wp assigning (fun hw _ _ => KeptInOrder inventory values hw₀ hw)
          ((do
            writeControl first v
            pure (visited ++ [first])) >>= fun yielded => do
              writeControl second v'
              pure (yielded ++ [second]))
          (outcome (fun yielded _ hw => yielded = visited ++ [first, second] ∧
              Assigned inventory values hw₀ (visited ++ [first, second]) hw)
            fun e _ hw => KeptInOrder inventory values hw₀ hw ∧
              (∀ yielded, (Except.error e : Except Failure (List String)) = .ok yielded →
                yielded.Perm (values.map Prod.fst)) ∧
              ∀ e', (Except.error e : Except Failure (List String)) = .error e' →
                ∃ lo hi low, inventory.PairEnds lo hi ∧
                  values.lookup lo = some low ∧ low.gt (hw₀ hi) = .error e') s hw' := by
      intro first second v v' hperm hv hv' hne hkept
      rw [wp_bind]
      refine wp_assign h.kept ?_
      rw [outcome_ok]
      refine wp_assign hkept ?_
      refine ⟨by simp, h.next (h.whole.pair hends hkeyLo hkeyHi hlo hhi hperm) ?_ ?_⟩
      · intro k hk
        rcases List.mem_cons.mp hk with rfl | hk
        · rw [Function.update_of_ne hne, Function.update_self, aimedAt_of_lookup hv]
        · rw [List.mem_singleton.mp hk, Function.update_self, aimedAt_of_lookup hv']
      · intro k hk
        simp only [List.mem_cons, List.not_mem_nil, or_false, not_or] at hk
        rw [Function.update_of_ne hk.2, Function.update_of_ne hk.1]
    refine ⟨fun hgt => ?_, fun hle => ?_⟩
    · refine hboth hi lo high low (List.Perm.swap _ _ _) hhigh hlow hends.ne.symm
        (h.kept.first (fun hi' hends' => (hends.not_both hends').elim) ?_)
      intro lo' hends' hcurrent haimed
      obtain rfl := hends'.lower_unique hends
      rw [hcurrentLo]
      rw [aimedAt_of_lookup hlow, aimedAt_of_lookup hhigh] at haimed
      exact hcurrent.between (hcurrentHi ▸ hgt) haimed
    · refine hboth lo hi low high (List.Perm.refl _) hlow hhigh hends.ne
        (h.kept.first ?_ fun lo' hends' => (hends'.not_both hends).elim)
      intro hi' hends' _ _
      obtain rfl := hends'.upper_unique hends
      exact hle
  · rintro visited _ s hw hperm ⟨rfl, h⟩
    exact ⟨h.kept, fun yielded hyielded => by cases hyielded; exact hperm, nofun⟩

/-- In every run of the assignments in their order, pairs are kept in order; at its end every key
has been yielded once, unless a planned value could not be compared with the current one. -/
theorem assignInOrder_keeps (hnodup : (values.map Prod.fst).Nodup)
    (hknown : ∀ key ∈ values.map Prod.fst, (inventory.get? key).isSome) {s : Journal}
    {p : Program Hardware Journal (Except Failure (List String) × Journal)}
    (hrun : Program.Steps assigning hw₀ (assignInOrder inventory values s) hw p) :
    KeptInOrder inventory values hw₀ hw ∧
      (∀ yielded s', p.result? = some (.ok yielded, s') → yielded.Perm (values.map Prod.fst)) ∧
      ∀ e s', p.result? = some (.error e, s') → ∃ lo hi low, inventory.PairEnds lo hi ∧
        values.lookup lo = some low ∧ low.gt (hw₀ hi) = .error e := by
  have hsafe := (wp_assignInOrder hnodup hknown s).steps hrun
  cases p with
  | done x =>
    obtain ⟨hkept, hok, herror⟩ := hsafe
    refine ⟨hkept, fun yielded s' hx => hok yielded ?_, fun e s' hx => herror e ?_⟩
    · rw [Option.some.inj hx]
    · rw [Option.some.inj hx]
  | call mem op next => exact ⟨hsafe.1, nofun, nofun⟩

end

end Preseed.HardwareTuning
