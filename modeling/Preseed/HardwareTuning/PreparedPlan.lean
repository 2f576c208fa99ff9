import Preseed.HardwareTuning.PairedWrites

/-!
# What an apply has planned

`Engine.apply` in two parts: everything up to the snapshot, and the writes with what
undoes them. Whatever the environment answers, the planned values are those of
different controls of the inventory, and where both ends of a pair are planned, their
values are in order.
-/

namespace Preseed.HardwareTuning

open Effects List

/-- The local variables of `Engine.apply` when the snapshot has been saved. -/
structure Prepared where
  /-- The policy. -/
  policy : Policy
  /-- `values`. -/
  values : List (String × Value)
  /-- `affected`. -/
  affected : List String
  /-- `skipped`. -/
  skipped : List String
  /-- The temperature the apply was allowed at. -/
  temperature : Option ℚ

/-- `Engine.apply` from its resolved plan to its snapshot. -/
def preparePlan (inventory : Inventory) (policy : Policy) (name : Profile)
    (values : List (String × Value)) (skipped : List String) : EngineAct Prepared := do
  let temperature ← readTemperature
  thermalGate policy temperature
  let risk ← Act.lift (risky inventory values)
  Act.when (risk ∧ temperature.isNone)
    (Act.raise (tuningError "overclock/power increases require a readable temperature sensor"))
  let changed ← changedKeys inventory values
  let affected := sortedKeys (changed.flatMap (sideEffects inventory))
  let values := values.filter fun kv => kv.1 ∈ affected
  let entries ← Act.fold (snapshot values) [] affected
  Act.modify fun _ => ⟨some name, entries⟩
  saveJournal ⟨some name, entries⟩
  pure ⟨policy, values, affected, skipped, temperature⟩

/-- `Engine.apply` up to its snapshot. -/
def prepare (engine : Engine) (name : Profile) (settings : Settings) : EngineAct Prepared := do
  let journal ← Act.get
  Act.when (journal.entries ≠ []) (giveUp engine)
  let (values, skipped) ← plan engine name settings
  match engine.policy with
  | none => Act.raise (tuningError "invalid profile")
  | some policy => preparePlan engine.inventory policy name values skipped

/-- `Engine.apply` inside its `try`. -/
def Prepared.carryOut (prepared : Prepared) (inventory : Inventory) (name : Profile) :
    EngineAct ApplyReport :=
  writeAndVerify inventory prepared.policy name prepared.values prepared.affected prepared.skipped
    prepared.temperature

/-- `Engine.apply` prepares, carries out what it has prepared, and undoes it when that fails. -/
theorem apply_eq (engine : Engine) (name : Profile) (settings : Settings) :
    apply engine name settings = (do
      let prepared ← prepare engine name settings
      Act.handle (prepared.carryOut engine.inventory name) (undo engine.inventory)) := by
  have hplan : ∀ policy values skipped,
      applyPlan engine.inventory policy name values skipped = (do
        let prepared ← preparePlan engine.inventory policy name values skipped
        Act.handle (prepared.carryOut engine.inventory name) (undo engine.inventory)) := by
    intro policy values skipped
    unfold applyPlan preparePlan
    simp only [Act.bind_assoc, Act.pure_bind]
    rfl
  unfold apply prepare
  simp only [Act.bind_assoc]
  cases engine.policy with
  | none => simp only [Act.raise_bind]
  | some policy => simp only [hplan]

section

variable {inventory : Inventory} {values : List (String × Value)} {lo hi : String} {W : Type}
  {E : Environment Hardware Journal W}

/-- The members of a pair are its two ends. -/
theorem pairMembers_of_pairEnds {a b : Knob} {pair : String} (hends : inventory.PairEnds lo hi)
    (ha : inventory.get? lo = some a) (hb : inventory.get? hi = some b)
    (hpair : a.pair = some pair) :
    pairMembers inventory pair = [(some .min, a), (some .max, b)] ∨
      pairMembers inventory pair = [(some .max, b), (some .min, a)] := by
  have hends' := hends
  obtain ⟨a', b', ha', hb', -, hsame, hmin, hmax⟩ := hends'
  obtain rfl : a = a' := Option.some.inj (ha.symm.trans ha')
  obtain rfl : b = b' := Option.some.inj (hb.symm.trans hb')
  have hne : a ≠ b := by
    rintro rfl
    rw [hmin] at hmax
    cases hmax
  have hmem : ∀ k, k ∈ inventory.knobs.filter (fun k => k.pair = some pair) ↔ k ∈ [a, b] := by
    intro k
    simp only [mem_filter, decide_eq_true_eq, mem_cons, not_mem_nil, or_false]
    constructor
    · rintro ⟨hk, hkpair⟩
      by_contra hnot
      rw [not_or] at hnot
      have hget := Inventory.get?_of_mem hk
      have hid : a.id ≠ k.id := by
        intro heq
        rw [← heq, Inventory.id_of_get? ha, ha, Option.some.injEq] at hget
        exact hnot.1 hget.symm
      rcases inventory.paired a (Inventory.mem_of_get? ha) k hk (by simp [hpair])
        (hpair.trans hkpair.symm) hid with hak | hka
      · have hupper : inventory.PairEnds lo k.id :=
          ⟨a, k, ha, hget, by simp [hpair], hpair.trans hkpair.symm, hak⟩
        have hsameId := hupper.upper_unique hends
        rw [hsameId, hb, Option.some.injEq] at hget
        exact hnot.2 hget.symm
      · have hlower : inventory.PairEnds k.id lo :=
          ⟨k, a, hget, ha, by simp [hkpair], hkpair.trans hpair.symm, hka⟩
        exact hlower.not_both hends
    · rintro (rfl | rfl)
      · exact ⟨Inventory.mem_of_get? ha, hpair⟩
      · exact ⟨Inventory.mem_of_get? hb, hsame.symm.trans hpair⟩
  have hnodup : (inventory.knobs.filter fun k => k.pair = some pair).Nodup :=
    (inventory.nodup.of_map _).filter _
  have hperm : (inventory.knobs.filter fun k => k.pair = some pair).Perm [a, b] :=
    (perm_ext_iff_of_nodup hnodup (by simp [hne])).mpr hmem
  have hcases : inventory.knobs.filter (fun k => k.pair = some pair) = [a, b] ∨
      inventory.knobs.filter (fun k => k.pair = some pair) = [b, a] := by
    have hlength := hperm.length_eq
    obtain ⟨x, y, hxy⟩ := length_eq_two.mp hlength
    rw [hxy] at hperm hnodup ⊢
    have hx : x ∈ [a, b] := hperm.mem_iff.mp (by simp)
    have hy : y ∈ [a, b] := hperm.mem_iff.mp (by simp)
    simp only [mem_cons, not_mem_nil, or_false] at hx hy
    rcases hx with rfl | rfl <;> rcases hy with rfl | rfl <;> simp_all
  unfold pairMembers
  rcases hcases with h | h
  · rw [h]
    exact .inl (by simp [setKey, hmin, hmax])
  · rw [h]
    exact .inr (by simp [setKey, hmin, hmax])

/-- The check of a pair lets only values in order pass. -/
theorem checkPair_inOrder {a : Knob} {pair : String} {low high : Value}
    (hends : inventory.PairEnds lo hi) (ha : inventory.get? lo = some a)
    (hpair : a.pair = some pair) (hlow : values.lookup lo = some low)
    (hhigh : values.lookup hi = some high) :
    Act.Maintains E (fun _ _ _ => True) (fun _ _ => True) (checkPair inventory values pair)
      fun _ => InOrder low high := by
  have hends' := hends
  obtain ⟨_, b, -, hb, -, -, -⟩ := hends'
  have hida := Inventory.id_of_get? ha
  have hidb := Inventory.id_of_get? hb
  have hreadLo : plannedOrRead values a.id = pure low := by
    unfold plannedOrRead
    rw [hida, hlow]
  have hreadHi : plannedOrRead values b.id = pure high := by
    unfold plannedOrRead
    rw [hidb, hhigh]
  have hplanned : a.id ∈ values.map Prod.fst := by
    rw [hida]
    exact mem_map_of_mem (mem_of_lookup hlow)
  have hcompare : Act.Maintains E (fun _ _ _ => True) (fun _ _ => True) (do
      if ← Act.lift (low.gt high) then
        Act.raise (tuningError ("inverted min/max pair: " ++ pair))
      else if a.setting = "GPU_RPS_DOWN_THRESHOLD_PCT" ∧ low = high then
        Act.raise (tuningError "GPU RPS down threshold must be below its up threshold") :
      EngineAct Unit) fun _ => InOrder low high := by
    refine .bind (.lift (P := fun inverted => low.gt high = .ok inverted) fun _ h => h)
      fun inverted hinverted => ?_
    cases inverted with
    | true => exact .raise _
    | false =>
      have hin : InOrder low high := hinverted
      exact .ite (fun htrue => by cases htrue) fun _ => .ite (fun _ => .raise _) fun _ => .pure hin
  unfold checkPair
  rcases pairMembers_of_pairEnds hends ha hb hpair with hmembers | hmembers
  · rw [hmembers]
    simp only [any_cons, hplanned, decide_true, Bool.true_or, if_true, Act.fold, hreadLo,
      hreadHi, Act.pure_bind]
    exact hcompare
  · rw [hmembers]
    simp only [any_cons, hplanned, decide_true, Bool.true_or, Bool.or_true, if_true, Act.fold,
      hreadLo, hreadHi, Act.pure_bind]
    exact hcompare

/-- The checks of all pairs let only values in order pass. -/
theorem checkPairs_inOrder (lo hi : String) :
    Act.Maintains E (fun _ _ _ => True) (fun _ _ => True)
      (Act.forEach (inventory.knobs.filterMap Knob.pair).eraseDups (checkPair inventory values))
      fun _ => inventory.PairEnds lo hi → ∀ low high, values.lookup lo = some low →
        values.lookup hi = some high → InOrder low high := by
  by_cases hends : inventory.PairEnds lo hi
  swap
  · exact .mono (.always _) fun _ _ h => (hends h).elim
  have hends' := hends
  obtain ⟨a, _, ha, -, hsome, -, -⟩ := hends'
  obtain ⟨pair, hpair⟩ := Option.isSome_iff_exists.mp hsome
  cases hlow : values.lookup lo with
  | none => exact .mono (.always _) fun _ _ => by simp
  | some low =>
    cases hhigh : values.lookup hi with
    | none => exact .mono (.always _) fun _ _ => by simp
    | some high =>
      refine .mono (.forEach_all (P := fun p => p = pair → InOrder low high) fun p _ => ?_) ?_
      · by_cases hp : p = pair
        · rw [hp]
          exact .mono (checkPair_inOrder hends ha hpair hlow hhigh) fun _ hin _ => hin
        · exact .mono (.always _) fun _ _ hsame => (hp hsame).elim
      · rintro _ hall - low' high' hlow' hhigh'
        cases hlow'
        cases hhigh'
        refine hall pair ?_ rfl
        rw [mem_eraseDups, mem_filterMap]
        exact ⟨a, Inventory.mem_of_get? ha, hpair⟩

/-- The values are those of different controls, and those of a pair are in order. -/
def PlannedFor (inventory : Inventory) (lo hi : String) (values : List (String × Value)) : Prop :=
  (values.map Prod.fst).Sublist (inventory.knobs.map Knob.id) ∧
    (inventory.PairEnds lo hi → ∀ low high, values.lookup lo = some low →
      values.lookup hi = some high → InOrder low high)

theorem plan_inOrder (engine : Engine) (name : Profile) (settings : Settings) (lo hi : String) :
    Act.Maintains E (fun _ _ _ => True) (fun _ _ => True) (plan engine name settings)
      fun planned => PlannedFor engine.inventory lo hi planned.1 := by
  unfold plan
  cases engine.policy with
  | none => exact .raise _
  | some policy =>
    dsimp only
    refine .bind (.always _) fun _ _ => .bind (.always _) fun skipped _ => ?_
    refine .bind (.lift (P := fun values =>
      resolvedValues engine.inventory policy (policy.profiles name) = .ok values) fun _ h => h)
      fun values hvalues => ?_
    refine .bind (checkPairs_inOrder lo hi) fun _ horder => ?_
    refine .bind (.always _) fun _ _ => .bind (.always _) fun _ _ => ?_
    split
    · exact .raise _
    · exact .pure ⟨(resolvedValues_spec hvalues).1, horder⟩

/-- What is left of planned values is planned. -/
theorem PlannedFor.filter (h : PlannedFor inventory lo hi values) (p : String × Value → Bool) :
    PlannedFor inventory lo hi (values.filter p) := by
  have hnodup : (values.map Prod.fst).Nodup := h.1.nodup inventory.nodup
  have hlookup : ∀ key value, (values.filter p).lookup key = some value →
      values.lookup key = some value := fun key value hvalue =>
    lookup_eq_of_mem hnodup (mem_of_mem_filter (mem_of_lookup hvalue))
  refine ⟨(filter_sublist.map _).trans h.1, fun hends low high hlow hhigh => ?_⟩
  exact h.2 hends low high (hlookup lo low hlow) (hlookup hi high hhigh)

theorem prepare_inOrder (engine : Engine) (name : Profile) (settings : Settings) (lo hi : String) :
    Act.Maintains E (fun _ _ _ => True) (fun _ _ => True) (prepare engine name settings)
      fun prepared => PlannedFor engine.inventory lo hi prepared.values := by
  refine .bind (.always _) fun journal _ => .bind (.always _) fun _ _ => ?_
  refine .bind (plan_inOrder engine name settings lo hi) fun planned hplanned => ?_
  dsimp only
  cases engine.policy with
  | none => exact .raise _
  | some policy =>
    refine .bind (.always _) fun temperature _ => .bind (.always _) fun _ _ => ?_
    refine .bind (.always _) fun risk _ => .bind (.always _) fun _ _ => ?_
    refine .bind (.always _) fun changed _ => .bind (.always _) fun entries _ => ?_
    refine .bind (.always _) fun _ _ => .bind (.always _) fun _ _ => ?_
    exact .pure (hplanned.filter _)

/-- Whatever has been answered, what an apply has prepared is planned. -/
theorem planned_of_prepare {engine : Engine} {name : Profile} {settings : Settings}
    {s s' : Journal} {w w' : W} {prepared : Prepared}
    (hrun : Program.Steps E w (prepare engine name settings s) w' (.done (.ok prepared, s')))
    (lo hi : String) : PlannedFor engine.inventory lo hi prepared.values :=
  (((prepare_inOrder engine name settings lo hi) s w trivial).result hrun).2 prepared rfl

end

end Preseed.HardwareTuning
