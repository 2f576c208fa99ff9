import Preseed.HardwareTuning.OrderedAssignments
import Preseed.HardwareTuning.PairSafety
import Preseed.HardwareTuning.PreparedPlan

/-!
# Applying the two ends of a range

An apply writes every pair in order, as long as an end that it does not set fits what
is written to the other one: an end for which it has no value, or one that has been
written and does not have its value.
-/

namespace Preseed.HardwareTuning

open Effects

/-- The loop does not set the control: there is no value for it, or it has been written or could
not be read and has another one. -/
def Unmet (values : List (String × Value)) (b : Bench) (key : String) : Prop :=
  ∀ value, values.lookup key = some value → ¬Untroubled b.trace.log key ∧ b.hw key ≠ value

section

variable {inventory : Inventory} {values : List (String × Value)} {key : String} {value : Value}
  {b b₀ : Bench} {G : Guard Hardware Journal Bench}

/-! ### Looking -/

/-- Looking leaves the controls alone. -/
theorem looking_later (hpassive : ∀ b s op, Request.target op = none → G b s op) :
    Looking (bench inventory) G fun _ b => b₀.Later b := by
  intro op hlooks s b h
  cases op with
  | read key =>
    refine (wp_request _).mpr ⟨hpassive b s _ rfl, fun answer b' hans => ⟨?_, fun _ _ => trivial⟩⟩
    obtain ⟨⟨-, hlog⟩, hhw, -⟩ := hans
    exact h.trans ⟨hhw, _, hlog⟩
  | checkOwnership keys =>
    refine (wp_request _).mpr ⟨hpassive b s _ rfl, fun answer b' hans => ⟨?_, fun _ _ => trivial⟩⟩
    obtain ⟨⟨-, hlog⟩, hhw⟩ := hans
    exact h.trans ⟨hhw, _, hlog⟩
  | write _ _ | writeMaximum _ | restoreValue _ _ | save _ | temperature => cases hlooks

/-- The rule of the reading before a write. -/
theorem wp_readIfRestorable (hpassive : ∀ b s op, Request.target op = none → G b s op)
    (knob : Knob) {s : Journal} :
    wp (bench inventory) G (readIfRestorable knob key)
      (outcome (fun before _ b' => b.Later b' ∧ ∀ value, before = some value → b.hw key = value)
        fun _ _ _ => True) s b := by
  unfold readIfRestorable
  split
  · simp only [wp_bind, wp_readControl]
    refine ⟨hpassive b s _ rfl, fun answer b' hans => ?_⟩
    obtain ⟨⟨-, hlog⟩, hhw, hread⟩ := hans
    cases answer with
    | error e => trivial
    | ok current =>
      refine ⟨⟨hhw, _, hlog⟩, fun value hvalue => ?_⟩
      cases hvalue
      exact (hread current rfl).symm
  · exact ⟨.refl b, by simp⟩

/-- The rule of a write: the control has trouble. -/
theorem wp_written {op : Request} {s : Journal} (htarget : op.target = some key)
    (hguard : G b s op) {Q : Except Failure op.Reply → Journal → Bench → Prop}
    (h : ∀ answer b', Visit inventory key value b b' → Q answer s b') :
    wp (bench inventory) G (request op) Q s b := by
  refine (wp_request op).mpr ⟨hguard, fun answer b' hans => h answer b' ?_⟩
  obtain ⟨⟨-, hlog⟩, hhw⟩ := hans
  refine ⟨?_, ⟨_, hlog⟩, .inr ?_⟩
  · cases op with
    | write id v | restoreValue id v | writeMaximum id =>
      cases htarget
      exact hhw
    | _ => cases htarget
  · rw [hlog]
    exact not_untroubled_written htarget answer

/-! ### The writing loop -/

/-- The rule of the writing loop at one control: the value is written when the controls are still
as they were. -/
theorem wp_writeOne_bench (hpassive : ∀ b s op, Request.target op = none → G b s op)
    (hmaximum : ∀ b s, G b s (.writeMaximum key))
    (hwrite : ∀ s b', b.Later b' → G b' s (.write key value)) (policy : Policy)
    (profile : ProfilePolicy) (affected : List String) (st : Writing) {s : Journal} :
    wp (bench inventory) G (writeOne inventory policy profile affected st key value)
      (outcome (fun _ _ b' => Visit inventory key value b b') fun _ _ _ => True) s b := by
  unfold writeOne
  cases hget : inventory.get? key with
  | none => trivial
  | some knob =>
    dsimp only
    rw [wp_bind]
    refine wp_mono (wp_readIfRestorable hpassive knob) ?_
    rintro (e | before) s₁ b₁ hread
    · trivial
    obtain ⟨hlater, hvalue⟩ := hread
    rw [outcome_ok]
    split
    swap
    · rename_i hskip
      rw [not_or, not_not, not_not] at hskip
      refine ⟨?_, hlater.2, .inl ?_⟩
      · rw [hlater.1]
        exact .refl inventory key b.hw
      · rw [hlater.1]
        exact hvalue value hskip.2
    split
    · -- `write_maximum` chooses the value.
      unfold selectMaximum
      rw [wp_bind]
      refine wp_written rfl (hmaximum b₁ s₁) fun (answer : Except Failure (Option String)) b₂
        (hvisit : Visit inventory key value b₁ b₂) => ?_
      cases answer with
      | error e => trivial
      | ok selected =>
        rw [outcome_ok]
        cases selected with
        | none =>
          dsimp only
          split
          · trivial
          · exact hvisit.before hlater
        | some chosen =>
          dsimp only
          rw [wp_bind, wp_lift]
          cases knob.resolve chosen policy with
          | error e => trivial
          | ok resolved => exact hvisit.before hlater
    · -- The value is written directly.
      unfold writeDirectly
      rw [wp_bind]
      have hobserve : Act.Maintains (bench inventory) G (fun _ b' => b₁.Later b') (if
          (profile.configured key knob.setting = "supported-max" ∨
            profile.configured key knob.setting = "supported-1") ∧
              affected.all inventory.restorable then do
            let seen ← observe affected
            pure (some seen)
          else pure none : EngineAct (Option (List (String × Value)))) fun _ => True :=
        .ite (fun _ => .bind ((looking_later hpassive).observe affected) fun _ _ => .pure trivial)
          fun _ => .pure trivial
      refine wp_mono (hobserve s₁ b₁ (.refl b₁)) ?_
      rintro (e | observed) s₂ b₂ ⟨hlater₂, -⟩
      · trivial
      rw [outcome_ok, wp_handleIf, wp_bind]
      refine wp_written rfl (hwrite s₂ b₂ (hlater.trans hlater₂))
        fun (answer : Except Failure Unit) b₃ (hvisit : Visit inventory key value b₂ b₃) => ?_
      have hdone : Visit inventory key value b b₃ := hvisit.before (hlater.trans hlater₂)
      cases answer with
      | ok _ => exact hdone
      | error e =>
        simp only [outcome_error]
        split
        · split
          · trivial
          · rw [wp_bind]
            refine wp_mono ((looking_later hpassive).observedChange _ s₂ b₃ (.refl b₃)) ?_
            rintro (e' | changed) s₄ b₄ ⟨hlater₄, -⟩
            · trivial
            · rw [outcome_ok]
              split
              · trivial
              · exact hdone.later hlater₄
        · trivial

/-- The writing loop is a loop over planned values. -/
theorem pairedLoop_write (hnodup : (values.map Prod.fst).Nodup)
    (hknown : ∀ key ∈ values.map Prod.fst, (inventory.get? key).isSome)
    (horder : ∀ lo hi low high, inventory.PairEnds lo hi → values.lookup lo = some low →
      values.lookup hi = some high → InOrder low high) :
    PairedLoop inventory values (fun key value => values.lookup key = some value) (Unmet values)
      fun _ => True where
  nodup := hnodup
  known := hknown
  planned _ _ h := h
  targets := horder
  outside b key other _ _ hnot :=
    .inr fun value hvalue => (hnot (List.mem_map_of_mem (mem_of_lookup hvalue))).elim
  grown _ _ _ _ := trivial
  loose := by
    rintro b b' key ⟨hhw, more, hmore⟩ hloose value hvalue
    obtain ⟨htrouble, hne⟩ := hloose value hvalue
    rw [hhw, hmore]
    exact ⟨fun hquiet => htrouble hquiet.of_append, hne⟩

/-- The body of the writing loop sets the value of its control. -/
theorem visitsInOrder_writeOne (policy : Policy) (profile : ProfilePolicy)
    (affected : List String) :
    VisitsInOrder inventory values (fun key value => values.lookup key = some value) (Unmet values)
      (fun _ : Writing => False) (writeOne inventory policy profile affected) := by
  intro st s b key value hvalue hwrite
  have hmaximum : ∀ b s, WritesInOrder inventory (Unmet values) b s (.writeMaximum key) := by
    intro b s _ lo hi _
    constructor <;> rintro v (h | h) <;> cases h
  refine wp_mono (wp_writeOne_bench (fun _ _ _ h => .passive h) hmaximum
    (fun s' b' hlater => hwrite id s' b' _ hlater (.inl rfl)) policy profile affected st) ?_
  rintro (e | st') s' b' hvisit
  · trivial
  · refine ⟨hvisit.stirs, hvisit.grown, id, fun _ other _ => ?_⟩
    by_cases hsame : b'.hw key = value
    · exact .inl (hsame ▸ hvalue)
    · refine .inr fun v hv => ?_
      obtain rfl : value = v := Option.some.inj (hvalue.symm.trans hv)
      exact ⟨hvisit.put.resolve_left hsame, hsame⟩

/-- Carrying a plan out writes every pair in order. -/
theorem wp_carryOut_bench {prepared : Prepared} (name : Profile)
    (hplanned : ∀ lo hi, PlannedFor inventory lo hi prepared.values) {s : Journal}
    (horder : ∀ lo hi, inventory.OrderedPair b.hw lo hi) :
    wp (bench inventory) (WritesInOrder inventory (Unmet prepared.values))
      (prepared.carryOut inventory name) (fun _ _ _ => True) s b := by
  have hkeys : (prepared.values.map Prod.fst).Sublist (inventory.knobs.map Knob.id) :=
    (hplanned "" "").1
  have hknown : ∀ key ∈ prepared.values.map Prod.fst, (inventory.get? key).isSome := by
    intro key hkey
    obtain ⟨knob, hknob, rfl⟩ := List.mem_map.mp (hkeys.subset hkey)
    rw [Inventory.get?_of_mem hknob]
    rfl
  have hloop := pairedLoop_write (hkeys.nodup inventory.nodup) hknown
    fun lo hi low high hends => (hplanned lo hi).2 hends low high
  have hlook : Looking (bench inventory) (WritesInOrder inventory (Unmet prepared.values))
      fun _ _ => True := by
    intro op hlooks s b _
    refine (wp_request op).mpr ⟨.passive ?_, fun _ _ _ => ⟨trivial, fun _ _ => trivial⟩⟩
    cases op with
    | read _ | checkOwnership _ => rfl
    | write _ _ | writeMaximum _ | restoreValue _ _ | save _ | temperature => cases hlooks
  unfold Prepared.carryOut writeAndVerify
  rw [wp_bind]
  refine wp_mono (wp_pairedLoop hloop (visitsInOrder_writeOne prepared.policy
    (prepared.policy.profiles name) prepared.affected) trivial horder) ?_
  rintro (e | st) s₁ b₁ -
  · trivial
  rw [outcome_ok, wp_bind, wp_get, outcome_ok, wp_bind]
  refine wp_mono (Act.Maintains.fold (Q := fun _ => True) trivial (fun actual _ entry _ =>
    hlook.verifyApplied (fun _ _ _ _ _ h => h) prepared.policy st.values actual entry) s₁ b₁
      trivial) ?_
  rintro (e | actual) s₂ b₂ -
  · trivial
  simp only [outcome_ok, wp_bind, wp_modify, wp_get, wp_saveJournal]
  refine ⟨.passive rfl, fun answer b₃ _ => ?_⟩
  cases answer with
  | error e => trivial
  | ok _ => trivial

end

/-- The firmware profile, and the limits of the uncore clock. -/
def limitedInventory : Inventory where
  knobs := plainKnob "firmware/platform-profile-0/profile" "PLATFORM_PROFILE"
      ["low-power", "balanced"] [] :: uncoreInventory.knobs
  nodup := by decide
  paired := by
    intro a ha b hb hsome hsame hne
    rcases List.mem_cons.mp ha with rfl | ha
    · cases hsome
    · rcases List.mem_cons.mp hb with rfl | hb
      · rw [hsame] at hsome
        cases hsome
      · exact uncoreInventory.paired a ha b hb hsome hsame hne

/-- A policy for the profile and the lower limit. -/
def limitedEngine : Engine where
  inventory := limitedInventory
  checksOwnership := false
  policy := some (plainPolicy [("PLATFORM_PROFILE", "low-power"),
    ("UNCORE_MIN_FREQ_KHZ", "2000000")])

/-- The profile and the limits. -/
def limited (profile : Value) (low high : ℤ) (key : String) : Value :=
  if key = "firmware/platform-profile-0/profile" then profile else uncoreLimits low high key

/-- Controls that take every value, where the profile sets the limits anew. -/
def Bench.limit (b : Bench) (mem : Journal) (op : Request) : Except Failure op.Reply × Bench :=
  let hw := match op with
    | .write key value =>
      if key = "firmware/platform-profile-0/profile" then limited value 800000 1500000
      else (b.respond mem op).2.hw
    | _ => (b.respond mem op).2.hw
  ((b.respond mem op).1, ⟨hw, (b.respond mem op).2.trace⟩)

theorem limited_ends {lo hi : String} (h : limitedInventory.PairEnds lo hi) :
    lo = "package_00_die_00/min_freq_khz" ∧ hi = "package_00_die_00/max_freq_khz" := by
  obtain ⟨a, b, ha, hb, hsome, hsame, hmin, hmax⟩ := h
  have hlo := Inventory.id_of_get? ha
  have hhi := Inventory.id_of_get? hb
  have hknob : ∀ k ∈ limitedInventory.knobs,
      (k.side = some .min → k.id = "package_00_die_00/min_freq_khz") ∧
      (k.side = some .max → k.id = "package_00_die_00/max_freq_khz") := by
    intro k hk
    rcases List.mem_cons.mp hk with rfl | hk
    · exact ⟨(fun h => by cases h), (fun h => by cases h)⟩
    · obtain ⟨limit, hlimit, rfl⟩ := List.mem_map.mp hk
      simp only [List.mem_cons, List.not_mem_nil, or_false] at hlimit
      rcases hlimit with rfl | rfl
      · exact ⟨fun _ => rfl, (fun h => by cases h)⟩
      · exact ⟨(fun h => by cases h), fun _ => rfl⟩
  exact ⟨hlo ▸ (hknob a (Inventory.mem_of_get? ha)).1 hmin,
    hhi ▸ (hknob b (Inventory.mem_of_get? hb)).2 hmax⟩

/-- The two limits are the ends of a pair. -/
theorem limited_pair : limitedInventory.PairEnds
    "package_00_die_00/min_freq_khz" "package_00_die_00/max_freq_khz" :=
  ⟨_, _, rfl, rfl, rfl, rfl, rfl, rfl⟩

theorem limited_order {profile : Value} {low high : ℤ} (h : low ≤ high) :
    ∀ lo hi, limitedInventory.OrderedPair (limited profile low high) lo hi := by
  intro lo hi hends
  obtain ⟨rfl, rfl⟩ := limited_ends hends
  simp [InOrder, limited, uncoreLimits, Value.gt, h]

private theorem Bench.limit_bench (b : Bench) (mem : Journal) (op : Request) :
    bench limitedInventory b mem op (b.limit mem op).1 (b.limit mem op).2 := by
  obtain ⟨htrace, hhw⟩ := b.respond_bench limitedInventory mem op
  refine ⟨htrace, ?_⟩
  cases op with
  | write key value =>
    simp only [limit]
    split
    · rename_i hkey
      refine ⟨fun other hpartner => ?_, fun lo hi _ _ _ => limited_order (by decide) lo hi⟩
      rw [hkey] at hpartner
      rcases hpartner with hends | hends
      · exact absurd (limited_ends hends).1 (by decide)
      · exact absurd (limited_ends hends).2 (by decide)
    · exact hhw
  | read _ | writeMaximum _ | restoreValue _ _ | save _ => exact hhw
  | temperature | checkOwnership _ => exact hhw

/-- The apply up to its snapshot. -/
def limitedPrepare : Bench × Program Hardware Journal (Except Failure Prepared × Journal) :=
  Program.runFor Bench.limit 8 ⟨limited (.text "balanced") 800000 2400000, ⟨Journal.empty, []⟩⟩
    (prepare limitedEngine .balanced [] Journal.empty)

/-- The limits are in order when the writes begin. -/
private theorem limited_ready :
    ∀ lo hi, limitedInventory.OrderedPair limitedPrepare.1.hw lo hi := by
  have hhw : limitedPrepare.1.hw = limited (.text "balanced") 800000 2400000 := rfl
  rw [hhw]
  exact limited_order (by decide)

/-- The apply from its snapshot up to the write of the lower limit. -/
def limitedWrites :
    Option (Bench × Program Hardware Journal (Except Failure ApplyReport × Journal)) :=
  limitedPrepare.2.result?.bind fun r => r.1.toOption.map fun prepared =>
    Program.runFor Bench.limit 3 ⟨limitedPrepare.1.hw, ⟨limitedPrepare.1.trace.file, []⟩⟩
      (prepared.carryOut limitedInventory .balanced r.2)

/-- The apply comes to the write of the lower limit, with the upper one below it. -/
private theorem limited_runs : ∃ final prepared s₁ p mem,
    limitedWrites.map Prod.fst = some final ∧
    final.hw "package_00_die_00/max_freq_khz" = .int 1500000 ∧
    Program.Steps (bench limitedInventory)
      ⟨limited (.text "balanced") 800000 2400000, ⟨Journal.empty, []⟩⟩
      (prepare limitedEngine .balanced [] Journal.empty) limitedPrepare.1
      (.done (.ok prepared, s₁)) ∧
    Program.Steps (bench limitedInventory)
      ⟨limitedPrepare.1.hw, ⟨limitedPrepare.1.trace.file, []⟩⟩
      (prepared.carryOut limitedInventory .balanced s₁) final p ∧
    p.issued? = some (mem, .write "package_00_die_00/min_freq_khz" (.int 2000000)) := by
  have hissued : (limitedWrites.map fun r =>
        (r.1.hw "package_00_die_00/max_freq_khz", r.2.issued?.map Prod.snd)) =
      some (.int 1500000, some (.write "package_00_die_00/min_freq_khz" (.int 2000000))) := by
    decide +kernel
  obtain ⟨⟨final, p⟩, hwrites, hreached⟩ := Option.map_eq_some_iff.mp hissued
  obtain ⟨hupper, hop⟩ := Prod.mk.inj hreached
  obtain ⟨⟨mem, op⟩, hp, rfl⟩ := Option.map_eq_some_iff.mp hop
  obtain ⟨⟨x, s₁⟩, hresult, hx⟩ := Option.bind_eq_some_iff.mp hwrites
  obtain ⟨prepared, hok, hrun⟩ := Option.map_eq_some_iff.mp hx
  cases x with
  | error e => cases hok
  | ok prepared' =>
    cases hok
    refine ⟨final, prepared, s₁, p, mem, by rw [hwrites, Option.map_some], hupper, ?_, ?_, hp⟩
    · rw [← Program.eq_done_of_result? hresult]
      exact .of_runFor (fun b mem op => b.limit_bench mem op) _ _ _
    · have hsteps := Program.Steps.of_runFor (E := bench limitedInventory)
        (fun b mem op => b.limit_bench mem op) 3
        ⟨limitedPrepare.1.hw, ⟨limitedPrepare.1.trace.file, []⟩⟩
        (prepared.carryOut limitedInventory .balanced s₁)
      rw [hrun] at hsteps
      exact hsteps

end Preseed.HardwareTuning
