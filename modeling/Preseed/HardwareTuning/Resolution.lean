import Preseed.Effects.Fallible
import Preseed.HardwareTuning.Dictionaries
import Preseed.HardwareTuning.VendorPolicy

/-!
# What a resolved request may be

`Knob.resolve` under an accepted policy: a number it returns lies within every bound
that the driver or the administrator has set, a word is one of the advertised
choices, and a positive offset or an increase of power has its permission.
-/

namespace Preseed.HardwareTuning

open Effects
open Compatibility (Json)

/-- The numbers of a control value. -/
def Value.numbers : Value → List ℤ
  | .int n => [n]
  | .text _ => []
  | .range low high => [low, high]

/-- A number respects the bounds of the driver and those the administrator has verified. -/
structure Knob.Bounds (knob : Knob) (policy : Policy) (n : ℤ) : Prop where
  /-- The driver's lower bound. -/
  minimum : ∀ low, knob.minimum = some low → low ≤ n
  /-- The driver's upper bound. -/
  maximum : ∀ high, knob.maximum = some high → n ≤ high
  /-- The verified bounds. -/
  verified : ∀ low high, policy.verifiedBounds.lookup knob.setting = some (low, high) →
    low ≤ n ∧ n ≤ high

/-- What a resolved value of a knob may be under a policy. -/
structure Knob.Sound (knob : Knob) (policy : Policy) (value : Value) : Prop where
  /-- A knob with choices gets one of them. -/
  choice : knob.choices ≠ [] → ∃ word ∈ knob.choices, value = .text word
  /-- Any other knob gets a number, or an ordered range, within the bounds. -/
  bounds : knob.choices = [] → (∀ word, value ≠ .text word) ∧
    (∀ n ∈ value.numbers, knob.Bounds policy n) ∧
    ∀ low high, value = .range low high → low ≤ high
  /-- Both bounds are known to whoever gets a number. -/
  known : knob.choices = [] → policy.verifiedBounds.lookup knob.setting = none →
    knob.minimum.isSome ∧ knob.maximum.isSome
  /-- Verified bounds are used only where control and policy allow them. -/
  acknowledged : ∀ low high, policy.verifiedBounds.lookup knob.setting = some (low, high) →
    knob.verifiedBoundsAllowed ∧ policy.allowVerifiedBounds ∧ 1 ≤ low ∧ low ≤ high ∧
      high ≤ 2 ^ 63 - 1
  /-- A positive offset is permitted. -/
  overclock : knob.overclock → value.gt (.int 0) = .ok true → policy.allowOverclock
  /-- An increase over the default power is permitted. -/
  power : ∀ default, knob.powerDefault = some default → value.gt default = .ok true →
    policy.allowPowerIncrease

variable {value : Value}

/-- `integer` returns what it was given, within the bounds. -/
theorem integer_bounds {low high n : ℤ} (h : integer value low high = .ok n) :
    low ≤ n ∧ n ≤ high := by
  have hcheck : ∀ m : ℤ, ∀ e : Failure,
      (if low ≤ m ∧ m ≤ high then pure m else throw e : Except Failure ℤ) = .ok n →
        low ≤ n ∧ n ≤ high := by
    intro m e hm
    split at hm
    · rename_i hwithin
      cases hm
      exact hwithin
    · cases hm
  unfold integer at h
  cases value with
  | int m => exact hcheck m _ h
  | text s =>
    cases hparse : parseInteger s with
    | none => simp [hparse, bind, Except.bind, throw, throwThe, MonadExceptOf.throw] at h
    | some m =>
      simp only [hparse] at h
      exact hcheck m _ h
  | range a b => simp [bind, Except.bind, throw, throwThe, MonadExceptOf.throw] at h

variable {policy : Policy} {knob : Knob}

/-- The effective bounds intersect those of the driver with the verified ones. -/
theorem Knob.bounds_of_effective {low high : Option ℤ} {n : ℤ}
    (h : knob.effectiveBounds policy = .ok (low, high)) (hlow : ∀ l, low = some l → l ≤ n)
    (hhigh : ∀ u, high = some u → n ≤ u) : knob.Bounds policy n := by
  unfold Knob.effectiveBounds at h
  cases hlookup : policy.verifiedBounds.lookup knob.setting with
  | none =>
    simp only [hlookup, Except.ok.injEq, Prod.mk.injEq] at h
    obtain ⟨rfl, rfl⟩ := h
    exact ⟨hlow, hhigh, by simp [hlookup]⟩
  | some bounds =>
    obtain ⟨first, last⟩ := bounds
    simp only [hlookup] at h
    split at h
    · cases h
    · split at h
      · cases h
      · simp only [Except.ok.injEq, Prod.mk.injEq] at h
        obtain ⟨rfl, rfl⟩ := h
        have hfirst := hlow _ rfl
        have hlast := hhigh _ rfl
        constructor
        · intro m hm
          simp only [hm, Option.elim_some] at hfirst
          omega
        · intro m hm
          simp only [hm, Option.elim_some] at hlast
          omega
        · intro l u hlu
          rw [hlookup] at hlu
          cases hlu
          constructor
          · cases hm : knob.minimum with
            | none => simpa [hm] using hfirst
            | some m =>
              simp only [hm, Option.elim_some] at hfirst
              omega
          · cases hm : knob.maximum with
            | none => simpa [hm] using hlast
            | some m =>
              simp only [hm, Option.elim_some] at hlast
              omega

/-- Without verified bounds the effective ones are the driver's. -/
theorem Knob.effectiveBounds_of_none (h : policy.verifiedBounds.lookup knob.setting = none) :
    knob.effectiveBounds policy = .ok (knob.minimum, knob.maximum) := by
  unfold Knob.effectiveBounds
  rw [h]

/-- Verified bounds are effective only where control and policy allow them. -/
theorem Knob.allowed_of_effective {bounds : Option ℤ × Option ℤ} {verified : ℤ × ℤ}
    (h : knob.effectiveBounds policy = .ok bounds)
    (hverified : policy.verifiedBounds.lookup knob.setting = some verified) :
    knob.verifiedBoundsAllowed ∧ policy.allowVerifiedBounds := by
  unfold Knob.effectiveBounds at h
  rw [hverified] at h
  dsimp only at h
  split at h
  · cases h
  · rename_i hallowed
    simpa using hallowed

/-- A bounded candidate is an advertised choice, or a number or a range within known bounds. -/
theorem Knob.bounded_ok {candidate : Value} {low high : Option ℤ}
    (h : knob.bounded policy candidate low high = .ok value) :
    (knob.choices ≠ [] ∧ ∃ word ∈ knob.choices, value = .text word) ∨
      (knob.choices = [] ∧ ∃ l u, low = some l ∧ high = some u ∧
        ((∃ n, value = .int n ∧ l ≤ n ∧ n ≤ u) ∨
          ∃ a b, value = .range a b ∧ a ≤ b ∧ l ≤ a ∧ b ≤ u)) := by
  unfold Knob.bounded at h
  split at h
  · rename_i hchoices
    refine .inl ⟨hchoices, ?_⟩
    split at h
    · cases h
    · rename_i hmem
      split at h
      · cases h
      · cases h
        exact ⟨_, not_not.mp hmem, rfl⟩
  · rename_i hchoices
    refine .inr ⟨not_not.mp hchoices, ?_⟩
    split at h
    · -- A clock range: two numbers, each within the bounds.
      split at h
      · rename_i first second l u hparts
        cases ha : integer (.text first) l u with
        | error e => simp [ha, bind, Except.bind] at h
        | ok a =>
          cases hb : integer (.text second) l u with
          | error e => simp [ha, hb, bind, Except.bind] at h
          | ok b =>
            simp only [ha, hb, bind, Except.bind] at h
            split at h
            · cases h
            · rename_i horder
              cases h
              have hla := integer_bounds ha
              have hub := integer_bounds hb
              exact ⟨l, u, rfl, rfl, .inr ⟨a, b, rfl, by omega, hla.1, hub.2⟩⟩
      · cases h
    · split at h
      · rename_i l u
        cases hn : integer candidate l u with
        | error e => simp [hn, Except.map] at h
        | ok n =>
          simp only [hn, Except.map, Except.ok.injEq] at h
          have hbounds := integer_bounds hn
          exact ⟨l, u, rfl, rfl, .inl ⟨n, h.symm, hbounds.1, hbounds.2⟩⟩
      · cases h

/-- A permitted candidate has the permissions it needs. -/
theorem Knob.permitted_ok (h : knob.permitted policy value = .ok ()) :
    (knob.overclock → value.gt (.int 0) = .ok true → policy.allowOverclock) ∧
      ∀ default, knob.powerDefault = some default → value.gt default = .ok true →
        policy.allowPowerIncrease := by
  unfold Knob.permitted at h
  constructor
  · intro hover hpositive
    by_contra hforbidden
    simp [hover, hpositive, hforbidden, bind, Except.bind, throw, throwThe,
      MonadExceptOf.throw] at h
  · intro default hdefault hmore
    by_contra hforbidden
    simp only [hdefault, hmore, hforbidden] at h
    cases hover : knob.overclock with
    | false =>
      simp [hover, bind, Except.bind, throw, throwThe, MonadExceptOf.throw] at h
    | true =>
      cases hgt : value.gt (.int 0) with
      | error e => simp [hover, hgt, bind, Except.bind] at h
      | ok positive =>
        simp only [hover, hgt, bind, Except.bind, if_true] at h
        split at h
        · cases h
        · rw [if_pos (by simp)] at h
          cases h

/-- A required condition holds where the check returned. -/
theorem require_ok {condition : Prop} [Decidable condition] {text : String}
    (h : require condition text = .ok ()) : condition := by
  unfold require at h
  split at h
  · assumption
  · cases h

/-- A validated bound is a range of positive 64-bit numbers. -/
theorem verifiedBound_ok {setting name : String} {document : Json} {low high : ℤ}
    (h : verifiedBound setting document = .ok (name, low, high)) :
    1 ≤ low ∧ low ≤ high ∧ high ≤ 2 ^ 63 - 1 := by
  unfold verifiedBound at h
  obtain ⟨bounds, -, h⟩ := bind_ok h
  obtain ⟨_, -, h⟩ := bind_ok h
  obtain ⟨first, -, h⟩ := bind_ok h
  obtain ⟨last, -, h⟩ := bind_ok h
  obtain ⟨first', hfirst, h⟩ := bind_ok h
  obtain ⟨last', hlast, h⟩ := bind_ok h
  have hlow := integer_bounds hfirst
  have hhigh := integer_bounds hlast
  obtain ⟨_, horder, h⟩ := bind_ok h
  have horder := require_ok horder
  cases h
  omega

/-- The verified bounds of an accepted file are positive, ordered and 64-bit. -/
theorem validateBounds_ok {data : List (String × Json)} {settings : List String}
    {acknowledged : Bool} {bounds : List (String × ℤ × ℤ)}
    (h : validateBounds data settings = .ok (acknowledged, bounds)) :
    ∀ name low high, (name, low, high) ∈ bounds → 1 ≤ low ∧ low ≤ high ∧ high ≤ 2 ^ 63 - 1 := by
  unfold validateBounds at h
  obtain ⟨flag, -, h⟩ := bind_ok h
  obtain ⟨verified, -, h⟩ := bind_ok h
  obtain ⟨_, -, h⟩ := bind_ok h
  obtain ⟨_, -, h⟩ := bind_ok h
  obtain ⟨found, hfound, h⟩ := bind_ok h
  cases h
  intro name low high hmem
  obtain ⟨i, hi, hget⟩ := List.getElem_of_mem hmem
  have hall := mapM_ok hfound
  have hlength := hall.length_eq
  have hbound := (List.forall₂_iff_get.mp hall).2 i (by omega) hi
  simp only [List.get_eq_getElem, hget] at hbound
  exact verifiedBound_ok hbound

/-- The verified bounds of an accepted policy come from its file. -/
theorem validatePolicy_bounds {document : Json} {settings : List String}
    (h : validatePolicy document settings = .ok policy) :
    ∃ data acknowledged,
      validateBounds data settings = .ok (acknowledged, policy.verifiedBounds) := by
  unfold validatePolicy at h
  obtain ⟨data, -, h⟩ := bind_ok h
  obtain ⟨_, -, h⟩ := bind_ok h
  obtain ⟨_, -, h⟩ := bind_ok h
  obtain ⟨_, -, h⟩ := bind_ok h
  obtain ⟨_, -, h⟩ := bind_ok h
  obtain ⟨⟨acknowledged, bounds⟩, hbounds, h⟩ := bind_ok h
  obtain ⟨_, -, h⟩ := bind_ok h
  obtain ⟨_, -, h⟩ := bind_ok h
  obtain ⟨_, -, h⟩ := bind_ok h
  obtain ⟨_, -, h⟩ := bind_ok h
  obtain ⟨_, -, h⟩ := bind_ok h
  obtain ⟨_, -, h⟩ := bind_ok h
  obtain ⟨_, -, h⟩ := bind_ok h
  obtain ⟨_, -, h⟩ := bind_ok h
  cases h
  exact ⟨data, acknowledged, hbounds⟩

/-- Whatever `resolve` returns under an accepted policy is sound. -/
theorem resolve_sound {document : Json} {settings : List String} {policy : Policy}
    (haccepted : validatePolicy document settings = .ok policy) (knob : Knob) (request : String)
    {value : Value} (h : knob.resolve request policy = .ok (some value)) :
    knob.Sound policy value := by
  unfold Knob.resolve at h
  obtain ⟨_, -, h⟩ := bind_ok h
  generalize (if request = "supported-max" ∨ request = "supported-1"
    then removePrefix request "supported-" else request) = request' at h
  dsimp only at h
  split at h
  · cases h
  · obtain ⟨⟨low, high⟩, hbounds, h⟩ := bind_ok h
    obtain ⟨candidate, hbounded, h⟩ := bind_ok h
    obtain ⟨_, hpermitted, h⟩ := bind_ok h
    cases h
    have hcases := Knob.bounded_ok hbounded
    obtain ⟨hover, hpower⟩ := Knob.permitted_ok hpermitted
    refine ⟨fun hchoices => ?_, fun hchoices => ?_, fun hchoices hnone => ?_, ?_, hover, hpower⟩
    · rcases hcases with ⟨-, hword⟩ | ⟨hempty, -⟩
      · exact hword
      · exact absurd hempty hchoices
    · obtain ⟨hne, -⟩ | ⟨-, l, u, rfl, rfl, hvalue⟩ := hcases
      · exact absurd hchoices hne
      · have hwithin : ∀ n, l ≤ n → n ≤ u → knob.Bounds policy n := fun n hl hu =>
          Knob.bounds_of_effective hbounds (by rintro _ ⟨⟩; exact hl) (by rintro _ ⟨⟩; exact hu)
        rcases hvalue with ⟨n, rfl, hl, hu⟩ | ⟨a, b, rfl, hab, hl, hu⟩
        · exact ⟨by simp, by simpa [Value.numbers] using hwithin n hl hu, by simp⟩
        · refine ⟨by simp, ?_, ?_⟩
          · simp only [Value.numbers, List.mem_cons, List.not_mem_nil, or_false]
            rintro n (rfl | rfl)
            · exact hwithin n hl (by omega)
            · exact hwithin n (by omega) hu
          · rintro _ _ ⟨⟩
            exact hab
    · obtain ⟨hne, -⟩ | ⟨-, l, u, rfl, rfl, -⟩ := hcases
      · exact absurd hchoices hne
      · rw [Knob.effectiveBounds_of_none hnone] at hbounds
        simp only [Except.ok.injEq, Prod.mk.injEq] at hbounds
        simp [hbounds]
    · intro first last hverified
      obtain ⟨hcontrol, hpolicy⟩ := Knob.allowed_of_effective hbounds hverified
      obtain ⟨data, acknowledged, hfile⟩ := validatePolicy_bounds haccepted
      exact ⟨hcontrol, hpolicy, validateBounds_ok hfile _ _ _ (mem_of_lookup hverified)⟩

/-- A profile document without requests of its own. -/
def idleProfile : Json :=
  .object [("knobs", .object [("CLOCK", .str "keep")]), ("overrides", .object [])]

/-- A configuration file for one setting. -/
def plainDocument : Json := .object
  [("version", .int 1), ("allow_overclock", .bool false), ("allow_power_increase", .bool false),
    ("exclusive_clock_control", .bool false), ("max_temperature_c", .int 90),
    ("profiles", .object [("performance", idleProfile), ("high", idleProfile),
      ("balanced", idleProfile), ("silent", idleProfile)])]

/-- A knob with bounds and choices, as far as they are given. -/
def boundedKnob (low high : ℤ) (choices : List String) : Knob where
  id := "device/CLOCK"
  setting := "CLOCK"
  minimum := some low
  maximum := some high
  choices := choices
  symbols := []
  unit := "integer"
  pair := none
  side := none
  overclock := false
  powerDefault := none
  restorable := true
  validateExtra _ := .ok ()
  companions := []
  verifiedBoundsAllowed := false
  writeMaximum := false
  restoreValue := false

/-- A configuration file is accepted, and a knob resolves a request under it. -/
def resolvesUnder (document : Json) (settings : List String) (knob : Knob) (request : String)
    (value : Value) : Bool :=
  match validatePolicy document settings with
  | .ok policy =>
    match knob.resolve request policy with
    | .ok (some v) => v == value
    | _ => false
  | .error _ => false

theorem resolvesUnder_iff {document : Json} {settings : List String} {request : String}
    (h : resolvesUnder document settings knob request value) :
    ∃ policy, validatePolicy document settings = .ok policy ∧
      knob.resolve request policy = .ok (some value) := by
  unfold resolvesUnder at h
  split at h
  · rename_i policy hpolicy
    split at h
    · rename_i v hv
      rw [eq_of_beq h] at hv
      exact ⟨policy, hpolicy, hv⟩
    · cases h
  · cases h

/-- The maximum of a bounded control resolves to its upper bound, soundly. -/
theorem resolve_sound_maximum : ∃ policy, validatePolicy plainDocument ["CLOCK"] = .ok policy ∧
    (boundedKnob 3 7 []).resolve "max" policy = .ok (some (.int 7)) ∧
    (boundedKnob 3 7 []).Sound policy (.int 7) := by
  obtain ⟨policy, haccepted, hresolve⟩ := resolvesUnder_iff
    (by decide : resolvesUnder plainDocument ["CLOCK"] (boundedKnob 3 7 []) "max" (.int 7))
  exact ⟨policy, haccepted, hresolve, resolve_sound haccepted _ _ hresolve⟩

/-- A choice is taken as it is, even where it is a number beyond the bounds of its control. -/
theorem choice_beyond_bounds : ∃ policy, validatePolicy plainDocument ["CLOCK"] = .ok policy ∧
    (boundedKnob 0 1 ["5"]).resolve "5" policy = .ok (some (.text "5")) ∧
    parseInteger "5" = some 5 ∧ ¬(boundedKnob 0 1 ["5"]).Bounds policy 5 := by
  obtain ⟨policy, haccepted, hresolve⟩ := resolvesUnder_iff
    (by decide :
      resolvesUnder plainDocument ["CLOCK"] (boundedKnob 0 1 ["5"]) "5" (.text "5"))
  refine ⟨policy, haccepted, hresolve, by decide, fun h => ?_⟩
  have hle := h.maximum 1 rfl
  omega

end Preseed.HardwareTuning
