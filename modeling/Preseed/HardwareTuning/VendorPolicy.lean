import Mathlib
import Preseed.Compatibility.Outcome
import Preseed.HardwareTuning.Common

/-!
# Vendor policies

`validate_policy` turns a decoded configuration file into a policy, or refuses it.
-/

namespace Preseed.HardwareTuning

open Compatibility (Json)

/-- `if not condition: raise TuningError(text)`. -/
def require (condition : Prop) [Decidable condition] (text : String) : Except Failure Unit :=
  if condition then .ok () else .error (tuningError text)

/-- The members of a JSON object, and the failure of anything else. -/
def members (value : Json) (text : String) : Except Failure (List (String × Json)) :=
  match value with
  | .object items => .ok items
  | _ => .error (tuningError text)

/-- `set(value) == keys`, or the failure. -/
def exactKeys {α : Type} (value : List (String × α)) (keys : List String) (text : String) :
    Except Failure Unit :=
  require (value.all (fun kv => keys.contains kv.1) ∧
    keys.all (fun key => (value.lookup key).isSome)) text

/-- A required truth value. -/
def boolean (value : Option Json) (text : String) : Except Failure Bool :=
  match value with
  | some (.bool b) => .ok b
  | _ => .error (tuningError text)

/-- A required whole number. -/
def wholeNumber (value : Option Json) (text : String) : Except Failure ℤ :=
  match value with
  | some (.int n) => .ok n
  | _ => .error (tuningError text)

/-- `safe_value` of a decoded value. -/
def safeText (value : Json) : Except Failure String :=
  match value with
  | .str text => do
    safeValue text
    pure text
  | _ => .error (tuningError "tuning values must be bounded scalar strings")

/-- The settings matched by `RAPL_PL[124]_(?:POWER_UW|WINDOW_US)`. -/
def VERIFIED_SETTINGS : List String :=
  ["RAPL_PL1_POWER_UW", "RAPL_PL1_WINDOW_US", "RAPL_PL2_POWER_UW", "RAPL_PL2_WINDOW_US",
    "RAPL_PL4_POWER_UW", "RAPL_PL4_WINDOW_US"]

/-- The selectors of the Intel energy-performance preference. -/
def EPP_SELECTORS : List String :=
  ["keep", "default", "performance", "balance_performance", "balance_power", "power", "balanced"]

/-- The verified bounds of one setting. -/
def verifiedBound (setting : String) (value : Json) : Except Failure (String × ℤ × ℤ) := do
  let text := "verified RAPL bounds require integer minimum and maximum"
  let bounds ← members value text
  exactKeys bounds ["minimum", "maximum"] text
  let low ← wholeNumber (bounds.lookup "minimum") text
  let high ← wholeNumber (bounds.lookup "maximum") text
  let low ← integer (.int low) 1 (2 ^ 63 - 1)
  let high ← integer (.int high) 1 (2 ^ 63 - 1)
  require (low ≤ high) "inverted verified RAPL bounds"
  pure (setting, low, high)

/-- One override: a hardware identifier and its request. -/
def override (entry : String × Json) : Except Failure (String × String) := do
  require (entry.1.length ≤ 512 ∧ ¬['.', '.'] <:+: entry.1.toList) "invalid hardware identifier"
  let value ← safeText entry.2
  pure (entry.1, value)

/-- `validate_policy` at one profile. -/
def validateProfile (settings : List String) (name : String) (value : Json) :
    Except Failure (String × ProfilePolicy) := do
  let profile ← members value "a profile must contain knobs and overrides"
  exactKeys profile ["knobs", "overrides"] "a profile must contain knobs and overrides"
  let knobs ← members ((profile.lookup "knobs").getD .null) "missing or unknown tuning knob"
  exactKeys knobs settings "missing or unknown tuning knob"
  let overrides ← members ((profile.lookup "overrides").getD .null) "invalid per-device overrides"
  require (overrides.length ≤ 4096) "invalid per-device overrides"
  let overrides ← overrides.mapM override
  let knobs ← knobs.mapM fun entry => do
    let value ← safeText entry.2
    pure (entry.1, value)
  let epp := (knobs.lookup "CPU_EPP").getD ""
  require (settings.contains "CPU_EPP" → EPP_SELECTORS.contains epp) "invalid configured Intel EPP"
  require (settings.contains "CPU_EPP" → epp = "balanced" → name = "balanced")
    "the balanced EPP selector is restricted to the Balanced profile"
  pure (name, ⟨knobs, overrides⟩)

/-- The name of a profile in a configuration file. -/
def Profile.name : Profile → String
  | .performance => "performance"
  | .high => "high"
  | .balanced => "balanced"
  | .silent => "silent"

/-- The verified bounds of a policy file, and whether they are acknowledged. -/
def validateBounds (data : List (String × Json)) (settings : List String) :
    Except Failure (Bool × List (String × ℤ × ℤ)) := do
  let acknowledged ← boolean (some ((data.lookup "allow_verified_bounds").getD (.bool false)))
    "allow_verified_bounds must be a JSON boolean"
  let text := "verified bounds are only supported for named package RAPL constraints"
  let verified ← members ((data.lookup "verified_bounds").getD (.object [])) text
  require (verified.all (fun kv => settings.contains kv.1 && VERIFIED_SETTINGS.contains kv.1)) text
  require (verified.isEmpty ∨ acknowledged)
    "verified bounds require an explicit allow_verified_bounds=true acknowledgement"
  let bounds ← verified.mapM fun kv => verifiedBound kv.1 kv.2
  pure (acknowledged, bounds)

/-- `validate_policy`, for the settings of a vendor. -/
def validatePolicy (document : Json) (settings : List String) : Except Failure Policy := do
  let schema := "invalid vendor configuration schema"
  let fields := ["version", "allow_overclock", "allow_power_increase", "exclusive_clock_control",
    "max_temperature_c", "profiles"]
  let data ← members document schema
  require (fields.all fun key => (data.lookup key).isSome) schema
  require (data.all fun kv =>
    (fields ++ ["allow_verified_bounds", "verified_bounds"]).contains kv.1) schema
  let version ← wholeNumber (data.lookup "version") schema
  require (version = 1) schema
  let (acknowledged, bounds) ← validateBounds data settings
  let flag := fun key => boolean (data.lookup key) (key ++ " must be a JSON boolean")
  let overclock ← flag "allow_overclock"
  let power ← flag "allow_power_increase"
  let exclusive ← flag "exclusive_clock_control"
  let temperature ← wholeNumber (data.lookup "max_temperature_c")
    "max_temperature_c must be a JSON integer"
  -- The software interlock does not alter the thermal limits of driver and firmware.
  let temperature ← integer (.int temperature) 50 99
  let profiles ← members ((data.lookup "profiles").getD .null) "all four profiles must be specified"
  exactKeys profiles (Profile.all.map Profile.name) "all four profiles must be specified"
  let profiles ← profiles.mapM fun kv => validateProfile settings kv.1 kv.2
  pure {
    allowOverclock := overclock
    allowPowerIncrease := power
    exclusiveClockControl := exclusive
    maxTemperature := temperature
    profiles := fun name => (profiles.lookup name.name).getD ⟨[], []⟩
    allowVerifiedBounds := acknowledged
    verifiedBounds := bounds }

end Preseed.HardwareTuning
