import Preseed.HardwareTuning.Engine

/-!
# Planning and applying a profile

`Engine.health`, `Engine.plan` and `Engine.apply`. An apply first gives up what an
earlier apply still owns, resolves the profile into values, checks them against
each other and against the temperature, saves a snapshot of everything a write may
change, and only then writes. Whatever goes wrong after the snapshot is undone by a
reset; a killed process leaves the snapshot for the next one.
-/

namespace Preseed.HardwareTuning

open Effects

/-- A vendor's table of settings with their default requests (`SETTINGS`). -/
abbrev Settings : Type := List (String × (Profile → String))

/-- An engine's backend and policy. -/
structure Engine where
  /-- `self.backend.knobs`. -/
  inventory : Inventory
  /-- The backend offers `check_ownership`. -/
  checksOwnership : Bool
  /-- `self.policy`. -/
  policy : Option Policy

/-- Set a key of an insertion-ordered dictionary. -/
def setKey {κ α : Type} [DecidableEq κ] (d : List (κ × α)) (key : κ) (a : α) : List (κ × α) :=
  if key ∈ d.map Prod.fst then d.map fun kv => if kv.1 = key then (key, a) else kv
  else d ++ [(key, a)]

/-- Delete a key of a dictionary. -/
def delKey {κ α : Type} [DecidableEq κ] (d : List (κ × α)) (key : κ) : List (κ × α) :=
  d.filter fun kv => kv.1 ≠ key

/-- The request of a profile for one control. -/
def ProfilePolicy.configured (profile : ProfilePolicy) (key setting : String) : String :=
  (profile.overrides.lookup key).getD ((profile.knobs.lookup setting).getD "keep")

/-- A requested value that would raise the control above its safe reference. -/
def ownsRisk (knob : Knob) (value : Value) : Except Failure Bool := do
  if knob.setting = "PLATFORM_PROFILE" ∧ value = .text "performance" then return true
  match value with
  | .int n =>
    if knob.overclock ∧ n > 0 then return true
    match knob.powerDefault with
    | none => return false
    | some default => value.gt default
  | _ => return false

/-- The conflict of one journal entry, if it has one. -/
def entryConflict (inventory : Inventory) (entry : Entry) : EngineAct (List String) :=
  match inventory.get? entry.id with
  | none => pure [entry.id ++ ": device/control disappeared"]
  | some knob =>
    if entry.pending then pure [entry.id ++ ": interrupted transaction"]
    else if knob.restorable then do
      let current ← readControl entry.id
      pure (if some current ≠ entry.last
        then [entry.id ++ ": changed by firmware/another power manager"] else [])
    else pure []

/-- Whether some owned request is a risk that needs a temperature. -/
def riskOwned (inventory : Inventory) : List Entry → Except Failure Bool
  | [] => .ok false
  | entry :: rest =>
    match inventory.get? entry.id, entry.requested with
    | some knob, some value => do
      if ← ownsRisk knob value then pure true else riskOwned inventory rest
    | _, _ => riskOwned inventory rest

/-- What `Engine.health` returns. -/
structure HealthReport where
  /-- Why the engine should give its controls up. -/
  conflicts : List String
  /-- The temperature, when the sensors give one. -/
  temperature : Option ℚ

/-- `Engine.health`. -/
def health (engine : Engine) : EngineAct HealthReport := do
  let journal ← Act.get
  let conflicts ← Act.fold (fun conflicts entry => do
    let more ← entryConflict engine.inventory entry
    pure (conflicts ++ more)) ([] : List String) journal.entries
  let conflicts ← (if engine.checksOwnership ∧ journal.entries ≠ [] then
      Act.handleIf
        (do
          request (.checkOwnership (journal.entries.map fun e => (e.id, e.requested)))
          pure conflicts)
        Failure.isOsOrTuning
        fun e => pure (conflicts ++ [e.text])
    else pure conflicts : EngineAct (List String))
  let temperature ← readTemperature
  let conflicts ← (if temperature.isNone then do
      let risky ← Act.lift (riskOwned engine.inventory journal.entries)
      pure (if risky then conflicts ++
        ["thermal sensor disappeared while an overclock/power increase is owned"] else conflicts)
    else pure conflicts : EngineAct (List String))
  let conflicts := match engine.policy, temperature with
    | some policy, some t =>
      if t ≥ policy.maxTemperature then
        conflicts ++ ["thermal interlock: " ++ toString t ++ " C >= " ++
          toString policy.maxTemperature ++ " C"]
      else conflicts
    | _, _ => conflicts
  pure ⟨conflicts, temperature⟩

/-- The requests of a profile for settings the inventory does not offer. -/
def skippedSettings (inventory : Inventory) (settings : Settings) (name : Profile)
    (knobs : List (String × String)) : Except Failure (List String) :=
  knobs.foldlM (fun skipped kv =>
    let (setting, value) := kv
    if value = "keep" ∨ inventory.knobs.any fun knob => knob.setting = setting then .ok skipped
    else if value = "supported-max" ∨ value = "supported-1" then
      .ok (skipped ++ [setting ++ ": unavailable; conditional capability request skipped"])
    else
      match settings.lookup setting with
      | none => .error (keyError setting)
      | some defaults =>
        if value ≠ defaults name then
          .error (tuningError ("explicit request for unsupported knob: " ++ setting))
        else .ok (skipped ++ [setting ++ ": unavailable; portable default skipped"])) []

/-- The values a profile asks of the controls of the inventory. -/
def resolvedValues (inventory : Inventory) (policy : Policy) (profile : ProfilePolicy) :
    Except Failure (List (String × Value)) :=
  inventory.knobs.foldlM (fun values knob => do
    match ← knob.resolve (profile.configured knob.id knob.setting) policy with
    | none => pure values
    | some value =>
      if knob.setting = "TARGET_TEMPERATURE_C" then
        if ← value.gt (.int policy.maxTemperature) then
          throw (tuningError "temperature target exceeds the thermal interlock")
      pure (values ++ [(knob.id, value)])) []

/-- The planned value of a control, or its current one. -/
def plannedOrRead (values : List (String × Value)) (key : String) : EngineAct Value :=
  match values.lookup key with
  | some value => pure value
  | none => readControl key

/-- `pairs[pair]` of `Engine.plan`: the members of a pair by side. -/
def pairMembers (inventory : Inventory) (pair : String) : List (Option Side × Knob) :=
  (inventory.knobs.filter fun knob => knob.pair = some pair).foldl
    (fun members knob => setKey members knob.side knob) []

/-- The check of one min/max pair in `Engine.plan`. -/
def checkPair (inventory : Inventory) (values : List (String × Value)) (pair : String) :
    EngineAct Unit := do
  let members := pairMembers inventory pair
  if members.any fun m => m.2.id ∈ values.map Prod.fst then
    let sides ← Act.fold (fun sides m => do
      let value ← plannedOrRead values m.2.id
      pure (sides ++ [(m.1, value)])) ([] : List (Option Side × Value)) members
    if sides.length = 2 then
      match sides.lookup (some .min), sides.lookup (some .max), members.lookup (some .min) with
      | some low, some high, some knob =>
        if ← Act.lift (low.gt high) then
          Act.raise (tuningError ("inverted min/max pair: " ++ pair))
        else if knob.setting = "GPU_RPS_DOWN_THRESHOLD_PCT" ∧ low = high then
          Act.raise (tuningError "GPU RPS down threshold must be below its up threshold")
      | _, _, _ => Act.raise (keyError "min")

/-- The check of one energy preference against the governor of its directory. -/
def checkEpp (inventory : Inventory) (values : List (String × Value)) (knob : Knob) :
    EngineAct Unit :=
  let governors := inventory.knobs.filter fun k =>
    k.setting = "CPU_GOVERNOR" ∧ beforeLast k.id '/' = beforeLast knob.id '/'
  match governors.getLast? with
  | none => pure ()
  | some governor => do
    if (← plannedOrRead values governor.id) = .text "performance" then
      if (← plannedOrRead values knob.id) ≠ .text "performance" then
        Act.raise (tuningError
          "performance governor cannot be combined with non-performance EPP")

/-- The clock settings that cannot be combined with application clocks. -/
def CLOCK_FAMILIES : List String :=
  ["GPU_LOCK_MHZ", "MEMORY_LOCK_MHZ", "GPU_OFFSET_MHZ", "MEMORY_OFFSET_MHZ"]

/-- Some GPU is asked for application clocks and for another clock interface. -/
def mixedClocks (inventory : Inventory) (values : List (String × Value)) : Option String :=
  let keys := values.map Prod.fst
  let devices := ((keys.filter (startsWith · "GPU-")).map (beforeFirst · '/')).dedup
  devices.find? fun device =>
    let family := keys.filter (startsWith · (device ++ "/"))
    family.any (inventory.hasSetting ["APPLICATION_CLOCKS_MHZ"]) &&
      family.any (inventory.hasSetting CLOCK_FAMILIES)

/-- `Engine.plan`: the values of a profile, and the requests it skips. -/
def plan (engine : Engine) (name : Profile) (settings : Settings) :
    EngineAct (List (String × Value) × List String) :=
  match engine.policy with
  | none => Act.raise (tuningError "invalid profile")
  | some policy => do
    let inventory := engine.inventory
    let profile := policy.profiles name
    let unknown := (profile.overrides.map Prod.fst).filter fun key => (inventory.get? key).isNone
    Act.when (unknown ≠ []) (Act.raise (tuningError
      ("unknown/unavailable device overrides: " ++ join ", " (sortedKeys unknown))))
    let skipped ← Act.lift (skippedSettings inventory settings name profile.knobs)
    let values ← Act.lift (resolvedValues inventory policy profile)
    Act.forEach (inventory.knobs.filterMap Knob.pair).eraseDups (checkPair inventory values)
    Act.forEach (inventory.knobs.filter fun k => k.setting = "CPU_EPP") (checkEpp inventory values)
    Act.when engine.checksOwnership
      (request (.checkOwnership (values.map fun kv => (kv.1, some kv.2))))
    match mixedClocks inventory values with
    | some device =>
      Act.raise (tuningError ("choose application clocks OR offsets/clock locks for " ++ device))
    | none => pure (values, skipped)

/-- Some planned value needs a readable temperature. -/
def risky (inventory : Inventory) (values : List (String × Value)) : Except Failure Bool := do
  let overclocks ← values.anyM fun kv =>
    match inventory.get? kv.1 with
    | some knob => if knob.overclock then kv.2.gt (.int 0) else .ok false
    | none => .error (keyError kv.1)
  if overclocks then return true
  let power ← values.anyM fun kv =>
    match (inventory.get? kv.1).bind Knob.powerDefault with
    | some default => kv.2.gt default
    | none => .ok false
  if power then return true
  return values.any fun kv =>
    inventory.hasSetting ["PLATFORM_PROFILE"] kv.1 && kv.2 == .text "performance"

/-- The settings whose writes may change the rest of the CPU policy. -/
def CPU_DRIVERS : List String :=
  ["CPU_GOVERNOR", "CPU_NO_TURBO", "CPU_MIN_PERF_PCT", "CPU_MAX_PERF_PCT"]

/-- The settings such a write may change. -/
def CPU_DRIVEN : List String :=
  ["CPU_GOVERNOR", "CPU_EPP", "CPU_EPB", "CPU_MIN_PERF_PCT", "CPU_MAX_PERF_PCT",
    "CPU_MIN_FREQ_KHZ", "CPU_MAX_FREQ_KHZ", "CPU_NO_TURBO"]

/-- A changed control and the controls its write may change as a side effect. -/
def sideEffects (inventory : Inventory) (key : String) : List String :=
  match inventory.get? key with
  | none => [key]
  | some knob =>
    key :: (knob.companions.filter fun k => (inventory.get? k).isSome) ++
      (inventory.knobs.filter fun k =>
        (knob.pair.isSome ∧ k.pair = knob.pair) ∨
        (knob.setting ∈ CPU_DRIVERS ∧ k.setting ∈ CPU_DRIVEN) ∨
        (knob.setting = "PLATFORM_PROFILE" ∧
          (k.setting ∈ CPU_POLICY ∨ startsWith k.setting "GPU_" ∨
            startsWith k.setting "UNCORE_"))).map Knob.id

/-- The controls the plan has to write. -/
def changedKeys (inventory : Inventory) (values : List (String × Value)) :
    EngineAct (List String) :=
  Act.fold (fun changed kv =>
    match inventory.get? kv.1 with
    | none => Act.raise (keyError kv.1)
    | some knob =>
      if knob.restorable then do
        let current ← readControl kv.1
        pure (if current ≠ kv.2 then changed ++ [kv.1] else changed)
      else pure (changed ++ [kv.1])) [] values

/-- The snapshot of one control an apply may change. -/
def snapshot (values : List (String × Value)) (entries : List Entry) (key : String) :
    EngineAct (List Entry) := do
  let before ← readControl key
  pure (entries ++ [⟨key, before, none, true, values.lookup key⟩])

/-- The local variables of the writing loop. -/
structure Writing where
  /-- `written`. -/
  written : ℕ
  /-- `values`, as the loop changes it. -/
  values : List (String × Option Value)
  /-- `selections`: preferred and selected maximum. -/
  selections : List (String × Value × Option String)
  /-- `unmodified_requests`. -/
  unmodified : List String
  /-- `skipped`. -/
  skipped : List String

/-- `entries[key]["requested"] = value`. -/
def setRequested (key : String) (value : Option Value) : EngineAct Unit :=
  Act.modify (·.update [key] fun e => { e with requested := value })

/-- A request that made no successful write: it is skipped and no longer requested. -/
def skipRequest (st : Writing) (key reason : String) : EngineAct Writing := do
  setRequested key none
  pure { st with values := delKey st.values key
                 unmodified := st.unmodified ++ [key]
                 skipped := st.skipped ++ [key ++ reason] }

/-- The writing loop at a control with a `write_maximum` and a request for the maximum. -/
def selectMaximum (policy : Policy) (knob : Knob) (configured : String) (st : Writing)
    (key : String) (value : Value) (before : Option Value) : EngineAct Writing := do
  let selected ← writeMaximum key
  let st := { st with selections := st.selections ++ [(key, value, selected)] }
  match selected with
  | none =>
    if configured ≠ "supported-max" then
      Act.raise (tuningError (key ++ ": no working advertised maximum clock pair"))
    else skipRequest st key ": no working advertised clock pair; conditional request skipped"
  | some chosen =>
    let resolved ← Act.lift (knob.resolve chosen policy)
    setRequested key resolved
    pure { st with values := setKey st.values key resolved
                   written := if some (.text chosen) ≠ before then st.written + 1 else st.written
                   unmodified := if some (.text chosen) = before then st.unmodified ++ [key]
                     else st.unmodified }

/-- `{k: self.backend.knobs[k].read() for k in sorted(affected)}`. -/
def observe (affected : List String) : EngineAct (List (String × Value)) :=
  Act.fold (fun seen key => do
    let current ← readControl key
    pure (seen ++ [(key, current)])) [] (sortedKeys affected)

/-- Some observed control no longer reads what it read. -/
def observedChange : List (String × Value) → EngineAct Bool
  | [] => pure false
  | (key, value) :: rest => do
    let current ← readControl key
    if current ≠ value then pure true else observedChange rest

/-- The writing loop at a control that is written directly. -/
def writeDirectly (inventory : Inventory) (affected : List String) (configured : String)
    (st : Writing) (key : String) (value : Value) : EngineAct Writing := do
  let observed ← (if (configured = "supported-max" ∨ configured = "supported-1") ∧
        affected.all inventory.restorable then do
      let seen ← observe affected
      pure (some seen)
    else pure none : EngineAct (Option (List (String × Value))))
  Act.handleIf
    (do
      writeControl key value
      pure { st with written := st.written + 1 })
    (fun e => e.kind = .unsupportedControl)
    fun e =>
      match observed with
      | none => Act.raise e
      | some seen => do
        if ← observedChange seen then
          Act.raise (tuningError (key ++
            ": unsupported setter changed state; request not skipped"))
        else skipRequest st key ": setter unsupported; conditional request skipped"

/-- `knob.read() if knob.restorable else None`. -/
def readIfRestorable (knob : Knob) (key : String) : EngineAct (Option Value) :=
  if knob.restorable then do
    let current ← readControl key
    pure (some current)
  else pure none

/-- The writing loop of `Engine.apply` at one control. -/
def writeOne (inventory : Inventory) (policy : Policy) (profile : ProfilePolicy)
    (affected : List String) (st : Writing) (key : String) (value : Value) : EngineAct Writing :=
  match inventory.get? key with
  | none => Act.raise (keyError key)
  | some knob => do
    let before ← readIfRestorable knob key
    if ¬knob.restorable ∨ before ≠ some value then
      let configured := profile.configured key knob.setting
      if knob.writeMaximum ∧ (configured = "max" ∨ configured = "supported-max") then
        selectMaximum policy knob configured st key value before
      else writeDirectly inventory affected configured st key value
    else pure st

/-- One control of an apply's report: what was requested and what reads back. -/
structure Readback where
  /-- The requested value. -/
  requested : Option Value
  /-- The value at the final verification. -/
  readback : Option Value
  /-- The value was read from the hardware. -/
  hardwareReadback : Bool

/-- The value a control has after an apply: its reading, or the request where there is none. -/
def settledValue (knob : Knob) (key : String) (values : List (String × Option Value)) :
    EngineAct (Option Value) :=
  if knob.restorable then do
    let current ← readControl key
    pure (some current)
  else
    match values.lookup key with
    | some value => pure value
    | none => Act.raise (keyError key)

/-- The check of a reading against the request. -/
def checkRequest (knob : Knob) (policy : Policy) (value : Option (Option Value))
    (last : Option Value) : EngineAct Unit :=
  match knob.restorable, value, last with
  | true, some value, some current => do
    let _ ← Act.lift (knob.resolve current.str policy)
    if some current ≠ value then
      Act.raise (tuningError (knob.id ++ ": requested " ++
        (value.map Value.repr).getD "None" ++ ", read back " ++ current.repr ++
        "; rejected, quantized or overridden request"))
    else pure ()
  | _, _, _ => pure ()

/-- The final verification of an apply at one entry. -/
def verifyApplied (inventory : Inventory) (policy : Policy) (values : List (String × Option Value))
    (actual : List (String × Readback)) (entry : Entry) : EngineAct (List (String × Readback)) :=
  match inventory.get? entry.id with
  | none => Act.raise (keyError entry.id)
  | some knob => do
    let last ← settledValue knob entry.id values
    Act.modify (·.update [entry.id] fun e => { e with last })
    checkRequest knob policy (values.lookup entry.id) last
    Act.modify (·.update [entry.id] fun e => { e with pending := false })
    pure (actual ++ [(entry.id, ⟨entry.requested, last, knob.restorable⟩)])

/-- What `Engine.apply` returns. -/
structure ApplyReport where
  /-- The profile in force. -/
  profile : Profile
  /-- How many controls were written. -/
  changed : ℕ
  /-- The journaled controls and their values. -/
  controls : List (String × Readback)
  /-- The skipped requests. -/
  skipped : List String
  /-- The selected maxima. -/
  selections : List (String × Value × Option String)
  /-- The temperature the apply was allowed at. -/
  temperature : Option ℚ

/-- The part of `Engine.apply` inside its `try`: write, verify, and save the result. -/
def writeAndVerify (inventory : Inventory) (policy : Policy) (name : Profile)
    (values : List (String × Value)) (affected skipped : List String) (temperature : Option ℚ) :
    EngineAct ApplyReport := do
  let st ← ordered inventory values
    ⟨0, values.map fun kv => (kv.1, some kv.2), [], [], skipped⟩
    (writeOne inventory policy (policy.profiles name) affected)
  let journal ← Act.get
  let actual ← Act.fold (verifyApplied inventory policy st.values) [] journal.entries
  -- A skipped or already working request made no write, so nothing has to be undone.
  Act.modify fun j => { j with entries := j.entries.filter fun e =>
    e.id ∉ st.unmodified ∨ e.last ≠ some e.before }
  let j ← Act.get
  saveJournal j
  pure ⟨name, st.written, actual, st.skipped, st.selections, temperature⟩

/-- The `except BaseException` of `Engine.apply`. -/
def undo {α : Type} (inventory : Inventory) (exc : Failure) : EngineAct α := do
  Act.handleIf (do let _ ← reset inventory) Failure.isOsOrTuning fun recovery =>
    Act.raise (tuningError ("apply failed (" ++ exc.text ++ "); recovery failed (" ++
      recovery.text ++ ")"))
  Act.raise exc

/-- The thermal interlock of `Engine.apply`. -/
def thermalGate (policy : Policy) : Option ℚ → EngineAct Unit
  | none => pure ()
  | some t => Act.when (t ≥ policy.maxTemperature) (Act.raise (tuningError
      ("thermal interlock prevents applying this profile: " ++
        toString t ++ " C >= " ++ toString policy.maxTemperature ++ " C")))

/-- `Engine.apply` from its resolved plan on: gate, snapshot, write, verify. -/
def applyPlan (inventory : Inventory) (policy : Policy) (name : Profile)
    (values : List (String × Value)) (skipped : List String) : EngineAct ApplyReport := do
  let temperature ← readTemperature
  thermalGate policy temperature
  let risk ← Act.lift (risky inventory values)
  Act.when (risk ∧ temperature.isNone)
    (Act.raise (tuningError "overclock/power increases require a readable temperature sensor"))
  let changed ← changedKeys inventory values
  let affected := sortedKeys (changed.flatMap (sideEffects inventory))
  -- Unchanged requests of an affected domain stay in the plan: an earlier write may move them.
  let values := values.filter fun kv => kv.1 ∈ affected
  let entries ← Act.fold (snapshot values) [] affected
  Act.modify fun _ => ⟨some name, entries⟩
  -- The write-ahead snapshot precedes the first hardware mutation.
  saveJournal ⟨some name, entries⟩
  Act.handle (writeAndVerify inventory policy name values affected skipped temperature)
    (undo inventory)

/-- Give up what an earlier apply owns, because it is replaced or because of a conflict. -/
def giveUp (engine : Engine) : EngineAct Unit := do
  let report ← health engine
  let _ ← reset engine.inventory
  Act.when (report.conflicts ≠ []) (Act.raise (tuningError
    ("yielding to external/thermal policy: " ++ join "; " report.conflicts)))

/-- `Engine.apply`. -/
def apply (engine : Engine) (name : Profile) (settings : Settings) : EngineAct ApplyReport := do
  let journal ← Act.get
  Act.when (journal.entries ≠ []) (giveUp engine)
  let (values, skipped) ← plan engine name settings
  match engine.policy with
  | none => Act.raise (tuningError "invalid profile")
  | some policy => applyPlan engine.inventory policy name values skipped

end Preseed.HardwareTuning
