import Preseed.HardwareTuning.Journal

/-!
# Ordering and resetting controls

`Engine.ordered` and `Engine.reset`, translated step by step. A reset reads every
journaled control, yields what another manager has changed, persists its intent,
writes the baselines back in recovery order, verifies the final state, and keeps
the journal entries of everything it could not restore.
-/

namespace Preseed.HardwareTuning

open Effects

/-- `CPU_POLICY`: the settings of the coupled CPU policy. -/
def CPU_POLICY : List String :=
  ["PLATFORM_PROFILE", "CPU_GOVERNOR", "CPU_EPP", "CPU_MIN_FREQ_KHZ", "CPU_MAX_FREQ_KHZ",
    "CPU_MIN_PERF_PCT", "CPU_MAX_PERF_PCT", "CPU_NO_TURBO", "CPU_EPB", "CPU_HWP_DYNAMIC_BOOST"]

/-- `self.backend.knobs[key].setting in settings`, for a control of the inventory. -/
def Inventory.hasSetting (inventory : Inventory) (settings : List String) (key : String) : Bool :=
  (inventory.get? key).any fun knob => knob.setting ∈ settings

/-- `KeyError(key)`. -/
def keyError (key : String) : Failure := ⟨.keyError, key⟩

/-- `early` and `late` of `Engine.ordered`, with the default between them. -/
def settingPriority (setting : String) : ℤ :=
  match setting with
  | "PLATFORM_PROFILE" => -2
  | "CPU_GOVERNOR" => 0
  | "CPU_NO_TURBO" => 1
  | "CPU_MIN_PERF_PCT" | "CPU_MAX_PERF_PCT" => 2
  | "CPU_EPP" => 5
  | "CPU_EPB" => 6
  | "AUTO_BOOST" => 7
  | _ => 3

/-- `priority(key)`: persistence is enabled first and disabled last. -/
def priority (inventory : Inventory) (values : List (String × Value)) (key : String) : ℤ :=
  match inventory.get? key with
  | none => 3
  | some knob =>
    if knob.setting = "PERSISTENCE_MODE" then
      if values.lookup key = some (.int 1) then -1 else 8
    else settingPriority knob.setting

/-- The order of the sort key `(priority(k), k)`. -/
def priorityLE (inventory : Inventory) (values : List (String × Value)) (a b : String) : Prop :=
  priority inventory values a < priority inventory values b ∨
    priority inventory values a = priority inventory values b ∧ a ≤ b

instance (inventory : Inventory) (values : List (String × Value)) :
    DecidableRel (priorityLE inventory values) := fun a b => by
  unfold priorityLE
  infer_instance

/-- `sorted(values, key=...)`. -/
def orderedKeys (inventory : Inventory) (values : List (String × Value)) : List String :=
  (values.map Prod.fst).insertionSort (priorityLE inventory values)

/-- `pairs.get(knob.pair, ())`: the requested members of a pair. -/
def pairGroup (inventory : Inventory) (values : List (String × Value)) (pair : String) :
    List String :=
  (values.map Prod.fst).filter fun key =>
    (inventory.get? key).any fun knob => knob.pair = some pair

/-- The first member of a group on one side of its pair. -/
def memberOn (inventory : Inventory) (group : List String) (side : Side) : Option String :=
  group.find? fun key => (inventory.get? key).any fun knob => knob.side = some side

/-- The controls yielded at one position of the order: a single control, or both members of a
pair in the order that keeps the pair from inverting. -/
def pairOrder (inventory : Inventory) (values : List (String × Value)) (key : String) :
    EngineAct (List String) :=
  match ((inventory.get? key).bind Knob.pair).map (pairGroup inventory values) with
  | some [a, b] =>
    match memberOn inventory [a, b] .min, memberOn inventory [a, b] .max with
    | some lo, some hi => do
      let high ← readControl hi
      match values.lookup lo with
      | none => Act.raise (keyError lo)
      | some low =>
        let inverted ← Act.lift (low.gt high)
        pure (if inverted then [hi, lo] else [lo, hi])
    -- `next` raises StopIteration, which a generator turns into RuntimeError.
    | _, _ => Act.raise ⟨.runtimeError, "generator raised StopIteration"⟩
  | _ => pure [key]

/-- The body of a loop over `Engine.ordered`, at one yielded control. -/
def visit {β : Type} (values : List (String × Value)) (body : β → String → Value → EngineAct β)
    (b : β) (key : String) : EngineAct β :=
  match values.lookup key with
  | none => Act.raise (keyError key)
  | some value => body b key value

/-- The loop of `Engine.ordered` from some position on; `done` holds what was yielded. -/
def orderedFrom {β : Type} (inventory : Inventory) (values : List (String × Value))
    (body : β → String → Value → EngineAct β) : List String → List String → β → EngineAct β
  | _, [], b => pure b
  | done, key :: rest, b =>
    if key ∈ done then orderedFrom inventory values body done rest b
    else do
      let order ← pairOrder inventory values key
      let b ← Act.fold (visit values body) b order
      orderedFrom inventory values body (done ++ order) rest b

/-- `for key, value in self.ordered(values): body`. The generator reads the upper member of a
pair when the loop reaches the pair, after the preceding writes. -/
def ordered {β : Type} (inventory : Inventory) (values : List (String × Value)) (b : β)
    (body : β → String → Value → EngineAct β) : EngineAct β :=
  match values.find? fun kv => (inventory.get? kv.1).isNone with
  | some (key, _) => Act.raise (keyError key)
  | none => orderedFrom inventory values body [] (orderedKeys inventory values) b

/-- What the first pass of a reset decides about the journaled controls. -/
structure Scan where
  /-- The controls to restore, with their baselines. -/
  restore : List (String × Value)
  /-- The controls another manager has changed. -/
  yielded : List String
  /-- What failed. -/
  failures : List String
  deriving DecidableEq

/-- The first pass of a reset at one entry. -/
def scanOne (inventory : Inventory) (scan : Scan) (entry : Entry) : EngineAct Scan :=
  match inventory.get? entry.id with
  | none => pure { scan with
      failures := scan.failures ++
        [entry.id ++ ": missing from hardware inventory; retained for recovery"] }
  | some knob =>
    Act.handleIf
      (do
        let current ← readControl entry.id
        if entry.pending ∨ ¬knob.restorable ∨ some current = entry.last then
          pure { scan with restore := scan.restore ++ [(entry.id, entry.before)] }
        else pure { scan with yielded := scan.yielded ++ [entry.id] })
      Failure.isCaught
      fun e => pure { scan with failures := scan.failures ++ [entry.id ++ ": " ++ e.text] }

/-- Some journaled control is the firmware profile selector. -/
def platformOwned (inventory : Inventory) (journal : Journal) : Bool :=
  inventory.knobs.any fun knob => knob.setting = "PLATFORM_PROFILE" ∧ knob.id ∈ journal.ids

/-- A control is given up together with a changed member of its domain. -/
def givenUp (inventory : Inventory) (journal : Journal) (scan : Scan) (key : String) : Bool :=
  (platformOwned inventory journal && !scan.yielded.isEmpty) ||
    (scan.yielded.any (inventory.hasSetting CPU_POLICY) && inventory.hasSetting CPU_POLICY key)

/-- Yield the whole firmware or CPU domain when any member of it has been replaced. -/
def yieldDomains (inventory : Inventory) (journal : Journal) (scan : Scan) : Scan :=
  { scan with
    restore := scan.restore.filter fun kv => !givenUp inventory journal scan kv.1
    yielded := scan.yielded ++
      (scan.restore.map Prod.fst).filter (givenUp inventory journal scan) }

/-- A run of lower-case hexadecimal digits. -/
def isHexDigit (c : Char) : Bool := isDigit c ∨ 'a' ≤ c ∧ c ≤ 'f'

/-- The pattern `/platform-profile-[0-9]+/profile(?:@[0-9a-f]{16})?$`. -/
def isPlatformProfileId (key : String) : Bool :=
  let parts := splitAll (if key.toList.getLast? = some '\n'
    then String.ofList key.toList.dropLast else key) '/'
  match parts.reverse with
  | leaf :: device :: _ :: _ =>
    (leaf = "profile" ||
      startsWith leaf "profile@" &&
        ((leaf.toList.drop 8).length = 16 && (leaf.toList.drop 8).all isHexDigit)) &&
    (startsWith device "platform-profile-" &&
      (!(device.toList.drop 17).isEmpty && (device.toList.drop 17).all isDigit))
  | _ => false

/-- The local variables of the restoring loop. -/
structure Restoration where
  /-- Yielded or restored controls. -/
  complete : List String
  /-- Controls that stay in the journal. -/
  unresolved : List String
  /-- What failed. -/
  failures : List String
  /-- The firmware profile could not be restored. -/
  platformFailed : Bool
  deriving DecidableEq

/-- The control stays in the journal, with a reason. -/
def Restoration.retain (st : Restoration) (key reason : String) : Restoration :=
  { st with failures := st.failures ++ [key ++ ": " ++ reason]
            unresolved := st.unresolved.insert key }

/-- `not knob.restorable or knob.read() != value or knob.restore_value`. -/
def writeNeeded (knob : Knob) (key : String) (value : Value) : EngineAct Bool :=
  if knob.restorable then do
    let current ← readControl key
    pure (decide (current ≠ value) || knob.restoreValue)
  else pure true

/-- `restore_fn(value)`. -/
def restoreControl (knob : Knob) (key : String) (value : Value) : EngineAct Unit :=
  if knob.restoreValue then restoreValue key value else writeControl key value

/-- `if knob.restorable and knob.read() != value: raise TuningError(text)`. -/
def checkReadback (knob : Knob) (key : String) (value : Value) (text : String) : EngineAct Unit :=
  if knob.restorable then do
    let current ← readControl key
    if current ≠ value then Act.raise (tuningError text) else pure ()
  else pure ()

/-- Write a baseline back unless the control already reads it, and read it back. -/
def writeBack (knob : Knob) (key : String) (value : Value) : EngineAct Unit := do
  let needed ← writeNeeded knob key value
  Act.when needed (restoreControl knob key value)
  checkReadback knob key value "restoration readback differs from original value"

/-- The restoring loop at one control. -/
def restoreOne (inventory : Inventory) (st : Restoration) (key : String) (value : Value) :
    EngineAct Restoration :=
  match inventory.get? key with
  | none => Act.raise (keyError key)
  | some knob =>
    if st.platformFailed then
      pure (st.retain key "retained until firmware profile restoration succeeds")
    -- Persistence is a prerequisite of restoring the rest of its device.
    else if knob.setting = "PERSISTENCE_MODE" ∧ value = .int 0 ∧
        st.unresolved.any (startsWith · (beforeFirst key '/' ++ "/")) then
      pure (st.retain key "persistence retained for incomplete device restoration")
    else
      Act.handleIf
        (do
          writeBack knob key value
          pure { st with complete := st.complete.insert key })
        Failure.isCaught
        fun e =>
          let st := st.retain key e.text
          pure (if knob.setting = "PLATFORM_PROFILE" then { st with platformFailed := true } else st)

/-- The final verification at one restored control. -/
def verifyOne (inventory : Inventory) (journal : Journal) (st : Restoration) (key : String) :
    EngineAct Restoration :=
  match inventory.get? key, journal.entry? key with
  | some knob, some entry =>
    Act.handleIf
      (do
        checkReadback knob key entry.before
          "final restoration readback differs from original value"
        pure st)
      Failure.isCaught
      fun e => pure { st with complete := st.complete.filter (· ≠ key)
                              failures := st.failures ++ [key ++ ": " ++ e.text] }
  | _, _ => Act.raise (keyError key)

/-- A failed control and another one belong to one side-effect domain. -/
def sharesDomain (inventory : Inventory) (failed key : String) : Bool :=
  match inventory.get? failed, inventory.get? key with
  | some knob, some other =>
    knob.setting = "PLATFORM_PROFILE" ∨ key ∈ knob.companions ∨ failed ∈ other.companions ∨
      (knob.pair.isSome ∧ other.pair = knob.pair) ∨
      (knob.setting ∈ CPU_POLICY ∧ other.setting ∈ CPU_POLICY)
  | _, _ => false

/-- `retained`: the failed controls and every control of a side-effect domain with a failure. -/
def retainedKeys (inventory : Inventory) (journal : Journal) (restore failed : List String) :
    List String :=
  failed ++ restore.filter fun key =>
    (platformOwned inventory journal && !failed.isEmpty) ||
      failed.any fun f => sharesDomain inventory f key

/-- Drop the completed controls from the journal; an empty journal has no profile. -/
def Journal.without (journal : Journal) (complete : List String) : Journal :=
  let entries := journal.entries.filter fun e => e.id ∉ complete
  { profile := if entries = [] then none else journal.profile, entries }

/-- What a finished reset has done to the journal. -/
structure ResetOutcome where
  /-- The controls dropped from the journal. -/
  complete : List String
  /-- The controls yielded to another manager. -/
  yielded : List String
  /-- What failed. -/
  failures : List String
  deriving DecidableEq

/-- The second half of `Engine.reset`, once the first pass has read every control. -/
def restoreScanned (inventory : Inventory) (journal : Journal) (scan : Scan) :
    EngineAct ResetOutcome := do
  let { restore, yielded, failures } := yieldDomains inventory journal scan
  let keys := restore.map Prod.fst
  -- Persist intent before a restore write: a killed reset must not look like interference.
  Act.modify (·.update keys Entry.markPending)
  Act.when (restore ≠ []) (saveJournal (journal.update keys Entry.markPending))
  let unresolved := journal.ids.filter fun key => key ∉ keys ∧ key ∉ yielded
  let platformFailed := unresolved.any fun key =>
    isPlatformProfileId key || inventory.hasSetting ["PLATFORM_PROFILE"] key
  let st ← ordered inventory restore ⟨yielded.dedup, unresolved, failures, platformFailed⟩
    (restoreOne inventory)
  let st ← Act.fold (verifyOne inventory journal) st
    (sortedKeys (st.complete.filter fun key => key ∉ yielded))
  let failed := keys.filter fun key => key ∉ st.complete
  let retained := retainedKeys inventory journal keys failed
  let complete := st.complete.filter fun key => key ∉ retained
  Act.modify (·.without complete)
  let j ← Act.get
  saveJournal j
  pure ⟨complete, yielded, st.failures⟩

/-- `Engine.reset` up to its report: the journal has been trimmed and saved. -/
def resetCore (inventory : Inventory) : EngineAct ResetOutcome := do
  let journal ← Act.get
  let scan ← Act.fold (scanOne inventory) ⟨[], [], []⟩ journal.entries
  restoreScanned inventory journal scan

/-- What `Engine.reset` returns. -/
structure ResetReport where
  /-- How many controls were restored. -/
  restored : ℕ
  /-- The controls left as another manager set them. -/
  externalValuesPreserved : List String
  deriving DecidableEq

/-- `Engine.reset`. -/
def reset (inventory : Inventory) : EngineAct ResetReport := do
  let done ← resetCore inventory
  if done.failures = [] then
    pure ⟨done.complete.length - done.yielded.dedup.length, sortedKeys done.yielded⟩
  else
    Act.raise (tuningError
      ("restoration incomplete; journal retained: " ++ join "; " done.failures))

/-- The power gate of an owned limit: its baseline, so that the gate is never ratcheted from an
already-tuned limit. -/
def adopt (journal : Journal) (knob : Knob) : Knob :=
  match journal.entry? knob.id with
  | some entry =>
    if knob.powerDefault.isSome ∧
        (startsWith knob.setting "RAPL_" ∨ startsWith knob.setting "DOMAIN_") then
      { knob with powerDefault := some entry.before }
    else knob
  | none => knob

/-- Adopting a baseline changes nothing but the power gate. -/
theorem adopt_eq (journal : Journal) (knob : Knob) :
    ∃ powerDefault, adopt journal knob = { knob with powerDefault } := by
  unfold adopt
  split
  · split
    · exact ⟨_, rfl⟩
    · exact ⟨knob.powerDefault, rfl⟩
  · exact ⟨knob.powerDefault, rfl⟩

/-- The inventory of a worker whose journal is loaded. -/
def Inventory.adopt (inventory : Inventory) (journal : Journal) : Inventory where
  knobs := inventory.knobs.map (HardwareTuning.adopt journal)
  nodup := by
    have hmap : (inventory.knobs.map (HardwareTuning.adopt journal)).map Knob.id =
        inventory.knobs.map Knob.id := by
      rw [List.map_map]
      refine List.map_congr_left fun knob _ => ?_
      obtain ⟨_, h⟩ := adopt_eq journal knob
      simp only [Function.comp_apply, h]
    rw [hmap]
    exact inventory.nodup
  paired := by
    simp only [List.mem_map]
    rintro _ ⟨a, ha, rfl⟩ _ ⟨b, hb, rfl⟩
    obtain ⟨_, ha'⟩ := adopt_eq journal a
    obtain ⟨_, hb'⟩ := adopt_eq journal b
    rw [ha', hb']
    exact inventory.paired a ha b hb

/-- `Engine.__init__` on a decoded journal: refuse an oversized or duplicated journal, and take
the baseline of an owned power limit as the reference of the power gate. -/
def loadEngine (inventory : Inventory) (journal : Journal) : Except Failure Inventory :=
  if journal.entries.length > 8192 then
    .error (tuningError "recovery journal exceeds supported device count")
  else if ¬journal.ids.Nodup then
    .error (tuningError "invalid or duplicate recovery entry")
  else .ok (inventory.adopt journal)

/-- A loaded journal has every control once. -/
theorem loadEngine_ok {inventory loaded : Inventory} {file : Journal}
    (h : loadEngine inventory file = .ok loaded) : loaded = inventory.adopt file ∧ file.ids.Nodup := by
  unfold loadEngine at h
  split at h
  · cases h
  · split at h
    · cases h
    · rename_i hnodup
      cases h
      exact ⟨rfl, not_not.mp hnodup⟩

theorem loadEngine_of_isOk {inventory : Inventory} {file : Journal}
    (h : (loadEngine inventory file).isOk = true) :
    loadEngine inventory file = .ok (inventory.adopt file) := by
  cases hload : loadEngine inventory file with
  | error err =>
    rw [hload] at h
    cases h
  | ok loaded => rw [(loadEngine_ok hload).1]

end Preseed.HardwareTuning
