import Mathlib
import Preseed.Effects.Raising

/-!
# The search for the fastest application clocks

`application_clocks` and `smi_application_clocks` of the NVIDIA backend: the table of
advertised clock pairs, the two ways of setting a pair, and the three loops that look for
the fastest pair that works.
-/

namespace Preseed.HardwareTuning.ApplicationClocks

open Effects

/-- A pair of a memory clock and a graphics clock, written `memory,graphics`. -/
abbrev Pair := ℕ × ℕ

/-- The advertised graphics clocks for each memory clock. -/
structure Tables where
  /-- The clocks. -/
  rows : List (ℕ × List ℕ)
  /-- A memory clock is a key of a dictionary. -/
  nodup : (rows.map Prod.fst).Nodup

/-- `sorted(clocks, reverse=True)`. -/
def descending (clocks : List ℕ) : List ℕ := clocks.insertionSort (· ≥ ·)

/-- `tables[memory]`. -/
def Tables.graphics (tables : Tables) (memory : ℕ) : List ℕ := (tables.rows.lookup memory).getD []

/-- `pairs`: every advertised pair, from the fastest memory and graphics clock on. -/
def Tables.pairs (tables : Tables) : List Pair :=
  (descending (tables.rows.map Prod.fst)).flatMap fun memory =>
    (descending (tables.graphics memory).dedup).map fun graphics => (memory, graphics)

/-- What NVML answers to a pair: success, `INVALID_ARGUMENT` or `NOT_SUPPORTED`. -/
inductive Verdict
  | accepted | invalid | unsupported
  deriving DecidableEq

/-- A driver that accepts some pairs and changes nothing when it rejects one, together with the
readings of the clock. -/
structure Driver where
  /-- The answers of NVML. -/
  nvml : Pair → Verdict
  /-- The pairs `nvidia-smi` accepts. -/
  smi : Pair → Bool
  /-- `nvidia-smi` is there. -/
  smiInstalled : Bool
  /-- The readings of `time.monotonic()`. -/
  clock : ℕ → ℚ

/-- A GPU, with the state of its control. -/
structure Gpu where
  /-- The clock pair in force. -/
  current : Pair
  /-- What Auto Boost reads, where it is offered. -/
  boost : Option ℤ
  /-- `smi_fallback is not None`. -/
  fallback : Bool
  /-- How often the clock has been read. -/
  ticks : ℕ
  deriving DecidableEq

/-- The exceptions of the search. -/
inductive ClockFailure
  /-- An NVML status other than `NOT_SUPPORTED`. -/
  | nvml (status : ℕ)
  /-- `NvidiaSmiFailure`. -/
  | smi
  /-- Any other `TuningError`. -/
  | tuning (text : String)
  deriving DecidableEq

/-- A part of the control. -/
abbrev ClockAct := EStateM ClockFailure Gpu

/-- `time.monotonic()`. -/
def monotonic (driver : Driver) : ClockAct ℚ := fun gpu =>
  .ok (driver.clock gpu.ticks) { gpu with ticks := gpu.ticks + 1 }

/-- `read()`. -/
def readPair : ClockAct Pair := fun gpu => .ok gpu.current gpu

/-- The reading of the Auto Boost companion. -/
def readBoost : ClockAct (Option ℤ) := fun gpu => .ok gpu.boost gpu

/-- `if condition: raise TuningError(text)`. -/
def refuse (condition : Prop) [Decidable condition] (text : String) : ClockAct Unit :=
  if condition then throw (.tuning text) else pure ()

/-- `if time.monotonic() >= deadline: raise TuningError(...)`. -/
def checkDeadline (driver : Driver) (deadline : ℚ) : ClockAct Unit := do
  let now ← monotonic driver
  refuse (deadline ≤ now) "maximum application-clock selection deadline exceeded"

/-- `set_application_pair`. -/
def setApplicationPair (driver : Driver) (pair : Pair) : ClockAct Unit := fun gpu =>
  if driver.smi pair then .ok () { gpu with current := pair } else .error .smi gpu

/-- `NvidiaSmi()`, which looks for the command. -/
def findSmi (driver : Driver) : ClockAct Unit := fun gpu =>
  if driver.smiInstalled then .ok () { gpu with fallback := true } else .error .smi gpu

/-- `if read() != value: raise NvidiaSmiFailure(...)`. -/
def confirmPair (pair : Pair) : ClockAct Unit := do
  let now ← readPair
  if now ≠ pair then throw .smi else pure ()

/-- `write` of the NVML control. -/
def writePair (driver : Driver) (pairs : List Pair) (pair : Pair) : ClockAct Unit := do
  refuse (pair ∉ pairs) "application clocks must be an advertised memory,graphics pair"
  let gpu ← get
  if gpu.fallback then
    setApplicationPair driver pair
    confirmPair pair
  else
    match driver.nvml pair with
    | .accepted => modify fun gpu => { gpu with current := pair }
    | .invalid => throw (.nvml 2)
    -- The driver exports the symbol but rejects the call: go on with nvidia-smi.
    | .unsupported =>
      findSmi driver
      setApplicationPair driver pair
      confirmPair pair

/-- `try: x except ...: return the exception`, for the exceptions a predicate selects. -/
def attempt (x : ClockAct Unit) (selects : ClockFailure → Bool) : ClockAct (Option ClockFailure) :=
  rescue (do x; pure none) fun e => if selects e then pure (some e) else throw e

/-- `NVMLFailure`. -/
def ClockFailure.isNvml : ClockFailure → Bool
  | .nvml _ => true
  | .smi | .tuning _ => false

/-- `NvidiaSmiFailure`. -/
def ClockFailure.isSmi : ClockFailure → Bool
  | .smi => true
  | .nvml _ | .tuning _ => false

/-- The pair and Auto Boost are what they were, or the text is raised. -/
def unchanged (before : Pair) (boost : Option ℤ) (text : String) : ClockAct Unit := do
  let pair ← readPair
  let now ← readBoost
  refuse (pair ≠ before ∨ now ≠ boost) text

/-- The loop of `maximum` over NVML. -/
def selectNvml (driver : Driver) (pairs : List Pair) (deadline : ℚ) (before : Pair)
    (boost : Option ℤ) : List Pair → ClockAct (Option Pair)
  | [] => pure none
  | candidate :: rest => do
    checkDeadline driver deadline
    unchanged before boost "application-clock state changed during selection"
    checkDeadline driver deadline
    if candidate = before then pure (some candidate)
    else do
      match ← attempt (writePair driver pairs candidate) ClockFailure.isNvml with
      | some e =>
        -- Retry only an explicitly rejected pair whose state stayed intact.
        if e ≠ .nvml 2 ∧ e ≠ .nvml 3 then throw e
        else do
          unchanged before boost "rejected application-clock request changed state; no retry"
          selectNvml driver pairs deadline before boost rest
      | none => do
        let now ← readPair
        refuse (now ≠ candidate) "application-clock selection readback differs; no retry"
        checkDeadline driver deadline
        pure (some candidate)

/-- The loop of `maximum` over nvidia-smi, with its way of writing a pair. -/
def selectSmi (driver : Driver) (write : Pair → ClockAct Unit) (deadline : ℚ) (before : Pair) :
    List Pair → ClockAct (Option Pair)
  | [] => pure none
  | candidate :: rest => do
    checkDeadline driver deadline
    let now ← readPair
    refuse (now ≠ before) "application-clock state changed during selection"
    if candidate = before then pure (some candidate)
    else do
      match ← attempt (write candidate) ClockFailure.isSmi with
      | some _ => do
        let now ← readPair
        refuse (now ≠ before) "nvidia-smi rejection changed application-clock state; no retry"
        selectSmi driver write deadline before rest
      | none => pure (some candidate)

/-- `maximum` of `application_clocks`. -/
def maximum (driver : Driver) (pairs : List Pair) : ClockAct (Option Pair) := do
  let gpu ← get
  let start ← monotonic driver
  let before ← readPair
  if gpu.fallback then selectSmi driver (writePair driver pairs) (start + 8) before pairs
  else do
    let boost ← readBoost
    selectNvml driver pairs (start + 8) before boost pairs

/-- `write` of `smi_application_clocks`. -/
def writeSmi (driver : Driver) (pairs : List Pair) (pair : Pair) : ClockAct Unit := do
  refuse (pair ∉ pairs) "application clocks must be an advertised memory,graphics pair"
  setApplicationPair driver pair
  let now ← readPair
  refuse (now ≠ pair) "nvidia-smi application-clock readback differs"

/-- `maximum` of `smi_application_clocks`. -/
def smiMaximum (driver : Driver) (pairs : List Pair) : ClockAct (Option Pair) := do
  let start ← monotonic driver
  let before ← readPair
  selectSmi driver (writeSmi driver pairs) (start + 8) before pairs

end Preseed.HardwareTuning.ApplicationClocks
