import Mathlib.Data.List.Nodup
import Mathlib.Data.Rat.Defs

/-!
# Shared hardware-tuning primitives

The data model of `common.py`: profiles and vendors, the exception classes the
tuning code tells apart, scalar control values, knobs with their bounds, and
`Knob.resolve`, which turns a configured request into a bounded value.
-/

namespace Preseed.HardwareTuning

/-- `PROFILES`, from the most to the least demanding. -/
inductive Profile
  | performance | high | balanced | silent
  deriving DecidableEq

/-- `PROFILES` as the tuple the code iterates over. -/
def Profile.all : List Profile := [.performance, .high, .balanced, .silent]

/-- `RANK`: the position of a profile counted from the end of `PROFILES`. -/
def Profile.rank : Profile → ℕ
  | .performance => 4
  | .high => 3
  | .balanced => 2
  | .silent => 1

/-- `VENDORS`. -/
inductive Vendor
  | intel | nvidia
  deriving DecidableEq

/-- The exception classes the tuning code tells apart. `interrupted` stands for the exceptions
outside `Exception`: signals, exits and cancellations. -/
inductive FailureKind
  | osError | tuningError | unsupportedControl | valueError | typeError | keyError | runtimeError
  | interrupted
  deriving DecidableEq

/-- A raised exception with its text. -/
structure Failure where
  /-- The class of the exception. -/
  kind : FailureKind
  /-- `str(exc)`. -/
  text : String
  deriving DecidableEq

/-- Raise `TuningError(text)`. -/
def tuningError (text : String) : Failure := ⟨.tuningError, text⟩

/-- Matched by `except (OSError, TuningError, ValueError)`. -/
def Failure.isCaught (e : Failure) : Bool :=
  e.kind ∈ [.osError, .tuningError, .unsupportedControl, .valueError]

/-- Matched by `except (OSError, TuningError)`. -/
def Failure.isOsOrTuning (e : Failure) : Bool :=
  e.kind ∈ [.osError, .tuningError, .unsupportedControl]

/-- Matched by `except Exception`. -/
def Failure.isException (e : Failure) : Bool := e.kind ≠ .interrupted

/-- A control value: a number, a word, or the two ends of a clock range. -/
inductive Value
  | int (n : ℤ)
  | text (s : String)
  | range (low high : ℤ)
  deriving DecidableEq

/-- `str(value)`. -/
def Value.str : Value → String
  | .int n => toString n
  | .text s => s
  | .range a b => "[" ++ toString a ++ ", " ++ toString b ++ "]"

/-- `repr(value)`, for words without quotes or escapes. -/
def Value.repr : Value → String
  | .text s => "'" ++ s ++ "'"
  | v => v.str

/-- `left > right`: numbers and words compare among themselves, ranges lexicographically, and
mixed operands raise `TypeError`. -/
def Value.gt : Value → Value → Except Failure Bool
  | .int a, .int b => .ok (decide (a > b))
  | .text a, .text b => .ok (decide (b < a))
  | .range a b, .range c d => .ok (decide (a > c ∨ a = c ∧ b > d))
  | _, _ => .error ⟨.typeError, "'>' not supported between these operands"⟩

/-- `text.startswith(prefix)`. -/
def startsWith (text initial : String) : Bool := initial.toList.isPrefixOf text.toList

/-- `text.removeprefix(prefix)`. -/
def removePrefix (text initial : String) : String :=
  if startsWith text initial then String.ofList (text.toList.drop initial.length) else text

/-- `text.split(separator, 1)[0]`: what stands before the first separator. -/
def beforeFirst (text : String) (separator : Char) : String :=
  String.ofList (text.toList.takeWhile (· ≠ separator))

/-- `text.rsplit(separator, 1)[0]`: what stands before the last separator. -/
def beforeLast (text : String) (separator : Char) : String :=
  if separator ∈ text.toList then
    String.ofList ((text.toList.reverse.dropWhile (· ≠ separator)).drop 1).reverse
  else text

/-- `text.split(separator)`. -/
def splitAll (text : String) (separator : Char) : List String :=
  (text.toList.splitOn separator).map String.ofList

/-- `separator.join(parts)`. -/
def join (separator : String) : List String → String
  | [] => ""
  | [part] => part
  | part :: rest => part ++ separator ++ join separator rest

/-- An ASCII decimal digit. -/
def isDigit (c : Char) : Bool := '0' ≤ c ∧ c ≤ '9'

/-- The digits `0|[1-9][0-9]{0,15}` as a number. -/
def parseDigits (digits : List Char) : Option ℕ :=
  if digits ≠ [] ∧ digits.all isDigit ∧ digits.length ≤ 16 ∧ (digits.head? = some '0' → digits = ['0'])
  then some (digits.foldl (fun n c => 10 * n + (c.toNat - '0'.toNat)) 0)
  else none

/-- The whole text matched against `-?(?:0|[1-9][0-9]{0,15})`. -/
def parseInteger (text : String) : Option ℤ :=
  match text.toList with
  | '-' :: digits => (parseDigits digits).map fun n => -(n : ℤ)
  | digits => (parseDigits digits).map Int.ofNat

/-- `integer`: an integer, or its canonical text, inside the bounds. -/
def integer (value : Value) (low high : ℤ) : Except Failure ℤ := do
  let result ← match value with
    | .int n => pure n
    | .text s =>
      match parseInteger s with
      | some n => pure n
      | none => throw (tuningError ("expected an integer, got " ++ value.repr))
    | .range _ _ => throw (tuningError ("expected an integer, got " ++ value.repr))
  if low ≤ result ∧ result ≤ high then pure result
  else throw (tuningError
    (toString result ++ " is outside [" ++ toString low ++ ", " ++ toString high ++ "]"))

/-- A character of `[A-Za-z0-9_,.-]`. -/
def isSafeChar (c : Char) : Bool :=
  'A' ≤ c ∧ c ≤ 'Z' ∨ 'a' ≤ c ∧ c ≤ 'z' ∨ isDigit c ∨ c ∈ ['_', ',', '.', '-']

/-- `safe_value`. -/
def safeValue (value : String) : Except Failure Unit :=
  if 1 ≤ value.toList.length ∧ value.toList.length ≤ 100 ∧ value.toList.all isSafeChar then .ok ()
  else .error (tuningError "tuning values must be bounded scalar strings")

/-- Which end of a min/max pair a knob is. -/
inductive Side
  | min | max
  deriving DecidableEq

/-- `Knob`, without its reader and writers, which are operations of the environment.
`writeMaximum` and `restoreValue` say whether the backend attached those functions. -/
structure Knob where
  /-- The identifier, unique in the inventory. -/
  id : String
  /-- The name of the setting in the configuration. -/
  setting : String
  /-- The driver's lower bound. -/
  minimum : Option ℤ
  /-- The driver's upper bound. -/
  maximum : Option ℤ
  /-- The advertised choices, or none for a number. -/
  choices : List String
  /-- Symbolic values and what they stand for. -/
  symbols : List (String × Value)
  /-- The unit; `MHz-pair` marks a clock range. -/
  unit : String
  /-- The min/max pair the knob belongs to. -/
  pair : Option String
  /-- Its end of the pair. -/
  side : Option Side
  /-- A positive value is an overclock. -/
  overclock : Bool
  /-- The reference value of the power gate. -/
  powerDefault : Option Value
  /-- The current value can be read and written back. -/
  restorable : Bool
  /-- An extra check of the backend. -/
  validateExtra : Value → Except Failure Unit
  /-- Other controls a write may change. -/
  companions : List String
  /-- Administrator-verified bounds may be used. -/
  verifiedBoundsAllowed : Bool
  /-- The backend offers `write_maximum`. -/
  writeMaximum : Bool
  /-- The backend offers `restore_value`. -/
  restoreValue : Bool

/-- One profile of a vendor policy: a request for each setting, and for single controls. -/
structure ProfilePolicy where
  /-- The request for each setting. -/
  knobs : List (String × String)
  /-- The request for single controls. -/
  overrides : List (String × String)

/-- A validated vendor policy. -/
structure Policy where
  /-- Positive offsets are permitted. -/
  allowOverclock : Bool
  /-- Exceeding the default power is permitted. -/
  allowPowerIncrease : Bool
  /-- Clocks without a getter may be owned. -/
  exclusiveClockControl : Bool
  /-- The thermal interlock, in degrees Celsius. -/
  maxTemperature : ℤ
  /-- The four profiles. -/
  profiles : Profile → ProfilePolicy
  /-- Verified bounds are acknowledged. -/
  allowVerifiedBounds : Bool
  /-- Verified bounds by setting. -/
  verifiedBounds : List (String × ℤ × ℤ)

/-- `Knob.effective_bounds`, without the third component, which only reports use. -/
def Knob.effectiveBounds (knob : Knob) (policy : Policy) :
    Except Failure (Option ℤ × Option ℤ) :=
  match policy.verifiedBounds.lookup knob.setting with
  | none => .ok (knob.minimum, knob.maximum)
  | some (low, high) =>
    if ¬knob.verifiedBoundsAllowed ∨ ¬policy.allowVerifiedBounds then
      .error (tuningError
        (knob.id ++ ": administrator-verified bounds are not enabled for this control"))
    else
      -- A configured bound can narrow what the driver advertises, never widen it.
      let low := knob.minimum.elim low (max low)
      let high := knob.maximum.elim high (min high)
      if low > high then
        .error (tuningError (knob.id ++ ": verified bounds do not intersect the driver range"))
      else .ok (some low, some high)

/-- The candidate a request names before any check: a symbol, a bound, or the text itself. -/
def Knob.candidate (knob : Knob) (value : String) (low high : Option ℤ) : Value :=
  match knob.symbols.lookup value with
  | some candidate => candidate
  | none =>
    if value = "min" then low.elim (.text value) .int
    else if value = "max" then high.elim (.text value) .int
    else .text value

/-- The candidate checked against the choices, the clock range or the bounds. -/
def Knob.bounded (knob : Knob) (policy : Policy) (candidate : Value) (low high : Option ℤ) :
    Except Failure Value :=
  if knob.choices ≠ [] then
    if candidate.str ∉ knob.choices then
      .error (tuningError (knob.id ++ ": unsupported choice " ++ candidate.repr))
    else if knob.setting = "PLATFORM_PROFILE" ∧ candidate.str = "performance" ∧
        ¬policy.allowPowerIncrease then
      .error (tuningError
        (knob.id ++ ": firmware performance requires allow_power_increase=true"))
    else .ok (.text candidate.str)
  else if knob.unit = "MHz-pair" then
    match splitAll candidate.str ',', low, high with
    | [first, second], some low, some high => do
      let a ← integer (.text first) low high
      let b ← integer (.text second) low high
      if a > b then throw (tuningError (knob.id ++ ": minimum exceeds maximum"))
      pure (.range a b)
    | _, _, _ => .error (tuningError (knob.id ++ ": expected two advertised clock limits"))
  else
    match low, high with
    | some low, some high => (integer candidate low high).map .int
    | _, _ => .error (tuningError (knob.id ++ ": hardware did not advertise usable bounds"))

/-- The permissions a bounded candidate needs. -/
def Knob.permitted (knob : Knob) (policy : Policy) (candidate : Value) : Except Failure Unit := do
  if knob.overclock then
    if (← candidate.gt (.int 0)) ∧ ¬policy.allowOverclock then
      throw (tuningError (knob.id ++ ": positive offsets require allow_overclock=true"))
  match knob.powerDefault with
  | none => pure ()
  | some default =>
    if (← candidate.gt default) ∧ ¬policy.allowPowerIncrease then
      throw (tuningError (knob.id ++
        ": exceeding the baseline/default power limit requires allow_power_increase=true"))
  if ¬knob.restorable ∧ ¬policy.exclusiveClockControl then
    throw (tuningError (knob.id ++
      ": no portable lock-range getter; exclusive_clock_control=true is required"))
  knob.validateExtra candidate

/-- `Knob.resolve`: the value a request stands for, or none for `keep`. -/
def Knob.resolve (knob : Knob) (value : String) (policy : Policy) :
    Except Failure (Option Value) := do
  safeValue value
  let value := if value = "supported-max" ∨ value = "supported-1"
    then removePrefix value "supported-" else value
  if value = "keep" then return none
  let (low, high) ← knob.effectiveBounds policy
  let candidate ← knob.bounded policy (knob.candidate value low high) low high
  knob.permitted policy candidate
  return some candidate

/-- Two controls are the two ends of one min/max pair, in this order. -/
def Knob.ends (lo hi : Knob) : Prop := lo.side = some .min ∧ hi.side = some .max

/-- A vendor's controls in the order of discovery. Both fields hold by construction of the
backends: a control is entered once, and a pair is entered with one control on each side. -/
structure Inventory where
  /-- The controls. -/
  knobs : List Knob
  /-- No identifier is used twice. -/
  nodup : (knobs.map Knob.id).Nodup
  /-- Two controls of one pair are its two ends. -/
  paired : ∀ a ∈ knobs, ∀ b ∈ knobs, a.pair.isSome → a.pair = b.pair → a.id ≠ b.id →
    a.ends b ∨ b.ends a

/-- `backend.knobs.get(key)`. -/
def Inventory.get? (inventory : Inventory) (key : String) : Option Knob :=
  inventory.knobs.find? fun knob => knob.id = key

/-- The control is one of the inventory whose value can be read and written back. -/
def Inventory.restorable (inventory : Inventory) (key : String) : Bool :=
  (inventory.get? key).any Knob.restorable

variable {knob : Knob} {inventory : Inventory}

/-- The control of an inventory is restorable if its knob is. -/
theorem Inventory.restorable_of_get? {key : String}
    (h : inventory.get? key = some knob) : inventory.restorable key = knob.restorable := by
  simp [Inventory.restorable, h]

/-- A control that is found has the identifier it was looked up by. -/
theorem Inventory.id_of_get? {key : String}
    (h : inventory.get? key = some knob) : knob.id = key := by
  simpa using List.find?_some h

/-- A control that is found belongs to the inventory. -/
theorem Inventory.mem_of_get? {key : String}
    (h : inventory.get? key = some knob) : knob ∈ inventory.knobs :=
  List.mem_of_find?_eq_some h

/-- Every control of the inventory is found under its identifier. -/
theorem Inventory.get?_of_mem
    (h : knob ∈ inventory.knobs) : inventory.get? knob.id = some knob := by
  obtain ⟨found, hfound⟩ : ∃ found, inventory.get? knob.id = some found := by
    rw [← Option.isSome_iff_exists, Inventory.get?, List.find?_isSome]
    exact ⟨knob, h, by simp⟩
  have hinj := List.inj_on_of_nodup_map inventory.nodup (Inventory.mem_of_get? hfound) h
    (Inventory.id_of_get? hfound)
  rw [hfound, hinj]

end Preseed.HardwareTuning
