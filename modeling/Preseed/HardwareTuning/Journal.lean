import Preseed.Effects.Safety
import Preseed.HardwareTuning.Common

/-!
# The recovery journal and the hardware interface

The journal of a vendor worker records, for every control an apply may change,
the value before it (`before`), the last value the engine left (`last`), and
whether a change is in flight (`pending`). `Hardware` is the interface through
which the engine reads and writes controls and saves the journal; the engine's
memory, shown at every operation, is the journal it holds (`self.journal`).
-/

namespace Preseed.HardwareTuning

open Effects

/-- One entry of the recovery journal. -/
structure Entry where
  /-- The control. -/
  id : String
  /-- Its value before the apply. -/
  before : Value
  /-- Its value when the engine last verified it. -/
  last : Option Value
  /-- A change of the control may be in flight. -/
  pending : Bool
  /-- The value the apply requested, if it requested one. -/
  requested : Option Value
  deriving DecidableEq

/-- The recovery journal, version 1. -/
structure Journal where
  /-- The profile in force. -/
  profile : Option Profile
  /-- The controls it owns. -/
  entries : List Entry
  deriving DecidableEq

/-- The journal of a worker without a journal file. -/
def Journal.empty : Journal := ⟨none, []⟩

/-- The identifiers of the journaled controls. -/
def Journal.ids (journal : Journal) : List String := journal.entries.map Entry.id

/-- `{e["id"]: e for e in entries}[key]`. -/
def Journal.entry? (journal : Journal) (key : String) : Option Entry :=
  journal.entries.find? fun entry => entry.id = key

/-- Change the entries of some controls in place. -/
def Journal.update (journal : Journal) (keys : List String) (f : Entry → Entry) : Journal :=
  { journal with entries := journal.entries.map fun e => if e.id ∈ keys then f e else e }

/-- `entry["pending"] = True`. -/
def Entry.markPending (entry : Entry) : Entry := { entry with pending := true }

/-- What the engine asks of the backend, the sensors and the file system. -/
inductive Request
  | read (id : String)
  | write (id : String) (value : Value)
  | writeMaximum (id : String)
  | restoreValue (id : String) (value : Value)
  | save (journal : Journal)
  | temperature
  | checkOwnership (values : List (String × Option Value))
  deriving DecidableEq

/-- What a successful operation returns. -/
def Request.Reply : Request → Type
  | .read _ => Value
  | .write _ _ | .restoreValue _ _ | .save _ | .checkOwnership _ => Unit
  | .writeMaximum _ => Option String
  | .temperature => Option ℚ

/-- The interface of the engine: every operation may raise. -/
abbrev Hardware : Interface := ⟨Request, fun op => Except Failure op.Reply⟩

/-- A stateful engine program; the memory is `self.journal`. -/
abbrev EngineAct := Act Hardware Journal Failure

/-- Issue an operation and raise what it raises. -/
def request (op : Request) : EngineAct op.Reply := do
  let answer ← Act.perform op
  Act.lift answer

/-- `knob.read()`. -/
def readControl (id : String) : EngineAct Value := request (.read id)

/-- `self.backend.temperature()`. -/
def readTemperature : EngineAct (Option ℚ) := request .temperature

/-- `knob.write(value)`. -/
def writeControl (id : String) (value : Value) : EngineAct Unit := request (.write id value)

/-- `knob.write_maximum()`. -/
def writeMaximum (id : String) : EngineAct (Option String) := request (.writeMaximum id)

/-- `knob.restore_value(value)`. -/
def restoreValue (id : String) (value : Value) : EngineAct Unit := request (.restoreValue id value)

/-- `self.save()`, for a given journal. -/
def saveJournal (journal : Journal) : EngineAct Unit := request (.save journal)

/-- The control an operation changes, if it changes one. -/
def Request.target : Request → Option String
  | .write id _ | .writeMaximum id | .restoreValue id _ => some id
  | .read _ | .save _ | .temperature | .checkOwnership _ => none

/-- `sorted(set(keys))`. -/
def sortedKeys (keys : List String) : List String := keys.dedup.insertionSort (· ≤ ·)

@[simp] theorem mem_sortedKeys {keys : List String} {key : String} :
    key ∈ sortedKeys keys ↔ key ∈ keys := by
  simp [sortedKeys]

/-- Sorting leaves no key twice. -/
theorem nodup_sortedKeys (keys : List String) : (sortedKeys keys).Nodup :=
  (List.perm_insertionSort _ _).nodup_iff.mpr (List.nodup_dedup keys)

@[simp] theorem Journal.update_ids (journal : Journal) (keys : List String) (f : Entry → Entry)
    (hf : ∀ e, (f e).id = e.id) : (journal.update keys f).ids = journal.ids := by
  simp only [Journal.ids, Journal.update, List.map_map]
  refine List.map_congr_left fun e _ => ?_
  by_cases h : e.id ∈ keys <;> simp [h, hf]

/-- An entry of an updated journal comes from one of the journal. -/
theorem Journal.mem_update {journal : Journal} {keys : List String} {f : Entry → Entry}
    {entry : Entry} : entry ∈ (journal.update keys f).entries ↔
      ∃ e ∈ journal.entries, (if e.id ∈ keys then f e else e) = entry := by
  simp [Journal.update]

/-- Looking up a key of the journal finds an entry under it. -/
theorem Journal.entry?_eq_some {journal : Journal} {key : String} {entry : Entry}
    (h : journal.entry? key = some entry) : entry ∈ journal.entries ∧ entry.id = key :=
  ⟨List.mem_of_find?_eq_some h, by simpa using List.find?_some h⟩

section Rules

variable {W : Type} {E : Environment Hardware Journal W} {G : Guard Hardware Journal W}
  {s : Journal} {w : W}

/-- The rule of an operation that may raise. -/
@[simp] theorem wp_request (op : Request) {Q : Except Failure op.Reply → Journal → W → Prop} :
    wp E G (request op) Q s w ↔
      G w s op ∧ ∀ (answer : Except Failure op.Reply) w', E w s op answer w' → Q answer s w' := by
  simp only [request, wp_bind]
  exact Iff.rfl

/-- The rule of a reading. -/
@[simp] theorem wp_readControl (id : String) {Q : Except Failure Value → Journal → W → Prop} :
    wp E G (readControl id) Q s w ↔
      G w s (.read id) ∧ ∀ (answer : Except Failure Value) w', E w s (.read id) answer w' →
        Q answer s w' :=
  wp_request (.read id)

/-- The rule of a save. -/
@[simp] theorem wp_saveJournal (journal : Journal)
    {Q : Except Failure Unit → Journal → W → Prop} :
    wp E G (saveJournal journal) Q s w ↔
      G w s (.save journal) ∧ ∀ (answer : Except Failure Unit) w',
        E w s (.save journal) answer w' → Q answer s w' :=
  wp_request (.save journal)

end Rules

end Preseed.HardwareTuning
