import Mathlib.Data.Int.Notation
import Mathlib.Data.List.Basic

/-!
# Phone reminders

The opt-ins and the delivery ledger of `labwc_calendar_reminders`, and the delivery
worker `reminder_cycle`. A hash stands for what is hashed. Time is in seconds.
-/

namespace Preseed.Reminders.Phone

inductive Kind
  | vevent | vtodo
  deriving DecidableEq

inductive Channel
  | telegram | ntfy
  deriving DecidableEq

structure Preference where
  enabled : Bool
  firstMinutes : ℤ
  intervalMinutes : ℤ
  deriving DecidableEq

/-- `FIRST_MINUTES`. -/
def firstMinutesAllowed : List ℤ := [15, 30, 60, 120, 180, 240, 300, 360, 720, 1440]

/-- `INTERVAL_MINUTES`. -/
def intervalMinutesAllowed : List ℤ := [0, 5, 10, 15, 30, 45, 60]

/-- `preference` accepts the settings. -/
def Preference.valid (p : Preference) : Bool :=
  firstMinutesAllowed.contains p.firstMinutes && intervalMinutesAllowed.contains p.intervalMinutes

/-- `DEFAULT`, as far as it is read. -/
def Preference.off : Preference := ⟨false, 15, 0⟩

/-- An entry of `phone-reminders.json`. -/
structure Entry where
  uid : String
  url : String
  kind : Kind
  timezone : String
  preference : Preference
  generation : String
  enabledAt : ℤ
  deriving DecidableEq

/-- What the identifier of a delivery is made of. -/
structure Identifier where
  uid : String
  url : String
  generation : String
  epoch : ℤ
  channel : Channel
  deriving DecidableEq

inductive Status
  | attempted | delivered | rejected | deferred | outcomeUnknown
  deriving DecidableEq

/-- An entry of `phone-deliveries.json`. -/
structure Delivery where
  identifier : Identifier
  expires : ℤ
  status : Status
  retryAt : ℤ
  slot : ℤ
  key : String
  generation : String
  deriving DecidableEq

def maxItems : ℕ := 500

def catchupSeconds : ℤ := 120

/-! ## Opt-ins -/

def lookup (preferences : List Entry) (uid : String) : Option Entry :=
  preferences.find? fun entry => entry.uid = uid

def remove (preferences : List Entry) (uid : String) : List Entry :=
  preferences.filter fun entry => entry.uid ≠ uid

/-- `Store.set`: `prepare` and its publication. `none` is an exception; the generation is
the random one that is drawn. -/
def set (preferences : List Entry) (uid url : String) (kind : Kind) (timezone : String)
    (settings : Preference) (generation : String) (now : ℤ) : Option (List Entry) :=
  if settings.valid = false then none
  else if settings.enabled = false then
    match lookup preferences uid with
    | none => some preferences
    | some previous =>
        -- another collection has the opt-in of this UID
        if previous.url ≠ url then some preferences else some (remove preferences uid)
  else
    let entry : Entry := ⟨uid, url, kind, timezone, settings, generation, now⟩
    match lookup preferences uid with
    | none => if preferences.length < maxItems then some (entry :: preferences) else none
    | some previous =>
        if previous.url ≠ url then none
        else if previous = { entry with
            generation := previous.generation
            enabledAt := previous.enabledAt } then some preferences
        else some (entry :: remove preferences uid)

/-! ## Slots -/

/-- `schedule_slot`. -/
def scheduleSlot (epoch : ℤ) (entry : Entry) (now : ℤ) : Option (ℤ × ℤ) :=
  let first := epoch - entry.preference.firstMinutes * 60
  let interval := entry.preference.intervalMinutes * 60
  if now < first ∨ epoch + catchupSeconds < now then none
  else
    let slot := if interval = 0 then first else first + (min now epoch - first) / interval * interval
    if slot < entry.enabledAt ∨ catchupSeconds < now - slot then none else some (epoch, slot)

/-- The slots of the occurrences of an item, for both channels. -/
def dueSlots (epochs : List ℤ) (entry : Entry) (now : ℤ) : List (ℤ × ℤ × Channel) :=
  (epochs.filterMap fun epoch => scheduleSlot epoch entry now).flatMap fun (epoch, slot) =>
    [(epoch, slot, .telegram), (epoch, slot, .ntfy)]

/-! ## The delivery ledger -/

def find (deliveries : List Delivery) (identifier : Identifier) : Option Delivery :=
  deliveries.find? fun delivery => delivery.identifier = identifier

/-- `data['items'][identifier] = ...`. -/
def put (deliveries : List Delivery) (delivery : Delivery) : List Delivery :=
  delivery :: deliveries.filter fun other => other.identifier ≠ delivery.identifier

/-- The deliveries that `reserve` keeps. -/
def prune (deliveries : List Delivery) (preferences : List Entry) (now : ℤ) : List Delivery :=
  deliveries.filter fun delivery => decide (now ≤ delivery.expires) &&
    ((lookup preferences delivery.key).map Entry.generation == some delivery.generation)

/-- The watermark does not admit the slot. -/
def Delivery.refuses (previous : Delivery) (slot now : ℤ) : Bool :=
  slot < previous.slot ||
    (previous.slot = slot && (previous.status ≠ .deferred || now < previous.retryAt))

def identifierOf (entry : Entry) (epoch : ℤ) (channel : Channel) : Identifier :=
  ⟨entry.uid, entry.url, entry.generation, epoch, channel⟩

/-- The answer of `reserve`. -/
inductive Reservation
  | refused
  /-- It raised. -/
  | full
  | reserved (deliveries : List Delivery)

/-- `reserve`. -/
def reserve (preferences : List Entry) (deliveries : List Delivery) (entry : Entry)
    (epoch slot : ℤ) (channel : Channel) (now : ℤ) : Reservation :=
  if lookup preferences entry.uid ≠ some entry then .refused
  else
    let identifier := identifierOf entry epoch channel
    let deliveries := prune deliveries preferences now
    let delivery : Delivery := ⟨identifier, epoch + 86400, .attempted, 0, slot, entry.uid,
      entry.generation⟩
    match find deliveries identifier with
    | some previous =>
        if previous.refuses slot now then .refused else .reserved (put deliveries delivery)
    | none => if deliveries.length < 4096 then .reserved (put deliveries delivery) else .full

/-- `record_result`. -/
def recordResult (deliveries : List Delivery) (identifier : Identifier) (status : Status)
    (retryAt : ℤ) : Option (List Delivery) :=
  (find deliveries identifier).map fun delivery =>
    put deliveries { delivery with status := status, retryAt := retryAt }

/-! ## The worker -/

/-- What the worker does next. -/
inductive Worker
  | stopped
  /-- The opt-ins are read. -/
  | idle
  /-- The calendar data of the first of the entries is read. -/
  | listed (entries : List Entry)
  /-- The first of the slots is reserved. -/
  | sending (entry : Entry) (slots : List (ℤ × ℤ × Channel)) (entries : List Entry)
  /-- A slot is reserved, and the lock is held. -/
  | reserved (entry : Entry) (identifier : Identifier) (slot : ℤ)
      (slots : List (ℤ × ℤ × Channel)) (entries : List Entry)
  /-- The message is dispatched, and the lock is held. -/
  | dispatched (entry : Entry) (identifier : Identifier) (slot : ℤ)
      (slots : List (ℤ × ℤ × Channel)) (entries : List Entry)

def Worker.locked : Worker → Bool
  | reserved .. | dispatched .. => true
  | _ => false

/-- The watermark of the last reservation of an identifier. -/
structure Watermark where
  slot : ℤ
  status : Status
  retryAt : ℤ
  deriving DecidableEq

structure System where
  preferences : List Entry
  deliveries : List Delivery
  worker : Worker
  now : ℤ
  /-- The generations that were drawn. -/
  generations : List String
  /-- The last reservation of each identifier. -/
  watermark : Identifier → Option Watermark
  /-- The reserved slot was deferred before, and its retry time has passed. -/
  deferral : Bool
  /-- The dispatched messages. -/
  sent : List (Identifier × ℤ)

inductive Event
  | tick (seconds : ℕ)
  /-- An opt-in is set, with the generation that is drawn for it. -/
  | set (uid url : String) (kind : Kind) (timezone : String) (settings : Preference)
      (generation : String)
  /-- The worker is started. -/
  | start
  /-- A cycle begins with these of the opt-ins. -/
  | list (entries : List Entry)
  /-- The calendar item of the first entry is missing, or not usable, or has occurrences. -/
  | missing
  | unavailable
  | report (epochs : List ℤ)
  /-- Deliveries are paused, or a remote write is pending. -/
  | skip
  | reserve
  /-- The slots, or the entries, are done. -/
  | next
  /-- The channel has no target, or another one than at the start. -/
  | reject
  | dispatch
  | result (status : Status) (delay : ℕ)
  /-- The worker dies, or an exception ends its cycle. -/
  | crash

/-- The last reservation of the identifier was of the slot, and its retry is due. -/
def Watermark.readmits (w : Watermark) (slot now : ℤ) : Bool :=
  w.slot = slot && w.status = .deferred && w.retryAt ≤ now

/-- `record_result` of the reserved slot, and the rest of the cycle. -/
def System.record (s : System) (entry : Entry) (identifier : Identifier) (slot : ℤ)
    (slots : List (ℤ × ℤ × Channel)) (entries : List Entry) (status : Status) (retryAt : ℤ) :
    System :=
  match recordResult s.deliveries identifier status retryAt with
  | none => { s with worker := .idle }
  | some deliveries =>
      { s with
        deliveries := deliveries
        worker := .sending entry slots entries
        watermark := Function.update s.watermark identifier (some ⟨slot, status, retryAt⟩) }

/-- One event, if it can happen. -/
def System.step (s : System) : Event → Option System
  | .tick seconds => some { s with now := s.now + seconds }
  | .set uid url kind timezone settings generation =>
      if s.worker.locked = false ∧ generation ∉ s.generations then
        (Phone.set s.preferences uid url kind timezone settings generation s.now).map
          fun preferences => { s with
            preferences := preferences
            generations := generation :: s.generations }
      else none
  | .start =>
      match s.worker with
      | .stopped => some { s with worker := .idle }
      | _ => none
  | .list entries =>
      match s.worker with
      | .idle => if ∀ entry ∈ entries, entry ∈ s.preferences then
            some { s with worker := .listed entries }
          else none
      | _ => none
  | .missing =>
      match s.worker with
      | .listed (entry :: entries) =>
          if lookup s.preferences entry.uid = some entry then
            (Phone.set s.preferences entry.uid entry.url entry.kind entry.timezone .off
              entry.generation s.now).map fun preferences =>
                { s with preferences := preferences, worker := .listed entries }
          else some { s with worker := .listed entries }
      | _ => none
  | .unavailable =>
      match s.worker with
      | .listed (_ :: entries) => some { s with worker := .listed entries }
      | _ => none
  | .report epochs =>
      match s.worker with
      | .listed (entry :: entries) =>
          some { s with worker := .sending entry (dueSlots epochs entry s.now) entries }
      | _ => none
  | .skip =>
      match s.worker with
      | .sending entry (_ :: slots) entries => some { s with worker := .sending entry slots entries }
      | _ => none
  | .reserve =>
      match s.worker with
      | .sending entry ((epoch, slot, channel) :: slots) entries =>
          match Phone.reserve s.preferences s.deliveries entry epoch slot channel s.now with
          | .refused => some { s with worker := .sending entry slots entries }
          | .full => some { s with worker := .idle }
          | .reserved deliveries =>
              let identifier := identifierOf entry epoch channel
              some { s with
                deliveries := deliveries
                worker := .reserved entry identifier slot slots entries
                watermark := Function.update s.watermark identifier (some ⟨slot, .attempted, 0⟩)
                deferral := (s.watermark identifier).any fun w => w.readmits slot s.now }
      | _ => none
  | .next =>
      match s.worker with
      | .sending _ [] entries => some { s with worker := .listed entries }
      | .listed [] => some { s with worker := .idle }
      | _ => none
  | .reject =>
      match s.worker with
      | .reserved entry identifier slot slots entries =>
          some (s.record entry identifier slot slots entries .rejected 0)
      | _ => none
  | .dispatch =>
      match s.worker with
      | .reserved entry identifier slot slots entries =>
          some { s with
            worker := .dispatched entry identifier slot slots entries
            sent := (identifier, slot) :: s.sent }
      | _ => none
  | .result status delay =>
      match s.worker with
      | .dispatched entry identifier slot slots entries =>
          some (s.record entry identifier slot slots entries status
            (if delay = 0 then 0 else s.now + delay))
      | _ => none
  | .crash => some { s with worker := .stopped }

/-- No opt-in was ever set, and nothing was sent. -/
def System.initial (now : ℤ) : System where
  preferences := []
  deliveries := []
  worker := .stopped
  now := now
  generations := []
  watermark := fun _ => none
  deferral := false
  sent := []

end Preseed.Reminders.Phone
