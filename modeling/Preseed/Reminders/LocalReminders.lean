import Mathlib.Data.List.Sort

/-!
# Local reminders

The store of `labwc_local_reminders`, its delivery ledger, and the worker. An operation
of the store is one step, since it holds the writer lock. `none` is an exception, which
leaves both files as they are.
-/

namespace Preseed.Reminders

open List

inductive Kind
  | vevent | vtodo
  deriving DecidableEq

structure Link where
  uid : String
  url : String
  kind : Kind
  deriving DecidableEq

/-- `RECURRENCES`. -/
inductive Recurrence
  | none | daily | weekdays | weekends | everyTwoDays | everyThreeDays | everyFourDays
  | everyFiveDays | weekly | everyTwoWeeks | monthly | everyTwoMonths | quarterly | yearly
  deriving DecidableEq

inductive Urgency
  | low | normal | critical
  deriving DecidableEq

structure Item where
  id : String
  title : String
  body : String
  due : String
  timezone : String
  firstMinutes : ℕ
  recurrence : Recurrence
  sound : Bool
  urgency : Urgency
  allowDnd : Bool
  enabled : Bool
  link : Option Link
  created : ℤ
  updated : ℤ
  deriving DecidableEq

/-- How a delivery went. -/
inductive Status
  | reserved | accepted | notSent | outcomeUnknown
  deriving DecidableEq

/-- An entry of the delivery ledger. -/
structure Receipt where
  key : String
  item : Item
  status : Status
  deriving DecidableEq

/-- The parts of the store that are time zones, dates, hashes and sizes of files. -/
structure Calendar where
  /-- `_due` accepts the date in its time zone. -/
  dueValid : String → String → Bool
  /-- The due date of a linked item, from its anchor and its time zone. -/
  anchorDue : String → String → Option String
  /-- A date in seconds. -/
  instant : String → ℤ
  /-- `_next_due`, after a moment. -/
  nextDue : String → Recurrence → String → ℤ → Option (Option String)
  /-- `_fingerprint`. -/
  fingerprint : Item → String
  /-- The file is not too large. -/
  stateFits : List Item → Bool
  ledgerFits : List Receipt → Bool

variable (calendar : Calendar)

/-! ## Items -/

def maxItems : ℕ := 500

def firstMinutesAllowed : List ℕ := [0, 5, 10, 15, 30, 60, 120, 180, 240, 300, 360, 720, 1440]

/-- `_text`. -/
def text (value : String) (maximum : ℕ) : Bool :=
  0 < value.utf8ByteSize && value.utf8ByteSize ≤ maximum &&
    value.toList.all fun char => 32 ≤ char.toNat && char.toNat ≠ 127

/-- `[a-f0-9]{32}`. -/
def hexId (value : String) : Bool :=
  value.toList.length = 32 && value.toList.all fun char =>
    ('0' ≤ char && char ≤ '9') || ('a' ≤ char && char ≤ 'f')

/-- `_validate_link`. -/
def Link.valid (link : Link) : Bool := text link.uid 4096 && text link.url 4096

/-- `_validate_item`. -/
def Item.valid (item : Item) : Bool :=
  hexId item.id && text item.title 512 &&
    (item.body.utf8ByteSize ≤ 8192 &&
      item.body.toList.all fun char => 32 ≤ char.toNat || char = '\n' || char = '\t') &&
    calendar.dueValid item.due item.timezone && firstMinutesAllowed.contains item.firstMinutes &&
    item.link.all Link.valid && 0 ≤ item.created && item.created ≤ item.updated

/-- The items, by their `id`. -/
structure State where
  items : List Item
  nodup : (items.map Item.id).Nodup

namespace State

def empty : State := ⟨[], nodup_nil⟩

def get (s : State) (id : String) : Option Item := s.items.find? fun item => item.id = id

def filter (s : State) (keep : Item → Bool) : State where
  items := s.items.filter keep
  nodup := s.nodup.sublist (List.Sublist.map _ filter_sublist)

/-- Every item is changed, and keeps its `id`. -/
def map (s : State) (f : Item → Item) (hf : ∀ item, (f item).id = item.id) : State where
  items := s.items.map f
  nodup := by
    rw [map_map, show Item.id ∘ f = Item.id from funext hf]
    exact s.nodup

def replace (s : State) (item : Item) : State :=
  s.map (fun current => if current.id = item.id then item else current) fun current => by
    split
    · rename_i h
      exact h.symm
    · rfl

/-- `state['items'][item['id']] = item`. -/
def put (s : State) (item : Item) : State :=
  if h : item.id ∈ s.items.map Item.id then s.replace item
  else ⟨s.items ++ [item], by
    rw [map_append, nodup_append]
    refine ⟨s.nodup, nodup_singleton _, fun id hid other hother heq => h ?_⟩
    rw [map_singleton, mem_singleton] at hother
    rw [← hother, ← heq]
    exact hid⟩

/-- `_publish_unlocked`, of the state. -/
def publish (s : State) : Option State :=
  if s.items.length ≤ maxItems ∧ s.items.all (Item.valid calendar) ∧ calendar.stateFits s.items then
    some s
  else none

end State

/-! ## Edits -/

/-- What `sync_remote` reads of a calendar item. -/
structure Fields where
  summary : String
  description : String
  timezone : String
  anchor : Option String
  recurrence : Recurrence

/-- The writes of the user and of a calendar synchronization, with the time and the
random identity they draw. -/
inductive Edit
  | create (item : Item) (identity : String) (now : ℤ)
  | update (id : String) (item : Item) (now : ℤ)
  | delete (id : String)
  | complete (id : String) (now : ℤ)
  | setEnabled (id : String) (enabled : Bool) (now : ℤ)
  | clear
  | setAllEnabled (enabled : Bool) (now : ℤ)
  | clearPaused
  | clearExpired (now : ℤ)
  | syncRemote (link : Link) (fields : Fields) (lead : ℕ) (identity : String) (now : ℤ)
  | removeLink (link : Link)

/-- The candidate of `sync_remote`. -/
def syncCandidate (link : Link) (fields : Fields) (lead : ℕ) : Option Item := do
  let due ← calendar.anchorDue (← fields.anchor) fields.timezone
  let candidate : Item := {
    id := "00000000000000000000000000000000"
    title := fields.summary
    body := (fields.description.take 8192).toString
    due := due
    timezone := fields.timezone
    firstMinutes := lead
    recurrence := fields.recurrence
    sound := true
    urgency := .normal
    allowDnd := false
    enabled := true
    link := some link
    created := 0
    updated := 0 }
  guard (candidate.valid calendar)
  return candidate

/-- `sync_remote` of an enabled preference. -/
def State.syncRemote (s : State) (link : Link) (fields : Fields) (lead : ℕ) (identity : String)
    (now : ℤ) : Option State := do
  let candidate ← syncCandidate calendar link fields lead
  match s.items.filter fun item => item.link = some link with
  | [] =>
      guard (s.items.length < maxItems)
      (s.put { candidate with id := identity, created := now, updated := now }).publish calendar
  | [previous] =>
      (s.put { candidate with
        id := previous.id
        created := previous.created
        updated := max now previous.created }).publish calendar
  | _ => none

/-- `mutate`, `set_all_enabled`, `clear_paused`, `clear_expired`, `sync_remote`,
`remove_link`. -/
def State.edit (s : State) : Edit → Option State
  | .create item identity now => do
      let item := { item with id := identity, created := now, updated := now }
      guard (item.valid calendar)
      guard (s.items.length < maxItems)
      (s.put item).publish calendar
  | .update id item now => do
      let current ← s.get id
      let item := { item with id := id, created := current.created, updated := now }
      guard (item.valid calendar)
      (s.put item).publish calendar
  | .delete id => (s.filter fun item => item.id ≠ id).publish calendar
  | .complete id now => do
      let current ← s.get id
      (s.put { current with enabled := false, updated := now }).publish calendar
  | .setEnabled id enabled now => do
      let current ← s.get id
      (s.put { current with enabled := enabled, updated := now }).publish calendar
  | .clear => State.empty.publish calendar
  | .setAllEnabled enabled now =>
      (s.map (fun item =>
        if item.enabled = enabled then item else { item with enabled := enabled, updated := now })
        fun item => by split <;> rfl).publish calendar
  | .clearPaused => (s.filter fun item => item.enabled).publish calendar
  | .clearExpired now => (s.filter fun item => now < calendar.instant item.due).publish calendar
  | .syncRemote link fields lead identity now => s.syncRemote calendar link fields lead identity now
  | .removeLink link => (s.filter fun item => item.link ≠ some link).publish calendar

/-! ## The delivery ledger -/

structure Ledger where
  receipts : List Receipt
  nodup : (receipts.map Receipt.key).Nodup

namespace Ledger

def empty : Ledger := ⟨[], nodup_nil⟩

def get (l : Ledger) (key : String) : Option Receipt :=
  l.receipts.find? fun receipt => receipt.key = key

/-- Only proven results with superseded snapshots are pruned. -/
def prune (l : Ledger) (current : List String) : Ledger where
  receipts := l.receipts.filter fun receipt =>
    receipt.status = .reserved || receipt.status = .outcomeUnknown || current.contains receipt.key
  nodup := l.nodup.sublist (List.Sublist.map _ filter_sublist)

def without (l : Ledger) (key : String) : List Receipt :=
  l.receipts.filter fun receipt => receipt.key ≠ key

/-- `ledger['items'][key] = ...`. -/
def put (l : Ledger) (receipt : Receipt) : Ledger where
  receipts := receipt :: l.without receipt.key
  nodup := by
    rw [map_cons, nodup_cons]
    refine ⟨fun hmem => ?_, l.nodup.sublist (List.Sublist.map _ filter_sublist)⟩
    obtain ⟨other, hother, hkey⟩ := mem_map.mp hmem
    exact absurd hkey (of_decide_eq_true (mem_filter.mp hother).2)

/-- `_publish_unlocked`, of the ledger. -/
def publish (l : Ledger) : Option Ledger :=
  if l.receipts.length ≤ 4096 ∧ calendar.ledgerFits l.receipts then some l else none

end Ledger

/-- The answer of `reserve_delivery`. -/
inductive Reservation
  | reserved | accepted | refused
  deriving DecidableEq

def State.fingerprints (s : State) : List String := s.items.map calendar.fingerprint

/-- `reserve_delivery`. -/
def reserveDelivery (s : State) (ledger : Ledger) (item : Item) :
    Option (Ledger × Reservation) :=
  if s.get item.id ≠ some item ∨ item.enabled = false then some (ledger, .refused)
  else
    let key := calendar.fingerprint item
    match ledger.get key with
    | some ⟨_, _, .accepted⟩ => some (ledger, .accepted)
    | some ⟨_, _, .reserved⟩ | some ⟨_, _, .outcomeUnknown⟩ => some (ledger, .refused)
    | _ =>
        let pruned := ledger.prune (s.fingerprints calendar)
        if (pruned.get key).isSome ∨ pruned.receipts.length < 4096 then
          ((pruned.put ⟨key, item, .reserved⟩).publish calendar).map fun ledger => (ledger, .reserved)
        else none

/-- `record_delivery`. -/
def recordDelivery (ledger : Ledger) (item : Item) (status : Status) : Option Ledger :=
  match ledger.get (calendar.fingerprint item) with
  | some receipt =>
      if receipt.item = item ∧ receipt.status = .reserved then
        (ledger.put { receipt with status := status }).publish calendar
      else none
  | none => none

/-- `advance`. -/
def advance (s : State) (item : Item) (nextDue : Option String) (now : ℤ) : Option (State × Bool) :=
  match s.get item.id with
  | none => some (s, false)
  | some current =>
      if current ≠ item then some (s, false)
      else
        let next := match nextDue with
          | none => { current with enabled := false, updated := now }
          | some due => { current with due := due, updated := now }
        ((s.put next).publish calendar).map fun s => (s, true)

/-! ## The worker -/

/-- What the worker does next. -/
inductive Worker
  /-- It is not running. -/
  | stopped
  /-- `store.list`. -/
  | idle
  /-- `reserve_delivery` of the first of the due items. -/
  | reserving (now : ℤ) (due : List Item)
  /-- `_notify`. -/
  | notifying (item : Item) (nextDue : Option String) (now : ℤ) (due : List Item)
  /-- The notification command is started; `record_delivery` is next. -/
  | recording (item : Item) (nextDue : Option String) (now : ℤ) (due : List Item)
  | advancing (item : Item) (nextDue : Option String) (now : ℤ) (due : List Item)
  deriving DecidableEq

/-- The last notification of a snapshot. -/
inductive Attempt
  | never
  /-- The command was started, and nothing is recorded about it. -/
  | unrecorded
  | recorded (status : Status)
  /-- It was accepted, and the record was pruned when the snapshot was superseded. -/
  | pruned
  deriving DecidableEq

structure System where
  state : State
  ledger : Ledger
  worker : Worker
  /-- The last notification of each snapshot. -/
  last : Item → Attempt

/-- The items of one round of `run_worker`, with the answer of `_dnd_active`. -/
def State.due (s : State) (now : ℤ) (dnd : Option Bool) : List Item :=
  (s.items.insertionSort fun a b => calendar.instant a.due ≤ calendar.instant b.due).filter fun item =>
    item.enabled && decide (calendar.instant item.due - 60 * item.firstMinutes ≤ now) &&
      (item.allowDnd || dnd = some false)

inductive Event
  | edit (edit : Edit)
  /-- The worker is started. -/
  | start
  | list (now : ℤ) (dnd : Option Bool)
  | reserve
  /-- The notification command is started. -/
  | notify
  /-- `record_delivery`, after the answer of `_notify`. -/
  | record (accepted : Option Bool)
  | advance (now : ℤ)
  /-- The worker dies, or a session of the store raises. -/
  | crash

/-- The status for the answer of `_notify`. -/
def deliveryStatus : Option Bool → Status
  | some true => .accepted
  | some false => .notSent
  | none => .outcomeUnknown

/-- The accepted snapshots that a reservation prunes. -/
def System.forget (s : System) : Item → Attempt := fun item =>
  if s.last item = .recorded .accepted ∧
      calendar.fingerprint item ∉ s.state.fingerprints calendar then .pruned
  else s.last item

/-- One event, if it can happen. -/
def System.step (s : System) : Event → Option System
  | .edit edit => (s.state.edit calendar edit).map fun state => { s with state := state }
  | .start => if s.worker = .stopped then some { s with worker := .idle } else none
  | .list now dnd =>
      if s.worker = .idle then
        some { s with worker := .reserving now (s.state.due calendar now dnd) }
      else none
  | .reserve =>
      match s.worker with
      | .reserving _ [] => some { s with worker := .idle }
      | .reserving now (item :: due) =>
          match calendar.nextDue item.due item.recurrence item.timezone
              (now + 60 * item.firstMinutes) with
          | none => some { s with worker := .stopped }
          | some nextDue =>
              match reserveDelivery calendar s.state s.ledger item with
              | none => some { s with worker := .stopped }
              | some (ledger, .reserved) =>
                  some { s with
                    ledger := ledger
                    worker := .notifying item nextDue now due
                    last := s.forget calendar }
              | some (_, .accepted) => some { s with worker := .advancing item nextDue now due }
              | some (_, .refused) => some { s with worker := .reserving now due }
      | _ => none
  | .notify =>
      match s.worker with
      | .notifying item nextDue now due =>
          some { s with
            worker := .recording item nextDue now due
            last := Function.update s.last item .unrecorded }
      | _ => none
  | .record accepted =>
      match s.worker with
      | .recording item nextDue now due =>
          match recordDelivery calendar s.ledger item (deliveryStatus accepted) with
          | none => some { s with worker := .stopped }
          | some ledger =>
              some { s with
                ledger := ledger
                worker := if accepted = some true then .advancing item nextDue now due
                  else .reserving now due
                last := Function.update s.last item (.recorded (deliveryStatus accepted)) }
      | _ => none
  | .advance clock =>
      match s.worker with
      | .advancing item nextDue now due =>
          match advance calendar s.state item nextDue clock with
          | none => some { s with worker := .stopped }
          | some (state, _) => some { s with state := state, worker := .reserving now due }
      | _ => none
  | .crash => some { s with worker := .stopped }

/-- Nothing has been delivered. -/
def System.initial (state : State) : System where
  state := state
  ledger := .empty
  worker := .stopped
  last := fun _ => .never

end Preseed.Reminders
