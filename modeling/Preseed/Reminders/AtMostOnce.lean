import Preseed.Reminders.LocalReminders

/-!
# One notification for each snapshot

The ledger holds the last notification of a snapshot, until its record is pruned.
-/

namespace Preseed.Reminders

open Option

variable {calendar : Calendar}

/-- A state of a run from a state without deliveries. -/
inductive Reachable (calendar : Calendar) : System → Prop
  | initial (state : State) : Reachable calendar (.initial state)
  | step {s t : System} (h : Reachable calendar s) (event : Event)
      (hstep : s.step calendar event = some t) : Reachable calendar t

/-! ## The ledger -/

namespace Ledger

theorem get_put_self (l : Ledger) (receipt : Receipt) :
    (l.put receipt).get receipt.key = some receipt := by
  simp [get, put]

variable {key : String} {receipt : Receipt}

theorem get_put_ne (l : Ledger) (h : key ≠ receipt.key) :
    (l.put receipt).get key = l.get key := by
  simp only [get, put, without]
  rw [List.find?_cons_of_neg (by simpa using fun heq => h heq.symm)]
  rw [List.find?_filter]
  congr 1
  funext other
  by_cases hother : other.key = key
  · simp [hother, h]
  · simp [hother]

variable {l : Ledger}

theorem get_key (h : l.get key = some receipt) :
    receipt.key = key := by
  simpa using List.find?_some h

/-- A receipt that a prune keeps. -/
theorem get_prune {current : List String} (h : l.get key = some receipt)
    (hkeep : receipt.status = .reserved ∨ receipt.status = .outcomeUnknown ∨ key ∈ current) :
    (l.prune current).get key = some receipt := by
  have hkey := get_key h
  obtain ⟨hfound, before, after, heq, hbefore⟩ := List.find?_eq_some_iff_append.mp h
  have hkept : (decide (receipt.status = .reserved) || decide (receipt.status = .outcomeUnknown) ||
      current.contains receipt.key) = true := by
    rcases hkeep with hreserved | hunknown | hcurrent
    · simp [hreserved]
    · simp [hunknown]
    · simp [hkey, hcurrent]
  simp only [get, prune]
  rw [List.find?_filter]
  refine List.find?_eq_some_iff_append.mpr ⟨?_, before, after, heq, fun other hother => ?_⟩
  · rw [hkept, hfound]
    rfl
  · have hne : other.key ≠ key := by simpa using hbefore other hother
    simp [hne]

theorem get_publish {l' : Ledger} (h : l.publish calendar = some l') : l' = l := by
  simp only [publish, ite_none_right_eq_some, Option.some.injEq] at h
  exact h.2.symm

end Ledger

variable {ledger : Ledger} {item : Item}

/-- What a reservation needs and leaves. -/
theorem reserveDelivery_reserved {s : State} {ledger' : Ledger}
    (h : reserveDelivery calendar s ledger item = some (ledger', .reserved)) :
    (∀ receipt, ledger.get (calendar.fingerprint item) = some receipt →
      receipt.status = .notSent) ∧
    ledger' = (ledger.prune (s.fingerprints calendar)).put
      ⟨calendar.fingerprint item, item, .reserved⟩ := by
  simp only [reserveDelivery] at h
  split at h
  · cases h
  · split at h
    · cases h
    · cases h
    · cases h
    · rename_i haccepted hreserved hunknown
      split at h
      · obtain ⟨published, hpublished, heq⟩ := map_eq_some_iff.mp h
        refine ⟨fun receipt hget => ?_, ?_⟩
        · obtain ⟨key, other, status⟩ := receipt
          cases status with
          | notSent => rfl
          | accepted => exact absurd hget (haccepted _ _)
          | reserved => exact absurd hget (hreserved _ _)
          | outcomeUnknown => exact absurd hget (hunknown _ _)
        · rw [← (Prod.mk.inj heq).1]
          exact Ledger.get_publish hpublished
      · cases h

theorem recordDelivery_some {ledger' : Ledger} {status : Status}
    (h : recordDelivery calendar ledger item status = some ledger') :
    ledger.get (calendar.fingerprint item) = some ⟨calendar.fingerprint item, item, .reserved⟩ ∧
    ledger' = ledger.put ⟨calendar.fingerprint item, item, status⟩ := by
  simp only [recordDelivery] at h
  split at h
  · rename_i receipt hget
    split at h
    · rename_i hreserved
      obtain ⟨key, other, status'⟩ := receipt
      obtain ⟨rfl, rfl⟩ := hreserved
      obtain rfl : key = calendar.fingerprint other := Ledger.get_key hget
      exact ⟨hget, Ledger.get_publish h⟩
    · cases h
  · cases h

/-! ## The last notification -/

/-- What the ledger says of a snapshot after its last notification. -/
def Attempt.holds : Attempt → Option Status
  | unrecorded => some .reserved
  | recorded .notSent => none
  | recorded status => some status
  | never | pruned => none

theorem Attempt.holds_ne_notSent (attempt : Attempt) : attempt.holds ≠ some .notSent := by
  cases attempt with
  | recorded status => cases status <;> simp [holds]
  | _ => simp [holds]

theorem Attempt.holds_accepted {attempt : Attempt} (h : attempt.holds = some .accepted) :
    attempt = .recorded .accepted := by
  cases attempt with
  | recorded status => cases status <;> first | rfl | cases h
  | _ => cases h

/-- The snapshot may be notified. -/
def Attempt.free (attempt : Attempt) : Prop :=
  attempt = .never ∨ attempt = .recorded .notSent ∨ attempt = .pruned

theorem Attempt.free_of_holds {attempt : Attempt} (h : attempt.holds = none) : attempt.free := by
  cases attempt with
  | never => exact .inl rfl
  | unrecorded => cases h
  | recorded status =>
    cases status with
    | notSent => exact .inr (.inl rfl)
    | _ => cases h
  | pruned => exact .inr (.inr rfl)

/-- The ledger knows of the last notification of each snapshot. -/
structure Known (calendar : Calendar) (s : System) : Prop where
  receipt : ∀ item status, (s.last item).holds = some status →
    s.ledger.get (calendar.fingerprint item) = some ⟨calendar.fingerprint item, item, status⟩
  notifying : ∀ item nextDue now due, s.worker = .notifying item nextDue now due →
    (s.last item).holds = none ∧ s.ledger.get (calendar.fingerprint item) =
      some ⟨calendar.fingerprint item, item, .reserved⟩
  recording : ∀ item nextDue now due, s.worker = .recording item nextDue now due →
    s.last item = .unrecorded

variable {s : System}

variable {t : System}

section

variable (h : Known calendar s)
include h

/-- A step of the state, or of the worker between two items. -/
theorem Known.move (hledger : t.ledger = s.ledger) (hlast : t.last = s.last)
    (hworker : t.worker = s.worker ∨
      (∀ item nextDue now due, t.worker ≠ .notifying item nextDue now due) ∧
        ∀ item nextDue now due, t.worker ≠ .recording item nextDue now due) :
    Known calendar t := by
  constructor
  · rw [hledger, hlast]
    exact h.receipt
  · intro item nextDue now due hnotifying
    rw [hledger, hlast]
    rcases hworker with heq | ⟨hnone, -⟩
    · exact h.notifying item nextDue now due (heq ▸ hnotifying)
    · exact absurd hnotifying (hnone item nextDue now due)
  · intro item nextDue now due hrecording
    rw [hlast]
    rcases hworker with heq | ⟨-, hnone⟩
    · exact h.recording item nextDue now due (heq ▸ hrecording)
    · exact absurd hrecording (hnone item nextDue now due)

/-- A reservation keeps what the ledger knows, and forgets what it prunes. -/
theorem Known.reserve
    (hreserved : reserveDelivery calendar s.state s.ledger item = some (ledger, .reserved))
    (nextDue : Option String) (now : ℤ) (due : List Item) :
    Known calendar { s with
      ledger := ledger
      worker := .notifying item nextDue now due
      last := s.forget calendar } := by
  obtain ⟨hnotSent, rfl⟩ := reserveDelivery_reserved hreserved
  have hforget : ∀ other status, (s.forget calendar other).holds = some status →
      (s.last other).holds = some status ∧ (status = .accepted →
        calendar.fingerprint other ∈ s.state.fingerprints calendar) := by
    intro other status hholds
    simp only [System.forget] at hholds
    split at hholds
    · cases hholds
    · rename_i hkept
      refine ⟨hholds, fun haccepted => ?_⟩
      by_contra hgone
      exact hkept ⟨Attempt.holds_accepted (haccepted ▸ hholds), hgone⟩
  constructor
  · intro other status hholds
    obtain ⟨hlast, hcurrent⟩ := hforget other status hholds
    have hget := h.receipt other status hlast
    have hne : calendar.fingerprint other ≠ calendar.fingerprint item := by
      intro heq
      have hstatus : status = .notSent := hnotSent _ (heq ▸ hget)
      exact Attempt.holds_ne_notSent _ (hstatus ▸ hlast)
    rw [Ledger.get_put_ne _ hne]
    refine Ledger.get_prune hget ?_
    cases status with
    | reserved => exact .inl rfl
    | outcomeUnknown => exact .inr (.inl rfl)
    | accepted => exact .inr (.inr (hcurrent rfl))
    | notSent => exact absurd hlast (Attempt.holds_ne_notSent _)
  · rintro other nextDue' now' due' heq
    obtain ⟨rfl, -, -, -⟩ := Worker.notifying.inj heq
    refine ⟨?_, Ledger.get_put_self _ ⟨_, _, _⟩⟩
    by_contra hsome
    obtain ⟨status, hholds⟩ := ne_none_iff_exists'.mp hsome
    obtain ⟨hlast, -⟩ := hforget _ status hholds
    have hstatus : status = .notSent := hnotSent _ (h.receipt _ status hlast)
    exact Attempt.holds_ne_notSent _ (hstatus ▸ hlast)
  · rintro other nextDue' now' due' heq
    cases heq

/-- The command is started, and the ledger holds the reservation. -/
theorem Known.notify {nextDue : Option String} {now : ℤ} {due : List Item}
    (hworker : s.worker = .notifying item nextDue now due) :
    Known calendar { s with
      worker := .recording item nextDue now due
      last := Function.update s.last item .unrecorded } := by
  constructor
  · intro other status hholds
    by_cases hsame : other = item
    · subst hsame
      simp only [Function.update_self] at hholds
      cases hholds
      exact (h.notifying _ _ _ _ hworker).2
    · simp only [Function.update_of_ne hsame] at hholds
      exact h.receipt other status hholds
  · rintro other nextDue' now' due' heq
    cases heq
  · rintro other nextDue' now' due' heq
    obtain ⟨rfl, -, -, -⟩ := Worker.recording.inj heq
    exact Function.update_self _ _ _

/-- The outcome replaces the reservation. -/
theorem Known.record {status : Status}
    (hrecorded : recordDelivery calendar s.ledger item status = some ledger) {worker : Worker}
    (hworker : (∀ item nextDue now due, worker ≠ .notifying item nextDue now due) ∧
      ∀ item nextDue now due, worker ≠ .recording item nextDue now due) :
    Known calendar { s with
      ledger := ledger
      worker := worker
      last := Function.update s.last item (.recorded status) } := by
  obtain ⟨hreserved, rfl⟩ := recordDelivery_some hrecorded
  constructor
  · intro other status' hholds
    by_cases hsame : other = item
    · subst hsame
      simp only [Function.update_self] at hholds
      have hstatus : status' = status := by
        cases status <;> first | exact (Option.some.inj hholds).symm | cases hholds
      rw [hstatus]
      exact Ledger.get_put_self _ ⟨_, _, _⟩
    · simp only [Function.update_of_ne hsame] at hholds
      have hget := h.receipt other status' hholds
      have hne : calendar.fingerprint other ≠ calendar.fingerprint item := by
        intro heq
        rw [heq, hreserved] at hget
        exact hsame (Receipt.mk.inj (Option.some.inj hget)).2.1.symm
      rw [Ledger.get_put_ne _ hne]
      exact hget
  · intro other nextDue now due heq
    exact absurd heq (hworker.1 other nextDue now due)
  · intro other nextDue now due heq
    exact absurd heq (hworker.2 other nextDue now due)

theorem Known.step {event : Event}
    (hstep : s.step calendar event = some t) : Known calendar t := by
  cases event with
  | edit edit =>
    obtain ⟨state, _, rfl⟩ := map_eq_some_iff.mp hstep
    exact h.move rfl rfl (.inl rfl)
  | start =>
    simp only [System.step, ite_none_right_eq_some, Option.some.injEq] at hstep
    obtain ⟨_, rfl⟩ := hstep
    exact h.move rfl rfl (.inr ⟨by simp, by simp⟩)
  | list now dnd =>
    simp only [System.step, ite_none_right_eq_some, Option.some.injEq] at hstep
    obtain ⟨_, rfl⟩ := hstep
    exact h.move rfl rfl (.inr ⟨by simp, by simp⟩)
  | reserve =>
    simp only [System.step] at hstep
    split at hstep
    · cases hstep
      exact h.move rfl rfl (.inr ⟨by simp, by simp⟩)
    · split at hstep
      · cases hstep
        exact h.move rfl rfl (.inr ⟨by simp, by simp⟩)
      · split at hstep
        · cases hstep
          exact h.move rfl rfl (.inr ⟨by simp, by simp⟩)
        · rename_i hreserved
          cases hstep
          exact h.reserve hreserved _ _ _
        · cases hstep
          exact h.move rfl rfl (.inr ⟨by simp, by simp⟩)
        · cases hstep
          exact h.move rfl rfl (.inr ⟨by simp, by simp⟩)
    · cases hstep
  | notify =>
    simp only [System.step] at hstep
    split at hstep
    · rename_i hworker
      cases hstep
      exact h.notify hworker
    · cases hstep
  | record accepted =>
    simp only [System.step] at hstep
    split at hstep
    · split at hstep
      · cases hstep
        exact h.move rfl rfl (.inr ⟨by simp, by simp⟩)
      · rename_i hrecorded
        cases hstep
        exact h.record hrecorded (by split <;> exact ⟨by simp, by simp⟩)
    · cases hstep
  | advance clock =>
    simp only [System.step] at hstep
    split at hstep
    · split at hstep <;> obtain rfl := Option.some.inj hstep <;>
        exact h.move rfl rfl (.inr ⟨by simp, by simp⟩)
    · cases hstep
  | crash =>
    cases hstep
    exact h.move rfl rfl (.inr ⟨by simp, by simp⟩)

end

theorem Reachable.known (h : Reachable calendar s) : Known calendar s := by
  induction h with
  | initial state =>
    exact ⟨fun _ _ hholds => (nomatch hholds), fun _ _ _ _ heq => (nomatch heq),
      fun _ _ _ _ heq => (nomatch heq)⟩
  | step _ event hstep ih => exact ih.step hstep

/-! ## Accepted snapshots -/

theorem State.get_put_ne (s : State) {id : String} (h : id ≠ item.id) :
    (s.put item).get id = s.get id := by
  simp only [put]
  split
  · have hkeeps : (fun current : Item => decide ((if current.id = item.id then item
        else current).id = id)) = fun current => decide (current.id = id) := by
      funext current
      split
      · rename_i heq
        rw [heq]
      · rfl
    simp only [get, replace, map, List.find?_map, Function.comp_def]
    rw [hkeeps]
    cases hget : s.items.find? fun current => decide (current.id = id) with
    | none => rfl
    | some current =>
      have hid : current.id = id := by simpa using List.find?_some hget
      simp [hid, h]
  · simp [get, List.find?_append, Ne.symm h]

/-- An item that differs from the delivered snapshot is not overwritten. -/
theorem advance_get {s t : State} {nextDue : Option String} {now : ℤ} {advanced : Bool}
    (h : advance calendar s item nextDue now = some (t, advanced)) {id : String}
    (hdiffers : s.get id ≠ some item) : t.get id = s.get id := by
  simp only [advance] at h
  split at h
  · rw [(Prod.mk.inj (Option.some.inj h)).1]
  · rename_i current hcurrent
    split at h
    · rw [(Prod.mk.inj (Option.some.inj h)).1]
    · rename_i hsame
      obtain rfl : current = item := by simpa using hsame
      have hne : id ≠ current.id := by
        rintro rfl
        exact hdiffers hcurrent
      obtain ⟨published, hpublished, heq⟩ := map_eq_some_iff.mp h
      simp only [State.publish, ite_none_right_eq_some, Option.some.injEq] at hpublished
      rw [← (Prod.mk.inj heq).1, ← hpublished.2]
      refine State.get_put_ne s ?_
      cases nextDue <;> exact hne

/-- A reservation of an accepted snapshot is answered without a notification. -/
theorem reserveDelivery_accepted {s : State} (hcurrent : s.get item.id = some item)
    (henabled : item.enabled = true) (haccepted : ledger.get (calendar.fingerprint item) =
      some ⟨calendar.fingerprint item, item, .accepted⟩) :
    reserveDelivery calendar s ledger item = some (ledger, .accepted) := by
  simp [reserveDelivery, hcurrent, henabled, haccepted]

/-- The notification command is started for a snapshot only if it never was, or its last
notification was recorded as not sent or was accepted and pruned after the snapshot was
superseded. An accepted snapshot is advanced without a notification, and only the
snapshot itself is advanced. -/
theorem local_reminder_at_most_once {s t : System} (hs : Reachable calendar s) :
    (s.step calendar .notify = some t → ∃ item nextDue now due,
      s.worker = .notifying item nextDue now due ∧ (s.last item).free) ∧
    (∀ item nextDue now due, s.worker = .reserving now (item :: due) →
      s.last item = .recorded .accepted → s.state.get item.id = some item →
      item.enabled = true →
      calendar.nextDue item.due item.recurrence item.timezone (now + 60 * item.firstMinutes) =
        some nextDue →
      s.step calendar .reserve = some { s with worker := .advancing item nextDue now due }) ∧
    (∀ clock, s.step calendar (.advance clock) = some t → ∃ item nextDue now due,
      s.worker = .advancing item nextDue now due ∧
      ∀ id, s.state.get id ≠ some item → t.state.get id = s.state.get id) := by
  refine ⟨fun hstep => ?_, ?_, fun clock hstep => ?_⟩
  · simp only [System.step] at hstep
    split at hstep
    · rename_i item nextDue now due hworker
      exact ⟨item, nextDue, now, due, hworker,
        Attempt.free_of_holds (hs.known.notifying item nextDue now due hworker).1⟩
    · cases hstep
  · intro item nextDue now due hworker haccepted hcurrent henabled hnextDue
    have hreceipt := hs.known.receipt item .accepted (by rw [haccepted]; rfl)
    simp only [System.step, hworker, hnextDue,
      reserveDelivery_accepted hcurrent henabled hreceipt]
  · simp only [System.step] at hstep
    split at hstep
    · rename_i item nextDue now due hworker
      refine ⟨item, nextDue, now, due, hworker, fun id hdiffers => ?_⟩
      split at hstep
      · cases hstep
        rfl
      · rename_i hadvanced
        cases hstep
        exact advance_get hadvanced hdiffers
    · cases hstep

/-! ## A superseded snapshot that comes back -/

/-- Events one after another. -/
def System.run (calendar : Calendar) (s : System) : List Event → Option System
  | [] => some s
  | event :: events => (s.step calendar event).bind fun t => t.run calendar events

theorem Reachable.run (hs : Reachable calendar s) (events : List Event)
    (h : s.run calendar events = some t) : Reachable calendar t := by
  induction events generalizing s with
  | nil =>
    cases h
    exact hs
  | cons event events ih =>
    obtain ⟨m, hm, hrest⟩ := bind_eq_some_iff.mp h
    exact ih (hs.step event hm) hrest

/-- Items that differ in their identity or are paused. -/
def sampleCalendar : Calendar where
  dueValid := fun _ _ => true
  anchorDue := fun anchor _ => some anchor
  instant := fun _ => 1000
  nextDue := fun _ recurrence _ _ => if recurrence = .none then some none else none
  fingerprint := fun item => item.id ++ if item.enabled then "e" else "p"
  stateFits := fun _ => true
  ledgerFits := fun _ => true

def sampleItem (id : String) : Item where
  id := id
  title := "Tea"
  body := ""
  due := "1970-01-01T00:16+00:00"
  timezone := "UTC"
  firstMinutes := 0
  recurrence := .none
  sound := false
  urgency := .normal
  allowDnd := true
  enabled := true
  link := none
  created := 900
  updated := 1000

def tea : Item := sampleItem "0123456789abcdef0123456789abcdef"

def toast : Item := sampleItem "fedcba9876543210fedcba9876543210"

def sampleState : State := ⟨[tea, toast], by decide⟩

/-- The first snapshot is accepted, paused and resumed within its second, and the
reservation of the second one falls between. -/
def sampleEvents : List Event :=
  [.start, .list 1000 none, .reserve, .notify, .record (some true),
    .edit (.setEnabled tea.id false 1000), .advance 1000, .reserve,
    .edit (.setEnabled tea.id true 1000), .notify, .record (some true), .advance 1001, .reserve,
    .list 1015 none, .reserve]

/-- The state of a run of the two snapshots. -/
theorem sample_run (events : List Event) (worker : Worker) (attempt : Attempt)
    (h : (((System.initial sampleState).run sampleCalendar events).map fun s =>
      (s.worker, s.last tea)) = some (worker, attempt)) :
    ∃ s, Reachable sampleCalendar s ∧ s.worker = worker ∧ s.last tea = attempt := by
  obtain ⟨s, hrun, heq⟩ := map_eq_some_iff.mp h
  exact ⟨s, (Reachable.initial sampleState).run events hrun, (Prod.mk.inj heq).1,
    (Prod.mk.inj heq).2⟩

theorem local_reminder_at_most_once_tea : ∃ s t, Reachable sampleCalendar s ∧
    s.step sampleCalendar .notify = some t ∧ (s.last tea).free := by
  obtain ⟨s, hs, hworker, -⟩ := sample_run (sampleEvents.take 3)
    (.notifying tea none 1000 [toast]) .never (by decide)
  have hstep : s.step sampleCalendar .notify = some { s with
      worker := .recording tea none 1000 [toast]
      last := Function.update s.last tea .unrecorded } := by
    simp only [System.step, hworker]
  obtain ⟨item, _, _, _, hitem, hfree⟩ := (local_reminder_at_most_once hs).1 hstep
  obtain ⟨rfl, -, -, -⟩ := Worker.notifying.inj (hworker.symm.trans hitem)
  exact ⟨s, _, hs, hstep, hfree⟩

/-- The second notification of a snapshot whose first one was accepted. -/
theorem pruned_snapshot_notified_again : ∃ s, Reachable sampleCalendar s ∧
    (∃ nextDue now due, s.worker = .notifying tea nextDue now due) ∧
    (s.step sampleCalendar .notify).isSome = true ∧
    s.last tea ≠ .never ∧ s.last tea ≠ .recorded .notSent := by
  obtain ⟨s, hs, hworker, hlast⟩ := sample_run sampleEvents (.notifying tea none 1015 [])
    .pruned (by decide)
  refine ⟨s, hs, ⟨_, _, _, hworker⟩, ?_, ?_, ?_⟩
  · simp only [System.step, hworker, Option.isSome_some]
  · rw [hlast]
    decide
  · rw [hlast]
    decide

end Preseed.Reminders
