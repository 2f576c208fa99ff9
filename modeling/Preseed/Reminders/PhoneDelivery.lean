import Preseed.Reminders.PhoneReminders

/-!
# One message for each slot

The watermark of an occurrence is kept until a day after the occurrence, or until the
opt-in is renewed. So a slot is reserved again only when it was deferred, unless its
reservation itself comes more than a day late.
-/

namespace Preseed.Reminders.Phone

open List Option

/-! ## Opt-ins and deliveries -/

variable {uid : String} {entry : Entry} {preferences : List Entry}

theorem lookup_remove {other : String} (h : lookup (remove preferences uid) other = some entry) :
    lookup preferences other = some entry := by
  simp only [lookup, remove] at h ⊢
  rw [List.find?_filter] at h
  by_cases hsame : other = uid
  · rw [List.find?_eq_none.mpr] at h
    · cases h
    · intro found _
      simp only [decide_eq_true_eq]
      rintro ⟨hne, heq⟩
      exact hne (heq.trans hsame)
  · rw [← h]
    congr 1
    funext found
    by_cases heq : found.uid = other
    · simp [heq, hsame]
    · simp [heq]

theorem mem_of_lookup (h : lookup preferences uid = some entry) : entry ∈ preferences :=
  mem_of_find?_eq_some h

variable {now : ℤ}

/-- The entries after `Store.set`: the old ones, and a new one of the drawn generation. -/
theorem set_cases {preferences' : List Entry} {url timezone generation : String} {kind : Kind}
    {settings : Preference}
    (h : set preferences uid url kind timezone settings generation now = some preferences') :
    preferences' = preferences ∨ preferences' = remove preferences uid ∨
      ∃ entry, entry.uid = uid ∧ entry.generation = generation ∧ settings.enabled = true ∧
        (preferences' = entry :: preferences ∨ preferences' = entry :: remove preferences uid) := by
  simp only [set] at h
  split at h
  · cases h
  · split at h
    · split at h
      · exact .inl (Option.some.inj h).symm
      · split at h
        · exact .inl (Option.some.inj h).symm
        · exact .inr (.inl (Option.some.inj h).symm)
    · rename_i henabled
      have henabled : settings.enabled = true := by simpa using henabled
      split at h
      · split at h
        · exact .inr (.inr ⟨_, rfl, rfl, henabled, .inl (Option.some.inj h).symm⟩)
        · cases h
      · split at h
        · cases h
        · split at h
          · exact .inl (Option.some.inj h).symm
          · exact .inr (.inr ⟨_, rfl, rfl, henabled, .inr (Option.some.inj h).symm⟩)

/-- An entry that is found after `Store.set` was found before, or is the new one. -/
theorem lookup_set {preferences' : List Entry} {url timezone generation : String} {kind : Kind}
    {settings : Preference}
    (h : set preferences uid url kind timezone settings generation now = some preferences')
    {other : String} (hentry : lookup preferences' other = some entry) :
    lookup preferences other = some entry ∨
      (settings.enabled = true ∧ entry.generation = generation) := by
  rcases set_cases h with rfl | rfl | ⟨new, huid, hgeneration, henabled, heq⟩
  · exact .inl hentry
  · exact .inl (lookup_remove hentry)
  · have hcons : ∀ rest, preferences' = new :: rest →
        entry = new ∨ lookup rest other = some entry := by
      rintro rest rfl
      simp only [lookup, List.find?_cons] at hentry ⊢
      split at hentry
      · exact .inl (Option.some.inj hentry).symm
      · exact .inr hentry
    rcases heq with heq | heq
    · rcases hcons _ heq with rfl | hold
      · exact .inr ⟨henabled, hgeneration⟩
      · exact .inl hold
    · rcases hcons _ heq with rfl | hold
      · exact .inr ⟨henabled, hgeneration⟩
      · exact .inl (lookup_remove hold)

theorem find_put_self (deliveries : List Delivery) (delivery : Delivery) :
    find (put deliveries delivery) delivery.identifier = some delivery := by
  simp [find, put]

variable {identifier : Identifier} {deliveries : List Delivery}

theorem find_put_ne {delivery : Delivery} (h : identifier ≠ delivery.identifier) :
    find (put deliveries delivery) identifier = find deliveries identifier := by
  simp only [find, put]
  rw [List.find?_cons_of_neg (by simpa using fun heq => h heq.symm), List.find?_filter]
  congr 1
  funext other
  by_cases hother : other.identifier = identifier
  · simp [hother, h]
  · simp [hother]

/-- A delivery that has not expired, of the generation of its opt-in, is not pruned. -/
theorem find_prune {delivery : Delivery} (h : find deliveries identifier = some delivery)
    (hexpires : now ≤ delivery.expires)
    (hcurrent : (lookup preferences delivery.key).map Entry.generation =
      some delivery.generation) :
    find (prune deliveries preferences now) identifier = some delivery := by
  obtain ⟨hfound, before, after, heq, hbefore⟩ := List.find?_eq_some_iff_append.mp h
  simp only [find, prune]
  rw [List.find?_filter]
  refine List.find?_eq_some_iff_append.mpr ⟨?_, before, after, heq, fun other hother => ?_⟩
  · have hid : delivery.identifier = identifier := by simpa using hfound
    simp [hexpires, hcurrent, hid]
  · have hne : other.identifier ≠ identifier := by simpa using hbefore other hother
    simp [hne]

/-! ## The watermarks -/

/-- The ledger's entry for a watermark. -/
def Watermark.delivery (w : Watermark) (identifier : Identifier) : Delivery :=
  ⟨identifier, identifier.epoch + 86400, w.status, w.retryAt, w.slot, identifier.uid,
    identifier.generation⟩

/-- The opt-in is the one of the identifier. -/
def Current (preferences : List Entry) (identifier : Identifier) : Prop :=
  (lookup preferences identifier.uid).map Entry.generation = some identifier.generation

/-- The reserved slot is not before the current opt-in, and later than what was sent. -/
structure Held (s : System) (entry : Entry) (identifier : Identifier) (slot : ℤ) : Prop where
  current : lookup s.preferences identifier.uid = some entry
  generation : identifier.generation = entry.generation
  watermark : ∃ status retryAt, s.watermark identifier = some ⟨slot, status, retryAt⟩
  enabledAt : entry.enabledAt ≤ slot

/-- What holds between two steps. -/
structure Known (s : System) : Prop where
  drawn : ∀ entry ∈ s.preferences, entry.generation ∈ s.generations
  marked : ∀ identifier w, s.watermark identifier = some w →
    identifier.generation ∈ s.generations
  kept : ∀ identifier w, s.watermark identifier = some w → s.now ≤ identifier.epoch + 86400 →
    Current s.preferences identifier →
    find s.deliveries identifier = some (w.delivery identifier)
  sent : ∀ identifier slot, (identifier, slot) ∈ s.sent →
    ∃ w, s.watermark identifier = some w ∧ slot ≤ w.slot
  slots : ∀ entry slots entries, s.worker = .sending entry slots entries →
    ∀ epoch slot channel, (epoch, slot, channel) ∈ slots → entry.enabledAt ≤ slot
  reserved : ∀ entry identifier slot slots entries,
    s.worker = .reserved entry identifier slot slots entries →
    Held s entry identifier slot ∧
      (∀ earlier, (identifier, earlier) ∈ s.sent →
        earlier < slot ∨ (earlier = slot ∧ s.deferral = true)) ∧
      ∀ epoch slot channel, (epoch, slot, channel) ∈ slots → entry.enabledAt ≤ slot
  dispatched : ∀ entry identifier slot slots entries,
    s.worker = .dispatched entry identifier slot slots entries →
    Held s entry identifier slot ∧
      ∀ epoch slot channel, (epoch, slot, channel) ∈ slots → entry.enabledAt ≤ slot

/-- The reservation comes at most a day after the occurrence. -/
def System.timely (s : System) : Event → Prop
  | .reserve => ∀ entry epoch slot channel slots entries,
      s.worker = .sending entry ((epoch, slot, channel) :: slots) entries → s.now ≤ epoch + 86400
  | _ => True

/-- A state of a run whose reservations are timely. -/
inductive Timely : System → Prop
  | initial (now : ℤ) : Timely (.initial now)
  | step {s t : System} (h : Timely s) (event : Event) (htimely : s.timely event)
      (hstep : s.step event = some t) : Timely t

variable {channel : Channel} {epoch slot : ℤ}

theorem mem_dueSlots {epochs : List ℤ}
    (h : (epoch, slot, channel) ∈ dueSlots epochs entry now) : entry.enabledAt ≤ slot := by
  obtain ⟨⟨epoch', slot'⟩, hslot, hmem⟩ := mem_flatMap.mp h
  obtain ⟨_, -, hschedule⟩ := mem_filterMap.mp hslot
  obtain rfl : slot = slot' := by
    simp only [mem_cons, Prod.mk.injEq, not_mem_nil, or_false] at hmem
    rcases hmem with ⟨-, hslot, -⟩ | ⟨-, hslot, -⟩ <;> exact hslot
  simp only [scheduleSlot, ite_none_left_eq_some] at hschedule
  obtain ⟨-, hafter, heq⟩ := hschedule
  rw [not_or] at hafter
  rw [← (Prod.mk.inj (Option.some.inj heq)).2]
  exact Int.not_lt.mp hafter.1

variable {t s : System}

/-- A step that leaves the ledger, and the opt-ins and the worker up to what it may
send. -/
theorem Known.update (h : Known s) (hdeliveries : t.deliveries = s.deliveries)
    (hwatermark : t.watermark = s.watermark) (hsent : t.sent = s.sent) (hnow : s.now ≤ t.now)
    (hgenerations : ∀ generation ∈ s.generations, generation ∈ t.generations)
    (hdrawn : ∀ entry ∈ t.preferences, entry.generation ∈ t.generations)
    (hlookup : ∀ uid entry, lookup t.preferences uid = some entry →
      lookup s.preferences uid = some entry ∨ entry.generation ∉ s.generations)
    (hslots : ∀ entry slots entries, t.worker = .sending entry slots entries →
      ∀ epoch slot channel, (epoch, slot, channel) ∈ slots → entry.enabledAt ≤ slot)
    (hworker : t.worker.locked = true → t.worker = s.worker ∧ t.preferences = s.preferences ∧
      t.deferral = s.deferral) : Known t := by
  have hheld : t.worker.locked = true → ∀ entry identifier slot, Held s entry identifier slot →
      Held t entry identifier slot := by
    intro hlocked entry identifier slot hs
    have hpreferences := (hworker hlocked).2.1
    exact ⟨by rw [hpreferences]; exact hs.current, hs.generation,
      by rw [hwatermark]; exact hs.watermark, hs.enabledAt⟩
  refine ⟨hdrawn, fun identifier w hw => ?_, fun identifier w hw htime hcurrent => ?_,
    fun identifier slot hmem => ?_, hslots, fun entry identifier slot slots entries heq => ?_,
    fun entry identifier slot slots entries heq => ?_⟩
  · exact hgenerations _ (h.marked identifier w (hwatermark ▸ hw))
  · rw [hwatermark] at hw
    rw [hdeliveries]
    refine h.kept identifier w hw (Int.le_trans hnow htime) ?_
    obtain ⟨entry, hentry, hgeneration⟩ := map_eq_some_iff.mp hcurrent
    rcases hlookup _ entry hentry with hold | hnew
    · exact map_eq_some_iff.mpr ⟨entry, hold, hgeneration⟩
    · rw [hgeneration] at hnew
      exact absurd (h.marked identifier w hw) hnew
  · rw [hwatermark]
    exact h.sent identifier slot (hsent ▸ hmem)
  · have hlocked : t.worker.locked = true := by rw [heq]; rfl
    obtain ⟨hsame, -, hdeferral⟩ := hworker hlocked
    obtain ⟨hs, hearlier, hrest⟩ := h.reserved entry identifier slot slots entries (hsame ▸ heq)
    refine ⟨hheld hlocked _ _ _ hs, ?_, hrest⟩
    rw [hsent, hdeferral]
    exact hearlier
  · have hlocked : t.worker.locked = true := by rw [heq]; rfl
    obtain ⟨hs, hrest⟩ := h.dispatched entry identifier slot slots entries
      ((hworker hlocked).1 ▸ heq)
    exact ⟨hheld hlocked _ _ _ hs, hrest⟩

/-! ## Reservations -/

/-- The entry of a new reservation. -/
def attempt (entry : Entry) (epoch slot : ℤ) (channel : Channel) : Delivery :=
  (⟨slot, .attempted, 0⟩ : Watermark).delivery (identifierOf entry epoch channel)

theorem reserve_reserved {deliveries' : List Delivery}
    (h : reserve preferences deliveries entry epoch slot channel now = .reserved deliveries') :
    lookup preferences entry.uid = some entry ∧
    deliveries' = put (prune deliveries preferences now) (attempt entry epoch slot channel) ∧
    ∀ previous, find (prune deliveries preferences now) (identifierOf entry epoch channel) =
      some previous → previous.refuses slot now = false := by
  simp only [reserve] at h
  split at h
  · cases h
  · rename_i hcurrent
    refine ⟨not_not.mp hcurrent, ?_⟩
    split at h
    · rename_i previous hprevious
      split at h
      · cases h
      · rename_i hrefuses
        refine ⟨(Reservation.reserved.inj h).symm, fun other hother => ?_⟩
        obtain rfl := Option.some.inj (hprevious.symm.trans hother)
        simpa using hrefuses
    · rename_i hnone
      split at h
      · refine ⟨(Reservation.reserved.inj h).symm, fun other hother => ?_⟩
        cases hnone.symm.trans hother
      · cases h

/-- A timely reservation is of a later slot, or of one that was deferred. -/
theorem Known.admits (h : Known s)
    (hreserved : reserve s.preferences s.deliveries entry epoch slot channel s.now =
      .reserved deliveries) (htimely : s.now ≤ epoch + 86400) {w : Watermark}
    (hw : s.watermark (identifierOf entry epoch channel) = some w) :
    w.slot < slot ∨ (w.slot = slot ∧ w.status = .deferred ∧ w.retryAt ≤ s.now) := by
  obtain ⟨hcurrent, -, hadmits⟩ := reserve_reserved hreserved
  have hgeneration : Current s.preferences (identifierOf entry epoch channel) :=
    map_eq_some_iff.mpr ⟨entry, hcurrent, rfl⟩
  have hfound := find_prune (h.kept _ w hw htimely hgeneration) htimely hgeneration
  have hrefuses := hadmits _ hfound
  rcases Int.lt_trichotomy w.slot slot with hlt | heq | hgt
  · exact .inl hlt
  · refine .inr ⟨heq, ?_⟩
    simpa [Delivery.refuses, Watermark.delivery, heq] using hrefuses
  · simp [Delivery.refuses, Watermark.delivery, hgt] at hrefuses

variable {slots : List (ℤ × ℤ × Channel)}

theorem Known.reserve (h : Known s) {entries : List Entry}
    (hworker : s.worker = .sending entry ((epoch, slot, channel) :: slots) entries)
    (hreserved : Phone.reserve s.preferences s.deliveries entry epoch slot channel s.now =
      .reserved deliveries) (htimely : s.now ≤ epoch + 86400) :
    Known { s with
      deliveries := deliveries
      worker := .reserved entry (identifierOf entry epoch channel) slot slots entries
      watermark := Function.update s.watermark (identifierOf entry epoch channel)
        (some ⟨slot, .attempted, 0⟩)
      deferral := (s.watermark (identifierOf entry epoch channel)).any
        fun w => w.readmits slot s.now } := by
  have hadmits := fun w hw => h.admits hreserved htimely (w := w) hw
  have hslots := h.slots entry _ entries hworker
  obtain ⟨hcurrent, rfl, -⟩ := reserve_reserved hreserved
  refine ⟨h.drawn, fun other w hw => ?_, fun other w hw htime hother => ?_,
    fun other earlier hmem => ?_, fun _ _ _ heq => (nomatch heq),
    fun entry' other slot' slots' entries' heq => ?_, fun _ _ _ _ _ heq => (nomatch heq)⟩
  · by_cases hsame : other = identifierOf entry epoch channel
    · subst hsame
      exact h.drawn entry (mem_of_lookup hcurrent)
    · simp only [Function.update_of_ne hsame] at hw
      exact h.marked other w hw
  · by_cases hsame : other = identifierOf entry epoch channel
    · subst hsame
      simp only [Function.update_self, Option.some.injEq] at hw
      subst hw
      exact find_put_self _ _
    · simp only [Function.update_of_ne hsame] at hw
      have hfound := h.kept other w hw htime hother
      exact (find_put_ne hsame).trans (find_prune hfound htime hother)
  · obtain ⟨w, hw, hle⟩ := h.sent other earlier hmem
    by_cases hsame : other = identifierOf entry epoch channel
    · subst hsame
      refine ⟨_, Function.update_self _ _ _, ?_⟩
      rcases hadmits w hw with hlt | ⟨heq, -⟩
      · exact Int.le_of_lt (Int.lt_of_le_of_lt hle hlt)
      · exact heq ▸ hle
    · exact ⟨w, (Function.update_of_ne hsame _ _).trans hw, hle⟩
  · obtain ⟨rfl, rfl, rfl, rfl, rfl⟩ := Worker.reserved.inj heq
    refine ⟨⟨hcurrent, rfl, ⟨_, _, Function.update_self _ _ _⟩,
      hslots epoch slot channel mem_cons_self⟩, fun earlier hmem => ?_,
      fun epoch' slot' channel' hmem => hslots _ _ _ (mem_cons_of_mem _ hmem)⟩
    obtain ⟨w, hw, hle⟩ := h.sent _ earlier hmem
    rcases hadmits w hw with hlt | ⟨heq, hdeferred, hretry⟩
    · exact .inl (Int.lt_of_le_of_lt hle hlt)
    · rcases Int.lt_or_eq_of_le (heq ▸ hle) with hlt | hsame
      · exact .inl hlt
      · refine .inr ⟨hsame, ?_⟩
        simp [hw, Watermark.readmits, heq, hdeferred, hretry]

/-! ## Steps -/

/-- A worker that ends its cycle, or only moves on. -/
theorem Known.idle (h : Known s) {worker : Worker} (hlocked : worker.locked = false)
    (hslots : ∀ entry slots entries, worker = .sending entry slots entries →
      ∀ epoch slot channel, (epoch, slot, channel) ∈ slots → entry.enabledAt ≤ slot) :
    Known { s with worker := worker } :=
  h.update rfl rfl rfl (Int.le_refl _) (fun _ hmem => hmem) h.drawn
    (fun _ _ hentry => .inl hentry) hslots
    fun hheld => by rw [hlocked] at hheld; cases hheld

/-- The result replaces the attempt, of the same slot. -/
theorem Known.record (h : Known s) (hheld : Held s entry identifier slot)
    (hslots : ∀ epoch slot channel, (epoch, slot, channel) ∈ slots → entry.enabledAt ≤ slot)
    (entries : List Entry) (status : Status) (retryAt : ℤ) :
    Known (s.record entry identifier slot slots entries status retryAt) := by
  obtain ⟨status', retryAt', hmark⟩ := hheld.watermark
  simp only [System.record, recordResult]
  cases hfind : find s.deliveries identifier with
  | none => exact h.idle rfl fun _ _ _ heq => nomatch heq
  | some delivery =>
    have hid : delivery.identifier = identifier := by simpa using List.find?_some hfind
    simp only [map_some]
    refine ⟨h.drawn, fun other w hw => ?_, fun other w hw htime hother => ?_,
      fun other earlier hmem => ?_, fun entry' slots' entries' heq => ?_,
      fun _ _ _ _ _ heq => (nomatch heq), fun _ _ _ _ _ heq => (nomatch heq)⟩
    · by_cases hsame : other = identifier
      · subst hsame
        exact h.marked other _ hmark
      · simp only [Function.update_of_ne hsame] at hw
        exact h.marked other w hw
    · by_cases hsame : other = identifier
      · subst hsame
        simp only [Function.update_self, Option.some.injEq] at hw
        subst hw
        have hkept := h.kept other _ hmark htime hother
        obtain rfl := Option.some.inj (hfind.symm.trans hkept)
        exact find_put_self _ { Watermark.delivery ⟨slot, status', retryAt'⟩ other with
          status := status, retryAt := retryAt }
      · simp only [Function.update_of_ne hsame] at hw
        refine (find_put_ne ?_).trans (h.kept other w hw htime hother)
        exact fun heq => hsame (heq.trans hid)
    · obtain ⟨w, hw, hle⟩ := h.sent other earlier hmem
      by_cases hsame : other = identifier
      · subst hsame
        obtain rfl := Option.some.inj (hmark.symm.trans hw)
        exact ⟨_, Function.update_self _ _ _, hle⟩
      · exact ⟨w, (Function.update_of_ne hsame _ _).trans hw, hle⟩
    · obtain ⟨rfl, rfl, rfl⟩ := Worker.sending.inj heq
      exact hslots

theorem Known.dispatch (h : Known s) (hheld : Held s entry identifier slot)
    (hslots : ∀ epoch slot channel, (epoch, slot, channel) ∈ slots → entry.enabledAt ≤ slot)
    (entries : List Entry) :
    Known { s with
      worker := .dispatched entry identifier slot slots entries
      sent := (identifier, slot) :: s.sent } := by
  refine ⟨h.drawn, h.marked, h.kept, fun other earlier hmem => ?_,
    fun _ _ _ heq => (nomatch heq), fun _ _ _ _ _ heq => (nomatch heq),
    fun entry' other slot' slots' entries' heq => ?_⟩
  · rcases mem_cons.mp hmem with heq | hold
    · obtain ⟨rfl, rfl⟩ := Prod.mk.inj heq
      obtain ⟨status, retryAt, hmark⟩ := hheld.watermark
      exact ⟨_, hmark, Int.le_refl _⟩
    · exact h.sent other earlier hold
  · obtain ⟨rfl, rfl, rfl, rfl, rfl⟩ := Worker.dispatched.inj heq
    exact ⟨⟨hheld.current, hheld.generation, hheld.watermark, hheld.enabledAt⟩, hslots⟩

theorem Known.step (h : Known s) {event : Event} (htimely : s.timely event)
    (hstep : s.step event = some t) : Known t := by
  cases event with
  | tick seconds =>
    cases hstep
    exact h.update rfl rfl rfl (Int.le_add_of_nonneg_right (Int.natCast_nonneg _))
      (fun _ hmem => hmem) h.drawn (fun _ _ hentry => .inl hentry) h.slots
      fun _ => ⟨rfl, rfl, rfl⟩
  | set uid url kind timezone settings generation =>
    simp only [System.step, ite_none_right_eq_some] at hstep
    obtain ⟨⟨hunlocked, hfresh⟩, hmap⟩ := hstep
    obtain ⟨preferences, hset, rfl⟩ := map_eq_some_iff.mp hmap
    refine h.update rfl rfl rfl (Int.le_refl _) (fun _ hmem => mem_cons_of_mem _ hmem) ?_ ?_
      h.slots fun hlocked => by rw [hunlocked] at hlocked; cases hlocked
    · intro entry hmem
      rcases set_cases hset with rfl | rfl | ⟨new, -, hgeneration, -, heq⟩
      · exact mem_cons_of_mem _ (h.drawn entry hmem)
      · exact mem_cons_of_mem _ (h.drawn entry (mem_of_mem_filter hmem))
      · rcases heq with rfl | rfl <;> rcases mem_cons.mp hmem with rfl | hold
        · exact hgeneration ▸ mem_cons_self
        · exact mem_cons_of_mem _ (h.drawn entry hold)
        · exact hgeneration ▸ mem_cons_self
        · exact mem_cons_of_mem _ (h.drawn entry (mem_of_mem_filter hold))
    · intro other entry hentry
      rcases lookup_set hset hentry with hold | ⟨-, hgeneration⟩
      · exact .inl hold
      · exact .inr (hgeneration ▸ hfresh)
  | start =>
    simp only [System.step] at hstep
    split at hstep
    · cases hstep
      exact h.idle rfl fun _ _ _ heq => nomatch heq
    · cases hstep
  | list entries =>
    simp only [System.step] at hstep
    split at hstep
    · obtain ⟨-, hstep⟩ := ite_none_right_eq_some.mp hstep
      cases hstep
      exact h.idle rfl fun _ _ _ heq => nomatch heq
    · cases hstep
  | missing =>
    simp only [System.step] at hstep
    split at hstep
    · rename_i entry entries _
      split at hstep
      · obtain ⟨preferences, hset, rfl⟩ := map_eq_some_iff.mp hstep
        refine h.update rfl rfl rfl (Int.le_refl _) (fun _ hmem => hmem) ?_ ?_
          (fun _ _ _ heq => (nomatch heq)) fun hlocked => (nomatch hlocked)
        · intro other hmem
          rcases set_cases hset with rfl | rfl | ⟨_, -, -, henabled, -⟩
          · exact h.drawn other hmem
          · exact h.drawn other (mem_of_mem_filter hmem)
          · cases henabled
        · intro uid other hother
          rcases lookup_set hset hother with hold | ⟨henabled, -⟩
          · exact .inl hold
          · cases henabled
      · cases hstep
        exact h.idle rfl fun _ _ _ heq => nomatch heq
    · cases hstep
  | unavailable =>
    simp only [System.step] at hstep
    split at hstep
    · cases hstep
      exact h.idle rfl fun _ _ _ heq => nomatch heq
    · cases hstep
  | report epochs =>
    simp only [System.step] at hstep
    split at hstep
    · cases hstep
      refine h.idle rfl fun entry slots entries heq epoch slot channel hmem => ?_
      obtain ⟨rfl, rfl, rfl⟩ := Worker.sending.inj heq
      exact mem_dueSlots hmem
    · cases hstep
  | skip =>
    simp only [System.step] at hstep
    split at hstep
    · rename_i entry first slots entries hworker
      cases hstep
      refine h.idle rfl fun entry' slots' entries' heq epoch slot channel hmem => ?_
      obtain ⟨rfl, rfl, rfl⟩ := Worker.sending.inj heq
      exact h.slots entry _ entries hworker _ _ _ (mem_cons_of_mem _ hmem)
    · cases hstep
  | reserve =>
    simp only [System.step] at hstep
    split at hstep
    · rename_i entry epoch slot channel slots entries hworker
      split at hstep
      · cases hstep
        refine h.idle rfl fun entry' slots' entries' heq epoch' slot' channel' hmem => ?_
        obtain ⟨rfl, rfl, rfl⟩ := Worker.sending.inj heq
        exact h.slots entry _ entries hworker _ _ _ (mem_cons_of_mem _ hmem)
      · cases hstep
        exact h.idle rfl fun _ _ _ heq => nomatch heq
      · rename_i hreserved
        cases hstep
        exact h.reserve hworker hreserved (htimely _ _ _ _ _ _ hworker)
    · cases hstep
  | next =>
    simp only [System.step] at hstep
    split at hstep
    · cases hstep
      exact h.idle rfl fun _ _ _ heq => nomatch heq
    · cases hstep
      exact h.idle rfl fun _ _ _ heq => nomatch heq
    · cases hstep
  | reject =>
    simp only [System.step] at hstep
    split at hstep
    · rename_i hworker
      cases hstep
      obtain ⟨hheld, -, hslots⟩ := h.reserved _ _ _ _ _ hworker
      exact h.record hheld hslots _ _ _
    · cases hstep
  | dispatch =>
    simp only [System.step] at hstep
    split at hstep
    · rename_i hworker
      cases hstep
      obtain ⟨hheld, -, hslots⟩ := h.reserved _ _ _ _ _ hworker
      exact h.dispatch hheld hslots _
    · cases hstep
  | result status delay =>
    simp only [System.step] at hstep
    split at hstep
    · rename_i hworker
      cases hstep
      obtain ⟨hheld, hslots⟩ := h.dispatched _ _ _ _ _ hworker
      exact h.record hheld hslots _ _ _
    · cases hstep
  | crash =>
    cases hstep
    exact h.idle rfl fun _ _ _ heq => nomatch heq

theorem Timely.known (h : Timely s) : Known s := by
  induction h with
  | initial now =>
    exact ⟨fun _ hmem => (nomatch hmem), fun _ _ hw => (nomatch hw), fun _ _ hw => (nomatch hw),
      fun _ _ hmem => (nomatch hmem), fun _ _ _ heq => (nomatch heq),
      fun _ _ _ _ _ heq => (nomatch heq), fun _ _ _ _ _ heq => (nomatch heq)⟩
  | step _ event htimely hstep ih => exact ih.step htimely hstep

/-- In a run whose reservations come at most a day after their occurrences, a message is
dispatched only for a slot after every slot that was sent for the identifier, or for the
last one after its deferral, and not before the current opt-in. A slot that was attempted
is reserved again only after a deferral. -/
theorem phone_reminder_at_most_once {s t : System} (hs : Timely s) :
    (s.step .dispatch = some t → ∃ entry identifier slot slots entries,
      s.worker = .reserved entry identifier slot slots entries ∧
      t.sent = (identifier, slot) :: s.sent ∧
      (∀ earlier, (identifier, earlier) ∈ s.sent →
        earlier < slot ∨ (earlier = slot ∧ s.deferral = true)) ∧
      lookup s.preferences identifier.uid = some entry ∧
      identifier.generation = entry.generation ∧ entry.enabledAt ≤ slot) ∧
    (∀ entry epoch slot channel slots entries,
      s.worker = .sending entry ((epoch, slot, channel) :: slots) entries →
      s.now ≤ epoch + 86400 → s.step .reserve = some t → t.worker.locked = true →
      ∀ w, s.watermark (identifierOf entry epoch channel) = some w →
        w.slot < slot ∨ (w.slot = slot ∧ w.status = .deferred ∧ w.retryAt ≤ s.now)) := by
  constructor
  · intro hstep
    simp only [System.step] at hstep
    split at hstep
    · rename_i entry identifier slot slots entries hworker
      cases hstep
      obtain ⟨hheld, hearlier, -⟩ := hs.known.reserved _ _ _ _ _ hworker
      exact ⟨entry, identifier, slot, slots, entries, hworker, rfl, hearlier, hheld.current,
        hheld.generation, hheld.enabledAt⟩
    · cases hstep
  · intro entry epoch slot channel slots entries hworker htime hstep hlocked w hw
    simp only [System.step, hworker] at hstep
    split at hstep
    · cases hstep
      cases hlocked
    · cases hstep
      cases hlocked
    · rename_i hreserved
      exact hs.known.admits hreserved htime hw

/-! ## A late reservation -/

/-- Events one after another. -/
def System.run (s : System) : List Event → Option System
  | [] => some s
  | event :: events => (s.step event).bind fun t => t.run events

/-- A state of any run. -/
inductive Reachable : System → Prop
  | initial (now : ℤ) : Reachable (.initial now)
  | step {s t : System} (h : Reachable s) (event : Event) (hstep : s.step event = some t) :
      Reachable t

theorem Reachable.run (hs : Reachable s) (events : List Event)
    (h : s.run events = some t) : Reachable t := by
  induction events generalizing s with
  | nil =>
    cases h
    exact hs
  | cons event events ih =>
    obtain ⟨m, hm, hrest⟩ := bind_eq_some_iff.mp h
    exact ih (hs.step event hm) hrest

/-- An opt-in fifteen minutes before an occurrence at 100000. -/
def meeting : Entry where
  uid := "meeting"
  url := "/calendars/home/meeting.ics"
  kind := .vevent
  timezone := "UTC"
  preference := ⟨true, 15, 0⟩
  generation := "0123456789abcdef0123456789abcdef"
  enabledAt := 99000

/-- The opt-in is set, and the reminder is due. -/
def dueEvents : List Event :=
  [.set meeting.uid meeting.url meeting.kind meeting.timezone meeting.preference
    meeting.generation, .tick 110, .start, .list [meeting], .report [100000]]

theorem Timely.run (hs : Timely s) (events : List Event) (h : s.run events = some t)
    (hother : ∀ event ∈ events, event ≠ .reserve) : Timely t := by
  induction events generalizing s with
  | nil =>
    cases h
    exact hs
  | cons event events ih =>
    obtain ⟨m, hm, hrest⟩ := bind_eq_some_iff.mp h
    refine ih (hs.step event ?_ hm) hrest fun other hmem => hother other (mem_cons_of_mem _ hmem)
    have hne := hother event mem_cons_self
    cases event <;> trivial

def meetingIdentifier : Identifier := identifierOf meeting 100000 .telegram

theorem phone_reminder_at_most_once_meeting : ∃ s t, Timely s ∧ s.step .dispatch = some t ∧
    ∃ entry identifier slot slots entries,
      s.worker = .reserved entry identifier slot slots entries ∧
      t.sent = (identifier, slot) :: s.sent ∧
      (∀ earlier, (identifier, earlier) ∈ s.sent →
        earlier < slot ∨ (earlier = slot ∧ s.deferral = true)) ∧
      lookup s.preferences identifier.uid = some entry ∧
      identifier.generation = entry.generation ∧ entry.enabledAt ≤ slot := by
  have hdue : ∃ s, (System.initial 99000).run dueEvents = some s ∧
      (∃ t, s.step .reserve = some t ∧ ∃ u, t.step .dispatch = some u) ∧
      s.worker = .sending meeting [(100000, 99100, .telegram), (100000, 99100, .ntfy)] [] ∧
      s.now = 99110 := ⟨_, rfl, ⟨_, rfl, _, rfl⟩, rfl, rfl⟩
  obtain ⟨s, hrun, ⟨t, hreserve, u, hdispatch⟩, hworker, hnow⟩ := hdue
  have hs : Timely s := (Timely.initial 99000).run dueEvents hrun (by simp [dueEvents])
  have ht : Timely t := by
    refine hs.step .reserve ?_ hreserve
    intro entry epoch slot channel slots entries heq
    rw [hworker] at heq
    obtain ⟨-, hslots, -⟩ := Worker.sending.inj heq
    obtain ⟨rfl, -⟩ := Prod.mk.inj (List.cons.inj hslots).1
    rw [hnow]
    decide
  exact ⟨t, u, ht, hdispatch, (phone_reminder_at_most_once ht).1 hdispatch⟩

/-- The first slot is sent, and listed once more; then a day passes before it is reserved. -/
def lateEvents : List Event :=
  dueEvents ++ [.reserve, .dispatch, .result .delivered 0, .skip, .next, .next,
    .list [meeting], .report [100000], .tick 90000, .reserve]

theorem late_slot_sent_again : ∃ s, Reachable s ∧ (meetingIdentifier, 99100) ∈ s.sent ∧
    s.worker = .reserved meeting meetingIdentifier 99100 [(100000, 99100, .ntfy)] [] ∧
    s.deferral = false ∧ (s.step .dispatch).isSome = true := by
  have hrun : ∃ s, (System.initial 99000).run lateEvents = some s ∧
      (meetingIdentifier, 99100) ∈ s.sent ∧
      s.worker = .reserved meeting meetingIdentifier 99100 [(100000, 99100, .ntfy)] [] ∧
      s.deferral = false := ⟨_, rfl, by decide, rfl, rfl⟩
  obtain ⟨s, hs, hsent, hworker, hdeferral⟩ := hrun
  refine ⟨s, (Reachable.initial 99000).run lateEvents hs, hsent, hworker, hdeferral, ?_⟩
  simp only [System.step, hworker, Option.isSome_some]

end Preseed.Reminders.Phone
