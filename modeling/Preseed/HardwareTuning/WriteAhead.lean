import Preseed.HardwareTuning.Machine
import Preseed.HardwareTuning.ResetRules

/-!
# Write-ahead recovery

The invariant of the journal file and the machine under it, and the proof that every
operation of an apply or a reset keeps it: an entry holds the value its control had
when the journal file was last empty, a write is issued only on a control with a
pending entry in the file, and, while no write disturbs a settled entry, a save drops
only entries whose controls read their baselines. The environment is any part of
`hardware`; `calm` says whether it is also free of disturbing writes.
-/

namespace Preseed.HardwareTuning

open Effects

/-- A journal describes the machine. -/
structure Journal.Kept (inventory : Inventory) (calm : Prop) (m : Machine) (j : Journal) : Prop where
  /-- No control is journaled twice. -/
  nodup : j.ids.Nodup
  /-- Every journaled control is one of the inventory. -/
  known : ∀ e ∈ j.entries, (inventory.get? e.id).isSome
  /-- An entry holds the baseline of its control. -/
  before : ∀ e ∈ j.entries, e.before = m.baseline e.id
  /-- A control without a getter reads its constant. -/
  constant : ∀ e ∈ j.entries, inventory.restorable e.id = false → m.hw e.id = e.before
  /-- A settled control still reads what the engine last verified. -/
  last : calm → ∀ e ∈ j.entries, e.pending = false → inventory.restorable e.id →
    e.last = some (m.hw e.id)

/-- What the journal file holds and the given journal does not is back at its baseline. -/
def Journal.Covers (calm : Prop) (m : Machine) (j : Journal) : Prop :=
  calm → ∀ e ∈ m.durable.entries, e.id ∉ j.ids → m.hw e.id = e.before

/-- The invariant of the machine. -/
structure Machine.Sound (inventory : Inventory) (calm : Prop) (m : Machine) : Prop where
  /-- The journal file describes the machine. -/
  kept : m.durable.Kept inventory calm m
  /-- An empty journal file means that nothing has been changed. -/
  fresh : m.durable.entries = [] → m.baseline = m.hw
  /-- Paired controls read numbers. -/
  numeric : inventory.NumericPairs m.hw
  /-- Paired controls read numbers before they were changed. -/
  numericBaseline : inventory.NumericPairs m.baseline

/-- The moments at which the engine issues its operations: the machine is sound, a write has a
pending entry in the journal file, and in calm runs a save drops only entries whose controls
read their baselines. -/
structure WriteAhead (inventory : Inventory) (calm : Prop) (m : Machine) (op : Request) : Prop where
  /-- The machine is sound. -/
  sound : m.Sound inventory calm
  /-- A write has a pending entry in the journal file. -/
  journaled : ∀ key, op.target = some key →
    ∃ e ∈ m.durable.entries, e.id = key ∧ e.pending = true
  /-- A save drops only entries whose controls read their baselines. -/
  dropped : ∀ j, op = .save j → j.Covers calm m

namespace Journal.Kept

variable {inventory : Inventory} {calm : Prop} {m : Machine} {j : Journal}

section

variable (h : j.Kept inventory calm m)
include h

/-- Entries may be changed, as long as those that are settled hold the current reading. -/
theorem update (keys : List String) {f : Entry → Entry}
    (hid : ∀ e, (f e).id = e.id) (hbefore : ∀ e, (f e).before = e.before)
    (hlast : calm → ∀ e ∈ j.entries, e.id ∈ keys → (f e).pending = false →
      inventory.restorable e.id → (f e).last = some (m.hw e.id)) :
    (j.update keys f).Kept inventory calm m where
  nodup := by
    rw [Journal.update_ids j keys f hid]
    exact h.nodup
  known e he := by
    obtain ⟨e', he', rfl⟩ := Journal.mem_update.mp he
    split
    · rw [hid]
      exact h.known e' he'
    · exact h.known e' he'
  before e he := by
    obtain ⟨e', he', rfl⟩ := Journal.mem_update.mp he
    split
    · rw [hid, hbefore]
      exact h.before e' he'
    · exact h.before e' he'
  constant e he := by
    obtain ⟨e', he', rfl⟩ := Journal.mem_update.mp he
    split
    · rw [hid, hbefore]
      exact h.constant e' he'
    · exact h.constant e' he'
  last hcalm e he := by
    obtain ⟨e', he', rfl⟩ := Journal.mem_update.mp he
    split
    · rw [hid]
      exact hlast hcalm e' he' ‹_›
    · exact h.last hcalm e' he'

/-- Entries may be marked as pending. -/
theorem markPending (keys : List String) :
    (j.update keys Entry.markPending).Kept inventory calm m :=
  h.update keys (fun _ => rfl) (fun _ => rfl) (by simp [Entry.markPending])

/-- Entries may be dropped. -/
theorem sublist {j' : Journal}
    (hsub : j'.entries.Sublist j.entries) : j'.Kept inventory calm m where
  nodup := (hsub.map Entry.id).nodup h.nodup
  known e he := h.known e (hsub.subset he)
  before e he := h.before e (hsub.subset he)
  constant e he := h.constant e (hsub.subset he)
  last hcalm e he := h.last hcalm e (hsub.subset he)

/-- Completed entries may be dropped. -/
theorem without (complete : List String) :
    (j.without complete).Kept inventory calm m :=
  h.sublist List.filter_sublist

/-- A write keeps a journal that describes the machine, if it disturbs no settled entry. -/
theorem written {spread : String → String → Prop} {key : String}
    {hw' : String → Value} (hchanges : Changes inventory spread key m.hw hw')
    (hcalm : calm → ∀ e ∈ j.entries, spread key e.id → inventory.restorable e.id →
      e.pending = true) :
    j.Kept inventory calm { m with hw := hw' } where
  nodup := h.nodup
  known := h.known
  before := h.before
  constant e he hfixed := by
    rw [← h.constant e he hfixed]
    exact hchanges.constant e.id (h.known e he) hfixed
  last hc e he hsettled hrestorable := by
    rw [h.last hc e he hsettled hrestorable]
    congr 1
    by_contra hne
    have := hcalm hc e he (hchanges.confined e.id (Ne.symm hne)) hrestorable
    rw [hsettled] at this
    exact Bool.false_ne_true this

/-- A saved journal describes the machine it is saved on. -/
theorem saved : j.Kept inventory calm (m.saved j) where
  nodup := h.nodup
  known := h.known
  before e he := by
    have hne : j.entries ≠ [] := List.ne_nil_of_mem he
    simpa [Machine.saved, hne] using h.before e he
  constant := h.constant
  last := h.last

end

/-- A journal covers itself once it is the journal file. -/
theorem covers_self : m.durable.Covers calm m :=
  fun _ _ he hnot => absurd (List.mem_map_of_mem he) hnot

end Journal.Kept

namespace Machine.Sound

variable {inventory : Inventory} {calm : Prop} {m : Machine} {j : Journal}

/-- Saving a journal that describes the machine keeps the machine sound. -/
theorem saved (h : m.Sound inventory calm) (hkept : j.Kept inventory calm m) :
    (m.saved j).Sound inventory calm where
  kept := hkept.saved
  fresh hempty := by
    have : j.entries = [] := hempty
    simp [Machine.saved, this]
  numeric := h.numeric
  numericBaseline := by
    by_cases hempty : j.entries = []
    · simpa [Machine.saved, hempty] using h.numeric
    · simpa [Machine.saved, hempty] using h.numericBaseline

/-- A journaled write keeps the machine sound, if it disturbs no settled entry. -/
theorem written (h : m.Sound inventory calm) {spread : String → String → Prop} {key : String}
    {hw' : String → Value} (hchanges : Changes inventory spread key m.hw hw')
    (hjournaled : m.durable.entries ≠ [])
    (hcalm : calm → ∀ e ∈ m.durable.entries, spread key e.id → inventory.restorable e.id →
      e.pending = true) :
    ({ m with hw := hw' } : Machine).Sound inventory calm where
  kept := h.kept.written hchanges hcalm
  fresh hempty := absurd hempty hjournaled
  numeric := hchanges.numeric
  numericBaseline := h.numericBaseline

/-- A sound machine may be read. -/
theorem passive (h : m.Sound inventory calm) {op : Request} (htarget : op.target = none)
    (hsave : ∀ j, op ≠ .save j) : WriteAhead inventory calm m op :=
  ⟨h, by simp [htarget], fun j hop => absurd hop (hsave j)⟩

end Machine.Sound

/-- What a write does to the machine. -/
theorem hardware_target {inventory : Inventory} {spread : String → String → Prop} {m m' : Machine}
    {mem : Journal} {op : Request} {key : String} {answer : Except Failure op.Reply}
    (htarget : op.target = some key) (h : hardware inventory spread m mem op answer m') :
    ∃ hw', Changes inventory spread key m.hw hw' ∧ m' = { m with hw := hw' } := by
  cases op with
  | write | writeMaximum | restoreValue =>
    cases htarget
    exact h
  | read | save | temperature | checkOwnership => cases htarget

/-- What a save does to the machine. -/
theorem hardware_save {inventory : Inventory} {spread : String → String → Prop} {m m' : Machine}
    {mem j : Journal} {answer : Except Failure Unit}
    (h : hardware inventory spread m mem (.save j) answer m') :
    (m' = m ∨ m' = m.saved j) ∧ (answer = .ok () → m' = m.saved j) := by
  rcases h with rfl | ⟨⟨e, rfl⟩, rfl⟩
  · exact ⟨.inr rfl, fun _ => rfl⟩
  · exact ⟨.inl rfl, by simp⟩

/-- Marking entries as pending finds every marked control pending. -/
theorem Journal.exists_markPending {journal : Journal} {keys : List String} {entry : Entry}
    (h : entry ∈ journal.entries) (hkey : entry.id ∈ keys) :
    ∃ e ∈ (journal.update keys Entry.markPending).entries, e.id = entry.id ∧ e.pending = true :=
  ⟨entry.markPending, Journal.mem_update.mpr ⟨entry, h, by simp [hkey]⟩, rfl, rfl⟩

section Reset

variable {inventory : Inventory} {spread : String → String → Prop} {calm : Prop}
  {E : Environment Hardware Journal Machine}
  (hE : ∀ m mem op answer m', E m mem op answer m' → hardware inventory spread m mem op answer m')
  (hcalm : calm → ∀ m mem op answer m', E m mem op answer m' →
    undisturbing inventory spread m mem op)
  {s : Journal} {m : Machine}

include hE hcalm

/-- A write on a control with a pending entry keeps the machine sound, and every journal that
has the entries of the file. -/
theorem sound_of_write {j mem : Journal} {m' : Machine} {op : Request} {key : String}
    {answer : Except Failure op.Reply} (htarget : op.target = some key)
    (hsound : m.Sound inventory calm) (hguard : WriteAhead inventory calm m op)
    (hkept : j.Kept inventory calm m)
    (hpending : calm → ∀ e ∈ j.entries, e.pending = false → e ∈ m.durable.entries)
    (h : E m mem op answer m') :
    m'.Sound inventory calm ∧ j.Kept inventory calm m' ∧ m'.durable = m.durable ∧
      m'.baseline = m.baseline := by
  obtain ⟨hw', hchanges, rfl⟩ := hardware_target htarget (hE _ _ _ _ _ h)
  obtain ⟨e, he, -, -⟩ := hguard.journaled key htarget
  have hundisturbed : calm → ∀ e ∈ m.durable.entries, spread key e.id →
      inventory.restorable e.id → e.pending = true :=
    fun hc => hcalm hc _ _ _ _ _ h key htarget
  refine ⟨hsound.written hchanges (List.ne_nil_of_mem he) hundisturbed,
    hkept.written hchanges fun hc e he hspread hrestorable => ?_, rfl, rfl⟩
  by_contra hnot
  rw [Bool.not_eq_true] at hnot
  have := hundisturbed hc e (hpending hc e he hnot) hspread hrestorable
  rw [hnot] at this
  exact Bool.false_ne_true this

/-- The write-ahead property of a reset, up to its report. -/
theorem wp_resetCore_writeAhead (hsound : m.Sound inventory calm)
    (hkept : s.Kept inventory calm m) (hcovers : s.Covers calm m) :
    wp E (fun m _ op => WriteAhead inventory calm m op) (resetCore inventory)
      (fun x s' m' => m'.Sound inventory calm ∧ ∀ done, x = .ok done → m'.durable = s') s m := by
  unfold resetCore
  simp only [wp_bind, wp_get, outcome_ok]
  have hscan : wp E (fun m _ op => WriteAhead inventory calm m op)
      (Act.fold (scanOne inventory) ⟨[], [], []⟩ s.entries) _ s m :=
    wp_scan (· = m) (fun e answer => ∀ value, answer = .ok value → value = m.hw e.id) rfl
      fun e _ m₁ hm => by
      subst hm
      refine ⟨hsound.passive rfl (by simp), fun answer m' h => ?_⟩
      obtain ⟨rfl, hvalue⟩ : m' = m₁ ∧ _ := hE _ _ _ _ _ h
      exact ⟨rfl, hvalue⟩
  refine wp_mono hscan ?_
  rintro (err | scan) s' m' ⟨rfl, rfl, hsorts, -⟩
  · exact ⟨hsound, by simp⟩
  have hsorts := hsorts scan rfl
  set y := yieldDomains inventory s' scan with hy
  set keys := y.restore.map Prod.fst with hkeys
  set held := s'.update keys Entry.markPending with hheld
  have hheldKept : held.Kept inventory calm m' := hkept.markPending keys
  have hheldIds : held.ids = s'.ids :=
    Journal.update_ids s' keys Entry.markPending fun _ => rfl
  have hkeyEntry : ∀ key ∈ keys, ∃ e ∈ s'.entries, e.id = key := by
    intro key hkey
    obtain ⟨kv, hkv, rfl⟩ := List.mem_map.mp hkey
    obtain ⟨e, he, hid, -, -⟩ := hsorts.restore kv (restore_yieldDomains_subset hkv)
    exact ⟨e, he, hid⟩
  -- In a calm run nothing is yielded.
  have hnone : calm → y.yielded = [] := by
    intro hc
    have hscanned : scan.yielded = [] := by
      refine List.eq_nil_iff_forall_not_mem.mpr fun key hkey => ?_
      obtain ⟨e, he, rfl, hsettled, hrestorable, value, hvalue, hne⟩ := hsorts.yielded key hkey
      rw [hvalue value rfl] at hne
      exact hne (hkept.last hc e he hsettled hrestorable).symm
    rw [hy, yieldDomains_of_nil hscanned, hscanned]
  rw [outcome_ok]
  refine wp_restoreScanned
    (I := fun verified m₁ => m₁.Sound inventory calm ∧ held.Kept inventory calm m₁ ∧
      held.Covers calm m₁ ∧ (y.restore ≠ [] → m₁.durable = held) ∧
      ∀ key ∈ verified, inventory.restorable key → ∃ e ∈ s'.entries, e.id = key ∧
        m₁.hw key = e.before) (fun _ _ => True) (Eq.refl y.restore) (Eq.refl keys) (Eq.refl held)
    ?_ ?_ ?_ ?_ (fun _ _ _ _ _ _ _ _ _ => trivial) (fun _ _ _ _ _ _ _ => trivial) ?_ ?_ ?_ ?_ ?_
  · exact (order_yieldDomains hsorts.order).nodup hkept.nodup
  · intro key hkey
    obtain ⟨e, he, rfl⟩ := hkeyEntry key hkey
    exact hkept.known e he
  · intro hnil
    exact ⟨hsound, hheldKept, fun hc e he hnot => hcovers hc e he (hheldIds ▸ hnot),
      fun h => absurd hnil h, by simp⟩
  · intro _
    refine ⟨⟨hsound, by simp [Request.target], ?_⟩, fun answer m₁ h => ?_⟩
    · intro j hj hc e he hnot
      cases hj
      exact hcovers hc e he (hheldIds ▸ hnot)
    · obtain ⟨hcases, hok⟩ := hardware_save (hE _ _ _ _ _ h)
      have hsaved := hsound.saved hheldKept
      refine ⟨fun e _ => ⟨?_, by simp⟩, fun hans => ?_⟩
      · rcases hcases with rfl | rfl
        · exact hsound
        · exact hsaved
      · rw [hok hans]
        exact ⟨hsaved, hheldKept.saved, Journal.Kept.covers_self, fun _ => rfl, by simp⟩
  · rintro key verified m₁ - ⟨hs, hk, hc, hd, hv⟩
    refine ⟨hs.passive rfl (by simp), fun answer m₂ h => ?_⟩
    obtain ⟨rfl, hvalue⟩ : m₂ = m₁ ∧ _ := hE _ _ _ _ _ h
    refine ⟨⟨hs, hk, hc, hd, hv⟩, fun _ entry hentry hans => ⟨hs, hk, hc, hd, ?_⟩⟩
    obtain ⟨hmem, hid⟩ := Journal.entry?_eq_some hentry
    intro k hkmem hrestorable
    rcases List.mem_cons.mp hkmem with rfl | hkmem
    · exact ⟨entry, hmem, hid, (hvalue _ hans).symm⟩
    · exact hv k hkmem hrestorable
  · rintro key verified m₁ hfixed - ⟨hs, hk, hc, hd, hv⟩
    refine ⟨hs, hk, hc, hd, fun k hkmem hrestorable => ?_⟩
    rcases List.mem_cons.mp hkmem with rfl | hkmem
    · rw [hfixed] at hrestorable
      exact absurd hrestorable Bool.false_ne_true
    · exact hv k hkmem hrestorable
  · rintro key hkey op htarget m₁ ⟨hs, hk, hc, hd, -⟩
    have hdurable : m₁.durable = held := by
      refine hd fun hnil => ?_
      rw [hkeys, hnil] at hkey
      simp at hkey
    obtain ⟨e, he, rfl⟩ := hkeyEntry key hkey
    have hguard : WriteAhead inventory calm m₁ op := by
      refine ⟨hs, fun key' htarget' => ?_, ?_⟩
      · rw [htarget] at htarget'
        cases htarget'
        rw [hdurable]
        exact Journal.exists_markPending he hkey
      · rintro j rfl
        cases htarget
    refine ⟨hguard, fun answer m₂ h => ?_⟩
    obtain ⟨hs', hk', hdur, -⟩ := sound_of_write hE hcalm htarget hs hguard hk
      (fun _ e he _ => hdurable ▸ he) h
    rw [hdurable] at hdur
    refine ⟨hs', hk', ?_, fun _ => hdur, by simp⟩
    rw [← hdur]
    exact Journal.Kept.covers_self
  · rintro e verified m₁ ⟨hs, -⟩
    exact ⟨hs, by simp⟩
  · rintro done verified m₁ ⟨hs, hk, hc, hd, hv⟩ hbooks hverified
    have htrimmed := hk.without done.complete
    refine ⟨⟨hs, by simp [Request.target], ?_⟩, fun answer m₂ h => ?_⟩
    · intro j hj hcalm' e he hnot
      cases hj
      by_cases hheldMem : e.id ∈ held.ids
      · obtain ⟨e₁, he₁, hid₁⟩ := List.mem_map.mp hheldMem
        have hcomplete : e.id ∈ done.complete := by
          by_contra hkeep
          refine hnot (List.mem_map.mpr ⟨e₁, List.mem_filter.mpr ⟨he₁, ?_⟩, hid₁⟩)
          simpa [hid₁] using hkeep
        rcases hverified e.id hcomplete with hyielded | hver
        · rw [← hy, hnone hcalm'] at hyielded
          simp at hyielded
        · cases hrestorable : inventory.restorable e.id with
          | false => exact hs.kept.constant e he hrestorable
          | true =>
            obtain ⟨e₂, he₂, hid₂, hhw⟩ := hv e.id hver hrestorable
            rw [hhw, hs.kept.before e he, ← hid₂]
            obtain ⟨e₃, he₃, hid₃, hbefore₃⟩ : ∃ e₃ ∈ held.entries, e₃.id = e₂.id ∧
                e₃.before = e₂.before := by
              refine ⟨_, Journal.mem_update.mpr ⟨e₂, he₂, rfl⟩, ?_, ?_⟩ <;> split <;> rfl
            rw [← hbefore₃, ← hid₃]
            exact hk.before e₃ he₃
      · exact hc hcalm' e he hheldMem
    · obtain ⟨hcases, hok⟩ := hardware_save (hE _ _ _ _ _ h)
      refine ⟨fun e _ => ⟨?_, by simp⟩, fun hans => ?_⟩
      · rcases hcases with rfl | rfl
        · exact hs
        · exact hs.saved htrimmed
      · rw [hok hans]
        exact ⟨hs.saved htrimmed, fun _ _ => rfl⟩

/-- The write-ahead property of a reset; one that succeeds leaves an empty journal. -/
theorem wp_reset_writeAhead (hsound : m.Sound inventory calm)
    (hkept : s.Kept inventory calm m) (hcovers : s.Covers calm m) :
    wp E (fun m _ op => WriteAhead inventory calm m op) (reset inventory)
      (fun x s' m' => m'.Sound inventory calm ∧
        ∀ report, x = .ok report → s'.entries = [] ∧ m'.durable = s') s m := by
  have hcore : wp E (fun m _ op => WriteAhead inventory calm m op) (reset inventory)
      (fun x s' m' => m'.Sound inventory calm ∧ ∀ report, x = .ok report → m'.durable = s') s m := by
    unfold reset
    rw [wp_bind]
    refine wp_mono (wp_resetCore_writeAhead hE hcalm hsound hkept hcovers) ?_
    rintro (err | done) s' m' ⟨hs, hdur⟩
    · exact ⟨hs, by simp⟩
    · rw [outcome_ok]
      split
      · exact ⟨hs, fun _ _ => hdur done rfl⟩
      · exact ⟨hs, by simp⟩
  have hboth := Program.Safe.and hcore (wp_reset_empties (E := E) (w := m) hkept.nodup)
  refine Program.Safe.mono hboth (fun _ _ _ _ _ h => h) (fun _ _ _ h => h.1) ?_
  rintro ⟨x, s'⟩ m' ⟨⟨hs, hdur⟩, hempty⟩
  exact ⟨hs, fun report hx => ⟨hempty report hx, hdur report hx⟩⟩

end Reset

end Preseed.HardwareTuning
