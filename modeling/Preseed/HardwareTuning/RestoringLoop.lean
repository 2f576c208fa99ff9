import Preseed.HardwareTuning.ResetAccounts

/-!
# The restoring loop of a reset, on the log

What is known while `Engine.reset` writes baselines back, whatever the controls
answer: the controls visited so far are restored or retained, those still to come
have only been read, a firmware profile among the retained ones ends all writing, and
a persistence mode that was switched off leaves nothing of its device behind.
-/

namespace Preseed.HardwareTuning

open Effects List

/-- The backends enter the firmware profile selector and the persistence mode without a pair. -/
def Inventory.PlainSelectors (inventory : Inventory) : Prop :=
  ∀ knob ∈ inventory.knobs, knob.setting = "PLATFORM_PROFILE" ∨ knob.setting = "PERSISTENCE_MODE" →
    knob.pair = none

/-- The entry was restored at some time. -/
def Resolved (inventory : Inventory) (log : List Exchange) (e : Entry) : Prop :=
  ∃ earlier later, log = earlier ++ later ∧ Restored inventory earlier e

/-- The control has not been written, and every reading of it was answered. -/
def Untroubled (log : List Exchange) (key : String) : Prop :=
  (∀ x ∈ log, x.op.target ≠ some key) ∧ ∀ answer ∈ readings log key, ∃ value, answer = .ok value

/-- The entry is yielded to another manager: it is given up, and its control could be read. -/
def Yielded (inventory : Inventory) (file : Journal) (log : List Exchange) (e : Entry) : Prop :=
  GivenUp inventory file log e ∧ ∃ value, (readings log e.id).head? = some (.ok value)

/-- The exchange reads the control, or puts the value into it. -/
def Exchange.Restores (key : String) (value : Value) (x : Exchange) : Prop :=
  x.op = .read key ∨ x.op.Puts key value

/-- The trace after some exchanges that restore one control. -/
structure Trace.Restoring (t t' : Trace) (key : String) (value : Value) : Prop where
  /-- The file is as it was. -/
  file : t'.file = t.file
  /-- The log has grown by these exchanges. -/
  log : ∃ later, t'.log = t.log ++ later ∧ ∀ x ∈ later, x.Restores key value

section Log

variable {inventory : Inventory} {log : List Exchange} {key : String} {value : Value} {e : Entry}

theorem Resolved.append (h : Resolved inventory log e) (more : List Exchange) :
    Resolved inventory (log ++ more) e := by
  obtain ⟨earlier, later, rfl, hrestored⟩ := h
  exact ⟨earlier, later ++ more, by simp, hrestored⟩

theorem Restored.resolved (h : Restored inventory log e) : Resolved inventory log e :=
  ⟨log, [], by simp, h⟩

theorem Yielded.append {file : Journal} (h : Yielded inventory file log e) (more : List Exchange) :
    Yielded inventory file (log ++ more) e := by
  obtain ⟨hup, value, hfirst⟩ := h
  refine ⟨hup.append more, value, ?_⟩
  rw [readings_append, head?_append_of_ne_nil _ fun hnil => by simp [hnil] at hfirst]
  exact hfirst

/-- What was restored without a getter has been written. -/
theorem Resolved.written (h : Resolved inventory log e)
    (hfixed : inventory.restorable e.id = false) :
    Written log e.id e.before := by
  obtain ⟨earlier, later, rfl, hrestored⟩ := h
  unfold Restored at hrestored
  simp only [hfixed, Bool.false_eq_true, if_false] at hrestored
  exact hrestored.append later

/-- Restoring another control is no trouble. -/
theorem Untroubled.append (h : Untroubled log key) {other : String} (hne : other ≠ key)
    {later : List Exchange} (hlater : ∀ x ∈ later, x.Restores other value) :
    Untroubled (log ++ later) key := by
  refine ⟨fun x hx => ?_, fun answer hanswer => ?_⟩
  · rcases mem_append.mp hx with hx | hx
    · exact h.1 x hx
    · intro htarget
      rcases hlater x hx with hop | hop | hop <;> rw [hop] at htarget
      · cases htarget
      · exact hne (Option.some.inj htarget)
      · exact hne (Option.some.inj htarget)
  · have hnone : readings later key = [] := by
      refine filterMap_eq_nil_iff.mpr fun x hx => ?_
      obtain ⟨op, reply⟩ := x
      rcases hlater _ hx with hop | hop | hop <;>
        (simp only at hop; subst hop; simp [Exchange.reading?, hne])
    rw [readings_append, hnone, append_nil] at hanswer
    exact h.2 answer hanswer

/-- Saving is no trouble. -/
theorem Untroubled.save (h : Untroubled log key) (journal : Journal)
    (answer : Except Failure Unit) :
    Untroubled (log ++ [⟨.save journal, answer⟩]) key := by
  refine ⟨fun x hx => ?_, fun reply hreply => ?_⟩
  · rcases mem_append.mp hx with hx | hx
    · exact h.1 x hx
    · rw [mem_singleton.mp hx]
      simp [Request.target]
  · rw [readings_append, show readings [⟨.save journal, answer⟩] key = [] from rfl,
      append_nil] at hreply
    exact h.2 reply hreply

theorem Trace.Restoring.refl (t : Trace) (key : String) (value : Value) :
    t.Restoring t key value := ⟨rfl, [], by simp, by simp⟩

/-- One more exchange. -/
theorem Trace.Restoring.step {t t' t'' : Trace} (h : t.Restoring t' key value) {x : Exchange}
    (hx : x.Restores key value) (hfile : t''.file = t'.file) (hlog : t''.log = t'.log ++ [x]) :
    t.Restoring t'' key value := by
  obtain ⟨hfile', later, hlater, hall⟩ := h
  refine ⟨hfile.trans hfile', later ++ [x], by rw [hlog, hlater, append_assoc], ?_⟩
  intro y hy
  rcases mem_append.mp hy with hy | hy
  · exact hall y hy
  · rwa [mem_singleton.mp hy]

end Log

/-- The rule of writing one baseline back, on the log: the log grows by exchanges that restore the
control, and a control is restored when the attempt succeeds. -/
theorem wp_writeBack_observed {G : Guard Hardware Journal Trace} {inventory : Inventory}
    {knob : Knob} {key : String} {value : Value} {s : Journal} {t : Trace}
    (hget : inventory.get? key = some knob)
    (hpassive : ∀ t, G t s (.read key))
    (hwrite : ∀ t' op, t.Restoring t' key value → Request.Puts key value op → G t' s op) :
    wp observed G (writeBack knob key value)
      (fun x s' t' => s' = s ∧ t.Restoring t' key value ∧ (x = .ok () →
        ∀ e : Entry, e.id = key → e.before = value → Restored inventory t'.log e)) s t := by
  have hrestorable := Inventory.restorable_of_get? hget
  have hback : ∀ t' text, t.Restoring t' key value →
      (knob.restorable = false → Written t'.log key value) →
      wp observed G (checkReadback knob key value text)
        (fun x s' t' => s' = s ∧ t.Restoring t' key value ∧ (x = .ok () →
          ∀ e : Entry, e.id = key → e.before = value → Restored inventory t'.log e)) s t' := by
    intro t' text hgrown hwritten
    refine wp_checkReadback (fun hreadable => ⟨hpassive t', fun answer t'' h => ?_⟩)
      fun hfixed => ?_
    · obtain ⟨hfile, hlog⟩ := h
      have hgrown' : t.Restoring t'' key value := hgrown.step (.inl rfl) hfile hlog
      refine ⟨fun _ _ => ⟨rfl, hgrown', by simp⟩, fun current hcurrent => ?_⟩
      split
      case isTrue heq =>
        refine ⟨rfl, hgrown', fun _ e hid hbefore => ?_⟩
        unfold Restored
        rw [hid, hbefore, hrestorable, hreadable, if_pos rfl, hlog]
        exact holds_read t'.log key (heq ▸ hcurrent)
      case isFalse => exact ⟨rfl, hgrown', by simp⟩
    · refine ⟨rfl, hgrown, fun _ e hid hbefore => ?_⟩
      unfold Restored
      rw [hid, hbefore, hrestorable, hfixed]
      simpa using hwritten hfixed
  refine wp_writeBack_steps (R := fun t' => t.Restoring t' key value)
    (D := fun t' => t.Restoring t' key value ∧
      (knob.restorable = false → Written t'.log key value))
    (fun hreadable => ⟨hpassive t, fun answer t' h => ?_⟩) (fun _ => .refl t key value)
    (fun op hputs t' hgrown => ⟨hwrite t' op hgrown hputs, fun answer t'' h => ?_⟩)
    fun t' text ⟨hgrown, hwritten⟩ => hback t' text hgrown hwritten
  · obtain ⟨hfile, hlog⟩ := h
    have hgrown := (Trace.Restoring.refl t key value).step (.inl rfl) hfile hlog
    refine ⟨fun _ _ => ⟨rfl, hgrown, nofun⟩, fun _ _ => ⟨hgrown, fun _ => ⟨hgrown, fun hfixed => ?_⟩⟩⟩
    rw [hreadable] at hfixed
    cases hfixed
  · obtain ⟨hfile, hlog⟩ := h
    have hfile' : t''.file = t'.file := by
      rcases hputs with rfl | rfl <;> exact hfile
    have hgrown' : t.Restoring t'' key value := hgrown.step (.inr hputs) hfile' hlog
    refine ⟨fun _ _ => ⟨rfl, hgrown', nofun⟩, fun hok => ⟨hgrown', fun _ => ?_⟩⟩
    exact ⟨⟨op, answer⟩, by simp [hlog], hputs, hok⟩

/-! ### The loop -/

/-- The local variables at the start of the restoring loop. -/
def Scan.start (inventory : Inventory) (file : Journal) (scan : Scan) : Restoration :=
  let unresolved := file.ids.filter fun key =>
    key ∉ scan.restore.map Prod.fst ∧ key ∉ scan.yielded
  ⟨scan.yielded.dedup, unresolved, scan.failures, unresolved.any fun key =>
    isPlatformProfileId key || inventory.hasSetting ["PLATFORM_PROFILE"] key⟩

/-- `device`: what the identifiers of the controls of the same device start with. -/
def devicePrefix (key : String) : String := beforeFirst key '/' ++ "/"

/-- The value switches the persistence mode of a device off. -/
def SwitchesOff (inventory : Inventory) (key : String) (value : Value) : Prop :=
  inventory.hasSetting ["PERSISTENCE_MODE"] key ∧ value = .int 0

/-- It is the control's turn: nothing is left to visit that goes before it, or before its pair. -/
def Turn (inventory : Inventory) (values : List (String × Value)) (visited : List String)
    (key : String) : Prop :=
  ∃ lead, (lead = key ∨ inventory.PairEnds lead key ∨ inventory.PairEnds key lead) ∧
    ∀ k ∈ values.map Prod.fst, k ∈ visited ∨ k = key ∨ priorityLE inventory values lead k

section Turn

variable {inventory : Inventory} {values : List (String × Value)} {visited : List String}
  {key : String}

/-- Looking at the setting of a control. -/
theorem Inventory.hasSetting_iff {setting : String} :
    inventory.hasSetting [setting] key = true ↔
      ∃ knob, inventory.get? key = some knob ∧ knob.setting = setting := by
  simp [Inventory.hasSetting, Option.any_eq_true]

/-- A selector has no pair. -/
theorem Inventory.PlainSelectors.not_ends (h : inventory.PlainSelectors) {setting : String}
    (hsetting : setting = "PLATFORM_PROFILE" ∨ setting = "PERSISTENCE_MODE")
    (hkey : inventory.hasSetting [setting] key = true) (other : String) :
    ¬inventory.PairEnds key other ∧ ¬inventory.PairEnds other key := by
  obtain ⟨knob, hknob, rfl⟩ := Inventory.hasSetting_iff.mp hkey
  have hnone := h knob (Inventory.mem_of_get? hknob) hsetting
  constructor
  · rintro ⟨a, b, ha, -, hsome, -⟩
    rw [hknob, Option.some.injEq] at ha
    rw [← ha, hnone] at hsome
    cases hsome
  · rintro ⟨a, b, -, hb, hsome, hsame, -⟩
    rw [hknob, Option.some.injEq] at hb
    rw [hsame, ← hb, hnone] at hsome
    cases hsome

/-- Only the firmware profile goes before everything else, and nothing goes after a persistence mode
that is switched off. -/
theorem settingPriority_range (setting : String) : settingPriority setting ≤ 7 ∧
    (setting ≠ "PLATFORM_PROFILE" → -1 ≤ settingPriority setting) := by
  unfold settingPriority
  split <;> simp_all

theorem priority_of_get? {knob : Knob} (hget : inventory.get? key = some knob) :
    priority inventory values key = if knob.setting = "PERSISTENCE_MODE" then
      if values.lookup key = some (.int 1) then -1 else 8 else settingPriority knob.setting := by
  unfold priority
  rw [hget]

theorem priority_of_not_firmware (h : inventory.hasSetting ["PLATFORM_PROFILE"] key = false) :
    -1 ≤ priority inventory values key := by
  cases hget : inventory.get? key with
  | none => simp [priority, hget]
  | some knob =>
    have hne : knob.setting ≠ "PLATFORM_PROFILE" := by
      intro heq
      rw [Inventory.hasSetting_iff.mpr ⟨knob, hget, heq⟩] at h
      cases h
    rw [priority_of_get? hget]
    have hrange := (settingPriority_range knob.setting).2 hne
    split_ifs <;> omega

theorem priority_of_not_persistence (h : inventory.hasSetting ["PERSISTENCE_MODE"] key = false) :
    priority inventory values key ≤ 7 := by
  cases hget : inventory.get? key with
  | none => simp [priority, hget]
  | some knob =>
    have hne : knob.setting ≠ "PERSISTENCE_MODE" := by
      intro heq
      rw [Inventory.hasSetting_iff.mpr ⟨knob, hget, heq⟩] at h
      cases h
    rw [priority_of_get? hget, if_neg hne]
    exact (settingPriority_range knob.setting).1

/-- The firmware profiles have been visited when it is the turn of another control. -/
theorem Turn.firmware (h : Turn inventory values visited key) (hplain : inventory.PlainSelectors)
    (hkey : inventory.hasSetting ["PLATFORM_PROFILE"] key = false) {k : String}
    (hk : k ∈ values.map Prod.fst)
    (hfirmware : inventory.hasSetting ["PLATFORM_PROFILE"] k = true) :
    k ∈ visited := by
  obtain ⟨lead, hlead, hfirst⟩ := h
  have hleadSetting : inventory.hasSetting ["PLATFORM_PROFILE"] lead = false := by
    by_contra hcon
    rw [Bool.not_eq_false] at hcon
    rcases hlead with rfl | hends | hends
    · rw [hcon] at hkey
      cases hkey
    · exact (hplain.not_ends (.inl rfl) hcon key).1 hends
    · exact (hplain.not_ends (.inl rfl) hcon key).2 hends
  have hlow : -1 ≤ priority inventory values lead := priority_of_not_firmware hleadSetting
  have hpriority : priority inventory values k = -2 := by
    obtain ⟨knob, hknob, hsetting⟩ := Inventory.hasSetting_iff.mp hfirmware
    rw [priority_of_get? hknob, hsetting]
    rfl
  rcases hfirst k hk with hvisited | rfl | hle | ⟨hle, -⟩
  · exact hvisited
  · rw [hfirmware] at hkey
    cases hkey
  · omega
  · omega

/-- Everything but persistence modes has been visited when one is switched off. -/
theorem Turn.persistence (h : Turn inventory values visited key) (hplain : inventory.PlainSelectors)
    {value : Value} (hoff : SwitchesOff inventory key value)
    (hvalue : values.lookup key = some value) {k : String} (hk : k ∈ values.map Prod.fst)
    (hother : inventory.hasSetting ["PERSISTENCE_MODE"] k = false) : k ∈ visited := by
  obtain ⟨lead, hlead, hfirst⟩ := h
  obtain ⟨hsetting, rfl⟩ := hoff
  have hsame : lead = key := by
    rcases hlead with rfl | hends | hends
    · rfl
    · exact ((hplain.not_ends (.inr rfl) hsetting lead).2 hends).elim
    · exact ((hplain.not_ends (.inr rfl) hsetting lead).1 hends).elim
  subst hsame
  have hhigh : priority inventory values lead = 8 := by
    obtain ⟨knob, hknob, hset⟩ := Inventory.hasSetting_iff.mp hsetting
    simp [priority_of_get? hknob, hset, hvalue]
  have hlow : priority inventory values k ≤ 7 := priority_of_not_persistence hother
  rcases hfirst k hk with hvisited | rfl | hle | ⟨hle, -⟩
  · exact hvisited
  · rw [hsetting] at hother
    cases hother
  · omega
  · omega

end Turn

/-- The situation of the restoring loop: `scan` says what is to be restored and what is yielded, and
`visited` are the controls the loop has come to. -/
structure LoopFacts (inventory : Inventory) (file : Journal) (scan : Scan) (visited : List String)
    (st : Restoration) (t : Trace) : Prop where
  /-- The file has its baselines. -/
  kept : t.file.baselines = file.baselines
  /-- The controls to restore are in the inventory. -/
  known : ∀ key ∈ scan.restore.map Prod.fst, (inventory.get? key).isSome
  /-- The yielded controls belong to entries that are. -/
  given : ∀ key ∈ scan.yielded, ∃ e ∈ file.entries, e.id = key ∧ Yielded inventory file t.log e
  /-- What the first pass could not sort stays unresolved. -/
  inherited : (scan.start inventory file).unresolved ⊆ st.unresolved
  /-- Yielded controls count as completed. -/
  yields : ∀ key ∈ scan.yielded, key ∈ st.complete
  /-- Nothing else is completed but what was visited. -/
  within : ∀ key ∈ st.complete, key ∈ scan.yielded ∨ key ∈ visited
  /-- A visited control is retained or restored. -/
  settled : ∀ e ∈ file.entries, e.id ∈ visited →
    e.id ∈ st.unresolved ∨ e.id ∈ st.complete ∧ Resolved inventory t.log e
  /-- A control that is completed, but not yielded, is restored. -/
  completed : ∀ e ∈ file.entries, e.id ∈ st.complete → e.id ∉ scan.yielded →
    Resolved inventory t.log e
  /-- A firmware profile among the unresolved controls is known to be one. -/
  flagged : ∀ key ∈ st.unresolved, inventory.hasSetting ["PLATFORM_PROFILE"] key = true →
    st.platformFailed = true
  /-- Without the firmware profile nothing is completed. -/
  barred : (scan.start inventory file).platformFailed = true →
    st.platformFailed = true ∧ ∀ key ∈ st.complete, key ∈ scan.yielded
  /-- The controls still to come have only been read. -/
  fresh : ∀ key ∈ scan.restore.map Prod.fst, key ∉ visited → Untroubled t.log key
  /-- A persistence mode that was switched off leaves nothing of its device behind. -/
  released : ∀ key ∈ st.complete, key ∉ scan.yielded →
    (∃ value, scan.restore.lookup key = some value ∧ SwitchesOff inventory key value) →
    (∀ k ∈ scan.restore.map Prod.fst, inventory.hasSetting ["PERSISTENCE_MODE"] k = false →
      k ∈ visited) ∧
    ∀ k ∈ st.unresolved, startsWith k (devicePrefix key) = true →
      inventory.hasSetting ["PERSISTENCE_MODE"] k = true

/-- What must hold of a write of the restoring loop: nothing is written after a failed firmware
profile, and persistence is switched off only when nothing of the device is unresolved. -/
def Restoration.Admits (inventory : Inventory) (st : Restoration) (key : String) (value : Value) :
    Prop :=
  st.platformFailed = false ∧ (SwitchesOff inventory key value →
    ∀ k ∈ st.unresolved, startsWith k (devicePrefix key) = false)

section Loop

variable {G : Guard Hardware Journal Trace} {inventory : Inventory} {file held : Journal}
  {scan : Scan} {visited : List String} {st : Restoration} {key : String} {value : Value}
  {t t' : Trace}

/-- Another control is visited next. -/
private theorem LoopFacts.visit (h : LoopFacts inventory file scan visited st t)
    (hrestoring : t.Restoring t' key value) {st' : Restoration}
    (hcomplete : ∀ k, k ∈ st'.complete ↔ k ∈ st.complete ∨ k = key ∧ key ∈ st'.complete)
    (hunresolved : ∀ k, k ∈ st'.unresolved ↔ k ∈ st.unresolved ∨ k = key ∧ key ∈ st'.unresolved)
    (hcurrent : ∀ e ∈ file.entries, e.id = key →
      key ∈ st'.unresolved ∨ key ∈ st'.complete ∧ Resolved inventory t'.log e)
    (hnewly : ∀ e ∈ file.entries, e.id = key → key ∈ st'.complete → key ∉ scan.yielded →
      Resolved inventory t'.log e)
    (hflag : st.platformFailed = true → st'.platformFailed = true)
    (hkeyFlag : key ∈ st'.unresolved → inventory.hasSetting ["PLATFORM_PROFILE"] key = true →
      st'.platformFailed = true)
    (hbarred : st.platformFailed = true → key ∈ st'.complete → key ∈ st.complete)
    (hkey : key ∈ scan.restore.map Prod.fst) (hnew : key ∉ visited)
    (hreleased : key ∈ st'.complete → key ∉ st.complete →
      (∃ value, scan.restore.lookup key = some value ∧ SwitchesOff inventory key value) →
      (∀ k ∈ scan.restore.map Prod.fst, inventory.hasSetting ["PERSISTENCE_MODE"] k = false →
        k ∈ visited) ∧
      ∀ k ∈ st'.unresolved, startsWith k (devicePrefix key) = true →
        inventory.hasSetting ["PERSISTENCE_MODE"] k = true) :
    LoopFacts inventory file scan (visited ++ [key]) st' t' := by
  obtain ⟨hfile, later, hlater, hall⟩ := hrestoring
  have hgiven : ∀ k ∈ scan.yielded, ∃ e ∈ file.entries, e.id = k ∧
      Yielded inventory file t'.log e := by
    intro k hk
    obtain ⟨e, he, hid, hup⟩ := h.given k hk
    exact ⟨e, he, hid, hlater ▸ hup.append later⟩
  refine ⟨by rw [hfile]; exact h.kept, h.known, hgiven,
    fun k hk => (hunresolved k).mpr (.inl (h.inherited hk)),
    fun k hk => (hcomplete k).mpr (.inl (h.yields k hk)), fun k hk => ?_, fun e he hvisit => ?_,
    fun e he hdone hnot => ?_, fun k hk hfirmware => ?_, fun hstart => ?_, fun k hk hnot => ?_,
    fun k hk hnot hoff => ?_⟩
  · rcases (hcomplete k).mp hk with hold | ⟨rfl, -⟩
    · exact (h.within k hold).imp_right (mem_append_left _)
    · exact .inr (by simp)
  · rcases mem_append.mp hvisit with hvisit | hvisit
    · rcases h.settled e he hvisit with hretained | ⟨hdone, hresolved⟩
      · exact .inl ((hunresolved _).mpr (.inl hretained))
      · exact .inr ⟨(hcomplete _).mpr (.inl hdone), hlater ▸ hresolved.append later⟩
    · have hid := mem_singleton.mp hvisit
      rw [hid]
      exact hcurrent e he hid
  · rcases (hcomplete e.id).mp hdone with hold | ⟨hid, hdone'⟩
    · exact hlater ▸ (h.completed e he hold hnot).append later
    · exact hnewly e he hid hdone' (hid ▸ hnot)
  · rcases (hunresolved k).mp hk with hold | ⟨rfl, hcur⟩
    · exact hflag (h.flagged k hold hfirmware)
    · exact hkeyFlag hcur hfirmware
  · obtain ⟨hfailed, hnone⟩ := h.barred hstart
    refine ⟨hflag hfailed, fun k hk => ?_⟩
    rcases (hcomplete k).mp hk with hold | ⟨rfl, hdone⟩
    · exact hnone k hold
    · exact hnone k (hbarred hfailed hdone)
  · simp only [mem_append, mem_singleton, not_or] at hnot
    rw [hlater]
    exact (h.fresh k hk hnot.1).append (Ne.symm hnot.2) hall
  · rcases (hcomplete k).mp hk with hold | ⟨rfl, hdone⟩
    · obtain ⟨hvisit, hleft⟩ := h.released k hold hnot hoff
      refine ⟨fun k' hk' hother => mem_append_left _ (hvisit k' hk' hother),
        fun k' hk' hdevice => ?_⟩
      rcases (hunresolved k').mp hk' with hold' | ⟨rfl, -⟩
      · exact hleft k' hold' hdevice
      · -- Whatever comes after a persistence mode is one itself.
        by_contra hother
        rw [Bool.not_eq_true] at hother
        exact hnew (hvisit k' hkey hother)
    · by_cases hold : k ∈ st.complete
      · exact absurd ((h.within k hold).resolve_left hnot) hnew
      · obtain ⟨hvisit, hleft⟩ := hreleased hdone hold hoff
        exact ⟨fun k' hk' hother => mem_append_left _ (hvisit k' hk' hother), hleft⟩

/-- A visited control that is retained. -/
private theorem LoopFacts.retain (h : LoopFacts inventory file scan visited st t)
    (hrestoring : t.Restoring t' key value) (reason : String) {failed : Bool}
    (hflag : st.platformFailed = true → failed = true)
    (hkeyFlag : inventory.hasSetting ["PLATFORM_PROFILE"] key = true → failed = true)
    (hkey : key ∈ scan.restore.map Prod.fst) (hnew : key ∉ visited) :
    LoopFacts inventory file scan (visited ++ [key])
      { st.retain key reason with platformFailed := failed } t' := by
  have hin : key ∈ (st.retain key reason).unresolved := by simp [Restoration.retain]
  refine h.visit hrestoring (fun k => ?_) (fun k => ?_) (fun _ _ _ => .inl hin)
    (fun e he hid hdone hnot => ?_)
    hflag (fun _ => hkeyFlag) (fun _ hdone => hdone) hkey hnew fun hdone hnot => absurd hdone hnot
  · constructor
    · exact .inl
    · rintro (hk | ⟨rfl, hk⟩)
      · exact hk
      · exact hk
  · simp only [Restoration.retain, mem_insert_iff, true_or, and_true]
    exact or_comm
  · obtain ⟨-, later, hlater, -⟩ := hrestoring
    rw [hlater]
    exact (h.completed e he (hid ▸ hdone) (hid ▸ hnot)).append later

/-- The restoring loop at one control. -/
theorem wp_restoreOne_observed (hplain : inventory.PlainSelectors)
    (hentries : ∀ kv ∈ scan.restore, ∃ e ∈ file.entries, e.id = kv.1 ∧ e.before = kv.2)
    (hnodup : file.ids.Nodup) (h : LoopFacts inventory file scan visited st t)
    (hnew : key ∉ visited) (hvalue : scan.restore.lookup key = some value)
    (hturn : Turn inventory scan.restore visited key)
    (hpassive : ∀ t, G t held (.read key))
    (hwrite : st.Admits inventory key value → ∀ t' op, t.Restoring t' key value →
      Request.Puts key value op → G t' held op) :
    wp observed G (restoreOne inventory st key value)
      (outcome
        (fun st' s' t' => s' = held ∧ LoopFacts inventory file scan (visited ++ [key]) st' t')
        fun _ s' t' => s' = held ∧ t'.file.baselines = file.baselines) held t := by
  have hmem := mem_of_lookup hvalue
  have hkey : key ∈ scan.restore.map Prod.fst := mem_map_of_mem hmem
  obtain ⟨e₀, he₀, hid₀, hbefore₀⟩ := hentries _ hmem
  have hentry : ∀ e ∈ file.entries, e.id = key → e.before = value := by
    intro e he hid
    rw [inj_on_of_nodup_map hnodup he he₀ (hid.trans hid₀.symm)]
    exact hbefore₀
  unfold restoreOne
  cases hget : inventory.get? key with
  | none => exact ⟨rfl, h.kept⟩
  | some knob =>
    dsimp only
    by_cases hfailed : st.platformFailed = true
    · rw [if_pos hfailed]
      exact ⟨rfl, h.retain (.refl t key value) _ (fun hf => hf) (fun _ => hfailed) hkey hnew⟩
    rw [if_neg hfailed]
    rw [Bool.not_eq_true] at hfailed
    have hfirmware : knob.setting ≠ "PLATFORM_PROFILE" →
        inventory.hasSetting ["PLATFORM_PROFILE"] key = true → False := by
      intro hne hset
      obtain ⟨knob', hknob', hset'⟩ := Inventory.hasSetting_iff.mp hset
      rw [hget, Option.some.injEq] at hknob'
      exact hne (hknob' ▸ hset')
    by_cases hkeep : knob.setting = "PERSISTENCE_MODE" ∧ value = .int 0 ∧
        st.unresolved.any (startsWith · (beforeFirst key '/' ++ "/"))
    · rw [if_pos hkeep]
      refine ⟨rfl, h.retain (.refl t key value) _ (fun hf => hf) (fun hset => ?_) hkey hnew⟩
      exact (hfirmware (by rw [hkeep.1]; decide) hset).elim
    rw [if_neg hkeep]
    have hoff : SwitchesOff inventory key value →
        ∀ k ∈ st.unresolved, startsWith k (devicePrefix key) = false := by
      rintro ⟨hset, hzero⟩ k hk
      obtain ⟨knob', hknob', hset'⟩ := Inventory.hasSetting_iff.mp hset
      rw [hget, Option.some.injEq] at hknob'
      subst hknob'
      by_contra hstarts
      refine hkeep ⟨hset', hzero, any_eq_true.mpr ⟨k, hk, ?_⟩⟩
      simpa [devicePrefix] using hstarts
    simp only [wp_handleIf, wp_bind]
    refine wp_mono (wp_writeBack_observed hget hpassive (hwrite ⟨hfailed, hoff⟩)) ?_
    rintro (err | _) s' t' ⟨rfl, hrestoring, hdone⟩
    · simp only [outcome_error]
      by_cases hcaught : err.isCaught = true
      · rw [if_pos hcaught, wp_pure, outcome_ok]
        refine ⟨rfl, ?_⟩
        split
        case isTrue hset =>
          exact h.retain hrestoring err.text (fun _ => rfl) (fun _ => rfl) hkey hnew
        case isFalse hset =>
          exact h.retain hrestoring err.text (fun hf => hf) (fun hf => (hfirmware hset hf).elim)
            hkey hnew
      · rw [if_neg hcaught]
        exact ⟨trivial, by rw [hrestoring.file]; exact h.kept⟩
    · rw [outcome_ok, wp_pure, outcome_ok]
      have hresolved : ∀ e ∈ file.entries, e.id = key → Resolved inventory t'.log e :=
        fun e he hid => (hdone rfl e hid (hentry e he hid)).resolved
      refine ⟨rfl, h.visit hrestoring (fun k => ?_) (fun k => ?_)
        (fun e he hid => .inr ⟨mem_insert_self, hresolved e he hid⟩)
        (fun e he hid _ _ => hresolved e he hid) (fun hf => hf)
        (fun hk hset => h.flagged key hk hset)
        (fun hf => by rw [hfailed] at hf; cases hf) hkey hnew ?_⟩
      · simp only [mem_insert_iff, true_or, and_true]
        exact or_comm
      · exact ⟨.inl, fun hk => hk.elim (fun h => h) fun hk => hk.1 ▸ hk.2⟩
      · rintro - - ⟨value', hvalue', hoff'⟩
        rw [hvalue, Option.some.injEq] at hvalue'
        subst hvalue'
        refine ⟨fun k hk hother => hturn.persistence hplain hoff' hvalue hk hother, ?_⟩
        intro k hk hstarts
        rw [hoff hoff' k hk] at hstarts
        cases hstarts

/-- A control of which nothing else is left before it, or before its partner, has its turn. -/
theorem Foremost.turn {lead : String} {values : List (String × Value)}
    (h : Foremost inventory values visited lead)
    (hlead : lead = key ∨ inventory.PairEnds lead key ∨ inventory.PairEnds key lead)
    (more : List String) : Turn inventory values (visited ++ more) key :=
  ⟨lead, hlead, fun k hk => (h k hk).imp (mem_append_left _) .inr⟩

/-- An answered reading is no trouble. -/
theorem Untroubled.read {log : List Exchange} (h : Untroubled log key) (id : String)
    {answer : Except Failure Value} (hok : ∃ value, answer = .ok value) :
    Untroubled (log ++ [⟨.read id, answer⟩]) key := by
  refine ⟨fun x hx => ?_, fun reply hreply => ?_⟩
  · rcases mem_append.mp hx with hx | hx
    · exact h.1 x hx
    · rw [mem_singleton.mp hx]
      simp [Request.target]
  · rw [readings_append, readings_read] at hreply
    rcases mem_append.mp hreply with hreply | hreply
    · exact h.2 reply hreply
    · split at hreply
      · rwa [mem_singleton.mp hreply]
      · cases hreply

/-- Other exchanges change nothing about what is known, while the controls still to come stay
untroubled. -/
theorem LoopFacts.grow (h : LoopFacts inventory file scan visited st t) {more : List Exchange}
    (hfile : t'.file.baselines = file.baselines) (hlog : t'.log = t.log ++ more)
    (hfresh : ∀ k ∈ scan.restore.map Prod.fst, k ∉ visited → Untroubled t'.log k) :
    LoopFacts inventory file scan visited st t' where
  kept := hfile
  known := h.known
  given k hk := by
    obtain ⟨e, he, hid, hup⟩ := h.given k hk
    exact ⟨e, he, hid, hlog ▸ hup.append more⟩
  inherited := h.inherited
  yields := h.yields
  within := h.within
  settled e he hvisit := (h.settled e he hvisit).imp_right fun hdone =>
    ⟨hdone.1, hlog ▸ hdone.2.append more⟩
  completed e he hdone hnot := hlog ▸ (h.completed e he hdone hnot).append more
  flagged := h.flagged
  barred := h.barred
  fresh := hfresh
  released := h.released

/-- The rule of the restoring loop, on the log: what holds of every write that it may issue, and
what it has done when it comes to its end. -/
theorem wp_restoringLoop (hplain : inventory.PlainSelectors)
    (hentries : ∀ kv ∈ scan.restore, ∃ e ∈ file.entries, e.id = kv.1 ∧ e.before = kv.2)
    (hnodup : file.ids.Nodup) (hkeys : (scan.restore.map Prod.fst).Nodup)
    (hknown : ∀ key ∈ scan.restore.map Prod.fst, (inventory.get? key).isSome)
    (hstart : LoopFacts inventory file scan [] (scan.start inventory file) t)
    (hpassive : ∀ t id, G t held (.read id))
    (hwrite : ∀ visited st t key value, LoopFacts inventory file scan visited st t →
      key ∉ visited → scan.restore.lookup key = some value →
      Turn inventory scan.restore visited key → st.Admits inventory key value →
      ∀ t' op, t.Restoring t' key value → Request.Puts key value op → G t' held op) :
    wp observed G
      (ordered inventory scan.restore (scan.start inventory file) (restoreOne inventory))
      (outcome
        (fun st s' t' => s' = held ∧ ∃ visited, visited.Perm (scan.restore.map Prod.fst) ∧
          LoopFacts inventory file scan visited st t')
        fun _ s' t' => s' = held ∧ t'.file.baselines = file.baselines) held t := by
  have hone : ∀ visited st t key value, LoopFacts inventory file scan visited st t →
      key ∉ visited → scan.restore.lookup key = some value →
      Turn inventory scan.restore visited key →
      wp observed G (restoreOne inventory st key value)
        (outcome
          (fun st' s' t' => s' = held ∧ LoopFacts inventory file scan (visited ++ [key]) st' t')
          fun _ s' t' => s' = held ∧ t'.file.baselines = file.baselines) held t :=
    fun visited st t key value h hnew hvalue hturn =>
      wp_restoreOne_observed hplain hentries hnodup h hnew hvalue hturn (fun t => hpassive t key)
        (hwrite visited st t key value h hnew hvalue hturn)
  have hboth : ∀ visited st t first second v v' lead, LoopFacts inventory file scan visited st t →
      first ∉ visited → second ∉ visited → second ≠ first →
      scan.restore.lookup first = some v → scan.restore.lookup second = some v' →
      Foremost inventory scan.restore visited lead →
      (lead = first ∨ inventory.PairEnds lead first ∨ inventory.PairEnds first lead) →
      (lead = second ∨ inventory.PairEnds lead second ∨ inventory.PairEnds second lead) →
      wp observed G
        (restoreOne inventory st first v >>= fun st' => restoreOne inventory st' second v')
        (outcome
          (fun st' s' t' => s' = held ∧
            LoopFacts inventory file scan (visited ++ [first, second]) st' t')
          fun _ s' t' => s' = held ∧ t'.file.baselines = file.baselines) held t := by
    intro visited st t first second v v' lead h hfirst hsecond hne hv hv' hlead hlead₁ hlead₂
    rw [wp_bind]
    have hturn : Turn inventory scan.restore visited first := by
      simpa using hlead.turn hlead₁ []
    refine wp_mono (hone visited st t first v h hfirst hv hturn) ?_
    rintro (err | st') s' t' hst
    · exact hst
    · obtain ⟨rfl, hfacts⟩ := hst
      have hnew : second ∉ visited ++ [first] := by simp [hsecond, hne]
      have hturn₂ := hlead.turn hlead₂ [first]
      simpa using hone (visited ++ [first]) st' t' second v' hfacts hnew hv' hturn₂
  refine wp_orderedPositions hkeys hknown
    (fun visited st s' t' => s' = held ∧ LoopFacts inventory file scan visited st t')
    ⟨rfl, hstart⟩ ?_ ?_ ?_
  · rintro visited st s' t' key value ⟨rfl, h⟩ hnew hvalue hfirst -
    have hturn : Turn inventory scan.restore visited key := by
      simpa using hfirst.turn (.inl rfl) []
    exact hone visited st t' key value h hnew hvalue hturn
  · rintro visited st s' t' lo hi low high ⟨rfl, h⟩ hends hlo hhi hlow hhigh hfirst
    refine ⟨hpassive t' hi, fun answer t'' hanswer => ?_⟩
    obtain ⟨hfile, hlog⟩ := hanswer
    have hfile' : t''.file = t'.file := hfile
    refine ⟨fun err _ => ⟨rfl, by rw [hfile']; exact h.kept⟩, fun current hcurrent => ?_⟩
    have hfacts := h.grow (by rw [hfile']; exact h.kept) hlog fun k hk hnot =>
      hlog ▸ (h.fresh k hk hnot).read hi ⟨current, hcurrent⟩
    have hne : lo ≠ hi := hends.ne
    rcases hfirst with hfirst | hfirst
    · exact ⟨fun _ => hboth visited st t'' hi lo high low lo hfacts hhi hlo hne hhigh hlow hfirst
          (.inr (.inl hends)) (.inl rfl),
        fun _ => hboth visited st t'' lo hi low high lo hfacts hlo hhi hne.symm hlow hhigh hfirst
          (.inl rfl) (.inr (.inl hends))⟩
    · exact ⟨fun _ => hboth visited st t'' hi lo high low hi hfacts hhi hlo hne hhigh hlow hfirst
          (.inl rfl) (.inr (.inr hends)),
        fun _ => hboth visited st t'' lo hi low high hi hfacts hlo hhi hne.symm hlow hhigh hfirst
          (.inr (.inr hends)) (.inl rfl)⟩
  · rintro visited st s' t' hperm ⟨rfl, h⟩
    exact ⟨rfl, visited, hperm, h⟩

end Loop

end Preseed.HardwareTuning
