import Preseed.HardwareTuning.Yield

/-!
# What a reset reports

Controls may read and change in any way here, and every operation may fail; a log of
the operations and their answers says what the reset has seen. A reset that returns
has found every control at its baseline after its last write, or names it as given up
to another manager. One that fails keeps the entry of every control that it neither
restored nor gave up.
-/

namespace Preseed.HardwareTuning

open Effects List

/-- An operation and its answer. -/
structure Exchange where
  /-- The operation. -/
  op : Request
  /-- What it returned or raised. -/
  answer : Except Failure op.Reply

/-- The journal file, and what has happened so far. -/
structure Trace where
  /-- The journal file. -/
  file : Journal
  /-- The operations and their answers, the oldest one first. -/
  log : List Exchange

/-- Hardware that anyone may change, with a log. -/
def observed : Environment Hardware Journal Trace := fun t mem op answer t' =>
  anyone t.file mem op answer t'.file ∧ t'.log = t.log ++ [⟨op, answer⟩]

/-- What the exchange says of the value of a control. -/
def Exchange.reading? (key : String) : Exchange → Option (Except Failure Value)
  | ⟨.read id, answer⟩ => if id = key then some answer else none
  | _ => none

/-- What reading a control has answered, the oldest answer first. -/
def readings (log : List Exchange) (key : String) : List (Except Failure Value) :=
  log.filterMap (Exchange.reading? key)

/-- The control was read after the last write to any control, and its last reading is the value. -/
def Holds (log : List Exchange) (key : String) (value : Value) : Prop :=
  ∃ earlier later, log = earlier ++ later ∧ (∀ x ∈ later, x.op.target = none) ∧
    (readings later key).getLast? = some (.ok value)

/-- The value was written back to the control. -/
def Written (log : List Exchange) (key : String) (value : Value) : Prop :=
  ∃ x ∈ log, x.op.Puts key value ∧ ∃ reply, x.answer = .ok reply

/-- The control of an entry has been restored: it reads its baseline, or it cannot be read and
its baseline was written back. -/
def Restored (inventory : Inventory) (log : List Exchange) (e : Entry) : Prop :=
  if inventory.restorable e.id then Holds log e.id e.before else Written log e.id e.before

/-- Another manager has changed the control of a settled entry: the first reading is not the last
value the engine left. -/
def Changed (inventory : Inventory) (log : List Exchange) (e : Entry) : Prop :=
  e.pending = false ∧ inventory.restorable e.id ∧
    ∃ value, (readings log e.id).head? = some (.ok value) ∧ some value ≠ e.last

/-- The controls belong to one domain: the firmware profile's, or the CPU policy. -/
def Coupled (inventory : Inventory) (file : Journal) (key other : String) : Prop :=
  platformOwned inventory file ∨
    inventory.hasSetting CPU_POLICY key ∧ inventory.hasSetting CPU_POLICY other

/-- The control of an entry is given up: it was changed, or is coupled to one that was. -/
def GivenUp (inventory : Inventory) (file : Journal) (log : List Exchange) (e : Entry) : Prop :=
  ∃ e' ∈ file.entries, Changed inventory log e' ∧ (e' = e ∨ Coupled inventory file e'.id e.id)

/-- The controls of a journal with their baselines. -/
def Journal.baselines (journal : Journal) : List (String × Value) :=
  journal.entries.map fun e => (e.id, e.before)

section Log

variable {log : List Exchange} {key : String} {value : Value}

@[simp] theorem readings_append (log later : List Exchange) (key : String) :
    readings (log ++ later) key = readings log key ++ readings later key :=
  filterMap_append

/-- A reading is answered for its own control. -/
@[simp] theorem readings_read (id key : String) (answer : Except Failure Value) :
    readings [⟨.read id, answer⟩] key = if id = key then [answer] else [] := by
  by_cases h : id = key <;> simp [readings, Exchange.reading?, h]

/-- A control holds the value that it has just been read to have. -/
theorem holds_read (log : List Exchange) (key : String) {value : Value}
    {answer : Except Failure Value} (h : answer = .ok value) :
    Holds (log ++ [⟨.read key, answer⟩]) key value :=
  ⟨log, [⟨.read key, answer⟩], rfl, by simp [Request.target], by simp [h]⟩

/-- Reading another control changes nothing about this one. -/
theorem Holds.read (h : Holds log key value) {id : String} (hne : id ≠ key)
    (answer : Except Failure Value) : Holds (log ++ [⟨.read id, answer⟩]) key value := by
  obtain ⟨earlier, later, rfl, hpassive, hlast⟩ := h
  refine ⟨earlier, later ++ [⟨.read id, answer⟩], by simp, fun x hx => ?_, by simp [hne, hlast]⟩
  rcases mem_append.mp hx with hx | hx
  · exact hpassive x hx
  · rw [mem_singleton.mp hx]
    rfl

/-- A save changes nothing about a control. -/
theorem Holds.save (h : Holds log key value) (journal : Journal) (answer : Except Failure Unit) :
    Holds (log ++ [⟨.save journal, answer⟩]) key value := by
  obtain ⟨earlier, later, rfl, hpassive, hlast⟩ := h
  refine ⟨earlier, later ++ [⟨.save journal, answer⟩], by simp, fun x hx => ?_, ?_⟩
  · rcases mem_append.mp hx with hx | hx
    · exact hpassive x hx
    · rw [mem_singleton.mp hx]
      rfl
  · rw [readings_append, show readings [⟨.save journal, answer⟩] key = [] from rfl]
    simpa using hlast

/-- What was written back stays so. -/
theorem Written.append (h : Written log key value) (later : List Exchange) :
    Written (log ++ later) key value := by
  obtain ⟨x, hx, hputs, hok⟩ := h
  exact ⟨x, mem_append_left _ hx, hputs, hok⟩

/-- The first reading stays the first one. -/
theorem Changed.append {inventory : Inventory} {e : Entry} (h : Changed inventory log e)
    (later : List Exchange) : Changed inventory (log ++ later) e := by
  obtain ⟨hpending, hrestorable, value, hfirst, hne⟩ := h
  refine ⟨hpending, hrestorable, value, ?_, hne⟩
  rw [readings_append, head?_append_of_ne_nil _ fun h => by simp [h] at hfirst]
  exact hfirst

theorem GivenUp.append {inventory : Inventory} {file : Journal} {e : Entry}
    (h : GivenUp inventory file log e) (later : List Exchange) :
    GivenUp inventory file (log ++ later) e := by
  obtain ⟨e', he', hchanged, hcoupled⟩ := h
  exact ⟨e', he', hchanged.append later, hcoupled⟩

end Log

/-- Marking entries keeps the baselines. -/
theorem Journal.baselines_update (journal : Journal) (keys : List String) {f : Entry → Entry}
    (hf : ∀ e, (f e).id = e.id ∧ (f e).before = e.before) :
    (journal.update keys f).baselines = journal.baselines := by
  simp only [Journal.baselines, Journal.update, map_map]
  refine map_congr_left fun e _ => ?_
  by_cases h : e.id ∈ keys <;> simp [h, hf]

/-- A dropped control is one of those dropped. -/
theorem Journal.mem_baselines_without {journal : Journal} {complete : List String} {e : Entry}
    (he : (e.id, e.before) ∈ journal.baselines) (hnot : e.id ∉ complete) :
    (e.id, e.before) ∈ (journal.without complete).baselines := by
  obtain ⟨e', he', heq⟩ := mem_map.mp he
  simp only [Prod.mk.injEq] at heq
  refine mem_map.mpr ⟨e', mem_filter.mpr ⟨he', ?_⟩, by simp [heq]⟩
  simpa [heq.1] using hnot

section Restored

variable {inventory : Inventory} {log : List Exchange} {e : Entry}

/-- Reading another control keeps an entry restored. -/
theorem Restored.read (h : Restored inventory log e) {id : String} (hne : id ≠ e.id)
    (answer : Except Failure Value) : Restored inventory (log ++ [⟨.read id, answer⟩]) e := by
  unfold Restored at h ⊢
  split
  case isTrue hreadable => exact Holds.read (by simpa [hreadable] using h) hne answer
  case isFalse hfixed => exact Written.append (by simpa [hfixed] using h) _

/-- A save keeps an entry restored. -/
theorem Restored.save (h : Restored inventory log e) (journal : Journal)
    (answer : Except Failure Unit) : Restored inventory (log ++ [⟨.save journal, answer⟩]) e := by
  unfold Restored at h ⊢
  split
  case isTrue hreadable => exact Holds.save (by simpa [hreadable] using h) journal answer
  case isFalse hfixed => exact Written.append (by simpa [hfixed] using h) _

/-- A yielded control was changed, or is coupled to one that was. -/
theorem Scan.Sorts.givenUp {file : Journal} {scan : Scan}
    (h : scan.Sorts inventory (fun e answer => (readings log e.id).head? = some answer) file.entries)
    {key : String} (hkey : key ∈ (yieldDomains inventory file scan).yielded) :
    ∃ e ∈ file.entries, e.id = key ∧ GivenUp inventory file log e := by
  have hchanged : ∀ key ∈ scan.yielded, ∃ e ∈ file.entries, e.id = key ∧
      Changed inventory log e := by
    intro key hkey
    obtain ⟨e, he, rfl, hpending, hrestorable, value, hfirst, hne⟩ := h.yielded key hkey
    exact ⟨e, he, rfl, hpending, hrestorable, value, hfirst, hne⟩
  rcases mem_append.mp hkey with hkey | hkey
  · obtain ⟨e, he, hid, hc⟩ := hchanged key hkey
    exact ⟨e, he, hid, e, he, hc, .inl rfl⟩
  · obtain ⟨hmem, hgiven⟩ := mem_filter.mp hkey
    obtain ⟨kv, hkv, rfl⟩ := mem_map.mp hmem
    obtain ⟨e, he, hid, -⟩ := h.restore kv hkv
    refine ⟨e, he, hid, ?_⟩
    simp only [HardwareTuning.givenUp, Bool.or_eq_true, Bool.and_eq_true, any_eq_true,
      Bool.not_eq_true'] at hgiven
    rcases hgiven with ⟨howned, hsome⟩ | ⟨⟨k, hk, hcpu⟩, hcpu'⟩
    · obtain ⟨k, hk⟩ := exists_mem_of_ne_nil scan.yielded (by simpa using hsome)
      obtain ⟨e', he', -, hc⟩ := hchanged k hk
      exact ⟨e', he', hc, .inr (.inl howned)⟩
    · obtain ⟨e', he', rfl, hc⟩ := hchanged k hk
      exact ⟨e', he', hc, .inr (.inr ⟨hcpu, hid ▸ hcpu'⟩)⟩

end Restored

/-- What is left of an entry of the journal after a reset, if it is left. -/
def Retained (mem : Journal) (t : Trace) (e : Entry) : Prop :=
  (e.id, e.before) ∈ mem.baselines ∧ (e.id, e.before) ∈ t.file.baselines

/-- The accounts of a reset: what its report, or its failure, says about the journal. -/
structure Accounts (inventory : Inventory) (file : Journal) (x : Except Failure ResetReport)
    (mem : Journal) (t : Trace) : Prop where
  /-- A reset that returns has emptied the journal. -/
  emptied : ∀ report, x = .ok report → mem.entries = [] ∧ t.file.entries = []
  /-- It has restored every entry, or lists it as given up. -/
  restored : ∀ report, x = .ok report → ∀ e ∈ file.entries, Restored inventory t.log e ∨
    e.id ∈ report.externalValuesPreserved ∧ GivenUp inventory file t.log e
  /-- It lists nothing else. -/
  listed : ∀ report, x = .ok report → ∀ key ∈ report.externalValuesPreserved,
    ∃ e ∈ file.entries, e.id = key ∧ GivenUp inventory file t.log e
  /-- One that fails keeps every entry that it neither restored nor gave up. -/
  retained : ∀ err, x = .error err → ∀ e ∈ file.entries, Restored inventory t.log e ∨
    GivenUp inventory file t.log e ∨ Retained mem t e

/-- A failure that drops no entry. -/
theorem Accounts.of_retained {inventory : Inventory} {file mem : Journal} {t : Trace}
    (err : Failure) (hmem : mem.baselines = file.baselines)
    (hfile : file.baselines ⊆ t.file.baselines) :
    Accounts inventory file (.error err) mem t where
  emptied := by simp
  restored := by simp
  listed := by simp
  retained _ _ e he := by
    have hbase : (e.id, e.before) ∈ file.baselines := mem_map_of_mem he
    exact .inr (.inr ⟨hmem ▸ hbase, hfile hbase⟩)

/-- The situation of the second half of a reset: the log has grown from the one of the first pass,
the journal file keeps its baselines, and the verified controls are restored. -/
structure Reporting (inventory : Inventory) (file : Journal) (base : List Exchange)
    (verified : List String) (t : Trace) : Prop where
  /-- The first pass is on the log. -/
  grown : ∃ later, t.log = base ++ later
  /-- The file has its baselines. -/
  kept : file.baselines ⊆ t.file.baselines
  /-- The verified controls are restored. -/
  verified : ∀ key ∈ verified, ∃ e ∈ file.entries, e.id = key ∧ Restored inventory t.log e

/-- The first pass of a reset, on the log. -/
theorem wp_scan_observed {inventory : Inventory} {file durable : Journal}
    (hnodup : file.ids.Nodup) :
    wp observed unguarded (Act.fold (scanOne inventory) ⟨[], [], []⟩ file.entries)
      (fun x s' t => s' = file ∧ t.file = durable ∧ ∀ scan, x = .ok scan →
        scan.Sorts inventory (fun e answer => (readings t.log e.id).head? = some answer)
          file.entries) file ⟨durable, []⟩ := by
  refine wp_mono (wp_scanning
    (fun seen t => t.file = durable ∧ ∀ e ∈ file.entries, e ∉ seen → readings t.log e.id = [])
    (fun t e answer => (readings t.log e.id).head? = some answer)
    ⟨rfl, fun _ _ _ => rfl⟩ ?_ ?_) ?_
  · rintro seen e rest - t ⟨hfile, hunread⟩
    exact ⟨hfile, fun e' he' hnot => hunread e' he' fun hmem => hnot (mem_append_left _ hmem)⟩
  · rintro seen e rest hsplit t ⟨hfile, hunread⟩
    refine ⟨trivial, fun answer t' h => ?_⟩
    obtain ⟨hfile', hlog⟩ := h
    have he : e ∈ file.entries := by simp [hsplit]
    have hnot : e ∉ seen := by
      have hentries := hnodup.of_map
      rw [hsplit, nodup_append] at hentries
      exact fun hmem => hentries.2.2 e hmem e mem_cons_self rfl
    refine ⟨⟨Eq.trans hfile' hfile, fun e' he' hnot' => ?_⟩, ?_, fun e' a ha => ?_⟩
    · have hne : e.id ≠ e'.id := fun hid => hnot' (by
        simp [inj_on_of_nodup_map hnodup he he' hid])
      rw [hlog, readings_append, hunread e' he' fun hmem => hnot' (mem_append_left _ hmem)]
      simp [hne]
    · rw [hlog, readings_append, hunread e he hnot]
      simp
    · rw [hlog, readings_append, head?_append_of_ne_nil _ fun hnil => by simp [hnil] at ha]
      exact ha
  · rintro x s' t ⟨rfl, ⟨_, hfile, -⟩, hok, -⟩
    exact ⟨rfl, hfile, fun scan hx => (hok scan hx).2⟩

/-- A reset keeps its accounts, whatever it reads and whatever fails. It starts from the journal in
memory, whose baselines are in the journal file. -/
theorem wp_reset_observed {inventory : Inventory} {file durable : Journal} (hnodup : file.ids.Nodup)
    (hdurable : file.baselines ⊆ durable.baselines) :
    wp observed unguarded (reset inventory) (Accounts inventory file) file
      ⟨durable, []⟩ := by
  unfold reset resetCore
  simp only [wp_bind, wp_get, outcome_ok]
  refine wp_mono (wp_scan_observed hnodup) ?_
  rintro (err | scan) s' t ⟨rfl, hfile, hsorts⟩
  · exact .of_retained err rfl (hfile ▸ hdurable)
  have hsorts := hsorts scan rfl
  set y := yieldDomains inventory s' scan with hy
  set held := s'.update (y.restore.map Prod.fst) Entry.markPending with hheld
  have hbase : held.baselines = s'.baselines :=
    Journal.baselines_update s' _ fun _ => ⟨rfl, rfl⟩
  have hids : held.ids = s'.ids := Journal.update_ids s' _ _ fun _ => rfl
  have hrestore : ∀ kv ∈ y.restore, ∃ e ∈ s'.entries, e.id = kv.1 ∧ e.before = kv.2 ∧
      (inventory.get? e.id).isSome :=
    fun kv hkv => hsorts.restore kv (restore_yieldDomains_subset hkv)
  have hstart : Reporting inventory s' t.log [] t := ⟨⟨[], by simp⟩, hfile ▸ hdurable, by simp⟩
  rw [outcome_ok]
  refine wp_restoreScanned (I := Reporting inventory s' t.log)
    (fun key t => ∃ e ∈ s'.entries, e.id = key ∧ Written t.log key e.before)
    (Eq.refl y.restore) rfl (Eq.refl held) ((order_yieldDomains hsorts.order).nodup hnodup)
    ?_ (fun _ => hstart) ?_ ?_ ?_ ?_ ?_ ?_ ?_ ?_
  · intro key hkey
    obtain ⟨kv, hkv, rfl⟩ := mem_map.mp hkey
    obtain ⟨e, -, hid, -, hknown⟩ := hrestore kv hkv
    rwa [← hid]
  · refine fun _ => ⟨trivial, fun answer t' h => ?_⟩
    obtain ⟨hcases, hlog⟩ := h
    have hkept : s'.baselines ⊆ t'.file.baselines := by
      rcases hcases with hnew | ⟨-, hsame⟩
      · rw [hnew, hbase]
        exact List.Subset.refl _
      · rw [hsame, hfile]
        exact hdurable
    exact ⟨fun e _ => .of_retained e hbase hkept, fun _ => ⟨⟨_, hlog⟩, hkept, by simp⟩⟩
  · rintro kv hkv op hputs t₁ reply t₂ - ⟨-, hlog⟩
    obtain ⟨e, he, hid, hbefore, -⟩ := hrestore kv hkv
    refine ⟨e, he, hid, ?_⟩
    rw [hlog, hbefore]
    exact ⟨⟨op, .ok reply⟩, by simp, hputs, reply, rfl⟩
  · rintro key op t₁ answer t₂ ⟨-, hlog⟩ ⟨e, he, hid, hwritten⟩
    exact ⟨e, he, hid, hlog ▸ hwritten.append _⟩
  · rintro key verified t₁ hnew ⟨⟨later, hgrown⟩, hkept, hver⟩
    refine ⟨trivial, fun answer t₂ h => ?_⟩
    obtain ⟨hfile', hlog⟩ := h
    have hreporting : Reporting inventory s' t.log verified t₂ := by
      refine ⟨⟨later ++ [⟨.read key, answer⟩], by rw [hlog, hgrown, append_assoc]⟩, ?_, ?_⟩
      · rw [show t₂.file = t₁.file from hfile']
        exact hkept
      · intro k hk
        obtain ⟨e, he, rfl, hrestored⟩ := hver k hk
        refine ⟨e, he, rfl, ?_⟩
        rw [hlog]
        exact hrestored.read (fun heq : key = e.id => hnew (heq ▸ hk)) answer
    refine ⟨hreporting, fun hreadable entry hentry hanswer =>
      ⟨hreporting.grown, hreporting.kept, ?_⟩⟩
    obtain ⟨hmem, rfl⟩ := Journal.entry?_eq_some hentry
    intro k hk
    rcases mem_cons.mp hk with rfl | hk
    · refine ⟨entry, hmem, rfl, ?_⟩
      unfold Restored
      rw [if_pos hreadable, hlog]
      exact holds_read _ _ hanswer
    · exact hreporting.verified k hk
  · rintro key verified t₁ hfixed ⟨e, he, hid, hwritten⟩ ⟨hgrown, hkept, hver⟩
    refine ⟨hgrown, hkept, fun k hk => ?_⟩
    rcases mem_cons.mp hk with rfl | hk
    · refine ⟨e, he, hid, ?_⟩
      unfold Restored
      rw [if_neg (by simp [hid, hfixed])]
      exact hid ▸ hwritten
    · exact hver k hk
  · rintro key - op htarget t₁ ⟨⟨later, hgrown⟩, hkept, -⟩
    refine ⟨trivial, fun answer t₂ h => ?_⟩
    obtain ⟨hfile', hlog⟩ := h
    refine ⟨⟨later ++ [⟨op, answer⟩], by rw [hlog, hgrown, append_assoc]⟩, ?_, by simp⟩
    cases op with
    | write | writeMaximum | restoreValue =>
      rw [show t₂.file = t₁.file from hfile']
      exact hkept
    | read | save | temperature | checkOwnership => cases htarget
  · exact fun e _ t₁ h => .of_retained e hbase h.kept
  · rintro done verified t₁ ⟨⟨later, hgrown⟩, hkept, hver⟩ hbooks hcomplete
    refine ⟨trivial, fun answer t₂ h => ?_⟩
    obtain ⟨hcases, hlog⟩ := h
    have hlater : t₂.log = t.log ++
        (later ++ [⟨.save (held.without done.complete), answer⟩]) := by
      rw [hlog, hgrown, append_assoc]
    have hgiven : ∀ key ∈ y.yielded, ∃ e ∈ s'.entries, e.id = key ∧
        GivenUp inventory s' t₂.log e := by
      intro key hkey
      obtain ⟨e, he, hid, hup⟩ := hsorts.givenUp hkey
      exact ⟨e, he, hid, hlater ▸ hup.append _⟩
    have hsame : ∀ e ∈ s'.entries, ∀ e' ∈ s'.entries, e'.id = e.id → e' = e :=
      fun e he e' he' hid => inj_on_of_nodup_map hnodup he' he hid
    have hdropped : ∀ e ∈ s'.entries, e.id ∈ done.complete →
        Restored inventory t₂.log e ∨ e.id ∈ y.yielded ∧ GivenUp inventory s' t₂.log e := by
      intro e he hmem
      rcases hcomplete e.id hmem with hyield | hverified
      · obtain ⟨e', he', hid, hup⟩ := hgiven e.id hyield
        exact .inr ⟨hyield, hsame e he e' he' hid ▸ hup⟩
      · obtain ⟨e', he', hid, hrestored⟩ := hver e.id hverified
        obtain rfl := hsame e he e' he' hid
        rw [hlog]
        exact .inl (hrestored.save _ answer)
    -- Whatever becomes of the save, only the completed controls are dropped.
    have hfails : ∀ err, Accounts inventory s' (.error err) (held.without done.complete) t₂ := by
      intro err
      refine ⟨by simp, by simp, by simp, fun _ _ e he => ?_⟩
      by_cases hmem : e.id ∈ done.complete
      · rcases hdropped e he hmem with h | ⟨-, h⟩
        · exact .inl h
        · exact .inr (.inl h)
      · have hin : (e.id, e.before) ∈ s'.baselines := mem_map_of_mem he
        have hleft := Journal.mem_baselines_without (hbase ▸ hin) hmem
        refine .inr (.inr ⟨hleft, ?_⟩)
        rcases hcases with hnew | ⟨-, hold⟩
        · rwa [hnew]
        · rw [hold]
          exact hkept hin
    refine ⟨fun e _ => hfails e, ?_⟩
    rintro rfl
    rcases hcases with hnew | ⟨⟨_, herr⟩, -⟩
    swap
    · cases herr
    rw [outcome_ok]
    split
    case isFalse => exact hfails _
    case isTrue hclean =>
      have hall : ∀ e ∈ s'.entries, e.id ∈ done.complete := hbooks.all hsorts hclean
      have hempty : (held.without done.complete).entries = [] := by
        refine Journal.without_eq_nil fun key hkey => ?_
        rw [hids] at hkey
        obtain ⟨e, he, rfl⟩ := mem_map.mp hkey
        exact hall e he
      refine ⟨fun _ _ => ⟨hempty, by rw [hnew]; exact hempty⟩, ?_, ?_, by simp⟩
      · rintro _ ⟨⟩ e he
        rcases hdropped e he (hall e he) with h | ⟨hyield, h⟩
        · exact .inl h
        · exact .inr ⟨mem_sortedKeys.mpr (by rwa [hbooks.yielded]), h⟩
      · rintro _ ⟨⟩ key hkey
        rw [mem_sortedKeys, hbooks.yielded] at hkey
        exact hgiven key hkey

end Preseed.HardwareTuning
