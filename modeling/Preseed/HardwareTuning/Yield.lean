import Preseed.HardwareTuning.Baseline

/-!
# Yielding the CPU policy

Here other managers may change every control at any time and every operation may fail,
so that readings are arbitrary; only the journal file is the engine's own. A reset
attempt that finds a member of the CPU policy changed gives up the whole domain. A
member it could not read stays in the journal, though, and the next attempt decides
about it afresh.
-/

namespace Preseed.HardwareTuning

open Effects

/-- Hardware that anyone may change, above the engine's journal file. -/
def anyone : Environment Hardware Journal Journal := fun file _ op =>
  match op with
  | .save journal => fun (answer : Except Failure Unit) file' =>
    file' = journal ∨ (∃ e, answer = .error e) ∧ file' = file
  | _ => fun _ file' => file' = file

/-- What is known of a reset attempt: the decision of its first pass, if it came to one, and
whether it came to the end of its final save. -/
structure AttemptRecord where
  /-- The decision of the first pass. -/
  scan : Option Scan
  /-- The final save is done. -/
  finished : Bool

/-- The attempt yields the CPU policy: a member was found changed. -/
def AttemptRecord.yieldsCpu (inventory : Inventory) (record : AttemptRecord) : Bool :=
  record.scan.any fun scan => scan.yielded.any (inventory.hasSetting CPU_POLICY)

/-- The attempt has read every journaled member of the CPU policy, and has finished. -/
def AttemptRecord.Complete (inventory : Inventory) (file : Journal) (record : AttemptRecord) :
    Prop :=
  record.finished = true ∧ ∀ scan, record.scan = some scan →
    ∀ key ∈ file.ids, inventory.hasSetting CPU_POLICY key →
      key ∈ scan.restore.map Prod.fst ∨ key ∈ scan.yielded

/-- The first pass of a reset of a journal file. -/
def firstPass (inventory : Inventory) (file : Journal) :
    Program Hardware Journal (Except Failure Scan × Journal) :=
  Act.fold (scanOne (inventory.adopt file)) ⟨[], [], []⟩ file.entries file

/-- A reset attempt on a journal file, stopped anywhere, with its record and the file it leaves. -/
inductive Attempt (inventory : Inventory) (file : Journal) : AttemptRecord → Journal → Prop
  | refused {e : Failure} (load : loadEngine inventory file = .error e) :
      Attempt inventory file ⟨none, false⟩ file
  | reading {file' : Journal} {p : Program Hardware Journal (Except Failure Scan × Journal)}
      (load : loadEngine inventory file = .ok (inventory.adopt file))
      (run : Program.Steps anyone file (firstPass inventory file) file' p) :
      Attempt inventory file ⟨none, false⟩ file'
  | restoring {file₁ file' : Journal} {scan : Scan}
      {p : Program Hardware Journal (Except Failure ResetOutcome × Journal)}
      (load : loadEngine inventory file = .ok (inventory.adopt file))
      (pass : Program.Steps anyone file (firstPass inventory file) file₁ (.done (.ok scan, file)))
      (run : Program.Steps anyone file₁ (restoreScanned (inventory.adopt file) file scan file)
        file' p) :
      Attempt inventory file ⟨some scan, p.result?.any fun x => x.1.isOk⟩ file'

/-- Reset attempts on the journal of one apply, one after the other. The flag says whether one of
them has yielded the CPU policy. Those that do are complete. -/
inductive Attempts (inventory : Inventory) (journal : Journal) : Bool → Journal → Prop
  | start : Attempts inventory journal false journal
  | attempt {yielded : Bool} {file file' : Journal} {record : AttemptRecord}
      (before : Attempts inventory journal yielded file)
      (next : Attempt inventory file record file')
      (complete : record.yieldsCpu inventory = true → record.Complete inventory file) :
      Attempts inventory journal (yielded || record.yieldsCpu inventory) file'

section

variable {inventory : Inventory} {file file' : Journal}

/-- Loading a journal changes no setting. -/
@[simp] theorem Inventory.hasSetting_adopt (settings : List String) (key : String) :
    (inventory.adopt file).hasSetting settings key = inventory.hasSetting settings key := by
  unfold Inventory.hasSetting
  rw [Inventory.get?_adopt, Option.any_map]
  congr 1
  funext knob
  obtain ⟨_, h⟩ := adopt_eq file knob
  simp [h]

/-- The journal file keeps some of its controls, and only those are written. -/
def Within (file : Journal) (file' : Journal) (op : Request) : Prop :=
  file'.ids ⊆ file.ids ∧ ∀ key, op.target = some key → key ∈ file.ids

/-- The first pass leaves the journal file as it is. -/
theorem wp_firstPass (inventory : Inventory) :
    Program.Safe anyone (fun file' _ op => Within file file' op)
      (fun x file' => file' = file ∧ ∀ scan, x.1 = .ok scan →
        x.2 = file ∧ scan.Sorts (inventory.adopt file) (fun _ _ => True) file.entries)
      (firstPass inventory file) file := by
  have hscan : wp anyone (fun file' _ op => Within file file' op)
      (Act.fold (scanOne (inventory.adopt file)) ⟨[], [], []⟩ file.entries) _ file file :=
    wp_scan (· = file) (fun _ _ => True) rfl fun e _ w hw => by
      refine ⟨⟨hw ▸ List.Subset.refl _, by simp [Request.target]⟩, fun answer w' h => ?_⟩
      exact ⟨h.trans hw, trivial⟩
  refine Program.Safe.mono hscan (fun _ _ _ _ _ h => h) (fun _ _ _ h => h) ?_
  rintro ⟨x, s'⟩ w' ⟨hs, hw, hsorts, -⟩
  exact ⟨hw, fun scan hx => ⟨hs, hsorts scan hx⟩⟩

/-- What the second half of a reset does to the journal file: only controls of the file are
written, and where the CPU policy is yielded by a complete attempt, none of it is left. -/
theorem wp_restoreScanned_anyone {scan : Scan} (hnodup : file.ids.Nodup)
    (hsorts : scan.Sorts (inventory.adopt file) (fun _ _ => True) file.entries) :
    wp anyone (fun file' _ op => Within file file' op)
      (restoreScanned (inventory.adopt file) file scan)
      (fun x _ file' => file'.ids ⊆ file.ids ∧ ∀ done, x = .ok done →
        (scan.yielded.any (inventory.hasSetting CPU_POLICY) = true →
          (∀ key ∈ file.ids, inventory.hasSetting CPU_POLICY key →
            key ∈ scan.restore.map Prod.fst ∨ key ∈ scan.yielded) →
          ∀ key ∈ file'.ids, inventory.hasSetting CPU_POLICY key = false)) file file := by
  set y := yieldDomains (inventory.adopt file) file scan with hy
  have hrestore : ∀ key ∈ y.restore.map Prod.fst, key ∈ file.ids ∧
      ((inventory.adopt file).get? key).isSome := by
    intro key hkey
    obtain ⟨kv, hkv, rfl⟩ := List.mem_map.mp hkey
    obtain ⟨e, he, hid, -, hknown⟩ := hsorts.restore kv (restore_yieldDomains_subset hkv)
    exact ⟨List.mem_map.mpr ⟨e, he, hid⟩, hid ▸ hknown⟩
  set held := file.update (y.restore.map Prod.fst) Entry.markPending with hheld
  have hids : held.ids = file.ids :=
    Journal.update_ids file (y.restore.map Prod.fst) Entry.markPending fun _ => rfl
  refine wp_restoreScanned (I := fun _ file' => file'.ids ⊆ file.ids) (fun _ _ => True)
    (Eq.refl y.restore) rfl (Eq.refl held) ((order_yieldDomains hsorts.order).nodup hnodup)
    (fun key hkey => (hrestore key hkey).2) (fun _ => List.Subset.refl _) ?_
    (fun _ _ _ _ _ _ _ _ _ => trivial) (fun _ _ _ _ _ _ _ => trivial) ?_ ?_ ?_ ?_ ?_
  · intro _
    refine ⟨⟨List.Subset.refl _, by simp [Request.target]⟩, fun answer w' h => ?_⟩
    have hsub : w'.ids ⊆ file.ids := by
      rcases h with rfl | ⟨-, rfl⟩
      · exact hids ▸ List.Subset.refl _
      · exact List.Subset.refl _
    exact ⟨fun e _ => ⟨hsub, by simp⟩, fun _ => hsub⟩
  · intro key verified w _ hw
    refine ⟨⟨hw, by simp [Request.target]⟩, fun answer w' h => ?_⟩
    have hsame : w' = w := h
    exact ⟨hsame ▸ hw, fun _ _ _ _ => hsame ▸ hw⟩
  · exact fun _ _ _ _ _ hw => hw
  · intro key hkey op htarget w hw
    refine ⟨⟨hw, fun key' htarget' => ?_⟩, fun answer w' h => ?_⟩
    · rw [htarget] at htarget'
      cases htarget'
      exact (hrestore key hkey).1
    · cases op with
      | write | writeMaximum | restoreValue =>
        have hsame : w' = w := h
        exact hsame ▸ hw
      | read | save | temperature | checkOwnership => cases htarget
  · exact fun _ _ _ hw => ⟨hw, by simp⟩
  · intro done verified w hw hbooks _
    have htrim : (held.without done.complete).ids ⊆ file.ids := by
      rw [← hids]
      exact List.map_subset _ (List.filter_subset_self _)
    refine ⟨⟨hw, by simp [Request.target]⟩, fun answer w' h => ?_⟩
    have hcases : w' = held.without done.complete ∨ (∃ e, answer = .error e) ∧ w' = w := h
    refine ⟨fun e _ => ⟨?_, by simp⟩, ?_⟩
    · rcases hcases with rfl | ⟨-, rfl⟩
      · exact htrim
      · exact hw
    · rintro rfl
      rcases hcases with rfl | ⟨⟨e, he⟩, -⟩
      swap
      · cases he
      refine ⟨htrim, ?_⟩
      rintro _ ⟨⟩ hyields hread key hkey
      by_contra hcpu
      rw [Bool.not_eq_false] at hcpu
      -- The control was given up with its domain, and dropped.
      have hgiven : givenUp (inventory.adopt file) file scan key = true := by
        unfold givenUp
        rw [show (inventory.adopt file).hasSetting CPU_POLICY = inventory.hasSetting CPU_POLICY from
          funext fun k => Inventory.hasSetting_adopt CPU_POLICY k]
        simp [hyields, hcpu]
      have hnot : key ∉ y.restore.map Prod.fst := by
        intro hmem
        obtain ⟨kv, hkv, rfl⟩ := List.mem_map.mp hmem
        have := (List.mem_filter.mp hkv).2
        simp [hgiven] at this
      have hyielded : key ∈ y.yielded :=
        (mem_yieldDomains (hread key (htrim hkey) hcpu)).resolve_left hnot
      obtain ⟨e, he, hid⟩ := List.mem_map.mp hkey
      have hkept := (List.mem_filter.mp he).2
      simp [hid, hbooks.yields key hyielded hnot] at hkept

/-- What one attempt does to the journal file. -/
theorem Attempt.file_subset {record : AttemptRecord} (h : Attempt inventory file record file') :
    file'.ids ⊆ file.ids ∧ (record.yieldsCpu inventory = true → record.Complete inventory file →
      ∀ key ∈ file'.ids, inventory.hasSetting CPU_POLICY key = false) := by
  cases h with
  | refused load => exact ⟨List.Subset.refl _, by simp [AttemptRecord.yieldsCpu]⟩
  | @reading _ p load run =>
    refine ⟨?_, by simp [AttemptRecord.yieldsCpu]⟩
    have hsafe := (wp_firstPass inventory).steps run
    cases p with
    | done x => exact hsafe.1 ▸ List.Subset.refl _
    | call mem op next => exact hsafe.1.1
  | @restoring file₁ _ scan p load pass run =>
    obtain ⟨rfl, hsorts⟩ := (wp_firstPass inventory).result pass
    have hsafe := Program.Safe.steps
      (wp_restoreScanned_anyone (loadEngine_ok load).2 (hsorts scan rfl).2) run
    cases p with
    | done x =>
      obtain ⟨hsub, hdone⟩ := hsafe
      refine ⟨hsub, fun hyields hcomplete => ?_⟩
      obtain ⟨x, s'⟩ := x
      cases x with
      | error e => simp [AttemptRecord.Complete, Program.result?, Except.isOk, Except.toBool] at hcomplete
      | ok done => exact hdone done rfl hyields (hcomplete.2 scan rfl)
    | call mem op next =>
      refine ⟨hsafe.1.1, fun _ hcomplete => ?_⟩
      simp [AttemptRecord.Complete, Program.result?] at hcomplete

/-- A reset process writes controls of its journal file only. -/
theorem reset_process_within :
    Program.Safe anyone (fun file' _ op => Within file file' op) (fun _ _ => True)
      (Command.reset.process inventory file) file := by
  unfold Command.process
  cases hload : loadEngine inventory file with
  | error e => trivial
  | ok loaded =>
    obtain ⟨rfl, hnodup⟩ := loadEngine_ok hload
    have hreset : wp anyone (fun file' _ op => Within file file' op)
        (Command.reset.run (inventory.adopt file)) (fun _ _ _ => True) file file := by
      unfold Command.run reset resetCore
      simp only [wp_bind, wp_get, outcome_ok]
      refine Program.Safe.mono (wp_firstPass inventory) (fun _ _ _ _ _ h => h)
        (fun _ _ _ h => h) ?_
      rintro ⟨x, s'⟩ w' ⟨rfl, hsorts⟩
      cases x with
      | error e => trivial
      | ok scan =>
        obtain ⟨rfl, hsorts⟩ := hsorts scan rfl
        refine wp_mono (wp_restoreScanned_anyone hnodup hsorts) ?_
        rintro (e | done) s'' w'' -
        · trivial
        · rw [outcome_ok]
          split <;> trivial
    exact hreset

/-- Once the CPU policy is yielded, no later journal file has a member of it. -/
theorem Attempts.yielded {journal : Journal} {yielded : Bool}
    (h : Attempts inventory journal yielded file) (hyielded : yielded = true) :
    ∀ key ∈ file.ids, inventory.hasSetting CPU_POLICY key = false := by
  induction h with
  | start => cases hyielded
  | attempt before next complete ih =>
    obtain ⟨hsub, hdropped⟩ := next.file_subset
    rcases (Bool.or_eq_true _ _).mp hyielded with hbefore | hnow
    · exact fun key hkey => ih hbefore key (hsub hkey)
    · exact hdropped hnow (complete hnow)

end

/-- Yielding the CPU policy is sticky, if the attempts that yield it have read every journaled
member of it and finish: no later attempt writes a member. -/
theorem cpu_yield_sticky (inventory : Inventory) {journal file file' : Journal}
    (h : Attempts inventory journal true file)
    {p : Program Hardware Journal (Except Failure Unit × Journal)} {mem : Journal} {op : Request}
    {key : String}
    (hrun : Program.Steps anyone file (Command.reset.process inventory file) file' p)
    (hissued : p.issued? = some (mem, op)) (htarget : op.target = some key) :
    inventory.hasSetting CPU_POLICY key = false :=
  h.yielded rfl key ((reset_process_within.guard hrun hissued).2 key htarget)

/-- A CPU that reads `readings`, as a deterministic instance of hardware that anyone may change. -/
def cpuReads (readings : String → Value) (unreadable : List String) (file mem : Journal)
    (op : Request) : Except Failure op.Reply × Journal :=
  let (answer, m) := (Machine.mk readings file readings).respond cpuEffect unreadable mem op
  (answer, m.durable)

private theorem cpuReads_anyone (readings : String → Value) (unreadable : List String)
    (file mem : Journal) (op : Request) :
    anyone file mem op (cpuReads readings unreadable file mem op).1
      (cpuReads readings unreadable file mem op).2 := by
  cases op with
  | save journal => exact .inl rfl
  | read | write | writeMaximum | restoreValue | temperature | checkOwnership => rfl

/-- The readings after another manager has set the energy preference. -/
def cpuForeign (key : String) : Value :=
  if key = "policy0/scaling_governor" then .text "performance" else .text "balance_power"

/-- The first pass of an attempt on the journal of the apply, with some controls unreadable. -/
def cpuPass (unreadable : List String) : Program Hardware Journal (Except Failure Scan × Journal) :=
  (Program.runFor (cpuReads cpuForeign unreadable) 60 cpuApplied.durable
    (firstPass cpuInventory cpuApplied.durable)).2

/-- The rest of that attempt, after a decision of its first pass. -/
def cpuRest (unreadable : List String) (scan : Scan) :
    Journal × Program Hardware Journal (Except Failure ResetOutcome × Journal) :=
  Program.runFor (cpuReads cpuForeign unreadable) 60 cpuApplied.durable
    (restoreScanned (cpuInventory.adopt cpuApplied.durable) cpuApplied.durable scan
      cpuApplied.durable)

private theorem cpu_attempt (unreadable : List String) (scan : Scan)
    (hload : (loadEngine cpuInventory cpuApplied.durable).isOk = true)
    (hpass : (cpuPass unreadable).result? = some (.ok scan, cpuApplied.durable)) :
    Attempt cpuInventory cpuApplied.durable
      ⟨some scan, (cpuRest unreadable scan).2.result?.any fun x => x.1.isOk⟩
      (cpuRest unreadable scan).1 := by
  have hok : loadEngine cpuInventory cpuApplied.durable =
      .ok (cpuInventory.adopt cpuApplied.durable) := by
    cases hload' : loadEngine cpuInventory cpuApplied.durable with
    | error e => simp [hload', Except.isOk, Except.toBool] at hload
    | ok loaded => rw [(loadEngine_ok hload').1]
  have hrun := Program.Steps.of_runFor (E := anyone) (cpuReads_anyone cpuForeign unreadable) 60
    cpuApplied.durable (firstPass cpuInventory cpuApplied.durable)
  rw [show (Program.runFor (cpuReads cpuForeign unreadable) 60 cpuApplied.durable
    (firstPass cpuInventory cpuApplied.durable)).2 = _ from
      Program.eq_done_of_result? hpass] at hrun
  obtain ⟨hfile, -⟩ := (wp_firstPass cpuInventory).result hrun
  refine .restoring hok hrun ?_
  rw [hfile]
  exact .of_runFor (cpuReads_anyone cpuForeign unreadable) _ _ _

/-- If every member can be read, the yielded policy is not written again. -/
theorem cpu_yield_sticky_readable :
    Attempts cpuInventory cpuApplied.durable true
      (cpuRest [] ⟨[("policy0/scaling_governor", .text "powersave")],
        ["policy0/energy_performance_preference"], []⟩).1 ∧
    ∀ file' p mem op key, Program.Steps anyone
      (cpuRest [] ⟨[("policy0/scaling_governor", .text "powersave")],
        ["policy0/energy_performance_preference"], []⟩).1
      (Command.reset.process cpuInventory (cpuRest []
        ⟨[("policy0/scaling_governor", .text "powersave")],
          ["policy0/energy_performance_preference"], []⟩).1) file' p →
      p.issued? = some (mem, op) → op.target = some key →
      cpuInventory.hasSetting CPU_POLICY key = false := by
  set scan : Scan := ⟨[("policy0/scaling_governor", .text "powersave")],
    ["policy0/energy_performance_preference"], []⟩ with hscan
  have hattempt := cpu_attempt [] scan (by decide) (by decide)
  have hattempts := Attempts.attempt .start hattempt fun _ => by
    refine ⟨by decide, ?_⟩
    rintro _ ⟨⟩
    decide
  have hyields : AttemptRecord.yieldsCpu cpuInventory
      ⟨some scan, (cpuRest [] scan).2.result?.any fun x => x.1.isOk⟩ = true := by decide
  rw [Bool.false_or, hyields] at hattempts
  exact ⟨hattempts, fun file' p mem op key hrun hissued htarget =>
    cpu_yield_sticky cpuInventory hattempts hrun hissued htarget⟩

/-- The journal after an attempt that yields the CPU policy but could not read the governor. -/
def cpuKept : Journal :=
  (cpuRest ["policy0/scaling_governor"] ⟨[], ["policy0/energy_performance_preference"],
    ["policy0/scaling_governor: read failed"]⟩).1

/-- Yielding is not sticky for a member that could not be read: the attempt yields the policy and
finishes, and the next one writes the governor. -/
theorem unread_member_written_later :
    (∃ scan, Attempt cpuInventory cpuApplied.durable ⟨some scan, true⟩ cpuKept ∧
      scan.yielded.any (cpuInventory.hasSetting CPU_POLICY) = true) ∧
    "policy0/scaling_governor" ∈ cpuApplied.durable.ids ∧
    cpuInventory.hasSetting CPU_POLICY "policy0/scaling_governor" = true ∧
    ∃ file' p mem, Program.Steps anyone cpuKept (Command.reset.process cpuInventory cpuKept) file' p ∧
      p.issued? = some (mem, .write "policy0/scaling_governor" (.text "powersave")) := by
  refine ⟨⟨⟨[], ["policy0/energy_performance_preference"],
    ["policy0/scaling_governor: read failed"]⟩, ?_, ?_⟩, by decide, by decide, ?_⟩
  · have hattempt := cpu_attempt ["policy0/scaling_governor"]
      ⟨[], ["policy0/energy_performance_preference"], ["policy0/scaling_governor: read failed"]⟩
      (by decide) (by decide)
    rw [show ((cpuRest ["policy0/scaling_governor"] ⟨[], ["policy0/energy_performance_preference"],
      ["policy0/scaling_governor: read failed"]⟩).2.result?.any fun x => x.1.isOk) = true by
        decide] at hattempt
    exact hattempt
  · decide
  · refine ⟨_, _, (Program.runFor (cpuReads cpuForeign []) 3 cpuKept
      (Command.reset.process cpuInventory cpuKept)).2.issued?.elim cpuKept Prod.fst,
      .of_runFor (cpuReads_anyone cpuForeign []) 3 _ _, ?_⟩
    decide

end Preseed.HardwareTuning
