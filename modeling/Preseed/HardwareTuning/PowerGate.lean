import Preseed.HardwareTuning.EngineRules
import Preseed.HardwareTuning.Machine

/-!
# The gate on power limits

A policy that does not allow a power increase must not raise a RAPL or domain limit.
The gate compares a request with the limit that was read when the process discovered
its controls, or with the journaled baseline if the limit is owned. Over any number
of processes this keeps every write below the value the limit had at first, as long
as every discovery reads the limits.
-/

namespace Preseed.HardwareTuning

open Effects

/-- The control is a RAPL or domain limit. -/
def Knob.isPower (knob : Knob) : Bool :=
  startsWith knob.setting "RAPL_" || startsWith knob.setting "DOMAIN_"

/-- The inventory that a process has discovered on a machine. A limit is entered as the Intel
backend enters it, with the reading found at discovery, or with none where `optional_int` could
not read the attribute. -/
structure Discovered (power : String → Bool) (hw : String → Value) (inventory : Inventory) :
    Prop where
  /-- The limits are the RAPL and domain controls. -/
  isPower : ∀ knob ∈ inventory.knobs, knob.isPower = power knob.id
  /-- A limit is a number of microwatts or microseconds, without a setter of its own. -/
  numeric : ∀ knob ∈ inventory.knobs, power knob.id = true →
    knob.choices = [] ∧ knob.unit ∈ ["uW", "us"] ∧ knob.writeMaximum = false
  /-- The reference of the gate is what was read. -/
  reading : ∀ knob ∈ inventory.knobs, power knob.id = true →
    knob.powerDefault = none ∨ knob.powerDefault = some (hw knob.id)

/-- Every limit could be read when the controls were discovered. -/
def Inventory.LimitsRead (power : String → Bool) (inventory : Inventory) : Prop :=
  ∀ knob ∈ inventory.knobs, power knob.id = true → knob.powerDefault ≠ none

/-! ### What stays below the first values -/

section Stays

variable (power : String → Bool) (base : String → ℤ)

/-- A value of a limit is a number, and at most the first one. -/
def Below (key : String) (value : Value) : Prop :=
  power key = true → ∃ n, value = .int n ∧ n ≤ base key

/-- The baselines of a journal are at most the first values. -/
def Journal.Below (journal : Journal) : Prop :=
  ∀ entry ∈ journal.entries, HardwareTuning.Below power base entry.id entry.before

/-- The limits, and the baselines of the journal file, are at most the first values. -/
def Machine.Below (m : Machine) : Prop :=
  (∀ key, HardwareTuning.Below power base key (m.hw key)) ∧ m.durable.Below power base

/-- A write leaves each limit at what it was, or at what is written to it, or lower. -/
def Obeys (key : String) (value : Value) (hw hw' : String → Value) : Prop :=
  ∀ other first, (HardwareTuning.Below power (fun _ => first) other (hw other)) →
    (other = key → HardwareTuning.Below power (fun _ => first) other value) →
      HardwareTuning.Below power (fun _ => first) other (hw' other)

/-- A machine on which nobody but the engine changes the limits. Every operation may fail, before or
after it has had its effect. -/
def ownLimits : Environment Hardware Journal Machine := fun m _ op =>
  match op with
  | .read key => fun (answer : Except Failure Value) m' =>
    m' = m ∧ ∀ value, answer = .ok value → value = m.hw key
  | .write key value | .restoreValue key value => fun _ m' =>
    ∃ hw', Obeys power key value m.hw hw' ∧ m' = { m with hw := hw' }
  | .writeMaximum _ => fun _ m' =>
    ∃ hw', (∀ key, power key = true → hw' key = m.hw key) ∧ m' = { m with hw := hw' }
  | .save journal => fun (answer : Except Failure Unit) m' =>
    m' = m.saved journal ∨ (∃ e, answer = .error e) ∧ m' = m
  | .temperature | .checkOwnership _ => fun _ m' => m' = m

/-- Everything is at most the first values, no limit is written above them, and no such baseline
is saved. -/
def gated : Guard Hardware Journal Machine := fun m _ op =>
  m.Below power base ∧ match op with
  | .write key value | .restoreValue key value => Below power base key value
  | .writeMaximum key => power key = false
  | .save journal => journal.Below power base
  | .read _ | .temperature | .checkOwnership _ => True

/-- A program of the engine keeps everything below the first values, and so is its result. -/
def Stays {α : Type} (act : EngineAct α) (P : α → Prop) : Prop :=
  ∀ s m, s.Below power base → m.Below power base →
    wp (ownLimits power) (gated power base) act
      (fun x s' m' => s'.Below power base ∧ m'.Below power base ∧ ∀ a, x = .ok a → P a) s m

end Stays

namespace Stays

variable {power : String → Bool} {base : String → ℤ} {α β : Type} {P P' : α → Prop} {Q : β → Prop}

variable {act : EngineAct α}

/-- Staying below is an invariant that a program maintains. -/
theorem iff_maintains : Stays power base act P ↔
    Act.Maintains (ownLimits power) (gated power base)
      (fun s m => s.Below power base ∧ m.Below power base) act P := by
  simp only [Stays, Act.Maintains, and_imp, and_assoc]

theorem pure {a : α} (h : P a) : Stays power base (Pure.pure a) P :=
  iff_maintains.mpr (.pure h)

theorem raise (e : Failure) : Stays power base (Act.raise e) P :=
  iff_maintains.mpr (.raise e)

theorem lift {x : Except Failure α} (h : ∀ a, x = .ok a → P a) : Stays power base (Act.lift x) P :=
  iff_maintains.mpr (.lift h)

theorem get : Stays power base (Act.get : EngineAct Journal) (Journal.Below power base) :=
  iff_maintains.mpr (.mono .get fun _ ⟨_, h⟩ => h.1)

theorem modify {f : Journal → Journal} (h : ∀ s, s.Below power base → (f s).Below power base) :
    Stays power base (Act.modify f) fun _ => True :=
  iff_maintains.mpr (.modify fun s _ hbelow => ⟨h s hbelow.1, hbelow.2⟩)

theorem mono (h : Stays power base act P) (hweaker : ∀ a, P a → P' a) :
    Stays power base act P' :=
  iff_maintains.mpr (.mono (iff_maintains.mp h) hweaker)

theorem bind {f : α → EngineAct β} (hact : Stays power base act P)
    (hf : ∀ a, P a → Stays power base (f a) Q) : Stays power base (act >>= f) Q :=
  iff_maintains.mpr (.bind (iff_maintains.mp hact) fun a ha => iff_maintains.mp (hf a ha))

theorem handle {body : EngineAct α} {handler : Failure → EngineAct α}
    (hbody : Stays power base body P) (hhandler : ∀ e, Stays power base (handler e) P) :
    Stays power base (Act.handle body handler) P :=
  iff_maintains.mpr (.handle (iff_maintains.mp hbody) fun e => iff_maintains.mp (hhandler e))

theorem handleIf {body : EngineAct α} {selects : Failure → Bool} {handler : Failure → EngineAct α}
    (hbody : Stays power base body P) (hhandler : ∀ e, Stays power base (handler e) P) :
    Stays power base (Act.handleIf body selects handler) P :=
  iff_maintains.mpr (.handleIf (iff_maintains.mp hbody) fun e => iff_maintains.mp (hhandler e))

theorem ite {c : Prop} [Decidable c] {act' : EngineAct α} (h : c → Stays power base act P)
    (h' : ¬c → Stays power base act' P) : Stays power base (if c then act else act') P :=
  iff_maintains.mpr (.ite (fun hc => iff_maintains.mp (h hc)) fun hc => iff_maintains.mp (h' hc))

theorem when {c : Prop} [Decidable c] {act : EngineAct Unit}
    (h : c → Stays power base act fun _ => True) :
    Stays power base (Act.when c act) fun _ => True :=
  ite h fun _ => pure trivial

theorem fold {xs : List α} {f : β → α → EngineAct β} {b : β} (hb : Q b)
    (hf : ∀ b, Q b → ∀ a ∈ xs, Stays power base (f b a) Q) :
    Stays power base (Act.fold f b xs) Q :=
  iff_maintains.mpr (.fold hb fun b hb a ha => iff_maintains.mp (hf b hb a ha))

/-! ### The operations -/

theorem read (key : String) : Stays power base (readControl key) (Below power base key) := by
  intro s m hs hm
  rw [wp_readControl]
  refine ⟨⟨hm, trivial⟩, ?_⟩
  rintro (answer : Except Failure Value) m' ⟨rfl, hanswer⟩
  exact ⟨hs, hm, fun value hvalue => hanswer value hvalue ▸ hm.1 key⟩

variable {key : String} {value : Value}

private theorem obeyed {m : Machine} {hw' : String → Value} (hm : m.Below power base)
    (hvalue : Below power base key value)
    (hobeys : Obeys power key value m.hw hw') : Machine.Below power base { m with hw := hw' } :=
  ⟨fun other => hobeys other (base other) (hm.1 other) fun heq => heq ▸ hvalue, hm.2⟩

theorem write (h : Below power base key value) :
    Stays power base (writeControl key value) fun _ => True := by
  intro s m hs hm
  refine (wp_request (.write key value)).mpr ⟨⟨hm, h⟩, ?_⟩
  rintro answer m' ⟨hw', hobeys, rfl⟩
  exact ⟨hs, obeyed hm h hobeys, fun _ _ => trivial⟩

theorem restoreValue (h : Below power base key value) :
    Stays power base (HardwareTuning.restoreValue key value) fun _ => True := by
  intro s m hs hm
  refine (wp_request (.restoreValue key value)).mpr ⟨⟨hm, h⟩, ?_⟩
  rintro answer m' ⟨hw', hobeys, rfl⟩
  exact ⟨hs, obeyed hm h hobeys, fun _ _ => trivial⟩

theorem writeMaximum (h : power key = false) :
    Stays power base (HardwareTuning.writeMaximum key) fun _ => True := by
  intro s m hs hm
  refine (wp_request (.writeMaximum key)).mpr ⟨⟨hm, h⟩, ?_⟩
  rintro answer m' ⟨hw', hsame, rfl⟩
  refine ⟨hs, ⟨fun other hpower => ?_, hm.2⟩, fun _ _ => trivial⟩
  change ∃ n, hw' other = .int n ∧ n ≤ base other
  rw [hsame other hpower]
  exact hm.1 other hpower

theorem save {journal : Journal} (h : journal.Below power base) :
    Stays power base (saveJournal journal) fun _ => True := by
  intro s m hs hm
  rw [wp_saveJournal]
  refine ⟨⟨hm, h⟩, ?_⟩
  rintro (answer : Except Failure Unit) m' (rfl | ⟨-, rfl⟩)
  · exact ⟨hs, ⟨hm.1, h⟩, fun _ _ => trivial⟩
  · exact ⟨hs, hm, fun _ _ => trivial⟩

theorem temperature : Stays power base readTemperature fun _ => True := by
  intro s m hs hm
  refine (wp_request (.temperature)).mpr ⟨⟨hm, trivial⟩, ?_⟩
  rintro answer m' rfl
  exact ⟨hs, hm, fun _ _ => trivial⟩

theorem checkOwnership (values : List (String × Option Value)) :
    Stays power base (request (.checkOwnership values)) fun _ => True := by
  intro s m hs hm
  rw [wp_request]
  refine ⟨⟨hm, trivial⟩, ?_⟩
  rintro answer m' rfl
  exact ⟨hs, hm, fun _ _ => trivial⟩

/-- Looking leaves everything below. -/
theorem looking : Looking (ownLimits power) (gated power base)
    fun s m => s.Below power base ∧ m.Below power base := by
  intro op hop
  cases op with
  | read key => exact iff_maintains.mp ((read key).mono fun _ _ => trivial)
  | checkOwnership values => exact iff_maintains.mp (checkOwnership values)
  | write | writeMaximum | restoreValue | save | temperature => exact hop.elim

/-! ### A reset -/

/-- A loop over `Engine.ordered` visits controls with their values in the list. -/
theorem ordered {inventory : Inventory} {values : List (String × Value)}
    {body : β → String → Value → EngineAct β} {b : β} (hb : Q b)
    (hbody : ∀ b, Q b → ∀ key value, values.lookup key = some value →
      Stays power base (body b key value) Q) :
    Stays power base (HardwareTuning.ordered inventory values b body) Q :=
  iff_maintains.mpr (looking.ordered hb fun b hb key value hvalue =>
    iff_maintains.mp (hbody b hb key value hvalue))

end Stays

/-- The values of a list are at most the first ones. -/
def AllBelow (power : String → Bool) (base : String → ℤ) (values : List (String × Value)) : Prop :=
  ∀ kv ∈ values, Below power base kv.1 kv.2

theorem AllBelow.lookup {power : String → Bool} {base : String → ℤ}
    {values : List (String × Value)} (h : AllBelow power base values) {key : String}
    {value : Value} (hlookup : values.lookup key = some value) : Below power base key value :=
  h _ (mem_of_lookup hlookup)

/-- Changing the state of entries leaves their baselines. -/
theorem Journal.Below.update {power : String → Bool} {base : String → ℤ} {journal : Journal}
    (h : journal.Below power base) (keys : List String) {f : Entry → Entry}
    (hid : ∀ e, (f e).id = e.id) (hbefore : ∀ e, (f e).before = e.before) :
    (journal.update keys f).Below power base := by
  intro _ hmem
  obtain ⟨e, he, rfl⟩ := Journal.mem_update.mp hmem
  split
  · rw [hid, hbefore]
    exact h e he
  · exact h e he

/-- Dropping entries leaves the baselines of the others. -/
theorem Journal.Below.subset {power : String → Bool} {base : String → ℤ} {journal journal' : Journal}
    (h : journal.Below power base) (hsubset : ∀ e ∈ journal'.entries, e ∈ journal.entries) :
    journal'.Below power base :=
  fun e he => h e (hsubset e he)

namespace Stays

variable {power : String → Bool} {base : String → ℤ} {inventory : Inventory}

theorem scanOne {scan : Scan} {entry : Entry} (hscan : AllBelow power base scan.restore)
    (hentry : Below power base entry.id entry.before) :
    Stays power base (HardwareTuning.scanOne inventory scan entry)
      fun scan => AllBelow power base scan.restore := by
  unfold HardwareTuning.scanOne
  split
  · exact pure hscan
  · refine handleIf (bind (read _) fun current _ => ite (fun _ => pure ?_) fun _ => pure hscan)
      fun e => pure hscan
    intro kv hkv
    rcases List.mem_append.mp hkv with hkv | hkv
    · exact hscan kv hkv
    · rw [List.mem_singleton.mp hkv]
      exact hentry

theorem checkReadback (knob : Knob) (key : String) (value : Value) (text : String) :
    Stays power base (HardwareTuning.checkReadback knob key value text) fun _ => True :=
  ite (fun _ => bind (read key) fun _ _ => ite (fun _ => raise _) fun _ => pure trivial)
    fun _ => pure trivial

theorem writeBack {knob : Knob} {key : String} {value : Value} (h : Below power base key value) :
    Stays power base (HardwareTuning.writeBack knob key value) fun _ => True := by
  unfold HardwareTuning.writeBack
  refine bind (P := fun _ => True) ?_ fun needed _ =>
    bind (when fun _ => ?_) fun _ _ => checkReadback _ _ _ _
  · exact ite (fun _ => bind (read key) fun _ _ => pure trivial) fun _ => pure trivial
  · exact ite (fun _ => restoreValue h) fun _ => write h

theorem restoreOne {st : Restoration} {key : String} {value : Value}
    (h : Below power base key value) :
    Stays power base (HardwareTuning.restoreOne inventory st key value) fun _ => True := by
  unfold HardwareTuning.restoreOne
  split
  · exact raise _
  · refine ite (fun _ => pure trivial) fun _ => ite (fun _ => pure trivial) fun _ => ?_
    exact handleIf (bind (writeBack h) fun _ _ => pure trivial) fun e => pure trivial

theorem verifyOne (journal : Journal) (st : Restoration) (key : String) :
    Stays power base (HardwareTuning.verifyOne inventory journal st key) fun _ => True := by
  unfold HardwareTuning.verifyOne
  split
  · exact handleIf (bind (checkReadback _ _ _ _) fun _ _ => pure trivial) fun e => pure trivial
  · exact raise _

theorem restoreScanned {journal : Journal} {scan : Scan} (hjournal : journal.Below power base)
    (hscan : AllBelow power base scan.restore) :
    Stays power base (HardwareTuning.restoreScanned inventory journal scan) fun _ => True := by
  have hrestore : AllBelow power base (yieldDomains inventory journal scan).restore :=
    fun kv hkv => hscan kv (restore_yieldDomains_subset hkv)
  have hpending : ∀ keys (j : Journal), j.Below power base →
      (j.update keys Entry.markPending).Below power base :=
    fun keys j hj => hj.update keys (fun _ => rfl) fun _ => rfl
  unfold HardwareTuning.restoreScanned
  dsimp only
  refine bind (modify (hpending _)) fun _ _ => bind (when fun _ => save (hpending _ _ hjournal))
    fun _ _ => bind (P := fun _ => True) (ordered trivial fun _ _ key value hlookup => ?_)
      fun st _ => bind (fold (Q := fun _ => True) trivial fun st _ key _ => verifyOne _ st key)
        fun st _ => bind (modify fun j hj => hj.subset fun e he => List.mem_of_mem_filter he)
          fun _ _ => bind get fun j hj => bind (save hj) fun _ _ => pure trivial
  exact restoreOne (hrestore.lookup hlookup)

/-- A reset writes baselines only. -/
theorem reset : Stays power base (HardwareTuning.reset inventory) fun _ => True := by
  unfold HardwareTuning.reset resetCore
  refine bind (P := fun _ => True) ?_ fun _ _ => ite (fun _ => pure trivial) fun _ => raise _
  refine bind get fun journal hjournal => ?_
  have hnone : AllBelow power base (⟨[], [], []⟩ : Scan).restore := nofun
  exact bind (fold hnone fun scan hscan entry hentry => scanOne hscan (hjournal entry hentry))
    fun scan hscan => restoreScanned hjournal hscan

theorem health (engine : Engine) : Stays power base (HardwareTuning.health engine) fun _ => True :=
  iff_maintains.mpr (looking.health (iff_maintains.mp temperature) engine)

end Stays

/-! ### The gate -/

/-- A limit as a loaded inventory has it: a number whose gate is at most its first value. -/
def Inventory.Gated (power : String → Bool) (base : String → ℤ) (inventory : Inventory) : Prop :=
  ∀ knob ∈ inventory.knobs, power knob.id = true →
    knob.choices = [] ∧ knob.unit ∈ ["uW", "us"] ∧ knob.writeMaximum = false ∧
      ∃ d, knob.powerDefault = some (.int d) ∧ d ≤ base knob.id

variable {policy : Policy} {knob : Knob}

/-- A number within bounds is a number. -/
theorem Knob.bounded_numeric {candidate value : Value} {low high : Option ℤ}
    (hchoices : knob.choices = []) (hunit : knob.unit ∈ ["uW", "us"])
    (h : knob.bounded policy candidate low high = .ok value) : ∃ n, value = .int n := by
  have hsingle : knob.unit ≠ "MHz-pair" := by
    rintro heq
    rw [heq] at hunit
    exact absurd hunit (by decide)
  unfold Knob.bounded at h
  rw [if_neg (by simp [hchoices]), if_neg hsingle] at h
  split at h
  · rename_i low' high'
    cases hint : integer candidate low' high' with
    | error e =>
      rw [hint] at h
      cases h
    | ok n =>
      rw [hint] at h
      cases h
      exact ⟨n, rfl⟩
  · cases h

/-- A permitted number is at most the reference of the gate. -/
theorem Knob.permitted_le {n d : ℤ} (hpolicy : policy.allowPowerIncrease = false)
    (hdefault : knob.powerDefault = some (.int d))
    (h : knob.permitted policy (.int n) = .ok ()) : n ≤ d := by
  by_contra hlt
  have hgt : (Value.int n).gt (.int d) = .ok true := by simp [Value.gt]; omega
  unfold Knob.permitted at h
  simp only [hdefault, hgt, hpolicy] at h
  split at h
  · simp only [Value.gt, bind, Except.bind] at h
    split at h <;> cases h
  · cases h

/-- A request for a limit resolves to a number that is at most its first value. -/
theorem Inventory.Gated.resolve {power : String → Bool} {base : String → ℤ} {inventory : Inventory}
    (h : inventory.Gated power base) (hknob : knob ∈ inventory.knobs)
    (hpolicy : policy.allowPowerIncrease = false) {request : String} {value : Value}
    (hresolve : knob.resolve request policy = .ok (some value)) :
    HardwareTuning.Below power base knob.id value := by
  intro hpower
  obtain ⟨hchoices, hunit, -, d, hdefault, hle⟩ := h knob hknob hpower
  unfold Knob.resolve at hresolve
  obtain ⟨_, -, hresolve⟩ := bind_ok hresolve
  generalize (if request = "supported-max" ∨ request = "supported-1"
    then removePrefix request "supported-" else request) = stripped at hresolve
  dsimp only at hresolve
  split at hresolve
  · cases hresolve
  · obtain ⟨⟨low, high⟩, -, hresolve⟩ := bind_ok hresolve
    obtain ⟨candidate, hbounded, hresolve⟩ := bind_ok hresolve
    obtain ⟨_, hpermitted, hresolve⟩ := bind_ok hresolve
    cases hresolve
    obtain ⟨n, rfl⟩ := Knob.bounded_numeric hchoices hunit hbounded
    exact ⟨n, rfl, (Knob.permitted_le hpolicy hdefault hpermitted).trans hle⟩

/-! ### An apply -/

namespace Stays

variable {power : String → Bool} {base : String → ℤ} {α : Type} {inventory : Inventory}
  {policy : Policy}

/-- The values of a plan are at most the first ones. -/
theorem plan {engine : Engine} (hgated : engine.inventory.Gated power base)
    (hpolicy : ∀ policy, engine.policy = some policy → policy.allowPowerIncrease = false)
    (name : Profile) (settings : Settings) :
    Stays power base (HardwareTuning.plan engine name settings)
      fun planned => AllBelow power base planned.1 := by
  refine mono (iff_maintains.mpr (looking.plan engine name settings)) ?_
  rintro planned ⟨policy, hsome, hvalues⟩ kv hkv
  obtain ⟨knob, hknob, hid, hresolve⟩ := (resolvedValues_spec hvalues).2 kv hkv
  rw [← hid]
  exact hgated.resolve hknob (hpolicy policy hsome) hresolve

theorem changedKeys (values : List (String × Value)) :
    Stays power base (HardwareTuning.changedKeys inventory values) fun _ => True :=
  iff_maintains.mpr (looking.changedKeys inventory values)

/-- The baselines of a snapshot are readings. -/
theorem snapshot (values : List (String × Value)) (affected : List String) :
    Stays power base (Act.fold (HardwareTuning.snapshot values) [] affected)
      fun entries => ∀ e ∈ entries, Below power base e.id e.before := by
  refine fold (by simp) fun entries hentries key _ => bind (read key) fun before hbefore => pure ?_
  intro e he
  rcases List.mem_append.mp he with he | he
  · exact hentries e he
  · rw [List.mem_singleton.mp he]
    exact hbefore

theorem setRequested (key : String) (value : Option Value) :
    Stays power base (HardwareTuning.setRequested key value) fun _ => True :=
  modify fun _ hj => hj.update [key] (fun _ => rfl) fun _ => rfl

theorem skipRequest (st : Writing) (key reason : String) :
    Stays power base (HardwareTuning.skipRequest st key reason) fun _ => True :=
  bind (setRequested key none) fun _ _ => pure trivial

variable {st : Writing}

theorem selectMaximum {knob : Knob} {configured : String} {key : String} {value : Value}
    {before : Option Value} (hkey : power key = false) :
    Stays power base
      (HardwareTuning.selectMaximum policy knob configured st key value before) fun _ => True := by
  unfold HardwareTuning.selectMaximum
  refine bind (writeMaximum hkey) fun selected _ => ?_
  dsimp only
  split
  · exact ite (fun _ => raise _) fun _ => skipRequest _ _ _
  · exact bind (P := fun _ => True) (lift fun _ _ => trivial) fun _ _ =>
      bind (setRequested _ _) fun _ _ => pure trivial

theorem observedChange (seen : List (String × Value)) :
    Stays power base (HardwareTuning.observedChange seen) fun _ => True :=
  iff_maintains.mpr (looking.observedChange seen)

theorem writeDirectly {affected : List String} {configured : String} {key : String} {value : Value}
    (h : Below power base key value) :
    Stays power base
      (HardwareTuning.writeDirectly inventory affected configured st key value)
      fun _ => True := by
  unfold HardwareTuning.writeDirectly
  refine bind (P := fun _ => True) (ite (fun _ => bind (P := fun _ => True) ?_
    fun _ _ => pure trivial) fun _ => pure trivial) fun observed _ => handleIf
      (bind (write h) fun _ _ => pure trivial) fun e => ?_
  · exact fold trivial fun _ _ key _ => bind (read key) fun _ _ => pure trivial
  · split
    · exact raise _
    · exact bind (observedChange _) fun _ _ => ite (fun _ => raise _) fun _ => skipRequest _ _ _

theorem writeOne {profile : ProfilePolicy} {affected : List String} {key : String} {value : Value}
    (hgated : inventory.Gated power base) (h : Below power base key value) :
    Stays power base
      (HardwareTuning.writeOne inventory policy profile affected st key value) fun _ => True := by
  unfold HardwareTuning.writeOne
  split
  · exact raise _
  · rename_i knob hknob
    have hread : Stays power base (readIfRestorable knob key) fun _ => True :=
      ite (fun _ => bind (read key) fun _ _ => pure trivial) fun _ => pure trivial
    refine bind hread fun before _ => ite (fun _ => ?_) fun _ => pure trivial
    refine ite (fun hmaximum => selectMaximum ?_) fun _ => writeDirectly h
    cases hpower : power key with
    | false => rfl
    | true =>
      rw [← Inventory.id_of_get? hknob] at hpower
      obtain ⟨-, -, hfixed, -⟩ := hgated knob (Inventory.mem_of_get? hknob) hpower
      exact absurd hmaximum.1 (by simp [hfixed])

theorem verifyApplied (values : List (String × Option Value)) (actual : List (String × Readback))
    (entry : Entry) :
    Stays power base
      (HardwareTuning.verifyApplied inventory policy values actual entry) fun _ => True :=
  iff_maintains.mpr (looking.verifyApplied (fun keys _ hf _ _ hbelow =>
    ⟨hbelow.1.update keys (fun e => (hf e).1) fun e => (hf e).2, hbelow.2⟩) policy values actual
      entry)

theorem undo (exc : Failure) :
    Stays power base (HardwareTuning.undo inventory exc : EngineAct α) fun _ => True :=
  bind (P := fun _ => True) (handleIf (bind reset fun _ _ => pure trivial) fun _ => raise _)
    fun _ _ => raise exc

/-- An apply writes values of its plan, and baselines. -/
theorem applyPlan {name : Profile} {values : List (String × Value)} {skipped : List String}
    (hgated : inventory.Gated power base) (hvalues : AllBelow power base values) :
    Stays power base (HardwareTuning.applyPlan inventory policy name values skipped)
      fun _ => True := by
  have hgate : ∀ t, Stays power base (thermalGate policy t) fun _ => True := by
    rintro (_ | t)
    · exact pure trivial
    · exact when fun _ => raise _
  unfold HardwareTuning.applyPlan
  dsimp only
  refine bind temperature fun t _ => bind (hgate t) fun _ _ => bind (P := fun _ => True)
    (lift fun _ _ => trivial) fun risk _ => bind (when fun _ => raise _) fun _ _ =>
      bind (changedKeys values) fun changed _ => bind (snapshot _ _) fun entries hentries =>
        bind (modify fun _ _ => hentries) fun _ _ => bind (save hentries) fun _ _ =>
          handle ?_ fun e => undo e
  have hplanned : AllBelow power base (values.filter fun kv =>
      kv.1 ∈ sortedKeys (changed.flatMap (sideEffects inventory))) :=
    fun kv hkv => hvalues kv (List.mem_of_mem_filter hkv)
  unfold writeAndVerify
  refine bind (P := fun _ => True) (ordered trivial fun st _ key value hlookup =>
    writeOne hgated (hplanned.lookup hlookup)) fun st _ => bind get fun journal _ =>
      bind (P := fun _ => True) (fold trivial fun actual _ entry _ =>
        verifyApplied st.values actual entry) fun actual _ => bind (modify fun j hj =>
          hj.subset fun e he => List.mem_of_mem_filter he) fun _ _ => bind get fun j hj =>
            bind (save hj) fun _ _ => pure trivial

theorem apply {engine : Engine} (hgated : engine.inventory.Gated power base)
    (hpolicy : ∀ policy, engine.policy = some policy → policy.allowPowerIncrease = false)
    (name : Profile) (settings : Settings) :
    Stays power base (HardwareTuning.apply engine name settings) fun _ => True := by
  have hgiveUp : Stays power base (giveUp engine) fun _ => True :=
    bind (health engine) fun _ _ => bind reset fun _ _ => when fun _ => raise _
  unfold HardwareTuning.apply
  refine bind get fun journal _ => bind (when fun _ => hgiveUp) fun _ _ =>
    bind (plan hgated hpolicy name settings) fun planned hplanned => ?_
  dsimp only
  split
  · exact raise _
  · exact applyPlan hgated hplanned

end Stays

end Preseed.HardwareTuning
