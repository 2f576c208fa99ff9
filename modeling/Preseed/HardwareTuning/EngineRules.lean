import Preseed.Effects.Fallible
import Preseed.Effects.Maintaining
import Preseed.HardwareTuning.Apply
import Preseed.HardwareTuning.ResetRules

/-!
# The rules of the engine's parts

Which operations the parts of the engine issue: planning and the health check only look,
and a reset puts baselines of its journal back.
-/

namespace Preseed.HardwareTuning

open Effects

/-! ### What is planned -/

theorem foldlM_resolve {policy : Policy} {profile : ProfilePolicy} : ∀ (knobs : List Knob) (init values : List (String × Value)),
    knobs.foldlM (fun values knob => do
      match ← knob.resolve (profile.configured knob.id knob.setting) policy with
      | none => pure values
      | some value =>
        if knob.setting = "TARGET_TEMPERATURE_C" then
          if ← value.gt (.int policy.maxTemperature) then
            throw (tuningError "temperature target exceeds the thermal interlock")
        pure (values ++ [(knob.id, value)])) init = Except.ok values →
      ∃ added, values = init ++ added ∧ (added.map Prod.fst).Sublist (knobs.map Knob.id) ∧
        ∀ kv ∈ added, ∃ knob ∈ knobs, knob.id = kv.1 ∧
          knob.resolve (profile.configured knob.id knob.setting) policy = .ok (some kv.2) := by
  intro knobs
  induction knobs with
  | nil =>
    intro init values h
    cases h
    exact ⟨[], by simp, by simp, by simp⟩
  | cons knob knobs ih =>
    intro init values h
    rw [List.foldlM_cons] at h
    obtain ⟨next, hnext, hrest⟩ := bind_ok h
    obtain ⟨resolved, hresolved, hnext⟩ := bind_ok hnext
    obtain ⟨added, rfl, hsub, hfound⟩ := ih next values hrest
    have hothers : ∀ kv ∈ added, ∃ k ∈ knob :: knobs, k.id = kv.1 ∧
        k.resolve (profile.configured k.id k.setting) policy = .ok (some kv.2) := by
      intro kv hkv
      obtain ⟨k, hk, hrest⟩ := hfound kv hkv
      exact ⟨k, List.mem_cons_of_mem _ hk, hrest⟩
    cases resolved with
    | none =>
      cases hnext
      exact ⟨added, rfl, hsub.cons _, hothers⟩
    | some value =>
      obtain rfl : next = init ++ [(knob.id, value)] := by
        dsimp only at hnext
        split at hnext
        · obtain ⟨_, -, hnext⟩ := bind_ok hnext
          split at hnext <;> cases hnext
          rfl
        · cases hnext
          rfl
      refine ⟨(knob.id, value) :: added, by simp, hsub.cons_cons _, ?_⟩
      exact List.forall_mem_cons.mpr ⟨⟨knob, List.mem_cons_self, rfl, hresolved⟩, hothers⟩

/-- The values of a plan are those that the requests of controls resolve to, each control at
most once. -/
theorem resolvedValues_spec {inventory : Inventory} {policy : Policy} {profile : ProfilePolicy}
    {values : List (String × Value)} (h : resolvedValues inventory policy profile = .ok values) :
    (values.map Prod.fst).Sublist (inventory.knobs.map Knob.id) ∧
      ∀ kv ∈ values, ∃ knob ∈ inventory.knobs, knob.id = kv.1 ∧
        knob.resolve (profile.configured knob.id knob.setting) policy = .ok (some kv.2) := by
  obtain ⟨added, hadded, hspec⟩ := foldlM_resolve inventory.knobs [] values h
  rw [List.nil_append] at hadded
  exact hadded ▸ hspec

/-! ### Looking -/

/-- An operation that neither changes a control nor asks for the temperature. -/
def Request.Looks : Request → Prop
  | .read _ | .checkOwnership _ => True
  | .write _ _ | .writeMaximum _ | .restoreValue _ _ | .save _ | .temperature => False

section Looking

variable {W β : Type} {E : Environment Hardware Journal W} {G : Guard Hardware Journal W}
  {I : Journal → W → Prop}

/-- Looking is admitted: the guard allows it, and it keeps the invariant. -/
def Looking (E : Environment Hardware Journal W) (G : Guard Hardware Journal W)
    (I : Journal → W → Prop) : Prop :=
  ∀ op : Request, op.Looks → Act.Maintains E G I (request op) fun _ => True

variable (hlook : Looking E G I)

include hlook

theorem Looking.read (key : String) : Act.Maintains E G I (readControl key) fun _ => True :=
  hlook (.read key) trivial

/-- A loop over `Engine.ordered` visits controls with their values in the list. -/
theorem Looking.ordered {inventory : Inventory} {values : List (String × Value)}
    {body : β → String → Value → EngineAct β} {b : β} {Q : β → Prop} (hb : Q b)
    (hbody : ∀ b, Q b → ∀ key value, values.lookup key = some value →
      Act.Maintains E G I (body b key value) Q) :
    Act.Maintains E G I (HardwareTuning.ordered inventory values b body) Q := by
  have hvisit : ∀ b, Q b → ∀ key, Act.Maintains E G I (visit values body b key) Q := by
    intro b hb key
    unfold visit
    split
    · exact .raise _
    · exact hbody b hb key _ ‹_›
  have hpair : ∀ key, Act.Maintains E G I (pairOrder inventory values key) fun _ => True := by
    intro key
    unfold pairOrder
    split
    · split
      · refine .bind (hlook.read _) fun high _ => ?_
        split
        · exact .raise _
        · exact .bind (.lift (P := fun _ => True) fun _ _ => trivial) fun _ _ => .pure trivial
      · exact .raise _
    · exact .pure trivial
  have hfrom : ∀ keys done b, Q b →
      Act.Maintains E G I (orderedFrom inventory values body done keys b) Q := by
    intro keys
    induction keys with
    | nil => exact fun done b hb => .pure hb
    | cons key rest ih =>
      intro done b hb
      unfold orderedFrom
      exact .ite (fun _ => ih done b hb) fun _ => .bind (hpair key) fun order _ =>
        .bind (.fold hb fun b hb key _ => hvisit b hb key) fun b' hb' => ih (done ++ order) b' hb'
  unfold HardwareTuning.ordered
  split
  · exact .raise _
  · exact hfrom _ _ _ hb

theorem Looking.plannedOrRead (values : List (String × Value)) (key : String) :
    Act.Maintains E G I (HardwareTuning.plannedOrRead values key) fun _ => True := by
  unfold HardwareTuning.plannedOrRead
  split
  · exact .pure trivial
  · exact hlook.read key

theorem Looking.checkPair (inventory : Inventory) (values : List (String × Value))
    (pair : String) : Act.Maintains E G I (HardwareTuning.checkPair inventory values pair)
      fun _ => True := by
  unfold HardwareTuning.checkPair
  refine .ite (fun _ => .bind (.fold (Q := fun _ => True) trivial fun _ _ _ _ =>
    .bind (hlook.plannedOrRead values _) fun _ _ => .pure trivial) fun sides _ =>
      .ite (fun _ => ?_) fun _ => .pure trivial) fun _ => .pure trivial
  split
  · exact .bind (.lift (P := fun _ => True) fun _ _ => trivial) fun _ _ =>
      .ite (fun _ => .raise _) fun _ => .ite (fun _ => .raise _) fun _ => .pure trivial
  · exact .raise _

theorem Looking.checkEpp (inventory : Inventory) (values : List (String × Value)) (knob : Knob) :
    Act.Maintains E G I (HardwareTuning.checkEpp inventory values knob) fun _ => True := by
  unfold HardwareTuning.checkEpp
  dsimp only
  split
  · exact .pure trivial
  · exact .bind (hlook.plannedOrRead values _) fun _ _ =>
      .ite (fun _ => .bind (hlook.plannedOrRead values _) fun _ _ =>
        .ite (fun _ => .raise _) fun _ => .pure trivial) fun _ => .pure trivial

/-- Planning only looks, and the values it plans are those the profile resolves to. -/
theorem Looking.plan (engine : Engine) (name : Profile) (settings : Settings) :
    Act.Maintains E G I (HardwareTuning.plan engine name settings) fun planned =>
      ∃ policy, engine.policy = some policy ∧
        resolvedValues engine.inventory policy (policy.profiles name) = .ok planned.1 := by
  unfold HardwareTuning.plan
  split
  · exact .raise _
  · rename_i policy hpolicy
    refine .bind (.when fun _ => .raise _) fun _ _ =>
      .bind (.lift (P := fun _ => True) fun _ _ => trivial) fun _ _ =>
        .bind (.lift (P := fun values =>
          resolvedValues engine.inventory policy (policy.profiles name) = .ok values)
            fun _ h => h) fun values hvalues => .bind (.forEach fun _ _ => hlook.checkPair _ _ _)
              fun _ _ => .bind (.forEach fun _ _ => hlook.checkEpp _ _ _) fun _ _ =>
                .bind (.when fun _ => hlook _ trivial) fun _ _ => ?_
    split
    · exact .raise _
    · exact .pure ⟨policy, hpolicy, hvalues⟩

theorem Looking.entryConflict (inventory : Inventory) (entry : Entry) :
    Act.Maintains E G I (HardwareTuning.entryConflict inventory entry) fun _ => True := by
  unfold HardwareTuning.entryConflict
  split
  · exact .pure trivial
  · exact .ite (fun _ => .pure trivial) fun _ => .ite
      (fun _ => .bind (hlook.read entry.id) fun _ _ => .pure trivial) fun _ => .pure trivial

/-- The health check looks, and asks for the temperature. -/
theorem Looking.health (htemperature : Act.Maintains E G I readTemperature fun _ => True)
    (engine : Engine) : Act.Maintains E G I (HardwareTuning.health engine) fun _ => True := by
  unfold HardwareTuning.health
  refine .bind .get fun journal _ => .bind (P := fun _ => True) (.fold trivial fun _ _ entry _ =>
    .bind (hlook.entryConflict _ entry) fun _ _ => .pure trivial) fun _ _ =>
      .bind (P := fun _ => True) ?_ fun _ _ => .bind htemperature fun _ _ =>
        .bind (P := fun _ => True) ?_ fun _ _ => .pure trivial
  · exact .ite (fun _ => .handleIf (.bind (hlook (.checkOwnership _) trivial) fun _ _ =>
      .pure trivial) fun _ => .pure trivial) fun _ => .pure trivial
  · exact .ite (fun _ => .bind (.lift (P := fun _ => True) fun _ _ => trivial) fun _ _ =>
      .pure trivial) fun _ => .pure trivial

theorem Looking.changedKeys (inventory : Inventory) (values : List (String × Value)) :
    Act.Maintains E G I (HardwareTuning.changedKeys inventory values) fun _ => True := by
  unfold HardwareTuning.changedKeys
  refine .fold trivial fun _ _ kv _ => ?_
  split
  · exact .raise _
  · exact .ite (fun _ => .bind (hlook.read kv.1) fun _ _ => .pure trivial) fun _ => .pure trivial

theorem Looking.observe (affected : List String) :
    Act.Maintains E G I (HardwareTuning.observe affected) fun _ => True :=
  .fold trivial fun _ _ _ _ => .bind (hlook.read _) fun _ _ => .pure trivial

theorem Looking.observedChange (seen : List (String × Value)) :
    Act.Maintains E G I (HardwareTuning.observedChange seen) fun _ => True := by
  induction seen with
  | nil => exact .pure trivial
  | cons kv seen ih =>
    exact .bind (hlook.read _) fun _ _ => .ite (fun _ => .pure trivial) fun _ => ih

/-- The final verification looks, and changes what the journal notes of an entry. -/
theorem Looking.verifyApplied {inventory : Inventory}
    (hupdate : ∀ (keys : List String) (f : Entry → Entry),
      (∀ e, (f e).id = e.id ∧ (f e).before = e.before) → ∀ s w, I s w → I (s.update keys f) w)
    (policy : Policy) (requests : List (String × Option Value))
    (actual : List (String × Readback)) (entry : Entry) :
    Act.Maintains E G I
      (HardwareTuning.verifyApplied inventory policy requests actual entry) fun _ => True := by
  unfold HardwareTuning.verifyApplied
  split
  · exact .raise _
  · refine .bind (P := fun _ => True) ?_ fun last _ => ?_
    · unfold settledValue
      refine .ite (fun _ => .bind (hlook.read _) fun _ _ => .pure trivial) fun _ => ?_
      split
      · exact .pure trivial
      · exact .raise _
    · refine .bind (.modify (hupdate _ _ fun _ => ⟨rfl, rfl⟩)) fun _ _ =>
        .bind (P := fun _ => True) ?_ fun _ _ =>
          .bind (.modify (hupdate _ _ fun _ => ⟨rfl, rfl⟩)) fun _ _ => .pure trivial
      unfold checkRequest
      split
      · exact .bind (.lift (P := fun _ => True) fun _ _ => trivial) fun _ _ =>
          .ite (fun _ => .raise _) fun _ => .pure trivial
      · exact .pure trivial

end Looking

/-- The journal lists baselines of a given set only. -/
def Journal.Within (base : List (String × Value)) (journal : Journal) : Prop :=
  ∀ e ∈ journal.entries, (e.id, e.before) ∈ base

/-- The operation puts back a baseline of the set. -/
def Request.Restores (base : List (String × Value)) (op : Request) : Prop :=
  ∃ kv ∈ base, op.Puts kv.1 kv.2

section Resetting

variable {W : Type} {E : Environment Hardware Journal W} {G : Guard Hardware Journal W}
  {I : Journal → W → Prop} {base : List (String × Value)} {inventory : Inventory}

/-- What a reset needs of an environment and an invariant: it may look, save, put baselines of
the set back, and change the notes in its journal. -/
structure Resetting (E : Environment Hardware Journal W) (G : Guard Hardware Journal W)
    (I : Journal → W → Prop) (base : List (String × Value)) : Prop where
  /-- Looking is admitted. -/
  look : Looking E G I
  /-- Saving is admitted. -/
  save : ∀ journal, Act.Maintains E G I (saveJournal journal) fun _ => True
  /-- Putting a baseline back is admitted. -/
  puts : ∀ op : Request, op.Restores base → Act.Maintains E G I (request op) fun _ => True
  /-- The journal lists baselines of the set. -/
  within : ∀ s w, I s w → s.Within base
  /-- A journal with the same or fewer baselines is as good. -/
  smaller : ∀ s s' w, I s w → s'.Within base → I s' w

variable (h : Resetting E G I base)

include h

theorem Resetting.scanOne {scan : Scan} {entry : Entry} (hscan : scan.restore ⊆ base)
    (hentry : (entry.id, entry.before) ∈ base) :
    Act.Maintains E G I (HardwareTuning.scanOne inventory scan entry)
      fun scan' => scan'.restore ⊆ base := by
  unfold HardwareTuning.scanOne
  split
  · exact .pure hscan
  · refine .handleIf (.bind (h.look.read entry.id) fun current _ => ?_) fun _ => .pure hscan
    refine .ite (fun _ => .pure ?_) fun _ => .pure hscan
    intro kv hkv
    rcases List.mem_append.mp hkv with hkv | hkv
    · exact hscan hkv
    · rw [List.mem_singleton.mp hkv]
      exact hentry

theorem Resetting.checkReadback (knob : Knob) (key text : String) (value : Value) :
    Act.Maintains E G I (HardwareTuning.checkReadback knob key value text) fun _ => True :=
  .ite (fun _ => .bind (h.look.read key) fun _ _ =>
    .ite (fun _ => .raise _) fun _ => .pure trivial) fun _ => .pure trivial

theorem Resetting.writeBack {knob : Knob} {key : String} {value : Value}
    (hvalue : (key, value) ∈ base) :
    Act.Maintains E G I (HardwareTuning.writeBack knob key value) fun _ => True := by
  unfold HardwareTuning.writeBack
  refine .bind (P := fun _ => True) ?_ fun needed _ => .bind (.when fun _ => ?_) fun _ _ =>
    h.checkReadback knob key _ value
  · exact .ite (fun _ => .bind (h.look.read key) fun _ _ => .pure trivial) fun _ => .pure trivial
  · exact .ite (fun _ => h.puts (.restoreValue key value) ⟨_, hvalue, .inr rfl⟩)
      fun _ => h.puts (.write key value) ⟨_, hvalue, .inl rfl⟩

theorem Resetting.restoreOne {st : Restoration} {key : String} {value : Value}
    (hvalue : (key, value) ∈ base) :
    Act.Maintains E G I (HardwareTuning.restoreOne inventory st key value) fun _ => True := by
  unfold HardwareTuning.restoreOne
  split
  · exact .raise _
  · exact .ite (fun _ => .pure trivial) fun _ => .ite (fun _ => .pure trivial) fun _ =>
      .handleIf (.bind (h.writeBack hvalue) fun _ _ => .pure trivial) fun _ => .pure trivial

theorem Resetting.verifyOne (journal : Journal) (st : Restoration) (key : String) :
    Act.Maintains E G I (HardwareTuning.verifyOne inventory journal st key) fun _ => True := by
  unfold HardwareTuning.verifyOne
  split
  · exact .handleIf (.bind (h.checkReadback _ key _ _) fun _ _ => .pure trivial)
      fun _ => .pure trivial
  · exact .raise _

theorem Resetting.restoreScanned {journal : Journal} {scan : Scan} (hscan : scan.restore ⊆ base) :
    Act.Maintains E G I (HardwareTuning.restoreScanned inventory journal scan) fun _ => True := by
  have hupdate : ∀ keys s w, I s w → I (s.update keys Entry.markPending) w := by
    intro keys s w hI
    refine h.smaller s _ w hI fun entry hentry => ?_
    obtain ⟨e, he, rfl⟩ := Journal.mem_update.mp hentry
    have hbase := h.within s w hI e he
    split
    · exact hbase
    · exact hbase
  have hwithout : ∀ keys s w, I s w → I (s.without keys) w := fun keys s w hI =>
    h.smaller s _ w hI fun entry hentry => h.within s w hI entry (List.mem_of_mem_filter hentry)
  unfold HardwareTuning.restoreScanned
  dsimp only
  refine .bind (.modify (hupdate _)) fun _ _ => .bind (.when fun _ => h.save _) fun _ _ =>
    .bind (h.look.ordered (Q := fun _ => True) trivial fun st _ key value hvalue =>
      h.restoreOne ?_) fun _ _ => .bind (.fold (Q := fun _ => True) trivial fun st _ key _ =>
        h.verifyOne journal st key) fun _ _ => .bind (.modify (hwithout _)) fun _ _ =>
          .bind .get fun _ _ => .bind (h.save _) fun _ _ => .pure trivial
  exact hscan (restore_yieldDomains_subset (mem_of_lookup hvalue))

/-- A reset puts baselines of its journal back, and writes nothing else. -/
theorem Resetting.reset :
    Act.Maintains E G I (HardwareTuning.reset inventory) fun _ => True := by
  unfold HardwareTuning.reset resetCore
  refine .bind (P := fun _ => True) ?_ fun done _ =>
    .ite (fun _ => .pure trivial) fun _ => .raise _
  refine .bind .get fun journal hjournal => ?_
  obtain ⟨w, hI⟩ := hjournal
  have hbase := h.within journal w hI
  refine .bind (.fold (Q := fun scan : Scan => scan.restore ⊆ base) (List.nil_subset base)
    fun scan hscan entry hentry => h.scanOne hscan (hbase entry hentry)) fun scan hscan =>
      h.restoreScanned hscan

end Resetting

end Preseed.HardwareTuning
