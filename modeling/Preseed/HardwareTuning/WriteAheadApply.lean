import Preseed.HardwareTuning.EngineRules
import Preseed.HardwareTuning.WriteAhead

/-!
# Write-ahead recovery of an apply

An apply reads until it has its snapshot, saves the snapshot, and only then writes
controls of the snapshot. Its final verification settles every entry on a reading, so
that the journal it saves, and the one an undoing reset starts from, describe the
machine. The tuning processes of `Reached` therefore keep the machine sound.
-/

namespace Preseed.HardwareTuning

open Effects List

/-- A program that only reads: it leaves its memory and the machine as they are. -/
def Passive {α : Type} (inventory : Inventory) (calm : Prop)
    (E : Environment Hardware Journal Machine) (prog : EngineAct α) : Prop :=
  ∀ s m, m.Sound inventory calm → wp E (fun m _ op => WriteAhead inventory calm m op) prog
    (fun _ s' m' => s' = s ∧ m' = m) s m

namespace Passive

variable {α β : Type} {inventory : Inventory} {spread : String → String → Prop} {calm : Prop}
  {E : Environment Hardware Journal Machine}

/-- To be passive is to maintain the memory and the machine. -/
theorem iff_maintains {prog : EngineAct α} : Passive inventory calm E prog ↔
    ∀ s m, m.Sound inventory calm → Act.Maintains E (fun m _ op => WriteAhead inventory calm m op)
      (fun s' m' => s' = s ∧ m' = m) prog fun _ => True := by
  constructor
  · rintro h s m hsound _ _ ⟨rfl, rfl⟩
    exact wp_mono (h _ _ hsound) fun _ _ _ hsame => ⟨hsame, fun _ _ => trivial⟩
  · intro h s m hsound
    exact wp_mono (h s m hsound s m ⟨rfl, rfl⟩) fun _ _ _ hsame => hsame.1

theorem pure (a : α) : Passive inventory calm E (Pure.pure a) := fun _ _ _ => ⟨rfl, rfl⟩

theorem raise (e : Failure) : Passive inventory calm E (Act.raise e : EngineAct α) :=
  fun _ _ _ => ⟨rfl, rfl⟩

theorem lift (x : Except Failure α) : Passive inventory calm E (Act.lift x) :=
  fun _ _ _ => ⟨rfl, rfl⟩

/-- Passive programs compose. -/
theorem bind {m : EngineAct α} {f : α → EngineAct β} (hm : Passive inventory calm E m)
    (hf : ∀ a, Passive inventory calm E (f a)) : Passive inventory calm E (m >>= f) :=
  iff_maintains.mpr fun s w hsound => .bind (iff_maintains.mp hm s w hsound)
    fun a _ => iff_maintains.mp (hf a) s w hsound

/-- A passive conditional. -/
theorem ite {c : Prop} [Decidable c] {m m' : EngineAct α} (hm : Passive inventory calm E m)
    (hm' : Passive inventory calm E m') : Passive inventory calm E (if c then m else m') := by
  split
  · exact hm
  · exact hm'

theorem when {c : Prop} [Decidable c] {m : EngineAct Unit} (hm : Passive inventory calm E m) :
    Passive inventory calm E (Act.when c m) :=
  ite hm (pure ())

section

variable (hE : ∀ m mem op answer m', E m mem op answer m' →
  hardware inventory spread m mem op answer m')

include hE

/-- A reading is passive. -/
theorem read (key : String) : Passive inventory calm E (readControl key) := by
  intro s w hsound
  rw [wp_readControl]
  exact ⟨hsound.passive rfl (by simp), fun _ _ h => ⟨rfl, (hE _ _ _ _ _ h).1⟩⟩

/-- Asking for the temperature is passive. -/
theorem temperature : Passive inventory calm E readTemperature := by
  intro s w hsound
  refine (wp_request .temperature).mpr ?_
  exact ⟨hsound.passive rfl (by simp), fun _ _ h => ⟨rfl, hE _ _ _ _ _ h⟩⟩

/-- Asking whether the controls are still owned is passive. -/
theorem checkOwnership (values : List (String × Option Value)) :
    Passive inventory calm E (request (.checkOwnership values)) := by
  intro s w hsound
  rw [wp_request]
  exact ⟨hsound.passive rfl (by simp), fun _ _ h => ⟨rfl, hE _ _ _ _ _ h⟩⟩

/-- Looking changes nothing. -/
theorem looking {s : Journal} {m : Machine} (hsound : m.Sound inventory calm) :
    Looking E (fun m _ op => WriteAhead inventory calm m op) fun s' m' => s' = s ∧ m' = m := by
  intro op hop
  cases op with
  | read key =>
    exact Act.Maintains.mono (iff_maintains.mp (read hE key) s m hsound) fun _ _ => trivial
  | checkOwnership values => exact iff_maintains.mp (checkOwnership hE values) s m hsound
  | write | writeMaximum | restoreValue | save | temperature => exact hop.elim

/-- `Engine.health` is passive. -/
theorem health (engine : Engine) : Passive inventory calm E (HardwareTuning.health engine) :=
  iff_maintains.mpr fun s m hsound =>
    (looking hE hsound).health (iff_maintains.mp (temperature hE) s m hsound) engine

theorem observe (affected : List String) :
    Passive inventory calm E (HardwareTuning.observe affected) :=
  iff_maintains.mpr fun _ _ hsound => (looking hE hsound).observe affected

theorem observedChange (seen : List (String × Value)) :
    Passive inventory calm E (HardwareTuning.observedChange seen) :=
  iff_maintains.mpr fun _ _ hsound => (looking hE hsound).observedChange seen

theorem readIfRestorable (knob : Knob) (key : String) :
    Passive inventory calm E (HardwareTuning.readIfRestorable knob key) :=
  ite (bind (read hE key) fun _ => pure _) (pure _)

end

end Passive

/-! ### What is planned and what is snapshot -/

/-- A control and what its write may change are controls of the inventory. -/
theorem sideEffects_known {inventory : Inventory} {key other : String}
    (hkey : (inventory.get? key).isSome) (h : other ∈ sideEffects inventory key) :
    (inventory.get? other).isSome := by
  obtain ⟨knob, hknob⟩ := Option.isSome_iff_exists.mp hkey
  simp only [sideEffects, hknob, cons_append, mem_cons, mem_append] at h
  rcases h with rfl | h | h
  · exact hkey
  · simpa using (mem_filter.mp h).2
  · obtain ⟨k, hk, rfl⟩ := mem_map.mp h
    rw [Inventory.get?_of_mem (mem_of_mem_filter hk)]
    rfl

section Apply

variable {inventory : Inventory} {spread : String → String → Prop} {calm : Prop}
  {E : Environment Hardware Journal Machine}
  (hE : ∀ m mem op answer m', E m mem op answer m' → hardware inventory spread m mem op answer m')
  {s : Journal} {m : Machine}

include hE

/-- A plan only reads, and its values are those of controls of the inventory. -/
theorem wp_plan {engine : Engine} (hengine : engine.inventory = inventory)
    (hsound : m.Sound inventory calm) (name : Profile) (settings : Settings) :
    wp E (fun m _ op => WriteAhead inventory calm m op) (plan engine name settings)
      (fun x s' m' => s' = s ∧ m' = m ∧ ∀ planned, x = .ok planned →
        (planned.1.map Prod.fst).Sublist (inventory.knobs.map Knob.id)) s m := by
  refine wp_mono ((Passive.looking hE hsound).plan engine name settings s m ⟨rfl, rfl⟩) ?_
  rintro x s' m' ⟨⟨rfl, rfl⟩, hplanned⟩
  refine ⟨rfl, rfl, fun planned heq => ?_⟩
  obtain ⟨policy, -, hvalues⟩ := hplanned planned heq
  exact hengine ▸ (resolvedValues_spec hvalues).1

/-- Looking for the controls to write only reads; they are controls of the plan. -/
theorem wp_changedKeys (hsound : m.Sound inventory calm) (values : List (String × Value)) :
    wp E (fun m _ op => WriteAhead inventory calm m op) (changedKeys inventory values)
      (fun x s' m' => s' = s ∧ m' = m ∧ ∀ changed, x = .ok changed →
        ∀ key ∈ changed, (inventory.get? key).isSome) s m := by
  refine wp_fold (fun _ changed s' m' => s' = s ∧ m' = m ∧
    ∀ key ∈ changed, (inventory.get? key).isSome) ⟨rfl, rfl, by simp⟩ ?_ ?_
  · rintro kv rest changed s' m' ⟨rfl, rfl, hchanged⟩
    cases hget : inventory.get? kv.1 with
    | none => exact ⟨rfl, rfl, by simp⟩
    | some knob =>
      have hadd : ∀ key ∈ changed ++ [kv.1], (inventory.get? key).isSome := by
        intro key hkey
        rcases mem_append.mp hkey with hkey | hkey
        · exact hchanged key hkey
        · rw [mem_singleton.mp hkey, hget]
          rfl
      dsimp only
      split
      · rw [wp_bind]
        refine wp_mono (Passive.read hE kv.1 s' m' hsound) ?_
        rintro (e | current) s'' m'' ⟨rfl, rfl⟩
        · exact ⟨rfl, rfl, by simp⟩
        · refine ⟨rfl, rfl, ?_⟩
          split
          · exact hadd
          · exact hchanged
      · exact ⟨rfl, rfl, hadd⟩
  · rintro changed s' m' ⟨rfl, rfl, hchanged⟩
    refine ⟨rfl, rfl, ?_⟩
    rintro _ ⟨⟩
    exact hchanged

/-- A snapshot has a pending entry with the current value for each control. -/
theorem wp_snapshot (hsound : m.Sound inventory calm) (values : List (String × Value))
    (affected : List String) :
    wp E (fun m _ op => WriteAhead inventory calm m op)
      (Act.fold (snapshot values) [] affected)
      (fun x s' m' => s' = s ∧ m' = m ∧ ∀ entries, x = .ok entries →
        entries.map Entry.id = affected ∧
          ∀ e ∈ entries, e.before = m.hw e.id ∧ e.pending = true) s m := by
  refine wp_fold (fun rest entries s' m' => s' = s ∧ m' = m ∧
    entries.map Entry.id ++ rest = affected ∧
      ∀ e ∈ entries, e.before = m.hw e.id ∧ e.pending = true) ⟨rfl, rfl, by simp, by simp⟩ ?_ ?_
  · rintro key rest entries s' m' ⟨rfl, rfl, hids, hentries⟩
    unfold snapshot
    rw [wp_bind, wp_readControl]
    refine ⟨hsound.passive rfl (by simp), fun answer m'' h => ?_⟩
    obtain ⟨rfl, hvalue⟩ : m'' = m' ∧ _ := hE _ _ _ _ _ h
    cases answer with
    | error e => exact ⟨rfl, rfl, by simp⟩
    | ok before =>
      refine ⟨rfl, rfl, by simpa using hids, fun e he => ?_⟩
      rcases mem_append.mp he with he | he
      · exact hentries e he
      · rw [mem_singleton.mp he]
        exact ⟨hvalue before rfl, rfl⟩
  · rintro entries s' m' ⟨rfl, rfl, hids, hentries⟩
    refine ⟨rfl, rfl, ?_⟩
    rintro _ ⟨⟩
    exact ⟨by simpa using hids, hentries⟩

/-! ### Writing and verifying -/

/-- The situation inside the `try` of an apply: the journal file is the snapshot `file`, and the
journal in memory has the same controls. -/
structure Applying (inventory : Inventory) (calm : Prop) (file s : Journal) (m : Machine) :
    Prop where
  /-- The machine is sound. -/
  sound : m.Sound inventory calm
  /-- The journal in memory describes the machine. -/
  kept : s.Kept inventory calm m
  /-- It has the controls of the snapshot. -/
  ids : s.ids = file.ids
  /-- The journal file is the snapshot. -/
  durable : m.durable = file
  /-- Every entry of the snapshot is pending. -/
  pending : ∀ e ∈ file.entries, e.pending = true

omit hE in
/-- The journal in memory has an entry for everything in the file. -/
theorem Applying.covers {file : Journal} (h : Applying inventory calm file s m) :
    s.Covers calm m := by
  intro _ e he hnot
  rw [h.durable] at he
  exact absurd (h.ids ▸ mem_map_of_mem he) hnot

/-- The situation while an apply writes: nothing is settled yet. -/
def Writing.Invariant (inventory : Inventory) (calm : Prop) (file s : Journal) (m : Machine) :
    Prop :=
  Applying inventory calm file s m ∧ ∀ e ∈ s.entries, e.pending = true

omit hE in
/-- Changing a request settles nothing. -/
theorem Writing.Invariant.setRequested {file : Journal}
    (h : Writing.Invariant inventory calm file s m) (key : String) (value : Option Value) :
    Writing.Invariant inventory calm file
      (s.update [key] fun e => { e with requested := value }) m := by
  obtain ⟨happly, hpending⟩ := h
  have hpending' : ∀ e ∈ (s.update [key] fun e => { e with requested := value }).entries,
      e.pending = true := by
    intro e he
    obtain ⟨e', he', rfl⟩ := Journal.mem_update.mp he
    split <;> exact hpending e' he'
  refine ⟨⟨happly.sound, ?_, ?_, happly.durable, happly.pending⟩, hpending'⟩
  · refine happly.kept.update [key] (fun _ => rfl) (fun _ => rfl) ?_
    intro _ e he _ hsettled
    have hmarked := hpending e he
    rw [show e.pending = false from hsettled] at hmarked
    exact absurd hmarked Bool.false_ne_true
  · rw [← happly.ids]
    exact Journal.update_ids s [key] (fun e => { e with requested := value }) fun _ => rfl

section Writing

variable (hcalm : calm → ∀ m mem op answer m', E m mem op answer m' →
    undisturbing inventory spread m mem op)
  {file : Journal} {policy : Policy}

include hcalm

section

variable (h : Writing.Invariant inventory calm file s m)
include h

/-- A write of a control of the snapshot. -/
theorem wp_write_snapshot (op : Request)
    {key : String} (htarget : op.target = some key) (hkey : key ∈ file.ids) :
    wp E (fun m _ op => WriteAhead inventory calm m op) (request op)
      (fun _ s' m' => s' = s ∧ Writing.Invariant inventory calm file s' m') s m := by
  obtain ⟨happly, hpending⟩ := h
  obtain ⟨e, he, rfl⟩ := mem_map.mp hkey
  have hguard : WriteAhead inventory calm m op := by
    refine ⟨happly.sound, fun key' htarget' => ?_, ?_⟩
    · rw [htarget] at htarget'
      cases htarget'
      exact ⟨e, happly.durable ▸ he, rfl, happly.pending e he⟩
    · rintro j rfl
      cases htarget
  rw [wp_request]
  refine ⟨hguard, fun answer m' h => ⟨rfl, ?_⟩⟩
  obtain ⟨hsound, hkept, hdurable, -⟩ := sound_of_write hE hcalm htarget happly.sound hguard
    happly.kept (fun _ e he hsettled => by rw [hpending e he] at hsettled; cases hsettled) h
  exact ⟨⟨hsound, hkept, happly.ids, hdurable.trans happly.durable, happly.pending⟩, hpending⟩

omit hE hcalm in
/-- A skipped request keeps the situation. -/
theorem wp_skipRequest (st : Writing)
    (key reason : String) :
    wp E (fun m _ op => WriteAhead inventory calm m op) (skipRequest st key reason)
      (fun _ s' m' => Writing.Invariant inventory calm file s' m') s m := by
  unfold skipRequest setRequested
  simp only [wp_bind, wp_modify, outcome_ok, wp_pure]
  exact h.setRequested key none

/-- The writing loop keeps the situation at one control. -/
theorem wp_writeOne (profile : ProfilePolicy)
    (affected : List String) (st : Writing) {key : String} (value : Value) (hkey : key ∈ file.ids) :
    wp E (fun m _ op => WriteAhead inventory calm m op)
      (writeOne inventory policy profile affected st key value)
      (fun _ s' m' => Writing.Invariant inventory calm file s' m') s m := by
  have hraise : ∀ e : Failure, wp E (fun m _ op => WriteAhead inventory calm m op)
      (Act.raise e : EngineAct Writing) (fun _ s' m' => Writing.Invariant inventory calm file s' m')
      s m := fun _ => h
  unfold writeOne
  cases hget : inventory.get? key with
  | none => exact hraise _
  | some knob =>
    dsimp only
    rw [wp_bind]
    refine wp_mono (Passive.readIfRestorable hE knob key s m h.1.sound) ?_
    rintro (e | before) s' m' ⟨rfl, rfl⟩
    · exact h
    rw [outcome_ok]
    split
    swap
    · exact h
    split
    · -- `write_maximum` chooses the value.
      have hwrite : wp E (fun m _ op => WriteAhead inventory calm m op) (writeMaximum key)
          (fun _ s'' m'' => s'' = s' ∧ Writing.Invariant inventory calm file s'' m'') s' m' :=
        wp_write_snapshot hE hcalm h (.writeMaximum key) rfl hkey
      unfold selectMaximum
      rw [wp_bind]
      refine wp_mono hwrite ?_
      rintro (e | selected) s' m' ⟨rfl, h'⟩
      · exact h'
      rw [outcome_ok]
      cases selected with
      | none =>
        dsimp only
        split
        · exact h'
        · exact wp_skipRequest h' _ key _
      | some chosen =>
        dsimp only
        rw [wp_bind, wp_lift]
        cases knob.resolve chosen policy with
        | error e => exact h'
        | ok resolved => exact h'.setRequested key resolved
    · -- The value is written directly.
      unfold writeDirectly
      rw [wp_bind]
      refine wp_mono (Passive.ite (.bind (.observe hE affected) fun _ => .pure _) (.pure _)
        s' m' h.1.sound) ?_
      rintro (e | observed) s' m' ⟨rfl, rfl⟩
      · exact h
      have hwrite : wp E (fun m _ op => WriteAhead inventory calm m op) (writeControl key value)
          (fun _ s'' m'' => s'' = s' ∧ Writing.Invariant inventory calm file s'' m'') s' m' :=
        wp_write_snapshot hE hcalm h (.write key value) rfl hkey
      rw [outcome_ok, wp_handleIf, wp_bind]
      refine wp_mono hwrite ?_
      rintro (e | _) s' m' ⟨rfl, h'⟩
      · simp only [outcome_error]
        split
        · split
          · exact h'
          · rw [wp_bind]
            refine wp_mono (Passive.observedChange hE _ s' m' h'.1.sound) ?_
            rintro (e' | changed) s'' m'' ⟨rfl, rfl⟩
            · exact h'
            · rw [outcome_ok]
              split
              · exact h'
              · exact wp_skipRequest h' _ key _
        · exact h'
      · exact h'

end

end Writing

/-- The final verification so far: the entries that are still pending are those to come. -/
theorem wp_verifyApplied (file : Journal) (policy : Policy)
    (values : List (String × Option Value)) {entries : List Entry}
    (hentries : entries.map Entry.id = file.ids) (h : Applying inventory calm file s m) :
    wp E (fun m _ op => WriteAhead inventory calm m op)
      (Act.fold (verifyApplied inventory policy values) [] entries)
      (fun x s' m' => m' = m ∧ Applying inventory calm file s' m' ∧
        ∀ actual, x = .ok actual → ∀ e ∈ s'.entries, e.pending = false) s m := by
  refine wp_fold (fun rest _ s' m' => m' = m ∧ Applying inventory calm file s' m' ∧
    ∀ e ∈ s'.entries, e.pending = true → e.id ∈ rest.map Entry.id) ?_ ?_ ?_
  · refine ⟨rfl, h, fun e he _ => ?_⟩
    rw [hentries, ← h.ids]
    exact mem_map_of_mem he
  · rintro entry rest actual s' m' ⟨rfl, happly, hrest⟩
    unfold verifyApplied
    cases hget : inventory.get? entry.id with
    | none => exact ⟨rfl, happly, by simp⟩
    | some knob =>
      have hrestorable := Inventory.restorable_of_get? hget
      -- The value the entry settles on is the reading of the control.
      have hsettled : wp E (fun m _ op => WriteAhead inventory calm m op)
          (settledValue knob entry.id values) (fun x s'' m'' => s'' = s' ∧ m'' = m' ∧
            ∀ last, x = .ok last → knob.restorable → last = some (m'.hw entry.id)) s' m' := by
        unfold settledValue
        split
        · rw [wp_bind, wp_readControl]
          refine ⟨happly.sound.passive rfl (by simp), fun answer m'' h => ?_⟩
          obtain ⟨rfl, hvalue⟩ : m'' = m' ∧ _ := hE _ _ _ _ _ h
          cases answer with
          | error e => exact ⟨rfl, rfl, by simp⟩
          | ok current =>
            refine ⟨rfl, rfl, ?_⟩
            rintro _ ⟨⟩ -
            rw [hvalue current rfl]
        · split
          · exact ⟨rfl, rfl, fun _ _ h => absurd h ‹_›⟩
          · exact ⟨rfl, rfl, by simp⟩
      dsimp only
      rw [wp_bind]
      refine wp_mono hsettled ?_
      rintro (e | last) s'' m'' ⟨rfl, rfl, hlast⟩
      · exact ⟨rfl, happly, by simp⟩
      rw [outcome_ok, wp_bind, wp_modify, outcome_ok, wp_bind]
      set s₁ := s''.update [entry.id] (fun e => { e with last }) with hs₁
      have hfirst : Applying inventory calm file s₁ m'' := by
        refine ⟨happly.sound, happly.kept.update _ (fun _ => rfl) (fun _ => rfl) ?_, ?_,
          happly.durable, happly.pending⟩
        · intro _ e _ hid _ hres
          rw [mem_singleton] at hid
          rw [hid] at hres ⊢
          exact hlast last rfl (hrestorable ▸ hres)
        · rw [← happly.ids]
          exact Journal.update_ids s'' _ (fun e => { e with last }) fun _ => rfl
      have hchecked : Passive inventory calm E
          (checkRequest knob policy (values.lookup entry.id) last) := by
        unfold checkRequest
        split
        · exact .bind (.lift _) fun _ => .ite (.raise _) (.pure _)
        · exact .pure _
      refine wp_mono (hchecked s₁ m'' happly.sound) ?_
      rintro (e | _) s₂ m₂ ⟨rfl, rfl⟩
      · exact ⟨rfl, hfirst, by simp⟩
      rw [outcome_ok, wp_bind, wp_modify, outcome_ok, wp_pure, outcome_ok]
      refine ⟨rfl, ⟨happly.sound, hfirst.kept.update _ (fun _ => rfl) (fun _ => rfl) ?_, ?_,
        happly.durable, happly.pending⟩, ?_⟩
      · intro _ e he hid _ hres
        rw [mem_singleton] at hid
        obtain ⟨e', -, rfl⟩ := Journal.mem_update.mp he
        by_cases hid' : e'.id ∈ [entry.id]
        · rw [if_pos hid'] at hres ⊢
          rw [mem_singleton.mp hid'] at hres ⊢
          exact hlast last rfl (hrestorable ▸ hres)
        · rw [if_neg hid'] at hid
          exact absurd (mem_singleton.mpr hid) hid'
      · rw [← hfirst.ids]
        exact Journal.update_ids s₁ _ (fun e => { e with pending := false }) fun _ => rfl
      · intro e he hpending
        obtain ⟨e₁, he₁, rfl⟩ := Journal.mem_update.mp he
        obtain ⟨e₀, he₀, rfl⟩ := Journal.mem_update.mp he₁
        by_cases hid : e₀.id = entry.id
        · simp [hid] at hpending
        · simp only [mem_singleton, hid, if_false] at hpending ⊢
          have hmem := hrest e₀ he₀ hpending
          simpa [hid] using hmem
  · rintro actual s' m' ⟨rfl, happly, hrest⟩
    refine ⟨rfl, happly, fun _ _ e he => ?_⟩
    by_contra hpending
    rw [Bool.not_eq_false] at hpending
    simpa using hrest e he hpending

/-! ### The whole apply -/

section Whole

variable (hcalm : calm → ∀ m mem op answer m', E m mem op answer m' →
    undisturbing inventory spread m mem op)

include hcalm

/-- Writing and verifying: a failure leaves a journal an undoing reset can start from. -/
theorem wp_writeAndVerify {file : Journal} (policy : Policy) (name : Profile)
    {values : List (String × Value)} (affected skipped : List String) (temperature : Option ℚ)
    (hnodup : (values.map Prod.fst).Nodup) (hvalues : ∀ key ∈ values.map Prod.fst, key ∈ file.ids)
    (h : Writing.Invariant inventory calm file s m) :
    wp E (fun m _ op => WriteAhead inventory calm m op)
      (writeAndVerify inventory policy name values affected skipped temperature)
      (fun x s' m' => m'.Sound inventory calm ∧ ∀ e, x = .error e →
        s'.Kept inventory calm m' ∧ s'.Covers calm m') s m := by
  have hknown : ∀ key ∈ values.map Prod.fst, (inventory.get? key).isSome := by
    intro key hkey
    obtain ⟨e, he, rfl⟩ := mem_map.mp (hvalues key hkey)
    exact h.1.sound.kept.known e (h.1.durable.symm ▸ he)
  unfold writeAndVerify
  rw [wp_bind]
  refine wp_ordered hnodup hknown
    (fun _ _ s' m' => Writing.Invariant inventory calm file s' m') h ?_ ?_ ?_
  · rintro visited st s' m' lo hi low h' - -
    refine ⟨h'.1.sound.passive rfl (by simp), fun answer m'' hans => ?_⟩
    obtain ⟨rfl, -⟩ : m'' = m' ∧ _ := hE _ _ _ _ _ hans
    exact ⟨fun e _ => ⟨h'.1.sound, fun _ _ => ⟨h'.1.kept, h'.1.covers⟩⟩, fun _ => h'⟩
  · rintro visited st s' m' key value h' - hvalue
    have hkey := hvalues key (mem_map_of_mem (mem_of_lookup hvalue))
    refine wp_mono (wp_writeOne hE hcalm h' _ affected st value hkey) ?_
    rintro (e | st') s'' m'' h''
    · exact ⟨h''.1.sound, fun _ _ => ⟨h''.1.kept, h''.1.covers⟩⟩
    · exact h''
  · rintro visited st s' m' - h'
    rw [outcome_ok, wp_bind, wp_get, outcome_ok, wp_bind]
    refine wp_mono (wp_verifyApplied hE file policy st.values h'.1.ids h'.1) ?_
    rintro (e | actual) s₁ m₁ ⟨rfl, happly, hsettled⟩
    · exact ⟨happly.sound, fun _ _ => ⟨happly.kept, happly.covers⟩⟩
    rw [outcome_ok, wp_bind, wp_modify, outcome_ok, wp_bind, wp_get,
      outcome_ok, wp_bind, wp_saveJournal]
    set s₂ : Journal := { s₁ with entries := s₁.entries.filter fun e =>
      e.id ∉ st.unmodified ∨ e.last ≠ some e.before } with hs₂
    have hkept : s₂.Kept inventory calm m₁ := happly.kept.sublist filter_sublist
    -- A dropped entry is settled on its baseline.
    have hcovers : s₂.Covers calm m₁ := by
      intro hc e he hnot
      rw [happly.durable] at he
      obtain ⟨e', he', hid⟩ := mem_map.mp (happly.ids ▸ mem_map_of_mem he :
        e.id ∈ s₁.ids)
      have hdropped : e'.last = some e'.before := by
        by_contra hne
        refine hnot (mem_map.mpr ⟨e', mem_filter.mpr ⟨he', ?_⟩, hid⟩)
        simp [hne]
      have hbefore : e'.before = e.before := by
        rw [happly.kept.before e' he', hid,
          happly.sound.kept.before e (happly.durable.symm ▸ he)]
      cases hres : inventory.restorable e'.id with
      | false => rw [← hid, happly.kept.constant e' he' hres, hbefore]
      | true =>
        have hlast := happly.kept.last hc e' he' (hsettled actual rfl e' he') hres
        rw [hdropped, Option.some.injEq] at hlast
        rw [← hid, ← hlast, hbefore]
    refine ⟨⟨happly.sound, by simp [Request.target], fun j hj => by cases hj; exact hcovers⟩,
      fun answer m₂ hans => ?_⟩
    obtain ⟨hcases, -⟩ := hardware_save (hE _ _ _ _ _ hans)
    have hafter : m₂.Sound inventory calm ∧ s₂.Kept inventory calm m₂ ∧ s₂.Covers calm m₂ := by
      rcases hcases with rfl | rfl
      · exact ⟨happly.sound, hkept, hcovers⟩
      · exact ⟨happly.sound.saved hkept, hkept.saved, Journal.Kept.covers_self⟩
    cases answer with
    | error e => exact ⟨hafter.1, fun _ _ => hafter.2⟩
    | ok _ => exact ⟨hafter.1, by simp⟩

/-- Undoing a failed apply. -/
theorem wp_undo {α : Type} (exc : Failure) (hsound : m.Sound inventory calm)
    (hkept : s.Kept inventory calm m) (hcovers : s.Covers calm m) :
    wp E (fun m _ op => WriteAhead inventory calm m op) (undo inventory exc : EngineAct α)
      (fun _ _ m' => m'.Sound inventory calm) s m := by
  unfold undo
  rw [wp_bind, wp_handleIf, wp_bind]
  refine wp_mono (wp_reset_writeAhead hE hcalm hsound hkept hcovers) ?_
  rintro (e | report) s' m' ⟨hsound', -⟩
  · simp only [outcome_error]
    split
    · exact hsound'
    · exact hsound'
  · exact hsound'

/-- The write-ahead property of an apply on an empty journal file. -/
theorem wp_applyPlan (policy : Policy) (name : Profile) {values : List (String × Value)}
    (skipped : List String) (hsound : m.Sound inventory calm) (hempty : m.durable.entries = [])
    (hvalues : (values.map Prod.fst).Sublist (inventory.knobs.map Knob.id)) :
    wp E (fun m _ op => WriteAhead inventory calm m op)
      (applyPlan inventory policy name values skipped)
      (fun _ _ m' => m'.Sound inventory calm) s m := by
  unfold applyPlan
  rw [wp_bind]
  refine wp_mono (Passive.temperature hE s m hsound) ?_
  rintro (e | temperature) s' m' ⟨rfl, rfl⟩
  · exact hsound
  rw [outcome_ok, wp_bind]
  have hgate : Passive inventory calm E (thermalGate policy temperature) := by
    unfold thermalGate
    split
    · exact .pure _
    · exact .when (.raise _)
  refine wp_mono (hgate s' m' hsound) ?_
  rintro (e | _) s' m' ⟨rfl, rfl⟩
  · exact hsound
  rw [outcome_ok, wp_bind, wp_lift]
  cases risky inventory values with
  | error e => exact hsound
  | ok risk =>
    rw [outcome_ok, wp_bind]
    refine wp_mono (Passive.when (.raise _) s' m' hsound) ?_
    rintro (e | _) s' m' ⟨rfl, rfl⟩
    · exact hsound
    rw [outcome_ok, wp_bind]
    refine wp_mono (wp_changedKeys hE hsound values) ?_
    rintro (e | changed) s' m' ⟨rfl, rfl, hchanged⟩
    · exact hsound
    rw [outcome_ok, wp_bind]
    set affected := sortedKeys (changed.flatMap (sideEffects inventory)) with haffected
    have hknown : ∀ key ∈ affected, (inventory.get? key).isSome := by
      intro key hkey
      obtain ⟨k, hk, hside⟩ := mem_flatMap.mp (mem_sortedKeys.mp hkey)
      exact sideEffects_known (hchanged changed rfl k hk) hside
    set planned := values.filter fun kv => kv.1 ∈ affected with hplanned
    refine wp_mono (wp_snapshot hE hsound planned affected) ?_
    rintro (e | entries) s' m' ⟨rfl, rfl, hentries⟩
    · exact hsound
    obtain ⟨hids, hentries⟩ := hentries entries rfl
    rw [outcome_ok, wp_bind, wp_modify, outcome_ok, wp_bind, wp_saveJournal]
    set file : Journal := ⟨some name, entries⟩ with hfile
    have hkept : file.Kept inventory calm m' := by
      refine ⟨?_, fun e he => hknown e.id (hids ▸ mem_map_of_mem he), fun e he => ?_,
        fun e he _ => ?_, fun _ e he hsettled => ?_⟩
      · change (entries.map Entry.id).Nodup
        rw [hids]
        exact nodup_sortedKeys _
      · rw [(hentries e he).1, hsound.fresh hempty]
      · exact (hentries e he).1.symm
      · rw [(hentries e he).2] at hsettled
        cases hsettled
    refine ⟨⟨hsound, by simp [Request.target], fun j _ _ e he => ?_⟩, fun answer m'' hans => ?_⟩
    · rw [hempty] at he
      simp at he
    obtain ⟨hcases, hok⟩ := hardware_save (hE _ _ _ _ _ hans)
    cases answer with
    | error e =>
      rcases hcases with rfl | rfl
      · exact hsound
      · exact hsound.saved hkept
    | ok _ =>
      cases hok rfl
      have hinv : Writing.Invariant inventory calm file file (m'.saved file) :=
        ⟨⟨hsound.saved hkept, hkept.saved, rfl, rfl, fun e he => (hentries e he).2⟩,
          fun e he => (hentries e he).2⟩
      have hplannedSub : (planned.map Prod.fst).Sublist (values.map Prod.fst) :=
        filter_sublist.map _
      have hnodup := (hplannedSub.trans hvalues).nodup inventory.nodup
      have hplannedIds : ∀ key ∈ planned.map Prod.fst, key ∈ file.ids := by
        intro key hkey
        obtain ⟨kv, hkv, rfl⟩ := mem_map.mp hkey
        change kv.1 ∈ entries.map Entry.id
        rw [hids]
        simpa using (mem_filter.mp hkv).2
      rw [outcome_ok, wp_handle]
      refine wp_mono (wp_writeAndVerify hE hcalm policy name affected skipped temperature
        hnodup hplannedIds hinv) ?_
      rintro (e | report) s₁ m₁ ⟨hsound₁, hundo⟩
      · exact wp_undo hE hcalm e hsound₁ (hundo e rfl).1 (hundo e rfl).2
      · exact hsound₁

theorem wp_planned_writeAhead {engine : Engine} (hengine : engine.inventory = inventory)
    (name : Profile) (settings : Settings) : ∀ s m, m.Sound inventory calm → m.durable.entries = [] →
    wp E (fun m _ op => WriteAhead inventory calm m op) (do
      let (values, skipped) ← plan engine name settings
      match engine.policy with
      | none => Act.raise (tuningError "invalid profile")
      | some policy => applyPlan engine.inventory policy name values skipped)
      (fun _ _ m' => m'.Sound inventory calm) s m := by
  subst hengine
  intro s m hsound hempty
  rw [wp_bind]
  refine wp_mono (wp_plan hE rfl hsound name settings) ?_
  rintro (e | planned) s' m' ⟨rfl, rfl, hplanned⟩
  · exact hsound
  rw [outcome_ok]
  dsimp only
  split
  · exact hsound
  · exact wp_applyPlan hE hcalm _ name _ hsound hempty (hplanned planned rfl)

/-- The write-ahead property of an apply. -/
theorem wp_apply_writeAhead {engine : Engine} (hengine : engine.inventory = inventory)
    (name : Profile) (settings : Settings) (hsound : m.Sound inventory calm) :
    wp E (fun m _ op => WriteAhead inventory calm m op)
      (HardwareTuning.apply engine name settings) (fun _ _ m' => m'.Sound inventory calm)
      m.durable m := by
  subst hengine
  unfold HardwareTuning.apply
  rw [wp_bind, wp_get, outcome_ok, wp_bind, wp_when]
  refine ⟨fun _ => ?_, fun hempty => wp_planned_writeAhead hE hcalm rfl name settings _ _ hsound (not_not.mp hempty)⟩
  unfold giveUp
  rw [wp_bind]
  refine wp_mono (Passive.health hE _ _ m hsound) ?_
  rintro (e | report) s' m' ⟨rfl, rfl⟩
  · exact hsound
  rw [outcome_ok, wp_bind]
  refine wp_mono (wp_reset_writeAhead hE hcalm hsound hsound.kept
    Journal.Kept.covers_self) ?_
  rintro (e | done) s' m' ⟨hsound', hdone⟩
  · exact hsound'
  obtain ⟨hempty, hdurable⟩ := hdone done rfl
  rw [outcome_ok, wp_when]
  exact ⟨fun _ => hsound', fun _ => wp_planned_writeAhead hE hcalm rfl name settings s' m' hsound' (hdurable ▸ hempty)⟩

end Whole

end Apply

/-! ### Every tuning process -/

section Processes

variable {inventory : Inventory} {spread : String → String → Prop} {calm : Prop}
  {E : Environment Hardware Journal Machine}

/-- Loading a journal changes nothing about which machines are sound. -/
theorem sound_adopt (journal : Journal) {m : Machine} :
    m.Sound (inventory.adopt journal) calm ↔ m.Sound inventory calm := by
  have hkept : ∀ j : Journal, j.Kept (inventory.adopt journal) calm m ↔ j.Kept inventory calm m := by
    intro j
    constructor
    · rintro ⟨h₁, h₂, h₃, h₄, h₅⟩
      exact ⟨h₁, by simpa using h₂, h₃, by simpa using h₄, by simpa using h₅⟩
    · rintro ⟨h₁, h₂, h₃, h₄, h₅⟩
      exact ⟨h₁, by simpa using h₂, h₃, by simpa using h₄, by simpa using h₅⟩
  constructor
  · rintro ⟨h₁, h₂, h₃, h₄⟩
    exact ⟨(hkept _).mp h₁, h₂, by simpa using h₃, by simpa using h₄⟩
  · rintro ⟨h₁, h₂, h₃, h₄⟩
    exact ⟨(hkept _).mpr h₁, h₂, by simpa using h₃, by simpa using h₄⟩

section

variable (hE : ∀ m mem op answer m', E m mem op answer m' → hardware inventory spread m mem op answer m')
include hE

/-- Every tuning process keeps the write-ahead property. -/
theorem process_writeAhead
    (hcalm : calm → ∀ m mem op answer m', E m mem op answer m' →
      undisturbing inventory spread m mem op)
    (command : Command) {m : Machine} (hsound : m.Sound inventory calm) :
    Program.Safe E (fun m _ op => WriteAhead inventory calm m op)
      (fun _ m' => m'.Sound inventory calm) (command.process inventory m.durable) m := by
  unfold Command.process
  split
  · exact hsound
  · rename_i loaded hload
    obtain rfl : loaded = inventory.adopt m.durable := by
      unfold loadEngine at hload
      split at hload
      · cases hload
      · split at hload <;> cases hload
        rfl
    have hE' : ∀ m' mem op answer m'', E m' mem op answer m'' →
        hardware (inventory.adopt m.durable) spread m' mem op answer m'' := by
      rw [hardware_adopt]
      exact hE
    have hcalm' : calm → ∀ m' mem op answer m'', E m' mem op answer m'' →
        undisturbing (inventory.adopt m.durable) spread m' mem op := by
      simpa only [undisturbing, Inventory.restorable_adopt] using hcalm
    have hloaded := (sound_adopt m.durable).mpr hsound
    have hrun : wp E (fun m' _ op => WriteAhead (inventory.adopt m.durable) calm m' op)
        (command.run (inventory.adopt m.durable))
        (fun _ _ m' => m'.Sound (inventory.adopt m.durable) calm) m.durable m := by
      cases command with
      | apply policy checksOwnership profile settings =>
        unfold Command.run
        rw [wp_bind]
        refine wp_mono (wp_apply_writeAhead hE' hcalm' rfl profile settings hloaded) ?_
        rintro (e | report) s' m' h
        · exact h
        · exact h
      | reset =>
        unfold Command.run
        rw [wp_bind]
        refine wp_mono (wp_reset_writeAhead hE' hcalm' hloaded hloaded.kept
          Journal.Kept.covers_self) ?_
        rintro (e | report) s' m' ⟨h, -⟩
        · exact h
        · exact h
    refine Program.Safe.mono hrun (fun _ _ _ _ _ h => h) ?_ ?_
    · rintro m' mem op ⟨h₁, h₂, h₃⟩
      exact ⟨(sound_adopt m.durable).mp h₁, h₂, h₃⟩
    · rintro x m' h
      exact (sound_adopt m.durable).mp h

/-- Wherever tuning processes may have been stopped, the machine is sound. -/
theorem Reached.sound
    (hcalm : calm → ∀ m mem op answer m', E m mem op answer m' →
      undisturbing inventory spread m mem op)
    {m : Machine} (h : Reached inventory E m) : m.Sound inventory calm := by
  induction h with
  | fresh hw numeric =>
    have hkept : Journal.empty.Kept inventory calm ⟨hw, Journal.empty, hw⟩ := by
      constructor <;> simp [Journal.empty, Journal.ids]
    exact ⟨hkept, fun _ => rfl, numeric, numeric⟩
  | @process m m' p command _ run ih =>
    have hsafe := (process_writeAhead hE hcalm command ih).steps run
    cases p with
    | done x => exact hsafe
    | call mem op next => exact hsafe.1.sound

end

end Processes

end Preseed.HardwareTuning
