import Preseed.HardwareTuning.ResetAccounts

/-!
# An apply replaces no journal

Only the snapshot of an apply brings new baselines into the journal file, and it is
taken when the file has no entries left: a reset has emptied it, or has raised and
ended the apply. Every other save of an apply or a reset leaves out entries at most.
-/

namespace Preseed.HardwareTuning

open Effects

/-- A save goes to a file without entries, or only leaves out entries of the file. -/
def Preserves (file : Journal) (op : Request) : Prop :=
  ∀ journal, op = .save journal → file.entries = [] ∨ journal.baselines.Sublist file.baselines

/-- The guard of an apply: no save replaces a journal. -/
def preserving : Guard Hardware Journal Journal := fun file _ op => Preserves file op

/-- A program that leaves the journal file alone, and the baselines in its memory. -/
def Clerical {α : Type} (prog : EngineAct α) : Prop :=
  ∀ s file, wp anyone preserving prog
    (fun _ s' file' => s'.baselines = s.baselines ∧ file' = file) s file

namespace Clerical

variable {α β : Type}

/-- To be clerical is to maintain the file and the baselines in memory. -/
theorem iff_maintains {prog : EngineAct α} : Clerical prog ↔ ∀ baselines file,
    Act.Maintains anyone preserving (fun s' file' => s'.baselines = baselines ∧ file' = file) prog
      fun _ => True := by
  constructor
  · rintro h _ _ s file ⟨rfl, rfl⟩
    exact wp_mono (h s file) fun _ _ _ hsame => ⟨hsame, fun _ _ => trivial⟩
  · intro h s file
    exact wp_mono (h _ file s file ⟨rfl, rfl⟩) fun _ _ _ hsame => hsame.1

theorem pure (a : α) : Clerical (Pure.pure a) := fun _ _ => ⟨rfl, rfl⟩

theorem raise (e : Failure) : Clerical (Act.raise e : EngineAct α) := fun _ _ => ⟨rfl, rfl⟩

theorem lift (x : Except Failure α) : Clerical (Act.lift x) := fun _ _ => ⟨rfl, rfl⟩

/-- Clerical programs compose. -/
theorem bind {m : EngineAct α} {f : α → EngineAct β} (hm : Clerical m)
    (hf : ∀ a, Clerical (f a)) : Clerical (m >>= f) :=
  iff_maintains.mpr fun _ _ => .bind (iff_maintains.mp hm _ _)
    fun a _ => iff_maintains.mp (hf a) _ _

/-- A clerical loop. -/
theorem fold {f : β → α → EngineAct β} (hf : ∀ b a, Clerical (f b a)) (b : β) (xs : List α) :
    Clerical (Act.fold f b xs) :=
  iff_maintains.mpr fun _ _ => .fold trivial fun b _ a _ => iff_maintains.mp (hf b a) _ _

theorem ite {c : Prop} [Decidable c] {m m' : EngineAct α} (hm : Clerical m) (hm' : Clerical m') :
    Clerical (if c then m else m') := by
  split
  · exact hm
  · exact hm'

theorem when {c : Prop} [Decidable c] {m : EngineAct Unit} (hm : Clerical m) :
    Clerical (Act.when c m) :=
  ite hm (pure ())

/-- A clerical program with a clerical handler. -/
theorem handleIf {body : EngineAct α} {selects : Failure → Bool} {handler : Failure → EngineAct α}
    (hbody : Clerical body) (hhandler : ∀ e, Clerical (handler e)) :
    Clerical (Act.handleIf body selects handler) :=
  iff_maintains.mpr fun _ _ => .handleIf (iff_maintains.mp hbody _ _)
    fun e => iff_maintains.mp (hhandler e) _ _

/-- Every operation but a save is clerical. -/
theorem request {op : Request} (hop : ∀ journal, op ≠ .save journal) :
    Clerical (HardwareTuning.request op) := by
  intro s file
  rw [wp_request]
  refine ⟨fun journal h => absurd h (hop journal), fun answer file' h => ⟨rfl, ?_⟩⟩
  cases op with
  | save journal => exact absurd rfl (hop journal)
  | _ => exact h

theorem read (key : String) : Clerical (readControl key) := request (by simp)

/-- Changing what is known of an entry is clerical. -/
theorem update (keys : List String) {f : Entry → Entry}
    (hf : ∀ e, (f e).id = e.id ∧ (f e).before = e.before) :
    Clerical (Act.modify (·.update keys f)) :=
  fun s _ => ⟨s.baselines_update keys hf, rfl⟩

/-- Looking is clerical. -/
theorem looking (baselines : List (String × Value)) (file : Journal) :
    Looking anyone preserving fun s' file' => s'.baselines = baselines ∧ file' = file := by
  intro op hop
  refine iff_maintains.mp (request ?_) baselines file
  rintro journal rfl
  exact hop

/-- The loop of `Engine.ordered` is clerical if its body is. -/
theorem ordered {inventory : Inventory} {values : List (String × Value)} {b : β}
    {body : β → String → Value → EngineAct β} (hbody : ∀ b key value, Clerical (body b key value)) :
    Clerical (HardwareTuning.ordered inventory values b body) :=
  iff_maintains.mpr fun baselines file => (looking baselines file).ordered (Q := fun _ => True)
    trivial fun b _ key value _ => iff_maintains.mp (hbody b key value) baselines file

/-- `Engine.health` is clerical. -/
theorem health (engine : Engine) : Clerical (HardwareTuning.health engine) :=
  iff_maintains.mpr fun baselines file => (looking baselines file).health
    (iff_maintains.mp (request (by simp)) baselines file) engine

/-- `Engine.plan` is clerical. -/
theorem plan (engine : Engine) (name : Profile) (settings : Settings) :
    Clerical (HardwareTuning.plan engine name settings) :=
  iff_maintains.mpr fun baselines file =>
    .mono ((looking baselines file).plan engine name settings) fun _ _ => trivial

theorem observe (affected : List String) : Clerical (HardwareTuning.observe affected) :=
  iff_maintains.mpr fun baselines file => (looking baselines file).observe affected

theorem observedChange (seen : List (String × Value)) :
    Clerical (HardwareTuning.observedChange seen) :=
  iff_maintains.mpr fun baselines file => (looking baselines file).observedChange seen

theorem skipRequest (st : Writing) (key reason : String) :
    Clerical (HardwareTuning.skipRequest st key reason) :=
  bind (update _ fun _ => ⟨rfl, rfl⟩) fun _ => pure _

/-- The writing loop of `Engine.apply` is clerical at each control. -/
theorem writeOne (inventory : Inventory) (policy : Policy) (profile : ProfilePolicy)
    (affected : List String) (st : Writing) (key : String) (value : Value) :
    Clerical (HardwareTuning.writeOne inventory policy profile affected st key value) := by
  have hmaximum : ∀ knob configured before, Clerical
      (selectMaximum policy knob configured st key value before) := by
    intro knob configured before
    refine bind (request (by simp)) fun selected => ?_
    cases selected with
    | none => exact ite (raise _) (skipRequest _ _ _)
    | some chosen =>
      exact bind (lift _) fun _ => bind (update _ fun _ => ⟨rfl, rfl⟩) fun _ => pure _
  have hdirectly : ∀ configured, Clerical
      (writeDirectly inventory affected configured st key value) := by
    intro configured
    refine bind (ite (bind (observe affected) fun _ => pure _) (pure _)) fun observed =>
      handleIf (bind (request (by simp)) fun _ => pure _) fun e => ?_
    cases observed with
    | none => exact raise e
    | some seen => exact bind (observedChange seen) fun _ => ite (raise _) (skipRequest _ _ _)
  unfold HardwareTuning.writeOne
  split
  · exact raise _
  · exact bind (ite (bind (read key) fun _ => pure _) (pure _)) fun before =>
      ite (ite (hmaximum _ _ _) (hdirectly _)) (pure _)

/-- The final verification of `Engine.apply` is clerical at each entry. -/
theorem verifyApplied (inventory : Inventory) (policy : Policy)
    (values : List (String × Option Value)) (actual : List (String × Readback)) (entry : Entry) :
    Clerical (HardwareTuning.verifyApplied inventory policy values actual entry) :=
  iff_maintains.mpr fun baselines file => (looking baselines file).verifyApplied
    (fun keys _ hf s _ hsame => ⟨(s.baselines_update keys hf).trans hsame.1, hsame.2⟩)
    policy values actual entry

theorem changedKeys (inventory : Inventory) (values : List (String × Value)) :
    Clerical (HardwareTuning.changedKeys inventory values) :=
  iff_maintains.mpr fun baselines file => (looking baselines file).changedKeys inventory values

theorem thermalGate (policy : Policy) (temperature : Option ℚ) :
    Clerical (HardwareTuning.thermalGate policy temperature) := by
  cases temperature with
  | none => exact pure _
  | some t => exact when (raise _)

end Clerical

/-! ### The saves of a reset and of an apply -/

/-- Leaving entries out keeps the order of the others. -/
theorem Journal.baselines_without (journal : Journal) (complete : List String) :
    (journal.without complete).baselines.Sublist journal.baselines :=
  List.filter_sublist.map _

/-- A save of the journal in memory is preserving if the file has all of it. -/
theorem preserves_save {file journal : Journal} (h : journal.baselines.Sublist file.baselines) :
    Preserves file (.save journal) := by
  rintro _ ⟨⟩
  exact .inr h

/-- A reading is no save. -/
theorem preserves_read (file : Journal) (key : String) : Preserves file (.read key) := by
  rintro _ ⟨⟩

/-- The controls of a journal, from its baselines. -/
theorem Journal.baselines_ids (journal : Journal) :
    journal.baselines.map Prod.fst = journal.ids := by
  simp [Journal.baselines, Journal.ids]

section Saves

variable {inventory : Inventory} {mem file : Journal}

/-- A reset saves what the file has, and empties the file when it returns. -/
theorem wp_reset_preserving (hnodup : mem.ids.Nodup)
    (hmem : mem.baselines.Sublist file.baselines) :
    wp anyone preserving (reset inventory)
      (fun x s' file' => ∀ report, x = .ok report → s'.entries = [] ∧ file'.entries = [])
      mem file := by
  unfold reset resetCore
  simp only [wp_bind, wp_get, outcome_ok]
  have hscan : wp anyone preserving (Act.fold (scanOne inventory) ⟨[], [], []⟩ mem.entries)
      _ mem file := wp_scan (· = file) (fun _ _ => True) rfl fun e _ w hw => by
    exact ⟨preserves_read _ _, fun answer w' h => ⟨Eq.trans h hw, trivial⟩⟩
  refine wp_mono hscan ?_
  rintro (err | scan) s' file' ⟨rfl, rfl, hsorts, -⟩
  · simp
  have hsorts := hsorts scan rfl
  set y := yieldDomains inventory s' scan with hy
  set held := s'.update (y.restore.map Prod.fst) Entry.markPending with hheld
  have hbase : held.baselines = s'.baselines :=
    Journal.baselines_update s' _ fun _ => ⟨rfl, rfl⟩
  have hids : held.ids = s'.ids := Journal.update_ids s' _ _ fun _ => rfl
  rw [outcome_ok]
  refine wp_restoreScanned (I := fun _ file' => s'.baselines.Sublist file'.baselines)
    (fun _ _ => True) (Eq.refl y.restore) rfl (Eq.refl held)
    ((order_yieldDomains hsorts.order).nodup hnodup) ?_ (fun _ => hmem) ?_
    (fun _ _ _ _ _ _ _ _ _ => trivial) (fun _ _ _ _ _ _ _ => trivial) ?_
    (fun key verified w _ _ hw => ?_) ?_ (by simp) ?_
  · intro key hkey
    obtain ⟨kv, hkv, rfl⟩ := List.mem_map.mp hkey
    obtain ⟨e, -, hid, -, hknown⟩ := hsorts.restore kv (restore_yieldDomains_subset hkv)
    rwa [← hid]
  · refine fun _ => ⟨preserves_save (hbase ▸ hmem), fun answer w' h => ⟨by simp, fun _ => ?_⟩⟩
    rcases h with rfl | ⟨-, rfl⟩
    · rw [hbase]
    · exact hmem
  · intro key verified w _ hw
    refine ⟨preserves_read _ _, fun answer w' h => ?_⟩
    have hsame : w' = w := h
    exact ⟨hsame ▸ hw, fun _ _ _ _ => hsame ▸ hw⟩
  · exact hw
  · intro key _ op htarget w hw
    refine ⟨fun journal h => by simp [h, Request.target] at htarget, fun answer w' h => ?_⟩
    cases op with
    | write | writeMaximum | restoreValue =>
      have hsame : w' = w := h
      exact hsame ▸ hw
    | read | save | temperature | checkOwnership => cases htarget
  · rintro done verified w hw hbooks -
    refine ⟨preserves_save ((held.baselines_without _).trans (hbase ▸ hw)), fun answer w' h => ?_⟩
    refine ⟨by simp, ?_⟩
    rintro rfl
    rcases h with rfl | ⟨⟨_, herr⟩, -⟩
    swap
    · cases herr
    rw [outcome_ok]
    split
    case isFalse => simp
    case isTrue hclean =>
      have hempty : (held.without done.complete).entries = [] := by
        refine Journal.without_eq_nil fun key hkey => ?_
        rw [hids] at hkey
        obtain ⟨e, he, rfl⟩ := List.mem_map.mp hkey
        exact hbooks.all hsorts hclean e he
      exact fun _ _ => ⟨hempty, hempty⟩

/-- The snapshot has one entry for each control. -/
theorem wp_snapshot_ids (values : List (String × Value)) (affected : List String) :
    wp anyone preserving (Act.fold (snapshot values) [] affected)
      (fun x s' file' => s' = mem ∧ file' = file ∧ ∀ entries, x = .ok entries →
        entries.map Entry.id = affected) mem file := by
  refine wp_fold (fun rest entries s' file' => s' = mem ∧ file' = file ∧
    entries.map Entry.id ++ rest = affected) ⟨rfl, rfl, by simp⟩ ?_ ?_
  · rintro key rest entries s' file' ⟨rfl, rfl, hids⟩
    unfold snapshot
    rw [wp_bind, wp_readControl]
    refine ⟨preserves_read _ _, fun answer file'' h => ?_⟩
    have hsame : file'' = file' := h
    subst hsame
    cases answer with
    | error e => exact ⟨rfl, rfl, by simp⟩
    | ok before => exact ⟨rfl, rfl, by simpa using hids⟩
  · rintro entries s' file' ⟨rfl, rfl, hids⟩
    refine ⟨rfl, rfl, ?_⟩
    rintro _ ⟨⟩
    simpa using hids

/-- Writing and verifying saves what the snapshot has. -/
theorem wp_writeAndVerify_preserving (policy : Policy) (name : Profile)
    (values : List (String × Value)) (affected skipped : List String) (temperature : Option ℚ)
    (hmem : mem.baselines.Sublist file.baselines) :
    wp anyone preserving
      (writeAndVerify inventory policy name values affected skipped temperature)
      (fun _ s' file' => s'.baselines.Sublist mem.baselines ∧
        s'.baselines.Sublist file'.baselines) mem file := by
  unfold writeAndVerify
  rw [wp_bind]
  refine wp_mono (Clerical.ordered (fun st key value =>
    Clerical.writeOne inventory policy _ affected st key value) mem file) ?_
  rintro (e | st) s₁ file₁ ⟨hs₁, rfl⟩
  · exact ⟨hs₁ ▸ List.Sublist.refl _, hs₁ ▸ hmem⟩
  simp only [outcome_ok, wp_bind, wp_get]
  refine wp_mono (Clerical.fold (fun actual entry =>
    Clerical.verifyApplied inventory policy st.values actual entry) [] _ s₁ file₁) ?_
  rintro (e | actual) s₂ file₂ ⟨hs₂, rfl⟩
  · exact ⟨hs₂ ▸ hs₁ ▸ List.Sublist.refl _, hs₂ ▸ hs₁ ▸ hmem⟩
  rw [outcome_ok]
  set trimmed : Journal := { s₂ with entries := s₂.entries.filter fun e =>
    e.id ∉ st.unmodified ∨ e.last ≠ some e.before } with htrimmed
  have hsub : trimmed.baselines.Sublist mem.baselines := by
    rw [← hs₁, ← hs₂]
    exact List.filter_sublist.map _
  refine ⟨preserves_save (hsub.trans hmem), fun answer file' h => ?_⟩
  have hfile : trimmed.baselines.Sublist file'.baselines := by
    rcases h with rfl | ⟨-, rfl⟩
    · exact List.Sublist.refl _
    · exact hsub.trans hmem
  cases answer with
  | error e => exact ⟨hsub, hfile⟩
  | ok _ => exact ⟨hsub, hfile⟩

/-- From an empty journal on, an apply preserves what it has saved. -/
theorem wp_applyPlan_preserving (policy : Policy) (name : Profile)
    (values : List (String × Value)) (skipped : List String) (hfile : file.entries = []) :
    wp anyone preserving (applyPlan inventory policy name values skipped)
      (fun _ _ _ => True) mem file := by
  have hclerical : ∀ {α : Type} {prog : EngineAct α} {Q : α → Journal → Journal → Prop}
      {s : Journal}, Clerical prog → (∀ a s', Q a s' file) →
      wp anyone preserving prog (outcome Q fun _ _ _ => True) s file := by
    intro α prog Q s hprog hQ
    refine wp_mono (hprog s file) ?_
    rintro (e | a) s' file' ⟨-, rfl⟩
    · trivial
    · exact hQ a s'
  unfold applyPlan
  rw [wp_bind]
  refine hclerical (.request (by simp)) fun temperature s₁ => ?_
  rw [wp_bind]
  refine hclerical (.thermalGate policy temperature) fun _ s₂ => ?_
  rw [wp_bind]
  refine hclerical (.lift _) fun risk s₃ => ?_
  rw [wp_bind]
  refine hclerical (.when (.raise _)) fun _ s₄ => ?_
  rw [wp_bind]
  refine hclerical (.changedKeys inventory values) fun changed s₅ => ?_
  dsimp only
  rw [wp_bind]
  refine wp_mono (wp_snapshot_ids _ _) ?_
  rintro (e | entries) s₆ file' ⟨-, rfl, hids⟩
  · trivial
  have hids := hids entries rfl
  simp only [outcome_ok, wp_bind, wp_modify, wp_saveJournal]
  -- The snapshot goes to a file without entries.
  refine ⟨fun _ _ => .inl hfile, fun answer file'' h => ?_⟩
  cases answer with
  | error e => trivial
  | ok _ =>
    have hsaved : file'' = ⟨some name, entries⟩ := by
      rcases h with h | ⟨⟨_, herr⟩, -⟩
      · exact h
      · cases herr
    subst hsaved
    rw [outcome_ok, wp_handle]
    refine wp_mono (wp_writeAndVerify_preserving policy name _ _ _ _ (List.Sublist.refl _)) ?_
    rintro (exc | report) s₇ file₇ ⟨hsnapshot, hfile₇⟩
    · simp only [outcome_error, undo, wp_bind, wp_handleIf]
      have hnodup : s₇.ids.Nodup := by
        rw [← Journal.baselines_ids]
        refine (hsnapshot.map Prod.fst).nodup ?_
        rw [Journal.baselines_ids, Journal.ids, hids]
        exact nodup_sortedKeys _
      refine wp_mono (wp_reset_preserving hnodup hfile₇) ?_
      rintro (e | report) s₈ file₈ -
      · rw [outcome_error]
        split <;> trivial
      · trivial
    · trivial

theorem wp_planned_preserving {engine : Engine} (name : Profile) (settings : Settings) :
    ∀ s file' : Journal, file'.entries = [] → wp anyone preserving
    (plan engine name settings) (outcome (fun planned => wp anyone preserving
      (match engine.policy with
        | none => Act.raise (tuningError "invalid profile")
        | some policy => applyPlan engine.inventory policy name planned.1 planned.2)
      fun _ _ _ => True) fun _ _ _ => True) s file' := by
  intro s file' hempty
  refine wp_mono (Clerical.plan engine name settings s file') ?_
  rintro (e | planned) s' file'' ⟨-, rfl⟩
  · trivial
  · rw [outcome_ok]
    cases engine.policy with
    | none => trivial
    | some policy => exact wp_applyPlan_preserving policy name _ _ hempty

/-- The saves of an apply. -/
theorem wp_apply_preserving {engine : Engine} (name : Profile) (settings : Settings)
    (hnodup : file.ids.Nodup) :
    wp anyone preserving (apply engine name settings) (fun _ _ _ => True) file file := by
  unfold apply
  simp only [wp_bind, wp_get, outcome_ok, wp_when]
  refine ⟨fun hne => ?_, fun hempty => wp_planned_preserving name settings file file (by simpa using hempty)⟩
  unfold giveUp
  rw [wp_bind]
  refine wp_mono (Clerical.health engine file file) ?_
  rintro (e | report) s' file' ⟨hs, rfl⟩
  · trivial
  rw [outcome_ok, wp_bind]
  refine wp_mono (wp_reset_preserving ?_ (hs ▸ List.Sublist.refl _)) ?_
  · rw [← Journal.baselines_ids, hs, Journal.baselines_ids]
    exact hnodup
  rintro (e | done) s'' file'' hdone
  · trivial
  rw [outcome_ok, wp_when]
  refine ⟨fun _ => trivial, fun _ => ?_⟩
  rw [outcome_ok, wp_bind]
  exact wp_planned_preserving name settings s'' file'' (hdone done rfl).2

end Saves

end Preseed.HardwareTuning
