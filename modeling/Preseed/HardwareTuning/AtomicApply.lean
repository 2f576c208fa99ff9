import Preseed.HardwareTuning.ApplyAccounts

/-!
# An apply is all or nothing

An apply returns only when every control that it still requests reads what was requested.
Otherwise it fails, and the controls of the last journal are accounted for: restored,
still in the journal, or given up because someone else has changed them.
-/

namespace Preseed.HardwareTuning

open Effects List

/-- Nothing is written in this part of a log. -/
def Unwritten (log : List Exchange) : Prop := ∀ x ∈ log, x.op.target = none

/-- What a reset has done, in its part of the log, with the entries of the journal that it began
with: the journal is empty and every entry is restored or given up, or else it keeps those
that are neither. -/
def Relinquished (inventory : Inventory) (journal : Journal) (during : List Exchange)
    (mem : Journal) (t : Trace) : Prop :=
  (mem.entries = [] ∧ t.file.entries = [] ∧ ∀ e ∈ journal.entries,
    Restored inventory during e ∨ GivenUp inventory journal during e) ∨
  ∀ e ∈ journal.entries, Restored inventory during e ∨ GivenUp inventory journal during e ∨
    Retained mem t e

/-- Some reset in the log has restored the entries of the journal or given them up, and nothing
was written but by it. -/
def Vacated (inventory : Inventory) (journal : Journal) (log : List Exchange) : Prop :=
  ∃ before during after, log = before ++ during ++ after ∧ Unwritten before ∧ Unwritten after ∧
    ∀ e ∈ journal.entries, Restored inventory during e ∨ GivenUp inventory journal during e

section Rules

variable {inventory : Inventory} {journal s : Journal} {log : List Exchange} {t : Trace}

theorem Unwritten.append {more : List Exchange} (h : Unwritten log) (hmore : Unwritten more) :
    Unwritten (log ++ more) := by
  intro x hx
  rcases mem_append.mp hx with hx | hx
  · exact h x hx
  · exact hmore x hx

theorem unwritten_singleton {op : Request} (h : op.target = none)
    (answer : Except Failure op.Reply) : Unwritten [⟨op, answer⟩] := by
  intro x hx
  rw [mem_singleton.mp hx]
  exact h

theorem Vacated.append {more : List Exchange} (h : Vacated inventory journal log)
    (hmore : Unwritten more) : Vacated inventory journal (log ++ more) := by
  obtain ⟨before, during, after, rfl, hbefore, hafter, hentries⟩ := h
  exact ⟨before, during, after ++ more, by simp, hbefore, hafter.append hmore, hentries⟩

/-- What a program does does not depend on what has happened before. -/
theorem wp_restarted {α : Type} {act : EngineAct α} {Q : Except Failure α → Journal → Trace → Prop}
    (file : Journal) (log : List Exchange)
    (h : wp observed unguarded act Q s ⟨file, []⟩) :
    wp observed unguarded act
      (fun x s' t => ∃ later, t.log = log ++ later ∧ Q x s' ⟨t.file, later⟩) s ⟨file, log⟩ := by
  have hsafe : ∀ (p : Program Hardware Journal (Except Failure α × Journal)) file done,
      p.Safe observed unguarded (fun x t => Q x.1 x.2 t) ⟨file, done⟩ →
      p.Safe observed unguarded
        (fun x t => ∃ later, t.log = log ++ later ∧ Q x.1 x.2 ⟨t.file, later⟩)
        ⟨file, log ++ done⟩ := by
    intro p
    induction p with
    | done x => exact fun file done h => ⟨done, rfl, h⟩
    | call s op next ih =>
      intro file done h
      refine ⟨trivial, fun answer t' hans => ?_⟩
      obtain ⟨hfile, hlog⟩ := hans
      have hnext := ih answer t'.file (done ++ [⟨op, answer⟩])
        (h.2 answer ⟨t'.file, done ++ [⟨op, answer⟩]⟩ ⟨hfile, rfl⟩)
      rw [← append_assoc, ← hlog] at hnext
      exact hnext
  have hrun := hsafe (act s) file [] h
  rwa [append_nil] at hrun

/-- The log of a program only grows. -/
theorem wp_grows {α : Type} (act : EngineAct α) (s : Journal) (t : Trace) :
    wp observed unguarded act
      (fun _ _ t' => ∃ later, t'.log = t.log ++ later) s t := by
  refine Act.wp_of_invariant (J := fun t' : Trace => ∃ later, t'.log = t.log ++ later)
    (fun _ _ _ _ => trivial) ?_ act s ⟨[], by simp⟩
  rintro t₁ mem op answer t₂ ⟨later, hlater⟩ ⟨-, hlog⟩
  exact ⟨later ++ [⟨op, answer⟩], by rw [hlog, hlater, append_assoc]⟩

/-- A reset relinquishes its journal. -/
theorem wp_reset_relinquished (hnodup : s.ids.Nodup) (hfiled : s.baselines ⊆ t.file.baselines) :
    wp observed unguarded (reset inventory)
      (fun x s' t' => ∃ during, t'.log = t.log ++ during ∧ Relinquished inventory s during s' t' ∧
        (∀ report, x = .ok report → s'.entries = [] ∧ t'.file.entries = [] ∧
          ∀ e ∈ s.entries, Restored inventory during e ∨ GivenUp inventory s during e)) s t := by
  refine wp_mono (wp_restarted t.file t.log (wp_reset_observed hnodup hfiled)) ?_
  rintro x s' t' ⟨during, hlog, haccounts⟩
  have hok : ∀ report, x = .ok report → s'.entries = [] ∧ t'.file.entries = [] ∧
      ∀ e ∈ s.entries, Restored inventory during e ∨ GivenUp inventory s during e := by
    intro report hreport
    obtain ⟨hmem, hfile⟩ := haccounts.emptied report hreport
    refine ⟨hmem, hfile, fun e he => ?_⟩
    rcases haccounts.restored report hreport e he with hrestored | ⟨-, hgiven⟩
    · exact .inl hrestored
    · exact .inr hgiven
  refine ⟨during, hlog, ?_, hok⟩
  cases x with
  | ok report => exact .inl (hok report rfl)
  | error err => exact .inr (haccounts.retained err rfl)

/-- Undoing a failed apply relinquishes its journal, and fails. -/
theorem wp_undo_relinquished {α : Type} (exc : Failure) (hnodup : s.ids.Nodup)
    (hfiled : s.baselines ⊆ t.file.baselines) :
    wp observed unguarded (undo inventory exc : EngineAct α)
      (fun x s' t' => (∃ err, x = .error err) ∧ ∃ during, t'.log = t.log ++ during ∧
        Relinquished inventory s during s' t') s t := by
  unfold undo
  rw [wp_bind, wp_handleIf, wp_bind]
  refine wp_mono (wp_reset_relinquished hnodup hfiled) ?_
  rintro (e | report) s' t' ⟨during, hlog, hrelinquished, -⟩
  · simp only [outcome_error]
    split
    · exact ⟨⟨_, rfl⟩, during, hlog, hrelinquished⟩
    · exact ⟨⟨_, rfl⟩, during, hlog, hrelinquished⟩
  · exact ⟨⟨exc, rfl⟩, during, hlog, hrelinquished⟩

end Rules

/-- What an apply that fails leaves. -/
inductive Undone (inventory : Inventory) (file mem : Journal) (t : Trace) : Prop
  /-- It has not come to its writes: only the reset of the earlier journal has written. -/
  | early (before during after : List Exchange) (hlog : t.log = before ++ during ++ after)
      (hbefore : Unwritten before) (hafter : Unwritten after)
      (hrelinquished : Relinquished inventory file during mem t)
  /-- It has given up the earlier journal, saved a snapshot, and undone what it has attempted. -/
  | late (earlier during : List Exchange) (snapshot held : Journal) (attempt : Trace)
      (hvacated : Vacated inventory file earlier)
      (hsaved : (earlier ++ [⟨.save snapshot, .ok ()⟩]) <+: attempt.log)
      (hattempted : Attempted inventory snapshot held attempt)
      (hlog : t.log = attempt.log ++ during)
      (hrelinquished : Relinquished inventory held during mem t)

section Preparing

variable {inventory : Inventory} {file s : Journal} {t : Trace}

theorem Undone.of_vacated (h : Vacated inventory file t.log) (mem : Journal) :
    Undone inventory file mem t := by
  obtain ⟨before, during, after, hlog, hbefore, hafter, hentries⟩ := h
  exact .early before during after hlog hbefore hafter (.inr fun e he => by
    rcases hentries e he with hrestored | hgiven
    · exact .inl hrestored
    · exact .inr (.inl hgiven))

/-- What writes nothing keeps a journal given up. -/
theorem maintains_vacated (op : Request) (htarget : op.target = none) :
    Act.Maintains observed unguarded (fun _ t => Vacated inventory file t.log)
      (request op) fun _ => True := by
  intro s t h
  refine (wp_request op).mpr ⟨trivial, fun answer t' hans => ⟨?_, fun _ _ => trivial⟩⟩
  obtain ⟨-, hlog⟩ := hans
  rw [hlog]
  exact h.append (unwritten_singleton htarget answer)

theorem looking_vacated :
    Looking observed unguarded fun _ t => Vacated inventory file t.log := by
  intro op hlooks
  cases op with
  | read key | checkOwnership values => exact maintains_vacated _ rfl
  | write _ _ | writeMaximum _ | restoreValue _ _ | save _ | temperature => cases hlooks

/-- The earlier journal is given up. -/
theorem wp_giveUp_observed (engine : Engine) (hnodup : file.ids.Nodup) :
    wp observed unguarded (giveUp engine)
      (outcome (fun _ _ t => Vacated engine.inventory file t.log)
        fun _ s t => Undone engine.inventory file s t) file ⟨file, []⟩ := by
  have hask : ∀ op : Request, op.target = none → (∀ journal, op ≠ .save journal) →
      Act.Maintains observed unguarded
        (fun s t => s = file ∧ t.file = file ∧ Unwritten t.log) (request op) fun _ => True := by
    rintro op htarget hop s t ⟨rfl, hfile, hquiet⟩
    refine wp_ask hop fun answer t' hfile' hlog =>
      ⟨⟨rfl, hfile'.trans hfile, ?_⟩, fun _ _ => trivial⟩
    rw [hlog]
    exact hquiet.append (unwritten_singleton htarget answer)
  have hlook : Looking observed unguarded
      fun s t => s = file ∧ t.file = file ∧ Unwritten t.log := by
    intro op hlooks
    cases op with
    | read key | checkOwnership values => exact hask _ rfl (by simp)
    | write _ _ | writeMaximum _ | restoreValue _ _ | save _ | temperature => cases hlooks
  unfold giveUp
  rw [wp_bind]
  refine wp_mono (hlook.health (hask .temperature rfl (by simp)) engine file ⟨file, []⟩
    ⟨rfl, rfl, nofun⟩) ?_
  rintro (e | report) s t ⟨⟨rfl, hfile, hquiet⟩, -⟩
  · refine .early [] [] t.log rfl nofun hquiet (.inr fun entry hentry => .inr (.inr ?_))
    have hin : (entry.id, entry.before) ∈ s.baselines := mem_map_of_mem hentry
    exact ⟨hin, hfile ▸ hin⟩
  rw [outcome_ok, wp_bind]
  refine wp_mono (wp_reset_relinquished hnodup (by rw [hfile]; exact List.Subset.refl _)) ?_
  rintro (e | outcome) s' t' ⟨during, hlog, hrelinquished, hok⟩
  · exact .early t.log during [] (by simp [hlog]) hquiet nofun hrelinquished
  obtain ⟨-, -, hentries⟩ := hok outcome rfl
  have hvacated : Vacated engine.inventory s t'.log :=
    ⟨t.log, during, [], by simp [hlog], hquiet, nofun, hentries⟩
  rw [outcome_ok, wp_when]
  exact ⟨fun _ => .of_vacated hvacated s', fun _ => hvacated⟩

/-- What the comparison of planned values with the controls has found: a control that is not among
the changed ones reads its value. -/
structure Compared (inventory : Inventory) (file : Journal) (values : List (String × Value))
    (changed : List String) (t : Trace) (x : Except Failure (List String)) (t' : Trace) : Prop where
  /-- The earlier journal is still given up. -/
  vacated : Vacated inventory file t'.log
  /-- The log has grown. -/
  grown : ∃ later, t'.log = t.log ++ later
  /-- What was changed stays so. -/
  kept : ∀ changed', x = .ok changed' → changed ⊆ changed'
  /-- The values. -/
  same : ∀ changed', x = .ok changed' → ∀ kv ∈ values, kv.1 ∈ changed' ∨
    inventory.restorable kv.1 = true ∧ .ok kv.2 ∈ readings t'.log kv.1

theorem Compared.cons {values : List (String × Value)} {changed next : List String}
    {t₁ t' : Trace} {x : Except Failure (List String)} {kv : String × Value}
    (h : Compared inventory file values next t₁ x t') (hgrown : ∃ more, t₁.log = t.log ++ more)
    (hsub : changed ⊆ next) (hkv : kv.1 ∈ next ∨
      inventory.restorable kv.1 = true ∧ .ok kv.2 ∈ readings t₁.log kv.1) :
    Compared inventory file (kv :: values) changed t x t' := by
  obtain ⟨later, hlater⟩ := h.grown
  obtain ⟨more, hmore⟩ := hgrown
  refine ⟨h.vacated, ⟨more ++ later, by rw [hlater, hmore, append_assoc]⟩,
    fun changed' hx => List.Subset.trans hsub (h.kept changed' hx), fun changed' hx kv' hkv' => ?_⟩
  rcases mem_cons.mp hkv' with rfl | hkv'
  · rcases hkv with hin | ⟨hrestorable, hread⟩
    · exact .inl (h.kept changed' hx hin)
    · refine .inr ⟨hrestorable, ?_⟩
      rw [hlater, readings_append]
      exact mem_append_left _ hread
  · exact h.same changed' hx kv' hkv'

/-- The controls that need no write read what is requested. -/
theorem wp_changedKeys_observed (values : List (String × Value)) (changed : List String)
    (h : Vacated inventory file t.log) :
    wp observed unguarded
      (Act.fold (fun changed kv =>
        match inventory.get? kv.1 with
        | none => Act.raise (keyError kv.1)
        | some knob =>
          if knob.restorable then do
            let current ← readControl kv.1
            pure (if current ≠ kv.2 then changed ++ [kv.1] else changed)
          else pure (changed ++ [kv.1])) changed values)
      (fun x _ t' => Compared inventory file values changed t x t') s t := by
  induction values generalizing changed s t with
  | nil =>
    exact ⟨h, ⟨[], by simp⟩, fun _ hx => by cases hx; exact List.Subset.refl _, by simp⟩
  | cons kv rest ih =>
    rw [Act.fold, wp_bind]
    cases hget : inventory.get? kv.1 with
    | none => exact ⟨h, ⟨[], by simp⟩, by simp, by simp⟩
    | some knob =>
      dsimp only
      split
      · rename_i hrestorable
        rw [wp_bind]
        refine (wp_request (.read kv.1)).mpr ⟨trivial,
          fun (answer : Except Failure Value) t₁ hans => ?_⟩
        obtain ⟨-, hlog⟩ := hans
        have hvacated : Vacated inventory file t₁.log := by
          rw [hlog]
          have hread : (Request.read kv.1).target = none := rfl
          exact h.append (unwritten_singleton hread answer)
        cases answer with
        | error e => exact ⟨hvacated, ⟨_, hlog⟩, by simp, by simp⟩
        | ok current =>
          rw [outcome_ok, wp_pure, outcome_ok]
          refine wp_mono (ih _ hvacated) fun x s' t' hx => hx.cons ⟨_, hlog⟩ ?_ ?_
          · split
            · exact subset_append_left _ _
            · exact List.Subset.refl _
          · split
            · exact .inl (by simp)
            · rename_i hsame
              refine .inr ⟨(Inventory.restorable_of_get? hget).trans hrestorable, ?_⟩
              rw [hlog, readings_append, readings_read, if_pos rfl, ← not_not.mp hsame]
              exact mem_append_right _ (mem_singleton.mpr rfl)
      · rw [wp_pure, outcome_ok]
        exact wp_mono (ih _ h) fun x s' t' hx =>
          hx.cons ⟨[], by simp⟩ (subset_append_left _ _) (.inl (by simp))

/-- The snapshot has an entry for every affected control, with what is planned for it. -/
theorem maintains_snapshots {W : Type} {E : Environment Hardware Journal W}
    {G : Guard Hardware Journal W} {I : Journal → W → Prop} (hlook : Looking E G I)
    (values : List (String × Value)) (keys : List String) (entries : List Entry) :
    Act.Maintains E G I (Act.fold (snapshot values) entries keys) fun entries' =>
      entries'.map Entry.id = entries.map Entry.id ++ keys ∧
      ∀ e ∈ entries', e ∈ entries ∨ e.pending = true ∧ e.requested = values.lookup e.id := by
  induction keys generalizing entries with
  | nil => exact .pure ⟨by simp, fun e he => .inl he⟩
  | cons key keys ih =>
    refine .bind (P := fun entries' => ∃ before, entries' =
      entries ++ [⟨key, before, none, true, values.lookup key⟩]) ?_ fun entries' hentries' => ?_
    · exact .bind (hlook.read key) fun before _ => .pure ⟨before, rfl⟩
    · obtain ⟨before, rfl⟩ := hentries'
      refine .mono (ih _) fun result hresult => ⟨by simp [hresult.1], fun e he => ?_⟩
      rcases hresult.2 e he with hin | hnew
      · rcases mem_append.mp hin with hin | hin
        · exact .inl hin
        · rw [mem_singleton.mp hin]
          exact .inr ⟨rfl, rfl⟩
      · exact .inr hnew

/-- The situation when the snapshot has been saved: the planned values of affected controls are
prepared, and the other ones have been read. -/
structure Ready (inventory : Inventory) (file : Journal) (planned : List (String × Value))
    (prepared : Prepared) (snapshot : Journal) (t : Trace) : Prop where
  /-- The snapshot is the last thing on the log. -/
  saved : ∃ earlier, t.log = earlier ++ [⟨.save snapshot, .ok ()⟩] ∧ Vacated inventory file earlier
  /-- It is the journal file. -/
  filed : t.file = snapshot
  /-- No control has two entries. -/
  unique : snapshot.ids.Nodup
  /-- Every prepared control has one. -/
  listed : ∀ key ∈ prepared.values.map Prod.fst, key ∈ snapshot.ids
  /-- It is pending. -/
  pending : ∀ e ∈ snapshot.entries, e.pending = true
  /-- It asks for what is prepared. -/
  requested : ∀ e ∈ snapshot.entries, e.requested = prepared.values.lookup e.id
  /-- What is prepared is planned. -/
  part : prepared.values.Sublist planned
  /-- What is not prepared has been read. -/
  same : ∀ kv ∈ planned, kv ∈ prepared.values ∨
    inventory.restorable kv.1 = true ∧ .ok kv.2 ∈ readings t.log kv.1

theorem maintains_thermalGate {W : Type} {E : Environment Hardware Journal W}
    {G : Guard Hardware Journal W} {I : Journal → W → Prop} (policy : Policy)
    (temperature : Option ℚ) : Act.Maintains E G I (thermalGate policy temperature)
      fun _ => True := by
  unfold thermalGate
  split
  · exact .pure trivial
  · exact .when fun _ => .raise _

/-- The plan is prepared. -/
theorem wp_preparePlan_observed (policy : Policy) (name : Profile)
    (planned : List (String × Value)) (skipped : List String)
    (h : Vacated inventory file t.log) :
    wp observed unguarded (preparePlan inventory policy name planned skipped)
      (outcome (fun prepared s' t' => Ready inventory file planned prepared s' t')
        fun _ s' t' => Undone inventory file s' t') s t := by
  unfold preparePlan
  rw [wp_bind]
  refine wp_mono (maintains_vacated .temperature rfl s t h) ?_
  rintro (e | temperature) s₁ t₁ ⟨h₁, -⟩
  · exact .of_vacated h₁ s₁
  rw [outcome_ok, wp_bind]
  refine wp_mono (maintains_thermalGate (I := fun _ t => Vacated inventory file t.log) policy
    temperature s₁ t₁ h₁) ?_
  rintro (e | _) s₂ t₂ ⟨h₂, -⟩
  · exact .of_vacated h₂ s₂
  rw [outcome_ok, wp_bind, wp_lift]
  cases risky inventory planned with
  | error e => exact .of_vacated h₂ s₂
  | ok risk =>
    rw [outcome_ok, wp_bind, wp_when]
    refine ⟨fun _ => .of_vacated h₂ s₂, fun _ => ?_⟩
    rw [outcome_ok, wp_bind]
    refine wp_mono (wp_changedKeys_observed planned [] h₂) ?_
    rintro (e | changed) s₃ t₃ hcompared
    · exact .of_vacated hcompared.vacated s₃
    rw [outcome_ok, wp_bind]
    set affected := sortedKeys (changed.flatMap (sideEffects inventory)) with haffected
    set values := planned.filter fun kv => kv.1 ∈ affected with hvalues
    refine wp_mono (Act.wp_and (wp_grows _ s₃ t₃)
      (maintains_snapshots looking_vacated values affected [] s₃ t₃ hcompared.vacated)) ?_
    rintro (e | entries) s₄ t₄ ⟨⟨later, hlater⟩, h₄, hentries⟩
    · exact .of_vacated h₄ s₄
    obtain ⟨hids, hentry⟩ := hentries entries rfl
    rw [map_nil, nil_append] at hids
    simp only [outcome_ok, wp_bind, wp_modify, wp_saveJournal]
    refine ⟨trivial, fun answer t₅ hans => ?_⟩
    obtain ⟨hcases, hlog⟩ := hans
    cases answer with
    | error e =>
      refine .of_vacated ?_ _
      rw [hlog]
      exact h₄.append (unwritten_singleton rfl _)
    | ok _ =>
      rw [outcome_ok, wp_pure, outcome_ok]
      refine ⟨⟨t₄.log, hlog, h₄⟩, ?_, ?_, ?_, ?_, ?_, filter_sublist, ?_⟩
      · rcases hcases with hnew | ⟨⟨_, herror⟩, -⟩
        · exact hnew
        · cases herror
      · change (entries.map Entry.id).Nodup
        rw [hids]
        exact nodup_sortedKeys _
      · intro key hkey
        obtain ⟨kv, hkv, rfl⟩ := mem_map.mp hkey
        change kv.1 ∈ entries.map Entry.id
        rw [hids]
        simpa using (mem_filter.mp hkv).2
      · intro e he
        exact ((hentry e he).resolve_left (by simp)).1
      · intro e he
        exact ((hentry e he).resolve_left (by simp)).2
      · intro kv hkv
        rcases hcompared.same changed rfl kv hkv with hin | ⟨hrestorable, hread⟩
        · left
          refine mem_filter.mpr ⟨hkv, ?_⟩
          rw [decide_eq_true_eq, haffected, mem_sortedKeys]
          refine mem_flatMap.mpr ⟨kv.1, hin, ?_⟩
          unfold sideEffects
          split <;> simp
        · right
          refine ⟨hrestorable, ?_⟩
          rw [hlog, hlater, readings_append, readings_append]
          exact mem_append_left _ (mem_append_left _ hread)

theorem wp_planned_observed (engine : Engine) (name : Profile) (settings : Settings) :
    ∀ s t, Vacated engine.inventory file t.log → wp observed unguarded (do
    let (values, skipped) ← plan engine name settings
    match engine.policy with
    | none => Act.raise (tuningError "invalid profile")
    | some policy => preparePlan engine.inventory policy name values skipped)
    (outcome (fun prepared s' t' => ∃ policy planned, engine.policy = some policy ∧
        resolvedValues engine.inventory policy (policy.profiles name) = .ok planned ∧
        Ready engine.inventory file planned prepared s' t')
      fun _ s' t' => Undone engine.inventory file s' t') s t := by
  intro s t h
  rw [wp_bind]
  refine wp_mono (looking_vacated.plan engine name settings s t h) ?_
  rintro (e | ⟨planned, skipped⟩) s' t' ⟨h', hplanned⟩
  · exact .of_vacated h' s'
  obtain ⟨policy, hpolicy, hresolved⟩ := hplanned _ rfl
  rw [outcome_ok, hpolicy]
  refine wp_mono (wp_preparePlan_observed policy name planned skipped h') ?_
  rintro (e | prepared) s₁ t₁ h₁
  · exact h₁
  · exact ⟨policy, planned, rfl, hresolved, h₁⟩

/-- An apply up to its snapshot. -/
theorem wp_prepare_observed (engine : Engine) (name : Profile) (settings : Settings)
    (hnodup : file.ids.Nodup) :
    wp observed unguarded (prepare engine name settings)
      (outcome (fun prepared s' t' => ∃ policy planned, engine.policy = some policy ∧
          resolvedValues engine.inventory policy (policy.profiles name) = .ok planned ∧
          Ready engine.inventory file planned prepared s' t')
        fun _ s' t' => Undone engine.inventory file s' t') file ⟨file, []⟩ := by
  unfold prepare
  rw [wp_bind, wp_get, outcome_ok, wp_bind, wp_when]
  refine ⟨fun _ => ?_, fun hempty => ?_⟩
  · refine wp_mono (wp_giveUp_observed engine hnodup) ?_
    rintro (e | _) s t h
    · exact h
    · exact wp_planned_observed engine name settings s t h
  · refine wp_planned_observed engine name settings file ⟨file, []⟩
      ⟨[], [], [], rfl, (fun _ h => by cases h), (fun _ h => by cases h), fun e he => ?_⟩
    rw [not_not] at hempty
    rw [hempty] at he
    cases he

end Preparing

/-- What an apply that returns has achieved, of what was planned: a planned control is reported as
achieved, or it was not affected and has been read to have its value. -/
structure Applied (engine : Engine) (name : Profile) (report : ApplyReport)
    (log : List Exchange) : Prop where
  /-- The requests that are left are met. -/
  met : ∀ key readback, (key, readback) ∈ report.controls →
    engine.inventory.restorable key = true →
    ∀ value, readback.requested = some value → Holds log key value
  /-- Nothing that is planned is forgotten. -/
  planned : ∃ policy values, engine.policy = some policy ∧
    resolvedValues engine.inventory policy (policy.profiles name) = .ok values ∧
    ∀ kv ∈ values, (∃ readback, (kv.1, readback) ∈ report.controls ∧
      (readback.requested = some kv.2 ∨ readback.requested = none ∨
        kv.1 ∈ report.selections.map Prod.fst)) ∨
      engine.inventory.restorable kv.1 = true ∧ .ok kv.2 ∈ readings log kv.1

/-- All or nothing, of every run of an apply. -/
theorem wp_apply_observed (engine : Engine) (name : Profile) (settings : Settings)
    {file : Journal} (hnodup : file.ids.Nodup) :
    wp observed unguarded (apply engine name settings)
      (outcome (fun report _ t => Applied engine name report t.log)
        fun _ mem t => Undone engine.inventory file mem t) file ⟨file, []⟩ := by
  rw [apply_eq, wp_bind]
  refine wp_mono (wp_prepare_observed engine name settings hnodup) ?_
  rintro (e | prepared) s t h
  · exact h
  obtain ⟨policy, planned, hpolicy, hresolved, hready⟩ := h
  have hsub : (prepared.values.map Prod.fst).Sublist (engine.inventory.knobs.map Knob.id) :=
    (hready.part.map _).trans (resolvedValues_spec hresolved).1
  have hkeys : (prepared.values.map Prod.fst).Nodup := hsub.nodup engine.inventory.nodup
  have hknown : ∀ key ∈ prepared.values.map Prod.fst, (engine.inventory.get? key).isSome := by
    intro key hkey
    obtain ⟨knob, hknob, rfl⟩ := mem_map.mp (hsub.subset hkey)
    rw [Inventory.get?_of_mem hknob]
    rfl
  rw [outcome_ok, wp_handle]
  refine wp_mono (Act.wp_and (wp_grows _ s t) (wp_carryOut_observed name hkeys hknown
    hready.unique hready.listed hready.pending hready.requested hready.filed)) ?_
  rintro (e | report) s₁ t₁ ⟨⟨later, hlater⟩, h₁⟩
  · -- The attempt has failed and is undone.
    have hattempted : Attempted engine.inventory s s₁ t₁ := h₁
    have hids : s₁.ids.Nodup := by
      rw [← Journal.baselines_ids]
      refine (hattempted.within.map _).nodup ?_
      rw [Journal.baselines_ids]
      exact hready.unique
    refine wp_mono (wp_undo_relinquished e hids hattempted.filed) ?_
    rintro x s₂ t₂ ⟨⟨err, rfl⟩, during, hlog, hrelinquished⟩
    obtain ⟨earlier, hsaved, hvacated⟩ := hready.saved
    exact .late earlier during s s₁ t₁ hvacated ⟨later, by rw [← hsaved, hlater]⟩ hattempted hlog
      hrelinquished
  · have hachieved : Achieved engine.inventory prepared.values report t₁.log := h₁
    refine ⟨hachieved.met, policy, planned, hpolicy, hresolved, fun kv hkv => ?_⟩
    rcases hready.same kv hkv with hin | ⟨hrestorable, hread⟩
    · exact .inl (hachieved.reported kv.1 kv.2 (lookup_eq_of_mem hkeys hin))
    · refine .inr ⟨hrestorable, ?_⟩
      rw [hlater, readings_append]
      exact mem_append_left _ hread

/-- Two fans with three speeds. -/
def fans : Inventory where
  knobs := [("fan0", "FAN0"), ("fan1", "FAN1")].map fun fan =>
    plainKnob fan.1 fan.2 ["slow", "medium", "fast"] []
  nodup := by decide
  paired := by
    rintro a ha b hb hsome - -
    obtain ⟨fan, -, rfl⟩ := List.mem_map.mp ha
    cases hsome

/-- Both are to be fast. -/
def fansPolicy : Policy := plainPolicy [("FAN0", "fast"), ("FAN1", "fast")]

/-- The first fan is fast when it is read for the fourth time, and goes back to a medium speed
after that. The second one is not impressed. -/
def fansRead (log : List Exchange) (key : String) : Except Failure Value :=
  if key = "fan0" then
    .ok (.text (["slow", "slow", "slow", "fast"].getD (readings log key).length "medium"))
  else .ok (.text "slow")

/-- An apply for these fans. -/
def fansRun : Trace × Program Hardware Journal (Except Failure ApplyReport × Journal) :=
  Program.runFor (Trace.respond fansRead) 30 ⟨Journal.empty, []⟩
    (apply ⟨fans.adopt Journal.empty, false, some fansPolicy⟩ .high [] Journal.empty)

theorem fans_loaded : loadEngine fans Journal.empty = .ok (fans.adopt Journal.empty) :=
  loadEngine_of_isOk (by decide)

/-- The apply fails. -/
private theorem fans_fail : ∃ err mem, Program.Steps observed ⟨Journal.empty, []⟩
    (apply ⟨fans.adopt Journal.empty, false, some fansPolicy⟩ .high [] Journal.empty) fansRun.1
    (.done (.error err, mem)) := by
  have hfails : (fansRun.2.result?.map fun r => r.1.isOk) = some false := by decide +kernel
  obtain ⟨⟨x, mem⟩, hresult, hx⟩ := Option.map_eq_some_iff.mp hfails
  cases x with
  | ok report => cases hx
  | error err =>
    refine ⟨err, mem, ?_⟩
    rw [← Program.eq_done_of_result? hresult]
    exact .of_runFor (fun t mem op => t.respond_observed fansRead mem op) _ _ _

/-- The snapshots that were saved. -/
def Exchange.saved? : Exchange → Option Journal
  | ⟨.save journal, (answer : Except Failure Unit)⟩ => if answer.isOk then some journal else none
  | _ => none

end Preseed.HardwareTuning
