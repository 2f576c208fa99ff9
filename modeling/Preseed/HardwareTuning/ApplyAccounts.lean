import Preseed.HardwareTuning.PairedApply
import Preseed.HardwareTuning.SnapshotRules

/-!
# The accounts of an apply

What the journal says of the controls while an apply writes and verifies, and what the
log says of them when it returns or fails.
-/

namespace Preseed.HardwareTuning

open Effects List

section Dictionary

variable {κ α : Type} [DecidableEq κ] (dict : List (κ × α)) (key : κ) (a : α)

/-- A key that is set is found. -/
theorem lookup_setKey (key' : κ) :
    (setKey dict key a).lookup key' = if key' = key then some a else dict.lookup key' := by
  have hmap : ∀ dict : List (κ × α), (dict.map fun kv => if kv.1 = key then (key, a) else kv).lookup
      key' = if key' = key then (dict.lookup key).map fun _ => a else dict.lookup key' := by
    intro dict
    induction dict with
    | nil => simp
    | cons kv rest ih =>
      obtain ⟨k, b⟩ := kv
      rw [map_cons]
      by_cases hk : k = key
      · rw [if_pos hk]
        by_cases hsame : key' = key
        · simp [hk, hsame]
        · have hne : key' ≠ k := hk ▸ hsame
          simp only [List.lookup_cons, beq_eq_false_iff_ne.mpr hsame, beq_eq_false_iff_ne.mpr hne,
            ih, if_neg hsame]
      · rw [if_neg hk]
        by_cases hsame : key' = key
        · have hne : key ≠ k := fun h => hk h.symm
          simp only [List.lookup_cons, hsame, beq_eq_false_iff_ne.mpr hne, if_true]
          rw [hsame, if_pos rfl] at ih
          exact ih
        · simp only [List.lookup_cons, ih, if_neg hsame]
  unfold setKey
  split
  · rename_i hmem
    obtain ⟨b, hb⟩ := lookup_isSome_of_mem hmem
    rw [hmap, hb]
    rfl
  · rename_i hnot
    rw [lookup_append]
    by_cases hsame : key' = key
    · have hnone : dict.lookup key = none := by
        refine lookup_eq_none_iff.mpr fun kv hkv => ?_
        have hne : key ≠ kv.1 := fun h => hnot (h ▸ mem_map_of_mem hkv)
        exact bne_iff_ne.mpr hne
      rw [hsame, hnone]
      simp
    · simp [List.lookup_cons, beq_eq_false_iff_ne.mpr hsame, hsame]

/-- A key that is deleted is not found. -/
theorem lookup_delKey (key' : κ) :
    (delKey dict key).lookup key' = if key' = key then none else dict.lookup key' := by
  unfold delKey
  induction dict with
  | nil => simp
  | cons kv rest ih =>
    obtain ⟨k, b⟩ := kv
    by_cases hk : k = key
    · rw [filter_cons_of_neg (by simpa using hk), ih]
      by_cases hsame : key' = key
      · simp [hsame]
      · simp [List.lookup_cons, hk, hsame, beq_eq_false_iff_ne.mpr hsame]
    · rw [filter_cons_of_pos (by simpa using hk), List.lookup_cons, List.lookup_cons, ih]
      by_cases hsame : key' = key
      · have hne : key' ≠ k := fun h => hk (h.symm.trans hsame)
        simp [hsame, beq_eq_false_iff_ne.mpr (hsame ▸ hne : key ≠ k)]
      · rw [if_neg hsame, if_neg hsame]

end Dictionary

/-- The journal while the apply writes: it has the baselines of the snapshot, every entry is
pending, and asks for what is still to be applied. A request is that of the plan, or it is skipped,
or `write_maximum` has selected its value. -/
structure Drafted (inventory : Inventory) (values : List (String × Value)) (snapshot : Journal)
    (visited : List String) (st : Writing) (s : Journal) (t : Trace) : Prop where
  /-- The baselines. -/
  kept : s.baselines = snapshot.baselines
  /-- The journal file. -/
  filed : t.file = snapshot
  /-- Nothing is settled. -/
  pending : ∀ e ∈ s.entries, e.pending = true
  /-- The journal asks for what is to be applied. -/
  synced : ∀ e ∈ s.entries, e.requested = (st.values.lookup e.id).join
  /-- What is to be applied is planned, skipped or selected. -/
  planned : ∀ key value, values.lookup key = some value → st.values.lookup key = some (some value) ∨
    st.values.lookup key = none ∨ key ∈ st.selections.map Prod.fst
  /-- A request without an effect is that of a visited control, which can be read or is skipped. -/
  unmodified : ∀ key ∈ st.unmodified, key ∈ visited ∧
    (inventory.restorable key = true ∨ st.values.lookup key = none)

/-- The journal and the log of an apply that has failed after its snapshot: an entry is missing only
if its control read its baseline after everything was written, and a settled entry has what
was read then. -/
structure Attempted (inventory : Inventory) (snapshot held : Journal) (t : Trace) : Prop where
  /-- The baselines are those of the snapshot. -/
  within : held.baselines.Sublist snapshot.baselines
  /-- They are in the journal file. -/
  filed : held.baselines ⊆ t.file.baselines
  /-- What is missing. -/
  missing : ∀ e ∈ snapshot.entries, (e.id, e.before) ∉ held.baselines →
    inventory.restorable e.id ∧ Holds t.log e.id e.before
  /-- What is settled. -/
  settled : ∀ e ∈ held.entries, e.pending = false → inventory.restorable e.id = true →
    ∃ value, e.last = some value ∧ Holds t.log e.id value

section Writing

variable {inventory : Inventory} {values : List (String × Value)} {snapshot s : Journal}
  {visited : List String} {st : Writing} {t : Trace} {key : String} {value : Value}

theorem Attempted.of_pending (hkept : s.baselines = snapshot.baselines) (hfiled : t.file = snapshot)
    (hpending : ∀ e ∈ s.entries, e.pending = true) : Attempted inventory snapshot s t where
  within := hkept ▸ List.Sublist.refl _
  filed := by rw [hkept, hfiled]; exact .refl _
  missing e he hnot := (hnot (hkept ▸ mem_map_of_mem he)).elim
  settled e he hsettled := by rw [hpending e he] at hsettled; cases hsettled

section

variable (h : Drafted inventory values snapshot visited st s t)
include h

theorem Drafted.attempted :
    Attempted inventory snapshot s t :=
  .of_pending h.kept h.filed h.pending

/-- The log does not matter to the draft. -/
theorem Drafted.later {t' : Trace}
    (hfile : t'.file = t.file) : Drafted inventory values snapshot visited st s t' :=
  { h with filed := hfile.trans h.filed }

/-- Another control has been visited. -/
theorem Drafted.visit (key : String) :
    Drafted inventory values snapshot (visited ++ [key]) st s t :=
  { h with unmodified := fun k hk =>
      ⟨mem_append_left _ (h.unmodified k hk).1, (h.unmodified k hk).2⟩ }

/-- A request is changed in the journal and in the plan. -/
theorem Drafted.setRequested
    {request : Option Value} {values' : List (String × Option Value)} {st' : Writing}
    (hvalues : st'.values = values')
    (hself : (values'.lookup key).join = request)
    (hother : ∀ k, k ≠ key → values'.lookup k = st.values.lookup k)
    (hrequest : values'.lookup key = none ∨ key ∈ st'.selections.map Prod.fst)
    (hselections : st.selections.map Prod.fst ⊆ st'.selections.map Prod.fst)
    (hnew : key ∉ visited)
    (hunmodified : ∀ k ∈ st'.unmodified, k ∈ st.unmodified ∨
      k = key ∧ (inventory.restorable key = true ∨ values'.lookup key = none)) :
    Drafted inventory values snapshot (visited ++ [key]) st'
      (s.update [key] fun e => { e with requested := request }) t := by
  subst hvalues
  have hbase : (s.update [key] fun e => { e with requested := request }).baselines = s.baselines :=
    s.baselines_update _ fun _ => ⟨rfl, rfl⟩
  refine ⟨hbase.trans h.kept, h.filed, ?_, ?_, ?_, ?_⟩
  · intro e he
    obtain ⟨e', he', rfl⟩ := Journal.mem_update.mp he
    split <;> exact h.pending e' he'
  · intro e he
    obtain ⟨e', he', rfl⟩ := Journal.mem_update.mp he
    by_cases hid : e'.id = key
    · rw [if_pos (mem_singleton.mpr hid)]
      change request = (st'.values.lookup e'.id).join
      rw [hid, hself]
    · rw [if_neg (by simpa using hid), hother _ hid]
      exact h.synced e' he'
  · intro k v hv
    by_cases hk : k = key
    · subst hk
      exact .inr hrequest
    · rw [hother k hk]
      rcases h.planned k v hv with hsame | hskipped | hselected
      · exact .inl hsame
      · exact .inr (.inl hskipped)
      · exact .inr (.inr (hselections hselected))
  · intro k hk
    rcases hunmodified k hk with hold | ⟨rfl, hgood⟩
    · obtain ⟨hvisited, hgood⟩ := h.unmodified k hold
      have hne : k ≠ key := fun heq => hnew (heq ▸ hvisited)
      exact ⟨mem_append_left _ hvisited, by rwa [hother k hne]⟩
    · exact ⟨by simp, hgood⟩

end

/-- The postcondition of one round of the writing loop. -/
def Drafting (inventory : Inventory) (values : List (String × Value)) (snapshot : Journal)
    (visited : List String) : Except Failure Writing → Journal → Trace → Prop :=
  outcome (fun st => Drafted inventory values snapshot visited st)
    fun _ => Attempted inventory snapshot

/-- An operation other than a save leaves the journal file alone. -/
theorem wp_ask {op : Request} (hop : ∀ journal, op ≠ .save journal)
    {Q : Except Failure op.Reply → Journal → Trace → Prop}
    (h : ∀ answer t', t'.file = t.file → t'.log = t.log ++ [⟨op, answer⟩] → Q answer s t') :
    wp observed unguarded (request op) Q s t := by
  refine (wp_request op).mpr ⟨trivial, fun answer t' hans => ?_⟩
  obtain ⟨hfile, hlog⟩ := hans
  refine h answer t' ?_ hlog
  cases op with
  | save journal => exact absurd rfl (hop journal)
  | _ => exact hfile

/-- Looking keeps the memory and the journal file. -/
theorem looking_draft (draft file : Journal) :
    Looking observed unguarded fun s t => s = draft ∧ t.file = file := by
  intro op hlooks s t h
  refine wp_ask (by rintro journal rfl; cases hlooks) fun answer t' hfile _ => ?_
  exact ⟨⟨h.1, hfile.trans h.2⟩, fun _ _ => trivial⟩

/-- A request is skipped. -/
theorem wp_skipRequest_drafted (h : Drafted inventory values snapshot visited st s t)
    (hnew : key ∉ visited) (st' : Writing) (hvalues : st'.values = st.values)
    (hunmodified : st'.unmodified = st.unmodified)
    (hselections : st.selections.map Prod.fst ⊆ st'.selections.map Prod.fst) (reason : String) :
    wp observed unguarded (skipRequest st' key reason)
      (Drafting inventory values snapshot (visited ++ [key])) s t := by
  unfold skipRequest HardwareTuning.setRequested
  simp only [wp_bind, wp_modify, outcome_ok, wp_pure, Drafting]
  have hgone : (delKey st'.values key).lookup key = none := by
    rw [lookup_delKey, if_pos rfl]
  refine h.setRequested rfl (by rw [hgone]; rfl) (fun k hk => ?_) (.inl hgone) hselections hnew
    fun k hk => ?_
  · rw [lookup_delKey, if_neg hk, hvalues]
  · rw [hunmodified] at hk
    rcases mem_append.mp hk with hk | hk
    · exact .inl hk
    · exact .inr ⟨mem_singleton.mp hk, .inr hgone⟩

/-- One round of the writing loop. -/
theorem wp_writeOne_drafted (policy : Policy) (profile : ProfilePolicy) (affected : List String)
    (h : Drafted inventory values snapshot visited st s t) (hnew : key ∉ visited) :
    wp observed unguarded (writeOne inventory policy profile affected st key value)
      (Drafting inventory values snapshot (visited ++ [key])) s t := by
  have hfails : ∀ t' : Trace, t'.file = t.file → Attempted inventory snapshot s t' :=
    fun t' hfile => (h.later hfile).attempted
  unfold writeOne
  cases hget : inventory.get? key with
  | none => exact hfails t rfl
  | some knob =>
    have hrestorable := Inventory.restorable_of_get? hget
    dsimp only
    rw [wp_bind]
    have hbefore : Act.Maintains observed unguarded
        (fun s' t' => s' = s ∧ t'.file = t.file) (readIfRestorable knob key)
        fun before => before ≠ none → knob.restorable = true := by
      unfold readIfRestorable
      refine .ite (fun hknob => .bind ((looking_draft s t.file).read key) fun _ _ =>
        .pure fun _ => hknob) fun _ => .pure fun hne => (hne rfl).elim
    refine wp_mono (hbefore s t ⟨rfl, rfl⟩) ?_
    rintro (e | before) s₁ t₁ ⟨⟨rfl, hfile₁⟩, hreadable⟩
    · exact hfails t₁ hfile₁
    have hreadable := hreadable before rfl
    rw [outcome_ok]
    split
    swap
    · exact (h.visit key).later hfile₁
    split
    · -- `write_maximum` chooses the value.
      unfold selectMaximum
      rw [wp_bind]
      refine wp_ask (by simp) fun (answer : Except Failure (Option String)) t₂ hfile₂ _ => ?_
      have hfile₂ := hfile₂.trans hfile₁
      have h₂ := h.later hfile₂
      cases answer with
      | error e => exact hfails t₂ hfile₂
      | ok selected =>
        rw [outcome_ok]
        cases selected with
        | none =>
          dsimp only
          split
          · exact hfails t₂ hfile₂
          · exact wp_skipRequest_drafted h₂ hnew _ (by rfl) (by rfl) (by simp) _
        | some chosen =>
          dsimp only
          rw [wp_bind, wp_lift]
          cases knob.resolve chosen policy with
          | error e => exact hfails t₂ hfile₂
          | ok resolved =>
            simp only [HardwareTuning.setRequested, outcome_ok, wp_bind, wp_modify,
              wp_pure, Drafting]
            have hset : (setKey st.values key resolved).lookup key = some resolved := by
              rw [lookup_setKey, if_pos rfl]
            refine h₂.setRequested rfl (by rw [hset]; rfl) (fun k hk => ?_) (.inr (by simp))
              (by simp) hnew fun k hk => ?_
            · rw [lookup_setKey, if_neg hk]
            · dsimp only at hk
              split at hk
              · rename_i hsame
                rcases mem_append.mp hk with hk | hk
                · exact .inl hk
                · refine .inr ⟨mem_singleton.mp hk, .inl ?_⟩
                  rw [hrestorable]
                  exact hreadable (by rw [← hsame]; simp)
              · exact .inl hk
    · -- The value is written directly.
      unfold writeDirectly
      rw [wp_bind]
      have hlook := looking_draft s₁ t.file
      have hobserve : Act.Maintains observed unguarded
          (fun s' t' => s' = s₁ ∧ t'.file = t.file) (if
          (profile.configured key knob.setting = "supported-max" ∨
            profile.configured key knob.setting = "supported-1") ∧
              affected.all inventory.restorable then do
            let seen ← observe affected
            pure (some seen)
          else pure none : EngineAct (Option (List (String × Value)))) fun _ => True :=
        .ite (fun _ => .bind (hlook.observe affected) fun _ _ => .pure trivial) fun _ =>
          .pure trivial
      refine wp_mono (hobserve s₁ t₁ ⟨rfl, hfile₁⟩) ?_
      rintro (e | observed) s₂ t₂ ⟨⟨rfl, hfile₂⟩, -⟩
      · exact hfails t₂ hfile₂
      rw [outcome_ok, wp_handleIf, wp_bind]
      refine wp_ask (by simp) fun (answer : Except Failure Unit) t₃ hfile₃ _ => ?_
      have hfile₃ := hfile₃.trans hfile₂
      cases answer with
      | ok _ => exact { (h.visit key).later hfile₃ with }
      | error e =>
        simp only [outcome_error]
        split
        · split
          · exact hfails t₃ hfile₃
          · rw [wp_bind]
            refine wp_mono ((hlook.observedChange _) s₂ t₃ ⟨rfl, hfile₃⟩) ?_
            rintro (e' | changed) s₄ t₄ ⟨⟨rfl, hfile₄⟩, -⟩
            · exact hfails t₄ hfile₄
            · rw [outcome_ok]
              split
              · exact hfails t₄ hfile₄
              · exact wp_skipRequest_drafted (h.later hfile₄) hnew _ (by rfl) (by rfl)
                  (.refl _) _
        · exact hfails t₃ hfile₃

end Writing

/-! ### The final verification -/

/-- The final verification before it comes to the rest of the entries: an entry that it has left
behind is settled, and what was requested of it is what its control reads. -/
structure Checking (inventory : Inventory) (st : Writing) (draft snapshot : Journal)
    (rest : List Entry) (actual : List (String × Readback)) (s : Journal) (t : Trace) : Prop where
  /-- The baselines. -/
  kept : s.baselines = snapshot.baselines
  /-- The journal file. -/
  filed : t.file = snapshot
  /-- What is left to verify. -/
  left : rest ⊆ draft.entries ∧ (rest.map Entry.id).Nodup
  /-- No control has two entries. -/
  unique : draft.ids.Nodup
  /-- It is pending. -/
  pending : ∀ e ∈ s.entries, e.id ∈ rest.map Entry.id → e.pending = true
  /-- What has been verified is settled. -/
  settled : ∀ e ∈ s.entries, e.id ∉ rest.map Entry.id → e.pending = false ∧
    (inventory.restorable e.id = true → ∃ value, e.last = some value ∧ Holds t.log e.id value) ∧
    (inventory.restorable e.id = false → ∃ v, st.values.lookup e.id = some v)
  /-- It has its requested value. -/
  met : ∀ key readback, (key, readback) ∈ actual → key ∉ rest.map Entry.id ∧
    (inventory.restorable key = true →
      ∀ value, readback.requested = some value → Holds t.log key value)
  /-- It is reported. -/
  listed : ∀ e ∈ draft.entries, e.id ∉ rest.map Entry.id →
    ∃ readback, (e.id, readback) ∈ actual ∧ readback.requested = e.requested

section Checking

variable {inventory : Inventory} {st : Writing} {draft snapshot s : Journal} {entry : Entry}
  {rest : List Entry} {actual : List (String × Readback)} {t : Trace}

theorem Checking.attempted (h : Checking inventory st draft snapshot rest actual s t) :
    Attempted inventory snapshot s t where
  within := h.kept ▸ List.Sublist.refl _
  filed := by rw [h.kept, h.filed]; exact .refl _
  missing e he hnot := (hnot (h.kept ▸ mem_map_of_mem he)).elim
  settled e he hsettled hrestorable := by
    have hdone : e.id ∉ rest.map Entry.id := by
      intro hin
      rw [h.pending e he hin] at hsettled
      cases hsettled
    exact (h.settled e he hdone).2.1 hrestorable

section

variable (h : Checking inventory st draft snapshot (entry :: rest) actual s t)
include h

/-- The control of the next entry is read. -/
theorem Checking.read
    {answer : Except Failure Value} {t' : Trace} (hfile : t'.file = t.file)
    (hlog : t'.log = t.log ++ [⟨.read entry.id, answer⟩]) :
    Checking inventory st draft snapshot (entry :: rest) actual s t' := by
  have hother : ∀ key value, key ∉ (entry :: rest).map Entry.id → Holds t.log key value →
      Holds t'.log key value := by
    intro key value hkey hholds
    rw [hlog]
    exact hholds.read (fun heq => hkey (by simp [heq])) answer
  refine ⟨h.kept, hfile.trans h.filed, h.left, h.unique, h.pending, fun e he hdone => ?_,
    fun key readback hin => ?_, h.listed⟩
  · obtain ⟨hsettled, hreads, hgiven⟩ := h.settled e he hdone
    refine ⟨hsettled, fun hrestorable => ?_, hgiven⟩
    obtain ⟨value, hlast, hholds⟩ := hreads hrestorable
    exact ⟨value, hlast, hother _ _ hdone hholds⟩
  · obtain ⟨hdone, hmet⟩ := h.met key readback hin
    exact ⟨hdone, fun hrestorable value hvalue =>
      hother _ _ hdone (hmet hrestorable value hvalue)⟩

/-- A note is made of the next entry. -/
theorem Checking.note
    (last : Option Value) :
    Checking inventory st draft snapshot (entry :: rest) actual
      (s.update [entry.id] fun e => { e with last := last }) t := by
  have hbase : (s.update [entry.id] fun e => { e with last := last }).baselines = s.baselines :=
    s.baselines_update _ fun _ => ⟨rfl, rfl⟩
  refine ⟨hbase.trans h.kept, h.filed, h.left, h.unique, fun e he hin => ?_,
    fun e he hdone => ?_, h.met, h.listed⟩
  · obtain ⟨e', he', rfl⟩ := Journal.mem_update.mp he
    split
    · rename_i hid
      exact h.pending e' he' (by simp [mem_singleton.mp hid])
    · rename_i hid
      rw [if_neg hid] at hin
      exact h.pending e' he' hin
  · obtain ⟨e', he', rfl⟩ := Journal.mem_update.mp he
    split at hdone
    · rename_i hid
      exact (hdone (by simp [mem_singleton.mp hid])).elim
    · rename_i hid
      rw [if_neg hid]
      exact h.settled e' he' hdone

/-- The next entry is settled. -/
theorem Checking.next {last : Option Value} {readable : Bool}
    (hreads : inventory.restorable entry.id = true → ∃ value, last = some value ∧
      Holds t.log entry.id value)
    (hgiven : inventory.restorable entry.id = false → ∃ v, st.values.lookup entry.id = some v)
    (hmet : inventory.restorable entry.id = true →
      ∀ value, entry.requested = some value → last = some value) :
    Checking inventory st draft snapshot rest
      (actual ++ [(entry.id, ⟨entry.requested, last, readable⟩)])
      ((s.update [entry.id] fun e => { e with last := last }).update [entry.id]
        fun e => { e with pending := false }) t := by
  have hbase : ((s.update [entry.id] fun e => { e with last := last }).update [entry.id]
      fun e => { e with pending := false }).baselines = s.baselines := by
    have hfirst : (s.update [entry.id] fun e => { e with last := last }).baselines = s.baselines :=
      s.baselines_update _ fun _ => ⟨rfl, rfl⟩
    rw [← hfirst]
    exact Journal.baselines_update _ _ fun _ => ⟨rfl, rfl⟩
  have hnodup := h.left.2
  rw [map_cons, nodup_cons] at hnodup
  -- An entry is as before, or it is the one that has been verified.
  have hcases : ∀ e ∈ ((s.update [entry.id] fun e => { e with last := last }).update [entry.id]
      fun e => { e with pending := false }).entries, e ∈ s.entries ∧ e.id ≠ entry.id ∨
      e.id = entry.id ∧ e.last = last ∧ e.pending = false := by
    intro e he
    obtain ⟨e₁, he₁, rfl⟩ := Journal.mem_update.mp he
    obtain ⟨e₀, he₀, rfl⟩ := Journal.mem_update.mp he₁
    by_cases hid : e₀.id = entry.id
    · right
      simp [hid]
    · left
      simp [hid, he₀]
  refine ⟨hbase.trans h.kept, h.filed,
    ⟨fun e he => h.left.1 (mem_cons_of_mem _ he), hnodup.2⟩, h.unique, ?_, ?_, ?_, ?_⟩
  · intro e he hin
    rcases hcases e he with ⟨he₀, -⟩ | ⟨hid, -, -⟩
    · exact h.pending e he₀ (by simp [mem_map.mp hin])
    · exact (hnodup.1 (hid ▸ hin)).elim
  · intro e he hdone
    rcases hcases e he with ⟨he₀, hid⟩ | ⟨hid, hlast, hsettled⟩
    · exact h.settled e he₀ (by rw [map_cons, mem_cons, not_or]; exact ⟨hid, hdone⟩)
    · rw [hid, hlast]
      exact ⟨hsettled, hreads, hgiven⟩
  · intro key readback hin
    rcases mem_append.mp hin with hin | hin
    · obtain ⟨hdone, hmet⟩ := h.met key readback hin
      exact ⟨fun h => hdone (by simp [mem_map.mp h]), hmet⟩
    · obtain ⟨rfl, rfl⟩ := Prod.mk.inj (mem_singleton.mp hin)
      refine ⟨hnodup.1, fun hrestorable value hvalue => ?_⟩
      obtain ⟨v, hv, hholds⟩ := hreads hrestorable
      have hsame := hmet hrestorable value hvalue
      rw [hv, Option.some.injEq] at hsame
      exact hsame ▸ hholds
  · intro e he hdone
    by_cases hid : e.id = entry.id
    · obtain rfl : e = entry :=
        inj_on_of_nodup_map h.unique he (h.left.1 mem_cons_self) hid
      exact ⟨_, mem_append_right _ (mem_singleton.mpr rfl), rfl⟩
    · obtain ⟨readback, hin, hrequested⟩ :=
        h.listed e he (by rw [map_cons, mem_cons, not_or]; exact ⟨hid, hdone⟩)
      exact ⟨readback, mem_append_left _ hin, hrequested⟩

end

/-- The check of a request passes only what was requested. -/
theorem checkRequest_ok (knob : Knob) (policy : Policy) (value : Option (Option Value))
    (last : Option Value) {Q : Except Failure Unit → Journal → Trace → Prop}
    (hok : (knob.restorable = true → ∀ v w, value = some v → last = some w → last = v) →
      Q (.ok ()) s t) (herror : ∀ e, Q (.error e) s t) :
    wp observed unguarded (checkRequest knob policy value last) Q s t := by
  unfold checkRequest
  split
  · rename_i v w _
    rw [wp_bind, wp_lift]
    cases knob.resolve w.str policy with
    | error e => exact herror e
    | ok _ =>
      rw [outcome_ok]
      split
      · exact herror _
      · rename_i hsame
        refine hok fun _ v' w' hv' hw' => ?_
        cases hv'
        cases hw'
        exact not_not.mp hsame
  · rename_i hnot
    refine hok fun hknob v w hv hw => ?_
    subst hv hw
    exact (hnot v w hknob rfl rfl).elim

/-- The final verification of one entry. -/
theorem wp_verifyApplied_checked (policy : Policy)
    (hsynced : ∀ e ∈ draft.entries, e.requested = (st.values.lookup e.id).join)
    (h : Checking inventory st draft snapshot (entry :: rest) actual s t) :
    wp observed unguarded
      (HardwareTuning.verifyApplied inventory policy st.values actual entry)
      (outcome (fun actual' => Checking inventory st draft snapshot rest actual')
        fun _ => Attempted inventory snapshot) s t := by
  unfold HardwareTuning.verifyApplied
  cases hget : inventory.get? entry.id with
  | none => exact h.attempted
  | some knob =>
    have hknob := Inventory.restorable_of_get? hget
    dsimp only
    rw [wp_bind]
    -- What the entry settles on.
    have hvalue : wp observed unguarded (settledValue knob entry.id st.values)
        (fun x s' t' => s' = s ∧ Checking inventory st draft snapshot (entry :: rest) actual s t' ∧
          ∀ last, x = .ok last →
            (inventory.restorable entry.id = true →
              ∃ value, last = some value ∧ Holds t'.log entry.id value) ∧
            (inventory.restorable entry.id = false → ∃ v, st.values.lookup entry.id = some v))
        s t := by
      unfold settledValue
      rw [hknob]
      split
      · rename_i hrestorable
        rw [wp_bind]
        refine wp_ask (by simp) fun (answer : Except Failure Value) t' hfile hlog => ?_
        have hread := h.read hfile hlog
        cases answer with
        | error e => exact ⟨rfl, hread, nofun⟩
        | ok current =>
          refine ⟨rfl, hread, fun last hlast => ?_⟩
          cases hlast
          refine ⟨fun _ => ⟨current, rfl, ?_⟩, fun hfixed => ?_⟩
          · rw [hlog]
            exact holds_read _ _ rfl
          · rw [hrestorable] at hfixed
            cases hfixed
      · rename_i hfixed
        split
        · rename_i v hv
          exact ⟨rfl, h, fun _ _ => ⟨fun hrestorable => (hfixed hrestorable).elim,
            fun _ => ⟨v, hv⟩⟩⟩
        · exact ⟨rfl, h, nofun⟩
    refine wp_mono hvalue ?_
    rintro (e | last) s' t' ⟨rfl, hchecking, hlast⟩
    · exact hchecking.attempted
    obtain ⟨hreads, hgiven⟩ := hlast last rfl
    rw [outcome_ok, wp_bind, wp_modify, outcome_ok, wp_bind]
    refine checkRequest_ok knob policy _ last (fun hcheck => ?_)
      fun e => (hchecking.note last).attempted
    rw [outcome_ok, wp_bind, wp_modify, outcome_ok, wp_pure, outcome_ok]
    refine hchecking.next hreads hgiven fun hrestorable value hrequested => ?_
    obtain ⟨current, rfl, -⟩ := hreads hrestorable
    rw [hsynced entry (h.left.1 mem_cons_self)] at hrequested
    cases hlookup : st.values.lookup entry.id with
    | none => simp [hlookup] at hrequested
    | some v =>
      rw [hlookup] at hrequested
      rw [hcheck (hknob ▸ hrestorable) v current hlookup rfl]
      exact hrequested

/-- What an apply that returns has achieved: the controls of its report whose requests are left read
what was requested, and its report has every planned control. -/
structure Achieved (inventory : Inventory) (values : List (String × Value)) (report : ApplyReport)
    (log : List Exchange) : Prop where
  /-- The requests that are left. -/
  met : ∀ key readback, (key, readback) ∈ report.controls → inventory.restorable key = true →
    ∀ value, readback.requested = some value → Holds log key value
  /-- A planned request is left, or it was skipped, or `write_maximum` has selected its value. -/
  reported : ∀ key value, values.lookup key = some value → ∃ readback,
    (key, readback) ∈ report.controls ∧ (readback.requested = some value ∨
      readback.requested = none ∨ key ∈ report.selections.map Prod.fst)

end Checking

section CarryingOut

variable {inventory : Inventory} {snapshot : Journal} {t : Trace}

/-- The attempt of an apply after its snapshot: it achieves what it has prepared, or it leaves an
account of what it has done. -/
theorem wp_carryOut_observed {prepared : Prepared} (name : Profile)
    (hkeys : (prepared.values.map Prod.fst).Nodup)
    (hknown : ∀ key ∈ prepared.values.map Prod.fst, (inventory.get? key).isSome)
    (hids : snapshot.ids.Nodup) (hlisted : ∀ key ∈ prepared.values.map Prod.fst, key ∈ snapshot.ids)
    (hpending : ∀ e ∈ snapshot.entries, e.pending = true)
    (hrequested : ∀ e ∈ snapshot.entries, e.requested = prepared.values.lookup e.id)
    (hfiled : t.file = snapshot) :
    wp observed unguarded (prepared.carryOut inventory name)
      (outcome (fun report _ t' => Achieved inventory prepared.values report t'.log)
        fun _ => Attempted inventory snapshot) snapshot t := by
  have hlookup : ∀ key, (prepared.values.map fun kv => (kv.1, some kv.2)).lookup key =
      (prepared.values.lookup key).map some := by
    intro key
    induction prepared.values with
    | nil => rfl
    | cons kv rest ih =>
      obtain ⟨k, v⟩ := kv
      simp only [map_cons, List.lookup_cons, ih]
      cases key == k <;> rfl
  unfold Prepared.carryOut writeAndVerify
  rw [wp_bind]
  refine wp_ordered hkeys hknown (fun visited st s t' =>
    Drafted inventory prepared.values snapshot visited st s t') ?_ ?_ ?_ ?_
  · refine ⟨rfl, hfiled, hpending, fun e he => ?_, fun key value hvalue => ?_, by simp⟩
    · rw [hrequested e he, hlookup]
      cases prepared.values.lookup e.id <;> rfl
    · left
      rw [hlookup, hvalue]
      rfl
  · intro visited st s t' lo hi low h _ _
    refine ⟨trivial, fun answer t'' hans => ?_⟩
    have hlater := h.later hans.1
    exact ⟨fun _ _ => hlater.attempted, fun _ => hlater⟩
  · intro visited st s t' key value h hnew _
    refine wp_mono (wp_writeOne_drafted prepared.policy _ prepared.affected h hnew) ?_
    rintro (e | st') s' t'' h'
    · exact h'
    · exact h'
  · intro visited st s t' _ h
    rw [outcome_ok, wp_bind, wp_get, outcome_ok, wp_bind]
    have hsame : s.ids = snapshot.ids := by
      rw [← Journal.baselines_ids, ← Journal.baselines_ids, h.kept]
    have hunique : s.ids.Nodup := hsame ▸ hids
    refine wp_fold (fun rest actual s' t'' =>
      Checking inventory st s snapshot rest actual s' t'') ?_ ?_ ?_
    · refine ⟨h.kept, h.filed, ⟨.refl _, hunique⟩, hunique, fun e he _ => h.pending e he,
        fun e he hnot => ?_, by simp, fun e he hnot => ?_⟩
      · exact (hnot (mem_map_of_mem he)).elim
      · exact (hnot (mem_map_of_mem he)).elim
    · intro entry rest actual s' t'' hchecking
      refine wp_mono (wp_verifyApplied_checked prepared.policy h.synced hchecking) ?_
      rintro (e | actual') s₁ t₁ h'
      · exact h'
      · exact h'
    · intro actual s' t'' hchecking
      simp only [outcome_ok, wp_bind, wp_modify, wp_get, wp_saveJournal]
      set final : Journal := { s' with entries := s'.entries.filter fun e =>
        e.id ∉ st.unmodified ∨ e.last ≠ some e.before } with hfinal
      refine ⟨trivial, fun answer t₁ hans => ?_⟩
      obtain ⟨hcases, hlog⟩ := hans
      have hsub : final.baselines.Sublist snapshot.baselines := by
        rw [← hchecking.kept]
        exact filter_sublist.map _
      have hholds : ∀ key value, Holds t''.log key value → Holds t₁.log key value := by
        intro key value hvalue
        rw [hlog]
        exact hvalue.save _ _
      have hdone : ∀ e ∈ s'.entries, e.pending = false ∧
          (inventory.restorable e.id = true →
            ∃ value, e.last = some value ∧ Holds t₁.log e.id value) ∧
          (inventory.restorable e.id = false → ∃ v, st.values.lookup e.id = some v) := by
        intro e he
        obtain ⟨hsettled, hreads, hgiven⟩ := hchecking.settled e he (by simp)
        refine ⟨hsettled, fun hrestorable => ?_, hgiven⟩
        obtain ⟨value, hlast, hvalue⟩ := hreads hrestorable
        exact ⟨value, hlast, hholds _ _ hvalue⟩
      cases answer with
      | error err =>
        refine ⟨hsub, ?_, fun e he hnot => ?_, fun e he _ hrestorable => ?_⟩
        · rcases hcases with hnew | ⟨-, hold⟩
          · rw [hnew]
            exact .refl _
          · rw [hold, hchecking.filed]
            exact hsub.subset
        · -- The entry of a skipped or already working request.
          obtain ⟨e', he', hid, hbefore⟩ : ∃ e' ∈ s'.entries, e'.id = e.id ∧
              e'.before = e.before := by
            have hin : (e.id, e.before) ∈ s'.baselines :=
              hchecking.kept ▸ mem_map_of_mem he
            obtain ⟨e', he', heq⟩ := mem_map.mp hin
            exact ⟨e', he', (Prod.mk.inj heq).1, (Prod.mk.inj heq).2⟩
          have hdropped : e'.id ∈ st.unmodified ∧ e'.last = some e'.before := by
            by_contra hkeep
            refine hnot (mem_map.mpr ⟨e', mem_filter.mpr ⟨he', ?_⟩, by rw [hid, hbefore]⟩)
            rw [decide_eq_true_eq]
            tauto
          obtain ⟨-, hreads, hgiven⟩ := hdone e' he'
          have hrestorable : inventory.restorable e'.id = true := by
            rcases (h.unmodified e'.id hdropped.1).2 with hgood | hgone
            · exact hgood
            · by_contra hfixed
              obtain ⟨v, hv⟩ := hgiven (by simpa using hfixed)
              rw [hgone] at hv
              cases hv
          obtain ⟨value, hlast, hvalue⟩ := hreads hrestorable
          rw [hdropped.2, Option.some.injEq] at hlast
          rw [← hid, ← hbefore, hlast]
          exact ⟨hrestorable, hvalue⟩
        · exact (hdone e (mem_of_mem_filter he)).2.1 hrestorable
      | ok _ =>
        rw [outcome_ok, wp_pure, outcome_ok]
        refine ⟨fun key readback hin hrestorable value hvalue => ?_, fun key value hvalue => ?_⟩
        · exact hholds _ _ ((hchecking.met key readback hin).2 hrestorable value hvalue)
        · have hkey := hlisted key (mem_map_of_mem (mem_of_lookup hvalue))
          rw [← hsame] at hkey
          obtain ⟨e, he, rfl⟩ := mem_map.mp hkey
          obtain ⟨readback, hin, hasked⟩ := hchecking.listed e he (by simp)
          refine ⟨readback, hin, ?_⟩
          rw [hasked, h.synced e he]
          rcases h.planned e.id value hvalue with hsame | hskipped | hselected
          · exact .inl (by rw [hsame]; rfl)
          · exact .inr (.inl (by rw [hskipped]; rfl))
          · exact .inr (.inr hselected)

end CarryingOut

end Preseed.HardwareTuning
