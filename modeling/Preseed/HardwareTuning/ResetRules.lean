import Preseed.HardwareTuning.OrderedPositions

/-!
# The rules of a reset

`Engine.reset` keeps its books the same way whatever the hardware answers: the
first pass sorts the entries into controls to restore, controls to yield and
failures, the restoring loop and the final verification only remove controls from
the completed ones with a failure, and the journal loses exactly the completed
controls. The rules of this file do this bookkeeping once, for every environment.
-/

namespace Preseed.HardwareTuning

open Effects List

/-- What the first pass knows about the entries it has seen. `answers` relates an entry to what
reading its control may have answered. -/
structure Scan.Sorts (inventory : Inventory) (answers : Entry → Except Failure Value → Prop)
    (entries : List Entry) (scan : Scan) : Prop where
  /-- A control is restored to the baseline of its entry. -/
  restore : ∀ kv ∈ scan.restore, ∃ e ∈ entries, e.id = kv.1 ∧ e.before = kv.2 ∧
    (inventory.get? e.id).isSome
  /-- The controls to restore stand in the order of the journal. -/
  order : (scan.restore.map Prod.fst).Sublist (entries.map Entry.id)
  /-- A yielded control has settled since, and no longer reads its last value. -/
  yielded : ∀ key ∈ scan.yielded, ∃ e ∈ entries, e.id = key ∧ e.pending = false ∧
    inventory.restorable key ∧ ∃ value, answers e (.ok value) ∧ some value ≠ e.last
  /-- Every entry is sorted, or its failure is on record. -/
  covered : ∀ e ∈ entries, e.id ∈ scan.restore.map Prod.fst ∨ e.id ∈ scan.yielded ∨
    scan.failures ≠ []
  /-- Something has failed only if a control is missing or could not be read. -/
  failed : scan.failures ≠ [] → ∃ e ∈ entries, inventory.get? e.id = none ∨
    ∃ err, answers e (.error err)

namespace Scan.Sorts

variable {inventory : Inventory} {answers : Entry → Except Failure Value → Prop}
  {entries : List Entry} {scan : Scan} {entry : Entry}

private theorem empty : Scan.Sorts inventory answers [] ⟨[], [], []⟩ := by
  constructor <;> simp

section

variable (h : scan.Sorts inventory answers entries)
include h

/-- More may become known of the answers. -/
theorem mono {answers' : Entry → Except Failure Value → Prop}
    (hle : ∀ e a, answers e a → answers' e a) : scan.Sorts inventory answers' entries where
  restore := h.restore
  order := h.order
  yielded key hkey := by
    obtain ⟨e, he, hid, hpending, hrestorable, value, hanswer, hne⟩ := h.yielded key hkey
    exact ⟨e, he, hid, hpending, hrestorable, value, hle _ _ hanswer, hne⟩
  covered := h.covered
  failed hf := by
    obtain ⟨e, he, hmissing | ⟨err, herr⟩⟩ := h.failed hf
    · exact ⟨e, he, .inl hmissing⟩
    · exact ⟨e, he, .inr ⟨err, hle _ _ herr⟩⟩

private theorem addFailure (reason : String)
    (hfailed : inventory.get? entry.id = none ∨ ∃ err, answers entry (.error err)) :
    Scan.Sorts inventory answers (entries ++ [entry])
      { scan with failures := scan.failures ++ [reason] } where
  restore kv hkv := by
    obtain ⟨e, he, hrest⟩ := h.restore kv hkv
    exact ⟨e, mem_append_left _ he, hrest⟩
  order := by
    rw [map_append]
    exact h.order.trans (sublist_append_left _ _)
  yielded key hkey := by
    obtain ⟨e, he, hrest⟩ := h.yielded key hkey
    exact ⟨e, mem_append_left _ he, hrest⟩
  covered _ _ := .inr (.inr (by simp))
  failed _ := ⟨entry, by simp, hfailed⟩

private theorem addRestore
    (hknown : (inventory.get? entry.id).isSome) :
    Scan.Sorts inventory answers (entries ++ [entry])
      { scan with restore := scan.restore ++ [(entry.id, entry.before)] } where
  restore kv hkv := by
    rcases mem_append.mp hkv with hkv | hkv
    · obtain ⟨e, he, hrest⟩ := h.restore kv hkv
      exact ⟨e, mem_append_left _ he, hrest⟩
    · rw [mem_singleton.mp hkv]
      exact ⟨entry, by simp, rfl, rfl, hknown⟩
  order := by
    simpa using h.order.append (List.Sublist.refl [entry.id])
  yielded key hkey := by
    obtain ⟨e, he, hrest⟩ := h.yielded key hkey
    exact ⟨e, mem_append_left _ he, hrest⟩
  covered e he := by
    rcases mem_append.mp he with he | he
    · rcases h.covered e he with hr | hy | hf
      · exact .inl (by rw [map_append]; exact mem_append_left _ hr)
      · exact .inr (.inl hy)
      · exact .inr (.inr hf)
    · rw [mem_singleton.mp he]
      exact .inl (by simp)
  failed hf := by
    obtain ⟨e, he, hrest⟩ := h.failed hf
    exact ⟨e, mem_append_left _ he, hrest⟩

private theorem addYielded {value : Value}
    (hpending : entry.pending = false) (hrestorable : inventory.restorable entry.id)
    (hanswer : answers entry (.ok value)) (hne : some value ≠ entry.last) :
    Scan.Sorts inventory answers (entries ++ [entry])
      { scan with yielded := scan.yielded ++ [entry.id] } where
  restore kv hkv := by
    obtain ⟨e, he, hrest⟩ := h.restore kv hkv
    exact ⟨e, mem_append_left _ he, hrest⟩
  order := by
    rw [map_append]
    exact h.order.trans (sublist_append_left _ _)
  yielded key hkey := by
    rcases mem_append.mp hkey with hkey | hkey
    · obtain ⟨e, he, hrest⟩ := h.yielded key hkey
      exact ⟨e, mem_append_left _ he, hrest⟩
    · rw [mem_singleton.mp hkey]
      exact ⟨entry, by simp, rfl, hpending, hrestorable, value, hanswer, hne⟩
  covered e he := by
    rcases mem_append.mp he with he | he
    · rcases h.covered e he with hr | hy | hf
      · exact .inl hr
      · exact .inr (.inl (mem_append_left _ hy))
      · exact .inr (.inr hf)
    · rw [mem_singleton.mp he]
      exact .inr (.inl (by simp))
  failed hf := by
    obtain ⟨e, he, hrest⟩ := h.failed hf
    exact ⟨e, mem_append_left _ he, hrest⟩

end

end Scan.Sorts

/-! ### Yielding domains -/

section Yield

variable {inventory : Inventory} {journal : Journal} {scan : Scan}

/-- Without a yielded control nothing is given up. -/
theorem yieldDomains_of_nil (h : scan.yielded = []) :
    yieldDomains inventory journal scan = scan := by
  cases scan with
  | mk restore yielded failures =>
    cases h
    simp [yieldDomains, givenUp]

/-- Yielding only takes controls from those to restore. -/
theorem restore_yieldDomains_subset {kv : String × Value}
    (h : kv ∈ (yieldDomains inventory journal scan).restore) : kv ∈ scan.restore :=
  mem_of_mem_filter h

/-- What is not restored any more has been yielded. -/
theorem mem_yieldDomains {key : String}
    (h : key ∈ scan.restore.map Prod.fst ∨ key ∈ scan.yielded) :
    key ∈ (yieldDomains inventory journal scan).restore.map Prod.fst ∨
      key ∈ (yieldDomains inventory journal scan).yielded := by
  rcases h with h | h
  · cases hg : givenUp inventory journal scan key with
    | false =>
      obtain ⟨kv, hkv, rfl⟩ := mem_map.mp h
      exact .inl (mem_map_of_mem (mem_filter.mpr ⟨hkv, by simp [hg]⟩))
    | true => exact .inr (mem_append_right _ (mem_filter.mpr ⟨h, hg⟩))
  · exact .inr (mem_append_left _ h)

/-- The remaining controls to restore still stand in the order of the journal. -/
theorem order_yieldDomains {keys : List String}
    (h : (scan.restore.map Prod.fst).Sublist keys) :
    ((yieldDomains inventory journal scan).restore.map Prod.fst).Sublist keys :=
  (filter_sublist.map _).trans h

end Yield

/-! ### The loops of a reset -/

/-- The operation puts a value into a control. -/
def Request.Puts (key : String) (value : Value) (op : Request) : Prop :=
  op = .write key value ∨ op = .restoreValue key value

/-- One step of the restoring loop: the control is completed, or a failure is recorded. -/
structure Restoration.Visits (st st' : Restoration) (key : String) : Prop where
  /-- Completed controls stay completed. -/
  kept : st.complete ⊆ st'.complete
  /-- Only the current control is newly completed. -/
  added : ∀ k ∈ st'.complete, k ∈ st.complete ∨ k = key
  /-- Without a failure the control is completed. -/
  recorded : st'.failures = [] → st.failures = [] ∧ key ∈ st'.complete
  /-- No control is completed twice. -/
  nodup : st.complete.Nodup → st'.complete.Nodup

/-- Retaining a control records a failure. -/
theorem Restoration.visits_retain (st : Restoration) (key reason : String) :
    st.Visits (st.retain key reason) key :=
  ⟨fun _ h => h, fun _ h => .inl h, fun h => by simp [Restoration.retain] at h, fun h => h⟩

section Rules

variable {W : Type} {E : Environment Hardware Journal W} {G : Guard Hardware Journal W}
  {inventory : Inventory} {s : Journal} {w : W}

/-- The rule of the first pass of a reset, with what is known of the answers growing along the
way: `J` holds after the entries seen so far. -/
theorem wp_scanning (J : List Entry → W → Prop) (answers : W → Entry → Except Failure Value → Prop)
    {entries : List Entry} (hJ : J [] w)
    (hskip : ∀ seen e rest, entries = seen ++ e :: rest → ∀ w, J seen w → J (seen ++ [e]) w)
    (hread : ∀ seen e rest, entries = seen ++ e :: rest → ∀ w, J seen w → G w s (.read e.id) ∧
      ∀ (answer : Except Failure Value) w', E w s (.read e.id) answer w' →
        J (seen ++ [e]) w' ∧ answers w' e answer ∧ ∀ e' a, answers w e' a → answers w' e' a) :
    wp E G (Act.fold (scanOne inventory) ⟨[], [], []⟩ entries)
      (fun x s' w' => s' = s ∧ (∃ seen, J seen w') ∧
        (∀ scan, x = .ok scan → J entries w' ∧ scan.Sorts inventory (answers w') entries) ∧
        ∀ err, x = .error err → ∃ e ∈ entries, answers w' e (.error err)) s w := by
  refine wp_fold (fun rest scan s' w' => s' = s ∧
    ∃ seen, entries = seen ++ rest ∧ J seen w' ∧ scan.Sorts inventory (answers w') seen)
    ⟨rfl, [], rfl, hJ, Scan.Sorts.empty⟩ ?_ ?_
  · rintro entry rest scan s' w' ⟨rfl, seen, rfl, hJ, hsorts⟩
    have hsplit : seen ++ entry :: rest = (seen ++ [entry]) ++ rest := by simp
    unfold scanOne
    cases hget : inventory.get? entry.id with
    | none =>
      rw [wp_pure, outcome_ok]
      exact ⟨rfl, _, hsplit, hskip seen entry rest rfl w' hJ, hsorts.addFailure _ (.inl hget)⟩
    | some knob =>
      obtain ⟨hguard, hanswers⟩ := hread seen entry rest rfl w' hJ
      simp only [wp_handleIf, wp_bind, wp_readControl]
      refine ⟨hguard, fun answer w'' hanswer => ?_⟩
      obtain ⟨hJ', hans, hmono⟩ := hanswers answer w'' hanswer
      have hsorts := hsorts.mono hmono
      cases answer with
      | error err =>
        simp only [outcome_error]
        cases err.isCaught with
        | true =>
          simp only [if_true, wp_pure, outcome_ok]
          exact ⟨trivial, _, hsplit, hJ', hsorts.addFailure _ (.inr ⟨err, hans⟩)⟩
        | false =>
          simp only [Bool.false_eq_true, if_false]
          exact ⟨trivial, ⟨_, hJ'⟩, by simp, fun e he => ⟨entry, by simp, by cases he; exact hans⟩⟩
      | ok value =>
        simp only [outcome_ok]
        split
        case isTrue h =>
          simp only [wp_pure, outcome_ok]
          exact ⟨trivial, _, hsplit, hJ', hsorts.addRestore (by simp [hget])⟩
        case isFalse h =>
          simp only [not_or, Bool.not_eq_true, Bool.not_eq_false] at h
          obtain ⟨hpending, hrestorable, hne⟩ := h
          simp only [wp_pure, outcome_ok]
          refine ⟨trivial, _, hsplit, hJ', hsorts.addYielded hpending ?_ hans hne⟩
          rw [Inventory.restorable_of_get? hget]
          exact hrestorable
  · rintro scan s' w' ⟨rfl, seen, rfl, hJ, hsorts⟩
    refine ⟨rfl, ⟨_, hJ⟩, ?_, by simp⟩
    intro scan' hscan
    cases hscan
    simpa using ⟨hJ, hsorts⟩

/-- The rule of the first pass of a reset. -/
theorem wp_scan (J : W → Prop) (answers : Entry → Except Failure Value → Prop)
    {entries : List Entry} (hJ : J w)
    (hread : ∀ e ∈ entries, ∀ w, J w → G w s (.read e.id) ∧
      ∀ (answer : Except Failure Value) w', E w s (.read e.id) answer w' →
        J w' ∧ answers e answer) :
    wp E G (Act.fold (scanOne inventory) ⟨[], [], []⟩ entries)
      (fun x s' w' => s' = s ∧ J w' ∧
        (∀ scan, x = .ok scan → scan.Sorts inventory answers entries) ∧
        ∀ err, x = .error err → ∃ e ∈ entries, answers e (.error err)) s w := by
  refine wp_mono (wp_scanning (fun _ => J) (fun _ => answers) hJ
    (fun _ _ _ _ _ hJ => hJ) fun seen e rest hsplit w hJ => ?_) ?_
  · obtain ⟨hguard, hanswers⟩ := hread e (by simp [hsplit]) w hJ
    refine ⟨hguard, fun answer w' h => ?_⟩
    obtain ⟨hJ', hans⟩ := hanswers answer w' h
    exact ⟨hJ', hans, fun _ _ ha => ha⟩
  · rintro x s' w' ⟨hs, ⟨_, hJ'⟩, hok, herr⟩
    exact ⟨hs, hJ', fun scan hx => (hok scan hx).2, herr⟩

variable {key : String} {knob : Knob} {value : Value}

/-- The rule of a readback: it reads the control and raises unless it reads the value. -/
theorem wp_checkReadback {text : String} {Q : Except Failure Unit → Journal → W → Prop}
    (hread : knob.restorable → G w s (.read key) ∧
      ∀ (answer : Except Failure Value) w', E w s (.read key) answer w' →
        (∀ e, answer = .error e → Q (.error e) s w') ∧
          ∀ current, answer = .ok current →
            if current = value then Q (.ok ()) s w' else Q (.error (tuningError text)) s w')
    (hfixed : knob.restorable = false → Q (.ok ()) s w) :
    wp E G (checkReadback knob key value text) Q s w := by
  unfold checkReadback
  cases hrestorable : knob.restorable with
  | false => simpa using hfixed hrestorable
  | true =>
    obtain ⟨hguard, hanswers⟩ := hread hrestorable
    simp only [if_true, wp_bind, wp_readControl]
    refine ⟨hguard, fun answer w' hanswer => ?_⟩
    obtain ⟨herror, hok⟩ := hanswers answer w' hanswer
    cases answer with
    | error e => exact herror e rfl
    | ok current =>
      have h := hok current rfl
      rw [outcome_ok]
      by_cases heq : current = value
      · simpa [heq] using h
      · simpa [heq] using h

/-- The rule of writing one baseline back in its three steps: a write is issued where the control
is ready (`R`) for it, and the readback follows where it is done (`D`). -/
theorem wp_writeBack_steps {R D : W → Prop} {Q : Except Failure Unit → Journal → W → Prop}
    (hlook : knob.restorable = true → G w s (.read key) ∧
      ∀ (answer : Except Failure Value) w', E w s (.read key) answer w' →
        (∀ e, answer = .error e → Q (.error e) s w') ∧
          ∀ current, answer = .ok current → R w' ∧ (current = value → D w'))
    (hfixed : knob.restorable = false → R w)
    (hwrite : ∀ op : Request, op.Puts key value → ∀ w, R w → G w s op ∧
      ∀ (answer : Except Failure op.Reply) w', E w s op answer w' →
        (∀ e, answer = .error e → Q (.error e) s w') ∧ ((∃ reply, answer = .ok reply) → D w'))
    (hback : ∀ w text, D w → wp E G (checkReadback knob key value text) Q s w) :
    wp E G (writeBack knob key value) Q s w := by
  have hrestore : ∀ w text, R w → wp E G
      (restoreControl knob key value >>= fun _ => checkReadback knob key value text) Q s w := by
    intro w text hready
    rw [wp_bind]
    unfold restoreControl
    cases knob.restoreValue with
    | true =>
      obtain ⟨hguard, hanswers⟩ := hwrite (.restoreValue key value) (.inr rfl) w hready
      refine (wp_request (.restoreValue key value)).mpr ⟨hguard, fun answer w' hanswer => ?_⟩
      obtain ⟨herror, hdone⟩ := hanswers answer w' hanswer
      cases answer with
      | error e => exact herror e rfl
      | ok reply => exact hback w' text (hdone ⟨reply, rfl⟩)
    | false =>
      obtain ⟨hguard, hanswers⟩ := hwrite (.write key value) (.inl rfl) w hready
      refine (wp_request (.write key value)).mpr ⟨hguard, fun answer w' hanswer => ?_⟩
      obtain ⟨herror, hdone⟩ := hanswers answer w' hanswer
      cases answer with
      | error e => exact herror e rfl
      | ok reply => exact hback w' text (hdone ⟨reply, rfl⟩)
  unfold writeBack writeNeeded
  rw [wp_bind]
  cases hrestorable : knob.restorable with
  | false =>
    simp only [Bool.false_eq_true, if_false, wp_pure, outcome_ok]
    exact hrestore w _ (hfixed hrestorable)
  | true =>
    obtain ⟨hguard, hanswers⟩ := hlook hrestorable
    simp only [if_true, wp_bind, wp_readControl]
    refine ⟨hguard, fun answer w' hanswer => ?_⟩
    obtain ⟨herror, hok⟩ := hanswers answer w' hanswer
    cases answer with
    | error e => exact herror e rfl
    | ok current =>
      obtain ⟨hready, hdone⟩ := hok current rfl
      simp only [outcome_ok, wp_pure]
      rw [wp_bind, wp_when]
      refine ⟨fun _ => (wp_bind _ _).mp (hrestore w' _ hready), fun hnot => ?_⟩
      simp only [Bool.or_eq_true, not_or, decide_eq_true_eq, not_not] at hnot
      exact hback w' _ (hdone hnot.1)

/-- The rule of writing one baseline back: it reads and writes that control only, and a control
that cannot be read has been written when it succeeds. -/
theorem wp_writeBack {I P : W → Prop} (hI : I w) (hread : ∀ w, I w → G w s (.read key) ∧
      ∀ (answer : Except Failure Value) w', E w s (.read key) answer w' → I w')
    (hwrite : ∀ op : Request, op.target = some key → ∀ w, I w → G w s op ∧
      ∀ (answer : Except Failure op.Reply) w', E w s op answer w' → I w')
    (hput : ∀ op : Request, op.Puts key value → ∀ w (reply : op.Reply) w', I w →
      E w s op (.ok reply) w' → P w') :
    wp E G (writeBack knob key value)
      (fun x s' w' => s' = s ∧ I w' ∧ (x = .ok () → knob.restorable = false → P w')) s w := by
  refine wp_writeBack_steps (R := I) (D := fun w => I w ∧ (knob.restorable = false → P w))
    (fun hrestorable => ⟨(hread w hI).1, fun answer w' hanswer => ?_⟩) (fun _ => hI)
    (fun op hputs w hI => ?_) fun w text ⟨hI, hP⟩ => ?_
  · have hI' := (hread w hI).2 answer w' hanswer
    refine ⟨fun e _ => ⟨rfl, hI', nofun⟩, fun current _ => ⟨hI', fun _ => ⟨hI', fun hfixed => ?_⟩⟩⟩
    rw [hrestorable] at hfixed
    cases hfixed
  · have htarget : op.target = some key := by rcases hputs with rfl | rfl <;> rfl
    refine ⟨(hwrite op htarget w hI).1, fun answer w' hanswer => ?_⟩
    have hI' := (hwrite op htarget w hI).2 answer w' hanswer
    refine ⟨fun e _ => ⟨rfl, hI', nofun⟩, ?_⟩
    rintro ⟨reply, rfl⟩
    exact ⟨hI', fun _ => hput op hputs w reply w' hI hanswer⟩
  · refine wp_checkReadback (fun hrestorable => ⟨(hread w hI).1, fun answer w' hanswer => ?_⟩)
      fun _ => ⟨rfl, hI, fun _ => hP⟩
    have hI' := (hread w hI).2 answer w' hanswer
    have hany : ∀ x : Except Failure Unit,
        s = s ∧ I w' ∧ (x = .ok () → knob.restorable = false → P w') :=
      fun _ => ⟨rfl, hI', fun _ h => absurd hrestorable (by simp [h])⟩
    exact ⟨fun _ _ => hany _, fun current _ => by split <;> exact hany _⟩

/-- The rule of the restoring loop at one control. -/
theorem wp_restoreOne {I P : W → Prop} {st : Restoration} (hI : I w)
    (hread : ∀ w, I w → G w s (.read key) ∧
      ∀ (answer : Except Failure Value) w', E w s (.read key) answer w' → I w')
    (hwrite : ∀ op : Request, op.target = some key → ∀ w, I w → G w s op ∧
      ∀ (answer : Except Failure op.Reply) w', E w s op answer w' → I w')
    (hput : ∀ op : Request, op.Puts key value → ∀ w (reply : op.Reply) w', I w →
      E w s op (.ok reply) w' → P w') :
    wp E G (restoreOne inventory st key value)
      (fun x s' w' => s' = s ∧ I w' ∧ ∀ st', x = .ok st' → st.Visits st' key ∧
        (st'.complete = st.complete ∨ (inventory.restorable key = false → P w'))) s w := by
  unfold restoreOne
  cases hget : inventory.get? key with
  | none => exact ⟨rfl, hI, by simp⟩
  | some knob =>
    dsimp only
    split
    · refine ⟨rfl, hI, ?_⟩
      rintro _ ⟨⟩
      exact ⟨st.visits_retain _ _, .inl rfl⟩
    · split
      · refine ⟨rfl, hI, ?_⟩
        rintro _ ⟨⟩
        exact ⟨st.visits_retain _ _, .inl rfl⟩
      · simp only [wp_handleIf, wp_bind]
        refine wp_mono (wp_writeBack hI hread hwrite hput) ?_
        rintro (e | _) s' w' ⟨rfl, hI', hP⟩
        · simp only [outcome_error]
          by_cases hcaught : e.isCaught = true
          · rw [if_pos hcaught]
            refine ⟨rfl, hI', ?_⟩
            intro st' hst
            have hvisits := st.visits_retain key e.text
            split at hst <;>
              (cases hst
               exact ⟨⟨hvisits.kept, hvisits.added, hvisits.recorded, hvisits.nodup⟩, .inl rfl⟩)
          · rw [if_neg hcaught]
            exact ⟨trivial, hI', by simp⟩
        · refine ⟨rfl, hI', ?_⟩
          rintro _ ⟨⟩
          refine ⟨⟨fun k hk => mem_insert_of_mem hk, fun k hk => ?_, fun h => ⟨h, ?_⟩,
            fun h => h.insert⟩, .inr fun hfixed => hP rfl ?_⟩
          · exact (mem_insert_iff.mp hk).symm
          · exact mem_insert_self
          · rwa [Inventory.restorable_of_get? hget] at hfixed

/-- The final verification so far: of `seen`, the controls that are still completed were found at
their baselines (`verified`). -/
structure Restoration.Verifies (st st' : Restoration) (seen verified : List String) : Prop where
  /-- Nothing is newly completed. -/
  sub : st'.complete ⊆ st.complete
  /-- A control that stays completed has been verified. -/
  checked : ∀ key ∈ seen, key ∈ st'.complete → key ∈ verified
  /-- Only what was looked at has been verified. -/
  verified : verified ⊆ seen
  /-- Only the controls that were looked at can be lost. -/
  kept : ∀ key ∈ st.complete, key ∉ seen → key ∈ st'.complete
  /-- Losing one is recorded as a failure. -/
  recorded : st'.failures = [] → st.failures = [] ∧ st.complete ⊆ st'.complete

/-- The rule of the final verification. `P` holds of the restored controls that cannot be read. -/
theorem wp_verifyAll {I : List String → W → Prop} {P : String → W → Prop} {journal : Journal}
    {st : Restoration} {keys : List String} {Q : Except Failure Restoration → Journal → W → Prop}
    (hnodup : keys.Nodup) (hI : I [] w)
    (hput : ∀ key ∈ keys, inventory.restorable key = false → P key w)
    (hstay : ∀ key op w (answer : Except Failure (Request.Reply op)) w', E w s op answer w' →
      P key w → P key w')
    (hread : ∀ key verified w, key ∉ verified → I verified w → G w s (.read key) ∧
      ∀ (answer : Except Failure Value) w', E w s (.read key) answer w' → I verified w' ∧
        (inventory.restorable key = true → ∀ entry, journal.entry? key = some entry →
          answer = .ok entry.before → I (key :: verified) w'))
    (hconst : ∀ key verified w, inventory.restorable key = false → P key w → I verified w →
      I (key :: verified) w)
    (herror : ∀ e verified w, I verified w → Q (.error e) s w)
    (hok : ∀ st' verified w, I verified w → st.Verifies st' keys verified → Q (.ok st') s w) :
    wp E G (Act.fold (verifyOne inventory journal) st keys) Q s w := by
  refine wp_fold (fun rest st' s' w' => s' = s ∧
    (∀ key ∈ keys, inventory.restorable key = false → P key w') ∧
    ∃ seen verified, keys = seen ++ rest ∧ I verified w' ∧ st.Verifies st' seen verified) ?_ ?_ ?_
  · refine ⟨rfl, hput, [], [], rfl, hI, ?_⟩
    constructor <;> simp
  · rintro key rest st' s' w' ⟨rfl, hput, seen, verified, rfl, hI, hver⟩
    have hkey : key ∉ verified := by
      rw [nodup_append] at hnodup
      exact fun hmem => hnodup.2.2 key (hver.verified hmem) key mem_cons_self rfl
    have hsplit : seen ++ key :: rest = (seen ++ [key]) ++ rest := by simp
    -- The control stays completed, verified or without anything to read.
    have hpass : ∀ w, I (key :: verified) w → ∃ seen' verified',
        seen ++ key :: rest = seen' ++ rest ∧ I verified' w ∧ st.Verifies st' seen' verified' := by
      intro w hI
      refine ⟨seen ++ [key], key :: verified, hsplit, hI, hver.sub, ?_, ?_, ?_, hver.recorded⟩
      · intro k hk hcomplete
        rcases mem_append.mp hk with hk | hk
        · exact mem_cons_of_mem _ (hver.checked k hk hcomplete)
        · simp [mem_singleton.mp hk]
      · intro k hk
        rcases mem_cons.mp hk with rfl | hk
        · simp
        · exact mem_append_left _ (hver.verified hk)
      · intro k hk hnot
        exact hver.kept k hk fun hseen => hnot (mem_append_left _ hseen)
    -- The control is no longer completed, and the reason is recorded.
    have hlose : ∀ w reason, I verified w → ∃ seen' verified',
        seen ++ key :: rest = seen' ++ rest ∧ I verified' w ∧
          st.Verifies { st' with complete := st'.complete.filter (· ≠ key)
                                 failures := st'.failures ++ [reason] } seen' verified' := by
      intro w reason hI
      refine ⟨seen ++ [key], verified, hsplit, hI, ?_, ?_,
        fun k hk => mem_append_left _ (hver.verified hk), ?_, by simp⟩
      · intro k hk
        exact hver.sub (mem_of_mem_filter hk)
      · intro k hk hcomplete
        obtain ⟨hcomplete, hne⟩ := mem_filter.mp hcomplete
        rcases mem_append.mp hk with hk | hk
        · exact hver.checked k hk hcomplete
        · simp [mem_singleton.mp hk] at hne
      · intro k hk hnot
        simp only [mem_append, mem_singleton, not_or] at hnot
        exact mem_filter.mpr ⟨hver.kept k hk hnot.1, by simp [hnot.2]⟩
    unfold verifyOne
    cases hget : inventory.get? key with
    | none => exact herror _ verified w' hI
    | some knob =>
      cases hentry : journal.entry? key with
      | none => exact herror _ verified w' hI
      | some entry =>
        simp only [wp_handleIf, wp_bind]
        have hcaught : ∀ (e : Failure) w, I verified w →
            (∀ k ∈ seen ++ key :: rest, inventory.restorable k = false → P k w) →
            (if e.isCaught then wp E G (pure
              { st' with complete := st'.complete.filter (· ≠ key)
                         failures := st'.failures ++ [key ++ ": " ++ e.text] })
              (outcome (fun b' s'' w'' => s'' = s' ∧
                (∀ k ∈ seen ++ key :: rest, inventory.restorable k = false → P k w'') ∧
                ∃ seen' verified', seen ++ key :: rest = seen' ++ rest ∧ I verified' w'' ∧
                  st.Verifies b' seen' verified') fun e => Q (.error e)) s' w
            else Q (.error e) s' w) := by
          intro e w hI hput
          by_cases hc : e.isCaught = true
          · rw [if_pos hc, wp_pure, outcome_ok]
            exact ⟨rfl, hput, hlose w _ hI⟩
          · rw [if_neg hc]
            exact herror e verified w hI
        refine wp_checkReadback (fun hreadable => ?_) fun hfixed => ?_
        · obtain ⟨hguard, hanswers⟩ := hread key verified w' hkey hI
          refine ⟨hguard, fun answer w'' hanswer => ?_⟩
          obtain ⟨hI', hbefore⟩ := hanswers answer w'' hanswer
          have hput' : ∀ k ∈ seen ++ key :: rest, inventory.restorable k = false → P k w'' :=
            fun k hk hfixed => hstay k (.read key) w' answer w'' hanswer (hput k hk hfixed)
          refine ⟨fun e _ => hcaught e w'' hI' hput', ?_⟩
          rintro current rfl
          by_cases heq : current = entry.before
          · rw [if_pos heq]
            have hreadable' : inventory.restorable key = true := by
              rw [Inventory.restorable_of_get? hget]
              exact hreadable
            exact ⟨rfl, hput', hpass w'' (hbefore hreadable' entry hentry (by rw [heq]))⟩
          · rw [if_neg heq]
            exact hcaught (tuningError "final restoration readback differs from original value")
              w'' hI' hput'
        · have hfixed' : inventory.restorable key = false := by
            rw [Inventory.restorable_of_get? hget]
            exact hfixed
          exact ⟨rfl, hput, hpass w' (hconst key verified w' hfixed'
            (hput key (by simp) hfixed') hI)⟩
  · rintro st' s' w' ⟨rfl, -, seen, verified, hkeys, hI, hver⟩
    rw [append_nil] at hkeys
    exact hok st' verified w' hI (hkeys ▸ hver)

/-- The books of a reset that has reached its final save. -/
structure ResetOutcome.Books (inventory : Inventory) (journal : Journal) (scan : Scan)
    (done : ResetOutcome) : Prop where
  /-- The yielded controls are those of the first pass and their domains. -/
  yielded : done.yielded = (yieldDomains inventory journal scan).yielded
  /-- A dropped control was yielded or was to be restored. -/
  dropped : ∀ key ∈ done.complete, key ∈ (yieldDomains inventory journal scan).yielded ∨
    key ∈ (yieldDomains inventory journal scan).restore.map Prod.fst
  /-- A yielded control that is not restored is dropped. -/
  yields : ∀ key ∈ (yieldDomains inventory journal scan).yielded,
    key ∉ (yieldDomains inventory journal scan).restore.map Prod.fst → key ∈ done.complete
  /-- Without a failure everything is dropped that the first pass has sorted. -/
  clean : done.failures = [] → scan.failures = [] ∧
    ∀ key, key ∈ (yieldDomains inventory journal scan).restore.map Prod.fst ∨
      key ∈ (yieldDomains inventory journal scan).yielded → key ∈ done.complete

/-- Nothing is retained without a failed control. -/
theorem retainedKeys_nil (journal : Journal) (restore : List String) :
    retainedKeys inventory journal restore [] = [] := by
  simp [retainedKeys]

/-- Only controls to restore are retained. -/
theorem retainedKeys_subset {journal : Journal} {restore failed : List String}
    (h : failed ⊆ restore) : retainedKeys inventory journal restore failed ⊆ restore := by
  intro key hkey
  rcases mem_append.mp hkey with hkey | hkey
  · exact h hkey
  · exact mem_of_mem_filter hkey

/-- The rule of the second half of a reset. `I` holds while baselines are written back, with
nothing verified, and then during the final verification, with a growing list of controls found
at their baselines. `P` holds of a control once its baseline has been put back; it stands in for
the reading of a control that cannot be read. -/
theorem wp_restoreScanned {I : List String → W → Prop} (P : String → W → Prop)
    {journal : Journal} {scan : Scan}
    {Q : Except Failure ResetOutcome → Journal → W → Prop}
    {restore : List (String × Value)} {keys : List String} {held : Journal}
    (hrestore : (yieldDomains inventory journal scan).restore = restore)
    (hkeys : restore.map Prod.fst = keys) (hheld : journal.update keys Entry.markPending = held)
    (hnodup : keys.Nodup) (hknown : ∀ key ∈ keys, (inventory.get? key).isSome)
    (hnone : restore = [] → I [] w)
    (hintent : restore ≠ [] → G w held (.save held) ∧
      ∀ (answer : Except Failure Unit) w', E w held (.save held) answer w' →
        (∀ e, answer = .error e → Q (.error e) held w') ∧ (answer = .ok () → I [] w'))
    (hput : ∀ kv ∈ restore, ∀ op : Request, op.Puts kv.1 kv.2 → ∀ w (reply : op.Reply) w', I [] w →
      E w held op (.ok reply) w' → P kv.1 w')
    (hstay : ∀ key op w (answer : Except Failure (Request.Reply op)) w', E w held op answer w' →
      P key w → P key w')
    (hread : ∀ key verified w, key ∉ verified → I verified w → G w held (.read key) ∧
      ∀ (answer : Except Failure Value) w', E w held (.read key) answer w' → I verified w' ∧
        (inventory.restorable key = true → ∀ entry, journal.entry? key = some entry →
          answer = .ok entry.before → I (key :: verified) w'))
    (hconst : ∀ key verified w, inventory.restorable key = false → P key w → I verified w →
      I (key :: verified) w)
    (hwrite : ∀ key ∈ keys, ∀ op : Request, op.target = some key → ∀ w, I [] w → G w held op ∧
      ∀ (answer : Except Failure op.Reply) w', E w held op answer w' → I [] w')
    (herror : ∀ e verified w, I verified w → Q (.error e) held w)
    (hfinal : ∀ done verified w, I verified w → done.Books inventory journal scan →
      (∀ key ∈ done.complete, key ∈ (yieldDomains inventory journal scan).yielded ∨
        key ∈ verified) →
      G w (held.without done.complete) (.save (held.without done.complete)) ∧
        ∀ (answer : Except Failure Unit) w',
          E w (held.without done.complete) (.save (held.without done.complete)) answer w' →
            (∀ e, answer = .error e → Q (.error e) (held.without done.complete) w') ∧
              (answer = .ok () → Q (.ok done) (held.without done.complete) w')) :
    wp E G (restoreScanned inventory journal scan) Q journal w := by
  have hyielded : (yieldDomains inventory journal scan).failures = scan.failures := rfl
  generalize hy : yieldDomains inventory journal scan = y at *
  obtain ⟨restore', yielded, failures⟩ := y
  subst hrestore
  dsimp only at *
  -- The trimmed journal is saved, once everything is verified.
  have htrim : ∀ (st st' : Restoration) verified w, I verified w →
      (∀ key ∈ yielded, key ∈ st.complete) →
      (∀ key ∈ st.complete, key ∈ yielded ∨ key ∈ keys) →
      (st.failures = [] → failures = [] ∧ ∀ key ∈ keys, key ∈ st.complete) →
      st.Verifies st' (sortedKeys (st.complete.filter fun key => key ∉ yielded)) verified →
      wp E G (do
        let failed := keys.filter fun key => key ∉ st'.complete
        let retained := retainedKeys inventory journal keys failed
        let complete := st'.complete.filter fun key => key ∉ retained
        Act.modify (·.without complete)
        let j ← Act.get
        saveJournal j
        pure (⟨complete, yielded, st'.failures⟩ : ResetOutcome)) Q held w := by
    intro st st' verified w hI hcomplete hwithin hclean hver
    have hretained : retainedKeys inventory journal keys
        (keys.filter fun key => key ∉ st'.complete) ⊆ keys :=
      retainedKeys_subset (filter_subset_self _)
    simp only [wp_bind, wp_modify, outcome_ok, wp_get, wp_saveJournal]
    set failed := keys.filter fun key => key ∉ st'.complete with hfailed
    set retained := retainedKeys inventory journal keys failed with hret
    set complete := st'.complete.filter fun key => key ∉ retained with hcomp
    have hkept : ∀ key ∈ yielded, key ∈ st'.complete := by
      intro key hkey
      refine hver.kept key (hcomplete key hkey) fun hmem => ?_
      have := (mem_filter.mp (mem_sortedKeys.mp hmem)).2
      simp [hkey] at this
    have hbooks : ResetOutcome.Books inventory journal scan ⟨complete, yielded, st'.failures⟩ := by
      refine ⟨by rw [hy], ?_, ?_, ?_⟩
      · rw [hy]
        intro key hkey
        rw [hkeys]
        exact hwithin key (hver.sub (mem_of_mem_filter hkey))
      · rw [hy]
        intro key hkey hnot
        rw [hkeys] at hnot
        refine mem_filter.mpr ⟨hkept key hkey, ?_⟩
        simpa using fun hmem => hnot (hretained hmem)
      · rw [hy]
        intro hfailures
        obtain ⟨hst, hsub⟩ := hver.recorded hfailures
        obtain ⟨hscan, hall⟩ := hclean hst
        have hnil : failed = [] := by
          rw [hfailed, filter_eq_nil_iff]
          intro key hkey
          simpa using hsub (hall key hkey)
        have hretnil : retained = [] := by rw [hret, hnil, retainedKeys_nil]
        refine ⟨hyielded ▸ hscan, fun key hkey => mem_filter.mpr ⟨?_, by simp [hretnil]⟩⟩
        rw [hkeys] at hkey
        rcases hkey with hkey | hkey
        · exact hsub (hall key hkey)
        · exact hkept key hkey
    have hverified : ∀ key ∈ complete, key ∈ yielded ∨ key ∈ verified := by
      intro key hkey
      have hst' := mem_of_mem_filter hkey
      by_cases hy' : key ∈ yielded
      · exact .inl hy'
      · refine .inr (hver.checked key (mem_sortedKeys.mpr (mem_filter.mpr ?_)) hst')
        exact ⟨hver.sub hst', by simpa using hy'⟩
    obtain ⟨hguard, hanswers⟩ := hfinal _ verified w hI hbooks hverified
    refine ⟨hguard, fun answer w' hanswer => ?_⟩
    obtain ⟨hfail, hdone⟩ := hanswers answer w' hanswer
    cases answer with
    | error e => exact hfail e rfl
    | ok _ => exact hdone rfl
  -- The loops, once the intent is saved.
  have hloops : ∀ unresolved platformFailed w, I [] w →
      wp E G (do
        let st ← ordered inventory restore' ⟨yielded.dedup, unresolved, failures, platformFailed⟩
          (restoreOne inventory)
        let st ← Act.fold (verifyOne inventory journal) st
          (sortedKeys (st.complete.filter fun key => key ∉ yielded))
        let failed := keys.filter fun key => key ∉ st.complete
        let retained := retainedKeys inventory journal keys failed
        let complete := st.complete.filter fun key => key ∉ retained
        Act.modify (·.without complete)
        let j ← Act.get
        saveJournal j
        pure (⟨complete, yielded, st.failures⟩ : ResetOutcome)) Q held w := by
    intro unresolved platformFailed w hI
    rw [wp_bind]
    refine wp_ordered (by rwa [hkeys]) (by rwa [hkeys]) (fun visited st s' w' => s' = held ∧ I [] w' ∧
      (∀ key ∈ st.complete, key ∉ yielded → inventory.restorable key = false → P key w') ∧
      st.complete.Nodup ∧
      (∀ key ∈ yielded, key ∈ st.complete) ∧ (∀ key ∈ st.complete, key ∈ yielded ∨ key ∈ keys) ∧
      (st.failures = [] → failures = [] ∧ ∀ key ∈ visited, key ∈ st.complete)) ?_ ?_ ?_ ?_
    · refine ⟨rfl, hI, fun key hkey hnot => ?_, nodup_dedup _, by simp,
        fun key hkey => .inl (mem_dedup.mp hkey), by simp⟩
      exact absurd (mem_dedup.mp hkey) hnot
    · rintro visited st s' w' lo hi low ⟨rfl, hI, hP, hbooks⟩ - -
      obtain ⟨hguard, hanswers⟩ := hread hi [] w' (by simp) hI
      refine ⟨hguard, fun answer w'' hanswer => ?_⟩
      obtain ⟨hI', -⟩ := hanswers answer w'' hanswer
      refine ⟨fun e _ => herror e [] w'' hI', fun _ => ⟨rfl, hI', ?_, hbooks⟩⟩
      exact fun key hkey hnot hfixed => hstay key (.read hi) w' answer w'' hanswer (hP key hkey hnot hfixed)
    · rintro visited st s' w' key value ⟨rfl, hI, hP, hunique, hyields, hwithin, hclean⟩ - hvalue
      have hkv := mem_of_lookup hvalue
      have hmem : key ∈ keys := hkeys ▸ mem_map_of_mem hkv
      -- While this control is restored, the other ones stay put back.
      refine wp_mono (wp_restoreOne
        (I := fun w => I [] w ∧
          ∀ k ∈ st.complete, k ∉ yielded → inventory.restorable k = false → P k w) ⟨hI, hP⟩
        (fun w hI => ⟨(hread key [] w (by simp) hI.1).1, fun answer w' h =>
          ⟨((hread key [] w (by simp) hI.1).2 answer w' h).1,
            fun k hk hnot hfixed => hstay k (.read key) w answer w' h (hI.2 k hk hnot hfixed)⟩⟩)
        (fun op htarget w hI => ⟨(hwrite key hmem op htarget w hI.1).1, fun answer w' h =>
          ⟨(hwrite key hmem op htarget w hI.1).2 answer w' h,
            fun k hk hnot hfixed => hstay k op w answer w' h (hI.2 k hk hnot hfixed)⟩⟩)
        (fun op hputs w reply w' hI h => hput (key, value) hkv op hputs w reply w' hI.1 h)) ?_
      rintro (e | st') s'' w'' ⟨rfl, ⟨hI', hP'⟩, hvisits⟩
      · exact herror e [] w'' hI'
      · obtain ⟨hv, hnew⟩ := hvisits st' rfl
        refine ⟨rfl, hI', fun k hk hnot hfixed => ?_, hv.nodup hunique,
          fun k hk => hv.kept (hyields k hk), fun k hk => ?_, fun hf => ?_⟩
        · rcases hnew with hsame | hnew
          · exact hP' k (hsame ▸ hk) hnot hfixed
          · rcases hv.added k hk with hk | rfl
            · exact hP' k hk hnot hfixed
            · exact hnew hfixed
        · rcases hv.added k hk with hk | rfl
          · exact hwithin k hk
          · exact .inr hmem
        · obtain ⟨hst, hcur⟩ := hv.recorded hf
          obtain ⟨hscan, hall⟩ := hclean hst
          refine ⟨hscan, fun k hk => ?_⟩
          rcases mem_append.mp hk with hk | hk
          · exact hv.kept (hall k hk)
          · rw [mem_singleton.mp hk]
            exact hcur
    · rintro visited st s' w' hcover ⟨rfl, hI, hP, hunique, hyields, hwithin, hclean⟩
      rw [hkeys] at hcover
      rw [outcome_ok, wp_bind]
      refine wp_verifyAll (I := I) (nodup_sortedKeys _) hI (fun key hkey hfixed => ?_) hstay hread
        hconst (fun e verified w hI => herror e verified w hI) ?_
      · obtain ⟨hmem, hnot⟩ := mem_filter.mp (mem_sortedKeys.mp hkey)
        exact hP key hmem (by simpa using hnot) hfixed
      intro st' verified w hI hver
      exact htrim st st' verified w hI hyields hwithin
        (fun hf => ⟨(hclean hf).1,
          fun key hkey => (hclean hf).2 key (hcover.mem_iff.mpr hkey)⟩) hver
  unfold restoreScanned
  rw [hy]
  dsimp only
  simp only [hkeys, hheld]
  rw [wp_bind, wp_modify, outcome_ok, hheld, wp_bind, wp_when]
  refine ⟨fun hne => ?_, fun hnil => hloops _ _ w (hnone (by simpa using hnil))⟩
  rw [wp_saveJournal]
  obtain ⟨hguard, hanswers⟩ := hintent hne
  refine ⟨hguard, fun answer w' hanswer => ?_⟩
  obtain ⟨hfail, hdone⟩ := hanswers answer w' hanswer
  cases answer with
  | error e => exact hfail e rfl
  | ok _ => exact hloops _ _ w' (hdone rfl)

/-- Looking up an entry by its identifier succeeds. -/
theorem Journal.exists_entry? {journal : Journal} (h : key ∈ journal.ids) :
    ∃ entry, journal.entry? key = some entry := by
  obtain ⟨e, he, rfl⟩ := mem_map.mp h
  rw [← Option.isSome_iff_exists, Journal.entry?, find?_isSome]
  exact ⟨e, he, by simp⟩

/-- Nothing is left when everything is dropped. -/
theorem Journal.without_eq_nil {journal : Journal} {complete : List String}
    (h : ∀ key ∈ journal.ids, key ∈ complete) : (journal.without complete).entries = [] := by
  refine filter_eq_nil_iff.mpr fun e he => ?_
  simpa using h e.id (mem_map_of_mem he)

/-- Without a failure every entry has been dropped. -/
theorem ResetOutcome.Books.all {journal : Journal} {scan : Scan}
    {done : ResetOutcome} {answers : Entry → Except Failure Value → Prop}
    (h : done.Books inventory journal scan) (hsorts : scan.Sorts inventory answers journal.entries)
    (hclean : done.failures = []) : ∀ e ∈ journal.entries, e.id ∈ done.complete := by
  intro e he
  obtain ⟨hscan, hall⟩ := h.clean hclean
  have hsorted : e.id ∈ scan.restore.map Prod.fst ∨ e.id ∈ scan.yielded := by
    rcases hsorts.covered e he with h | h | h
    · exact .inl h
    · exact .inr h
    · exact absurd hscan h
  exact hall e.id (mem_yieldDomains hsorted)

/-- A reset that succeeds has emptied its journal, whatever the hardware answered. -/
theorem wp_reset_empties (hnodup : s.ids.Nodup) :
    wp E unguarded (reset inventory)
      (fun x s' _ => ∀ report, x = .ok report → s'.entries = []) s w := by
  unfold reset resetCore
  simp only [wp_bind, wp_get, outcome_ok]
  have hscan : wp E unguarded (Act.fold (scanOne inventory) ⟨[], [], []⟩ s.entries)
      _ s w := wp_scan (fun _ => True) (fun _ _ => True) trivial
    fun e _ w _ => ⟨trivial, fun _ _ _ => ⟨trivial, trivial⟩⟩
  refine wp_mono hscan ?_
  rintro (err | scan) s' w' ⟨rfl, -, hsorts, -⟩
  · simp
  · have hsorts := hsorts scan rfl
    have horder : ((yieldDomains inventory s' scan).restore.map Prod.fst).Sublist s'.ids :=
      order_yieldDomains hsorts.order
    refine wp_restoreScanned (I := fun _ _ => True) (fun _ _ => True) rfl rfl rfl
      (horder.nodup hnodup) ?_
      (fun _ => trivial) (fun _ => ⟨trivial, fun _ _ _ => ⟨by simp, fun _ => trivial⟩⟩)
      (fun _ _ _ _ _ _ _ _ _ => trivial) (fun _ _ _ _ _ _ _ => trivial)
      (fun _ _ _ _ _ => ⟨trivial, fun _ _ _ => ⟨trivial, fun _ _ _ _ => trivial⟩⟩)
      (fun _ _ _ _ _ _ => trivial)
      (fun _ _ _ _ _ _ => ⟨trivial, fun _ _ _ => trivial⟩) (by simp) ?_
    · intro key hkey
      obtain ⟨kv, hkv, rfl⟩ := mem_map.mp hkey
      obtain ⟨e, -, hid, -, hknown⟩ := hsorts.restore kv (restore_yieldDomains_subset hkv)
      rwa [← hid]
    · rintro done verified w'' - hbooks -
      refine ⟨trivial, fun answer w3 _ => ⟨by simp, fun _ => ?_⟩⟩
      simp only [outcome_ok]
      by_cases hclean : done.failures = []
      · rw [if_pos hclean, wp_pure]
        intro _ _
        refine Journal.without_eq_nil fun key hkey => ?_
        rw [Journal.update_ids s' _ Entry.markPending fun _ => rfl] at hkey
        obtain ⟨e, he, rfl⟩ := mem_map.mp hkey
        exact hbooks.all hsorts hclean e he
      · rw [if_neg hclean]
        simp

end Rules

end Preseed.HardwareTuning
