import Preseed.HardwareTuning.ResetOnLog

/-!
# Writing the two ends of a range

Controls with values, and a log: a read answers the value, a write of one end of a
min/max pair leaves the other end alone, and a write of anything else leaves the pair
in order. A loop over `Engine.ordered` writes every pair in order as long as what it
leaves alone fits what it writes.
-/

namespace Preseed.HardwareTuning

open Effects

/-- The lower value does not exceed the upper one. -/
def InOrder (low high : Value) : Prop := low.gt high = .ok false

instance (low high : Value) : Decidable (InOrder low high) :=
  inferInstanceAs (Decidable (low.gt high = .ok false))

/-- A lower value in order with a value below another one is in order with what is above that. -/
theorem InOrder.between {a b a' b' : Value} (hab : InOrder a b) (hgt : a'.gt b = .ok true)
    (hab' : InOrder a' b') : InOrder a b' := by
  unfold InOrder at *
  cases a with
  | int a =>
    cases b <;> simp only [Value.gt, reduceCtorEq, Except.ok.injEq, decide_eq_false_iff_not] at hab
    cases a' <;> simp only [Value.gt, reduceCtorEq, Except.ok.injEq, decide_eq_true_eq] at hgt
    cases b' <;>
      simp only [Value.gt, reduceCtorEq, Except.ok.injEq, decide_eq_false_iff_not] at hab'
    simp only [Value.gt, Except.ok.injEq, decide_eq_false_iff_not]
    omega
  | text a =>
    cases b <;> simp only [Value.gt, reduceCtorEq, Except.ok.injEq, decide_eq_false_iff_not] at hab
    cases a' <;> simp only [Value.gt, reduceCtorEq, Except.ok.injEq, decide_eq_true_eq] at hgt
    cases b' <;>
      simp only [Value.gt, reduceCtorEq, Except.ok.injEq, decide_eq_false_iff_not] at hab'
    simp only [Value.gt, Except.ok.injEq, decide_eq_false_iff_not]
    rw [String.not_lt] at hab hab' ⊢
    rename_i b a' b'
    have hle : b ≤ a' := (String.le_total b a').resolve_right fun h => String.not_lt.mpr h hgt
    exact String.le_trans hab (String.le_trans hle hab')
  | range a₁ a₂ =>
    cases b <;> simp only [Value.gt, reduceCtorEq, Except.ok.injEq, decide_eq_false_iff_not] at hab
    cases a' <;> simp only [Value.gt, reduceCtorEq, Except.ok.injEq, decide_eq_true_eq] at hgt
    cases b' <;>
      simp only [Value.gt, reduceCtorEq, Except.ok.injEq, decide_eq_false_iff_not] at hab'
    simp only [Value.gt, Except.ok.injEq, decide_eq_false_iff_not]
    omega

/-- Controls with values, and the trace of what is done to them. -/
structure Bench where
  /-- The values. -/
  hw : String → Value
  /-- The journal file, and what has happened. -/
  trace : Trace

/-- The two controls are the two ends of one pair. -/
def Inventory.Partners (inventory : Inventory) (key other : String) : Prop :=
  inventory.PairEnds key other ∨ inventory.PairEnds other key

/-- A pair of the inventory is in order. -/
def Inventory.OrderedPair (inventory : Inventory) (hw : String → Value) (lo hi : String) : Prop :=
  inventory.PairEnds lo hi → InOrder (hw lo) (hw hi)

/-- A write of one control turns the values `hw` into `hw'`: its partner keeps its value, and the
pairs it does not belong to stay in order. -/
structure Stirs (inventory : Inventory) (key : String) (hw hw' : String → Value) : Prop where
  /-- The partner keeps its value. -/
  partner : ∀ other, inventory.Partners key other → hw' other = hw other
  /-- Other pairs stay in order. -/
  order : ∀ lo hi, lo ≠ key → hi ≠ key → inventory.OrderedPair hw lo hi →
    inventory.OrderedPair hw' lo hi

/-- The controls as an environment of the engine. Every operation may fail; a read that does not
answers the value, and a write puts some value into its control, whether it fails or not. -/
def bench (inventory : Inventory) : Environment Hardware Journal Bench := fun b mem op answer b' =>
  observed b.trace mem op answer b'.trace ∧ match op with
    | .read key => b'.hw = b.hw ∧ ∀ value, answer = .ok value → value = b.hw key
    | .write key _ | .writeMaximum key | .restoreValue key _ => Stirs inventory key b.hw b'.hw
    | .save _ | .temperature | .checkOwnership _ => b'.hw = b.hw

/-- A write leaves the pair of its control in order. -/
def LeavesInOrder (inventory : Inventory) (b : Bench) (op : Request) : Prop :=
  ∀ lo hi, inventory.PairEnds lo hi → (∀ value, op.Puts lo value → InOrder value (b.hw hi)) ∧
    ∀ value, op.Puts hi value → InOrder (b.hw lo) value

/-- Nothing has been written since, and the log has grown. -/
def Bench.Later (b b' : Bench) : Prop :=
  b'.hw = b.hw ∧ ∃ more, b'.trace.log = b.trace.log ++ more

/-- What a finished visit of one control has done. -/
structure Visit (inventory : Inventory) (key : String) (value : Value) (b b' : Bench) : Prop where
  /-- The other controls. -/
  stirs : Stirs inventory key b.hw b'.hw
  /-- The log has grown. -/
  grown : ∃ more, b'.trace.log = b.trace.log ++ more
  /-- The control has the value, or there was trouble with it. -/
  put : b'.hw key = value ∨ ¬Untroubled b'.trace.log key

section

variable {inventory : Inventory} {key : String} {value : Value} {b b' : Bench}
  {hw hw' : String → Value}

theorem Stirs.refl (inventory : Inventory) (key : String) (hw : String → Value) :
    Stirs inventory key hw hw := ⟨fun _ _ => rfl, fun _ _ _ _ h => h⟩

/-- Trouble does not go away. -/
theorem Untroubled.of_append {log more : List Exchange} (h : Untroubled (log ++ more) key) :
    Untroubled log key :=
  ⟨fun x hx => h.1 x (List.mem_append_left _ hx), fun answer hanswer =>
    h.2 answer (by rw [readings_append]; exact List.mem_append_left _ hanswer)⟩

/-- A failed reading is trouble. -/
theorem not_untroubled_read {log : List Exchange} {err : Failure} {answer : Except Failure Value}
    (h : answer = .error err) : ¬Untroubled (log ++ [⟨.read key, answer⟩]) key := by
  intro hquiet
  obtain ⟨value, hvalue⟩ := hquiet.2 answer (by rw [readings_append, readings_read]; simp)
  rw [h] at hvalue
  cases hvalue

/-- A write is trouble. -/
theorem not_untroubled_written {log : List Exchange} {op : Request} (h : op.target = some key)
    (answer : Except Failure op.Reply) : ¬Untroubled (log ++ [⟨op, answer⟩]) key :=
  fun hquiet => hquiet.1 ⟨op, answer⟩ (by simp) h

/-- A write leaves the pair in order, if the other end is in order with it. -/
theorem leavesInOrder_of_puts {op : Request} (hputs : op.Puts key value)
    (hlow : ∀ other, inventory.PairEnds key other → InOrder value (b.hw other))
    (hhigh : ∀ other, inventory.PairEnds other key → InOrder (b.hw other) value) :
    LeavesInOrder inventory b op := by
  intro lo hi hends
  constructor
  · intro v hv
    have hsame : lo = key ∧ v = value := by
      rcases hputs with rfl | rfl <;> rcases hv with hv | hv <;> cases hv <;> exact ⟨rfl, rfl⟩
    rw [hsame.2]
    exact hlow hi (hsame.1 ▸ hends)
  · intro v hv
    have hsame : hi = key ∧ v = value := by
      rcases hputs with rfl | rfl <;> rcases hv with hv | hv <;> cases hv <;> exact ⟨rfl, rfl⟩
    rw [hsame.2]
    exact hhigh lo (hsame.1 ▸ hends)

/-- The members of a pair are in the inventory. -/
theorem Inventory.Partners.known {other : String} (h : inventory.Partners key other) :
    (inventory.get? other).isSome := by
  rcases h with ⟨_, _, _, hget, -⟩ | ⟨_, _, hget, -, -⟩ <;> simp [hget]

theorem Bench.Later.refl (b : Bench) : b.Later b := ⟨rfl, [], by simp⟩

theorem Bench.Later.trans {b'' : Bench} (h : b.Later b') (h' : b'.Later b'') : b.Later b'' := by
  obtain ⟨hhw, more, hmore⟩ := h
  obtain ⟨hhw', more', hmore'⟩ := h'
  exact ⟨hhw'.trans hhw, more ++ more', by rw [hmore', hmore, List.append_assoc]⟩

/-- What a visit has done stays done while nothing is written. -/
theorem Visit.later {b'' : Bench} (h : Visit inventory key value b b') (hlater : b'.Later b'') :
    Visit inventory key value b b'' := by
  obtain ⟨hhw, more', hmore'⟩ := hlater
  obtain ⟨more, hmore⟩ := h.grown
  refine ⟨hhw ▸ h.stirs, ⟨more ++ more', by rw [hmore', hmore, List.append_assoc]⟩, ?_⟩
  rcases h.put with hput | htrouble
  · exact .inl (hhw ▸ hput)
  · exact .inr fun hquiet => htrouble (Untroubled.of_append (hmore' ▸ hquiet))

/-- Nothing needs to have been written before a visit. -/
theorem Visit.before {b'' : Bench} (hlater : b.Later b') (h : Visit inventory key value b' b'') :
    Visit inventory key value b b'' := by
  obtain ⟨hhw, more, hmore⟩ := hlater
  obtain ⟨more', hmore'⟩ := h.grown
  exact ⟨hhw ▸ h.stirs, ⟨more ++ more', by rw [hmore', hmore, List.append_assoc]⟩, h.put⟩

end

/-- Controls that take every value, without faults. -/
def Bench.respond (b : Bench) (_ : Journal) (op : Request) : Except Failure op.Reply × Bench :=
  let answer := op.answer fun key => .ok (b.hw key)
  let hw := match op with
    | .write key value | .restoreValue key value => Function.update b.hw key value
    | _ => b.hw
  let file := match op with
    | .save journal => journal
    | _ => b.trace.file
  (answer, ⟨hw, file, b.trace.log ++ [⟨op, answer⟩]⟩)

theorem Bench.respond_bench (inventory : Inventory) (b : Bench) (mem : Journal)
    (op : Request) : bench inventory b mem op (b.respond mem op).1 (b.respond mem op).2 := by
  have hstirs : ∀ key value, Stirs inventory key b.hw (Function.update b.hw key value) := by
    intro key value
    refine ⟨fun other hpartner => ?_, fun lo hi hlo hhi h hends => ?_⟩
    · have hne : other ≠ key := by
        rcases hpartner with h | h
        · exact h.ne.symm
        · exact h.ne
      rw [Function.update_of_ne hne]
    · rw [Function.update_of_ne hlo, Function.update_of_ne hhi]
      exact h hends
  cases op with
  | save journal => exact ⟨⟨.inl rfl, rfl⟩, rfl⟩
  | read key =>
    refine ⟨⟨rfl, rfl⟩, rfl, fun value hvalue => ?_⟩
    have h : (Except.ok (b.hw key) : Except Failure Value) = .ok value := hvalue
    exact (Except.ok.inj h).symm
  | write key value | restoreValue key value => exact ⟨⟨rfl, rfl⟩, hstirs key value⟩
  | writeMaximum key => exact ⟨⟨rfl, rfl⟩, .refl inventory key b.hw⟩
  | temperature | checkOwnership => exact ⟨⟨rfl, rfl⟩, rfl⟩

/-! ### The rule of a loop -/

/-- The other end is in order with the write, if it is one of the loose controls. -/
def FitsLoose (inventory : Inventory) (Loose : Bench → String → Prop) (b : Bench) (op : Request) :
    Prop :=
  ∀ lo hi, inventory.PairEnds lo hi →
    (∀ value, op.Puts lo value → Loose b hi → InOrder value (b.hw hi)) ∧
    ∀ value, op.Puts hi value → Loose b lo → InOrder (b.hw lo) value

/-- A write is in order whenever a loose other end is. -/
def WritesInOrder (inventory : Inventory) (Loose : Bench → String → Prop) :
    Guard Hardware Journal Bench :=
  fun b _ op => FitsLoose inventory Loose b op → LeavesInOrder inventory b op

/-- The control has a value it is to have, or it is loose. -/
def Arrived (Target : String → Value → Prop) (Loose : Bench → String → Prop) (b : Bench)
    (key : String) : Prop :=
  Target key (b.hw key) ∨ Loose b key

/-- What a loop that writes values has to know of them. -/
structure PairedLoop (inventory : Inventory) (values : List (String × Value))
    (Target : String → Value → Prop) (Loose : Bench → String → Prop) (K : Bench → Prop) : Prop where
  /-- A control has one value. -/
  nodup : (values.map Prod.fst).Nodup
  /-- The controls are known. -/
  known : ∀ key ∈ values.map Prod.fst, (inventory.get? key).isSome
  /-- The values are what the controls are to have. -/
  planned : ∀ key value, values.lookup key = some value → Target key value
  /-- The two ends of a pair are to have values in order. -/
  targets : ∀ lo hi low high, inventory.PairEnds lo hi → Target lo low → Target hi high →
    InOrder low high
  /-- A control that the loop does not visit has arrived. -/
  outside : ∀ b key other, K b → inventory.Partners key other → other ∉ values.map Prod.fst →
    Arrived Target Loose b other
  /-- What is known does not go away. -/
  grown : ∀ b b' : Bench, (∃ more, b'.trace.log = b.trace.log ++ more) → K b → K b'
  /-- A control stays loose until it is written. -/
  loose : ∀ b b' key, Bench.Later b b' → Loose b key → Loose b' key

section Loop

variable {inventory : Inventory} {values : List (String × Value)} {Target : String → Value → Prop}
  {Loose : Bench → String → Prop} {K : Bench → Prop} {β : Type}
  {body : β → String → Value → EngineAct β} {Shut : β → Prop}

/-- An operation that writes nothing is in order. -/
theorem WritesInOrder.passive {b : Bench} {s : Journal} {op : Request} (h : op.target = none) :
    WritesInOrder inventory Loose b s op := by
  intro _ lo hi _
  constructor <;> rintro value (rfl | rfl) <;> cases h

/-- A value is written in order when the other end of its pair has arrived, and fits if it is
loose. -/
theorem PairedLoop.leavesInOrder (h : PairedLoop inventory values Target Loose K) {b : Bench}
    {op : Request} {key : String} {value : Value} (hputs : op.Puts key value)
    (hvalue : values.lookup key = some value) (hfits : FitsLoose inventory Loose b op)
    (harrived : ∀ other, inventory.Partners key other → Arrived Target Loose b other) :
    LeavesInOrder inventory b op := by
  have htarget := h.planned key value hvalue
  refine leavesInOrder_of_puts hputs (fun other hends => ?_) fun other hends => ?_
  · rcases harrived other (.inl hends) with hother | hloose
    · exact h.targets key other _ _ hends htarget hother
    · exact (hfits _ _ hends).1 _ hputs hloose
  · rcases harrived other (.inr hends) with hother | hloose
    · exact h.targets other key _ _ hends hother htarget
    · exact (hfits _ _ hends).2 _ hputs hloose

/-- What the body of the loop does with one control: it may write its value, unless the loop is
shut. -/
def VisitsInOrder (inventory : Inventory) (values : List (String × Value))
    (Target : String → Value → Prop) (Loose : Bench → String → Prop) (Shut : β → Prop)
    (body : β → String → Value → EngineAct β) : Prop :=
  ∀ st s b key value, values.lookup key = some value →
    (¬Shut st → ∀ s' b' op, Bench.Later b b' → Request.Puts key value op →
      WritesInOrder inventory Loose b' s' op) →
    wp (bench inventory) (WritesInOrder inventory Loose) (body st key value)
      (outcome (fun st' _ b' => Stirs inventory key b.hw b'.hw ∧
          (∃ more, b'.trace.log = b.trace.log ++ more) ∧ (Shut st → Shut st') ∧
          (¬Shut st → ∀ other, inventory.Partners key other → Arrived Target Loose b' key))
        fun _ _ _ => True) s b

/-- A loop over ordered controls writes every pair in order. -/
theorem wp_pairedLoop (h : PairedLoop inventory values Target Loose K)
    (hbody : VisitsInOrder inventory values Target Loose Shut body) {st : β} {s : Journal}
    {b : Bench} (hK : K b) (horder : ∀ lo hi, inventory.OrderedPair b.hw lo hi) :
    wp (bench inventory) (WritesInOrder inventory Loose) (ordered inventory values st body)
      (fun _ _ _ => True) s b := by
  refine wp_orderedPositions h.nodup h.known
    (fun visited _ _ b' => K b' ∧
      ∀ lo hi, lo ∈ values.map Prod.fst → hi ∈ values.map Prod.fst → lo ∉ visited →
        inventory.OrderedPair b'.hw lo hi)
    ⟨hK, fun lo hi _ _ _ => horder lo hi⟩ ?_ ?_ fun _ _ _ _ _ _ => trivial
  · -- A control whose partner is not visited.
    rintro visited st s' b' key value ⟨hK, horder⟩ hnew hvalue - halone
    refine wp_mono (hbody st s' b' key value hvalue ?_) ?_
    · intro _ s'' b'' op hlater hputs hfits
      refine h.leavesInOrder hputs hvalue hfits fun other hpartner => ?_
      refine h.outside b'' key other (h.grown b' b'' hlater.2 hK) hpartner fun hin => ?_
      exact hpartner.elim (halone other hin).1 (halone other hin).2
    · rintro (err | st') s'' b'' hvisited
      · trivial
      · obtain ⟨hstirs, hgrown, -, -⟩ := hvisited
        refine ⟨h.grown b' b'' hgrown hK, fun lo hi hlo hhi hnot hends => ?_⟩
        simp only [List.mem_append, List.mem_singleton, not_or] at hnot
        have hne : hi ≠ key := fun heq => (halone lo hlo).2 (heq ▸ hends)
        exact hstirs.order lo hi hnot.2 hne (horder lo hi hlo hhi hnot.1) hends
  · -- Both ends of a pair, in the order that the upper one demands.
    rintro visited st s' b' lo hi low high ⟨hK, horder⟩ hends hlo hhi hlow hhigh -
    have hkeyLo : lo ∈ values.map Prod.fst := List.mem_map_of_mem (mem_of_lookup hlow)
    have hkeyHi : hi ∈ values.map Prod.fst := List.mem_map_of_mem (mem_of_lookup hhigh)
    have hcurrent : InOrder (b'.hw lo) (b'.hw hi) := horder lo hi hkeyLo hkeyHi hlo hends
    have htargets : InOrder low high :=
      h.targets lo hi low high hends (h.planned lo low hlow) (h.planned hi high hhigh)
    refine ⟨.passive rfl, fun answer b₁ hans => ?_⟩
    obtain ⟨⟨-, hlog⟩, hhw, hread⟩ := hans
    refine ⟨fun _ _ => trivial, fun current hok => ?_⟩
    have hcurrent₁ : InOrder (b₁.hw lo) (b₁.hw hi) := by rw [hhw]; exact hcurrent
    have hK₁ : K b₁ := h.grown b' b₁ ⟨_, hlog⟩ hK
    have hvalue : current = b₁.hw hi := by rw [hhw]; exact hread current hok
    -- The first end is written in order with the second one, and the second one after it.
    have hboth : ∀ first second v v', values.lookup first = some v →
        values.lookup second = some v' →
        (∀ other, inventory.Partners first other → other = second) →
        (∀ other, inventory.Partners second other → other = first) →
        inventory.Partners first second →
        (inventory.PairEnds first second → InOrder v (b₁.hw second)) →
        (inventory.PairEnds second first → InOrder (b₁.hw second) v) →
        wp (bench inventory) (WritesInOrder inventory Loose)
          (body st first v >>= fun st' => body st' second v')
          (outcome (fun _ s b'' => K b'' ∧
              ∀ lo' hi', lo' ∈ values.map Prod.fst → hi' ∈ values.map Prod.fst →
                lo' ∉ visited ++ [first, second] → inventory.OrderedPair b''.hw lo' hi')
            fun _ _ _ => True) s' b₁ := by
      intro first second v v' hv hv' hfirst hsecond hpartners hless hmore
      rw [wp_bind]
      refine wp_mono (hbody st s' b₁ first v hv ?_) ?_
      · intro _ s'' b₂ op hlater hputs _
        refine leavesInOrder_of_puts hputs (fun other hends' => ?_) fun other hends' => ?_
        · obtain rfl := hfirst other (.inl hends')
          rw [hlater.1]
          exact hless hends'
        · obtain rfl := hfirst other (.inr hends')
          rw [hlater.1]
          exact hmore hends'
      · rintro (err | st₂) s₂ b₂ hvisited
        · trivial
        · obtain ⟨hstirs, hgrown, hshut, harrived⟩ := hvisited
          rw [outcome_ok]
          refine wp_mono (hbody st₂ s₂ b₂ second v' hv' ?_) ?_
          · intro hopen s₃ b₃ op hlater hputs hfits
            refine h.leavesInOrder hputs hv' hfits fun other hpartner' => ?_
            obtain rfl := hsecond other hpartner'
            rcases harrived (fun hst => hopen (hshut hst)) second hpartners with harr | hloose
            · exact .inl (by rw [hlater.1]; exact harr)
            · exact .inr (h.loose b₂ b₃ other hlater hloose)
          · rintro (err | st₃) s₃ b₃ hvisited₃
            · trivial
            · obtain ⟨hstirs₃, hgrown₃, -, -⟩ := hvisited₃
              refine ⟨h.grown b₂ b₃ hgrown₃ (h.grown b₁ b₂ hgrown hK₁),
                fun lo' hi' hlo' hhi' hnot hends' => ?_⟩
              simp only [List.mem_append, List.mem_cons, List.not_mem_nil, or_false,
                not_or] at hnot
              obtain ⟨hnew, hne₁, hne₂⟩ := hnot
              -- Its upper end is no member of this pair either.
              have hup₁ : hi' ≠ first := fun heq =>
                hne₂ (hfirst lo' (.inr (heq ▸ hends')))
              have hup₂ : hi' ≠ second := fun heq =>
                hne₁ (hsecond lo' (.inr (heq ▸ hends')))
              refine hstirs₃.order lo' hi' hne₂ hup₂ (hstirs.order lo' hi' hne₁ hup₁ ?_) hends'
              intro _
              rw [hhw]
              exact horder lo' hi' hlo' hhi' hnew hends'
    have hfirstLo : ∀ other, inventory.Partners lo other → other = hi := by
      rintro other (hother | hother)
      · exact hother.upper_unique hends
      · exact (hother.not_both hends).elim
    have hfirstHi : ∀ other, inventory.Partners hi other → other = lo := by
      rintro other (hother | hother)
      · exact (hends.not_both hother).elim
      · exact hother.lower_unique hends
    have hnotBack : ¬inventory.PairEnds hi lo := fun hback => hends.not_both hback
    constructor
    · intro hgt
      refine hboth hi lo high low hhigh hlow hfirstHi hfirstLo (.inr hends)
        (fun hback => (hnotBack hback).elim) fun _ => ?_
      exact hcurrent₁.between (hvalue ▸ hgt) htargets
    · intro hle
      refine hboth lo hi low high hlow hhigh hfirstLo hfirstHi (.inl hends) (fun _ => ?_)
        fun hback => (hnotBack hback).elim
      exact hvalue ▸ hle

end Loop

end Preseed.HardwareTuning
