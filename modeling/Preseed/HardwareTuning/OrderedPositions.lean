import Preseed.HardwareTuning.Dictionaries
import Preseed.HardwareTuning.Engine

/-!
# The rules of a loop over ordered controls

A loop over `Engine.ordered` visits every requested control exactly once. It comes to a
control whose pair has no other requested member when nothing is left that goes before
it, and to a whole pair when nothing is left that goes before one of its members; then
it reads the upper member and goes through the pair in the order that this reading
demands. The first rule says so position by position; the second one reduces the loop to
its body: on an inventory that knows the requested controls, the only exceptions that
the generator raises are those of that reading and of the comparison with it.
-/

namespace Preseed.HardwareTuning

open Effects List Inventory

/-! ### The two ends of a pair -/

/-- `lo` and `hi` name the two ends of one pair of the inventory. -/
def Inventory.PairEnds (inventory : Inventory) (lo hi : String) : Prop :=
  ∃ a b, inventory.get? lo = some a ∧ inventory.get? hi = some b ∧ a.pair.isSome ∧
    a.pair = b.pair ∧ a.ends b

/-- Sorting the keys keeps them. -/
@[simp] theorem mem_orderedKeys {inventory : Inventory} {values : List (String × Value)}
    {key : String} : key ∈ orderedKeys inventory values ↔ key ∈ values.map Prod.fst := by
  simp [orderedKeys]

/-- The members of a pair are requested controls of that pair. -/
theorem mem_pairGroup {inventory : Inventory} {values : List (String × Value)}
    {pair key : String} : key ∈ pairGroup inventory values pair ↔
      key ∈ values.map Prod.fst ∧
        ∃ knob, inventory.get? key = some knob ∧ knob.pair = some pair := by
  simp [pairGroup, Option.any_eq_true]

section

variable {inventory : Inventory} {a b : String} {x y : Knob}

private theorem memberOn_min (ha : inventory.get? a = some x) (hb : inventory.get? b = some y)
    (hends : x.ends y) : memberOn inventory [a, b] .min = some a ∧
      memberOn inventory [a, b] .max = some b := by
  obtain ⟨hx, hy⟩ := hends
  simp [memberOn, ha, hb, hx, hy]

private theorem memberOn_max (ha : inventory.get? a = some x) (hb : inventory.get? b = some y)
    (hends : y.ends x) : memberOn inventory [a, b] .min = some b ∧
      memberOn inventory [a, b] .max = some a := by
  obtain ⟨hy, hx⟩ := hends
  simp [memberOn, ha, hb, hx, hy]

/-- A group of two different controls consists of the two ends of its pair. -/
theorem memberOn_pair {values : List (String × Value)} {pair : String}
    (hnodup : (values.map Prod.fst).Nodup) (hgroup : pairGroup inventory values pair = [a, b]) :
    ∃ lo hi, memberOn inventory [a, b] .min = some lo ∧ memberOn inventory [a, b] .max = some hi ∧
      inventory.PairEnds lo hi ∧ (lo = a ∧ hi = b ∨ lo = b ∧ hi = a) := by
  have hne : a ≠ b := by
    have hfilter : (pairGroup inventory values pair).Nodup := hnodup.filter _
    rw [hgroup] at hfilter
    simpa using hfilter
  obtain ⟨-, x, hx, hxp⟩ := mem_pairGroup.mp (hgroup ▸ mem_cons_self :
    a ∈ pairGroup inventory values pair)
  obtain ⟨-, y, hy, hyp⟩ := mem_pairGroup.mp (hgroup ▸ (by simp) :
    b ∈ pairGroup inventory values pair)
  have hid : x.id ≠ y.id := by
    rwa [id_of_get? hx, id_of_get? hy]
  have hsome : x.pair.isSome ∧ y.pair.isSome := by simp [hxp, hyp]
  rcases inventory.paired x (mem_of_get? hx) y (mem_of_get? hy) hsome.1
    (hxp.trans hyp.symm) hid with hends | hends
  · obtain ⟨hlo, hhi⟩ := memberOn_min hx hy hends
    exact ⟨a, b, hlo, hhi, ⟨x, y, hx, hy, hsome.1, hxp.trans hyp.symm, hends⟩, .inl ⟨rfl, rfl⟩⟩
  · obtain ⟨hlo, hhi⟩ := memberOn_max hx hy hends
    exact ⟨b, a, hlo, hhi, ⟨y, x, hy, hx, hsome.2, hyp.trans hxp.symm, hends⟩, .inr ⟨rfl, rfl⟩⟩

end

/-! ### Positions -/

/-- No requested control that is still to be visited goes before this one. -/
def Foremost (inventory : Inventory) (values : List (String × Value)) (visited : List String)
    (key : String) : Prop :=
  ∀ k ∈ values.map Prod.fst, k ∈ visited ∨ priorityLE inventory values key k

/-- No other member of the control's pair is requested. -/
def Alone (inventory : Inventory) (values : List (String × Value)) (key : String) : Prop :=
  ∀ other ∈ values.map Prod.fst, ¬inventory.PairEnds key other ∧ ¬inventory.PairEnds other key

instance (inventory : Inventory) (values : List (String × Value)) :
    Std.Total (priorityLE inventory values) where
  total a b := by
    unfold priorityLE
    rcases lt_trichotomy (priority inventory values a) (priority inventory values b) with h | h | h
    · exact .inl (.inl h)
    · rcases String.le_total a b with hab | hab
      · exact .inl (.inr ⟨h, hab⟩)
      · exact .inr (.inr ⟨h.symm, hab⟩)
    · exact .inr (.inl h)

instance (inventory : Inventory) (values : List (String × Value)) :
    IsTrans String (priorityLE inventory values) where
  trans a b c hab hbc := by
    unfold priorityLE at *
    rcases hab with hab | ⟨hab, hab'⟩ <;> rcases hbc with hbc | ⟨hbc, hbc'⟩
    · exact .inl (hab.trans hbc)
    · exact .inl (hbc ▸ hab)
    · exact .inl (hab ▸ hbc)
    · exact .inr ⟨hab.trans hbc, String.le_trans hab' hbc'⟩

section Pairs

variable {inventory : Inventory} {lo hi : String}

/-- The two ends of a pair are different controls. -/
theorem Inventory.PairEnds.ne (h : inventory.PairEnds lo hi) : lo ≠ hi := by
  rintro rfl
  obtain ⟨a, b, ha, hb, -, -, hmin, hmax⟩ := h
  rw [ha, Option.some.injEq] at hb
  rw [hb, hmax] at hmin
  cases hmin

/-- A pair has one upper end. -/
theorem Inventory.PairEnds.upper_unique {hi' : String} (h : inventory.PairEnds lo hi)
    (h' : inventory.PairEnds lo hi') : hi = hi' := by
  obtain ⟨a, b, ha, hb, hsome, hpair, -, hmax⟩ := h
  obtain ⟨a', b', ha', hb', -, hpair', -, hmax'⟩ := h'
  rw [ha, Option.some.injEq] at ha'
  subst ha'
  by_contra hne
  have hid : b.id ≠ b'.id := by rwa [id_of_get? hb, id_of_get? hb']
  rcases inventory.paired b (mem_of_get? hb) b' (mem_of_get? hb')
    (hpair ▸ hsome) (hpair.symm.trans hpair') hid with hends | hends
  · rw [hends.1] at hmax
    cases hmax
  · rw [hends.1] at hmax'
    cases hmax'

/-- A pair has one lower end. -/
theorem Inventory.PairEnds.lower_unique {lo' : String} (h : inventory.PairEnds lo hi)
    (h' : inventory.PairEnds lo' hi) : lo = lo' := by
  obtain ⟨a, b, ha, hb, hsome, hpair, hmin, -⟩ := h
  obtain ⟨a', b', ha', hb', -, hpair', hmin', -⟩ := h'
  rw [hb, Option.some.injEq] at hb'
  subst hb'
  by_contra hne
  have hid : a.id ≠ a'.id := by rwa [id_of_get? ha, id_of_get? ha']
  rcases inventory.paired a (mem_of_get? ha) a' (mem_of_get? ha') hsome
    (hpair.trans hpair'.symm) hid with hends | hends
  · rw [hends.2] at hmin'
    cases hmin'
  · rw [hends.2] at hmin
    cases hmin

/-- No control is the lower end of one pair and the upper end of another. -/
theorem Inventory.PairEnds.not_both {key other : String} (h : inventory.PairEnds lo key)
    (h' : inventory.PairEnds key other) : False := by
  obtain ⟨a, b, ha, hb, -, -, -, hmax⟩ := h
  obtain ⟨a', b', ha', hb', -, -, hmin, -⟩ := h'
  rw [hb, Option.some.injEq] at ha'
  rw [ha', hmin] at hmax
  cases hmax

/-- A member of a pair of which another member is requested stands in a group of two. -/
theorem pairGroup_of_pairEnds {values : List (String × Value)} {a : Knob} {pair : String}
    (hnodup : (values.map Prod.fst).Nodup) (h : inventory.PairEnds lo hi)
    (hlo : lo ∈ values.map Prod.fst) (hhi : hi ∈ values.map Prod.fst)
    (ha : inventory.get? lo = some a ∨ inventory.get? hi = some a) (hpair : a.pair = some pair) :
    ∃ x y, pairGroup inventory values pair = [x, y] := by
  have hends := h
  obtain ⟨a₁, b₁, ha₁, hb₁, -, hsame, -, -⟩ := h
  have hpairs : a₁.pair = some pair ∧ b₁.pair = some pair := by
    rcases ha with ha | ha
    · rw [ha₁, Option.some.injEq] at ha
      subst ha
      exact ⟨hpair, hsame ▸ hpair⟩
    · rw [hb₁, Option.some.injEq] at ha
      subst ha
      exact ⟨hsame.trans hpair, hpair⟩
  have hmem : lo ∈ pairGroup inventory values pair ∧ hi ∈ pairGroup inventory values pair :=
    ⟨mem_pairGroup.mpr ⟨hlo, a₁, ha₁, hpairs.1⟩, mem_pairGroup.mpr ⟨hhi, b₁, hb₁, hpairs.2⟩⟩
  -- Every member of the group is one of the two ends.
  have hall : ∀ k ∈ pairGroup inventory values pair, k ∈ [lo, hi] := by
    intro k hk
    obtain ⟨-, c, hc, hcp⟩ := mem_pairGroup.mp hk
    by_contra hnot
    simp only [mem_cons, not_mem_nil, or_false, not_or] at hnot
    have hid : a₁.id ≠ c.id := by
      rw [id_of_get? ha₁, id_of_get? hc]
      exact fun heq => hnot.1 heq.symm
    rcases inventory.paired a₁ (mem_of_get? ha₁) c (mem_of_get? hc)
      (by simp [hpairs.1]) (hpairs.1.trans hcp.symm) hid with hac | hca
    · have hupper : inventory.PairEnds lo k :=
        ⟨a₁, c, ha₁, hc, by simp [hpairs.1], hpairs.1.trans hcp.symm, hac⟩
      exact hnot.2 (hupper.upper_unique hends)
    · have hlower : inventory.PairEnds k lo :=
        ⟨c, a₁, hc, ha₁, by simp [hcp], hcp.trans hpairs.1.symm, hca⟩
      exact hlower.not_both hends
  have hperm : (pairGroup inventory values pair).Perm [lo, hi] := by
    refine (perm_ext_iff_of_nodup (hnodup.filter _) (by simp [hends.ne])).mpr fun k => ?_
    refine ⟨hall k, fun hk => ?_⟩
    rcases mem_cons.mp hk with rfl | hk
    · exact hmem.1
    · rw [mem_singleton.mp hk]
      exact hmem.2
  have hlength : (pairGroup inventory values pair).length = 2 := hperm.length_eq
  exact length_eq_two.mp hlength

end Pairs

/-- The visited controls: each of them once, none but requested ones, and pairs as a whole. -/
structure Visited (inventory : Inventory) (values : List (String × Value)) (visited : List String) :
    Prop where
  /-- No control is visited twice. -/
  nodup : visited.Nodup
  /-- They are requested. -/
  requested : visited ⊆ values.map Prod.fst
  /-- The requested members of a pair are visited together. -/
  closed : ∀ lo hi, inventory.PairEnds lo hi → lo ∈ values.map Prod.fst →
    hi ∈ values.map Prod.fst → (lo ∈ visited ↔ hi ∈ visited)

section Visited

variable {inventory : Inventory} {values : List (String × Value)} {visited : List String}

/-- Visiting a control without a requested partner. -/
theorem Visited.single (h : Visited inventory values visited) {key : String}
    (hkey : key ∈ values.map Prod.fst) (hnew : key ∉ visited)
    (halone : Alone inventory values key) :
    Visited inventory values (visited ++ [key]) where
  nodup := by
    rw [nodup_append]
    refine ⟨h.nodup, by simp, fun a ha b hb heq => hnew ?_⟩
    rw [← mem_singleton.mp hb, ← heq]
    exact ha
  requested := append_subset.mpr ⟨h.requested, by simpa using hkey⟩
  closed lo hi hends hlo hhi := by
    have hlo' : lo ≠ key := fun heq => (halone hi hhi).1 (heq ▸ hends)
    have hhi' : hi ≠ key := fun heq => (halone lo hlo).2 (heq ▸ hends)
    simpa [hlo', hhi'] using h.closed lo hi hends hlo hhi

/-- Visiting both members of a pair. -/
theorem Visited.pair (h : Visited inventory values visited) {lo hi : String}
    (hends : inventory.PairEnds lo hi) (hlo : lo ∈ values.map Prod.fst)
    (hhi : hi ∈ values.map Prod.fst) (hnewLo : lo ∉ visited) (hnewHi : hi ∉ visited)
    {order : List String} (horder : order.Perm [lo, hi]) :
    Visited inventory values (visited ++ order) where
  nodup := by
    have hne := hends.ne
    have hpair : (visited ++ [lo, hi]).Nodup := by
      rw [nodup_append]
      refine ⟨h.nodup, by simpa using hne, ?_⟩
      rintro a ha b hb rfl
      rcases mem_cons.mp hb with rfl | hb
      · exact hnewLo ha
      · rw [mem_singleton.mp hb] at ha
        exact hnewHi ha
    exact (List.Perm.append_left visited horder).nodup_iff.mpr hpair
  requested := by
    refine append_subset.mpr ⟨h.requested, fun k hk => ?_⟩
    rcases mem_cons.mp (horder.mem_iff.mp hk) with rfl | hk
    · exact hlo
    · rwa [mem_singleton.mp hk]
  closed lo' hi' hends' hlo' hhi' := by
    have hiff := h.closed lo' hi' hends' hlo' hhi'
    simp only [mem_append, horder.mem_iff, mem_cons, not_mem_nil, or_false]
    constructor
    · rintro (hold | rfl | rfl)
      · exact .inl (hiff.mp hold)
      · exact .inr (.inr (hends'.upper_unique hends))
      · exact (hends.not_both hends').elim
    · rintro (hold | rfl | rfl)
      · exact .inl (hiff.mpr hold)
      · exact (hends'.not_both hends).elim
      · exact .inr (.inl (hends'.lower_unique hends))

end Visited

section Rules

variable {W β : Type} {E : Environment Hardware Journal W} {G : Guard Hardware Journal W}
  {inventory : Inventory} {values : List (String × Value)} {s : Journal} {w : W}

/-- The rule of one position of the order: the control alone, or its pair in the order that the
reading of the upper member demands. -/
theorem wp_position (hnodup : (values.map Prod.fst).Nodup) {key : String}
    (hkey : key ∈ values.map Prod.fst) (hknown : (inventory.get? key).isSome)
    {Q : Except Failure (List String) → Journal → W → Prop}
    (halone : Alone inventory values key → Q (.ok [key]) s w)
    (hpair : ∀ lo hi low, inventory.PairEnds lo hi → lo ∈ values.map Prod.fst →
      hi ∈ values.map Prod.fst → (lo = key ∨ hi = key) → values.lookup lo = some low →
      G w s (.read hi) ∧ ∀ (answer : Except Failure Value) w', E w s (.read hi) answer w' →
        (∀ e, (answer >>= low.gt) = .error e → Q (.error e) s w') ∧
          ∀ current inverted, answer = .ok current → low.gt current = .ok inverted →
            Q (.ok (if inverted then [hi, lo] else [lo, hi])) s w') :
    wp E G (pairOrder inventory values key) Q s w := by
  obtain ⟨knob, hknob⟩ := Option.isSome_iff_exists.mp hknown
  unfold pairOrder
  rw [hknob, Option.bind_some]
  cases hp : knob.pair with
  | none =>
    refine halone fun other _ => ⟨?_, ?_⟩
    · rintro ⟨a, b, ha, hb, hsome, hsame, -⟩
      rw [hknob, Option.some.injEq] at ha
      rw [← ha, hp] at hsome
      cases hsome
    · rintro ⟨a, b, ha, hb, hsome, hsame, -⟩
      rw [hknob, Option.some.injEq] at hb
      rw [hsame, ← hb, hp] at hsome
      cases hsome
  | some pair =>
    rw [Option.map_some]
    split
    case h_2 hgroup =>
      -- A partner would make the group one of two.
      refine halone fun other hother => ⟨fun hends => ?_, fun hends => ?_⟩
      · obtain ⟨x, y, hxy⟩ := pairGroup_of_pairEnds hnodup hends hkey hother (.inl hknob) hp
        exact hgroup x y (by rw [hxy])
      · obtain ⟨x, y, hxy⟩ := pairGroup_of_pairEnds hnodup hends hother hkey (.inr hknob) hp
        exact hgroup x y (by rw [hxy])
    case h_1 a b hgroup =>
      rw [Option.some.injEq] at hgroup
      obtain ⟨lo, hi, hlo, hhi, hends, hab⟩ := memberOn_pair hnodup hgroup
      have hmem : ∀ k, k ∈ [lo, hi] ↔ k ∈ pairGroup inventory values pair := by
        intro k
        rw [hgroup]
        rcases hab with ⟨rfl, rfl⟩ | ⟨rfl, rfl⟩ <;> simp [or_comm]
      have hkeyMem : key ∈ [lo, hi] := (hmem key).mpr (mem_pairGroup.mpr ⟨hkey, knob, hknob, hp⟩)
      have hsub : ∀ k ∈ [lo, hi], k ∈ values.map Prod.fst := fun k hk =>
        (mem_pairGroup.mp ((hmem k).mp hk)).1
      obtain ⟨low, hlow⟩ := lookup_isSome_of_mem (hsub lo mem_cons_self)
      have hone : lo = key ∨ hi = key := by
        simp only [mem_cons, not_mem_nil, or_false] at hkeyMem
        exact hkeyMem.imp Eq.symm Eq.symm
      obtain ⟨hguard, hread⟩ :=
        hpair lo hi low hends (hsub lo (by simp)) (hsub hi (by simp)) hone hlow
      simp only [hlo, hhi, wp_bind, wp_readControl]
      refine ⟨hguard, fun answer w' hanswer => ?_⟩
      obtain ⟨herror, hok⟩ := hread answer w' hanswer
      cases answer with
      | error e => exact herror e rfl
      | ok high =>
        simp only [outcome_ok, hlow, wp_bind, wp_lift]
        cases hgt : low.gt high with
        | error e => exact herror e hgt
        | ok inverted => exact hok high inverted rfl hgt

variable {body : β → String → Value → EngineAct β} {Q : Except Failure β → Journal → W → Prop}

/-- The two visits of a pair, one after the other. -/
theorem wp_visitPair {b : β} {first second : String} {v v' : Value}
    (hv : values.lookup first = some v) (hv' : values.lookup second = some v')
    (h : wp E G (body b first v >>= fun b' => body b' second v') Q s w) :
    wp E G (Act.fold (visit values body) b [first, second]) Q s w := by
  rw [wp_bind] at h
  simp only [Act.fold, visit, hv, hv', wp_bind]
  refine wp_mono h ?_
  rintro (e | b') s' w' h'
  · exact h'
  · simp only [outcome_ok, wp_bind]
    refine wp_mono h' ?_
    rintro (e | b'') s'' w'' h''
    · exact h''
    · exact h''

/-- The invariant rule of a loop over ordered controls, position by position. -/
theorem wp_orderedPositions (hnodup : (values.map Prod.fst).Nodup)
    (hknown : ∀ key ∈ values.map Prod.fst, (inventory.get? key).isSome) {b : β}
    (I : List String → β → Journal → W → Prop) (hinit : I [] b s w)
    (hsingle : ∀ visited b s w key value, I visited b s w → key ∉ visited →
      values.lookup key = some value → Foremost inventory values visited key →
      Alone inventory values key →
      wp E G (body b key value)
        (outcome (fun b' => I (visited ++ [key]) b') fun e => Q (.error e)) s w)
    (hpair : ∀ visited b s w lo hi low high, I visited b s w → inventory.PairEnds lo hi →
      lo ∉ visited → hi ∉ visited → values.lookup lo = some low → values.lookup hi = some high →
      (Foremost inventory values visited lo ∨ Foremost inventory values visited hi) →
      G w s (.read hi) ∧ ∀ (answer : Except Failure Value) w', E w s (.read hi) answer w' →
        (∀ e, (answer >>= low.gt) = .error e → Q (.error e) s w') ∧
          ∀ current, answer = .ok current →
            (low.gt current = .ok true →
              wp E G (body b hi high >>= fun b' => body b' lo low)
                (outcome (fun b' => I (visited ++ [hi, lo]) b') fun e => Q (.error e)) s w') ∧
            (low.gt current = .ok false →
              wp E G (body b lo low >>= fun b' => body b' hi high)
                (outcome (fun b' => I (visited ++ [lo, hi]) b') fun e => Q (.error e)) s w'))
    (hend : ∀ visited b s w, visited.Perm (values.map Prod.fst) → I visited b s w →
      Q (.ok b) s w) :
    wp E G (ordered inventory values b body) Q s w := by
  have hfrom : ∀ rest visited b s w, rest ⊆ values.map Prod.fst →
      (∀ key ∈ values.map Prod.fst, key ∈ visited ∨ key ∈ rest) →
      rest.Pairwise (priorityLE inventory values) → Visited inventory values visited →
      I visited b s w → wp E G (orderedFrom inventory values body visited rest b) Q s w := by
    intro rest
    induction rest with
    | nil =>
      intro visited b s w _ hcover _ hvisited hI
      refine hend visited b s w ?_ hI
      refine (perm_ext_iff_of_nodup hvisited.nodup hnodup).mpr fun key =>
        ⟨fun h => hvisited.requested h, fun h => ?_⟩
      simpa using hcover key h
    | cons key rest ih =>
      intro visited b s w hrest hcover hsorted hvisited hI
      obtain ⟨hfirst, hsorted'⟩ := pairwise_cons.mp hsorted
      have hrest' : rest ⊆ values.map Prod.fst := fun k hk => hrest (mem_cons_of_mem _ hk)
      have hkey := hrest mem_cons_self
      unfold orderedFrom
      by_cases hdone : key ∈ visited
      · rw [if_pos hdone]
        refine ih visited b s w hrest' (fun k hk => ?_) hsorted' hvisited hI
        rcases hcover k hk with h | h
        · exact .inl h
        · rcases mem_cons.mp h with rfl | h
          · exact .inl hdone
          · exact .inr h
      rw [if_neg hdone, wp_bind]
      have hforemost : Foremost inventory values visited key := by
        intro k hk
        rcases hcover k hk with h | h
        · exact .inl h
        · rcases mem_cons.mp h with rfl | h
          · exact .inr ((total_of (priorityLE inventory values) k k).elim id id)
          · exact .inr (hfirst k h)
      -- Once a position is visited the loop goes on with what is left.
      have hnext : ∀ order, key ∈ order → Visited inventory values (visited ++ order) →
          ∀ b s w, I (visited ++ order) b s w →
          wp E G (orderedFrom inventory values body (visited ++ order) rest b) Q s w := by
        intro order hmem hvisited' b s w hI'
        refine ih (visited ++ order) b s w hrest' (fun k hk => ?_) hsorted' hvisited' hI'
        rcases hcover k hk with h | h
        · exact .inl (mem_append_left _ h)
        · rcases mem_cons.mp h with rfl | h
          · exact .inl (mem_append_right _ hmem)
          · exact .inr h
      refine wp_position hnodup hkey (hknown key hkey) ?_ ?_
      · intro halone
        obtain ⟨value, hvalue⟩ := lookup_isSome_of_mem hkey
        simp only [outcome_ok, wp_bind, Act.fold, visit, hvalue]
        refine wp_mono (hsingle visited b s w key value hI hdone hvalue hforemost halone) ?_
        rintro (e | b') s' w' h
        · exact h
        · exact hnext [key] (by simp) (hvisited.single hkey hdone halone) b' s' w' h
      · intro lo hi low hends hlo hhi hone hlow
        obtain ⟨high, hhigh⟩ := lookup_isSome_of_mem hhi
        have hiff := hvisited.closed lo hi hends hlo hhi
        have hnew : lo ∉ visited ∧ hi ∉ visited := by
          rcases hone with rfl | rfl
          · exact ⟨hdone, fun h => hdone (hiff.mpr h)⟩
          · exact ⟨fun h => hdone (hiff.mp h), hdone⟩
        have hfirst' : Foremost inventory values visited lo ∨
            Foremost inventory values visited hi := by
          rcases hone with rfl | rfl
          · exact .inl hforemost
          · exact .inr hforemost
        obtain ⟨hguard, hread⟩ :=
          hpair visited b s w lo hi low high hI hends hnew.1 hnew.2 hlow hhigh hfirst'
        refine ⟨hguard, fun answer w' hanswer => ?_⟩
        obtain ⟨herror, hok⟩ := hread answer w' hanswer
        refine ⟨herror, fun current inverted hcurrent hgt => ?_⟩
        obtain ⟨htrue, hfalse⟩ := hok current hcurrent
        have hgo : ∀ first second v v', key ∈ [first, second] → [first, second].Perm [lo, hi] →
            values.lookup first = some v → values.lookup second = some v' →
            wp E G (body b first v >>= fun b' => body b' second v')
              (outcome (fun b' => I (visited ++ [first, second]) b') fun e => Q (.error e))
              s w' →
            wp E G (Act.fold (visit values body) b [first, second] >>= fun b =>
              orderedFrom inventory values body (visited ++ [first, second]) rest b) Q s w' := by
          intro first second v v' hmem hperm hv hv' hact
          rw [wp_bind]
          refine wp_mono (wp_visitPair hv hv' hact) ?_
          rintro (e | b') s' w'' h
          · exact h
          · exact hnext _ hmem (hvisited.pair hends hlo hhi hnew.1 hnew.2 hperm) b' s' w'' h
        have hmem : key = lo ∨ key = hi := hone.imp Eq.symm Eq.symm
        cases inverted with
        | true =>
          exact hgo hi lo high low (by simpa using hmem.symm) (List.Perm.swap _ _ _) hhigh hlow
            (htrue hgt)
        | false =>
          exact hgo lo hi low high (by simpa using hmem) (List.Perm.refl _) hlow hhigh (hfalse hgt)
  have hfind : (values.find? fun kv => (inventory.get? kv.1).isNone) = none := by
    rw [find?_eq_none]
    intro kv hkv
    have := hknown kv.1 (mem_map_of_mem hkv)
    simp only [Bool.not_eq_true, Option.isNone_eq_false_iff]
    exact this
  unfold ordered
  rw [hfind]
  refine hfrom _ [] b s w (fun key hkey => mem_orderedKeys.mp hkey)
    (fun key hkey => .inr (mem_orderedKeys.mpr hkey)) (pairwise_insertionSort _ _) ?_ hinit
  exact ⟨nodup_nil, nil_subset _, by simp⟩

/-- The invariant rule of a loop over ordered controls, where every control is visited once. -/
theorem wp_ordered (hnodup : (values.map Prod.fst).Nodup)
    (hknown : ∀ key ∈ values.map Prod.fst, (inventory.get? key).isSome) {b : β}
    (I : List String → β → Journal → W → Prop) (hinit : I [] b s w)
    (hpair : ∀ visited b s w lo hi low, I visited b s w → inventory.PairEnds lo hi →
      values.lookup lo = some low →
      G w s (.read hi) ∧ ∀ (answer : Except Failure Value) w', E w s (.read hi) answer w' →
        (∀ e, (answer >>= low.gt) = .error e → Q (.error e) s w') ∧
          ((∃ v, answer = .ok v) → I visited b s w'))
    (hbody : ∀ visited b s w key value, I visited b s w → key ∉ visited →
      values.lookup key = some value → wp E G (body b key value)
        (outcome (fun b' => I (visited ++ [key]) b') fun e => Q (.error e)) s w)
    (hend : ∀ visited b s w, visited.Perm (values.map Prod.fst) → I visited b s w →
      Q (.ok b) s w) :
    wp E G (ordered inventory values b body) Q s w := by
  refine wp_orderedPositions hnodup hknown I hinit
    (fun visited b s w key value hI hnew hvalue _ _ => hbody visited b s w key value hI hnew hvalue)
    ?_ hend
  intro visited b s w lo hi low high hI hends hlo hhi hlow hhigh _
  obtain ⟨hguard, hread⟩ := hpair visited b s w lo hi low hI hends hlow
  refine ⟨hguard, fun answer w' hanswer => ?_⟩
  obtain ⟨herror, hok⟩ := hread answer w' hanswer
  refine ⟨herror, fun current hcurrent => ?_⟩
  have hI' : I visited b s w' := hok ⟨current, hcurrent⟩
  have htwo : ∀ first second v v', first ∉ visited → second ∉ visited → second ≠ first →
      values.lookup first = some v → values.lookup second = some v' →
      wp E G (body b first v >>= fun b' => body b' second v')
        (outcome (fun b' => I (visited ++ [first, second]) b') fun e => Q (.error e)) s w' := by
    intro first second v v' hfirst hsecond hne hv hv'
    rw [wp_bind]
    refine wp_mono (hbody visited b s w' first v hI' hfirst hv) ?_
    rintro (e | b₁) s₁ w₁ h
    · exact h
    · have hnew : second ∉ visited ++ [first] := by simp [hsecond, hne]
      have hvisit := hbody (visited ++ [first]) b₁ s₁ w₁ second v' h hnew hv'
      rwa [append_assoc] at hvisit
  exact ⟨fun _ => htwo hi lo high low hhi hlo hends.ne hhigh hlow,
    fun _ => htwo lo hi low high hlo hhi hends.ne.symm hlow hhigh⟩

end Rules

end Preseed.HardwareTuning
