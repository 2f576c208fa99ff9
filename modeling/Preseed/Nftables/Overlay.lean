import Mathlib.Data.List.Lookmap
import Mathlib.Data.List.Nodup

/-!
# Merging an overlay

`deep_merge` of the policy generator merges an overlay into a policy: mappings recursively,
lists without repetition, and anything else is replaced. Two elements of a list are the same
when their `repr` is.
-/

namespace Preseed.Nftables.Overlay

open List

/-! ## Lists without repetition -/

section Distinct

variable {α τ : Type} [DecidableEq τ] (key : α → τ)

/-- The loop of `unique_preserve`. -/
def unique : List τ → List α → List α
  | _, [] => []
  | seen, item :: items =>
    if key item ∈ seen then unique seen items else item :: unique (key item :: seen) items

theorem unique_cons (seen : List τ) (item : α) (items : List α) :
    unique key seen (item :: items) =
      if key item ∈ seen then unique key seen items else
        item :: unique key (key item :: seen) items := rfl

/-- `unique_preserve`. -/
def uniquePreserve (items : List α) : List α := unique key [] items

variable {seen : List τ}

/-- The loop depends on which keys have been seen only. -/
theorem unique_congr {seen' : List τ} (h : ∀ k, k ∈ seen ↔ k ∈ seen') (items : List α) :
    unique key seen items = unique key seen' items := by
  induction items generalizing seen seen' with
  | nil => rfl
  | cons item items ih =>
    have hcons : ∀ k, k ∈ key item :: seen ↔ k ∈ key item :: seen' := by
      intro k
      simp [h]
    rw [unique_cons, unique_cons, ih h, ih hcons]
    simp only [h]

theorem unique_append (seen : List τ) (xs ys : List α) :
    unique key seen (xs ++ ys) = unique key seen xs ++ unique key (xs.map key ++ seen) ys := by
  induction xs generalizing seen with
  | nil => rfl
  | cons x xs ih =>
    simp only [cons_append, unique_cons, map_cons]
    split
    · rename_i hseen
      have hsame : ∀ k, k ∈ xs.map key ++ seen ↔ k ∈ key x :: (xs.map key ++ seen) := by
        intro k
        simp only [mem_append, mem_cons]
        constructor
        · exact .inr
        · rintro (rfl | h)
          · exact .inr hseen
          · exact h
      rw [ih, unique_congr key hsame]
    · have hsame : ∀ k, k ∈ xs.map key ++ key x :: seen ↔ k ∈ key x :: (xs.map key ++ seen) := by
        intro k
        simp only [mem_append, mem_cons]
        tauto
      rw [ih, unique_congr key hsame, cons_append]

variable {items : List α}

/-- Nothing is left of what has been seen. -/
theorem unique_eq_nil (h : ∀ item ∈ items, key item ∈ seen) :
    unique key seen items = [] := by
  induction items with
  | nil => rfl
  | cons item items ih =>
    rw [unique_cons, if_pos (h item (mem_cons_self ..))]
    exact ih fun other hmem => h other (mem_cons_of_mem _ hmem)

theorem mem_keys_unique (seen : List τ) {k : τ} :
    k ∈ (unique key seen items).map key ∨ k ∈ seen ↔ k ∈ items.map key ∨ k ∈ seen := by
  induction items generalizing seen with
  | nil => rfl
  | cons item items ih =>
    rw [unique_cons]
    split
    · rename_i hseen
      rw [ih, map_cons, mem_cons]
      constructor
      · rintro (h | h)
        · exact .inl (.inr h)
        · exact .inr h
      · rintro ((rfl | h) | h)
        · exact .inr hseen
        · exact .inl h
        · exact .inr h
    · have h := ih (key item :: seen)
      simp only [map_cons, mem_cons] at h ⊢
      tauto

theorem length_unique_le (seen : List τ) (items : List α) :
    (unique key seen items).length ≤ items.length := by
  induction items generalizing seen with
  | nil => exact Nat.le_refl _
  | cons item items ih =>
    rw [unique_cons]
    split
    · exact Nat.le_succ_of_le (ih seen)
    · exact Nat.succ_le_succ (ih _)

/-- The keys of what is left are distinct and have not been seen. -/
theorem nodup_unique (seen : List τ) (items : List α) :
    ((unique key seen items).map key).Nodup ∧
      ∀ item ∈ unique key seen items, key item ∉ seen := by
  induction items generalizing seen with
  | nil => simp [unique]
  | cons item items ih =>
    rw [unique_cons]
    split
    · exact ih seen
    · rename_i hseen
      obtain ⟨hnodup, hnew⟩ := ih (key item :: seen)
      constructor
      · rw [map_cons, nodup_cons]
        refine ⟨fun hmem => ?_, hnodup⟩
        obtain ⟨other, hother, heq⟩ := mem_map.mp hmem
        exact hnew other hother (heq ▸ mem_cons_self ..)
      · intro other hother
        rcases mem_cons.mp hother with rfl | hother
        · exact hseen
        · exact fun h => hnew other hother (mem_cons_of_mem _ h)

/-- A list is kept as it is when its keys are distinct and have not been seen. -/
theorem unique_eq_self_iff :
    unique key seen items = items ↔
      (items.map key).Nodup ∧ ∀ item ∈ items, key item ∉ seen := by
  induction items generalizing seen with
  | nil => simp [unique]
  | cons item items ih =>
    rw [unique_cons]
    split
    · rename_i hseen
      constructor
      · intro h
        have hle : (unique key seen items).length ≤ items.length := length_unique_le key seen items
        rw [h, length_cons] at hle
        omega
      · rintro ⟨-, h⟩
        exact absurd hseen (h item (mem_cons_self ..))
    · rename_i hseen
      rw [List.cons.injEq, ih]
      simp only [true_and, map_cons, nodup_cons, mem_cons, forall_eq_or_imp,
        not_or, mem_map, not_exists, not_and]
      constructor
      · rintro ⟨hnodup, h⟩
        exact ⟨⟨fun other hmem heq => (h other hmem).1 heq, hnodup⟩, hseen,
          fun other hmem => (h other hmem).2⟩
      · rintro ⟨⟨hne, hnodup⟩, -, h⟩
        exact ⟨hnodup, fun other hmem => ⟨fun heq => hne other hmem heq, h other hmem⟩⟩

/-- Appending the same list again changes nothing. -/
theorem uniquePreserve_append_again (xs ys : List α) :
    uniquePreserve key (uniquePreserve key (xs ++ ys) ++ ys) = uniquePreserve key (xs ++ ys) := by
  have hkept : unique key [] (unique key [] (xs ++ ys)) = unique key [] (xs ++ ys) := by
    rw [unique_eq_self_iff]
    exact nodup_unique key [] (xs ++ ys)
  have hseen : ∀ y ∈ ys, key y ∈ (unique key [] (xs ++ ys)).map key ++ [] := by
    intro y hy
    have hmem : key y ∈ (xs ++ ys).map key :=
      mem_map_of_mem (mem_append_right _ hy)
    simpa using (mem_keys_unique key []).mpr (.inl hmem)
  unfold uniquePreserve
  rw [unique_append, hkept, unique_eq_nil key hseen, append_nil]

/-- A list appended to itself is kept as it is when its keys are distinct. -/
theorem uniquePreserve_append_self_iff (ys : List α) :
    uniquePreserve key (ys ++ ys) = ys ↔ (ys.map key).Nodup := by
  have hseen : ∀ y ∈ ys, key y ∈ ys.map key ++ [] := by
    intro y hy
    rw [append_nil]
    exact mem_map_of_mem hy
  unfold uniquePreserve
  rw [unique_append, unique_eq_nil key hseen, append_nil, unique_eq_self_iff]
  simp

end Distinct

/-! ## Values -/

/-- A value of a policy, as it is loaded. -/
inductive Value (κ σ : Type)
  | scalar (value : σ)
  | list (items : List (Value κ σ))
  | mapping (entries : List (κ × Value κ σ))

variable {κ σ τ : Type} [DecidableEq κ] [DecidableEq τ]

/-- The items of a mapping, in their order. -/
abbrev Entries (κ σ : Type) : Type := List (κ × Value κ σ)

mutual

/-- No mapping of a value has a key twice. -/
def Value.wellFormed : Value κ σ → Bool
  | .scalar _ => true
  | .list items => wellFormedItems items
  | .mapping entries => decide (entries.map Prod.fst).Nodup && wellFormedEntries entries

def wellFormedItems : List (Value κ σ) → Bool
  | [] => true
  | item :: items => item.wellFormed && wellFormedItems items

def wellFormedEntries : Entries κ σ → Bool
  | [] => true
  | entry :: entries => entry.2.wellFormed && wellFormedEntries entries

end

/-- A policy or an overlay. -/
structure Document (κ σ : Type) [DecidableEq κ] where
  value : Value κ σ
  wellFormed : value.wellFormed = true

/-- `result[key] = value`. -/
def assign (entries : Entries κ σ) (key : κ) (value : Value κ σ) : Entries κ σ :=
  match entries with
  | [] => [(key, value)]
  | entry :: entries =>
    if entry.1 = key then (key, value) :: entries else entry :: assign entries key value

mutual

/-- `deep_merge`. -/
def deepMerge (repr : Value κ σ → τ) : Value κ σ → Value κ σ → Value κ σ
  | .mapping base, .mapping overlay => .mapping (mergeEntries repr base overlay)
  | .list base, .list overlay => .list (uniquePreserve repr (base ++ overlay))
  | _, overlay => overlay

/-- The loop of `deep_merge` over the items of the overlay. -/
def mergeEntries (repr : Value κ σ → τ) : Entries κ σ → Entries κ σ → Entries κ σ
  | result, [] => result
  | result, (key, value) :: overlay =>
    match result.lookup key with
    | some old => mergeEntries repr (assign result key (deepMerge repr old value)) overlay
    | none => mergeEntries repr (assign result key value) overlay

end

mutual

/-- The lists of a value that are not elements of a list have no element twice. -/
def Value.distinct (repr : Value κ σ → τ) : Value κ σ → Bool
  | .scalar _ => true
  | .list items => decide (items.map repr).Nodup
  | .mapping entries => distinctEntries repr entries

def distinctEntries (repr : Value κ σ → τ) : Entries κ σ → Bool
  | [] => true
  | entry :: entries => entry.2.distinct repr && distinctEntries repr entries

end

mutual

/-- The lists of an overlay that are copied, because there is no list in their place, have no
element twice. -/
def copiesDistinct (repr : Value κ σ → τ) : Value κ σ → Value κ σ → Bool
  | .mapping base, .mapping overlay => copiesDistinctEntries repr base overlay
  | .list _, .list _ => true
  | _, overlay => overlay.distinct repr

def copiesDistinctEntries (repr : Value κ σ → τ) (base : Entries κ σ) : Entries κ σ → Bool
  | [] => true
  | (key, value) :: overlay =>
    (match base.lookup key with
      | some old => copiesDistinct repr old value
      | none => value.distinct repr) && copiesDistinctEntries repr base overlay

end

omit [DecidableEq κ] in
/-- Induction on a value, through the values of mappings. -/
theorem Value.induct {P : Value κ σ → Prop} (scalar : ∀ value, P (.scalar value))
    (list : ∀ items, P (.list items))
    (mapping : ∀ entries, (∀ entry ∈ entries, P entry.2) → P (.mapping entries)) :
    ∀ value, P value
  | .scalar value => scalar value
  | .list items => list items
  | .mapping entries => mapping entries fun entry _ => Value.induct scalar list mapping entry.2
termination_by value => sizeOf value
decreasing_by
  rename_i hentry
  have hlt := sizeOf_lt_of_mem hentry
  obtain ⟨key, value⟩ := entry
  simp only [Value.mapping.sizeOf_spec, Prod.mk.sizeOf_spec] at hlt ⊢
  omega

/-! ## Mappings -/

theorem lookup_cons (entries : Entries κ σ) (key other : κ) (value : Value κ σ) :
    ((key, value) :: entries : Entries κ σ).lookup other =
      if other = key then some value else entries.lookup other := by
  rw [List.lookup_cons]
  by_cases h : other = key
  · simp [h]
  · rw [if_neg h, beq_eq_false_iff_ne.mpr h]

variable {entries : Entries κ σ}

theorem lookup_eq_none {key : κ} (h : key ∉ entries.map Prod.fst) :
    entries.lookup key = none := by
  rw [lookup_eq_none_iff]
  intro entry hentry
  rw [bne_iff_ne]
  rintro rfl
  exact h (mem_map_of_mem hentry)

theorem assign_cons (entries : Entries κ σ) (entry : κ × Value κ σ) (key : κ) (value : Value κ σ) :
    assign (entry :: entries) key value =
      if entry.1 = key then (key, value) :: entries else entry :: assign entries key value := rfl

@[simp] theorem lookup_assign (entries : Entries κ σ) (key other : κ) (value : Value κ σ) :
    (assign entries key value).lookup other =
      if other = key then some value else entries.lookup other := by
  induction entries with
  | nil => rw [assign, lookup_cons]
  | cons entry entries ih =>
    obtain ⟨entryKey, entryValue⟩ := entry
    rw [assign_cons]
    by_cases hkey : entryKey = key
    · subst hkey
      rw [if_pos rfl, lookup_cons, lookup_cons]
      split <;> rfl
    · rw [if_neg hkey, lookup_cons, lookup_cons, ih]
      by_cases h : other = entryKey
      · rw [if_pos h, if_pos h, if_neg (h ▸ hkey)]
      · rw [if_neg h, if_neg h]

theorem mem_keys_assign (entries : Entries κ σ) (key other : κ) (value : Value κ σ) :
    other ∈ (assign entries key value).map Prod.fst ↔ other = key ∨ other ∈ entries.map Prod.fst := by
  induction entries with
  | nil => simp [assign]
  | cons entry entries ih =>
    rw [assign_cons]
    split
    · rename_i hkey
      simp only [map_cons, mem_cons, hkey]
      tauto
    · simp only [map_cons, mem_cons, ih]
      tauto

/-- The keys of a mapping keep their order. -/
theorem keys_assign_of_mem {key : κ} (value : Value κ σ) (h : key ∈ entries.map Prod.fst) :
    (assign entries key value).map Prod.fst = entries.map Prod.fst := by
  induction entries with
  | nil => cases h
  | cons entry entries ih =>
    rw [assign_cons]
    split
    · rename_i hkey
      simp [hkey]
    · rename_i hkey
      rcases mem_cons.mp (map_cons ▸ h) with rfl | hmem
      · exact absurd rfl hkey
      · simp [ih hmem]

theorem nodup_assign {key : κ} {value : Value κ σ}
    (h : (entries.map Prod.fst).Nodup) : ((assign entries key value).map Prod.fst).Nodup := by
  induction entries with
  | nil => simp [assign]
  | cons entry entries ih =>
    rw [map_cons, nodup_cons] at h
    rw [assign_cons]
    split
    · rename_i hkey
      rw [map_cons, nodup_cons]
      exact ⟨hkey ▸ h.1, h.2⟩
    · rename_i hkey
      rw [map_cons, nodup_cons, mem_keys_assign]
      refine ⟨?_, ih h.2⟩
      rintro (heq | hmem)
      · exact hkey heq
      · exact h.1 hmem

/-- The value of a key after the overlay. -/
def mergedValue (repr : Value κ σ → τ) : Option (Value κ σ) → Value κ σ → Value κ σ
  | some old, value => deepMerge repr old value
  | none, value => value

theorem mergeEntries_cons (repr : Value κ σ → τ) (result overlay : Entries κ σ) (key : κ)
    (value : Value κ σ) :
    mergeEntries repr result ((key, value) :: overlay) =
      mergeEntries repr (assign result key (mergedValue repr (result.lookup key) value)) overlay := by
  rw [mergeEntries]
  cases result.lookup key <;> rfl

variable {result overlay : Entries κ σ}

section

variable (repr : Value κ σ → τ)
include repr

theorem lookup_mergeEntries (key : κ) (h : (overlay.map Prod.fst).Nodup) :
    (mergeEntries repr result overlay).lookup key =
      match overlay.lookup key with
      | none => result.lookup key
      | some value => some (mergedValue repr (result.lookup key) value) := by
  induction overlay generalizing result with
  | nil => rfl
  | cons entry overlay ih =>
    obtain ⟨entryKey, value⟩ := entry
    rw [map_cons, nodup_cons] at h
    rw [mergeEntries_cons, ih h.2, lookup_cons]
    by_cases hkey : key = entryKey
    · subst hkey
      rw [lookup_eq_none h.1]
      simp
    · simp only [lookup_assign, if_neg hkey]

theorem mem_keys_mergeEntries {key : κ} :
    key ∈ (mergeEntries repr result overlay).map Prod.fst ↔
      key ∈ result.map Prod.fst ∨ key ∈ overlay.map Prod.fst := by
  induction overlay generalizing result with
  | nil => simp [mergeEntries]
  | cons entry overlay ih =>
    rw [mergeEntries_cons, ih, mem_keys_assign, map_cons, mem_cons]
    tauto

theorem nodup_mergeEntries (h : (result.map Prod.fst).Nodup) :
    ((mergeEntries repr result overlay).map Prod.fst).Nodup := by
  induction overlay generalizing result with
  | nil => exact h
  | cons entry overlay ih =>
    rw [mergeEntries_cons]
    exact ih (nodup_assign h)

/-- An overlay of known keys keeps the keys. -/
theorem keys_mergeEntries_of_subset
    (h : ∀ key ∈ overlay.map Prod.fst, key ∈ result.map Prod.fst) :
    (mergeEntries repr result overlay).map Prod.fst = result.map Prod.fst := by
  induction overlay generalizing result with
  | nil => rfl
  | cons entry overlay ih =>
    obtain ⟨key, value⟩ := entry
    have hkey := h key (mem_cons_self ..)
    rw [mergeEntries_cons, ih, keys_assign_of_mem _ hkey]
    intro other hother
    rw [keys_assign_of_mem _ hkey]
    exact h other (mem_cons_of_mem _ hother)

end

/-- Mappings with the same keys and values are the same. -/
theorem entries_ext {left right : Entries κ σ} (hkeys : left.map Prod.fst = right.map Prod.fst)
    (hnodup : (left.map Prod.fst).Nodup) (h : ∀ key, left.lookup key = right.lookup key) :
    left = right := by
  induction left generalizing right with
  | nil => exact (map_eq_nil_iff.mp hkeys.symm).symm
  | cons entry left ih =>
    cases right with
    | nil => cases hkeys
    | cons entry' right =>
      obtain ⟨key, value⟩ := entry
      obtain ⟨key', value'⟩ := entry'
      simp only [map_cons, List.cons.injEq] at hkeys
      obtain ⟨rfl, hkeys⟩ := hkeys
      rw [map_cons, nodup_cons] at hnodup
      have hvalue : value = value' := by
        have := h key
        simpa [lookup_cons] using this
      rw [hvalue, ih hkeys hnodup.2]
      intro other
      by_cases hother : other = key
      · have hleft : left.lookup other = none := lookup_eq_none (hother ▸ hnodup.1)
        have hright : right.lookup other = none := lookup_eq_none (hother ▸ hkeys ▸ hnodup.1)
        rw [hleft, hright]
      · have := h other
        simpa [lookup_cons, hother] using this

theorem lookup_eq_some_iff (h : (entries.map Prod.fst).Nodup) {key : κ}
    {value : Value κ σ} : entries.lookup key = some value ↔ (key, value) ∈ entries := by
  induction entries with
  | nil => simp
  | cons entry entries ih =>
    obtain ⟨entryKey, entryValue⟩ := entry
    rw [map_cons, nodup_cons] at h
    rw [lookup_cons, mem_cons, Prod.mk.injEq]
    by_cases hkey : key = entryKey
    · subst hkey
      have hnot : (key, value) ∉ entries := fun hmem =>
        h.1 (mem_map.mpr ⟨(key, value), hmem, rfl⟩)
      simp [hnot, eq_comm]
    · simp [hkey, ih h.2]

theorem wellFormedEntries_iff :
    wellFormedEntries entries = true ↔ ∀ entry ∈ entries, entry.2.wellFormed = true := by
  induction entries with
  | nil => simp [wellFormedEntries]
  | cons entry entries ih => simp [wellFormedEntries, ih]

omit [DecidableEq κ] in
theorem distinctEntries_iff {repr : Value κ σ → τ} :
    distinctEntries repr entries = true ↔ ∀ entry ∈ entries, entry.2.distinct repr = true := by
  induction entries with
  | nil => simp [distinctEntries]
  | cons entry entries ih => simp [distinctEntries, ih]

theorem copiesDistinctEntries_iff {repr : Value κ σ → τ} {base : Entries κ σ} :
    copiesDistinctEntries repr base overlay = true ↔ ∀ entry ∈ overlay,
      (match base.lookup entry.1 with
        | some old => copiesDistinct repr old entry.2
        | none => entry.2.distinct repr) = true := by
  induction overlay with
  | nil => simp [copiesDistinctEntries]
  | cons entry overlay ih =>
    obtain ⟨key, value⟩ := entry
    simp [copiesDistinctEntries, ih]

/-! ## Merging again -/

section

variable (repr : Value κ σ → τ)
include repr

/-- Mappings are merged again without a change when their values are. -/
theorem mergeEntries_again_iff {base : Entries κ σ}
    (hbase : (base.map Prod.fst).Nodup) (hoverlay : (overlay.map Prod.fst).Nodup) :
    mergeEntries repr (mergeEntries repr base overlay) overlay = mergeEntries repr base overlay ↔
      ∀ entry ∈ overlay,
        deepMerge repr (mergedValue repr (base.lookup entry.1) entry.2) entry.2 =
          mergedValue repr (base.lookup entry.1) entry.2 := by
  have hlookup : ∀ entry ∈ overlay, (mergeEntries repr base overlay).lookup entry.1 =
      some (mergedValue repr (base.lookup entry.1) entry.2) := by
    intro entry hentry
    rw [lookup_mergeEntries repr _ hoverlay, (lookup_eq_some_iff hoverlay).mpr hentry]
  constructor
  · intro h entry hentry
    have hagain := congrArg (fun entries => List.lookup entry.1 entries) h
    simp only [lookup_mergeEntries repr _ hoverlay,
      (lookup_eq_some_iff hoverlay).mpr (show (entry.1, entry.2) ∈ overlay from hentry)] at hagain
    exact Option.some.inj hagain
  · intro h
    have hsubset : ∀ key ∈ overlay.map Prod.fst,
        key ∈ (mergeEntries repr base overlay).map Prod.fst := fun key hkey =>
      (mem_keys_mergeEntries repr).mpr (.inr hkey)
    refine entries_ext (keys_mergeEntries_of_subset repr hsubset)
      (nodup_mergeEntries repr (nodup_mergeEntries repr hbase)) fun key => ?_
    rw [lookup_mergeEntries repr key hoverlay]
    cases hvalue : overlay.lookup key with
    | none => rfl
    | some value =>
      have hentry := (lookup_eq_some_iff hoverlay).mp hvalue
      simp only [hlookup _ hentry]
      exact congrArg some (h _ hentry)

/-- A mapping merged with itself. -/
theorem mergeEntries_self_iff (h : (entries.map Prod.fst).Nodup) :
    mergeEntries repr entries entries = entries ↔
      ∀ entry ∈ entries, deepMerge repr entry.2 entry.2 = entry.2 := by
  have hlookup : ∀ entry ∈ entries, entries.lookup entry.1 = some entry.2 := fun entry hentry =>
    (lookup_eq_some_iff h).mpr hentry
  constructor
  · intro hself entry hentry
    have hagain := congrArg (fun entries => List.lookup entry.1 entries) hself
    simp only [lookup_mergeEntries repr _ h, hlookup entry hentry] at hagain
    exact Option.some.inj hagain
  · intro hself
    refine entries_ext (keys_mergeEntries_of_subset repr fun key hkey => hkey)
      (nodup_mergeEntries repr h) fun key => ?_
    rw [lookup_mergeEntries repr key h]
    cases hvalue : entries.lookup key with
    | none => rfl
    | some value => exact congrArg some (hself _ ((lookup_eq_some_iff h).mp hvalue))

/-- A value merged with itself is the same when its lists are distinct. -/
theorem deepMerge_self_iff (value : Value κ σ)
    (h : value.wellFormed = true) :
    deepMerge repr value value = value ↔ value.distinct repr = true := by
  induction value using Value.induct with
  | scalar value => simp [deepMerge, Value.distinct]
  | list items =>
    simp only [deepMerge, Value.distinct, Value.list.injEq, decide_eq_true_eq]
    exact uniquePreserve_append_self_iff repr items
  | mapping entries ih =>
    simp only [Value.wellFormed, Bool.and_eq_true, decide_eq_true_eq,
      wellFormedEntries_iff] at h
    simp only [deepMerge, Value.distinct, Value.mapping.injEq, distinctEntries_iff,
      mergeEntries_self_iff repr h.1]
    constructor
    · intro hself entry hentry
      exact (ih entry hentry (h.2 entry hentry)).mp (hself entry hentry)
    · intro hdistinct entry hentry
      exact (ih entry hentry (h.2 entry hentry)).mpr (hdistinct entry hentry)

theorem deepMerge_again_iff (base overlay : Value κ σ)
    (hbase : base.wellFormed = true) (hoverlay : overlay.wellFormed = true) :
    deepMerge repr (deepMerge repr base overlay) overlay = deepMerge repr base overlay ↔
      copiesDistinct repr base overlay = true := by
  induction overlay using Value.induct generalizing base with
  | scalar value =>
    cases base with
    | scalar old => exact deepMerge_self_iff repr (.scalar value) hoverlay
    | list base => exact deepMerge_self_iff repr (.scalar value) hoverlay
    | mapping base => exact deepMerge_self_iff repr (.scalar value) hoverlay
  | list items =>
    cases base with
    | list base =>
      simp only [deepMerge, copiesDistinct, Value.list.injEq, iff_true]
      exact uniquePreserve_append_again repr base items
    | scalar value => exact deepMerge_self_iff repr (.list items) hoverlay
    | mapping entries => exact deepMerge_self_iff repr (.list items) hoverlay
  | mapping overlay ih =>
    cases base with
    | scalar value => exact deepMerge_self_iff repr (.mapping overlay) hoverlay
    | list items => exact deepMerge_self_iff repr (.mapping overlay) hoverlay
    | mapping base =>
      simp only [Value.wellFormed, Bool.and_eq_true, decide_eq_true_eq,
        wellFormedEntries_iff] at hbase hoverlay
      simp only [deepMerge, copiesDistinct, Value.mapping.injEq, copiesDistinctEntries_iff,
        mergeEntries_again_iff repr hbase.1 hoverlay.1]
      refine forall₂_congr fun entry hentry => ?_
      cases hold : base.lookup entry.1 with
      | none => exact deepMerge_self_iff repr entry.2 (hoverlay.2 entry hentry)
      | some old =>
        have hmem := (lookup_eq_some_iff hbase.1).mp hold
        exact ih entry hentry old (hbase.2 _ hmem) (hoverlay.2 entry hentry)

end

/-- Merging an overlay a second time changes nothing, exactly if every list of the overlay
that is copied whole has no element twice. -/
theorem overlay_merged_again_iff (repr : Value κ σ → τ) (base overlay : Document κ σ) :
    deepMerge repr (deepMerge repr base.value overlay.value) overlay.value =
        deepMerge repr base.value overlay.value ↔
      copiesDistinct repr base.value overlay.value = true :=
  deepMerge_again_iff repr base.value overlay.value base.wellFormed overlay.wellFormed

/-- A list of the overlay that the policy does not have keeps its repetition, and loses it
when the overlay is merged again. -/
theorem copied_list_repeats :
    ∃ (repr : Value String ℕ → List ℕ) (base overlay : Document String ℕ),
      deepMerge repr base.value overlay.value =
          .mapping [("ports", .list [.scalar 22, .scalar 22])] ∧
        deepMerge repr (deepMerge repr base.value overlay.value) overlay.value =
          .mapping [("ports", .list [.scalar 22])] := by
  let digits : Value String ℕ → List ℕ := fun value =>
    match value with
    | .scalar number => [number]
    | _ => []
  exact ⟨digits, ⟨.mapping [], by decide⟩,
    ⟨.mapping [("ports", .list [.scalar 22, .scalar 22])], by decide⟩, rfl, rfl⟩

end Preseed.Nftables.Overlay
