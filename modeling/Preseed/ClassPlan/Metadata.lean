import Preseed.ClassPlan.Records
import Preseed.ClassPlan.RoundTrip

/-!
# Looking class metadata up

The cache answers every field of every record with its value exactly when the texts of
the plan are plain and records whose sections share a token agree.
-/

namespace Preseed.ClassPlan

open List

variable {p : Program} {state : Text → Field → Text} {header : Header} {var x : Text}

/-- Every field of every record is found with its value, or absent when it is empty. -/
def Faithful (p : Program) (cache : Text → Option Text) : Prop :=
  ∀ r ∈ p.records, ∀ f ∈ r.header.fields, iniGet cache r.header.sectionName f.key.toList =
    if r.values f = [] then none else some (r.values f)

/-- No name of a record has a tab. -/
def NamesPlain (records : List Record) : Prop := ∀ r ∈ records, '\t' ∉ r.header.sectionName

/-- No value has a tab or is taken for an empty cell, and records with the same section token
agree. -/
structure Separable (records : List Record) : Prop where
  values : ∀ r ∈ records, ∀ f ∈ r.header.fields, '\t' ∉ r.values f ∧ r.values f ≠ emptyCell
  agree : ∀ r ∈ records, ∀ r' ∈ records,
    nameToken r.header.sectionName = nameToken r'.header.sectionName →
      ∀ f ∈ r.header.fields, r.values f = r'.values f

/-- A cell is read as its value, unless the value is the placeholder. -/
theorem planFieldValue_planCell {value : Text} (h : value ≠ emptyCell) :
    planFieldValue (planCell value) = value := by
  unfold planCell planFieldValue
  by_cases hv : value = []
  · rw [if_pos hv, if_pos rfl, hv]
  · rw [if_neg hv, if_neg h]

theorem planCell_ne_nil (value : Text) : planCell value ≠ [] := by
  unfold planCell
  split
  · decide
  · assumption

theorem planCell_plain {value : Text} (h : '\t' ∉ value) : '\t' ∉ planCell value := by
  unfold planCell
  split
  · decide
  · exact h

/-- What a record's line assigns, when its cells are read back. -/
theorem mem_setFields (hstate : ∀ f ∈ header.fields,
      state header.sectionName f ≠ emptyCell) (extra : List Text) :
    (var, x) ∈ setFields header
        ((header.fields.map fun f => planCell (state header.sectionName f)) ++ extra) ↔
      ∃ f ∈ header.fields, var = valueVarName header.sectionName f.key.toList ∧
        x = state header.sectionName f ∧ x ≠ [] := by
  have hzip : header.fields.zip
      ((header.fields.map fun f => planCell (state header.sectionName f)) ++ extra) =
        header.fields.map fun f => (f, planCell (state header.sectionName f)) := by
    rw [← append_nil header.fields, map_append, append_assoc,
      zip_append (by simp)]
    simp only [zip_nil_left, append_nil]
    induction header.fields with
    | nil => rfl
    | cons f fields ih => simpa using ih
  unfold setFields
  rw [hzip, flatMap_map, mem_flatMap]
  refine exists_congr fun f => and_congr_right fun hf => ?_
  dsimp only
  rw [planFieldValue_planCell (hstate f hf)]
  unfold maybeSetValue
  split
  case isTrue hnil =>
    simp only [not_mem_nil, hnil, false_iff]
    rintro ⟨-, rfl, hne⟩
    exact hne rfl
  case isFalse hne =>
    simp only [mem_singleton, Prod.mk.injEq]
    exact and_congr_right fun _ => ⟨fun hx => ⟨hx, hx ▸ hne⟩, fun hx => hx.1⟩

/-- The line of a record with plain texts is read as its cells. -/
theorem cacheLine_record (hnamed : header.Named) (hname : '\t' ∉ header.sectionName)
    (hstate : ∀ f ∈ header.fields, '\t' ∉ state header.sectionName f) :
    ∃ extra, cacheLine (printCells (planCells state header)) = setFields header
      ((header.fields.map fun f => planCell (state header.sectionName f)) ++ extra) := by
  have hcells : ∀ cell ∈ header.fields.map fun f => planCell (state header.sectionName f),
      cell ≠ [] ∧ '\t' ∉ cell := by
    intro cell hcell
    obtain ⟨f, hf, rfl⟩ := mem_map.mp hcell
    exact ⟨planCell_ne_nil _, planCell_plain (hstate f hf)⟩
  unfold cacheLine
  cases header with
  | group name =>
    have hplain : '\t' ∉ name := fun h => hname (mem_append_right _ h)
    rw [readVariables_printCells (by simp [planCells, Header.fields])]
    · refine ⟨List.replicate 10 [], ?_⟩
      change (if _ then _ else if _ then if name = [] then [] else _ else _) = _
      rw [if_neg (by decide), if_pos rfl, if_neg hnamed]
      rfl
    · intro cell hcell
      rcases mem_append.mp hcell with hcell | hcell
      · simp only [mem_cons, not_mem_nil, or_false] at hcell
        rcases hcell with rfl | rfl
        · exact ⟨by decide, by decide⟩
        · exact ⟨hnamed, hplain⟩
      · exact hcells cell hcell
  | cls groupName className =>
    have hgroup : '\t' ∉ groupName := fun h =>
      hname (mem_append_left _ (mem_append_right _ h))
    have hclass : '\t' ∉ className := fun h =>
      hname (mem_append_right _ (mem_cons_of_mem _ h))
    rw [readVariables_printCells (by simp [planCells, Header.fields])]
    · refine ⟨[], ?_⟩
      change (if _ then _ else if _ then _ else if _ then
        if groupName = [] ∨ className = [] then [] else _ else _) = _
      rw [if_neg (by decide), if_neg (by decide), if_pos rfl, if_neg (not_or.mpr hnamed)]
      rfl
    · intro cell hcell
      rcases mem_append.mp hcell with hcell | hcell
      · simp only [mem_cons, not_mem_nil, or_false] at hcell
        rcases hcell with rfl | rfl | rfl
        · exact ⟨by decide, by decide⟩
        · exact ⟨hnamed.1, hgroup⟩
        · exact ⟨hnamed.2, hclass⟩
      · exact hcells cell hcell

/-- The manifest lines assign variables of the manifest only. -/
theorem cacheLine_manifest {rest : Text}
    (h : (var, x) ∈ cacheLine ("manifest".toList ++ '\t' :: rest)) :
    ∃ key, var = valueVarName "manifest".toList key := by
  unfold cacheLine at h
  have hkind : ∃ a b cells, readVariables 18 ("manifest".toList ++ '\t' :: rest) =
      "manifest".toList :: a :: b :: cells := ⟨_, _, _, rfl⟩
  obtain ⟨a, b, cells, hvars⟩ := hkind
  rw [hvars] at h
  simp only [if_true] at h
  unfold maybeSetValue at h
  split at h
  · cases h
  · obtain ⟨rfl, -⟩ := Prod.mk.inj (mem_singleton.mp h)
    exact ⟨a, rfl⟩

/-- A record has no variable of the manifest. -/
theorem valueVarName_manifest (header : Header) (key key' : Text) :
    valueVarName header.sectionName key ≠ valueVarName "manifest".toList key' := by
  unfold valueVarName
  generalize "INSTALLER_CLASSES_VALUE__".toList = start
  rw [append_assoc, append_assoc]
  intro h
  have hhead := congrArg List.head? (append_cancel_left h)
  cases header <;> cases hhead

/-! ### What a line can assign -/

/-- A value that is read from a cell is not the placeholder, and it has no tab unless it is the
last one. -/
theorem setFields_plain {cells : List Text}
    (hcells : ∀ (i : ℕ) (f : Field) (cell : Text), header.fields[i]? = some f →
      cells[i]? = some cell → f ≠ .debianAptPreferences → '\t' ∉ cell)
    (h : (var, x) ∈ setFields header cells) :
    ∃ f : Field, var = valueVarName header.sectionName f.key.toList ∧ x ≠ [] ∧ x ≠ emptyCell ∧
      (f ≠ .debianAptPreferences → '\t' ∉ x) := by
  obtain ⟨⟨f, cell⟩, hmem, hset⟩ := mem_flatMap.mp h
  obtain ⟨i, hi⟩ := mem_iff_getElem?.mp hmem
  obtain ⟨hf, hcell⟩ := getElem?_zip_eq_some.mp hi
  dsimp only at hset
  unfold maybeSetValue at hset
  split at hset
  · cases hset
  rename_i hne
  obtain ⟨rfl, rfl⟩ := Prod.mk.inj (mem_singleton.mp hset)
  unfold planFieldValue at hne ⊢
  split at hne
  · exact absurd rfl hne
  rename_i hempty
  rw [if_neg hempty]
  exact ⟨f, rfl, hne, hempty, hcells i f cell hf hcell⟩

/-- What any line of a plan can assign. -/
theorem cacheLine_plain {line : Text} (h : (var, x) ∈ cacheLine line) :
    (∃ key, var = valueVarName "manifest".toList key) ∨
      ∃ (header : Header) (f : Field), var = valueVarName header.sectionName f.key.toList ∧
        x ≠ [] ∧ x ≠ emptyCell ∧ (f ≠ .debianAptPreferences → '\t' ∉ x) := by
  unfold cacheLine at h
  split at h
  case h_2 => cases h
  rename_i kind a b cells hvars
  have hplain : ∀ i cell, i + 1 < 18 → (kind :: a :: b :: cells)[i]? = some cell → '\t' ∉ cell :=
    fun i cell hi hcell => readVariables_plain hi (hvars ▸ hcell)
  split at h
  · unfold maybeSetValue at h
    split at h
    · cases h
    · obtain ⟨rfl, -⟩ := Prod.mk.inj (mem_singleton.mp h)
      exact .inl ⟨a, rfl⟩
  split at h
  · split at h
    · cases h
    refine .inr ⟨.group a, setFields_plain (fun i f cell hf hcell _ => ?_) h⟩
    have hi : i < 6 := (List.getElem?_eq_some_iff.mp hf).1
    exact hplain (i + 2) cell (by omega) (by simpa using hcell)
  split at h
  · split at h
    · cases h
    refine .inr ⟨.cls a b, setFields_plain (fun i f cell hf hcell hne => ?_) h⟩
    have hi : i < 15 := (List.getElem?_eq_some_iff.mp hf).1
    have hlast : i ≠ 14 := by
      rintro rfl
      exact hne (Option.some.inj hf).symm
    exact hplain (i + 3) cell (by omega) (by simpa using hcell)
  · cases h

/-! ### The whole plan -/

/-- The lines of the plan. -/
theorem mem_emitPlan {manifest : Manifest} {line : Text} (h : line ∈ emitPlan manifest p) :
    (∃ rest, line = "manifest".toList ++ '\t' :: rest) ∨
      ∃ r ∈ p.records, line = printCells (planCells p.state r.header) := by
  unfold emitPlan at h
  rcases mem_append.mp h with h | h
  · rcases mem_append.mp h with h | h <;> split at h
    · cases h
    · exact .inl ⟨_, mem_singleton.mp h⟩
    · cases h
    · exact .inl ⟨_, mem_singleton.mp h⟩
  · obtain ⟨r, hr, rfl⟩ := mem_map.mp h
    refine .inr ⟨r, ?_, rfl⟩
    rcases mem_append.mp hr with hr | hr <;> exact mem_of_mem_filter hr

/-- Every record has its line. -/
theorem record_mem_emitPlan {manifest : Manifest} {r : Record} (hr : r ∈ p.records) :
    printCells (planCells p.state r.header) ∈ emitPlan manifest p := by
  refine mem_append_right _ (mem_map_of_mem (mem_append.mpr ?_))
  cases hgroup : r.header.isGroup with
  | true => exact .inl (mem_filter.mpr ⟨hr, hgroup⟩)
  | false => exact .inr (mem_filter.mpr ⟨hr, by simp [hgroup]⟩)

/-- Records that agree leave their own values stored. -/
theorem state_eq (hp : p.Parsed) (hs : Separable p.records) {r : Record} (hr : r ∈ p.records)
    {f : Field} (hf : f ∈ r.header.fields) : p.state r.header.sectionName f = r.values f := by
  by_cases hstate : p.state r.header.sectionName f = []
  · rw [hstate]
    by_contra hne
    exact hp.kept r hr f hf (Ne.symm hne) hstate
  · obtain ⟨r', hr', hsection, -, hvalue⟩ := hp.stored _ f hstate
    rw [hvalue]
    exact (hs.agree r hr r' hr' (by rw [hsection]) f hf).symm

/-- Plain names and separable records are enough. -/
theorem faithful_of_separable (hp : p.Parsed) (hnames : NamesPlain p.records)
    (hs : Separable p.records) (manifest : Manifest) :
    Faithful p (cacheEnsure (emitPlan manifest p)) := by
  intro r hr f hf
  have hline : ∀ r ∈ p.records, ∃ extra, cacheLine (printCells (planCells p.state r.header)) =
      setFields r.header
        ((r.header.fields.map fun f => planCell (p.state r.header.sectionName f)) ++ extra) :=
    fun r hr => cacheLine_record (hp.named r hr) (hnames r hr) fun f hf => by
      rw [state_eq hp hs hr hf]
      exact (hs.values r hr f hf).1
  have hempty : ∀ r ∈ p.records, ∀ f ∈ r.header.fields,
      p.state r.header.sectionName f ≠ emptyCell := fun r hr f hf => by
    rw [state_eq hp hs hr hf]
    exact (hs.values r hr f hf).2
  -- Whatever is assigned to the variable is the value of the field.
  have hassigned : ∀ x, (valueVarName r.header.sectionName f.key.toList, x) ∈
      (emitPlan manifest p).flatMap cacheLine → x = r.values f ∧ x ≠ [] := by
    intro x hx
    obtain ⟨line, hin, hset⟩ := mem_flatMap.mp hx
    rcases mem_emitPlan hin with ⟨rest, rfl⟩ | ⟨r', hr', rfl⟩
    · obtain ⟨key, hkey⟩ := cacheLine_manifest hset
      exact absurd hkey (valueVarName_manifest _ _ _)
    · obtain ⟨extra, hextra⟩ := hline r' hr'
      rw [hextra, mem_setFields (hempty r' hr')] at hset
      obtain ⟨f', hf', hvar, rfl, hne⟩ := hset
      obtain ⟨htoken, rfl⟩ := valueVarName_inj hvar
      rw [state_eq hp hs hr' hf'] at hne ⊢
      exact ⟨(hs.agree r hr r' hr' htoken f hf).symm, hne⟩
  unfold iniGet cacheEnsure
  split
  case isTrue hnil =>
    rw [foldl_update_of_not_mem]
    intro x hx
    obtain ⟨rfl, hne⟩ := hassigned x hx
    exact hne hnil
  case isFalse hne =>
    refine foldl_update_of_forall (fun x hx => (hassigned x hx).1) fun hnot => absurd ?_ hnot
    refine mem_flatMap.mpr ⟨_, record_mem_emitPlan hr, ?_⟩
    obtain ⟨extra, hextra⟩ := hline r hr
    rw [hextra, mem_setFields (hempty r hr)]
    exact ⟨f, hf, rfl, (state_eq hp hs hr hf).symm, hne⟩

/-- A faithful cache needs separable records. -/
theorem separable_of_faithful (hp : p.Parsed) {manifest : Manifest}
    (h : Faithful p (cacheEnsure (emitPlan manifest p))) : Separable p.records := by
  refine ⟨fun r hr f hf => ?_, fun r hr r' hr' htoken f hf => ?_⟩
  · by_cases hnil : r.values f = []
    · rw [hnil]
      exact ⟨by simp, by decide⟩
    · have hfound := h r hr f hf
      rw [if_neg hnil] at hfound
      obtain ⟨line, -, hset⟩ := mem_flatMap.mp (mem_of_foldl_update hfound)
      rcases cacheLine_plain hset with ⟨key, hkey⟩ | ⟨header, f', hvar, -, hempty, htab⟩
      · exact absurd hkey (valueVarName_manifest _ _ _)
      · obtain ⟨-, rfl⟩ := valueVarName_inj hvar
        refine ⟨?_, hempty⟩
        by_cases hlast : f = .debianAptPreferences
        · subst hlast
          exact hp.words r hr _ rfl
        · exact htab hlast
  · have hkind : f ∈ r'.header.fields := by
      cases hr : r.header <;> cases hr' : r'.header <;> simp only [hr, hr'] at htoken hf ⊢ <;>
        first | exact hf | cases htoken
    have hfound := h r hr f hf
    have hfound' := h r' hr' f hkind
    unfold iniGet valueVarName at hfound hfound'
    rw [htoken, hfound'] at hfound
    by_cases hnil : r.values f = [] <;> by_cases hnil' : r'.values f = [] <;>
      simp_all

/-- Class metadata survives the plan cache exactly when the records are separable, unless a name
has a tab; then it needs separable records at least. -/
theorem class_metadata_survives {installConf : List Text} {configs : List (Text × List Text)}
    {plan : List Text} (h : generateClassPlan installConf configs = .ok (p, plan)) :
    (NamesPlain p.records → Separable p.records → Faithful p (cacheEnsure plan)) ∧
      (Faithful p (cacheEnsure plan) → Separable p.records) := by
  obtain ⟨hp, manifest, rfl⟩ := generateClassPlan_ok h
  exact ⟨fun hnames hs => faithful_of_separable hp hnames hs manifest,
    fun hf => separable_of_faithful hp hf⟩

/-- A group with one class. -/
def cpuConfig : Text × List Text :=
  ("configs/cpu.cfg".toList, ["Type: group".toList, "Name: cpu".toList, [],
    "Type: class".toList, "Group: cpu".toList, "Name: amd-5950x".toList,
    "Requires-Classes: hw/amd, hw/x570".toList])

theorem class_metadata_survives_cpu :
    ∃ p plan, generateClassPlan [] [cpuConfig] = .ok (p, plan) ∧ p.records.length = 2 ∧
      Faithful p (cacheEnsure plan) := by
  have hrun : (generateClassPlan [] [cpuConfig]).toOption.map (fun result =>
        result.1.records.map fun r => (r.header, r.header.fields.map r.values)) =
      some [(.group "cpu".toList, List.replicate 6 []),
        (.cls "cpu".toList "amd-5950x".toList,
          List.replicate 13 [] ++ ["hw/amd hw/x570".toList, []])] := by
    decide +kernel
  cases hplan : generateClassPlan [] [cpuConfig] with
  | error e => simp [hplan, Except.toOption] at hrun
  | ok result =>
    obtain ⟨p, plan⟩ := result
    rw [hplan] at hrun
    simp only [Except.toOption, Option.map_some, Option.some.injEq] at hrun
    obtain ⟨r, r', hp⟩ : ∃ r r', p.records = [r, r'] :=
      List.length_eq_two.mp (by simpa using congrArg List.length hrun)
    have hmem : ∀ r₀ ∈ p.records, r₀ = r ∨ r₀ = r' := by simp [hp]
    simp only [hp, List.map_cons, List.map_nil, List.cons.injEq, Prod.mk.injEq, and_true] at hrun
    obtain ⟨⟨hr, hvalues⟩, hr', hvalues'⟩ := hrun
    have hplain : ∀ v ∈ List.replicate 13 [] ++ ["hw/amd hw/x570".toList, []],
        '\t' ∉ v ∧ v ≠ emptyCell := by
      decide +kernel
    have htokens : nameToken r.header.sectionName ≠ nameToken r'.header.sectionName := by
      rw [hr, hr']
      decide +kernel
    refine ⟨p, plan, rfl, by rw [hp]; rfl, (class_metadata_survives hplan).1 ?_ ⟨?_, ?_⟩⟩
    · intro r₀ hr₀
      rcases hmem r₀ hr₀ with rfl | rfl
      · rw [hr]
        decide +kernel
      · rw [hr']
        decide +kernel
    · intro r₀ hr₀ f hf
      have hin := List.mem_map_of_mem (f := r₀.values) hf
      rcases hmem r₀ hr₀ with rfl | rfl
      · rw [hvalues] at hin
        rw [List.eq_of_mem_replicate hin]
        exact hplain [] (List.mem_append_left _ (List.mem_replicate.mpr ⟨by omega, rfl⟩))
      · rw [hvalues'] at hin
        exact hplain _ hin
    · intro r₁ hr₁ r₂ hr₂ htoken f _
      rcases hmem r₁ hr₁ with rfl | rfl <;> rcases hmem r₂ hr₂ with rfl | rfl
      · rfl
      · exact absurd htoken htokens
      · exact absurd htoken.symm htokens
      · rfl

/-- Two classes whose names differ in a punctuation mark only. -/
def clashingConfig : Text × List Text :=
  ("configs/g.cfg".toList, ["Type: class".toList, "Group: g".toList, "Name: a-b".toList,
    "Description: x".toList, [], "Type: class".toList, "Group: g".toList, "Name: a_b".toList,
    "Description: y".toList])

theorem clashing_class_misread : ¬ ∀ installConf configs p plan,
    generateClassPlan installConf configs = .ok (p, plan) → Faithful p (cacheEnsure plan) := by
  have hrun : (generateClassPlan [] [clashingConfig]).toOption.map (fun result =>
        (result.1.records.map fun r => (r.header, r.values .description),
          iniGet (cacheEnsure result.2) "class.g.a-b".toList "description".toList)) =
      some ([(.cls ['g'] "a-b".toList, ['x']), (.cls ['g'] "a_b".toList, ['y'])],
        some ['y']) := by
    decide +kernel
  intro hall
  cases hplan : generateClassPlan [] [clashingConfig] with
  | error e => simp [hplan, Except.toOption] at hrun
  | ok result =>
    obtain ⟨p, plan⟩ := result
    rw [hplan] at hrun
    simp only [Except.toOption, Option.map_some, Option.some.injEq, Prod.mk.injEq] at hrun
    obtain ⟨hrecords, hfound⟩ := hrun
    match hp : p.records, hrecords with
    | r :: _, hrecords =>
      obtain ⟨hr, hvalue⟩ := Prod.mk.inj (List.cons.inj hrecords).1
      have h := hall _ _ p plan hplan r (by rw [hp]; exact List.mem_cons_self) .description
        (by rw [hr]; decide)
      rw [hr, hvalue] at h
      exact absurd (hfound.symm.trans h) (by decide)

end Preseed.ClassPlan
