import Preseed.ClassPlan.Cache

/-!
# The records of an accepted configuration

What is stored under a section comes from the records of that section, the last non-empty
value of each field.
-/

namespace Preseed.ClassPlan

variable {p p' : Program}

/-- Its names are not empty. -/
def Header.Named : Header → Prop
  | group name => name ≠ []
  | cls groupName className => groupName ≠ [] ∧ className ≠ []

/-- Squeezed text has no tab. -/
theorem squeeze_plain (blank : Bool) (value : Text) : '\t' ∉ squeeze blank value := by
  induction value generalizing blank with
  | nil => simp [squeeze]
  | cons c value ih =>
    unfold squeeze
    split
    · split
      · exact ih true
      · simp [ih]
    · rename_i hspace
      rw [List.mem_cons, not_or]
      refine ⟨?_, ih false⟩
      rintro rfl
      exact hspace (by decide)

/-- Storing fields changes the section of the record only. -/
theorem foldl_stateSet (fields : List Field) (values : Field → Text) (sec : Text)
    (state : Text → Field → Text) (s : Text) (f : Field) :
    fields.foldl (fun state field => stateSet state sec field (values field)) state s f =
      if s = sec ∧ f ∈ fields ∧ values f ≠ [] then values f else state s f := by
  induction fields generalizing state with
  | nil => simp
  | cons field fields ih =>
    rw [List.foldl_cons, ih]
    unfold stateSet
    by_cases hs : s = sec
    · subst hs
      by_cases hf : f = field
      · subst hf
        by_cases hv : values f = [] <;> simp [hv]
      · by_cases hv : values field = [] <;> simp [hv, hf]
    · by_cases hv : values field = [] <;> simp [hv, hs]

/-- What the program knows about its records. -/
structure Program.Parsed (p : Program) : Prop where
  named : ∀ r ∈ p.records, r.header.Named
  /-- Word lists have no tab. -/
  words : ∀ r ∈ p.records, ∀ f, f.isWordList = true → '\t' ∉ r.values f
  draft : ∀ f, f.isWordList = true → '\t' ∉ p.values f
  /-- What is stored comes from a record of the section. -/
  stored : ∀ s f, p.state s f ≠ [] → ∃ r ∈ p.records, r.header.sectionName = s ∧
    f ∈ r.header.fields ∧ p.state s f = r.values f
  /-- A value of a record leaves something stored. -/
  kept : ∀ r ∈ p.records, ∀ f ∈ r.header.fields, r.values f ≠ [] →
    p.state r.header.sectionName f ≠ []

/-- A record is finished, if there is one. -/
theorem finalizeRecord_ok (h : finalizeRecord p = .ok p') :
    p' = p ∨ ∃ header : Header, header.Named ∧ p' = (p.store ⟨header, p.values⟩).recordReset := by
  unfold finalizeRecord at h
  dsimp only at h
  split at h
  · cases h
    exact .inl rfl
  split at h
  · split at h
    · cases h
    rename_i hname
    split at h
    · cases h
    split at h
    · cases h
    · cases h
      exact .inr ⟨.group _, hname, rfl⟩
  split at h
  · split at h
    · cases h
    rename_i hgroup
    split at h
    · cases h
    rename_i hname
    split at h
    · cases h
    · cases h
      exact .inr ⟨.cls _ _, ⟨hgroup, hname⟩, rfl⟩
  · cases h

namespace Program.Parsed

theorem begin : Program.begin.Parsed := by
  constructor <;> simp [Program.begin]

/-- A place in a file is not part of it. -/
theorem moved (h : p.Parsed) (path : Text) (line : ℕ) :
    Parsed { p with path := path, line := line } :=
  ⟨h.named, h.words, h.draft, h.stored, h.kept⟩

theorem finalize (h : p.Parsed) (hp : finalizeRecord p = .ok p') : p'.Parsed := by
  rcases finalizeRecord_ok hp with rfl | ⟨header, hnamed, rfl⟩
  · exact h
  have hstate : ∀ s f, ((p.store ⟨header, p.values⟩).recordReset).state s f =
      if s = header.sectionName ∧ f ∈ header.fields ∧ p.values f ≠ [] then p.values f
      else p.state s f :=
    foldl_stateSet header.fields p.values header.sectionName p.state
  have hrecords : ∀ r, r ∈ ((p.store ⟨header, p.values⟩).recordReset).records ↔
      r ∈ p.records ∨ r = ⟨header, p.values⟩ := by
    simp [Program.recordReset, Program.store]
  refine ⟨fun r hr => ?_, fun r hr => ?_, fun f _ => by simp [Program.recordReset], ?_, ?_⟩
  · rcases (hrecords r).1 hr with hr | rfl
    · exact h.named r hr
    · exact hnamed
  · rcases (hrecords r).1 hr with hr | rfl
    · exact h.words r hr
    · exact h.draft
  · intro s f hne
    rw [hstate] at hne ⊢
    split
    case isTrue hcond =>
      exact ⟨⟨header, p.values⟩, (hrecords _).2 (.inr rfl), hcond.1.symm, hcond.2.1, rfl⟩
    case isFalse hcond =>
      rw [if_neg hcond] at hne
      obtain ⟨r, hr, hrest⟩ := h.stored s f hne
      exact ⟨r, (hrecords r).2 (.inl hr), hrest⟩
  · intro r hr f hf hne
    rw [hstate]
    split
    case isTrue hcond => exact hcond.2.2
    case isFalse hcond =>
      rcases (hrecords r).1 hr with hr | rfl
      · exact h.kept r hr f hf hne
      · exact absurd ⟨rfl, hf, hne⟩ hcond

theorem assignField (h : p.Parsed) {fieldName fieldValue : Text}
    (hp : recordAssignField p fieldName fieldValue = .ok p') : p'.Parsed := by
  unfold recordAssignField at hp
  dsimp only at hp
  split at hp
  · cases hp
  rename_i field _
  split at hp
  · cases hp
  cases hp
  refine ⟨h.named, h.words, fun f hf => ?_, h.stored, h.kept⟩
  by_cases heq : f = field
  · subst heq
    simp only [Function.update_self, normalizeFieldValue, hf, if_true, normalizeWordList]
    exact squeeze_plain _ _
  · simp only [Function.update_of_ne heq]
    exact h.draft f hf

theorem line (h : p.Parsed) {path text : Text} (hp : parseLine path p text = .ok p') :
    p'.Parsed := by
  have hmoved := h.moved p.path (p.line + 1)
  unfold parseLine at hp
  dsimp only at hp
  split at hp
  · exact hmoved.finalize hp
  split at hp
  · cases hp
    exact hmoved
  split at hp
  · exact hmoved.assignField hp
  · cases hp

/-- A loop keeps what its body keeps. -/
theorem foldlM {α : Type} {body : Program → α → Except String Program}
    (hbody : ∀ p a p', Parsed p → body p a = .ok p' → Parsed p') {xs : List α} (h : p.Parsed)
    (hp : xs.foldlM body p = .ok p') : p'.Parsed := by
  induction xs generalizing p with
  | nil =>
    cases hp
    exact h
  | cons x xs ih =>
    rw [List.foldlM_cons] at hp
    cases hx : body p x with
    | error e =>
      rw [hx] at hp
      cases hp
    | ok p₁ =>
      rw [hx] at hp
      exact ih (hbody p x p₁ h hx) hp

theorem configFile (h : p.Parsed) {file : Text × List Text}
    (hp : parseConfigFile p file = .ok p') : p'.Parsed := by
  unfold parseConfigFile at hp
  cases hlines : file.2.foldlM (parseLine file.1) { p with path := file.1, line := 0 } with
  | error e =>
    rw [hlines] at hp
    cases hp
  | ok p₁ =>
    rw [hlines] at hp
    exact (foldlM (fun _ _ _ h hp => h.line hp) (h.moved _ _) hlines).finalize hp

end Program.Parsed

/-- An accepted configuration, with its plan. -/
theorem generateClassPlan_ok {installConf : List Text} {configs : List (Text × List Text)}
    {plan : List Text} (h : generateClassPlan installConf configs = .ok (p, plan)) :
    p.Parsed ∧ ∃ manifest, plan = emitPlan manifest p := by
  unfold generateClassPlan at h
  simp only [bind, Except.bind, pure, Except.pure] at h
  cases hmanifest : parseInstallConf installConf with
  | error e => simp [hmanifest] at h
  | ok manifest =>
    simp only [hmanifest] at h
    split at h
    · cases h
    cases hfiles : configs.foldlM parseConfigFile Program.begin with
    | error e => simp [hfiles] at h
    | ok p₁ =>
      simp only [hfiles] at h
      cases hlast : finalizeRecord p₁ with
      | error e => simp [hlast] at h
      | ok p₂ =>
        simp only [hlast, Except.ok.injEq, Prod.mk.injEq] at h
        obtain ⟨rfl, rfl⟩ := h
        have hparsed := Program.Parsed.foldlM (fun _ _ _ h hp => h.configFile hp)
          Program.Parsed.begin hfiles
        exact ⟨hparsed.finalize hlast, manifest, rfl⟩

end Preseed.ClassPlan
