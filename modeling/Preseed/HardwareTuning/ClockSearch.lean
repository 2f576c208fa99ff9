import Preseed.HardwareTuning.ApplicationClocks

/-!
# What the search for the fastest clocks finds

Over NVML and over nvidia-smi the search ends at the first pair, from the fastest one on,
that is in force or accepted. The theorem says exactly when it gets there.
-/

namespace Preseed.HardwareTuning.ApplicationClocks

open Effects

variable {driver : Driver} {pairs rest : List Pair} {candidate before : Pair} {g : Gpu}
  {deadline : ℚ}

/-- The clock has reached the deadline at a reading. -/
def Driver.late (driver : Driver) (deadline : ℚ) (tick : ℕ) : Prop := deadline ≤ driver.clock tick

instance (driver : Driver) (deadline : ℚ) (tick : ℕ) : Decidable (driver.late deadline tick) :=
  inferInstanceAs (Decidable (deadline ≤ driver.clock tick))

/-- The GPU after further readings of the clock. -/
def Gpu.tick (g : Gpu) (n : ℕ) : Gpu := { g with ticks := g.ticks + n }

/-- A part that returns is followed by the rest. -/
theorem run_bind_ok {α β : Type} {x : ClockAct α} {f : α → ClockAct β} {a : α} {g' : Gpu}
    (h : x g = .ok a g') : (x >>= f) g = f a g' := by
  change EStateM.bind x f g = f a g'
  rw [EStateM.bind, h]

/-- A part that raises ends the whole. -/
theorem run_bind_error {α β : Type} {x : ClockAct α} {f : α → ClockAct β} {e : ClockFailure}
    {g' : Gpu} (h : x g = .error e g') : (x >>= f) g = .error e g' := by
  change EStateM.bind x f g = .error e g'
  rw [EStateM.bind, h]

theorem checkDeadline_run : checkDeadline driver deadline g =
    if driver.late deadline g.ticks then
      .error (.tuning "maximum application-clock selection deadline exceeded") (g.tick 1)
    else .ok () (g.tick 1) := by
  unfold checkDeadline refuse
  by_cases h : driver.late deadline g.ticks
  · have h' : deadline ≤ driver.clock g.ticks := h
    simp [bind, EStateM.bind, monotonic, h, h', throw, throwThe, MonadExceptOf.throw,
      EStateM.throw, Gpu.tick]
  · have h' : ¬deadline ≤ driver.clock g.ticks := h
    simp [bind, EStateM.bind, monotonic, h, h', pure, EStateM.pure, Gpu.tick]

theorem unchanged_run {text : String} : unchanged g.current g.boost text g = .ok () g := by
  simp [unchanged, refuse, bind, EStateM.bind, readPair, readBoost, pure, EStateM.pure]

/-- Writing an advertised pair over NVML. -/
theorem writePair_run (hmem : candidate ∈ pairs) (hnvml : g.fallback = false) :
    writePair driver pairs candidate g = match driver.nvml candidate with
      | .accepted => .ok () { g with current := candidate }
      | .invalid => .error (.nvml 2) g
      | .unsupported =>
        if driver.smiInstalled then
          if driver.smi candidate then .ok () { g with fallback := true, current := candidate }
          else .error .smi { g with fallback := true }
        else .error .smi g := by
  cases hverdict : driver.nvml candidate with
  | accepted =>
    simp [writePair, refuse, hmem, bind, EStateM.bind, pure, EStateM.pure, get, getThe,
      MonadStateOf.get, EStateM.get, hnvml, hverdict, modify, modifyGet, MonadStateOf.modifyGet,
      EStateM.modifyGet]
  | invalid =>
    simp [writePair, refuse, hmem, bind, EStateM.bind, pure, EStateM.pure, get, getThe,
      MonadStateOf.get, EStateM.get, hnvml, hverdict, throw, throwThe, MonadExceptOf.throw,
      EStateM.throw]
  | unsupported =>
    cases hinstalled : driver.smiInstalled <;> cases hsmi : driver.smi candidate <;>
      simp [writePair, refuse, hmem, bind, EStateM.bind, pure, EStateM.pure, get, getThe,
        MonadStateOf.get, EStateM.get, hnvml, hverdict, findSmi, hinstalled, setApplicationPair,
        hsmi, confirmPair, readPair]

/-- Writing over NVML takes effect: NVML accepts the pair, or nvidia-smi does where NVML does not
support the call. -/
def Driver.takes (driver : Driver) (pair : Pair) : Bool :=
  match driver.nvml pair with
  | .accepted => true
  | .invalid => false
  | .unsupported => driver.smiInstalled && driver.smi pair

/-- Nothing stops the search over NVML before it gets to a pair that is in force or accepted: no
check of the clock on the way is late, and no pair on the way is unsupported by NVML and then
rejected by nvidia-smi. -/
def Driver.Clear (driver : Driver) (deadline : ℚ) (before : Pair) : ℕ → List Pair → Prop
  | _, [] => True
  | tick, candidate :: rest =>
    ¬driver.late deadline tick ∧ ¬driver.late deadline (tick + 1) ∧
      (candidate = before ∨ candidate ≠ before ∧
        match driver.nvml candidate with
        | .accepted => ¬driver.late deadline (tick + 2)
        | .invalid => driver.Clear deadline before (tick + 2) rest
        | .unsupported => driver.takes candidate ∧ ¬driver.late deadline (tick + 2))

/-- Nothing stops the search over nvidia-smi: no check of the clock on the way is late. -/
def Driver.Timely (driver : Driver) (deadline : ℚ) (before : Pair) : ℕ → List Pair → Prop
  | _, [] => True
  | tick, candidate :: rest =>
    ¬driver.late deadline tick ∧
      (candidate = before ∨ driver.smi candidate ∨
        driver.Timely deadline before (tick + 1) rest)

/-- A search has returned the first pair that is in force or accepted, and it is in force now; or
no pair, and nothing has changed. -/
def Finds (accepts : Pair → Bool) (pairs : List Pair) (g : Gpu)
    (result : EStateM.Result ClockFailure Gpu (Option Pair)) : Prop :=
  ∃ g', result = .ok (pairs.find? fun pair => pair = g.current ∨ accepts pair) g' ∧
    g'.current =
      (pairs.find? fun pair => pair = g.current ∨ accepts pair).getD g.current

/-- An error finds nothing. -/
theorem not_finds_error {accepts : Pair → Bool} {e : ClockFailure} {g' : Gpu} :
    ¬Finds accepts pairs g (.error e g') := by
  rintro ⟨_, h, -⟩
  cases h

/-- One step of the search over NVML. -/
theorem selectNvml_cons (hmem : candidate ∈ pairs) (hnvml : g.fallback = false) :
    selectNvml driver pairs deadline g.current g.boost (candidate :: rest) g =
      if driver.late deadline g.ticks ∨ driver.late deadline (g.ticks + 1) then
        .error (.tuning "maximum application-clock selection deadline exceeded")
          (g.tick (if driver.late deadline g.ticks then 1 else 2))
      else if candidate = g.current then .ok (some candidate) (g.tick 2)
      else match driver.nvml candidate with
        | .accepted =>
          if driver.late deadline (g.ticks + 2) then
            .error (.tuning "maximum application-clock selection deadline exceeded")
              { g.tick 3 with current := candidate }
          else .ok (some candidate) { g.tick 3 with current := candidate }
        | .invalid => selectNvml driver pairs deadline g.current g.boost rest (g.tick 2)
        | .unsupported =>
          if driver.takes candidate then
            if driver.late deadline (g.ticks + 2) then
              .error (.tuning "maximum application-clock selection deadline exceeded")
                { g.tick 3 with current := candidate, fallback := true }
            else .ok (some candidate) { g.tick 3 with current := candidate, fallback := true }
          else .error .smi { g.tick 2 with fallback := driver.smiInstalled } := by
  have hstay : ∀ (n : ℕ) (text : String),
      unchanged g.current g.boost text (g.tick n) = .ok () (g.tick n) :=
    fun n text => unchanged_run (g := g.tick n)
  have hfinish : ∀ (fallback : Bool),
      (do
        let now ← readPair
        refuse (now ≠ candidate) "application-clock selection readback differs; no retry"
        checkDeadline driver deadline
        pure (some candidate) : ClockAct (Option Pair))
          { g.tick 2 with current := candidate, fallback := fallback } =
        if driver.late deadline (g.ticks + 2) then
          .error (.tuning "maximum application-clock selection deadline exceeded")
            { g.tick 3 with current := candidate, fallback := fallback }
        else .ok (some candidate)
          { g.tick 3 with current := candidate, fallback := fallback } := by
    intro fallback
    have hread : readPair { g.tick 2 with current := candidate, fallback := fallback } =
        .ok candidate { g.tick 2 with current := candidate, fallback := fallback } := rfl
    refine (run_bind_ok hread).trans ?_
    have hsame : refuse (candidate ≠ candidate)
        "application-clock selection readback differs; no retry"
          { g.tick 2 with current := candidate, fallback := fallback } =
        .ok () { g.tick 2 with current := candidate, fallback := fallback } := by
      simp [refuse, pure, EStateM.pure]
    refine (run_bind_ok hsame).trans ?_
    have hcheck : checkDeadline driver deadline
      { g.tick 2 with current := candidate, fallback := fallback } = _ := checkDeadline_run
    by_cases hlate : driver.late deadline (g.ticks + 2)
    · simp only [hlate, if_true]
      exact run_bind_error (hcheck.trans (if_pos hlate))
    · simp only [hlate, if_false]
      exact run_bind_ok (hcheck.trans (if_neg hlate))
  conv_lhs => rw [selectNvml]
  by_cases hfirst : driver.late deadline g.ticks
  · simp only [hfirst, true_or, if_true]
    exact run_bind_error (checkDeadline_run.trans (if_pos hfirst))
  refine (run_bind_ok (checkDeadline_run.trans (if_neg hfirst))).trans ?_
  refine (run_bind_ok (hstay 1 _)).trans ?_
  have hsecond : checkDeadline driver deadline (g.tick 1) = _ := checkDeadline_run
  by_cases hlate : driver.late deadline (g.ticks + 1)
  · simp only [hfirst, hlate, or_true, if_true, if_false]
    exact run_bind_error (hsecond.trans (if_pos hlate))
  refine (run_bind_ok (hsecond.trans (if_neg hlate))).trans ?_
  simp only [hfirst, hlate, or_self, if_false]
  by_cases hcurrent : candidate = g.current
  · simp only [hcurrent, if_true]
    rfl
  simp only [hcurrent, if_false]
  have hwrite : writePair driver pairs candidate (g.tick 2) = _ := writePair_run hmem hnvml
  cases hverdict : driver.nvml candidate with
  | accepted =>
    have hattempt : attempt (writePair driver pairs candidate) ClockFailure.isNvml (g.tick 2) =
        .ok none { g.tick 2 with current := candidate } := by
      rw [hverdict] at hwrite
      simp [attempt, rescue, bind, EStateM.bind, hwrite, pure, EStateM.pure]
    exact (run_bind_ok hattempt).trans (hfinish g.fallback)
  | invalid =>
    have hattempt : attempt (writePair driver pairs candidate) ClockFailure.isNvml (g.tick 2) =
        .ok (some (.nvml 2)) (g.tick 2) := by
      rw [hverdict] at hwrite
      simp [attempt, rescue, bind, EStateM.bind, hwrite, pure, EStateM.pure, ClockFailure.isNvml]
    refine (run_bind_ok hattempt).trans ?_
    simp only [ne_eq, not_true_eq_false, false_and, if_false]
    exact run_bind_ok (hstay 2 _)
  | unsupported =>
    rw [hverdict] at hwrite
    cases hinstalled : driver.smiInstalled with
    | false =>
      have htakes : driver.takes candidate = false := by simp [Driver.takes, hverdict, hinstalled]
      have hattempt : attempt (writePair driver pairs candidate) ClockFailure.isNvml (g.tick 2) =
          .error .smi { g.tick 2 with fallback := false } := by
        have hfallback : { g.tick 2 with fallback := false } = g.tick 2 := by
          rw [← hnvml]
          rfl
        simp [attempt, rescue, bind, EStateM.bind, hwrite, hinstalled, ClockFailure.isNvml, throw,
          throwThe, MonadExceptOf.throw, EStateM.throw, hfallback]
      simp only [htakes, Bool.false_eq_true, if_false]
      exact run_bind_error hattempt
    | true =>
      cases hsmi : driver.smi candidate with
      | false =>
        have htakes : driver.takes candidate = false := by simp [Driver.takes, hverdict, hsmi]
        have hattempt : attempt (writePair driver pairs candidate) ClockFailure.isNvml
            (g.tick 2) = .error .smi { g.tick 2 with fallback := true } := by
          simp [attempt, rescue, bind, EStateM.bind, hwrite, hinstalled, hsmi,
            ClockFailure.isNvml, throw, throwThe, MonadExceptOf.throw, EStateM.throw]
        simp only [htakes, Bool.false_eq_true, if_false]
        exact run_bind_error hattempt
      | true =>
        have htakes : driver.takes candidate = true := by
          simp [Driver.takes, hverdict, hinstalled, hsmi]
        have hattempt : attempt (writePair driver pairs candidate) ClockFailure.isNvml
            (g.tick 2) = .ok none { g.tick 2 with current := candidate, fallback := true } := by
          simp [attempt, rescue, bind, EStateM.bind, hwrite, hinstalled, hsmi, pure, EStateM.pure]
        simp only [htakes, if_true]
        exact (run_bind_ok hattempt).trans (hfinish true)

/-- A way of writing a pair does what nvidia-smi answers. -/
def WritesSmi (driver : Driver) (write : Pair → ClockAct Unit) (candidates : List Pair)
    (fallback : Bool) : Prop :=
  ∀ candidate ∈ candidates, ∀ g : Gpu, g.fallback = fallback → write candidate g =
    if driver.smi candidate then .ok () { g with current := candidate } else .error .smi g

/-- Once it has fallen back, the NVML control writes over nvidia-smi. -/
theorem writesSmi_writePair : WritesSmi driver (writePair driver pairs) pairs true := by
  intro candidate hmem g hfallback
  cases hsmi : driver.smi candidate <;>
    simp [writePair, refuse, hmem, bind, EStateM.bind, pure, EStateM.pure, get, getThe,
      MonadStateOf.get, EStateM.get, hfallback, setApplicationPair, hsmi, confirmPair, readPair]

/-- The control over nvidia-smi does so always. -/
theorem writesSmi_writeSmi (fallback : Bool) :
    WritesSmi driver (writeSmi driver pairs) pairs fallback := by
  intro candidate hmem g _
  cases hsmi : driver.smi candidate <;>
    simp [writeSmi, refuse, hmem, bind, EStateM.bind, pure, EStateM.pure, setApplicationPair, hsmi,
      readPair]

/-- One step of the search over nvidia-smi. -/
theorem selectSmi_cons {write : Pair → ClockAct Unit}
    (hwrite : ∀ g' : Gpu, g'.fallback = g.fallback → write candidate g' =
      if driver.smi candidate then .ok () { g' with current := candidate }
      else .error .smi g') :
    selectSmi driver write deadline g.current (candidate :: rest) g =
      if driver.late deadline g.ticks then
        .error (.tuning "maximum application-clock selection deadline exceeded") (g.tick 1)
      else if candidate = g.current then .ok (some candidate) (g.tick 1)
      else if driver.smi candidate then
        .ok (some candidate) { g.tick 1 with current := candidate }
      else selectSmi driver write deadline g.current rest (g.tick 1) := by
  conv_lhs => rw [selectSmi]
  by_cases hlate : driver.late deadline g.ticks
  · simp only [hlate, if_true]
    exact run_bind_error (checkDeadline_run.trans (if_pos hlate))
  refine (run_bind_ok (checkDeadline_run.trans (if_neg hlate))).trans ?_
  have hread : readPair (g.tick 1) = .ok g.current (g.tick 1) := rfl
  have hsame : ∀ text, refuse (g.current ≠ g.current) text (g.tick 1) =
      .ok () (g.tick 1) := by
    intro text
    simp [refuse, pure, EStateM.pure]
  refine (run_bind_ok hread).trans ((run_bind_ok (hsame _)).trans ?_)
  simp only [hlate, if_false]
  by_cases hcurrent : candidate = g.current
  · simp only [hcurrent, if_true]
    rfl
  simp only [hcurrent, if_false]
  have hwrite := hwrite (g.tick 1) rfl
  cases hsmi : driver.smi candidate with
  | true =>
    have hattempt : attempt (write candidate) ClockFailure.isSmi (g.tick 1) =
        .ok none { g.tick 1 with current := candidate } := by
      rw [hsmi] at hwrite
      simp [attempt, rescue, bind, EStateM.bind, hwrite, pure, EStateM.pure]
    exact run_bind_ok hattempt
  | false =>
    have hattempt : attempt (write candidate) ClockFailure.isSmi (g.tick 1) =
        .ok (some .smi) (g.tick 1) := by
      rw [hsmi] at hwrite
      simp [attempt, rescue, bind, EStateM.bind, hwrite, pure, EStateM.pure, ClockFailure.isSmi]
    refine (run_bind_ok hattempt).trans ?_
    exact (run_bind_ok hread).trans (run_bind_ok (hsame _))

/-- What is found among the remaining pairs is found, when the first one is passed over. -/
theorem finds_cons {accepts : Pair → Bool} {n : ℕ}
    {result : EStateM.Result ClockFailure Gpu (Option Pair)} (hcurrent : candidate ≠ g.current)
    (haccepts : accepts candidate = false) :
    Finds accepts (candidate :: rest) g result ↔ Finds accepts rest (g.tick n) result := by
  unfold Finds
  rw [List.find?_cons_of_neg (by simp [hcurrent, haccepts])]
  rfl

/-- The first pair is found if it is in force or accepted. -/
theorem finds_first {accepts : Pair → Bool} {g' : Gpu}
    (h : candidate = g.current ∨ accepts candidate = true) (hforce : g'.current = candidate) :
    Finds accepts (candidate :: rest) g (.ok (some candidate) g') := by
  unfold Finds
  rw [List.find?_cons_of_pos (by simpa using h)]
  exact ⟨g', rfl, hforce⟩

/-- The search over NVML finds the first pair exactly if nothing stops it. -/
theorem selectNvml_finds (candidates : List Pair) (hsub : candidates ⊆ pairs)
    (hnvml : g.fallback = false) :
    Finds driver.takes candidates g
      (selectNvml driver pairs deadline g.current g.boost candidates g) ↔
        driver.Clear deadline g.current g.ticks candidates := by
  induction candidates generalizing g with
  | nil => exact ⟨fun _ => trivial, fun _ => ⟨g, rfl, rfl⟩⟩
  | cons candidate rest ih =>
    have hmem : candidate ∈ pairs := hsub List.mem_cons_self
    have hrest : rest ⊆ pairs := fun pair hpair => hsub (List.mem_cons_of_mem _ hpair)
    rw [selectNvml_cons hmem hnvml]
    unfold Driver.Clear
    by_cases hfirst : driver.late deadline g.ticks
    · simp only [hfirst, true_or, if_true, not_true_eq_false, false_and, iff_false]
      exact not_finds_error
    by_cases hsecond : driver.late deadline (g.ticks + 1)
    · simp only [hfirst, hsecond, or_true, if_true, not_true_eq_false, false_and, and_false,
        iff_false]
      exact not_finds_error
    simp only [hfirst, hsecond, or_self, if_false, not_false_eq_true, true_and]
    by_cases hcurrent : candidate = g.current
    · simp only [hcurrent, if_true, true_or, iff_true]
      exact hcurrent ▸ finds_first (.inl hcurrent) hcurrent.symm
    simp only [hcurrent, if_false, false_or, ne_eq, not_false_eq_true, true_and]
    cases hverdict : driver.nvml candidate with
    | accepted =>
      have htakes : driver.takes candidate = true := by simp [Driver.takes, hverdict]
      by_cases hlate : driver.late deadline (g.ticks + 2)
      · simp only [hlate, if_true, not_true_eq_false, iff_false]
        exact not_finds_error
      · simp only [hlate, if_false, not_false_eq_true, iff_true]
        exact finds_first (.inr htakes) rfl
    | invalid =>
      have htakes : driver.takes candidate = false := by simp [Driver.takes, hverdict]
      dsimp only
      rw [finds_cons (n := 2) hcurrent htakes]
      exact ih (g := g.tick 2) hrest hnvml
    | unsupported =>
      dsimp only
      cases htakes : driver.takes candidate with
      | false =>
        simp only [Bool.false_eq_true, if_false, false_and, iff_false]
        exact not_finds_error
      | true =>
        by_cases hlate : driver.late deadline (g.ticks + 2)
        · simp only [hlate, if_true, not_true_eq_false, and_false, iff_false]
          exact not_finds_error
        · simp only [hlate, if_true, if_false, not_false_eq_true, and_self, iff_true]
          exact finds_first (.inr htakes) rfl

/-- The search over nvidia-smi finds the first pair exactly if nothing stops it. -/
theorem selectSmi_finds {write : Pair → ClockAct Unit} (candidates : List Pair)
    (hwrite : WritesSmi driver write candidates g.fallback) :
    Finds driver.smi candidates g
      (selectSmi driver write deadline g.current candidates g) ↔
        driver.Timely deadline g.current g.ticks candidates := by
  induction candidates generalizing g with
  | nil => exact ⟨fun _ => trivial, fun _ => ⟨g, rfl, rfl⟩⟩
  | cons candidate rest ih =>
    rw [selectSmi_cons (hwrite candidate List.mem_cons_self)]
    unfold Driver.Timely
    by_cases hlate : driver.late deadline g.ticks
    · simp only [hlate, if_true, not_true_eq_false, false_and, iff_false]
      exact not_finds_error
    simp only [hlate, if_false, not_false_eq_true, true_and]
    by_cases hcurrent : candidate = g.current
    · simp only [hcurrent, if_true, true_or, iff_true]
      exact hcurrent ▸ finds_first (.inl hcurrent) hcurrent.symm
    simp only [hcurrent, if_false, false_or]
    cases hsmi : driver.smi candidate with
    | true =>
      simp only [if_true, true_or, iff_true]
      exact finds_first (.inr hsmi) rfl
    | false =>
      simp only [Bool.false_eq_true, if_false, false_or]
      rw [finds_cons (n := 1) hcurrent hsmi]
      exact ih (g := g.tick 1) fun pair hpair => hwrite pair (List.mem_cons_of_mem _ hpair)

section Order

/-- Sorting different clocks puts them in descending order. -/
theorem descending_sorted {clocks : List ℕ} (h : clocks.Nodup) :
    (descending clocks).Pairwise (· > ·) := by
  have hsorted : (descending clocks).Pairwise (· ≥ ·) := List.pairwise_insertionSort _ _
  have hnodup : (descending clocks).Nodup := (List.perm_insertionSort _ _).nodup_iff.mpr h
  refine (hsorted.and hnodup).imp ?_
  rintro a b ⟨hge, hne⟩
  omega

/-- The pairs stand in descending order: by the memory clock, then by the graphics clock. -/
theorem pairs_sorted (tables : Tables) : tables.pairs.Pairwise fun a b =>
    b.1 < a.1 ∨ b.1 = a.1 ∧ b.2 < a.2 := by
  unfold Tables.pairs
  rw [List.pairwise_flatMap]
  constructor
  · intro memory _
    rw [List.pairwise_map]
    refine (descending_sorted (List.nodup_dedup _)).imp ?_
    intro a b hlt
    exact .inr ⟨rfl, hlt⟩
  · refine (descending_sorted tables.nodup).imp ?_
    intro memory memory' hlt a ha b hb
    obtain ⟨g, -, rfl⟩ := List.mem_map.mp ha
    obtain ⟨g', -, rfl⟩ := List.mem_map.mp hb
    exact .inl hlt

end Order

/-- What writing takes, by the way the control writes. -/
def Driver.accepts (driver : Driver) (fallback : Bool) : Pair → Bool :=
  if fallback then driver.smi else driver.takes

/-- Nothing stops the search, by the way the control writes. -/
def Driver.Unstopped (driver : Driver) (fallback : Bool) (deadline : ℚ) (before : Pair) (tick : ℕ)
    (pairs : List Pair) : Prop :=
  if fallback then driver.Timely deadline before tick pairs
  else driver.Clear deadline before tick pairs

/-- The control over NVML finds the first pair exactly if nothing stops its search. -/
theorem maximum_finds (driver : Driver) (pairs : List Pair) (g : Gpu) :
    Finds (driver.accepts g.fallback) pairs g (maximum driver pairs g) ↔
      driver.Unstopped g.fallback (driver.clock g.ticks + 8) g.current (g.ticks + 1)
        pairs := by
  have hrun : maximum driver pairs g =
      if g.fallback then selectSmi driver (writePair driver pairs) (driver.clock g.ticks + 8)
        g.current pairs (g.tick 1)
      else selectNvml driver pairs (driver.clock g.ticks + 8) g.current g.boost pairs
        (g.tick 1) := by
    cases hfallback : g.fallback <;>
      simp [maximum, bind, EStateM.bind, get, getThe, MonadStateOf.get, EStateM.get, monotonic,
        readPair, readBoost, hfallback, Gpu.tick]
  unfold Driver.accepts Driver.Unstopped
  rw [hrun]
  cases hfallback : g.fallback with
  | true =>
    have hwrite : WritesSmi driver (writePair driver pairs) pairs (g.tick 1).fallback := by
      rw [show (g.tick 1).fallback = true from hfallback]
      exact writesSmi_writePair
    simp only [if_true]
    exact selectSmi_finds (g := g.tick 1) pairs hwrite
  | false =>
    simp only [Bool.false_eq_true, if_false]
    exact selectNvml_finds (g := g.tick 1) pairs (List.Subset.refl _) hfallback

/-- The control over nvidia-smi finds the first pair exactly if nothing stops its search. -/
theorem smiMaximum_finds (driver : Driver) (pairs : List Pair) (g : Gpu) :
    Finds driver.smi pairs g (smiMaximum driver pairs g) ↔
      driver.Timely (driver.clock g.ticks + 8) g.current (g.ticks + 1) pairs := by
  have hrun : smiMaximum driver pairs g =
      selectSmi driver (writeSmi driver pairs) (driver.clock g.ticks + 8) g.current pairs
        (g.tick 1) := by
    simp [smiMaximum, bind, EStateM.bind, monotonic, readPair, Gpu.tick]
  rw [hrun]
  exact selectSmi_finds (g := g.tick 1) pairs (writesSmi_writeSmi _)

/-- A table of three pairs. -/
def threePairs : Tables := ⟨[(1, [1]), (2, [1, 2])], by decide⟩

/-- A driver that accepts all pairs but the fastest one, and answers at once. -/
def rejecting (verdict : Verdict) : Driver where
  nvml pair := if pair = (2, 2) then verdict else .accepted
  smi pair := pair ≠ (2, 2)
  smiInstalled := true
  clock _ := 0

/-- A GPU at its slowest pair. -/
def idleGpu : Gpu := ⟨(1, 1), none, false, 0⟩

/-- A driver that answers at once is never late. -/
theorem rejecting_not_late (verdict : Verdict) (tick : ℕ) :
    ¬(rejecting verdict).late ((rejecting verdict).clock 0 + 8) tick := by
  have h : ¬(8 : ℚ) ≤ 0 := by decide
  simp only [Driver.late, rejecting, zero_add]
  exact h

/-- A driver whose clock advances by eight seconds between two readings. -/
def slow : Driver := { rejecting .invalid with clock := fun tick => 8 * tick }

/-- The slow driver is late at the first check. -/
theorem slow_late : slow.late (slow.clock 0 + 8) 1 := by
  have h : (8 : ℚ) * (0 : ℕ) + 8 ≤ 8 * (1 : ℕ) := by decide +kernel
  exact h

end Preseed.HardwareTuning.ApplicationClocks
