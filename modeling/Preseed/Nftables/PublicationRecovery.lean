import Preseed.Nftables.Publication

/-!
# A publication is all or nothing

Until the bundle is complete nothing is touched. From the first published file on the
bundle holds everything a rollback needs, and every way out either has restored the
previous generation or leaves the bundle on disk.
-/

namespace Preseed.Nftables

open Effects List

/-- The bundle holds the previous generation: what stood at each generated path, and the owned
tables if they are to be reloaded. -/
structure Bundle.Complete (w₀ : System.World) (gen : Generation) (previous : List Saved)
    (bundle : Bundle) : Prop where
  /-- The manifest lists the backups. -/
  manifest : bundle.manifest = some previous
  /-- They are those of the generated files. -/
  paths : previous.map Saved.path = gen.rendered.map Prod.fst
  /-- Each backup restores what stood at its path. -/
  restored : ∀ saved ∈ previous, bundle.restored saved = w₀.files saved.path
  /-- The live script brings the owned tables back from any state. -/
  live : gen.reload = true → ∃ commands, bundle.live = some commands ∧
    ∀ live, commands.foldl LiveCommand.run live = w₀.live

/-- Nothing has been published. -/
structure Untouched (w₀ : System.World) (s : Locals) (w : System.World) : Prop where
  /-- The files are as before. -/
  files : w.files = w₀.files
  /-- The owned tables are as before. -/
  live : w.live = w₀.live
  /-- The recovery directory has been made. -/
  begun : w.begun = true
  /-- No file has been attempted. -/
  attempted : s.attempted = []
  /-- No reload has been attempted. -/
  liveAttempted : s.liveAttempted = false
  /-- The bundle need not be kept. -/
  retain : s.retain = false

/-- The bundle is complete, and what has not been attempted is as before. -/
structure Publishing (w₀ : System.World) (gen : Generation) (s : Locals) (w : System.World) :
    Prop where
  /-- The other files are as before. -/
  files : ∀ path, path ∉ s.attempted → w.files path = w₀.files path
  /-- Only generated files are attempted. -/
  attempted : ∀ path ∈ s.attempted, path ∈ gen.rendered.map Prod.fst
  /-- Without a reload the owned tables are as before. -/
  live : s.liveAttempted = false → w.live = w₀.live
  /-- A reload is attempted only if it is asked for. -/
  liveAttempted : s.liveAttempted = true → gen.reload = true
  /-- The recovery directory has been made. -/
  begun : w.begun = true
  /-- The bundle is kept. -/
  retain : s.retain = true
  /-- It holds the previous generation. -/
  bundle : ∃ bundle, w.bundle = some bundle ∧ bundle.Complete w₀ gen s.previous

section Rules

variable {owner : ℕ × ℕ} {ruleset : (String → Option File) → Live} {s : Locals} {w : System.World}

/-- The rule of a step. -/
theorem wp_step (op : Step) {Q : Except Fault op.Reply → Locals → System.World → Prop} :
    wp (nftables owner ruleset) unguarded (step op) Q s w ↔
      ∀ (answer : Except Fault op.Reply) w', nftables owner ruleset w s op answer w' →
        Q answer s w' := by
  simp only [step, wp_bind]
  exact ⟨fun h => h.2, fun h => ⟨trivial, h⟩⟩

/-- The rule of an action. -/
theorem wp_act (action : Action) {Q : Except Fault Unit → Locals → System.World → Prop} :
    wp (nftables owner ruleset) unguarded (act action) Q s w ↔
      ∀ answer w', (∀ e, answer = .error e → (Step.act action).mayRaise e.kind = true) →
        action.does owner ruleset w answer w' → Q answer s w' := by
  refine (wp_step (.act action)).trans ⟨fun h answer w' hraises hdoes => ?_, fun h => ?_⟩
  · exact h answer w' ⟨hraises, hdoes⟩
  · rintro answer w' ⟨hraises, hdoes⟩
    exact h answer w' hraises hdoes

end Rules

/-! ### Until the bundle is complete -/

/-- The previous state of some files has been saved, that of `rest` has not. -/
structure Saving (w₀ : System.World) (gen : Generation) (rest : List ((String × String) × ℕ))
    (s : Locals) (w : System.World) : Prop where
  /-- Nothing has been published. -/
  untouched : Untouched w₀ s w
  /-- Each backup restores what stands at its path, and no later one overwrites it. -/
  bundle : ∃ bundle, w.bundle = some bundle ∧ ∀ saved ∈ s.previous,
    bundle.restored saved = w₀.files saved.path ∧ saved.index ∉ rest.map Prod.snd
  /-- The backups are those of the files before `rest`. -/
  paths : s.previous.map Saved.path ++ rest.map (fun entry => entry.1.1) =
    gen.rendered.map Prod.fst
  /-- The numbers of the backups differ. -/
  fresh : (rest.map Prod.snd).Nodup

section Preparing

variable {owner : ℕ × ℕ} {ruleset : (String → Option File) → Live} {w₀ : System.World}
  {gen : Generation} {s : Locals} {w : System.World} {recovery : String}

variable {w' : System.World}

/-- A step that leaves the files and the owned tables touches nothing. -/
theorem Untouched.frame (h : Untouched w₀ s w) (hfiles : w'.files = w.files)
    (hlive : w'.live = w.live) (hbegun : w'.begun = w.begun) : Untouched w₀ s w' :=
  ⟨hfiles.trans h.files, hlive.trans h.live, hbegun.trans h.begun, h.attempted, h.liveAttempted,
    h.retain⟩

/-- A step on the bundle touches nothing. -/
theorem Untouched.bundleEffect (h : Untouched w₀ s w) {after : Bundle → Bundle}
    {answer : Except Fault Unit} (heffect : bundleEffect w after answer w') :
    Untouched w₀ s w' := by
  cases answer with
  | ok _ =>
    rw [heffect.1 rfl]
    exact h.frame rfl rfl rfl
  | error e =>
    obtain ⟨bundle, rfl⟩ := heffect.2 e rfl
    exact h.frame rfl rfl rfl

/-- Another file of the previous generation has been saved. -/
private theorem Saving.saved {path content : String} {index : ℕ}
    {rest : List ((String × String) × ℕ)} (h : Saving w₀ gen (((path, content), index) :: rest) s w)
    {existed : Option (ℕ × ℕ × ℕ)} {bundle : Bundle} (huntouched : Untouched w₀ s w')
    (hbundle : w'.bundle = some bundle)
    (hrestored : bundle.restored ⟨path, index, existed⟩ = w₀.files path)
    (hkept : ∀ saved ∈ s.previous, bundle.restored saved = w₀.files saved.path) :
    Saving w₀ gen rest { s with previous := s.previous ++ [⟨path, index, existed⟩] } w' := by
  have hfresh := nodup_cons.mp (by simpa using h.fresh : (index :: rest.map Prod.snd).Nodup)
  refine ⟨⟨huntouched.files, huntouched.live, huntouched.begun, huntouched.attempted,
    huntouched.liveAttempted, huntouched.retain⟩, ⟨bundle, hbundle, fun saved hmem => ?_⟩, ?_,
      hfresh.2⟩
  · rcases mem_append.mp hmem with hmem | hmem
    · obtain ⟨_, -, hindex⟩ := h.bundle
      refine ⟨hkept saved hmem, fun hin => (hindex saved hmem).2 ?_⟩
      exact mem_cons_of_mem _ hin
    · rw [mem_singleton.mp hmem]
      exact ⟨hrestored, hfresh.1⟩
  · simpa using h.paths

/-- Saving one file, and writing its candidate. -/
theorem wp_saveOne {entry : (String × String) × ℕ} {rest : List ((String × String) × ℕ)}
    (h : Saving w₀ gen (entry :: rest) s w) :
    wp (nftables owner ruleset) unguarded (saveOne gen recovery entry)
      (outcome (fun _ => Saving w₀ gen rest) fun _ => Untouched w₀) s w := by
  obtain ⟨⟨path, content⟩, index⟩ := entry
  obtain ⟨bundle, hbundle, hsaved⟩ := h.bundle
  -- The candidate is written to the bundle once the previous state is saved.
  have hcandidate : ∀ {existed : Option (ℕ × ℕ × ℕ)} {bundle' : Bundle} {w' : System.World},
      Untouched w₀ s w' → w'.bundle = some bundle' →
      bundle'.restored ⟨path, index, existed⟩ = w₀.files path →
      (∀ saved ∈ s.previous, bundle'.restored saved = w₀.files saved.path) →
      wp (nftables owner ruleset) unguarded
        (act (.writeCandidate index (redirect recovery (gen.rendered.map Prod.fst) content)))
        (outcome (fun _ => Saving w₀ gen rest) fun _ => Untouched w₀)
        { s with previous := s.previous ++ [⟨path, index, existed⟩] } w' := by
    intro existed bundle' w' huntouched hbundle' hrestored hkept
    have hnext := h.saved huntouched hbundle' hrestored hkept
    rw [wp_act]
    intro answer w'' _ heffect
    cases answer with
    | error e => exact hnext.untouched.bundleEffect heffect
    | ok _ =>
      obtain rfl := heffect.1 rfl
      refine ⟨hnext.untouched.bundleEffect heffect, ⟨bundle', ?_, ?_⟩, hnext.paths, hnext.fresh⟩
      · simp [hbundle']
      · obtain ⟨found, hfound, hall⟩ := hnext.bundle
        rw [hbundle', Option.some.injEq] at hfound
        exact hfound ▸ hall
  unfold saveOne savePrevious
  dsimp only
  rw [wp_bind, wp_bind]
  refine (wp_step (.lstat path)).mpr ?_
  rintro (answer : Except Fault (Option Stat)) w' ⟨-, rfl, hstat⟩
  cases answer with
  | error e => exact h.untouched
  | ok stat =>
    rw [outcome_ok]
    have hsame := hstat stat rfl
    rw [h.untouched.files] at hsame
    cases stat with
    | none =>
      have habsent : w₀.files path = none := by simpa using hsame.symm
      refine hcandidate h.untouched hbundle ?_ fun saved hmem => (hsaved saved hmem).1
      rw [habsent]
      cases hdata : bundle.backups index <;> simp [Bundle.restored, hdata]
    | some stat =>
      obtain ⟨file, hfile, hmeta⟩ := Option.map_eq_some_iff.mp hsame.symm
      dsimp only
      split
      · exact h.untouched
      · rw [wp_bind, wp_act]
        intro answer w'' _ heffect
        have huntouched := h.untouched.bundleEffect heffect
        cases answer with
        | error e => exact huntouched
        | ok _ =>
          obtain rfl := heffect.1 rfl
          refine hcandidate huntouched (by rw [hbundle]; rfl) ?_ fun saved hmem => ?_
          · obtain ⟨hmode, huid, hgid⟩ : file.mode = stat.mode ∧ file.uid = stat.uid ∧
              file.gid = stat.gid := by simpa using hmeta
            simp [Bundle.restored, h.untouched.files, hfile, ← hmode, ← huid, ← hgid]
          · obtain ⟨hrestored, hother⟩ := hsaved saved hmem
            have hne : saved.index ≠ index := fun heq => hother (by simp [heq])
            rw [← hrestored]
            simp [Bundle.restored, hne]

/-- A stage of the preparation: nothing is touched, and the bundle is as far as it is. -/
def Stage (w₀ : System.World) (previous : List Saved) (holds : Bundle → Prop) (s : Locals)
    (w : System.World) : Prop :=
  Untouched w₀ s w ∧ s.previous = previous ∧ ∃ bundle, w.bundle = some bundle ∧ holds bundle

variable {previous : List Saved} {holds : Bundle → Prop}

/-- A step that writes to the bundle moves it to another stage. -/
theorem wp_stage {holds' : Bundle → Prop} {action : Action} {after : Bundle → Bundle}
    (h : Stage w₀ previous holds s w) (hdoes : ∀ answer w', action.does owner ruleset w answer w' →
      bundleEffect w after answer w') (hafter : ∀ bundle, holds bundle → holds' (after bundle)) :
    wp (nftables owner ruleset) unguarded (act action)
      (outcome (fun _ => Stage w₀ previous holds') fun _ => Untouched w₀) s w := by
  obtain ⟨huntouched, hprevious, bundle, hbundle, hholds⟩ := h
  rw [wp_act]
  intro answer w' _ h
  have heffect := hdoes answer w' h
  cases answer with
  | error e => exact huntouched.bundleEffect heffect
  | ok _ =>
    obtain rfl := heffect.1 rfl
    exact ⟨huntouched.bundleEffect heffect, hprevious, _, by rw [hbundle]; rfl, hafter _ hholds⟩

/-- An action that only looks stays at its stage. -/
theorem wp_look {action : Action} (h : Stage w₀ previous holds s w)
    (hdoes : ∀ answer w', action.does owner ruleset w answer w' → w' = w) :
    wp (nftables owner ruleset) unguarded (act action)
      (outcome (fun _ => Stage w₀ previous holds) fun _ => Untouched w₀) s w := by
  rw [wp_act]
  intro answer w' _ hdone
  obtain rfl := hdoes answer w' hdone
  cases answer with
  | error e => exact h.1
  | ok _ => exact h

/-- `live.nft` for given tables. -/
def liveScript (live : Live) : List LiveCommand :=
  [.destroy .filter, .destroy .nat] ++
    [Owned.filter, .nat].filterMap fun table => (live table).map (LiveCommand.define table)

/-- The script brings the tables back from any state. -/
theorem run_liveScript (live before : Live) :
    (liveScript live).foldl LiveCommand.run before = live := by
  funext table
  cases hfilter : live .filter <;> cases hnat : live .nat <;> cases table <;>
    simp [liveScript, LiveCommand.run, hfilter, hnat]

/-- The snapshot of the owned tables goes to the bundle. -/
theorem wp_snapshotLive {holds' : Bundle → Prop} (h : Stage w₀ previous holds s w)
    (hafter : ∀ bundle, holds bundle → holds' { bundle with live := some (liveScript w₀.live) }) :
    wp (nftables owner ruleset) unguarded snapshotLive
      (outcome (fun _ => Stage w₀ previous holds') fun _ => Untouched w₀) s w := by
  unfold snapshotLive
  rw [wp_bind]
  refine (wp_step .listTables).mpr ?_
  rintro (answer : Except Fault (List (String × String))) w' ⟨-, rfl, htables⟩
  cases answer with
  | error e => exact h.1
  | ok tables =>
    have hlisted := htables tables rfl
    rw [h.1.live] at hlisted
    rw [outcome_ok, wp_bind]
    refine wp_fold (fun rest commands s' w'' => s' = s ∧ w'' = w' ∧
      commands ++ rest.filterMap (fun table => (w₀.live table).map (LiveCommand.define table)) =
        liveScript w₀.live) ⟨rfl, rfl, rfl⟩ ?_ ?_
    · rintro table rest commands s' w'' ⟨rfl, rfl, hscript⟩
      unfold snapshotTable
      split
      · rename_i hin
        rw [wp_bind]
        refine (wp_step (.listTable table)).mpr ?_
        rintro (answer : Except Fault String) w'' ⟨-, rfl, htext⟩
        cases answer with
        | error e => exact h.1
        | ok text =>
          have hlive : w₀.live table = some text := h.1.live ▸ htext text rfl
          refine ⟨rfl, rfl, ?_⟩
          rw [← hscript]
          simp [hlive]
      · rename_i hout
        have hnone : w₀.live table = none := by simpa using (hlisted table).not.mp hout
        refine ⟨rfl, rfl, ?_⟩
        rw [← hscript]
        simp [hnone]
    · rintro commands s' w'' ⟨rfl, rfl, hscript⟩
      obtain rfl : commands = liveScript w₀.live := by simpa using hscript
      exact wp_stage h (fun _ _ h => h) hafter

/-- Preparing touches nothing, and ends with a complete bundle. -/
theorem wp_prepare (hw : Untouched w₀ s w) (hbundle : w.bundle = some Bundle.empty)
    (hprevious : s.previous = []) :
    wp (nftables owner ruleset) unguarded (prepare gen recovery)
      (outcome (fun _ s' => Stage w₀ s'.previous (Bundle.Complete w₀ gen s'.previous) s')
        fun _ => Untouched w₀) s w := by
  have hstart : Saving w₀ gen gen.rendered.zipIdx s w := by
    refine ⟨hw, ⟨_, hbundle, by simp [hprevious]⟩, ?_, ?_⟩
    · have hfst := congrArg (List.map Prod.fst) (zipIdx_map_fst 0 gen.rendered)
      rw [map_map] at hfst
      rw [hprevious]
      exact hfst
    · rw [zipIdx_map_snd]
      exact nodup_range' _
  unfold prepare
  rw [wp_bind]
  refine wp_forEach (Saving w₀ gen) hstart (fun entry rest s w h => wp_saveOne h) ?_
  intro s w h
  obtain ⟨bundle, hbundle, hsaved⟩ := h.bundle
  have hpaths : s.previous.map Saved.path = gen.rendered.map Prod.fst := by simpa using h.paths
  have hstage : Stage w₀ s.previous
      (fun bundle => ∀ saved ∈ s.previous, bundle.restored saved = w₀.files saved.path) s w :=
    ⟨h.untouched, rfl, bundle, hbundle, fun saved hmem => (hsaved saved hmem).1⟩
  let listed (bundle : Bundle) : Prop := bundle.manifest = some s.previous ∧
    ∀ saved ∈ s.previous, bundle.restored saved = w₀.files saved.path
  have hmanifest : wp (nftables owner ruleset) unguarded
      (act (.writeManifest s.previous))
      (outcome (fun _ => Stage w₀ s.previous listed) fun _ => Untouched w₀) s w :=
    wp_stage hstage (fun _ _ h => h) fun bundle hrestored => ⟨rfl, hrestored⟩
  -- Without a reload the bundle is complete, with one the owned tables are still to be saved.
  have hcomplete : ∀ bundle live, listed bundle →
      (gen.reload = true → live = some (liveScript w₀.live)) →
      Bundle.Complete w₀ gen s.previous { bundle with live } := fun bundle live hlisted hlive =>
    ⟨hlisted.1, hpaths, hlisted.2, fun hreload => ⟨_, hlive hreload, run_liveScript w₀.live⟩⟩
  have hsync : ∀ s' w', Stage w₀ s.previous (Bundle.Complete w₀ gen s.previous) s' w' →
      wp (nftables owner ruleset) unguarded (act .syncRecovery)
        (outcome (fun _ s' => Stage w₀ s'.previous (Bundle.Complete w₀ gen s'.previous) s')
          fun _ => Untouched w₀) s' w' := by
    intro s' w' h'
    refine wp_mono (wp_look h' fun _ _ h => h) ?_
    rintro (e | _) s'' w'' h''
    · exact h''
    · refine ⟨h''.1, rfl, ?_⟩
      rw [h''.2.1]
      exact h''.2.2
  have htables : ∀ s' w', Stage w₀ s.previous listed s' w' →
      wp (nftables owner ruleset) unguarded
        (do Act.when gen.reload snapshotLive; act .syncRecovery)
        (outcome (fun _ s' => Stage w₀ s'.previous (Bundle.Complete w₀ gen s'.previous) s')
          fun _ => Untouched w₀) s' w' := by
    intro s' w' h'
    rw [wp_bind, wp_when]
    refine ⟨fun hreload => ?_, fun hreload => ?_⟩
    · have hsnapshot : wp (nftables owner ruleset) unguarded snapshotLive
          (outcome (fun _ => Stage w₀ s.previous (Bundle.Complete w₀ gen s.previous))
            fun _ => Untouched w₀) s' w' :=
        wp_snapshotLive h' fun bundle hlisted => hcomplete bundle _ hlisted fun _ => rfl
      refine wp_mono hsnapshot ?_
      rintro (e | _) s'' w'' h''
      · exact h''
      · exact hsync s'' w'' h''
    · obtain ⟨huntouched, hprevious, bundle, hbundle, hlisted⟩ := h'
      exact hsync s' w' ⟨huntouched, hprevious, bundle, hbundle,
        hcomplete bundle bundle.live hlisted fun h => absurd h hreload⟩
  rw [outcome_ok, wp_bind, wp_get, outcome_ok, wp_bind]
  refine wp_mono hmanifest ?_
  rintro (e | _) s₁ w₁ h₁
  · exact h₁
  rw [outcome_ok, wp_bind, wp_when]
  refine ⟨fun _ => ?_, fun _ => htables s₁ w₁ h₁⟩
  split
  · refine wp_mono (wp_look h₁ fun _ _ h => h) ?_
    rintro (e | _) s₂ w₂ h₂
    · exact h₂
    · exact htables s₂ w₂ h₂
  · exact h₁.1

end Preparing

/-! ### From the first published file on -/

section Publishing

variable {owner : ℕ × ℕ} {ruleset : (String → Option File) → Live} {w₀ : System.World}
  {gen : Generation} {s : Locals} {w : System.World} {recovery : String}

/-- A generation as it is in force: its files, the other files, and the owned tables. -/
structure Published (owner : ℕ × ℕ) (ruleset : (String → Option File) → Live) (w₀ : System.World)
    (gen : Generation) (w : System.World) : Prop where
  /-- Every generated file is there. -/
  generated : ∀ entry ∈ gen.rendered,
    w.files entry.1 = some (writtenFile owner entry.2 (gen.mode entry.1))
  /-- The other files are as before. -/
  others : ∀ path, path ∉ gen.rendered.map Prod.fst → w.files path = w₀.files path
  /-- The owned tables are those of the files, if they are reloaded. -/
  live : w.live = if gen.reload then ruleset w.files else w₀.live

/-- Publishing one file. -/
theorem wp_publishOne {entry : String × String} {rest : List (String × String)}
    (hnext : ∃ before, gen.rendered = before ++ entry :: rest ∧ ∀ e ∈ before,
      w.files e.1 = some (writtenFile owner e.2 (gen.mode e.1)))
    (hidle : s.liveAttempted = false) (h : Publishing w₀ gen s w) :
    wp (nftables owner ruleset) unguarded (publishOne gen entry)
      (outcome (fun _ s' w' => Publishing w₀ gen s' w' ∧ s'.liveAttempted = false ∧
          ∃ before, gen.rendered = before ++ rest ∧ ∀ e ∈ before,
            w'.files e.1 = some (writtenFile owner e.2 (gen.mode e.1)))
        fun _ => Publishing w₀ gen) s w := by
  obtain ⟨before, hsplit, hbefore⟩ := hnext
  have hpath : entry.1 ∈ gen.rendered.map Prod.fst := by simp [hsplit]
  unfold publishOne
  rw [wp_bind, wp_modify, outcome_ok, wp_act]
  rintro answer w' - heffect
  have hattempted : ∀ w'', w''.bundle = w.bundle → w''.live = w.live → w''.begun = w.begun →
      (∀ path, path ≠ entry.1 → w''.files path = w.files path) →
      Publishing w₀ gen { s with attempted := s.attempted ++ [entry.1] } w'' := by
    intro w'' hbundle hlive hbegun hfiles
    refine ⟨fun path hout => ?_, fun path hin => ?_, fun h' => hlive.trans (h.live h'),
      h.liveAttempted, hbegun.trans h.begun, h.retain, hbundle ▸ h.bundle⟩
    · obtain ⟨hout, hne⟩ : path ∉ s.attempted ∧ path ≠ entry.1 := by simpa using hout
      exact (hfiles path hne).trans (h.files path hout)
    · rcases mem_append.mp hin with hin | hin
      · exact h.attempted path hin
      · exact mem_singleton.mp hin ▸ hpath
  have hput : Publishing w₀ gen { s with attempted := s.attempted ++ [entry.1] }
      (w.put entry.1 (some (writtenFile owner entry.2 (gen.mode entry.1)))) :=
    hattempted _ rfl rfl rfl fun path hne => if_neg hne
  rcases heffect with rfl | ⟨⟨e, rfl⟩, rfl⟩
  · cases answer with
    | error e => exact hput
    | ok _ =>
      refine ⟨hput, hidle, before ++ [entry], by simp [hsplit], fun e he => ?_⟩
      rcases mem_append.mp he with he | he
      · -- A path is generated once.
        have hne : e.1 ≠ entry.1 := by
          have hnodup := gen.nodup
          rw [hsplit, map_append, map_cons, nodup_append] at hnodup
          exact hnodup.2.2 e.1 (mem_map_of_mem he) entry.1 mem_cons_self
        exact (if_neg hne).trans (hbefore e he)
      · rw [mem_singleton.mp he]
        exact if_pos rfl
  · exact hattempted w' rfl rfl rfl fun _ _ => rfl

/-- From the complete bundle to the end of the `try`. -/
theorem wp_publishAll (hstage : Stage w₀ s.previous (Bundle.Complete w₀ gen s.previous) s w) :
    wp (nftables owner ruleset) unguarded
      (do
        Act.modify fun s => { s with retain := true }
        Act.forEach gen.rendered (publishOne gen)
        Act.when gen.check (act .validatePublished)
        Act.when gen.reload (do
          Act.modify fun s => { s with liveAttempted := true }
          act .reload)
        Act.modify fun s => { s with retain := false })
      (outcome (fun _ s' w' => Published owner ruleset w₀ gen w' ∧ s'.retain = false ∧
          w'.begun = true)
        fun _ => Publishing w₀ gen) s w := by
  obtain ⟨huntouched, -, hbundle⟩ := hstage
  have hstart : Publishing w₀ gen { s with retain := true } w :=
    ⟨fun path _ => by rw [huntouched.files], by simp [huntouched.attempted],
      fun _ => huntouched.live, by simp [huntouched.liveAttempted], huntouched.begun, rfl, hbundle⟩
  have hend : ∀ s' w', Publishing w₀ gen s' w' → s'.liveAttempted = false →
      (∀ e ∈ gen.rendered, w'.files e.1 = some (writtenFile owner e.2 (gen.mode e.1))) →
      wp (nftables owner ruleset) unguarded
        (do
          Act.when gen.reload (do
            Act.modify fun s => { s with liveAttempted := true }
            act .reload)
          Act.modify fun s => { s with retain := false })
        (outcome (fun _ s' w' => Published owner ruleset w₀ gen w' ∧ s'.retain = false ∧
            w'.begun = true)
          fun _ => Publishing w₀ gen) s' w' := by
    intro s' w' h hidle hgenerated
    have hothers : ∀ path, path ∉ gen.rendered.map Prod.fst → w'.files path = w₀.files path :=
      fun path hout => h.files path fun hin => hout (h.attempted path hin)
    rw [wp_bind, wp_when]
    refine ⟨fun hreload => ?_, fun hreload => ?_⟩
    · rw [wp_bind, wp_modify, outcome_ok, wp_act]
      rintro answer w'' - ⟨hok, herror⟩
      cases answer with
      | error e =>
        obtain ⟨live, rfl⟩ := herror e rfl
        exact ⟨h.files, h.attempted, nofun, fun _ => hreload, h.begun, h.retain, h.bundle⟩
      | ok _ =>
        obtain rfl := hok rfl
        exact ⟨⟨hgenerated, hothers, by simp [hreload]⟩, rfl, h.begun⟩
    · exact ⟨⟨hgenerated, hothers, by simpa [hreload] using h.live hidle⟩, rfl, h.begun⟩
  rw [wp_bind, wp_modify, outcome_ok, wp_bind]
  refine wp_forEach (fun rest s' w' => Publishing w₀ gen s' w' ∧ s'.liveAttempted = false ∧
    ∃ before, gen.rendered = before ++ rest ∧ ∀ e ∈ before,
      w'.files e.1 = some (writtenFile owner e.2 (gen.mode e.1)))
    ⟨hstart, huntouched.liveAttempted, [], rfl, by simp⟩
    (fun entry rest s' w' h => wp_publishOne h.2.2 h.2.1 h.1) ?_
  rintro s' w' ⟨h, hidle, before, hall, hgenerated⟩
  rw [append_nil] at hall
  subst hall
  rw [outcome_ok, wp_bind, wp_when]
  refine ⟨fun _ => ?_, fun _ => hend s' w' h hidle hgenerated⟩
  rw [wp_act]
  rintro answer w'' - hsame
  obtain rfl : w'' = w' := hsame
  cases answer with
  | error e => exact h
  | ok _ => exact hend s' w'' h hidle hgenerated

end Publishing

/-! ### The rollback -/

section Rollback

variable {owner : ℕ × ℕ} {ruleset : (String → Option File) → Live} {w₀ : System.World}
  {gen : Generation} {s : Locals} {w : System.World}

/-- The files and the owned tables are as before. -/
def System.World.AsBefore (w₀ w : System.World) : Prop := w.files = w₀.files ∧ w.live = w₀.live

/-- The bundle of the previous generation is on disk. -/
def System.World.Retains (w₀ : System.World) (gen : Generation) (w : System.World) : Prop :=
  ∃ bundle previous, w.bundle = some bundle ∧ bundle.Complete w₀ gen previous

/-- How a rollback ends: everything is as before, or the bundle is kept. -/
def RolledBack (w₀ : System.World) (gen : Generation) (x : Except Fault Unit) (s : Locals)
    (w : System.World) : Prop :=
  w.begun = true ∧ ∃ e, x = .error e ∧
    (s.retain = false ∧ w₀.AsBefore w ∧ e.kind ∈ [.policyError, .cancelled] ∨
      s.retain = true ∧ w₀.Retains gen w ∧ e.kind ∈ [.recoveryRequired, .cancelled, .other])

/-- The situation of a rollback with some files still to be restored. -/
structure Restoring (w₀ w₁ : System.World) (gen : Generation) (s : Locals) (rest : List Saved)
    (failures : List String) (w : System.World) : Prop where
  /-- What has not been attempted is as before. -/
  files : ∀ path, path ∉ s.attempted → w.files path = w₀.files path
  /-- Without a failure what has been restored is as before. -/
  restored : failures = [] → ∀ path ∈ s.attempted, path ∉ rest.map Saved.path →
    w.files path = w₀.files path
  /-- The owned tables wait. -/
  live : w.live = w₁.live
  /-- The bundle stays. -/
  bundle : w.bundle = w₁.bundle
  /-- The recovery directory has been made. -/
  begun : w.begun = true

/-- Restoring one file. -/
theorem wp_restoreSaved {w₁ : System.World} {bundle : Bundle} {saved : Saved} {rest : List Saved}
    {failures : List String} (hbundle : w₁.bundle = some bundle)
    (hrestored : bundle.restored saved = w₀.files saved.path)
    (h : Restoring w₀ w₁ gen s (saved :: rest) failures w) :
    wp (nftables owner ruleset) unguarded (restoreSaved s.attempted failures saved)
      (outcome (fun failures s' w' => s' = s ∧ Restoring w₀ w₁ gen s rest failures w')
        fun e s' w' => s' = s ∧ w'.bundle = w₁.bundle ∧ w'.begun = true ∧
          e.kind ∈ [.cancelled, .other]) s w := by
  unfold restoreSaved
  split
  · rename_i hout
    refine ⟨rfl, h.files, fun hnone path hin hrest => h.restored hnone path hin ?_, h.live, h.bundle,
      h.begun⟩
    rw [map_cons, mem_cons, not_or]
    exact ⟨fun heq => hout (heq ▸ hin), hrest⟩
  · rename_i hin
    -- Both ways put back what stood at the path, or fail with the path in some state.
    have hact : ∀ action, (∀ answer w', action.does owner ruleset w answer w' →
          effect w (w.put saved.path (w₀.files saved.path)) answer w') →
        (∀ kind, (Step.act action).mayRaise kind = true →
          kind ∈ [.osError, .cancelled, .other]) →
        wp (nftables owner ruleset) unguarded
          (Act.handleIf (do act action; pure failures) Fault.isOs fun _ =>
            pure (failures ++ ["cannot restore " ++ saved.path]))
          (outcome (fun failures s' w' => s' = s ∧ Restoring w₀ w₁ gen s rest failures w')
            fun e s' w' => s' = s ∧ w'.bundle = w₁.bundle ∧ w'.begun = true ∧
              e.kind ∈ [.cancelled, .other]) s w := by
      intro action hdoes hkinds
      rw [wp_handleIf_cases, wp_bind, wp_act]
      intro answer w' hraises hdone
      have heffect := hdoes answer w' hdone
      have hfiles : (∀ path, path ≠ saved.path → w'.files path = w.files path) ∧
          w'.live = w.live ∧ w'.bundle = w.bundle ∧ w'.begun = w.begun := by
        rcases heffect with rfl | ⟨-, rfl⟩
        · exact ⟨fun path hne => if_neg hne, rfl, rfl, rfl⟩
        · exact ⟨fun _ _ => rfl, rfl, rfl, rfl⟩
      obtain ⟨hother, hlive, hkept, hbegun⟩ := hfiles
      have hnext : ∀ failures', (failures' = [] → failures = [] ∧
          w'.files saved.path = w₀.files saved.path) →
          Restoring w₀ w₁ gen s rest failures' w' := by
        intro failures' hclean
        refine ⟨fun path hout => ?_, fun hnone path hmem hrest => ?_, hlive.trans h.live,
          hkept.trans h.bundle, hbegun.trans h.begun⟩
        · exact (hother path fun heq => hin fun hcontra => hout (heq ▸ hcontra)).trans
            (h.files path hout)
        · obtain ⟨hbefore, hput⟩ := hclean hnone
          by_cases heq : path = saved.path
          · exact heq ▸ hput
          · refine (hother path heq).trans (h.restored hbefore path hmem ?_)
            rw [map_cons, mem_cons, not_or]
            exact ⟨heq, hrest⟩
      cases answer with
      | error e =>
        refine ⟨fun _ => ⟨rfl, hnext _ (by simp)⟩, fun hos => ?_⟩
        have hkind := hkinds e.kind (hraises e rfl)
        refine ⟨rfl, hkept.trans h.bundle, hbegun.trans h.begun, ?_⟩
        simpa [show e.kind ≠ .osError from fun heq => by simp [Fault.isOs, heq] at hos] using hkind
      | ok _ =>
        refine ⟨rfl, hnext failures fun hnone => ⟨hnone, ?_⟩⟩
        rcases heffect with rfl | ⟨⟨e, he⟩, -⟩
        · exact if_pos rfl
        · cases he
    have hkinds : ∀ action, (Step.act action).checks = false → ∀ kind,
        (Step.act action).mayRaise kind = true → kind ∈ [.osError, .cancelled, .other] := by
      intro action hchecks kind hraises
      cases kind <;> simp_all [Step.mayRaise]
    have hbundle' : w.bundle = some bundle := h.bundle.trans hbundle
    cases hexisted : saved.existed with
    | some existed =>
      refine hact (.restore saved) (fun answer w' hdone => ?_) (hkinds _ rfl)
      have heffect : effect w (w.put saved.path (w.bundle.bind fun bundle => bundle.restored saved))
        answer w' := hdone
      rwa [hbundle', Option.bind_some, hrestored] at heffect
    | none =>
      refine hact (.remove saved.path) (fun answer w' hdone => ?_) (hkinds _ rfl)
      have habsent : w₀.files saved.path = none := by
        rw [← hrestored]
        cases hdata : bundle.backups saved.index <;> simp [Bundle.restored, hdata, hexisted]
      have heffect : effect w (w.put saved.path none) answer w' := hdone
      rwa [← habsent] at heffect

/-- The end of a rollback says what is known. -/
theorem wp_conclude {error : Fault} {failures : List String} {uncertain : Bool}
    (hbegun : w.begun = true) (hretains : failures ≠ [] ∨ uncertain = true → w₀.Retains gen w)
    (hclean : failures = [] → w₀.AsBefore w) :
    wp (nftables owner ruleset) unguarded (conclude error failures uncertain)
      (RolledBack w₀ gen) s w := by
  unfold conclude
  split
  · rename_i hunknown
    exact ⟨hbegun, _, rfl, .inr ⟨rfl, hretains hunknown, by simp⟩⟩
  · rename_i hcertain
    have hbefore := hclean (not_not.mp (not_or.mp hcertain).1)
    rw [wp_bind, wp_modify, outcome_ok]
    split
    · rename_i hcancelled
      exact ⟨hbegun, _, rfl, .inl ⟨rfl, hbefore, by simp [hcancelled]⟩⟩
    · exact ⟨hbegun, _, rfl, .inl ⟨rfl, hbefore, by simp⟩⟩

/-- The rollback after something has been published. -/
theorem wp_rollback_publishing (error : Fault) (h : Publishing w₀ gen s w) :
    wp (nftables owner ruleset) unguarded (rollback error) (RolledBack w₀ gen) s w := by
  obtain ⟨bundle, hbundle, hcomplete⟩ := h.bundle
  have hretains : ∀ w' : System.World, w'.bundle = w.bundle → w₀.Retains gen w' := fun w' hsame =>
    ⟨bundle, s.previous, hsame.trans hbundle, hcomplete⟩
  unfold rollback
  rw [wp_bind, wp_get, outcome_ok, wp_bind]
  refine wp_fold (fun rest failures s' w' => s' = s ∧ Restoring w₀ w gen s rest failures w' ∧
    ∀ saved ∈ rest, saved ∈ s.previous) ⟨rfl, ⟨h.files, ?_, rfl, rfl, h.begun⟩, by simp⟩ ?_ ?_
  · intro _ path hin hout
    refine absurd (h.attempted path hin) ?_
    rw [← hcomplete.paths]
    simpa using hout
  · rintro saved rest failures s' w' ⟨rfl, hrestoring, hmem⟩
    refine wp_mono (wp_restoreSaved hbundle
      (hcomplete.restored saved (hmem saved mem_cons_self)) hrestoring) ?_
    rintro (e | failures') s'' w'' hpost
    · obtain ⟨rfl, hsame, hbegun, hkind⟩ := hpost
      refine ⟨hbegun, e, rfl, .inr ⟨h.retain, hretains w'' hsame, ?_⟩⟩
      exact mem_cons_of_mem _ hkind
    · obtain ⟨rfl, hpost⟩ := hpost
      exact ⟨rfl, hpost, fun other hother => hmem other (mem_cons_of_mem _ hother)⟩
  · rintro failures s' w' ⟨rfl, hrestoring, -⟩
    have hfiles : failures = [] → w'.files = w₀.files := by
      intro hnone
      funext path
      by_cases hin : path ∈ s'.attempted
      · exact hrestoring.restored hnone path hin (by simp)
      · exact hrestoring.files path hin
    rw [outcome_ok, wp_bind]
    split
    · rename_i hlive
      unfold restoreLive
      rw [wp_handleIf_cases, wp_bind, wp_act]
      rintro answer w'' hraises ⟨hok, herror⟩
      cases answer with
      | error e =>
        obtain ⟨live, rfl⟩ := herror e rfl
        refine ⟨fun _ => ?_, fun hother => ?_⟩
        · exact wp_conclude hrestoring.begun (fun _ => hretains _ hrestoring.bundle) (by simp)
        · refine ⟨hrestoring.begun, e, rfl, .inr ⟨h.retain, hretains _ hrestoring.bundle, ?_⟩⟩
          cases hkind : e.kind <;> simp_all [Fault.isPolicyOrOs]
      | ok _ =>
        obtain ⟨commands, hcommands, rfl⟩ := hok rfl
        obtain ⟨script, hscript, hrun⟩ := hcomplete.live (h.liveAttempted hlive)
        rw [hrestoring.bundle, hbundle, Option.bind_some, hscript, Option.some.injEq] at hcommands
        subst hcommands
        exact wp_conclude hrestoring.begun (fun _ => hretains _ hrestoring.bundle) fun hnone =>
          ⟨hfiles hnone, hrun _⟩
    · rename_i hlive
      refine wp_conclude hrestoring.begun (fun _ => hretains _ hrestoring.bundle) fun hnone =>
        ⟨hfiles hnone, hrestoring.live.trans (h.live ?_)⟩
      simpa using hlive

/-- The rollback before anything has been published. -/
theorem wp_rollback_untouched (error : Fault) (h : Untouched w₀ s w) :
    wp (nftables owner ruleset) unguarded (rollback error) (RolledBack w₀ gen) s w := by
  unfold rollback
  rw [wp_bind, wp_get, outcome_ok, wp_bind]
  refine wp_fold (fun _ failures s' w' => s' = s ∧ w' = w ∧ failures = []) ⟨rfl, rfl, rfl⟩ ?_ ?_
  · rintro saved rest failures s' w' ⟨rfl, rfl, rfl⟩
    unfold restoreSaved
    rw [if_pos (by simp [h.attempted])]
    exact ⟨rfl, rfl, rfl⟩
  · rintro failures s' w' ⟨rfl, rfl, rfl⟩
    rw [outcome_ok, wp_bind, if_neg (by simp [h.liveAttempted])]
    exact wp_conclude h.begun (by simp [h.liveAttempted]) fun _ => ⟨h.files, h.live⟩

end Rollback

/-! ### The whole publication -/

section Outcome

variable {owner : ℕ × ℕ} {ruleset : (String → Option File) → Live} {w₀ : System.World}
  {gen : Generation} {s : Locals} {w : System.World} {recovery : String}

/-- How a publication that began with `w₀` may end. -/
inductive Outcome (owner : ℕ × ℕ) (ruleset : (String → Option File) → Live) (w₀ : System.World)
    (gen : Generation) : Except Fault Unit → System.World → Prop
  /-- The generation is published, and the bundle is gone. -/
  | published {w : System.World} (published : Published owner ruleset w₀ gen w)
      (removed : w.bundle = none) : Outcome owner ruleset w₀ gen (.ok ()) w
  /-- Everything is as before, and the bundle is gone. -/
  | restored {w : System.World} {e : Fault} (before : w₀.AsBefore w)
      (kind : e.kind ∈ [.policyError, .cancelled]) (removed : w.bundle = none) :
      Outcome owner ruleset w₀ gen (.error e) w
  /-- The bundle of the previous generation is on disk. -/
  | retained {w : System.World} {e : Fault} (retains : w₀.Retains gen w)
      (kind : e.kind ∈ [.recoveryRequired, .cancelled, .other]) :
      Outcome owner ruleset w₀ gen (.error e) w
  /-- The recovery directory has not been made. -/
  | refused {w : System.World} {e : Fault} (before : w₀.AsBefore w) (begun : w.begun = false) :
      Outcome owner ruleset w₀ gen (.error e) w
  /-- The recovery directory could not be removed, after everything else was done. -/
  | uncleaned {w : System.World} {e : Fault} (uncleaned : w.uncleaned = true)
      (done : Published owner ruleset w₀ gen w ∨ w₀.AsBefore w) :
      Outcome owner ruleset w₀ gen (.error e) w

/-- Removing the bundle changes nothing else. -/
theorem wp_cleanup {Q : Except Fault Unit → Locals → System.World → Prop}
    (hkeep : s.retain = true → Q (.ok ()) s w)
    (hremove : s.retain = false → ∀ w' : System.World, w'.files = w.files → w'.live = w.live →
      (w'.bundle = none → Q (.ok ()) s w') ∧ (w'.uncleaned = true → ∀ e, Q (.error e) s w')) :
    wp (nftables owner ruleset) unguarded cleanup Q s w := by
  unfold cleanup
  rw [wp_bind, wp_get, outcome_ok, wp_when]
  refine ⟨fun hretain => ?_, fun hretain => hkeep (by simpa using hretain)⟩
  rw [wp_bind, wp_act]
  rintro answer w' - ⟨hok, herror⟩
  cases answer with
  | error e =>
    obtain ⟨bundle, rfl⟩ := herror e rfl
    exact (hremove hretain { w with bundle := bundle, uncleaned := true } rfl rfl).2 rfl e
  | ok _ =>
    obtain rfl := hok rfl
    rw [outcome_ok, wp_act]
    rintro answer w' - ⟨hok, herror⟩
    cases answer with
    | error e =>
      obtain rfl := herror e rfl
      exact (hremove hretain { w with bundle := none, uncleaned := true } rfl rfl).2 rfl e
    | ok _ =>
      obtain rfl := hok rfl
      exact (hremove hretain { w with bundle := none } rfl rfl).1 rfl

/-- The `try` with its handler and finalizer. -/
theorem wp_transaction (hw : Untouched w₀ s w) (hbundle : w.bundle = some Bundle.empty)
    (hprevious : s.previous = []) :
    wp (nftables owner ruleset) unguarded
      (Act.ensuring (Act.handle (publish gen recovery) rollback) cleanup)
      (fun x _ w' => Outcome owner ruleset w₀ gen x w') s w := by
  rw [wp_ensuring, wp_handle]
  have hrolledBack : ∀ x s' w', RolledBack w₀ gen x s' w' →
      wp (nftables owner ruleset) unguarded cleanup
        (outcome (fun _ _ w' => Outcome owner ruleset w₀ gen x w')
          fun e _ w' => Outcome owner ruleset w₀ gen (.error e) w') s' w' := by
    rintro x s' w' ⟨-, e, rfl, ⟨hretain, ⟨hfiles, hlive⟩, hkind⟩ | ⟨hretain, hretains, hkind⟩⟩
    · refine wp_cleanup (by simp [hretain]) fun _ w'' hfiles' hlive' => ?_
      have hbefore : w₀.AsBefore w'' := ⟨hfiles'.trans hfiles, hlive'.trans hlive⟩
      exact ⟨fun hnone => .restored hbefore hkind hnone,
        fun huncleaned e => .uncleaned huncleaned (.inr hbefore)⟩
    · exact wp_cleanup (fun _ => .retained hretains hkind) (by simp [hretain])
  have hraised : ∀ error s' w', Untouched w₀ s' w' ∨ Publishing w₀ gen s' w' →
      wp (nftables owner ruleset) unguarded (rollback error)
        (fun x => wp (nftables owner ruleset) unguarded cleanup
          (outcome (fun _ _ w' => Outcome owner ruleset w₀ gen x w')
            fun e _ w' => Outcome owner ruleset w₀ gen (.error e) w')) s' w' := by
    rintro error s' w' (h | h)
    · exact wp_mono (wp_rollback_untouched error h) hrolledBack
    · exact wp_mono (wp_rollback_publishing error h) hrolledBack
  unfold publish
  rw [wp_bind]
  refine wp_mono (wp_prepare hw hbundle hprevious) ?_
  rintro (e | _) s₁ w₁ h₁
  · exact hraised e s₁ w₁ (.inl h₁)
  · refine wp_mono (wp_publishAll h₁) ?_
    rintro (e | _) s₂ w₂ h₂
    · exact hraised e s₂ w₂ (.inr h₂)
    · obtain ⟨hpublished, hretain, -⟩ := h₂
      refine wp_cleanup (by simp [hretain]) fun _ w' hfiles hlive => ?_
      have hsame : Published owner ruleset w₀ gen w' := by
        refine ⟨fun entry hin => ?_, fun path hout => ?_, ?_⟩
        · rw [hfiles]
          exact hpublished.generated entry hin
        · rw [hfiles]
          exact hpublished.others path hout
        · rw [hlive, hfiles]
          exact hpublished.live
      exact ⟨fun hnone => .published hsame hnone, fun h e => .uncleaned h (.inl hsame)⟩

/-- A publication is all or nothing, wherever it fails or is cancelled. -/
theorem publication_all_or_nothing (owner : ℕ × ℕ) (ruleset : (String → Option File) → Live)
    (gen : Generation) (recovery : String) (w₀ w : System.World) (x : Except Fault Unit)
    (s : Locals) (hfresh : w₀.begun = false)
    (hrun : Program.Steps (nftables owner ruleset) w₀
      (writeGeneration gen recovery Locals.initial) w (.done (x, s))) :
    Outcome owner ruleset w₀ gen x w := by
  have hwp : wp (nftables owner ruleset) unguarded (writeGeneration gen recovery)
      (fun x _ w => Outcome owner ruleset w₀ gen x w) Locals.initial w₀ := by
    have hrefused : ∀ {e : Fault}, Outcome owner ruleset w₀ gen (.error e) w₀ :=
      .refused ⟨rfl, rfl⟩ hfresh
    -- Before the recovery directory is made, every step only looks.
    have hlook : ∀ {action : Action}, (∀ answer w', action.does owner ruleset w₀ answer w' →
        w' = w₀) → wp (nftables owner ruleset) unguarded (act action)
          (outcome (fun _ s w => s = Locals.initial ∧ w = w₀) fun e _ w =>
            Outcome owner ruleset w₀ gen (.error e) w) Locals.initial w₀ := by
      intro action hdoes
      rw [wp_act]
      intro answer w' _ hdone
      obtain rfl := hdoes answer w' hdone
      cases answer with
      | error e => exact hrefused
      | ok _ => exact ⟨rfl, rfl⟩
    have hmake : wp (nftables owner ruleset) unguarded
        (do
          act .makeRecovery
          Act.ensuring (Act.handle (publish gen recovery) rollback) cleanup)
        (fun x _ w => Outcome owner ruleset w₀ gen x w) Locals.initial w₀ := by
      rw [wp_bind, wp_act]
      rintro answer w' - ⟨hok, herror⟩
      cases answer with
      | error e =>
        obtain ⟨bundle, rfl⟩ := herror e rfl
        exact .refused ⟨rfl, rfl⟩ hfresh
      | ok _ =>
        obtain rfl := hok rfl
        exact wp_transaction ⟨rfl, rfl, rfl, rfl, rfl, rfl⟩ rfl rfl
    unfold writeGeneration
    rw [wp_bind, wp_when]
    refine ⟨fun _ => hrefused, fun _ => ?_⟩
    rw [outcome_ok, wp_bind]
    refine wp_forEach (fun _ s w => s = Locals.initial ∧ w = w₀) ⟨rfl, rfl⟩ ?_ ?_
    · rintro entry rest _ _ ⟨rfl, rfl⟩
      exact hlook fun _ _ h => h
    · rintro _ _ ⟨rfl, rfl⟩
      rw [outcome_ok, wp_bind]
      refine wp_mono (hlook fun _ _ h => h) ?_
      rintro (e | _) _ w' hpost
      · exact hpost
      obtain ⟨rfl, rfl⟩ := hpost
      rw [outcome_ok, wp_bind]
      refine wp_mono (hlook fun _ _ h => h) ?_
      rintro (e | _) _ w' hpost
      · exact hpost
      obtain ⟨rfl, rfl⟩ := hpost
      exact hmake
  exact hwp.result hrun

end Outcome

/-! ### Runs with one failing action -/

/-- The world after an action that succeeds. -/
def System.World.after (owner : ℕ × ℕ) (ruleset : (String → Option File) → Live)
    (w : System.World) : Action → System.World
  | .makeRecovery => { w with bundle := some Bundle.empty, begun := true }
  | .backup index path => { w with bundle := w.bundle.map fun bundle => { bundle with
      backups := fun i => if i = index then (w.files path).map File.data else bundle.backups i } }
  | .writeManifest previous =>
    { w with bundle := w.bundle.map fun bundle => { bundle with manifest := some previous } }
  | .writeLive commands =>
    { w with bundle := w.bundle.map fun bundle => { bundle with live := some commands } }
  | .publish path content mode => w.put path (some (writtenFile owner content mode))
  | .reload => { w with live := ruleset w.files }
  | .restore saved => w.put saved.path (w.bundle.bind fun bundle => bundle.restored saved)
  | .remove path => w.put path none
  | .rollbackLive =>
    { w with live := ((w.bundle.bind Bundle.live).getD []).foldl LiveCommand.run w.live }
  | .removeRecovery => { w with bundle := none }
  | _ => w

/-- A system on which one action raises. Its other actions succeed, a rollback of the owned tables
only with its script. -/
def failingAt (owner : ℕ × ℕ) (ruleset : (String → Option File) → Live) (action : Action)
    (fault : Fault) (w : System.World) (_ : Locals) :
    (op : Step) → Except Fault op.Reply × System.World
  | .lstat path =>
    (.ok ((w.files path).map fun file => ⟨true, file.mode, file.uid, file.gid, 0⟩), w)
  | .listTables => (.ok ([Owned.filter, .nat].filterMap fun table =>
      (w.live table).map fun _ => table.identity), w)
  | .listTable table =>
    ((w.live table).elim (.error ⟨.policyError, "no such table"⟩) .ok, w)
  | .act done =>
    if done = action then (.error fault, w)
    else if done = .rollbackLive ∧ (w.bundle.bind Bundle.live) = none then
      (.error ⟨.policyError, "no such file"⟩, w)
    else (.ok (), w.after owner ruleset done)

/-- It is an instance of the system, if the action may raise this and is not the cleanup. -/
theorem failingAt_nftables {owner : ℕ × ℕ} {ruleset : (String → Option File) → Live}
    {action : Action} {fault : Fault} (hraises : (Step.act action).mayRaise fault.kind = true)
    (haction : action ≠ .removeRecovery ∧ action ≠ .syncBackups) (w : System.World) (s : Locals)
    (op : Step) :
    nftables owner ruleset w s op (failingAt owner ruleset action fault w s op).1
      (failingAt owner ruleset action fault w s op).2 := by
  cases op with
  | lstat path =>
    refine ⟨nofun, rfl, ?_⟩
    rintro _ ⟨⟩
    cases w.files path <;> rfl
  | listTables =>
    refine ⟨nofun, rfl, ?_⟩
    rintro _ ⟨⟩ table
    cases hfilter : w.live .filter <;> cases hnat : w.live .nat <;> cases table <;>
      simp [Owned.identity, hfilter, hnat]
  | listTable table =>
    refine ⟨fun e he => ?_, rfl, fun text htext => ?_⟩
    · change (w.live table).elim (.error _) .ok = Except.error e at he
      cases hlive : w.live table with
      | none =>
        rw [hlive] at he
        cases he
        rfl
      | some text =>
        rw [hlive] at he
        cases he
    · change (w.live table).elim (.error _) .ok = Except.ok text at htext
      cases hlive : w.live table with
      | none =>
        rw [hlive] at htext
        cases htext
      | some found =>
        rw [hlive] at htext
        cases htext
        rfl
  | act done =>
    change (∀ e, _ → _) ∧ Action.does owner ruleset w done _ _
    unfold failingAt
    dsimp only
    split
    · rename_i heq
      subst heq
      refine ⟨fun e he => by cases he; exact hraises, ?_⟩
      cases done <;> first
        | exact absurd rfl haction.1
        | exact absurd rfl haction.2
        | exact .inr ⟨⟨_, rfl⟩, rfl⟩
        | exact ⟨nofun, fun _ _ => ⟨_, rfl⟩⟩
        | rfl
    · split
      · rename_i hnone
        obtain ⟨rfl, -⟩ := hnone
        exact ⟨fun e he => by cases he; rfl, nofun, fun _ _ => ⟨_, rfl⟩⟩
      · rename_i hscript
        refine ⟨nofun, ?_⟩
        cases done with
        | rollbackLive =>
          have hsome : w.bundle.bind Bundle.live ≠ none := fun h => hscript ⟨rfl, h⟩
          obtain ⟨commands, hcommands⟩ := Option.ne_none_iff_exists'.mp hsome
          refine ⟨fun _ => ⟨commands, hcommands, ?_⟩, nofun⟩
          simp [System.World.after, hcommands]
        | publish | restore | remove => exact .inl rfl
        | trustedOutput | durableDirectory | validateCandidate | syncRecovery
        | validatePublished => rfl
        | writeCandidate =>
          refine ⟨fun _ => ?_, nofun⟩
          simp [System.World.after]
        | _ => exact ⟨fun _ => rfl, nofun⟩

/-- A generation of one file. -/
def oneFile : Generation where
  check := true
  reload := true
  paths := ["/etc/nftables.conf"]
  conf := "/etc/nftables.conf"
  rendered := [("/etc/nftables.conf", "new")]
  nodup := by decide

/-- The previous generation: the file, and one of the owned tables. -/
def previousWorld : System.World where
  files path := if path = "/etc/nftables.conf" then some ⟨"old", 0o644, 0, 0⟩ else none
  live table := if table = .filter then some "old table" else none
  bundle := none
  begun := false
  uncleaned := false

/-- Publishing the generation, with one failing action. -/
def publication (action : Action) (fault : Fault) :
    System.World × Program System Locals (Except Fault Unit × Locals) :=
  Program.runFor (failingAt (0, 0) (fun _ _ => none) action fault) 60 previousWorld
    (writeGeneration oneFile "/var/backups/nftables" Locals.initial)

/-- The publication whose reload times out. -/
theorem publication_all_or_nothing_timeout : ∃ e s,
    (publication .reload ⟨.commandTimeout, "timed out"⟩).2.result? = some (.error e, s) ∧
      Outcome (0, 0) (fun _ _ => none) previousWorld oneFile (.error e)
        (publication .reload ⟨.commandTimeout, "timed out"⟩).1 := by
  have hresult : (publication .reload ⟨.commandTimeout, "timed out"⟩).2.result?.any
      (fun x => x.1 matches .error _) = true := by decide
  obtain ⟨⟨x, s⟩, hdone, hraised⟩ := (Option.any_eq_true _ _).mp hresult
  cases x with
  | ok _ => cases hraised
  | error e =>
    refine ⟨e, s, hdone, publication_all_or_nothing (0, 0) (fun _ _ => none) oneFile
      "/var/backups/nftables" previousWorld _ _ s rfl ?_⟩
    rw [← Program.eq_done_of_result? hdone]
    exact .of_runFor (failingAt_nftables rfl (by decide)) 60 previousWorld _

/-- A cancelled validation is passed on with everything as before, and the bundle is removed. -/
theorem cancelled_bundle_removed : ¬∀ (owner : ℕ × ℕ)
    (ruleset : (String → Option File) → Live) (gen : Generation) (recovery : String)
    (w₀ w : System.World) (x : Except Fault Unit) (s : Locals), w₀.begun = false →
      Program.Steps (nftables owner ruleset) w₀ (writeGeneration gen recovery Locals.initial) w
        (.done (x, s)) →
          x = .ok () ∧ Published owner ruleset w₀ gen w ∨
          (∃ e, x = .error e ∧ e.kind = .policyError ∧ w₀.AsBefore w) ∨
          ∃ e, x = .error e ∧ e.kind ∈ [.recoveryRequired, .cancelled] ∧ w₀.Retains gen w := by
  intro h
  have hresult : (publication (.validateCandidate 0) ⟨.cancelled, "interrupt"⟩).2.result?.any
      (fun x => x.1 = .error ⟨.cancelled, "interrupt"⟩) = true := by decide
  have hremoved : (publication (.validateCandidate 0) ⟨.cancelled, "interrupt"⟩).1.bundle.isNone =
      true := by decide
  obtain ⟨⟨x, s⟩, hdone, hraised⟩ := (Option.any_eq_true _ _).mp hresult
  obtain rfl := of_decide_eq_true hraised
  have hrun : Program.Steps (nftables (0, 0) fun _ _ => none) previousWorld
      (writeGeneration oneFile "/var/backups/nftables" Locals.initial)
      (publication (.validateCandidate 0) ⟨.cancelled, "interrupt"⟩).1
      (.done (.error ⟨.cancelled, "interrupt"⟩, s)) := by
    rw [← Program.eq_done_of_result? hdone]
    exact .of_runFor (failingAt_nftables rfl (by decide)) 60 previousWorld _
  rcases h _ _ _ _ _ _ _ _ rfl hrun with ⟨hok, -⟩ | ⟨e, he, hkind, -⟩ | ⟨e, he, -, hretains⟩
  · cases hok
  · cases he
    cases hkind
  · obtain ⟨bundle, _, hbundle, -⟩ := hretains
    rw [hbundle] at hremoved
    cases hremoved

end Preseed.Nftables
