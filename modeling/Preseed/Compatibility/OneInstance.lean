import Preseed.Compatibility.Launch

/-!
# One instance per application

The lifetime lock keeps services apart in every session. Only one of them is on its way
at a time, and only its own launcher reports it, as long as no launcher takes the launch
lock while a service of an earlier launcher is still on its way. A probe of the lifetime
lock can turn a starting service away.
-/

namespace Preseed.Compatibility.Launching

open Session Launcher

variable {L : Type} [DecidableEq L] {s s' : Session L} {m : Move L} {l k : L}

/-- The launcher has not started its service yet. -/
def Launcher.unstarted : Launcher → Bool
  | waiting | asking | probing | free | activating | accepted => true
  | polling | checking | owned | failing | reported | gone => false

/-- The launcher has started its service and watches it. -/
def Launcher.watches : Launcher → Bool
  | polling | checking | owned => true
  | _ => false

/-- The launcher has seen its service. -/
def Launcher.saw : Launcher → Bool
  | owned | reported => true
  | _ => false

theorem Launcher.holds_of_watches {pc : Launcher} (h : pc.watches = true) : pc.holds = true := by
  cases pc <;> first | rfl | cases h

theorem Launcher.holds_of_probes {pc : Launcher} (h : pc.probes = true) : pc.holds = true := by
  cases pc <;> first | rfl | cases h

/-! ### What a move can do -/

/-- Where the launchers and the services may have come from by a move. -/
structure Session.Changes (s : Session L) (m : Move L) (s' : Session L) : Prop where
  holds : ∀ l, (s'.launcher l).holds = true →
    (s.launcher l).holds = true ∨ m = .acquire l ∧ s.launchLock = none
  free : ∀ l, s'.launcher l = .free → s.launcher l = .free ∨ s.launcher l = .probing
  watches : ∀ l, (s'.launcher l).watches = true →
    (s.launcher l).watches = true ∨ s.launcher l = .free
  saw : ∀ l, (s'.launcher l).saw = true →
    (s.launcher l).saw = true ∨ s.launcher l = .polling ∧ s.instanceLock ≠ none
  starting : ∀ k, s'.service k = .starting → s.service k = .starting ∨ s.launcher k = .free
  running : ∀ k, s'.service k = .running →
    s.service k = .running ∨ s.service k = .starting ∧ s.instanceLock = none
  took : ∀ k, (s.service k).took = true → (s'.service k).took = true ∨ s.launcher k = .free
  refused : ∀ k holder, s'.service k = .refused holder → s.service k = .refused holder ∨
    m = .take k ∧ s.service k = .starting ∧ s.instanceLock = some holder

theorem Session.step_changes (hs : s.step m = some s') : s.Changes m s' := by
  cases m <;> simp only [step] at hs <;> (repeat' split at hs) <;> cases hs <;>
    constructor <;> intro k <;>
    (try simp only [goes, turns, unlaunch, unlock,
      Function.update_apply, Move.acquire.injEq, Move.take.injEq, reduceCtorEq]) <;>
    first
    | exact .inl
    | exact fun _ => .inl
    | grind [holds, watches, saw, Service.took]

/-! ### Locks and control points -/

/-- What holds in every session. -/
structure Session.Inv (s : Session L) : Prop where
  /-- The launch lock is its holder's. -/
  launch : ∀ l, s.launchLock = some l ↔ (s.launcher l).holds = true
  /-- The lifetime lock is a probe's or a running service's. -/
  probe : ∀ l, s.instanceLock = some (.probe l) ↔ (s.launcher l).probes = true
  service : ∀ l, s.instanceLock = some (.service l) ↔ s.service l = .running
  /-- A service is started once. -/
  unstarted : ∀ l, (s.launcher l).unstarted = true → s.service l = .absent

omit [DecidableEq L] in
theorem Session.inv_initial : (Session.initial : Session L).Inv := by
  constructor <;> simp [initial, holds, probes]

/-- Who moves. -/
def Move.who : Move L → L
  | acquire l | ask l | release l | again l | activate l | start l | poll l | unprobe l | report l
  | fail l | close l | kill l | take l | exit l => l

/-- Who may take or close `instance.lock` by a move. -/
def Move.holder : Move L → Holder L
  | take l | exit l => .service l
  | m => .probe m.who

/-- What a move of `who` does to a lock: it stays, it is taken, or it is closed. -/
inductive Turn {H : Type} [DecidableEq H] (lock lock' : Option H) (who : H) (has has' : Prop) : Prop
  | stay (hlock : lock' = lock) (hhas : has' ↔ has)
  | take (hlock : lock = none) (hlock' : lock' = some who) (hhas : has')
  | close (hlock : lock' = if lock = some who then none else lock) (hhas : ¬has')

/-- The lock stays its holder's. -/
theorem Turn.holder {H : Type} [DecidableEq H] {lock lock' : Option H} {who : H}
    {has has' : H → Prop} (turn : Turn lock lock' who (has who) (has' who))
    (hframe : ∀ h, h ≠ who → (has' h ↔ has h)) (hhas : ∀ h, lock = some h ↔ has h) (h : H) :
    lock' = some h ↔ has' h := by
  rcases eq_or_ne h who with rfl | hne
  · cases turn with
    | stay hlock hwho => rw [hlock, hhas, hwho]
    | take _ hlock' hwho => exact iff_of_true hlock' hwho
    | close hlock hwho =>
      refine iff_of_false (fun hsome => ?_) hwho
      rw [hlock] at hsome
      split at hsome
      · cases hsome
      · exact absurd hsome ‹_›
  · rw [hframe h hne, ← hhas]
    cases turn with
    | stay hlock => rw [hlock]
    | take hlock hlock' => simp [hlock, hlock', Ne.symm hne]
    | close hlock =>
      rw [hlock]
      split
      case isTrue hwho => simp [hwho, Ne.symm hne]
      case isFalse => rfl

/-- A move leaves the others where they are. -/
theorem Session.step_frame (hs : s.step m = some s') (hk : k ≠ m.who) :
    s'.launcher k = s.launcher k ∧ s'.service k = s.service k := by
  cases m <;> simp only [step] at hs <;> (repeat' split at hs) <;> cases hs <;>
    simp only [Move.who] at hk <;>
    simp [goes, turns, unlaunch, unlock, Function.update_of_ne hk]

theorem Session.step_launchLock (hs : s.step m = some s') :
    Turn s.launchLock s'.launchLock m.who ((s.launcher m.who).holds = true)
      ((s'.launcher m.who).holds = true) := by
  cases m <;> simp only [step] at hs <;> (repeat' split at hs) <;> cases hs <;>
    first
    | exact .stay rfl Iff.rfl
    | exact .close rfl (by simp [Move.who, goes, unlaunch, unlock,
        holds])
    | exact .take ‹_› rfl (by simp [Move.who, goes, holds])
    | exact .stay rfl (by simp_all [Move.who, goes, turns, unlock,
        holds])

/-- Whether `instance.lock` belongs to a holder. -/
def Session.has (s : Session L) : Holder L → Prop
  | .probe l => (s.launcher l).probes = true
  | .service l => s.service l = .running

theorem Session.step_instanceLock (hs : s.step m = some s') :
    Turn s.instanceLock s'.instanceLock m.holder (s.has m.holder) (s'.has m.holder) := by
  cases m <;> simp only [step] at hs <;> (repeat' split at hs) <;> cases hs <;>
    first
    | exact .stay rfl Iff.rfl
    | exact .close rfl (by simp [Move.holder, Move.who, has, goes, turns,
        unlaunch, unlock, probes])
    | exact .take ‹_› rfl (by simp [Move.holder, Move.who, has, goes,
        turns, probes])
    | exact .stay rfl (by simp_all [Move.holder, Move.who, has, goes,
        turns, unlaunch, probes])

/-- A move that is not about a service's own lock leaves who has `instance.lock`. -/
theorem Session.Inv.step_has (h : s.Inv) (hs : s.step m = some s') (holder : Holder L)
    (hne : holder ≠ m.holder) : s'.has holder ↔ s.has holder := by
  have hunstarted := h.unstarted m.who
  rcases holder with k | k
  all_goals
    rcases ne_or_eq k m.who with hk | rfl
    · simp only [has, step_frame hs hk]
    revert hne
    cases m <;> simp only [step] at hs <;> (repeat' split at hs) <;> cases hs <;>
      simp_all [Move.holder, Move.who, has, goes, turns,
        unlaunch, unlock, Launcher.unstarted]

theorem Session.Inv.step_unstarted (h : s.Inv) (hs : s.step m = some s') (k : L)
    (hk : (s'.launcher k).unstarted = true) : s'.service k = .absent := by
  rcases ne_or_eq k m.who with hne | rfl
  · obtain ⟨hlauncher, hservice⟩ := step_frame hs hne
    rw [hlauncher] at hk
    rw [hservice, h.unstarted k hk]
  · have hunstarted := h.unstarted m.who
    revert hk
    cases m <;> simp only [step] at hs <;> (repeat' split at hs) <;> cases hs <;>
      simp_all [Move.who, goes, turns, unlaunch, unlock,
        Launcher.unstarted]

theorem Session.Inv.step (h : s.Inv) (hs : s.step m = some s') : s'.Inv := by
  have hframe : ∀ k, k ≠ m.who → ((s'.launcher k).holds = true ↔ (s.launcher k).holds = true) :=
    fun k hk => by rw [(step_frame hs hk).1]
  have hlaunch : ∀ k, s'.launchLock = some k ↔ (s'.launcher k).holds = true :=
    Turn.holder (step_launchLock hs) hframe h.launch
  have hinstance := (step_instanceLock hs).holder (h.step_has hs) fun holder =>
    match holder with
    | .probe l => h.probe l
    | .service l => h.service l
  exact ⟨hlaunch, fun l => hinstance (.probe l), fun l => hinstance (.service l),
    h.step_unstarted hs⟩

namespace Session.Inv

omit [DecidableEq L] in
/-- One launcher holds the launch lock. -/
theorem launch_unique (h : s.Inv) (hl : (s.launcher l).holds = true)
    (hk : (s.launcher k).holds = true) : k = l :=
  Option.some.inj (((h.launch k).2 hk).symm.trans ((h.launch l).2 hl))

omit [DecidableEq L] in
/-- One service runs. -/
theorem running_unique (h : s.Inv) (hl : s.service l = .running) (hk : s.service k = .running) :
    k = l := by
  have heq := ((h.service k).2 hk).symm.trans ((h.service l).2 hl)
  cases heq
  rfl

omit [DecidableEq L] in
/-- A launcher that polls finds the lifetime lock taken by a service only. -/
theorem service_of_polling (h : s.Inv) (hl : s.launcher l = .polling)
    (hlock : s.instanceLock ≠ none) : ∃ k, s.service k = .running := by
  obtain ⟨holder, hholder⟩ := Option.ne_none_iff_exists'.mp hlock
  cases holder with
  | service k => exact ⟨k, (h.service k).1 hholder⟩
  | probe k =>
    -- The probe would hold the launch lock, too.
    have hprobes := (h.probe k).1 hholder
    rw [h.launch_unique (by rw [hl]; rfl) (holds_of_probes hprobes), hl] at hprobes
    cases hprobes

end Session.Inv

/-! ### Calm runs -/

/-- The two ways to go wrong are avoided: no launcher takes the launch lock while a service is on
its way, and no service tries the lifetime lock while a launcher probes it. -/
structure Session.Calm (s : Session L) (m : Move L) : Prop where
  acquire : ∀ l, m = .acquire l → s.launchLock = none → ∀ k, s.service k ≠ .starting
  take : ∀ l, m = .take l → ∀ k, s.instanceLock ≠ some (.probe k)

/-- What holds in calm runs. -/
structure Session.Alone (s : Session L) : Prop where
  /-- A service on its way belongs to the holder of the launch lock. -/
  starting : ∀ l k, (s.launcher l).holds = true → s.service k = .starting → k = l
  /-- Nothing runs when a launcher is about to start its service. -/
  free : ∀ l k, s.launcher l = .free → s.service k ≠ .running
  /-- What runs then is the service it has started. -/
  watches : ∀ l k, (s.launcher l).watches = true → s.service k = .running → k = l
  /-- What a launcher has seen is its own service. -/
  saw : ∀ l, (s.launcher l).saw = true → (s.service l).took = true
  /-- A service is refused because of another one. -/
  refused : ∀ k holder, s.service k = .refused holder → ∃ k', k' ≠ k ∧ holder = .service k'

omit [DecidableEq L] in
theorem Session.alone_initial : (Session.initial : Session L).Alone := by
  constructor <;> simp [initial, holds, watches, saw]

theorem Session.Alone.step (ha : s.Alone) (h : s.Inv) (hc : s.Calm m) (hs : s.step m = some s') :
    s'.Alone := by
  have hchanges := step_changes hs
  have hinv := h.step hs
  have habsent : ∀ k, s.launcher k = .free → s.service k = .absent :=
    fun k hk => h.unstarted k (by rw [hk]; rfl)
  have hholds : ∀ k, s.launcher k = .free → (s.launcher k).holds = true :=
    fun k hk => by rw [hk]; rfl
  have hfree : ∀ l k, s.launcher l = .free → s.service k ≠ .starting := by
    intro l k hl hk
    rw [ha.starting l k (hholds l hl) hk, habsent l hl] at hk
    cases hk
  refine ⟨fun l k hl hk => ?_, fun l k hl hk => ?_, fun l k hl hk => ?_, fun l hl => ?_,
    fun k holder hk => ?_⟩
  · rcases hchanges.starting k hk with hstarting | hstart
    · rcases hchanges.holds l hl with hold | ⟨rfl, hlock⟩
      · exact ha.starting l k hold hstarting
      · exact absurd hstarting (hc.acquire l rfl hlock k)
    · rcases hchanges.holds l hl with hold | ⟨rfl, hlock⟩
      · exact h.launch_unique hold (hholds k hstart)
      · rw [(h.launch k).2 (hholds k hstart)] at hlock
        cases hlock
  · rcases hchanges.free l hl with hfree' | hprobing
    · rcases hchanges.running k hk with hrunning | ⟨hstarting, -⟩
      · exact ha.free l k hfree' hrunning
      · exact hfree l k hfree' hstarting
    · -- The probe held the lifetime lock, so that nothing ran.
      have hprobe := (h.probe l).2 (by rw [hprobing]; rfl)
      rcases hchanges.running k hk with hrunning | ⟨-, hlock⟩
      · rw [(h.service k).2 hrunning] at hprobe
        cases hprobe
      · rw [hlock] at hprobe
        cases hprobe
  · rcases hchanges.running k hk with hrunning | ⟨hstarting, -⟩
    · rcases hchanges.watches l hl with hwatches | hstart
      · exact ha.watches l k hwatches hrunning
      · exact absurd hrunning (ha.free l k hstart)
    · rcases hchanges.watches l hl with hwatches | hstart
      · exact ha.starting l k (holds_of_watches hwatches) hstarting
      · exact absurd hstarting (hfree l k hstart)
  · have htook : (s.service l).took = true := by
      rcases hchanges.saw l hl with hsaw | ⟨hpolling, hlock⟩
      · exact ha.saw l hsaw
      · obtain ⟨k, hk⟩ := h.service_of_polling hpolling hlock
        rw [← ha.watches l k (by rw [hpolling]; rfl) hk, hk]
        rfl
    rcases hchanges.took l htook with htook' | hstart
    · exact htook'
    · rw [habsent l hstart] at htook
      cases htook
  · rcases hchanges.refused k holder hk with hrefused | ⟨rfl, hstarting, hlock⟩
    · exact ha.refused k holder hrefused
    · cases holder with
      | probe l => exact absurd hlock (hc.take k rfl l)
      | service k' =>
        refine ⟨k', ?_, rfl⟩
        rintro rfl
        rw [(h.service _).1 hlock] at hstarting
        cases hstarting

/-! ### Runs -/

/-- The sessions that calm moves reach. -/
inductive Session.Reached : Session L → Prop
  | start : Reached Session.initial
  | move {s s' : Session L} (m : Move L) (before : Reached s) (calm : s.Calm m)
      (next : s.step m = some s') : Reached s'

theorem Session.Reached.invariant (h : s.Reached) : s.Inv ∧ s.Alone := by
  induction h with
  | start => exact ⟨inv_initial, alone_initial⟩
  | move m _ calm next ih => exact ⟨ih.1.step next, ih.2.step ih.1 calm next⟩

/-- One instance at a time. -/
structure Session.OneInstance (s : Session L) : Prop where
  /-- At most one service holds the lifetime lock. -/
  unique : ∀ k k', s.service k = .running → s.service k' = .running → k' = k
  /-- A service is started when none holds the lock and no other one is on its way. -/
  starts : ∀ l s', s.step (.start l) = some s' →
    ∀ k, s.service k ≠ .running ∧ (k ≠ l → s.service k ≠ .starting)
  /-- A reported session unit has taken the lock. -/
  reports : ∀ l, s.launcher l = .reported → (s.service l).took = true
  /-- A lock attempt of a service fails only because another service holds the lock. -/
  refused : ∀ k holder, s.service k = .refused holder → ∃ k', k' ≠ k ∧ holder = .service k'

/-- In runs in which no launcher takes the launch lock while a service is on its way, and no
service tries the lifetime lock while it is probed, there is one instance at a time. -/
theorem one_instance (h : s.Reached) : s.OneInstance := by
  obtain ⟨hinv, halone⟩ := h.invariant
  refine ⟨fun k k' hk hk' => hinv.running_unique hk hk', fun l s' hstep k => ?_, fun l hl => ?_,
    halone.refused⟩
  · have hfree : s.launcher l = .free := by
      by_contra hne
      simp [Session.step, hne] at hstep
    refine ⟨halone.free l k hfree, fun hne hk => hne (halone.starting l k ?_ hk)⟩
    rw [hfree]
    rfl
  · exact halone.saw l (by rw [hl]; rfl)

/-- The session after some moves of one launcher. -/
def launched (moves : List (Move Unit)) : Session Unit :=
  (Session.initial.run? moves).getD Session.initial

/-- A launch in which the service takes the lock before the launcher looks. -/
def quietLaunch : List (Move Unit) :=
  [.acquire (), .ask (), .release (), .start (), .take (), .poll (), .report ()]

/-- The launcher reports the unit, and there is one instance. -/
theorem one_instance_quiet :
    (launched quietLaunch).launcher () = .reported ∧ (launched quietLaunch).OneInstance := by
  have hcalm : ∀ (s : Session Unit) (m : Move Unit), m ∉ [.acquire (), .take ()] → s.Calm m := by
    intro s m hm
    exact ⟨fun l hl => absurd hl fun h => hm (by simp [h]),
      fun l hl => absurd hl fun h => hm (by simp [h])⟩
  refine ⟨rfl, one_instance ?_⟩
  refine .move (.report ()) (.move (.poll ()) (.move (.take ()) (.move (.start ())
    (.move (.release ()) (.move (.ask ()) (.move (.acquire ()) .start ?_ rfl) (hcalm _ _ (by simp))
      rfl) (hcalm _ _ (by simp)) rfl) (hcalm _ _ (by simp)) rfl) ?_ rfl) (hcalm _ _ (by simp)) rfl)
    (hcalm _ _ (by simp)) rfl
  · exact ⟨fun _ _ _ _ h => (by cases h), fun _ h => (by cases h)⟩
  · exact ⟨fun _ h => (by cases h), fun _ _ _ h => (by cases h)⟩

/-- A launch in which the service tries the lock while its launcher looks. -/
def probedLaunch : List (Move Unit) :=
  [.acquire (), .ask (), .release (), .start (), .poll (), .take ()]

/-- The probe of the launcher itself turns its service away, and no other service holds the lock. -/
theorem probe_refuses_service :
    ¬∀ s : Session Unit, (∃ moves, Session.initial.run? moves = some s) → s.OneInstance := by
  intro h
  obtain ⟨k, -, hk⟩ := (h (launched probedLaunch) ⟨probedLaunch, rfl⟩).refused () (.probe ()) rfl
  cases hk

/-- A launcher gives up on a service that is still on its way, and the next one starts another. -/
example : (Session.initial.run? ([.acquire true, .ask true, .release true, .start true,
    .fail true, .close true, .acquire false, .ask false, .release false, .start false] :
      List (Move Bool))).map (fun s => (s.service true, s.service false)) =
    some (.starting, .starting) := rfl

end Preseed.Compatibility.Launching
