import Preseed.Compatibility.Integrity

/-!
# The report of a run

The instance where a run ends is sound, and the report follows its outcome.
-/

namespace Preseed.Compatibility

open Effects (Ends.forM Ends.forM_append)

variable {approve : List Json → Option (List String)}

/-- The runtime's packets of an action are regular. -/
def Action.regular : Action → Prop
  | service round => ∀ read ∈ round.runtimeReads, ∀ value, read.packet = some value →
      value.regular = true
  | signal _ | cleanupFailed => True

variable {i : Instance}

theorem sound_action {action : Action} (haction : action.regular) (hi : Sound i) :
    Effects.Ends i (action.run approve) (fun _ => Sound) fun _ => Sound := by
  cases action with
  | service round =>
    exact (Keeps.service haction i ⟨hi, rfl⟩).mono (fun _ _ => And.left) fun _ _ => And.left
  | signal number =>
    exact .modify ⟨hi.recorded, hi.success, hi.outcome, hi.cleanup, hi.compositor⟩
  | cleanupFailed => exact .modify hi.flag

variable {actions : List Action}

/-- A run of regular actions ends in a sound instance. -/
theorem sound_run (hactions : ∀ action ∈ actions, action.regular) (runId : String) :
    Effects.Ends (Instance.new runId) (actions.forM (Action.run approve)) (fun _ => Sound)
      fun _ => Sound :=
  Ends.forM (fun action haction _ hi => sound_action (hactions action haction) hi)
    (Sound.new runId)

/-- A call of `service` that returns found no stop signal. -/
theorem stopSignal_service {round : Round} (hround : (Action.service round).regular)
    (hi : Sound i) :
    Effects.Ends i (service approve round) (fun _ i' => i'.stopSignal = none) fun _ _ => True := by
  have haccept : Effects.Ends i (acceptRound round) (fun _ i' => i' = i ∧ i.stopSignal = none)
      fun _ _ => True := by
    refine .get_bind ?_
    split
    · exact .throw trivial
    case isFalse hstop =>
      cases hintact : round.intact with
      | true => exact .pure ⟨rfl, not_not.1 hstop⟩
      | false => exact .throw trivial
  refine .bind haccept fun _ i' hi' => ?_
  obtain ⟨rfl, hstop⟩ := hi'
  exact (Keeps.serveRecords hround i' ⟨hi, hstop⟩).mono (fun _ _ => And.right) fun _ _ _ => trivial

theorem stopSignal_run (hactions : ∀ action ∈ actions, action.regular) {runId : String}
    {round : Round} (hrun : actions.forM (Action.run approve) (Instance.new runId) = .ok () i)
    (hlast : actions.getLast? = some (.service round)) : i.stopSignal = none := by
  obtain ⟨before, rfl⟩ := List.getLast?_eq_some_iff.1 hlast
  have hbefore : Effects.Ends (Instance.new runId) (before.forM (Action.run approve))
      (fun _ => Sound) fun _ => Sound :=
    sound_run (fun action haction => hactions action (List.mem_append_left _ haction)) runId
  have hround := hactions (.service round) (by simp)
  have hstop : Effects.Ends (Instance.new runId)
      ((before ++ [Action.service round]).forM (Action.run approve))
      (fun _ i' => i'.stopSignal = none) fun _ _ => True :=
    Ends.forM_append (hbefore.mono (fun _ _ => id) fun _ _ _ => trivial)
      fun _ hi => (stopSignal_service hround hi).bind fun _ _ hnone => .pure hnone
  exact hstop.of_ok hrun

variable {ending : Ending}

/-- The instance where a run ends is sound. -/
theorem Finishes.sound {runId : String} (h : Finishes approve runId actions i ending)
    (hactions : ∀ action ∈ actions, action.regular) : Sound i := by
  have hrun : Effects.Ends (Instance.new runId) (actions.forM (Action.run approve))
      (fun _ => Sound) fun _ => Sound := sound_run hactions runId
  cases h with
  | returned hok => exact hrun.of_ok hok
  | component hok => exact hrun.of_ok hok
  | failed hok => exact hrun.of_ok hok
  | interrupted hok => exact hrun.of_ok hok
  | stopped herror => exact hrun.of_error herror
  | rejected herror => exact hrun.of_error herror

/-- The teardown only sets the flag and the signal. -/
theorem teardown_foldl (teardown : List Teardown) (i : Instance) :
    (teardown.foldl Teardown.run i).outcome = i.outcome ∧
      ((teardown.foldl Teardown.run i).cleanupFailed = true ↔
        i.cleanupFailed = true ∨ .cleanupFailed ∈ teardown) := by
  induction teardown generalizing i with
  | nil => simp
  | cons event teardown ih =>
    obtain ⟨houtcome, hflag⟩ := ih (Teardown.run i event)
    rw [List.foldl_cons, houtcome, hflag]
    cases event with
    | signal number => exact ⟨rfl, by simp [Teardown.run, Instance.signalled]⟩
    | cleanupFailed => exact ⟨rfl, by simp [Teardown.run]⟩

theorem startOutcome_result (running : Bool) : (startOutcome running).result ≠ 0 := by
  cases running <;> decide

variable {o : Outcome} {shutdown : Bool}

/-- A recorded failure is the outcome of the run. -/
theorem conclude_of_failure {r : Outcome} (h : i.conclude shutdown ending = .ok o)
    (hr : i.outcome = some r) (hresult : r.result ≠ 0) :
    o = r := by
  have hfailure : i.failure? = some r := by simp [Instance.failure?, hr, hresult]
  cases ending with
  | returned status =>
    simp only [Instance.conclude, hr, hresult, and_false, if_false, Except.ok.injEq] at h
    exact h.symm
  | required returncode =>
    simp only [Instance.conclude, hfailure, Except.ok.injEq] at h
    exact h.symm
  | interrupted =>
    simp only [Instance.conclude, hfailure, Except.ok.injEq] at h
    exact h.symm
  | failed =>
    simp only [Instance.conclude, hfailure, Option.getD_some, Except.ok.injEq] at h
    exact h.symm

theorem failure?_result (h : i.failure? = some o) : o.result ≠ 0 := by
  simpa using (Option.filter_eq_some_iff.1 h).2

/-- A run succeeds only where it returns the recorded result 0. -/
theorem conclude_success (h : i.conclude shutdown ending = .ok o) (hzero : o.result = 0) :
    ending = .returned 0 ∧ i.outcome = some o := by
  cases ending with
  | returned status =>
    simp only [Instance.conclude] at h
    split at h
    case h_1 r hr =>
      split at h
      · cases h
        exact (startOutcome_result true hzero).elim
      case isFalse hstatus =>
        cases h
        have : status = 0 := by
          by_contra hne
          exact hstatus ⟨hzero ▸ hne, hzero⟩
        exact ⟨by rw [this], hr⟩
    case h_2 =>
      cases h
      exact (startOutcome_result _ hzero).elim
  | required returncode =>
    simp only [Instance.conclude] at h
    split at h
    case h_1 r hr =>
      cases h
      exact (failure?_result hr hzero).elim
    case h_2 =>
      obtain ⟨hprimary, -⟩ := make_eq_ok.mp h
      have hne : o.primary ≠ .normalExit ∧ o.primary ≠ .running := by
        rw [← Option.some.inj hprimary]
        cases i.running <;> decide
      exact (o.fits.2.2.1 hne.1 hne.2 hzero).elim
  | interrupted =>
    simp only [Instance.conclude] at h
    split at h
    case h_1 r hr =>
      cases h
      exact (failure?_result hr hzero).elim
    case h_2 =>
      obtain ⟨hprimary, -⟩ := make_eq_ok.mp h
      have hne : o.primary ≠ .normalExit ∧ o.primary ≠ .running := by
        rw [← Option.some.inj hprimary]
        cases shutdown <;> decide
      exact (o.fits.2.2.1 hne.1 hne.2 hzero).elim
  | failed =>
    simp only [Instance.conclude, Except.ok.injEq] at h
    subst h
    cases hfailure : i.failure? with
    | some r =>
      rw [hfailure, Option.getD_some] at hzero
      exact (failure?_result hfailure hzero).elim
    | none =>
      rw [hfailure, Option.getD_none] at hzero
      exact (startOutcome_result _ hzero).elim

/-- A supervisor that returns 0 had a compositor that ended well and was cleaned up. -/
theorem supervisorStatus_eq_zero (h : supervisorStatus o = 0) :
    o.result = 0 ∧ o.cleanup = true := by
  unfold supervisorStatus at h
  split at h
  case isTrue hcleanup => exact ⟨h, hcleanup⟩
  case isFalse =>
    split at h
    · exact absurd h (by decide)
    case isFalse hne => exact (hne h).elim

variable {reported : Outcome} {teardown : List Teardown}

section

variable (h : i.report shutdown ending teardown = .ok reported)
include h

/-- The report is the concluded outcome, or that outcome with a failed cleanup. -/
theorem report_eq :
    ∃ o, (teardown.foldl Teardown.run i).conclude shutdown ending = .ok o ∧
      reported = if (teardown.foldl Teardown.run i).cleanupFailed then o.cleanupFailed else o := by
  simp only [Instance.report] at h
  split at h
  case h_1 o ho => exact ⟨o, ho, (Except.ok.inj h).symm⟩
  case h_2 => cases h

/-- A recorded outcome with a nonzero result is reported, and its cleanup at most fails. -/
theorem report_of_failure {r : Outcome}
    (hr : i.outcome = some r) (hresult : r.result ≠ 0) :
    reported.primary = r.primary ∧ reported.result = r.result ∧ reported.signal = r.signal ∧
      (reported.cleanup = r.cleanup ∨ reported.cleanup = false) := by
  obtain ⟨o, ho, hreported⟩ := report_eq h
  obtain rfl : o = r := conclude_of_failure ho ((teardown_foldl teardown i).1.trans hr) hresult
  split at hreported
  · subst hreported
    exact ⟨by simp [Outcome.cleanupFailed, hresult], by simp [Outcome.cleanupFailed, hresult], rfl,
      .inr rfl⟩
  · subst hreported
    exact ⟨rfl, rfl, rfl, .inl rfl⟩

/-- A report of result 0 is the recorded outcome of a run that returned, with no failed cleanup. -/
theorem report_success
    (hzero : reported.result = 0) :
    ending = .returned 0 ∧ i.outcome = some reported ∧ i.cleanupFailed = false ∧
      .cleanupFailed ∉ teardown := by
  obtain ⟨o, ho, hreported⟩ := report_eq h
  obtain ⟨houtcome, hflag⟩ := teardown_foldl teardown i
  split at hreported
  · subst hreported
    exact (Sound.cleanupFailed_result o hzero).elim
  case isFalse hclean =>
    subst hreported
    obtain ⟨hending, hrecorded⟩ := conclude_success ho hzero
    rw [hflag, not_or] at hclean
    exact ⟨hending, houtcome ▸ hrecorded, by simpa using hclean.1, hclean.2⟩

end

/-- Where no packet of the runtime states success of a running application, or success with a
failed cleanup: a recorded failure is reported with its cause, result and signal; success is
reported only after a normal exit, where nothing failed or was stopped; a reported success has its
cleanup; and records survive their packets, with success exactly for a normal exit. -/
theorem outcome_integrity {runId : String} {actions : List Action} {i : Instance}
    {ending : Ending} (hends : Finishes approve runId actions i ending)
    (hactions : ∀ action ∈ actions, action.regular) (shutdown : Bool) (teardown : List Teardown)
    {reported : Outcome} (hreport : i.report shutdown ending teardown = .ok reported) :
    (∀ o, Event.recorded o ∈ i.log → o.result ≠ 0 →
      reported.primary = o.primary ∧ reported.result = o.result ∧ reported.signal = o.signal ∧
        (reported.cleanup = o.cleanup ∨ reported.cleanup = false)) ∧
    (reported.result = 0 →
      (∃ o, Event.outcome o ∈ i.log ∧ o.primary = .normalExit) ∧
      (∀ o, Event.outcome o ∈ i.log → o.primary = .normalExit ∧ o.cleanup = true) ∧
      Event.cleanup true ∉ i.log ∧
      (∀ o, Event.compositor o ∈ i.log → o.result = 0 ∧ o.cleanup = true) ∧
      i.cleanupFailed = false ∧ .cleanupFailed ∉ teardown ∧
      (∃ status, ending = .returned status) ∧ i.stopSignal = none) ∧
    (reported.result = 0 → reported.cleanup = true) ∧
    (∀ o, Outcome.fromPacket o.packet = .ok o) ∧
    (∀ o, Event.outcome o ∈ i.log ∨ Event.compositor o ∈ i.log →
      (o.primary = .normalExit ↔ o.result = 0)) := by
  have hsound := hends.sound hactions
  refine ⟨fun o ho hresult => ?_, fun hzero => ?_, fun hzero => ?_, fromPacket_packet, ?_⟩
  · obtain ⟨r, hr, hsame⟩ := hsound.recorded o ho
    obtain ⟨hprimary, hres, hsignal, hcleanup⟩ := hsame hresult
    obtain ⟨hprimary', hres', hsignal', hcleanup'⟩ :=
      report_of_failure hreport hr (hres ▸ hresult)
    refine ⟨hprimary'.trans hprimary, hres'.trans hres, hsignal'.trans hsignal, ?_⟩
    rcases hcleanup' with hcleanup' | hcleanup'
    · rcases hcleanup with hcleanup | hcleanup
      · exact .inl (hcleanup'.trans hcleanup)
      · exact .inr (hcleanup'.trans hcleanup)
    · exact .inr hcleanup'
  · obtain ⟨rfl, hrecorded, hflag, hteardown⟩ := report_success hreport hzero
    have hlog := hsound.success reported hrecorded hzero
    -- the recorded outcome is the only one of the runtime
    have honly : ∀ o, Event.outcome o ∈ i.log → o.primary = .normalExit ∧ o.cleanup = true := by
      intro o ho
      obtain ⟨hregular, r, hr, honly⟩ := hsound.outcome o ho
      obtain rfl : reported = r := Option.some.inj (hrecorded.symm.trans hr)
      obtain rfl := honly hzero
      simpa [Outcome.regular, hzero] using hregular
    refine ⟨⟨reported, hlog, (honly reported hlog).1⟩, honly, fun hcleanup => ?_, fun o ho => ?_,
      hflag, hteardown, ⟨0, rfl⟩, ?_⟩
    · obtain ⟨r, hr, hne⟩ := hsound.cleanup hcleanup
      rw [hrecorded] at hr
      exact hne (Option.some.inj hr ▸ hzero)
    · cases hends with
      | returned hrun hlast hstatus => exact supervisorStatus_eq_zero (hstatus o ho).symm
    · cases hends with
      | returned hrun hlast hstatus => exact stopSignal_run hactions hrun hlast
  · obtain ⟨-, hrecorded, -⟩ := report_success hreport hzero
    have hlog := hsound.success reported hrecorded hzero
    have hregular := (hsound.outcome reported hlog).1
    have hboth : reported.primary = .normalExit ∧ reported.cleanup = true := by
      simpa [Outcome.regular, hzero] using hregular
    exact hboth.2
  · rintro o (ho | ho)
    · exact normalExit_iff (hsound.outcome o ho).1
    · exact (hsound.compositor o ho).1

/-- A run of instance `r` whose runtime reports its start and then one packet. -/
def reportingRun (value : Packet) : List Action :=
  [.service {
      now := 0
      intact := true
      connections := [⟨1, true, true⟩]
      runtimeReads := []
      clientReads := [(1, ⟨some [("type", .str "runtime"), ("run_id", .str "r")], true, true, ""⟩)] },
    .service {
      now := 1
      intact := true
      connections := []
      runtimeReads := [⟨some [("type", .str "running")], true, true, ""⟩,
        ⟨some value, true, true, ""⟩]
      clientReads := [] }]

/-- The instance after such a run. -/
def reportedInstance (o : Outcome) : Instance :=
  { Instance.new "r" with
    runtime := some 1
    outcome := some o
    running := true
    log := [.outcome o, .recorded o] }

/-- The application runs, with result 0. -/
def runningSuccess : Outcome := ⟨.running, 0, 0, true, by decide⟩

/-- A normal exit whose cleanup failed, with result 0. -/
def uncleanSuccess : Outcome := ⟨.normalExit, 0, 0, false, by decide⟩

/-- A normal exit, cleaned up. -/
def cleanSuccess : Outcome := ⟨.normalExit, 0, 0, true, by decide⟩

theorem reportingRun_ok (approve : List Json → Option (List String))
    (ho : o = runningSuccess ∨ o = uncleanSuccess ∨ o = cleanSuccess) :
    (reportingRun o.packet).forM (Action.run approve) (Instance.new "r") =
      .ok () (reportedInstance o) := by
  rcases ho with rfl | rfl | rfl <;> rfl

/-- A packet that states a running application with result 0 is reported as success. -/
theorem unproven_success :
    (Finishes (fun _ => none) "r" (reportingRun runningSuccess.packet)
        (reportedInstance runningSuccess) (.returned 0) ∧
      (reportedInstance runningSuccess).report false (.returned 0) [] = .ok runningSuccess ∧
      runningSuccess.result = 0 ∧ runningSuccess.primary ≠ .normalExit) ∧
    Finishes (fun _ => none) "r" (reportingRun uncleanSuccess.packet)
        (reportedInstance uncleanSuccess) (.returned 0) ∧
      (reportedInstance uncleanSuccess).report false (.returned 0) [] = .ok uncleanSuccess ∧
      uncleanSuccess.result = 0 ∧ uncleanSuccess.cleanup = false := by
  refine ⟨⟨.returned (reportingRun_ok _ (by simp)) rfl ?_, rfl, rfl, by decide⟩,
    .returned (reportingRun_ok _ (by simp)) rfl ?_, rfl, rfl, rfl⟩
  · simp [reportedInstance]
  · simp [reportedInstance]

/-- The packet of a regular outcome is regular. -/
theorem regular_packet (h : o.regular = true) : o.packet.regular = true := by
  obtain ⟨primary, result, signal, cleanup, hfits⟩ := o
  by_cases hzero : result = 0
  · obtain ⟨rfl, rfl⟩ : primary = .normalExit ∧ cleanup = true := by
      simpa [Outcome.regular, hzero] using h
    subst hzero
    simp [Packet.regular, Outcome.packet, List.lookup_cons, primary?, cleanup?]
  · simp [Packet.regular, Outcome.packet, List.lookup_cons, natural?, hzero]

theorem outcome_integrity_normalExit :
    (∃ o, Event.outcome o ∈ (reportedInstance cleanSuccess).log ∧ o.primary = .normalExit) ∧
      (reportedInstance cleanSuccess).stopSignal = none := by
  have hends : Finishes (fun _ => none) "r" (reportingRun cleanSuccess.packet)
      (reportedInstance cleanSuccess) (.returned 0) := by
    refine .returned (reportingRun_ok _ (.inr (.inr rfl))) rfl ?_
    simp [reportedInstance]
  have hactions : ∀ action ∈ reportingRun cleanSuccess.packet, action.regular := by
    have hpacket : cleanSuccess.packet.regular = true := regular_packet rfl
    have hrunning : Packet.regular [("type", .str "running")] = true := rfl
    simp [reportingRun, Action.regular, hpacket, hrunning]
  have hreport : (reportedInstance cleanSuccess).report false (.returned 0) [] =
      .ok cleanSuccess := rfl
  have hsuccess := (outcome_integrity hends hactions false [] hreport).2.1 rfl
  exact ⟨hsuccess.1, hsuccess.2.2.2.2.2.2.2⟩

end Preseed.Compatibility
