import Preseed.Compatibility.Report

/-!
# Integrity of the outcome

An outcome with a nonzero result survives every later record of a run, and success is reported
only where every party reported success.
-/

namespace Preseed.Compatibility

open Instance

open Effects (rescue)

variable {i i' i'' : Instance}

/-- An event of an activation. -/
def Event.traffic : Event → Bool
  | forwarded .. | acknowledged .. | replied .. => true
  | recorded _ | outcome _ | cleanup _ | compositor _ => false

/-- Between the two states only activations were served. -/
structure Quiet (i i' : Instance) : Prop where
  outcome : i'.outcome = i.outcome
  cleanupFailed : i'.cleanupFailed = i.cleanupFailed
  stopSignal : i'.stopSignal = i.stopSignal
  log : ∃ events, i'.log = i.log ++ events ∧ ∀ event ∈ events, event.traffic = true

namespace Quiet

theorem refl (i : Instance) : Quiet i i := ⟨rfl, rfl, rfl, [], by simp, by simp⟩

theorem trans (h : Quiet i i') (h' : Quiet i' i'') : Quiet i i'' := by
  obtain ⟨events, hlog, htraffic⟩ := h.log
  obtain ⟨events', hlog', htraffic'⟩ := h'.log
  refine ⟨h'.outcome.trans h.outcome, h'.cleanupFailed.trans h.cleanupFailed,
    h'.stopSignal.trans h.stopSignal, events ++ events', ?_, ?_⟩
  · rw [hlog', hlog, List.append_assoc]
  · intro event hevent
    rcases List.mem_append.1 hevent with hevent | hevent
    · exact htraffic event hevent
    · exact htraffic' event hevent

/-- A change of the clients, the requests or the runtime. -/
theorem of_eq (houtcome : i'.outcome = i.outcome) (hcleanup : i'.cleanupFailed = i.cleanupFailed)
    (hstop : i'.stopSignal = i.stopSignal) (hlog : i'.log = i.log) : Quiet i i' :=
  ⟨houtcome, hcleanup, hstop, [], by simp [hlog], by simp⟩

theorem drop (channel : Channel) : Quiet i (i.drop channel) := of_eq rfl rfl rfl rfl

theorem reply (channel : Channel) (accepted : Bool) : Quiet i (i.reply channel accepted) := by
  unfold Instance.reply
  split
  · exact ⟨rfl, rfl, rfl, [.replied channel accepted], rfl, by simp [Event.traffic]⟩
  · exact refl i

theorem acknowledge (id : String) (accepted : Bool) : Quiet i (i.acknowledge id accepted) := by
  have hfirst : Quiet i { i with
      requests := i.requests.filter (fun request => request.1 ≠ id)
      log := i.log ++ [.acknowledged id accepted] } :=
    ⟨rfl, rfl, rfl, [.acknowledged id accepted], rfl, by simp [Event.traffic]⟩
  unfold Instance.acknowledge
  split
  · exact hfirst.trans (reply _ _)
  · exact hfirst

theorem expire (now : ℚ) (client : Channel × ℚ) : Quiet i (i.expire now client) := by
  unfold Instance.expire
  split
  · exact (reply client.1 false).trans (of_eq rfl rfl rfl rfl)
  · exact refl i

theorem foldl {β : Type} {f : Instance → β → Instance} (hf : ∀ i b, Quiet i (f i b))
    (xs : List β) (i : Instance) : Quiet i (xs.foldl f i) := by
  induction xs generalizing i with
  | nil => exact refl i
  | cons b xs ih => exact (hf i b).trans (ih (f i b))

theorem mem_log (h : Quiet i i') {event : Event} (hevent : event.traffic = false) :
    event ∈ i'.log ↔ event ∈ i.log := by
  obtain ⟨events, hlog, htraffic⟩ := h.log
  rw [hlog, List.mem_append]
  refine ⟨?_, .inl⟩
  rintro (hmem | hmem)
  · exact hmem
  · rw [htraffic event hmem] at hevent
    cases hevent

end Quiet

/-- An outcome that succeeds only as a normal exit with its cleanup done. -/
def Outcome.regular (o : Outcome) : Bool :=
  o.result != 0 || (o.primary == .normalExit && o.cleanup)

/-- What the log of an instance says about its outcome and its flag. -/
structure Sound (i : Instance) : Prop where
  recorded : ∀ o, Event.recorded o ∈ i.log → ∃ o', i.outcome = some o' ∧
    (o.result ≠ 0 → o'.primary = o.primary ∧ o'.result = o.result ∧ o'.signal = o.signal ∧
      (o'.cleanup = o.cleanup ∨ o'.cleanup = false))
  success : ∀ o, i.outcome = some o → o.result = 0 → Event.outcome o ∈ i.log
  outcome : ∀ o, Event.outcome o ∈ i.log → o.regular = true ∧
    ∃ o', i.outcome = some o' ∧ (o'.result = 0 → o' = o)
  cleanup : Event.cleanup true ∈ i.log → ∃ o, i.outcome = some o ∧ o.result ≠ 0
  compositor : ∀ o, Event.compositor o ∈ i.log →
    (o.primary = .normalExit ↔ o.result = 0) ∧ (o.cleanup = false → i.cleanupFailed = true)

namespace Sound

theorem new (runId : String) : Sound (Instance.new runId) := by
  constructor <;> simp [Instance.new]

theorem quiet (h : Sound i) (hquiet : Quiet i i') : Sound i' where
  recorded o ho := by
    rw [hquiet.outcome]
    exact h.recorded o ((hquiet.mem_log rfl).1 ho)
  success o ho hresult := by
    rw [hquiet.outcome] at ho
    exact (hquiet.mem_log rfl).2 (h.success o ho hresult)
  outcome o ho := by
    rw [hquiet.outcome]
    exact h.outcome o ((hquiet.mem_log rfl).1 ho)
  cleanup ho := by
    rw [hquiet.outcome]
    exact h.cleanup ((hquiet.mem_log rfl).1 ho)
  compositor o ho := by
    rw [hquiet.cleanupFailed]
    exact h.compositor o ((hquiet.mem_log rfl).1 ho)

/-- The flag is only set. -/
theorem flag (h : Sound i) : Sound { i with cleanupFailed := true } :=
  ⟨h.recorded, h.success, h.outcome, h.cleanup,
    fun o ho => ⟨(h.compositor o ho).1, fun _ => rfl⟩⟩

theorem cleanupFailed_result (o : Outcome) : o.cleanupFailed.result ≠ 0 := by
  change (if o.result = 0 then cleanupResult else o.result) ≠ 0
  split
  · decide
  · assumption

/-- A recorded outcome whose cleanup fails. -/
theorem fail (h : Sound i) {o : Outcome} (ho : i.outcome = some o) :
    Sound (i.record o.cleanupFailed) where
  recorded o₁ ho₁ := by
    refine ⟨o.cleanupFailed, rfl, fun hresult => ?_⟩
    rcases List.mem_append.1 ho₁ with ho₁ | ho₁
    · -- an outcome recorded before is `o`, whose fields stay
      obtain ⟨o', ho', hsame⟩ := h.recorded o₁ ho₁
      obtain rfl : o = o' := Option.some.inj (ho.symm.trans ho')
      obtain ⟨hprimary, hres, hsignal, -⟩ := hsame hresult
      have hne : o.result ≠ 0 := hres ▸ hresult
      exact ⟨by simp [Outcome.cleanupFailed, hne, hprimary],
        by simp [Outcome.cleanupFailed, hres, hresult], hsignal, .inr rfl⟩
    · obtain rfl : o₁ = o.cleanupFailed := by simpa using ho₁
      exact ⟨rfl, rfl, rfl, .inl rfl⟩
  success o₁ ho₁ hresult := by
    obtain rfl : o.cleanupFailed = o₁ := Option.some.inj ho₁
    exact (cleanupFailed_result o hresult).elim
  outcome o₁ ho₁ := by
    have hlog : Event.outcome o₁ ∈ i.log := by simpa [Instance.record] using ho₁
    exact ⟨(h.outcome o₁ hlog).1, o.cleanupFailed, rfl,
      fun hresult => (cleanupFailed_result o hresult).elim⟩
  cleanup _ := ⟨o.cleanupFailed, rfl, cleanupFailed_result o⟩
  compositor o₁ ho₁ := h.compositor o₁ (by simpa [Instance.record] using ho₁)

/-- No outcome was recorded, so the log names none. -/
theorem not_mem (h : Sound i) (hnone : i.outcome = none) :
    (∀ o, Event.recorded o ∉ i.log) ∧ (∀ o, Event.outcome o ∉ i.log) ∧
      Event.cleanup true ∉ i.log := by
  refine ⟨fun o ho => ?_, fun o ho => ?_, fun ho => ?_⟩
  · obtain ⟨o', ho', -⟩ := h.recorded o ho
    rw [hnone] at ho'
    cases ho'
  · obtain ⟨-, o', ho', -⟩ := h.outcome o ho
    rw [hnone] at ho'
    cases ho'
  · obtain ⟨o', ho', -⟩ := h.cleanup ho
    rw [hnone] at ho'
    cases ho'

/-- The outcome of the runtime. -/
theorem runtimeOutcome (h : Sound i) (hnone : i.outcome = none) {o : Outcome}
    (hregular : o.regular = true) : Sound ((i.note (.outcome o)).record o) := by
  obtain ⟨hrecorded, houtcome, hcleanup⟩ := h.not_mem hnone
  refine ⟨fun o₁ ho₁ => ⟨o, rfl, fun _ => ?_⟩, fun o₁ ho₁ _ => ?_, fun o₁ ho₁ => ?_,
    fun ho₁ => ?_, fun o₁ ho₁ => h.compositor o₁ ?_⟩
  · obtain rfl : o₁ = o := by simpa [Instance.record, note, hrecorded] using ho₁
    exact ⟨rfl, rfl, rfl, .inl rfl⟩
  · obtain rfl : o = o₁ := Option.some.inj ho₁
    simp [Instance.record, note]
  · obtain rfl : o₁ = o := by simpa [Instance.record, note, houtcome] using ho₁
    exact ⟨hregular, o₁, rfl, fun _ => rfl⟩
  · simp [Instance.record, note, hcleanup] at ho₁
  · simpa [Instance.record, note] using ho₁

/-- A failure of the compositor that came first. -/
theorem observeResult (h : Sound i) (observed : Outcome) : Sound (i.observeResult observed) := by
  unfold Instance.observeResult
  split
  case isFalse => exact h
  case isTrue hfirst =>
    obtain ⟨hresult, hnone⟩ := hfirst
    obtain ⟨hrecorded, houtcome, hcleanup⟩ := h.not_mem hnone
    refine ⟨fun o₁ ho₁ => ⟨observed, rfl, fun _ => ?_⟩, fun o₁ ho₁ hzero => ?_, fun o₁ ho₁ => ?_,
      fun ho₁ => ?_, fun o₁ ho₁ => h.compositor o₁ ?_⟩
    · obtain rfl : o₁ = observed := by simpa [Instance.record, hrecorded] using ho₁
      exact ⟨rfl, rfl, rfl, .inl rfl⟩
    · obtain rfl : observed = o₁ := Option.some.inj ho₁
      exact (hresult hzero).elim
    · simp [Instance.record, houtcome] at ho₁
    · simp [Instance.record, hcleanup] at ho₁
    · simpa [Instance.record] using ho₁

theorem observeCleanup (h : Sound i) (observed : Outcome) :
    Sound (i.observeCleanup observed) ∧
      (observed.cleanup = false → (i.observeCleanup observed).cleanupFailed = true) := by
  unfold Instance.observeCleanup
  split
  · split
    case h_1 o ho =>
      exact ⟨fail (i := { i with cleanupFailed := true }) h.flag ho, fun _ => rfl⟩
    case h_2 => exact ⟨h.flag, fun _ => rfl⟩
  case isFalse hok => exact ⟨h, fun hfailed => (hok hfailed).elim⟩

/-- A record of the compositor. -/
theorem noteCompositor (h : Sound i) {observed : Outcome}
    (hprimary : observed.primary = .normalExit ↔ observed.result = 0)
    (hflag : observed.cleanup = false → i.cleanupFailed = true) :
    Sound (i.note (.compositor observed)) where
  recorded o ho := h.recorded o (by simpa [note] using ho)
  success o ho hresult := List.mem_append.2 (.inl (h.success o ho hresult))
  outcome o ho := h.outcome o (by simpa [note] using ho)
  cleanup ho := h.cleanup (by simpa [note] using ho)
  compositor o ho := by
    rcases List.mem_append.1 ho with ho | ho
    · exact h.compositor o ho
    · obtain rfl : o = observed := by simpa using ho
      exact ⟨hprimary, hflag⟩

/-- The cleanup record of the runtime. -/
theorem noteCleanup (h : Sound i) {o : Outcome} (ho : i.outcome = some o) (failed : Bool) :
    Sound (if failed then (i.note (.cleanup true)).record o.cleanupFailed
      else i.note (.cleanup false)) := by
  cases failed with
  | false =>
    exact ⟨fun o₁ ho₁ => h.recorded o₁ (by simpa [note] using ho₁),
      fun o₁ ho₁ hresult => List.mem_append.2 (.inl (h.success o₁ ho₁ hresult)),
      fun o₁ ho₁ => h.outcome o₁ (by simpa [note] using ho₁),
      fun ho₁ => h.cleanup (by simpa [note] using ho₁),
      fun o₁ ho₁ => h.compositor o₁ (by simpa [note] using ho₁)⟩
  | true =>
    have hfail := h.fail ho
    refine ⟨fun o₁ ho₁ => hfail.recorded o₁ ?_, fun o₁ ho₁ hresult => ?_,
      fun o₁ ho₁ => hfail.outcome o₁ ?_, fun _ => ⟨o.cleanupFailed, rfl, cleanupFailed_result o⟩,
      fun o₁ ho₁ => hfail.compositor o₁ ?_⟩
    · simpa [note, Instance.record] using ho₁
    · obtain rfl : o.cleanupFailed = o₁ := Option.some.inj ho₁
      exact (cleanupFailed_result o hresult).elim
    · simpa [note, Instance.record] using ho₁
    · simpa [note, Instance.record] using ho₁

end Sound

/-- A sound instance with a known stop signal. -/
def Safe (stop : Option ℕ) (i : Instance) : Prop := Sound i ∧ i.stopSignal = stop

/-- A step keeps the instance safe, also where it raises. -/
def Keeps (stop : Option ℕ) (x : Session Unit) : Prop :=
  ∀ i, Safe stop i → Effects.Ends i x (fun _ => Safe stop) fun _ => Safe stop

/-- No outcome record of result 0 states a running application or a failed cleanup. -/
def Packet.regular (value : Packet) : Bool :=
  !(natural? (value.lookup "result") == some 0 &&
    (primary? (value.lookup "primary") == some .running ||
      cleanup? (value.lookup "cleanup") == some false))

theorem normalExit_of_result {o : Outcome} (hresult : o.result = 0)
    (hrunning : o.primary ≠ .running) : o.primary = .normalExit := by
  by_contra hprimary
  exact o.fits.2.2.1 hprimary hrunning hresult

/-- An accepted record of a regular packet is regular. -/
theorem regular_fromPacket {value : Packet} {o : Outcome} (h : Outcome.fromPacket value = .ok o)
    (hregular : value.regular = true) : o.regular = true := by
  unfold Outcome.fromPacket at h
  split at h
  case isFalse => cases h
  case isTrue =>
    obtain ⟨hprimary, hresult, -, hcleanup⟩ := make_eq_ok.mp h
    rw [Packet.regular, hprimary, hresult, hcleanup] at hregular
    by_cases hzero : o.result = 0
    · have hboth : o.primary ≠ .running ∧ o.cleanup = true := by simpa [hzero] using hregular
      have hnormal := normalExit_of_result hzero hboth.1
      simp [Outcome.regular, hzero, hnormal, hboth.2]
    · simp [Outcome.regular, hzero]

/-- A regular record has success exactly for a normal exit. -/
theorem normalExit_iff {o : Outcome} (h : o.regular = true) :
    o.primary = .normalExit ↔ o.result = 0 := by
  refine ⟨fun hprimary => (o.fits.2.2.2 hprimary).1, fun hresult => ?_⟩
  have hboth : o.primary = .normalExit ∧ o.cleanup = true := by
    simpa [Outcome.regular, hresult] using h
  exact hboth.1

/-- The compositor's record names its primary after its result. -/
theorem normalExit_iff_of_compositor {running : Bool} {value : Packet} {o : Outcome}
    (h : compositorObserved running value = .ok o) : o.primary = .normalExit ↔ o.result = 0 := by
  obtain ⟨hprimary, hresult, -⟩ := make_eq_ok.mp h
  rw [hresult] at hprimary
  refine ⟨fun hnormal => (o.fits.2.2.2 hnormal).1, fun hzero => ?_⟩
  rw [hzero, if_pos rfl] at hprimary
  exact (Option.some.inj hprimary).symm

namespace Keeps

variable {stop : Option ℕ}

theorem quiet {f : Instance → Instance} (hf : ∀ i, Quiet i (f i)) : Keeps stop (update f) :=
  fun i hi => .modify ⟨hi.1.quiet (hf i), (hf i).stopSignal.trans hi.2⟩

theorem set_quiet {i : Instance} (hi : Safe stop i) (hquiet : Quiet i i') :
    Effects.Ends i (set i' : Session PUnit) (fun _ => Safe stop) fun _ => Safe stop :=
  Effects.Ends.set ⟨hi.1.quiet hquiet, hquiet.stopSignal.trans hi.2⟩

theorem throw (e : Failure) : Keeps stop (MonadExcept.throw e) :=
  fun _ hi => .throw hi

theorem require (succeeds : Bool) : Keeps stop (require succeeds) := by
  intro i hi
  cases succeeds
  · exact .throw hi
  · exact .pure hi

theorem bind {x : Session Unit} {f : Unit → Session Unit} (hx : Keeps stop x)
    (hf : Keeps stop (f ())) : Keeps stop (x >>= f) :=
  fun i hi => (hx i hi).bind fun _ i' hi' => hf i' hi'

theorem forM {β : Type} {f : β → Session PUnit} {xs : List β} (hf : ∀ b ∈ xs, Keeps stop (f b)) :
    Keeps stop (xs.forM f) :=
  fun _ hi => .forM (fun b hb i hi => hf b hb i hi) hi

theorem rescue {x : Session Unit} {h : Failure → Session Unit} (hx : Keeps stop x)
    (hh : ∀ e, Keeps stop (h e)) : Keeps stop (rescue x h) :=
  fun i hi => (hx i hi).rescue fun e i' hi' => hh e i' hi'

/-- A step that reads the instance first. -/
theorem get {f : Instance → Session Unit}
    (hf : ∀ i, Safe stop i → Effects.Ends i (f i) (fun _ => Safe stop) fun _ => Safe stop) :
    Keeps stop (MonadState.get >>= f) :=
  fun i hi => .get_bind (hf i hi)

theorem acceptClient (now : ℚ) (connection : Connection) :
    Keeps stop (acceptClient now connection) := by
  refine quiet fun i => ?_
  split
  · exact Quiet.refl i
  · exact Quiet.of_eq rfl rfl rfl rfl

theorem recordFailed (channel : Channel) : Keeps stop (recordFailed channel) := by
  refine get fun i hi => ?_
  split
  · have hquiet : Quiet i { i with runtime := none } := Quiet.of_eq rfl rfl rfl rfl
    exact .set_bind
      (require _ _ ⟨hi.1.quiet hquiet, hquiet.stopSignal.trans hi.2⟩)
  · exact set_quiet hi (Quiet.reply channel false)

/-- A record of the runtime, which is regular. -/
theorem runtimeRecord {value : Packet} (hvalue : value.regular = true) :
    Keeps stop (runtimeRecord value) := by
  refine get fun i hi => ?_
  split
  · exact set_quiet hi (Quiet.of_eq rfl rfl rfl rfl)
  split
  case isTrue hrecord =>
    cases ho : Outcome.fromPacket value with
    | ok o =>
      exact .set ⟨hi.1.runtimeOutcome hrecord.2 (regular_fromPacket ho hvalue), hi.2⟩
    | error e => exact throw e i hi
  split
  · rename_i o failed ho _ _
    refine .set ⟨hi.1.noteCleanup ho failed, ?_⟩
    cases failed <;> exact hi.2
  split
  · split
    · exact set_quiet hi (Quiet.acknowledge _ _)
    · exact throw _ i hi
  · exact throw _ i hi

theorem compositorOutcome (value : Packet) : Keeps stop (compositorOutcome value) := by
  refine get fun i hi => ?_
  split
  · cases ho : compositorObserved i.running value with
    | error e => exact throw e i hi
    | ok observed =>
      have hresult := hi.1.observeResult observed
      obtain ⟨hcleanup, hflag⟩ := hresult.observeCleanup observed
      refine .set ⟨hcleanup.noteCompositor (normalExit_iff_of_compositor ho) hflag, ?_⟩
      have hstop : (i.observeResult observed).stopSignal = i.stopSignal := by
        unfold observeResult
        split <;> rfl
      have hstop' : ((i.observeResult observed).observeCleanup observed).stopSignal =
          (i.observeResult observed).stopSignal := by
        unfold observeCleanup
        split
        · split <;> rfl
        · rfl
      exact hstop'.trans (hstop.trans hi.2)
  · exact throw _ i hi

theorem registerRuntime (channel : Channel) (read : Read) :
    Keeps stop (registerRuntime channel read) :=
  bind (require _) (bind (quiet fun _ => Quiet.of_eq rfl rfl rfl rfl) (require _))

variable {approve : List Json → Option (List String)}

theorem activate (channel : Channel) (value : Packet) (read : Read) :
    Keeps stop (activate approve channel value read) := by
  refine get fun i hi => ?_
  split
  · exact throw _ i hi
  split
  · exact throw _ i hi
  split
  · exact set_quiet hi (Quiet.reply channel false)
  split
  · exact set_quiet hi (Quiet.reply channel true)
  split
  · exact set_quiet hi (Quiet.reply channel false)
  split
  · exact set_quiet hi (Quiet.reply channel false)
  split
  · exact set_quiet hi ⟨rfl, rfl, rfl, [_], rfl, by simp [Event.traffic]⟩
  · exact throw _ i hi

theorem clientRecord (channel : Channel) (value : Packet) (read : Read) :
    Keeps stop (clientRecord approve channel value read) := by
  refine get fun i hi => ?_
  split
  · exact registerRuntime channel read i hi
  split
  · exact bind (require _) (bind (compositorOutcome value)
      (bind (require _) (quiet fun i => Quiet.drop (i := i) channel))) i hi
  split
  · exact activate channel value read i hi
  · exact set_quiet hi (Quiet.reply channel false)

theorem readRuntime {read : Read}
    (hread : ∀ value, read.packet = some value → value.regular = true) :
    Keeps stop (readRuntime read) := by
  refine get fun i hi => ?_
  split
  · exact .pure hi
  · refine rescue ?_ (fun _ => recordFailed _) i hi
    cases hpacket : read.packet with
    | none => exact throw _
    | some value => exact runtimeRecord (hread value hpacket)

theorem readClient (channel : Channel) (read : Read) :
    Keeps stop (readClient approve channel read) := by
  refine get fun i hi => rescue ?_ (fun _ => recordFailed channel) i hi
  split
  · exact clientRecord channel _ read
  · exact throw _

theorem acceptRound (round : Round) : Keeps stop (acceptRound round) := by
  refine get fun i hi => ?_
  split
  · exact throw _ i hi
  · exact require _ i hi

theorem serveRecords {round : Round}
    (hround : ∀ read ∈ round.runtimeReads, ∀ value, read.packet = some value →
      value.regular = true) : Keeps stop (serveRecords approve round) := by
  refine bind (forM fun connection _ => acceptClient _ connection) (bind ?_
    (bind (forM fun item _ => readClient item.1 item.2) (quiet fun i => ?_)))
  · exact forM fun read hread => readRuntime (hround read (List.mem_of_mem_take hread))
  · exact Quiet.foldl (fun i client => Quiet.expire round.now client) _ i

theorem service {round : Round}
    (hround : ∀ read ∈ round.runtimeReads, ∀ value, read.packet = some value →
      value.regular = true) : Keeps stop (service approve round) :=
  bind (acceptRound round) (serveRecords hround)

end Keeps

end Preseed.Compatibility
