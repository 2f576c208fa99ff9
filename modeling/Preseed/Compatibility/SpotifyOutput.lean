import Mathlib.Data.List.DropRight
import Preseed.Texts.Cursors

/-!
# The relayed output of Spotify

`_run_spotify` looks for the marker line of a handoff while it relays what the child
writes. The output arrives in chunks: a line is kept only while it is short enough to be
the marker.
-/

namespace Preseed.Compatibility.Spotify

open List Option

open Preseed.Texts (Bytes)

/-- `marker`. -/
def marker : Bytes :=
  "Opening in existing browser session.".toList.map fun c => c.toNat.toUInt8

/-! ### The line match -/

/-- The locals of the line match. -/
structure Scan where
  pending : Bytes := []
  oversized : Bool := false
  handedOff : Bool := false

namespace Scan

/-- `not oversized and pending.rstrip(b"\r") == marker`. -/
def hit (s : Scan) : Bool := !s.oversized && s.pending.rdropWhile (· == 13) == marker

/-- A part of a line. -/
def take (s : Scan) (part : Bytes) : Scan :=
  if s.oversized then s
  else if marker.length + 1 < (s.pending ++ part).length then
    { s with pending := [], oversized := true }
  else { s with pending := s.pending ++ part }

/-- The last line at the end of the output. -/
def finish (s : Scan) : Scan := { s with handedOff := s.handedOff || s.hit }

/-- The end of a line. -/
def endLine (s : Scan) : Scan := { s.finish with pending := [], oversized := false }

/-- The loop over the parts of a chunk. -/
def parts (s : Scan) : List Bytes → Scan
  | [] => s
  | [part] => s.take part
  | part :: later => (s.take part).endLine.parts later

/-- A chunk of the output. -/
def feed (s : Scan) (chunk : Bytes) : Scan := s.parts (chunk.splitOn 10)

end Scan

/-- The marker, and after it at most one carriage return. -/
abbrev IsMarker (line : Bytes) : Prop := line = marker ∨ line = marker ++ [13]

/-- What the match keeps of a text with the given terminated lines and the rest. -/
structure Scan.Tracks (s : Scan) (text : Bytes) (done : List Bytes) (rest : Bytes) : Prop where
  cut : text = done.flatMap (· ++ [10]) ++ rest
  plain : ∀ line ∈ rest :: done, 10 ∉ line
  pending : s.oversized = false → s.pending = rest
  oversized : s.oversized = true ↔ marker.length + 1 < rest.length
  handedOff : s.handedOff = true ↔ ∃ line ∈ done, IsMarker line

variable {s : Scan} {text rest chunk part : Bytes} {done : List Bytes}

theorem Scan.Tracks.splitOn (h : s.Tracks text done rest) : text.splitOn 10 = done ++ [rest] := by
  obtain ⟨rfl, hplain, -, -, -⟩ := h
  induction done with
  | nil => exact splitOn_eq_singleton (hplain rest (by simp))
  | cons line done ih =>
    rw [flatMap_cons, append_assoc, append_assoc, singleton_append,
      splitOn_append_cons_self_of_not_mem (hplain line (by simp)), ih (by grind)]
    rfl

theorem rdropWhile_eq_marker (h : rest.length ≤ marker.length + 1) :
    rest.rdropWhile (· == 13) = marker ↔ IsMarker rest := by
  constructor
  · intro hmarker
    have hrest : marker ++ rest.rtakeWhile (· == 13) = rest :=
      hmarker ▸ rdropWhile_append_rtakeWhile
    have hreturns : ∀ c ∈ rest.rtakeWhile (· == 13), c = 13 :=
      fun c hc => by simpa using mem_rtakeWhile_imp hc
    rw [← hrest, length_append] at h
    rw [← hrest]
    match hreturn : rest.rtakeWhile (· == 13) with
    | [] => exact .inl (by simp)
    | [c] => exact .inr (by simpa [hreturn] using hreturns)
    | _ :: _ :: _ => simp [hreturn] at h
  · rintro (rfl | rfl)
    · rfl
    · rfl

/-- The match of a line is decided by the line as a whole. -/
theorem Scan.Tracks.hit (h : s.Tracks text done rest) : s.hit = true ↔ IsMarker rest := by
  cases hs : s.oversized with
  | true =>
    have hlength := h.oversized.mp hs
    have hnot : ¬IsMarker rest := by
      rintro (rfl | rfl)
      · omega
      · simp at hlength
    simp [Scan.hit, hs, hnot]
  | false =>
    have hlength := mt h.oversized.mpr (by simp [hs])
    rw [Scan.hit, hs, h.pending hs]
    simpa using rdropWhile_eq_marker (by omega)

theorem Scan.Tracks.take (h : s.Tracks text done rest) (hpart : 10 ∉ part) :
    (s.take part).Tracks (text ++ part) done (rest ++ part) := by
  obtain ⟨rfl, hplain, hpending, hoversized, hhanded⟩ := h
  have hplain : ∀ line ∈ (rest ++ part) :: done, 10 ∉ line := by grind
  unfold Scan.take
  split
  · exact ⟨by simp, hplain, by simp_all, by simp_all; omega, hhanded⟩
  · rename_i hs
    rw [hpending (by simpa using hs)]
    split
    · exact ⟨by simp, hplain, by simp, by simp_all, hhanded⟩
    · exact ⟨by simp, hplain, by simp, by simp_all, hhanded⟩

theorem Scan.Tracks.endLine (h : s.Tracks text done rest) :
    s.endLine.Tracks (text ++ [10]) (done ++ [rest]) [] := by
  have hhit := h.hit
  obtain ⟨rfl, hplain, -, -, hhanded⟩ := h
  exact ⟨by simp, by grind, by simp [Scan.endLine], by simp [Scan.endLine],
    by simp [Scan.endLine, Scan.finish, hhanded, hhit, or_and_right, exists_or]⟩

theorem Scan.take_take (s : Scan) (part part' : Bytes) :
    (s.take part).take part' = s.take (part ++ part') := by
  simp only [Scan.take]
  grind

theorem Scan.feed_newline (s : Scan) (chunk : Bytes) :
    s.feed (10 :: chunk) = (s.take []).endLine.feed chunk := by
  obtain ⟨part, later, h⟩ := exists_cons_of_ne_nil (splitOn_ne_nil 10 chunk)
  simp [Scan.feed, splitOn_cons_eq_if_modifyHead, h, Scan.parts]

theorem Scan.feed_cons (s : Scan) {c : UInt8} (hc : c ≠ 10) (chunk : Bytes) :
    s.feed (c :: chunk) = (s.take [c]).feed chunk := by
  obtain ⟨part, later, h⟩ := exists_cons_of_ne_nil (splitOn_ne_nil 10 chunk)
  cases later <;>
    simp [Scan.feed, splitOn_cons_eq_if_modifyHead, hc, h, Scan.parts, Scan.take_take]

/-- However the output is cut into chunks, the match follows the text. -/
theorem Scan.Tracks.feed (h : s.Tracks text done rest) :
    ∃ done' rest', (s.feed chunk).Tracks (text ++ chunk) done' rest' := by
  induction chunk generalizing s text done rest with
  | nil => exact ⟨done, rest ++ [], h.take (by simp)⟩
  | cons c chunk ih =>
    by_cases hc : c = 10
    · subst hc
      rw [Scan.feed_newline]
      simpa using ih (h.take not_mem_nil).endLine
    · rw [Scan.feed_cons s hc]
      simpa using ih (h.take (show 10 ∉ [c] by simpa using Ne.symm hc))

/-! ### The relay -/

/-- Where `_run_spotify` stands: in its loop before the four parts of a round, after the
loop, before the last check and `emit`, and at its end. -/
inductive Point
  | round | write | test | select | wait | check | emit
  | returned (code : ℤ)
  deriving DecidableEq

/-- The loop and the last match are over. -/
def Point.over : Point → Bool
  | .check | .emit | .returned _ => true
  | _ => false

/-- The code that the last check leads to. -/
def Point.code : Point → Option ℤ
  | .emit => some 0
  | .returned code => some code
  | _ => none

/-- `_run_spotify` has returned. -/
def Point.ended : Point → Bool
  | .returned _ => true
  | _ => false

/-- The locals of `_run_spotify`, with the exit of the child, what was read from it, and
what the log has taken. Times are in nanoseconds. -/
structure Relay where
  point : Point := .round
  scan : Scan := {}
  stopping : Bool := false
  killSent : Bool := false
  stopDeadline : Option ℕ := none
  drainDeadline : Option ℕ := none
  queued : Bytes := []
  reading : Bool := false
  writing : Bool := false
  eof : Bool := false
  now : ℕ := 0
  status : Option ℤ := none
  child : Option ℤ := none
  received : Bytes := []
  relayed : Bytes := []

/-- A stop signal, the exit of the child, or the next part of `_run_spotify` with what the
system calls answer: a blocked write has written nothing, and `select none` is a child
pipe that is not ready. -/
inductive Event
  | stop (now : ℕ)
  | exit (status : ℤ)
  | round (now : ℕ)
  | write (written : ℕ)
  | test
  | select (chunk : Option Bytes)
  | wait
  | check
  | emit

namespace Relay

/-- `_SPOTIFY_OUTPUT_LIMIT`. -/
def outputLimit : ℕ := 262144

/-- `_SPOTIFY_STOP_SECONDS`. -/
def stopTime : ℕ := 15000000000

/-- `forward`. -/
def forward (w : Relay) (now : ℕ) : Relay :=
  { w with
    stopping := true
    stopDeadline :=
      if w.child = none then w.stopDeadline.or (some (now + stopTime)) else w.stopDeadline }

/-- The head of a round: the deadlines, and `child.kill()`. -/
def round (w : Relay) (now : ℕ) : Relay :=
  { w with
    point := .write
    now
    status := w.child
    drainDeadline :=
      if w.child.isSome then w.drainDeadline.or (some (now + 200000000)) else w.drainDeadline
    killSent := w.killSent || (w.stopDeadline.any (· ≤ now) && w.child.isNone) }

/-- What the log takes of the queue. -/
def write (w : Relay) (written : ℕ) : Relay :=
  { w with
    point := .test
    relayed := w.relayed ++ w.queued.take written
    queued := w.queued.drop written }

/-- The ends of the loop, and what the selector waits for. -/
def test (outputFd : Bool) (w : Relay) : Relay :=
  if w.drainDeadline.any (· ≤ w.now) || (w.status.isSome && w.eof && w.queued.isEmpty) then
    { w with point := .wait }
  else
    { w with
      point := .select
      reading := !w.eof && w.queued.length < outputLimit
      writing := !w.queued.isEmpty && outputFd }

/-- The answer of the child pipe. -/
def select (w : Relay) : Option Bytes → Relay
  | none => { w with point := .round }
  | some [] => { w with point := .round, reading := false, eof := true }
  | some chunk =>
    { w with
      point := .round
      queued := w.queued ++ chunk
      scan := w.scan.feed chunk
      received := w.received ++ chunk }

/-- The code of an exit that is passed on. -/
def passedOn (status : ℤ) : ℤ := if status < 0 then 128 - status else status

/-- The last check. -/
def check (w : Relay) (status : ℤ) : Relay :=
  { w with
    point := if status = 1 ∧ w.scan.handedOff ∧ !w.stopping ∧ w.queued = [] then .emit
      else .returned (passedOn status) }

/-- One event, if it can happen. A stream without a descriptor takes the whole queue. -/
def step (outputFd : Bool) (w : Relay) : Event → Option Relay
  | .stop now => if !w.point.ended then some (w.forward now) else none
  | .exit status =>
    if !w.point.ended ∧ w.child = none then some { w with child := some status } else none
  | .round now => if w.point = .round then some (w.round now) else none
  | .write written =>
    if w.point = .write ∧ written ≤ w.queued.length ∧ (outputFd ∨ written = w.queued.length) then
      some (w.write written)
    else none
  | .test => if w.point = .test then some (w.test outputFd) else none
  | .select chunk =>
    if w.point = .select ∧
        ∀ read ∈ chunk, w.reading ∧ read.length ≤ min 65536 (outputLimit - w.queued.length) then
      some (w.select chunk)
    else none
  | .wait =>
    if w.point = .wait then
      w.child.map fun _ => { w with point := .check, status := w.child, scan := w.scan.finish }
    else none
  | .check => if w.point = .check then w.status.map w.check else none
  | .emit => if w.point = .emit then some { w with point := .returned 0 } else none

end Relay

/-- The events of a run, from the start of the child. -/
def run (outputFd : Bool) (events : List Event) : Option Relay :=
  events.foldlM (Relay.step outputFd) {}

/-! ### Every run -/

/-- The lines of the output: before its end, the terminated ones. -/
def Relay.lines (w : Relay) : List Bytes :=
  if w.point.over then w.received.splitOn 10 else (w.received.splitOn 10).dropLast

/-- No stop signal is among the events. -/
def Quiet (events : List Event) : Prop := ∀ now, .stop now ∉ events

/-- The exit of the child is a handoff that the events before the last check confirm. -/
def Relay.Handover (w : Relay) (before : List Event) (status : ℤ) : Prop :=
  status = 1 ∧ w.scan.handedOff = true ∧ Quiet before ∧ w.queued = []

/-- What is settled after the loop. -/
structure Relay.Settled (w : Relay) (events : List Event) : Prop where
  found : w.scan.handedOff = true ↔ ∃ line ∈ w.received.splitOn 10, IsMarker line
  exited : w.child.isSome ∧ w.status = w.child
  checked : ∀ code ∈ w.point.code, ∃ before after status, events = before ++ .check :: after ∧
    w.child = some status ∧ (w.Handover before status → code = 0) ∧
    (¬w.Handover before status → code = passedOn status)

/-- What holds throughout a run. -/
structure Relay.Sound (w : Relay) (events : List Event) : Prop where
  order : w.received = w.relayed ++ w.queued
  bound : w.queued.length ≤ outputLimit
  stopping : w.stopping = true ↔ ¬Quiet events
  scan : w.point.over = false → ∃ done rest, w.scan.Tracks w.received done rest
  settled : w.point.over = true → w.Settled events

variable {outputFd : Bool} {events : List Event} {event : Event} {w w' : Relay}

theorem quiet_append : Quiet (events ++ [event]) ↔ Quiet events ∧ ∀ now, event ≠ .stop now := by
  simp [Quiet, forall_and, eq_comm]

theorem later_stopping (h : w.stopping = true ↔ ¬Quiet events) (hevent : ∀ now, event ≠ .stop now) :
    w.stopping = true ↔ ¬Quiet (events ++ [event]) := by
  simpa [quiet_append, hevent] using h

/-- What is settled stays so while the scan, the queue and the exit stay. -/
theorem Relay.Settled.later (h : w.Settled events)
    (hstay : w' =
      { w with point := w'.point, stopping := w'.stopping, stopDeadline := w'.stopDeadline })
    (hcode : w'.point.code = w.point.code) : w'.Settled (events ++ [event]) := by
  obtain ⟨hfound, hexited, hchecked⟩ := h
  rw [hstay]
  refine ⟨hfound, hexited, fun code hc => ?_⟩
  obtain ⟨before, after, status, rfl, hrest⟩ := hchecked code (hcode ▸ hc)
  exact ⟨before, after ++ [event], status, by simp, hrest⟩

theorem Relay.Sound.step (h : w.Sound events) (hstep : w.step outputFd event = some w') :
    w'.Sound (events ++ [event]) := by
  obtain ⟨horder, hbound, hstopping, hscan, hsettled⟩ := h
  cases event with
  | stop now =>
    obtain ⟨-, ⟨⟩⟩ := ite_none_right_eq_some.mp hstep
    exact ⟨horder, hbound, by simp [forward, quiet_append], hscan,
      fun hover => (hsettled hover).later rfl rfl⟩
  | exit status =>
    obtain ⟨⟨-, hchild⟩, ⟨⟩⟩ := ite_none_right_eq_some.mp hstep
    refine ⟨horder, hbound, later_stopping hstopping nofun, hscan, fun hover => ?_⟩
    have := (hsettled hover).exited.1
    simp [hchild] at this
  | round now =>
    obtain ⟨hpoint, ⟨⟩⟩ := ite_none_right_eq_some.mp hstep
    exact ⟨horder, hbound, later_stopping hstopping nofun,
      fun _ => hscan (by rw [hpoint]; rfl), nofun⟩
  | write written =>
    obtain ⟨⟨hpoint, -, -⟩, ⟨⟩⟩ := ite_none_right_eq_some.mp hstep
    exact ⟨by simpa [write] using horder, by simp [write]; omega,
      later_stopping hstopping nofun, fun _ => hscan (by rw [hpoint]; rfl), nofun⟩
  | test =>
    obtain ⟨hpoint, ⟨⟩⟩ := ite_none_right_eq_some.mp hstep
    unfold test
    split <;>
      exact ⟨horder, hbound, later_stopping hstopping nofun,
        fun _ => hscan (by rw [hpoint]; rfl), nofun⟩
  | select chunk =>
    obtain ⟨⟨hpoint, hread⟩, ⟨⟩⟩ := ite_none_right_eq_some.mp hstep
    have hscan := hscan (by rw [hpoint]; rfl)
    cases chunk with
    | none =>
      exact ⟨horder, hbound, later_stopping hstopping nofun, fun _ => hscan, nofun⟩
    | some chunk =>
      obtain ⟨-, hlength⟩ := hread chunk rfl
      obtain ⟨done, rest, htracks⟩ := hscan
      cases chunk with
      | nil =>
        exact ⟨horder, hbound, later_stopping hstopping nofun,
          fun _ => ⟨done, rest, htracks⟩, nofun⟩
      | cons c chunk =>
        exact ⟨by simp [select, horder], by simp [select] at hlength ⊢; omega,
          later_stopping hstopping nofun, fun _ => htracks.feed, nofun⟩
  | wait =>
    obtain ⟨hpoint, hstep⟩ := ite_none_right_eq_some.mp hstep
    obtain ⟨status, hchild, rfl⟩ := map_eq_some_iff.mp hstep
    obtain ⟨done, rest, htracks⟩ := hscan (by rw [hpoint]; rfl)
    refine ⟨horder, hbound, later_stopping hstopping nofun, nofun, fun _ =>
      ⟨?_, by simp [hchild], nofun⟩⟩
    rw [htracks.splitOn]
    simp [Scan.finish, htracks.handedOff, htracks.hit, or_and_right, exists_or]
  | check =>
    obtain ⟨hpoint, hstep⟩ := ite_none_right_eq_some.mp hstep
    obtain ⟨status, hstatus, rfl⟩ := map_eq_some_iff.mp hstep
    obtain ⟨hfound, ⟨hsome, hsame⟩, -⟩ := hsettled (by rw [hpoint]; rfl)
    have hover : (w.check status).point.over = true := by unfold check; split <;> rfl
    refine ⟨horder, hbound, later_stopping hstopping nofun, by simp [hover], fun _ =>
      ⟨hfound, ⟨hsome, hsame⟩, fun code hc => ⟨events, [], status, rfl, hsame ▸ hstatus, ?_⟩⟩⟩
    have hquiet : Quiet events ↔ w.stopping = false := by simpa using (not_congr hstopping).symm
    simp only [Handover, hquiet]
    unfold check at hc ⊢
    split at hc
    · simp_all [Point.code]
    · rename_i hnot
      cases hc
      exact ⟨fun h => absurd (by simpa using h) hnot, fun _ => rfl⟩
  | emit =>
    obtain ⟨hpoint, ⟨⟩⟩ := ite_none_right_eq_some.mp hstep
    exact ⟨horder, hbound, later_stopping hstopping nofun, nofun, fun _ =>
      (hsettled (by rw [hpoint]; rfl)).later rfl (by rw [hpoint]; rfl)⟩

/-- What every step preserves holds after every run. -/
theorem run_induction {P : Relay → List Event → Prop} (hstart : P {} [])
    (hstep : ∀ {events event w w'}, P w events → w.step outputFd event = some w' →
      P w' (events ++ [event])) (h : run outputFd events = some w) : P w events := by
  induction events using List.reverseRecOn generalizing w with
  | nil =>
    cases h
    exact hstart
  | append_singleton events event ih =>
    rw [run, foldlM_append] at h
    obtain ⟨w₀, hrun, hlast⟩ := bind_eq_some_iff.mp h
    exact hstep (ih hrun) (by simpa using hlast)

theorem sound_run (h : run outputFd events = some w) : w.Sound events :=
  run_induction ⟨rfl, by simp, by simp [Quiet],
    fun _ => ⟨[], [], by simp, by simp, by simp, by simp, by simp⟩, nofun⟩ Relay.Sound.step h

/-- In every run, however the output is cut into reads and writes and whenever the signals
and the exit come: the log has taken a prefix of what was read and the rest is queued, the
handoff flag says whether a line of the output is the marker, and the exit of the child is
passed on unless it is 1 after a handoff with no stop signal before the last check and
nothing queued. -/
theorem spotify_output (outputFd : Bool) (events : List Event) (w : Relay)
    (h : run outputFd events = some w) :
    w.received = w.relayed ++ w.queued ∧ w.queued.length ≤ 262144 ∧
    (w.scan.handedOff = true ↔ ∃ line ∈ w.lines, line = marker ∨ line = marker ++ [13]) ∧
    ∀ code, w.point = .returned code → ∃ before after status,
      events = before ++ .check :: after ∧ w.child = some status ∧
      (w.Handover before status → code = 0) ∧
      (¬w.Handover before status → code = if status < 0 then 128 - status else status) := by
  obtain ⟨horder, hbound, -, hscan, hsettled⟩ := sound_run h
  refine ⟨horder, hbound, ?_, fun code hcode => ?_⟩
  · cases hover : w.point.over with
    | true => simpa [Relay.lines, hover] using (hsettled hover).found
    | false =>
      obtain ⟨done, rest, htracks⟩ := hscan hover
      simpa [Relay.lines, hover, htracks.splitOn] using htracks.handedOff
  · exact (hsettled (by rw [hcode]; rfl)).checked code (by rw [hcode]; rfl)

/-- The child prints the marker and exits with 1; a stop signal arrives while `emit` reports it. -/
def lateStop : List Event :=
  [.round 0, .write 0, .test, .select (some marker), .exit 1, .round 1, .write 36, .test,
    .select (some []), .round 1, .write 0, .test, .wait, .check, .stop 2, .emit]

theorem lateStop_ends : ∃ w, run true lateStop = some w ∧
    w.point = .returned 0 ∧ w.child = some 1 := ⟨_, rfl, rfl, rfl⟩

theorem spotify_output_lateStop : ∃ w, run true lateStop = some w ∧
    w.received = w.relayed ++ w.queued := by
  obtain ⟨w, hrun, -⟩ := lateStop_ends
  exact ⟨w, hrun, (spotify_output true lateStop w hrun).1⟩

/-! ### The stop deadline -/

/-- No exit of the child is among the events. -/
def Alive (events : List Event) : Prop := ∀ status, .exit status ∉ events

/-- `P` holds of an event and those before it. -/
def Came (P : List Event → Event → Prop) (events : List Event) : Prop :=
  ∃ before event after, events = before ++ event :: after ∧ P before event

/-- The first stop signal comes at `asked`, and the child is running. -/
def Asked (asked : ℕ) : List Event → Prop :=
  Came fun before event => event = .stop asked ∧ Quiet before ∧ Alive before

/-- A round finds the child running fifteen seconds after the first stop signal. -/
def Overdue : List Event → Prop :=
  Came fun before event => ∃ asked now, event = .round now ∧ Alive before ∧ Asked asked before ∧
    asked + Relay.stopTime ≤ now

theorem came_append {P : List Event → Event → Prop} :
    Came P (events ++ [event]) ↔ Came P events ∨ P events event := by
  constructor
  · rintro ⟨before, x, after, heq, h⟩
    rcases after.eq_nil_or_concat' with rfl | ⟨after, y, rfl⟩
    · obtain ⟨rfl, ⟨⟩⟩ := append_inj' heq rfl
      exact .inr h
    · rw [← cons_append, ← append_assoc] at heq
      exact .inl ⟨before, x, after, (append_inj' heq rfl).1, h⟩
  · rintro (⟨before, x, after, rfl, h⟩ | h)
    · exact ⟨before, x, after ++ [event], by simp, h⟩
    · exact ⟨events, event, [], rfl, h⟩

theorem alive_append :
    Alive (events ++ [event]) ↔ Alive events ∧ ∀ status, event ≠ .exit status := by
  simp [Alive, forall_and, eq_comm]

theorem Asked.not_quiet {asked : ℕ} (h : Asked asked events) : ¬Quiet events := by
  obtain ⟨before, -, after, rfl, rfl, -⟩ := h
  exact fun hquiet => hquiet asked (by simp)

/-- What the deadlines and the kill are about. -/
structure Relay.Timed (w : Relay) (events : List Event) : Prop where
  child : w.child = none ↔ Alive events
  deadline : ∀ d, w.stopDeadline = some d ↔ ∃ asked, d = asked + Relay.stopTime ∧ Asked asked events
  unasked : w.child = none → w.stopDeadline = none → Quiet events
  killed : w.killSent = true ↔ Overdue events

theorem Relay.Timed.step (h : w.Timed events) (hstep : w.step outputFd event = some w') :
    w'.Timed (events ++ [event]) := by
  obtain ⟨hchild, hdeadline, hunasked, hkilled⟩ := h
  have hlater (hstop : ∀ now, event ≠ .stop now) (hexit : ∀ status, event ≠ .exit status)
      (hsame : w'.child = w.child ∧ w'.stopDeadline = w.stopDeadline)
      (hkill : w'.killSent = true ↔ Overdue (events ++ [event])) : w'.Timed (events ++ [event]) := by
    rw [← hsame.1] at hchild
    exact ⟨by simp [hchild, alive_append, hexit],
      by simp [hsame.2, hdeadline, Asked, came_append, hstop],
      fun ha hd => quiet_append.mpr ⟨hunasked (hsame.1 ▸ ha) (hsame.2 ▸ hd), hstop⟩, hkill⟩
  have hkept (hround : ∀ now, event ≠ .round now) (hsame : w'.killSent = w.killSent) :
      w'.killSent = true ↔ Overdue (events ++ [event]) := by
    simp [hsame, hkilled, Overdue, came_append, hround]
  cases event with
  | stop now =>
    obtain ⟨-, ⟨⟩⟩ := ite_none_right_eq_some.mp hstep
    refine ⟨by simpa [forward, alive_append] using hchild, fun d => ?_, ?_, hkept nofun rfl⟩
    · have hsplit : (∃ asked, d = asked + Relay.stopTime ∧ Asked asked (events ++ [.stop now])) ↔
          (∃ asked, d = asked + Relay.stopTime ∧ Asked asked events) ∨
            d = now + Relay.stopTime ∧ Quiet events ∧ Alive events := by
        simp [Asked, came_append, and_or_left, exists_or]
      rw [hsplit, ← hdeadline, ← hchild]
      show (if w.child = none then _ else _) = some d ↔ _
      split
      case isFalse hexited => simp [hexited]
      case isTrue halive =>
        cases hd : w.stopDeadline with
        | none => simp [hunasked halive hd, halive, eq_comm]
        | some asked =>
          obtain ⟨_, -, hasked⟩ := (hdeadline asked).mp hd
          simp [hasked.not_quiet]
    · intro ha hd
      simp_all [forward]
  | exit status =>
    obtain ⟨⟨-, hnone⟩, ⟨⟩⟩ := ite_none_right_eq_some.mp hstep
    exact ⟨by simp [alive_append], by simp [hdeadline, Asked, came_append], nofun, hkept nofun rfl⟩
  | round now =>
    obtain ⟨-, ⟨⟩⟩ := ite_none_right_eq_some.mp hstep
    refine hlater nofun nofun ⟨rfl, rfl⟩ ?_
    have hdue : (w.stopDeadline.any (· ≤ now) && w.child.isNone) = true ↔
        ∃ asked now', Event.round now = .round now' ∧ Alive events ∧ Asked asked events ∧
          asked + Relay.stopTime ≤ now' := by
      rw [Bool.and_eq_true, Option.any_eq_true, isNone_iff_eq_none, hchild]
      constructor
      · rintro ⟨⟨d, hd, hle⟩, halive⟩
        obtain ⟨asked, rfl, hasked⟩ := (hdeadline d).mp hd
        exact ⟨asked, now, rfl, halive, hasked, of_decide_eq_true hle⟩
      · rintro ⟨asked, _, ⟨⟩, halive, hasked, hle⟩
        exact ⟨⟨_, (hdeadline _).mpr ⟨asked, rfl, hasked⟩, decide_eq_true hle⟩, halive⟩
    show (w.killSent || _) = true ↔ _
    rw [Bool.or_eq_true, hkilled, hdue]
    exact came_append.symm
  | write written =>
    obtain ⟨-, ⟨⟩⟩ := ite_none_right_eq_some.mp hstep
    exact hlater nofun nofun ⟨rfl, rfl⟩ (hkept nofun rfl)
  | test =>
    obtain ⟨-, ⟨⟩⟩ := ite_none_right_eq_some.mp hstep
    refine hlater nofun nofun ?_ (hkept nofun ?_) <;> unfold test <;> split <;> simp
  | select chunk =>
    obtain ⟨-, ⟨⟩⟩ := ite_none_right_eq_some.mp hstep
    rcases chunk with _ | _ | _ <;> exact hlater nofun nofun ⟨rfl, rfl⟩ (hkept nofun rfl)
  | wait =>
    obtain ⟨-, hstep⟩ := ite_none_right_eq_some.mp hstep
    obtain ⟨status, -, rfl⟩ := map_eq_some_iff.mp hstep
    exact hlater nofun nofun ⟨rfl, rfl⟩ (hkept nofun rfl)
  | check =>
    obtain ⟨-, hstep⟩ := ite_none_right_eq_some.mp hstep
    obtain ⟨status, -, rfl⟩ := map_eq_some_iff.mp hstep
    exact hlater nofun nofun ⟨rfl, rfl⟩ (hkept nofun rfl)
  | emit =>
    obtain ⟨-, hstep⟩ := ite_none_right_eq_some.mp hstep
    obtain rfl := Option.some.inj hstep
    exact hlater nofun nofun ⟨rfl, rfl⟩ (hkept nofun rfl)

theorem timed_run (h : run outputFd events = some w) : w.Timed events :=
  run_induction ⟨by simp [Alive], by simp [Asked, Came], by simp [Quiet], by simp [Overdue, Came]⟩
    Relay.Timed.step h

end Preseed.Compatibility.Spotify
