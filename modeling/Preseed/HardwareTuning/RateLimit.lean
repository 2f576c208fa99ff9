import Mathlib.Algebra.Order.Field.Rat
import Mathlib.Tactic.Linarith
import Preseed.HardwareTuning.Common

/-!
# The rate limit of the control requests

`Broker.rate_limit` refills its bucket only when a request arrives. The bound on the
admitted requests is about every window of a run: the first request inside the window
finds at most a full bucket, and `Bucket.room` counts from there.
-/

namespace Preseed.HardwareTuning.RateLimit

open List

/-- The members of `Broker` that `rate_limit` reads and writes. -/
structure Bucket where
  tokens : ℚ
  updated : ℚ
  reportAfter : ℚ
  deriving DecidableEq

/-- A valid request from the peer `uid`, with the reading of `time.monotonic` at its arrival. -/
structure Request where
  uid : ℕ
  action : String
  now : ℚ
  deriving DecidableEq

/-- The bucket of a broker constructed at `start`. -/
def Bucket.init (start : ℚ) : Bucket := ⟨16, start, 0⟩

/-- The bucket once it is refilled for a request at `now`. -/
def Bucket.refill (b : Bucket) (now : ℚ) : Bucket :=
  { b with tokens := min 16 (b.tokens + (now - b.updated) / 2), updated := now }

/-- `Broker.rate_limit`. -/
def rateLimit (b : Bucket) (request : Request) : Except Failure Unit × Bucket :=
  if request.uid = 0 then (.ok (), b)
  else
    let b := b.refill request.now
    if b.tokens < 1 then
      (.error (tuningError "control rate limit; retry after a few seconds"), b)
    else
      let b := { b with tokens := b.tokens - 1 }
      if request.action = "report" then
        if request.now < b.reportAfter then
          (.error (tuningError "reports are limited to one per 30 seconds"), b)
        else (.ok (), { b with reportAfter := request.now + 30 })
      else (.ok (), b)

/-- The requests that pass `Broker.rate_limit`, in the order in which they arrive. -/
def admitted : Bucket → List Request → List Request
  | _, [] => []
  | b, request :: later =>
    match rateLimit b request with
    | (.ok _, b') => request :: admitted b' later
    | (.error _, b') => admitted b' later

/-- The clock never goes back during the run. -/
abbrev Ordered (start : ℚ) (requests : List Request) : Prop :=
  (start :: requests.map (·.now)).Pairwise (· ≤ ·)

theorem Ordered.le {start : ℚ} {requests : List Request} (h : Ordered start requests) :
    ∀ request ∈ requests, start ≤ request.now := by
  intro request hrequest
  exact (pairwise_cons.mp h).1 _ (mem_map_of_mem hrequest)

variable {start first last : ℚ} {b b' : Bucket} {request : Request}
  {requests earlier later : List Request} {answer : Except Failure Unit} {counts : Request → Bool}

theorem Ordered.cons (h : Ordered start (request :: later)) :
    start ≤ request.now ∧ Ordered request.now later ∧ Ordered start later := by
  have hle := h.le
  have htail := (pairwise_cons.mp h).2
  refine ⟨hle _ (by simp), htail, pairwise_cons.mpr ⟨?_, (pairwise_cons.mp htail).2⟩⟩
  intro now hnow
  obtain ⟨r, hr, rfl⟩ := mem_map.mp hnow
  exact hle r (mem_cons_of_mem _ hr)

/-! ### One request -/

/-- A bucket between two requests. -/
structure Bucket.Sound (b : Bucket) : Prop where
  nonneg : 0 ≤ b.tokens
  full : b.tokens ≤ 16

theorem rateLimit_root (h : request.uid = 0) :
    rateLimit b request = (.ok (), b) := by
  simp [rateLimit, h]

theorem Bucket.Sound.refill {now : ℚ} (hb : b.Sound) (hnow : b.updated ≤ now) :
    (b.refill now).Sound := by
  have := hb.nonneg
  exact ⟨le_min (by norm_num) (by linarith), min_le_left _ _⟩

/-- What one request does: it is counted off when it passes, and a report that passes
closes the reports for thirty seconds. -/
theorem rateLimit_spec (huid : request.uid ≠ 0) (hb : b.Sound)
    (hnow : b.updated ≤ request.now) (h : rateLimit b request = (answer, b')) :
    b'.Sound ∧ b'.updated = request.now ∧ b'.tokens ≤ (b.refill request.now).tokens ∧
      (answer = .ok () →
        b'.tokens + 1 ≤ (b.refill request.now).tokens ∧
        (request.action = "report" →
          b.reportAfter ≤ request.now ∧ b'.reportAfter = request.now + 30)) ∧
      (request.action ≠ "report" ∨ answer ≠ .ok () → b'.reportAfter = b.reportAfter) := by
  have hfull := hb.refill hnow
  rw [rateLimit, if_neg huid] at h
  by_cases htoken : (b.refill request.now).tokens < 1
  · rw [if_pos htoken] at h
    cases h
    exact ⟨hfull, rfl, le_rfl, by simp, by simp [Bucket.refill]⟩
  · rw [if_neg htoken] at h
    have hleft : Bucket.Sound { b.refill request.now with tokens := (b.refill request.now).tokens - 1 } :=
      ⟨by simpa using htoken, by linarith [hfull.full]⟩
    by_cases haction : request.action = "report"
    · rw [if_pos haction] at h
      split at h
      · cases h
        exact ⟨hleft, rfl, by simp, by simp, by simp [Bucket.refill]⟩
      · rename_i hafter
        cases h
        exact ⟨⟨hleft.nonneg, hleft.full⟩, rfl, by simp,
          fun _ => ⟨by simp, fun _ => ⟨not_lt.mp hafter, rfl⟩⟩, by simp [haction]⟩
    · rw [if_neg haction] at h
      cases h
      exact ⟨hleft, rfl, by simp, fun _ => ⟨by simp, fun hreport => absurd hreport haction⟩,
        by simp [Bucket.refill]⟩

theorem admitted_subset (b : Bucket) (requests : List Request) :
    admitted b requests ⊆ requests := by
  induction requests generalizing b with
  | nil => simp [admitted]
  | cons request later ih =>
    unfold admitted
    split
    · exact cons_subset_cons _ (ih _)
    · exact subset_cons_of_subset _ (ih _)

/-! ### Runs -/

theorem countP_admitted (h : rateLimit b request = (answer, b')) :
    (admitted b (request :: later)).countP counts =
      (admitted b' later).countP counts + if answer = .ok () ∧ counts request then 1 else 0 := by
  rw [admitted, h]
  cases answer with
  | error e => simp
  | ok v => cases v; simp [countP_cons]

/-- Nothing is counted once the clock has passed the last moment of what counts. -/
theorem countP_admitted_late (hcounts : ∀ r, counts r = true → r.now ≤ last)
    (hclock : Ordered start requests) (hlate : last < start) :
    (admitted b requests).countP counts = 0 := by
  refine countP_eq_zero.mpr fun r hr hcount => ?_
  have := hcounts r hcount
  have := hclock.le r (admitted_subset b requests hr)
  linarith

/-- What a bucket can still admit between `first` and `last`: its tokens once the window is
open, and one more every two seconds. -/
def Bucket.room (b : Bucket) (first last : ℚ) : ℚ :=
  (b.refill (max first b.updated)).tokens + (last - max first b.updated) / 2

theorem Bucket.Sound.room_nonneg (hb : b.Sound) (hopen : max first b.updated ≤ last) :
    0 ≤ b.room first last := by
  have := (hb.refill (le_max_right first b.updated)).nonneg
  unfold Bucket.room
  linarith

theorem Bucket.Sound.room_le (hb : b.Sound) (first last : ℚ) :
    b.room first last ≤ 16 + (last - first) / 2 := by
  have := (hb.refill (le_max_right first b.updated)).full
  have := le_max_left first b.updated
  unfold Bucket.room
  linarith

/-- A request takes from the room what it is counted for. -/
theorem room_spent (first last : ℚ) (hnow : b.updated ≤ request.now)
    (hupdated : b'.updated = request.now)
    {spent : ℚ} (hspent : b'.tokens + spent ≤ (b.refill request.now).tokens)
    (hinside : spent = 0 ∨ first ≤ request.now) (hnonneg : 0 ≤ spent) :
    b'.room first last + spent ≤ b.room first last := by
  simp only [Bucket.room, Bucket.refill, hupdated] at *
  rcases hinside with rfl | hinside
  · rcases max_cases first request.now with h | h <;> rcases max_cases first b.updated with h' | h' <;>
      rcases min_cases (16 : ℚ) (b.tokens + (request.now - b.updated) / 2) with h₁ | h₁ <;>
      grind
  · grind

/-- In a window, no more is admitted than the bucket has room for. -/
theorem countP_admitted_le
    (hcounts : ∀ r, counts r = true → r.uid ≠ 0 ∧ first ≤ r.now ∧ r.now ≤ last) (hb : b.Sound)
    (hopen : max first b.updated ≤ last) (hclock : Ordered b.updated requests) :
    ((admitted b requests).countP counts : ℚ) ≤ b.room first last := by
  have hlast : ∀ r, counts r = true → r.now ≤ last := fun r hr => (hcounts r hr).2.2
  induction requests generalizing b with
  | nil => simpa [admitted] using hb.room_nonneg hopen
  | cons request later ih =>
    obtain ⟨hnow, hlater, hskip⟩ := hclock.cons
    obtain ⟨⟨answer, b'⟩, h⟩ : ∃ result, rateLimit b request = result := ⟨_, rfl⟩
    by_cases huid : request.uid = 0
    · have hcount : ¬counts request = true := fun hc => (hcounts request hc).1 huid
      rw [countP_admitted (rateLimit_root huid)]
      simpa [hcount] using ih hb hopen hskip
    · obtain ⟨hb', hupdated, hle, hok, -⟩ := rateLimit_spec huid hb hnow h
      rw [countP_admitted h]
      rcases le_or_gt request.now last with hin | hout
      · have hrest := ih hb' (max_le (by grind) (hupdated ▸ hin)) (hupdated ▸ hlater)
        split
        · rename_i hpass
          have := room_spent first last hnow hupdated (hok hpass.1).1
            (.inr (hcounts request hpass.2).2.1) zero_le_one
          push_cast
          linarith
        · have := room_spent first last hnow hupdated (by simpa using hle)
            (.inl rfl) le_rfl
          push_cast
          linarith
      · have hnot : ¬counts request = true := fun hc => absurd (hlast request hc) (not_le.mpr hout)
        rw [countP_admitted_late hlast hlater hout]
        simpa [hnot] using hb.room_nonneg hopen

/-- The reports that pass are thirty seconds apart, and the first one keeps the pause
that the bucket still asks for. -/
theorem reports_apart (hb : b.Sound) (hclock : Ordered b.updated requests) :
    let reports := (admitted b requests).filter fun r => r.uid ≠ 0 ∧ r.action = "report"
    (∀ r ∈ reports, b.reportAfter ≤ r.now) ∧ reports.Pairwise fun r r' => r.now + 30 ≤ r'.now := by
  induction requests generalizing b with
  | nil => simp [admitted]
  | cons request later ih =>
    obtain ⟨hnow, hlater, hskip⟩ := hclock.cons
    obtain ⟨⟨answer, b'⟩, h⟩ : ∃ result, rateLimit b request = result := ⟨_, rfl⟩
    by_cases huid : request.uid = 0
    · rw [admitted, rateLimit_root huid]
      simpa [huid] using ih hb hskip
    · obtain ⟨hb', hupdated, -, hok, hkeep⟩ := rateLimit_spec huid hb hnow h
      obtain ⟨hafter, hapart⟩ := ih hb' (hupdated ▸ hlater)
      rw [admitted, h]
      cases answer with
      | error e =>
        rw [hkeep (Or.inr (by simp))] at hafter
        exact ⟨hafter, hapart⟩
      | ok v =>
        cases v
        by_cases haction : request.action = "report"
        · obtain ⟨hopen, hclosed⟩ := (hok rfl).2 haction
          rw [hclosed] at hafter
          rw [filter_cons_of_pos (by simp [huid, haction])]
          refine ⟨forall_mem_cons.mpr ⟨hopen, fun r hr => ?_⟩,
            pairwise_cons.mpr ⟨hafter, hapart⟩⟩
          have := hafter r hr
          linarith
        · rw [hkeep (Or.inl haction)] at hafter
          simpa [haction] using And.intro hafter hapart

/-- In every run of the broker, every window of `length` seconds sees at most
`16 + length / 2` requests of other accounts than root admitted, and the reports among
them come at least thirty seconds apart. -/
theorem rateLimit_bounds (start : ℚ) (requests : List Request)
    (hclock : Ordered start requests) :
    (∀ first length : ℚ, 0 ≤ length →
      ((admitted (.init start) requests).countP fun r =>
        r.uid ≠ 0 ∧ first ≤ r.now ∧ r.now ≤ first + length : ℚ) ≤ 16 + length / 2) ∧
    ((admitted (.init start) requests).filter fun r => r.uid ≠ 0 ∧ r.action = "report").Pairwise
      fun r r' => r.now + 30 ≤ r'.now := by
  have hb : (Bucket.init start).Sound := ⟨by norm_num [Bucket.init], le_rfl⟩
  refine ⟨fun first length hlength => ?_, (reports_apart hb hclock).2⟩
  rcases le_or_gt start (first + length) with hopen | hlate
  · have hroom := hb.room_le first (first + length)
    rw [add_sub_cancel_left] at hroom
    exact (countP_admitted_le (by simp) hb (max_le (by linarith) hopen) hclock).trans hroom
  · rw [countP_admitted_late (by simp) hclock hlate]
    simp only [Nat.cast_zero]
    linarith

/-- The desktop asks for a report at 6, 10 and 40 seconds. -/
theorem rateLimit_bounds_reports :
    let requests : List Request := [⟨1000, "report", 6⟩, ⟨1000, "report", 10⟩, ⟨1000, "report", 40⟩]
    Ordered 5 requests ∧
      ((admitted (.init 5) requests).filter fun r => r.uid ≠ 0 ∧ r.action = "report").Pairwise
        fun r r' => r.now + 30 ≤ r'.now := by
  have hclock : Ordered 5 [⟨1000, "report", 6⟩, ⟨1000, "report", 10⟩, ⟨1000, "report", 40⟩] := by
    norm_num [Ordered]
  exact ⟨hclock, (rateLimit_bounds 5 _ hclock).2⟩

/-! ### A request after a pause -/

/-- The request comes two seconds after the others, and a report thirty seconds after the reports. -/
def Spaced (earlier : List Request) (request : Request) : Prop :=
  ∀ r ∈ earlier, r.uid ≠ 0 → r.now + 2 ≤ request.now ∧
    (request.action = "report" → r.action = "report" → r.now + 30 ≤ request.now)

theorem rateLimit_ok (hb : b.Sound) (hnow : b.updated ≤ request.now)
    (htoken : 1 ≤ b.tokens ∨ b.updated + 2 ≤ request.now)
    (hopen : request.action = "report" → b.reportAfter ≤ request.now) :
    (rateLimit b request).1 = .ok () := by
  have hnonneg := hb.nonneg
  have htokens : ¬(b.refill request.now).tokens < 1 := by
    refine not_lt.mpr (le_min (by norm_num) ?_)
    rcases htoken with htoken | htoken <;> linarith
  unfold rateLimit
  split
  · rfl
  · simp only [if_neg htokens]
    split
    · rename_i hreport
      rw [if_neg (by simpa [Bucket.refill] using hopen hreport)]
    · rfl

theorem admitted_last (hb : b.Sound) (hclock : Ordered b.updated (earlier ++ [request]))
    (htoken : 1 ≤ b.tokens ∨ b.updated + 2 ≤ request.now)
    (hopen : request.action = "report" → b.reportAfter ≤ request.now)
    (hspaced : Spaced earlier request) :
    admitted b (earlier ++ [request]) = admitted b earlier ++ [request] := by
  induction earlier generalizing b with
  | nil =>
    have hok := rateLimit_ok hb hclock.cons.1 htoken hopen
    obtain ⟨⟨answer, b'⟩, h⟩ : ∃ result, rateLimit b request = result := ⟨_, rfl⟩
    rw [h] at hok
    subst hok
    simp [admitted, h]
  | cons r earlier ih =>
    obtain ⟨hnow, hlater, hskip⟩ := Ordered.cons hclock
    have hspaced' : Spaced earlier request := fun r' hr => hspaced r' (List.mem_cons_of_mem _ hr)
    obtain ⟨⟨answer, b'⟩, h⟩ : ∃ result, rateLimit b r = result := ⟨_, rfl⟩
    have hlast : admitted b' (earlier ++ [request]) = admitted b' earlier ++ [request] := by
      by_cases huid : r.uid = 0
      · rw [rateLimit_root huid] at h
        cases h
        exact ih hb hskip htoken hopen hspaced'
      · obtain ⟨hb', hupdated, -, hok, hkeep⟩ := rateLimit_spec huid hb hnow h
        obtain ⟨hgap, hreports⟩ := hspaced r (by simp) huid
        refine ih hb' (hupdated ▸ hlater) (.inr (hupdated ▸ hgap)) (fun hreport => ?_) hspaced'
        by_cases hpass : r.action = "report" ∧ answer = .ok ()
        · rw [((hok hpass.2).2 hpass.1).2]
          exact hreports hreport hpass.1
        · rw [hkeep (not_and_or.mp hpass)]
          exact hopen hreport
    rw [List.cons_append, admitted, admitted, h]
    cases answer <;> simp [hlast]

/-- No account is kept out: in every run, a request passes two seconds after the last one of
another account than root, and a report thirty seconds after the last report. -/
theorem spaced_request_passes (start : ℚ) (earlier : List Request) (request : Request)
    (hstart : 0 ≤ start) (hclock : Ordered start (earlier ++ [request]))
    (hspaced : Spaced earlier request) :
    admitted (.init start) (earlier ++ [request]) = admitted (.init start) earlier ++ [request] := by
  have hnow : start ≤ request.now := hclock.le request (by simp)
  exact admitted_last ⟨by norm_num [Bucket.init], le_rfl⟩ hclock (.inl (by norm_num [Bucket.init]))
    (fun _ => hstart.trans hnow) hspaced

theorem spaced_request_passes_reports :
    admitted (.init 5) ([⟨1000, "report", 6⟩, ⟨1000, "status", 10⟩] ++ [⟨1000, "report", 40⟩]) =
      admitted (.init 5) [⟨1000, "report", 6⟩, ⟨1000, "status", 10⟩] ++ [⟨1000, "report", 40⟩] :=
  spaced_request_passes 5 _ _ (by norm_num) (by norm_num [Ordered]) (by norm_num [Spaced])

end Preseed.HardwareTuning.RateLimit
