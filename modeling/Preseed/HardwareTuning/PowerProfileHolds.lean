import Preseed.HardwareTuning.Dictionaries
import Preseed.HardwareTuning.PowerProfiles

/-!
# The life of a hold

In every run of the adapter the live cookies are different and in range, a free one is
found whenever a hold is recorded, and a hold disappears only for one of four reasons.
-/

namespace Preseed.HardwareTuning.PowerProfiles

open Concurrency List

namespace Adapter

variable {adapter after : Adapter} {status : Status} {dead : Channel → Bool}

/-- The holds of an adapter are well formed. -/
structure Valid (adapter : Adapter) : Prop where
  /-- No cookie is given out twice. -/
  distinct : adapter.cookies.Nodup
  /-- Every cookie is a positive 32-bit number. -/
  range : ∀ cookie ∈ adapter.cookies, 1 ≤ cookie ∧ cookie ≤ lastCookie
  /-- The holds are limited. -/
  limited : adapter.holds.length ≤ holdLimit

/-- Nothing is held at first. -/
theorem valid_initial : (initial status).Valid :=
  ⟨nodup_nil, by simp [initial, cookies], by simp [initial]⟩

/-- Dropping holds keeps the others well formed. -/
theorem Valid.filter (h : adapter.Valid) (keep : ℕ × Hold → Bool)
    (hafter : after.holds = adapter.holds.filter keep) : after.Valid := by
  have hsub : after.cookies.Sublist adapter.cookies := by
    unfold cookies
    rw [hafter]
    exact filter_sublist.map _
  constructor
  · exact h.distinct.sublist hsub
  · intro cookie hcookie
    exact h.range cookie (hsub.subset hcookie)
  · rw [hafter]
    exact (length_filter_le _ _).trans h.limited

/-- A valid adapter below the limit finds a free cookie. -/
theorem Valid.freeCookie_isSome (h : adapter.Valid) : adapter.freeCookie.isSome := by
  have hpositive : 0 < lastCookie := by decide
  obtain ⟨hfirst, hlast⟩ : 1 ≤ following lastCookie adapter.cookie ∧
    following lastCookie adapter.cookie ≤ lastCookie := following_range hpositive
  refine freeName_isSome hfirst hlast ?_
  have hlimited := h.limited
  have hbound : holdLimit < lastCookie := by decide
  simp only [cookies, length_map]
  omega

/-- A free cookie is in range and not in use. -/
theorem freeCookie_fresh {cookie : ℕ} (h : adapter.freeCookie = some cookie) :
    cookie ∉ adapter.cookies ∧ 1 ≤ cookie ∧ cookie ≤ lastCookie := by
  have hpositive : 0 < lastCookie := by decide
  exact freeName_some hpositive (following_range hpositive) h

/-- A recorded hold stands last, under a fresh cookie. -/
theorem held_ok {hold : Hold} {authorized : Except Failure Unit} {cookie : ℕ}
    (h : adapter.held hold authorized = .ok (cookie, after)) :
    adapter.holds.length < holdLimit ∧ adapter.freeCookie = some cookie ∧
      after = { adapter with cookie, holds := adapter.holds ++ [(cookie, hold)] } := by
  unfold held at h
  cases authorized with
  | error e => cases h
  | ok =>
    simp only [bind, Except.bind] at h
    split at h
    · cases h
    · rename_i hlimit
      split at h
      · cases h
      · split at h
        · rename_i hcookie
          cases h
          exact ⟨by omega, hcookie, rfl⟩
        · cases h

/-- Recording a hold keeps all holds well formed. -/
theorem Valid.held (h : adapter.Valid) {hold : Hold} {authorized : Except Failure Unit}
    {cookie : ℕ} (hheld : adapter.held hold authorized = .ok (cookie, after)) : after.Valid := by
  obtain ⟨hlimit, hcookie, rfl⟩ := held_ok hheld
  obtain ⟨hfresh, hfirst, hlast⟩ := freeCookie_fresh hcookie
  constructor
  · simp only [cookies, map_append, map_cons, map_nil]
    refine List.Nodup.append h.distinct (nodup_singleton _) ?_
    rw [disjoint_singleton]
    exact hfresh
  · simp only [cookies, map_append, map_cons, map_nil, mem_append,
      mem_singleton]
    rintro c (hc | rfl)
    · exact h.range c hc
    · exact ⟨hfirst, hlast⟩
  · rw [length_append, length_singleton]
    omega

/-- A status that is taken over drops the dead and the superseded holds. -/
theorem update_ok (h : adapter.update status dead = .ok after) :
    after.holds = adapter.holds.filter fun item =>
      !dead item.2.socket && item.2.generation == status.powerGeneration := by
  unfold update at h
  split at h
  · cases h
  · cases h
    rfl

/-- The hold a release takes away is one of its sender. -/
theorem releaseProfile_ok {sender : String} {cookie : ℕ}
    (h : adapter.releaseProfile sender cookie = .ok after) :
    (∃ hold, adapter.holds.lookup cookie = some hold ∧ hold.sender = sender) ∧
      after = adapter.release cookie := by
  unfold releaseProfile at h
  split at h
  · rename_i hold hlookup
    split at h
    · rename_i hsender
      cases h
      exact ⟨⟨hold, hlookup, hsender⟩, rfl⟩
    · cases h
  · cases h

/-- An answered request keeps every hold that its status does not supersede. -/
theorem mem_complete {request : Option (Hold × Except Failure Unit)} {item : ℕ × Hold}
    (hitem : item ∈ adapter.holds) (halive : dead item.2.socket = false)
    (hgeneration : item.2.generation = status.powerGeneration) :
    item ∈ (adapter.complete status dead request).holds := by
  unfold complete
  split
  · exact hitem
  · split
    · exact hitem
    · rename_i updated hupdate
      have hkept : item ∈ updated.holds := by
        rw [update_ok hupdate, mem_filter]
        exact ⟨hitem, by simp [halive, hgeneration]⟩
      split
      · exact hkept
      · split
        · exact hkept
        · rename_i hheld
          obtain ⟨-, -, rfl⟩ := held_ok hheld
          exact mem_append_left _ hkept

/-- An answered request keeps all holds well formed. -/
theorem Valid.complete (h : adapter.Valid) (request : Option (Hold × Except Failure Unit)) :
    (adapter.complete status dead request).Valid := by
  unfold Adapter.complete
  split
  · exact h
  · split
    · exact h
    · rename_i updated hupdate
      have hupdated := h.filter _ (update_ok hupdate)
      split
      · exact hupdated
      · split
        · exact hupdated
        · rename_i hheld
          exact hupdated.held hheld

/-- Every event keeps all holds well formed. -/
theorem Valid.step (h : adapter.Valid) (event : Event) : (adapter.step event).Valid := by
  cases event with
  | completed status dead request => exact h.complete request
  | releaseProfile sender cookie =>
    unfold Adapter.step
    dsimp only
    split
    · rename_i hrelease
      obtain ⟨-, rfl⟩ := releaseProfile_ok hrelease
      exact h.filter _ rfl
    · exact h
  | ownerChanged name new =>
    unfold Adapter.step Adapter.ownerChanged
    dsimp only
    split
    · exact h.filter _ rfl
    · exact h
  | shutdown => exact ⟨nodup_nil, by simp [Adapter.step, Adapter.shutdown, cookies],
      by simp [Adapter.step, Adapter.shutdown]⟩

/-- Every run keeps all holds well formed. -/
theorem Valid.run (h : adapter.Valid) (events : List Event) : (adapter.run events).Valid := by
  induction events generalizing adapter with
  | nil => exact h
  | cons event events ih => exact ih (h.step event)

end Adapter

/-- The reasons for which an event takes a hold away. -/
inductive Event.Ends (cookie : ℕ) (hold : Hold) : Event → Prop
  | released : Ends cookie hold (.releaseProfile hold.sender cookie)
  | left : Ends cookie hold (.ownerChanged hold.sender "")
  | superseded (status : Status) (dead : Channel → Bool)
      (request : Option (Hold × Except Failure Unit))
      (h : dead hold.socket = true ∨ hold.generation ≠ status.powerGeneration) :
      Ends cookie hold (.completed status dead request)
  | shutdown : Ends cookie hold .shutdown

/-- A hold that an event takes away ends for one of the reasons. -/
theorem Adapter.Valid.ends {adapter : Adapter} (h : adapter.Valid) {event : Event} {cookie : ℕ}
    {hold : Hold} (hlive : (cookie, hold) ∈ adapter.holds)
    (hgone : (cookie, hold) ∉ (adapter.step event).holds) : event.Ends cookie hold := by
  cases event with
  | completed status dead request =>
    refine .superseded status dead request ?_
    by_contra hkept
    simp only [not_or, Bool.not_eq_true, not_not] at hkept
    exact hgone (Adapter.mem_complete hlive hkept.1 hkept.2)
  | releaseProfile sender released =>
    unfold Adapter.step at hgone
    dsimp only at hgone
    split at hgone
    · rename_i hrelease
      obtain ⟨⟨found, hfound, rfl⟩, rfl⟩ := Adapter.releaseProfile_ok hrelease
      by_cases heq : cookie = released
      · subst heq
        rw [lookup_eq_of_mem h.distinct hlive] at hfound
        cases hfound
        exact .released
      · exact absurd (mem_filter.mpr ⟨hlive, by simpa using heq⟩) hgone
    · exact absurd hlive hgone
  | ownerChanged name new =>
    unfold Adapter.step Adapter.ownerChanged at hgone
    dsimp only at hgone
    split at hgone
    · rename_i hleft
      by_cases heq : hold.sender = name
      · rw [← heq, hleft.2]
        exact .left
      · exact absurd (mem_filter.mpr ⟨hlive, by simpa using heq⟩) hgone
    · exact absurd hlive hgone
  | shutdown => exact .shutdown

/-- In every run the live cookies are different and in range, a free cookie is found, and a hold
ends only by a release of its sender, by its sender leaving the bus, by a broker that has closed
its channel or moved on to another generation, or with the adapter itself. -/
theorem holds_accounted (status : Status) (events : List Event) :
    let adapter := (Adapter.initial status).run events
    adapter.cookies.Nodup ∧ (∀ cookie ∈ adapter.cookies, 1 ≤ cookie ∧ cookie ≤ 2 ^ 32 - 1) ∧
      adapter.freeCookie.isSome ∧
      ∀ event cookie hold, (cookie, hold) ∈ adapter.holds →
        (cookie, hold) ∉ (adapter.step event).holds → event.Ends cookie hold := by
  intro adapter
  have hvalid : adapter.Valid := Adapter.valid_initial.run events
  refine ⟨hvalid.distinct, hvalid.range, hvalid.freeCookie_isSome, ?_⟩
  intro event cookie hold hlive hgone
  exact hvalid.ends hlive hgone

/-- A hold of the first generation. -/
def firstHold : Hold := ⟨":1.5", "/net/hadess/PowerProfiles", 7, 0, "performance", "game", "app"⟩

/-- A status of a generation. -/
def statusAt (generation : ℕ) : Status := ⟨true, [.intel], generation⟩

/-- A hold whose sender neither releases it nor leaves is dropped by the next generation. -/
theorem hold_superseded :
    let adapter := (Adapter.initial (statusAt 0)).run
      [.completed (statusAt 0) (fun _ => false) (some (firstHold, .ok ()))]
    (1, firstHold) ∈ adapter.holds ∧
      (1, firstHold) ∉ (adapter.step (.completed (statusAt 1) (fun _ => false) none)).holds := by
  decide

end Preseed.HardwareTuning.PowerProfiles
