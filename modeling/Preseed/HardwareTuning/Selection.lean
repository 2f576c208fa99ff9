import Mathlib.Data.List.MinMax
import Preseed.HardwareTuning.Common

/-!
# Arbitration between requests

`Selection` of `broker.py`: the automatic mode, the manual selections, the leases
of applications and the holds of the public interface, and which profile they
amount to for a vendor. Nothing here touches hardware.
-/

namespace Preseed.HardwareTuning

/-- A `collections.Counter`: a key without a count is absent. -/
abbrev Counter (α : Type) : Type := α → Option ℤ

namespace Counter

variable {α : Type} [DecidableEq α]

/-- `counter[key]`: an absent key counts zero. -/
def count (counter : Counter α) (key : α) : ℤ := (counter key).getD 0

/-- Set the count of a key, or drop a key that counts zero. -/
def put (counter : Counter α) (key : α) (n : ℤ) : Counter α :=
  Function.update counter key (if n = 0 then none else some n)

/-- The counter of the keys that occur in a list, without keys that count zero. -/
def ofList (keys : List α) : Counter α := fun key =>
  if keys.count key = 0 then none else some (keys.count key)

@[simp] theorem count_ofList (keys : List α) (key : α) :
    (ofList keys).count key = keys.count key := by
  simp only [count, ofList]
  split <;> simp_all

@[simp] theorem ofList_nil : ofList ([] : List α) = fun _ => none := by
  funext key
  simp [ofList]

/-- `counter[key] += 1`. -/
def increment (counter : Counter α) (key : α) : Counter α :=
  Function.update counter key (some (counter.count key + 1))

/-- Counting one key more. -/
theorem increment_ofList (keys : List α) (key : α) :
    (ofList keys).increment key = ofList (key :: keys) := by
  funext other
  by_cases h : other = key
  · subst h
    simp [increment, ofList]
  · simp [increment, ofList, h, List.count_cons_of_ne (Ne.symm h)]

/-- Setting the count to one more counts one key more. -/
theorem put_ofList_cons (keys : List α) (key : α) :
    (ofList keys).put key ((ofList keys).count key + 1) = ofList (key :: keys) := by
  have hpositive : (keys.count key : ℤ) + 1 ≠ 0 := by omega
  rw [← increment_ofList]
  simp [put, increment, hpositive]

/-- A key that occurs has a positive count. -/
theorem count_ofList_pos {keys : List α} {key : α} (h : key ∈ keys) :
    0 < (ofList keys).count key := by
  rw [count_ofList]
  exact_mod_cast List.count_pos_iff.mpr h

/-- The order of the keys does not count. -/
theorem ofList_perm {keys keys' : List α} (h : keys.Perm keys') : ofList keys = ofList keys' := by
  funext key
  simp only [ofList, h.count_eq]

/-- Counting one key less, if it occurs. -/
theorem put_ofList_erase {keys : List α} {key : α} (h : key ∈ keys) :
    (ofList keys).put key ((ofList keys).count key - 1) = ofList (keys.erase key) := by
  have hpositive : 0 < keys.count key := List.count_pos_iff.mpr h
  funext other
  by_cases hother : other = key
  · subst hother
    simp only [put, count_ofList, Function.update_self, ofList, List.count_erase_self]
    by_cases hlast : keys.count other = 1
    · simp [hlast]
    · rw [if_neg (by omega), if_neg (by omega)]
      congr 1
      omega
  · simp [put, ofList, hother, List.count_erase_of_ne hother]

end Counter

/-- The broker's configuration, as `validate_config` admits it: `idleAc` and `idleBattery` are
none for the profile `none`, and `customApi` is `power_profiles_api`. -/
structure Config where
  /-- The installed vendors. -/
  vendors : List Vendor
  /-- The automatic profile on mains power. -/
  idleAc : Option Profile
  /-- The automatic profile on battery power. -/
  idleBattery : Option Profile
  /-- The broker itself provides the public power-profile interface. -/
  customApi : Bool
  /-- A vendor is installed. -/
  installed : vendors ≠ []
  /-- No vendor is listed twice. -/
  nodup : vendors.Nodup

/-- `Selection`. -/
structure Selection where
  /-- Automatic tuning is on. -/
  automatic : Bool
  /-- The manual selections. -/
  manual : Vendor → Option Profile
  /-- The leases of applications. -/
  leases : Counter (Vendor × Profile)
  /-- The holds of the public interface. -/
  powerHolds : Counter Profile
  /-- How often the holds have been cleared. -/
  powerGeneration : ℕ
  /-- The faulted vendors, with the error. -/
  faults : Vendor → Option String
  /-- Tuning is paused for sleep. -/
  paused : Bool

namespace Selection

/-- A selection that asks for nothing. -/
def initial : Selection where
  automatic := false
  manual _ := none
  leases _ := none
  powerHolds _ := none
  powerGeneration := 0
  faults _ := none
  paused := false

/-- The profiles leased for a vendor. -/
def candidates (selection : Selection) (vendor : Vendor) : List Profile :=
  Profile.all.filter fun profile => 0 < selection.leases.count (vendor, profile)

/-- The profile that a vendor should have. -/
def desired (selection : Selection) (vendor : Vendor) (active : Bool) (idle : Option Profile) :
    Option Profile :=
  if active = false ∨ selection.paused ∨ (selection.faults vendor).isSome then none
  else
    -- Public holds precede the selected baseline, and power saving wins.
    match [Profile.silent, .performance].find? fun profile => 0 < selection.powerHolds.count profile with
    | some profile => some profile
    | none =>
      match selection.manual vendor with
      | some profile => some profile
      | none =>
        if selection.automatic = false then none
        else if idle = some .performance then some .performance
        else ((selection.candidates vendor).argmax Profile.rank).or idle

/-- Change the number of leases of a vendor and a profile. -/
def changeLease (selection : Selection) (vendor : Vendor) (profile : Profile) (delta : ℤ) :
    Except Failure Selection :=
  let count := selection.leases.count (vendor, profile) + delta
  if count < 0 then .error (tuningError "unbalanced lease lifecycle")
  else .ok { selection with leases := selection.leases.put (vendor, profile) count }

/-- Forget all holds. Those who hold them keep the old generation. -/
def clearPowerHolds (selection : Selection) : Selection :=
  { selection with powerGeneration := selection.powerGeneration + 1, powerHolds := fun _ => none }

/-- `self.selection.power_holds` is not empty. -/
def held (selection : Selection) : Bool :=
  Profile.all.any fun profile => (selection.powerHolds profile).isSome

/-- `any(self.selection.manual.values())`. -/
def anyManual (selection : Selection) (config : Config) : Bool :=
  config.vendors.any fun vendor => (selection.manual vendor).isSome

/-- Something asks for a profile of a vendor only if automatic mode is on, or the vendor has a
manual selection, or something is held; a faulted vendor never gets one. -/
theorem desired_isSome {selection : Selection} {vendor : Vendor} {active : Bool}
    {idle : Option Profile} (h : (selection.desired vendor active idle).isSome) :
    selection.faults vendor = none ∧
      (selection.automatic ∨ (selection.manual vendor).isSome ∨ selection.held) := by
  unfold desired at h
  split at h
  · cases h
  · rename_i hfree
    have hfault : selection.faults vendor = none := by
      by_contra hfault
      exact hfree (.inr (.inr (Option.isSome_iff_ne_none.mpr hfault)))
    refine ⟨hfault, ?_⟩
    split at h
    · rename_i profile hheld
      refine .inr (.inr ?_)
      have hcount := List.find?_some hheld
      simp only [Counter.count] at hcount
      refine List.any_eq_true.mpr ⟨profile, by cases profile <;> simp [Profile.all], ?_⟩
      cases hentry : selection.powerHolds profile with
      | none => simp [hentry] at hcount
      | some n => rfl
    · split at h
      · rename_i profile hmanual
        exact .inr (.inl (by simp [hmanual]))
      · split at h
        · cases h
        · rename_i hautomatic
          exact .inl (by simpa using hautomatic)

end Selection

end Preseed.HardwareTuning
