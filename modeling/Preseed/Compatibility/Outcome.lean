import Mathlib.Data.List.Nodup
import Mathlib.Data.List.Perm.Subperm

/-!
# Outcome records

`Outcome` of the compatibility protocol and its packets.
-/

namespace Preseed.Compatibility

open List

/-- A JSON value. -/
inductive Json
  | null
  | bool (b : Bool)
  | int (n : Int)
  | float (text : String)
  | str (s : String)
  | list (items : List Json)
  | object (items : List (String × Json))

/-- A packet: a JSON object. -/
abbrev Packet := List (String × Json)

/-- `set(value) == keys`. -/
def hasKeys (value : Packet) (keys : List String) : Prop :=
  (∀ key ∈ keys, key ∈ value.map Prod.fst) ∧ ∀ key ∈ value.map Prod.fst, key ∈ keys

instance (value : Packet) (keys : List String) : Decidable (hasKeys value keys) :=
  inferInstanceAs (Decidable (_ ∧ _))

/-- `value.get(key) == text`. -/
def hasText (value : Packet) (key text : String) : Bool :=
  match value.lookup key with
  | some (.str s) => s == text
  | _ => false

/-- `OUTCOMES`. -/
inductive Primary
  | startupFailed | running | normalExit | applicationFailed | infrastructureFailed
  | userStopped | shutdownStopped | outcomeUnknown | cleanupFailed
  deriving DecidableEq

def Primary.all : List Primary :=
  [startupFailed, running, normalExit, applicationFailed, infrastructureFailed, userStopped,
    shutdownStopped, outcomeUnknown, cleanupFailed]

def Primary.text : Primary → String
  | startupFailed => "startup-failed"
  | running => "running"
  | normalExit => "normal-exit"
  | applicationFailed => "application-failed"
  | infrastructureFailed => "infrastructure-failed"
  | userStopped => "user-stopped"
  | shutdownStopped => "shutdown-stopped"
  | outcomeUnknown => "outcome-unknown"
  | cleanupFailed => "cleanup-failed"

def Primary.ofText? (text : String) : Option Primary := Primary.all.find? (·.text == text)

/-- `UNKNOWN_RESULT`. -/
def unknownResult : Nat := 70

/-- `INFRASTRUCTURE_RESULT`. -/
def infrastructureResult : Nat := 71

/-- `STARTUP_RESULT`. -/
def startupResult : Nat := 72

/-- `CLEANUP_RESULT`. -/
def cleanupResult : Nat := 73

/-- `signal.NSIG`. -/
def nsig : Nat := 65

/-- What `__post_init__` requires of a result and its signal. -/
def Fits (primary : Primary) (result signal : Nat) : Prop :=
  result ≤ 255 ∧ signal < nsig ∧
    (primary ≠ .normalExit → primary ≠ .running → result ≠ 0) ∧
    (primary = .normalExit → result = 0 ∧ signal = 0)

instance (primary : Primary) (result signal : Nat) : Decidable (Fits primary result signal) :=
  inferInstanceAs (Decidable (_ ∧ _))

/-- An outcome; `cleanup` is true for `ok`. -/
structure Outcome where
  primary : Primary
  result : Nat
  signal : Nat
  cleanup : Bool
  fits : Fits primary result signal
  deriving DecidableEq

/-- What is raised. -/
inductive Failure
  /-- `ProtocolError`, `OSError` or `ValueError` -/
  | protocol
  /-- `InterruptedError` -/
  | interrupted
  deriving DecidableEq

/-- A nonnegative number of a record. -/
def natural? : Option Json → Option Nat
  | some (.int n) => if 0 ≤ n then some n.toNat else none
  | _ => none

/-- A cleanup field. -/
def cleanup? : Option Json → Option Bool
  | some (.str s) => if s = "ok" then some true else if s = "failed" then some false else none
  | _ => none

/-- `Outcome(...)` of field values. -/
def Outcome.make (primary : Option Primary) (result signal : Option Nat) (cleanup : Option Bool) :
    Except Failure Outcome :=
  match primary, result, signal, cleanup with
  | some primary, some result, some signal, some cleanup =>
    if h : Fits primary result signal then .ok ⟨primary, result, signal, cleanup, h⟩
    else .error .protocol
  | _, _, _, _ => .error .protocol

/-- `packet`. -/
def Outcome.packet (o : Outcome) : Packet :=
  [("type", .str "outcome"), ("primary", .str o.primary.text), ("result", .int o.result),
    ("signal", .int o.signal), ("cleanup", .str (if o.cleanup then "ok" else "failed"))]

/-- The primary of a record. -/
def primary? : Option Json → Option Primary
  | some (.str s) => Primary.ofText? s
  | _ => none

/-- `from_packet`. -/
def Outcome.fromPacket (value : Packet) : Except Failure Outcome :=
  if hasKeys value ["type", "primary", "result", "signal", "cleanup"] ∧
      hasText value "type" "outcome" = true then
    Outcome.make (primary? (value.lookup "primary")) (natural? (value.lookup "result"))
      (natural? (value.lookup "signal")) (cleanup? (value.lookup "cleanup"))
  else .error .protocol

/-- `cleanup_failed`. -/
def Outcome.cleanupFailed (o : Outcome) : Outcome where
  primary := if o.result = 0 then .cleanupFailed else o.primary
  result := if o.result = 0 then cleanupResult else o.result
  signal := o.signal
  cleanup := false
  fits := by
    obtain ⟨hresult, hsignal, hproven, hnormal⟩ := o.fits
    split
    · exact ⟨by decide, hsignal, fun _ _ => by decide, nofun⟩
    · exact ⟨hresult, hsignal, hproven, hnormal⟩

/-- `observed`. -/
def Outcome.observed (zoom : Bool) (returncode : Int) : Except Failure Outcome :=
  if returncode < 0 then
    Outcome.make (some .applicationFailed) (some (128 + returncode.natAbs)) (some returncode.natAbs)
      (some true)
  else if returncode ≠ 0 then
    Outcome.make (some .applicationFailed) (some (min returncode.toNat 255)) (some 0) (some true)
  else if zoom then Outcome.make (some .outcomeUnknown) (some unknownResult) (some 0) (some true)
  else Outcome.make (some .normalExit) (some 0) (some 0) (some true)

@[simp] theorem ofText?_text (primary : Primary) : Primary.ofText? primary.text = some primary := by
  cases primary <;> decide

/-! ### The accepted packets -/

section Canonical

variable {value value' : Packet} {key text : String} {json : Json} {field : Option Json}

theorem lookup_iff (h : (value.map Prod.fst).Nodup) :
    value.lookup key = some json ↔ (key, json) ∈ value := by
  induction value with
  | nil => simp
  | cons kv value ih =>
    obtain ⟨k, v⟩ := kv
    obtain ⟨hk, htail⟩ := nodup_cons.mp h
    have hnot : ∀ v', (k, v') ∉ value := fun v' hv => hk (mem_map.mpr ⟨(k, v'), hv, rfl⟩)
    by_cases hkey : key = k
    · subst hkey
      simp [hnot, eq_comm]
    · simp [List.lookup_cons, hkey, beq_eq_false_iff_ne.mpr hkey, ih htail]

theorem hasText_iff : hasText value key text = true ↔ value.lookup key = some (.str text) := by
  unfold hasText
  split <;> simp_all

theorem primary?_eq_some {primary : Primary} :
    primary? field = some primary ↔ field = some (.str primary.text) := by
  constructor
  · intro h
    unfold primary? at h
    split at h
    · have := find?_some h
      simp_all
    · cases h
  · rintro rfl
    exact ofText?_text primary

theorem natural?_eq_some {n : Nat} : natural? field = some n ↔ field = some (.int n) := by
  unfold natural?
  split <;> grind

theorem cleanup?_eq_some {ok : Bool} :
    cleanup? field = some ok ↔ field = some (.str (if ok then "ok" else "failed")) := by
  cases ok <;> unfold cleanup? <;> split <;> grind

/-- What the constructor accepts. -/
theorem make_eq_ok {primary : Option Primary} {result signal : Option Nat} {cleanup : Option Bool}
    {o : Outcome} : Outcome.make primary result signal cleanup = .ok o ↔
      primary = some o.primary ∧ result = some o.result ∧ signal = some o.signal ∧
        cleanup = some o.cleanup := by
  obtain ⟨p, r, s, c, h⟩ := o
  unfold Outcome.make
  split
  · grind
  · simp
    grind

/-- A packet with distinct fields is accepted when it has the fields of the outcome. -/
theorem fromPacket_eq_ok {o : Outcome} (h : (value.map Prod.fst).Nodup) :
    Outcome.fromPacket value = .ok o ↔
      hasKeys value ["type", "primary", "result", "signal", "cleanup"] ∧ o.packet ⊆ value := by
  rw [Outcome.fromPacket]
  split
  case isTrue hshape =>
    simp only [make_eq_ok, primary?_eq_some, natural?_eq_some, cleanup?_eq_some, lookup_iff h]
    have htype := (lookup_iff h).mp (hasText_iff.mp hshape.2)
    simp [Outcome.packet, hshape.1, htype]
  case isFalse hshape =>
    constructor
    · intro hok
      cases hok
    · rintro ⟨hkeys, hsub⟩
      exact absurd ⟨hkeys, hasText_iff.mpr ((lookup_iff h).mpr (hsub (by simp [Outcome.packet])))⟩
        hshape

/-- A record read back is the record sent. -/
theorem fromPacket_packet (o : Outcome) : Outcome.fromPacket o.packet = .ok o :=
  (fromPacket_eq_ok (by simp [Outcome.packet])).mpr
    ⟨⟨fun _ hkey => hkey, fun _ hkey => hkey⟩, fun _ hfield => hfield⟩

/-- A packet with distinct fields is accepted as an outcome only if it is the packet of that
outcome, whatever the order of its fields. -/
theorem fromPacket_eq_ok_iff (value : Packet) (o : Outcome) (h : (value.map Prod.fst).Nodup) :
    Outcome.fromPacket value = .ok o ↔ value.Perm o.packet := by
  rw [fromPacket_eq_ok h]
  constructor
  · rintro ⟨⟨-, hkeys⟩, hsub⟩
    refine ((subperm_of_subset (by simp [Outcome.packet]) hsub).perm_of_length_le ?_).symm
    simpa [Outcome.packet] using (subperm_of_subset h hkeys).length_le
  · intro hperm
    have hkeys : ∀ key, key ∈ value.map Prod.fst ↔ key ∈ o.packet.map Prod.fst :=
      fun _ => (hperm.map Prod.fst).mem_iff
    exact ⟨⟨fun key hkey => (hkeys key).mpr hkey, fun key hkey => (hkeys key).mp hkey⟩,
      hperm.symm.subset⟩

theorem fromPacket_reverse : ∃ o : Outcome,
    o.primary = .normalExit ∧ Outcome.fromPacket o.packet.reverse = .ok o :=
  ⟨⟨.normalExit, 0, 0, true, by decide⟩, rfl,
    (fromPacket_eq_ok_iff _ _ (by decide)).mpr (reverse_perm _)⟩

end Canonical
end Preseed.Compatibility
