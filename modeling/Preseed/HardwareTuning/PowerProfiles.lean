import Preseed.Concurrency.CyclicNames
import Preseed.HardwareTuning.Common

/-!
# Holds of the Power Profiles interface

The adapter between the desktop's Power Profiles interface and the broker: which
client holds a profile under which cookie. A hold belongs to the sender that
obtained it and lives as long as its channel to the broker.
-/

namespace Preseed.HardwareTuning.PowerProfiles

open Concurrency

/-- The largest cookie, `2**32 - 1`. -/
def lastCookie : ℕ := 2 ^ 32 - 1

/-- The limit on live holds. -/
def holdLimit : ℕ := 32

/-- A channel to the broker, by its descriptor. -/
abbrev Channel := ℕ

/-- A live hold. -/
structure Hold where
  /-- The unique bus name of the client. -/
  sender : String
  /-- The object it was requested on. -/
  path : String
  /-- The lease socket. -/
  socket : Channel
  /-- The generation of holds it belongs to. -/
  generation : ℕ
  /-- The held profile. -/
  profile : String
  /-- The client's reason. -/
  reason : String
  /-- The client's application. -/
  applicationId : String
  deriving DecidableEq

/-- What the adapter reads of the broker's status. -/
structure Status where
  /-- `power_profiles_api`. -/
  customApi : Bool
  /-- `vendors`. -/
  vendors : List Vendor
  /-- `power_generation`. -/
  powerGeneration : ℕ
  deriving DecidableEq

/-- The state of the adapter. -/
structure Adapter where
  /-- The live holds by cookie, in the order they were obtained. -/
  holds : List (ℕ × Hold)
  /-- The last cookie given out. -/
  cookie : ℕ
  /-- The last status of the broker. -/
  status : Status
  /-- The adapter is shutting down. -/
  closed : Bool
  deriving DecidableEq

namespace Adapter

/-- `Adapter.__init__`. -/
def initial (status : Status) : Adapter := ⟨[], 0, status, false⟩

/-- The cookies of the live holds. -/
def cookies (adapter : Adapter) : List ℕ := adapter.holds.map Prod.fst

/-- `release`. -/
def release (adapter : Adapter) (cookie : ℕ) : Adapter :=
  { adapter with holds := adapter.holds.filter fun item => item.1 ≠ cookie }

/-- `update`: take over a status, and release the holds it supersedes and those whose channel
the broker has closed. -/
def update (adapter : Adapter) (status : Status) (dead : Channel → Bool) :
    Except Failure Adapter :=
  if ¬status.customApi ∨ .intel ∉ status.vendors then
    .error (tuningError "custom Power Profiles provider is not configured")
  else .ok { adapter with
    status := status
    holds := adapter.holds.filter fun item =>
      !dead item.2.socket && item.2.generation == status.powerGeneration }

/-- The search of `held` for a free cookie. -/
def freeCookie (adapter : Adapter) : Option ℕ :=
  freeName lastCookie adapter.cookies (adapter.cookies.length + 1)
    (following lastCookie adapter.cookie)

/-- `held`: the broker has granted a hold. `authorized` is the answer of the second
authorisation, since the caller may have exited while queued. -/
def held (adapter : Adapter) (hold : Hold) (authorized : Except Failure Unit) :
    Except Failure (ℕ × Adapter) := do
  authorized
  if adapter.holds.length ≥ holdLimit then .error (tuningError "too many profile holds")
  else if hold.generation ≠ adapter.status.powerGeneration then
    .error (tuningError "profile hold was superseded")
  else match adapter.freeCookie with
    | some cookie =>
      .ok (cookie, { adapter with cookie, holds := adapter.holds ++ [(cookie, hold)] })
    -- The search has gone once around without an end.
    | none => .error ⟨.interrupted, "no free cookie"⟩

/-- `ReleaseProfile`. -/
def releaseProfile (adapter : Adapter) (sender : String) (cookie : ℕ) : Except Failure Adapter :=
  match adapter.holds.lookup cookie with
  | some hold =>
    if hold.sender = sender then .ok (adapter.release cookie)
    else .error ⟨.osError, "profile hold belongs to a different connection or is absent"⟩
  | none => .error ⟨.osError, "profile hold belongs to a different connection or is absent"⟩

/-- `owner_changed`: a client that leaves the bus loses its holds. -/
def ownerChanged (adapter : Adapter) (name new : String) : Adapter :=
  if startsWith name ":" ∧ new = "" then
    { adapter with holds := adapter.holds.filter fun item => item.2.sender ≠ name }
  else adapter

/-- The end of `run`: every hold is released. -/
def shutdown (adapter : Adapter) : Adapter := { adapter with closed := true, holds := [] }

/-- `complete` of a request the broker has answered: take over its status, and if it was a hold,
record it. -/
def complete (adapter : Adapter) (status : Status) (dead : Channel → Bool)
    (request : Option (Hold × Except Failure Unit)) : Adapter :=
  if adapter.closed then adapter
  else match adapter.update status dead with
    | .error _ => adapter
    | .ok adapter =>
      match request with
      | none => adapter
      | some (hold, authorized) =>
        match adapter.held { hold with generation := status.powerGeneration } authorized with
        | .error _ => adapter
        | .ok (_, adapter) => adapter

end Adapter

/-- What the adapter reacts to. Requests the broker refuses change nothing. -/
inductive Event
  | completed (status : Status) (dead : Channel → Bool)
      (request : Option (Hold × Except Failure Unit))
  | releaseProfile (sender : String) (cookie : ℕ)
  | ownerChanged (name new : String)
  | shutdown

/-- The adapter at one event. -/
def Adapter.step (adapter : Adapter) : Event → Adapter
  | .completed status dead request => adapter.complete status dead request
  | .releaseProfile sender cookie =>
    match adapter.releaseProfile sender cookie with
    | .ok after => after
    | .error _ => adapter
  | .ownerChanged name new => adapter.ownerChanged name new
  | .shutdown => adapter.shutdown

/-- The adapter after a sequence of events. -/
def Adapter.run (adapter : Adapter) (events : List Event) : Adapter :=
  events.foldl Adapter.step adapter

end Preseed.HardwareTuning.PowerProfiles
