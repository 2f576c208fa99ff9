import Mathlib
import Preseed.Compatibility.Integrity

/-!
# Activations

The steps of `service` one at a time, and what each does to the clients, the pending requests and
the log of activations.
-/

namespace Preseed.Compatibility

open Instance

open Effects (Ends)

/-- The instance that a program leaves, whether it returns or raises. -/
def final (x : Session Unit) (i : Instance) : Instance :=
  match x i with
  | .ok _ i' => i'
  | .error _ i' => i'

theorem final_of_ends {x : Session Unit} {i : Instance} {P : Instance → Prop}
    (h : Ends i x (fun _ => P) fun _ => P) : P (final x i) := by
  unfold Ends at h
  unfold final
  cases hx : x i with
  | ok a i' =>
    rw [hx] at h
    exact h
  | error e i' =>
    rw [hx] at h
    exact h

/-- A step of `service`. -/
inductive Move
  | accept (now : ℚ) (connection : Connection)
  | runtime (read : Read)
  | client (channel : Channel) (read : Read)
  | expire (now : ℚ) (client : Channel × ℚ)

def Move.run (approve : List Json → Option (List String)) : Move → Session Unit
  | accept now connection => acceptClient now connection
  | runtime read => readRuntime read
  | client channel read => readClient approve channel read
  | expire now entry => update fun i => i.expire now entry

/-- The accounts of an instance: the clients, the pending requests, and the log of activations. -/
structure Accounts where
  clients : List Channel
  requests : List (String × Channel)
  log : List Event

def Instance.accounts (i : Instance) : Accounts :=
  ⟨i.clients.map Prod.fst, i.requests, i.log.filter Event.traffic⟩

namespace Accounts

def connect (a : Accounts) (channel : Channel) : Accounts :=
  { a with clients := a.clients ++ [channel] }

def drop (a : Accounts) (channel : Channel) : Accounts :=
  { a with clients := a.clients.filter (· ≠ channel) }

def reply (a : Accounts) (channel : Channel) (accepted : Bool) : Accounts :=
  if channel ∈ a.clients then
    { a.drop channel with log := a.log ++ [.replied channel accepted] }
  else a

def acknowledge (a : Accounts) (id : String) (accepted : Bool) : Accounts :=
  let a' := { a with
    requests := a.requests.filter (fun request => request.1 ≠ id)
    log := a.log ++ [.acknowledged id accepted] }
  match a.requests.lookup id with
  | some channel => a'.reply channel accepted
  | none => a'

def forward (a : Accounts) (id : String) (channel : Channel) (arguments : List String) :
    Accounts :=
  { a with
    requests := a.requests ++ [(id, channel)]
    log := a.log ++ [.forwarded id channel arguments] }

def refuse (a : Accounts) (channel : Channel) : Accounts :=
  { a.reply channel false with
    requests := a.requests.filter fun request => request.2 ≠ channel }

end Accounts

variable {i : Instance}

theorem accounts_drop (channel : Channel) :
    (i.drop channel).accounts = i.accounts.drop channel := by
  simp [accounts, drop, Accounts.drop, List.filter_map, Function.comp_def]

theorem accounts_reply (channel : Channel) (accepted : Bool) :
    (i.reply channel accepted).accounts = i.accounts.reply channel accepted := by
  unfold reply Accounts.reply
  have hmem : channel ∈ i.accounts.clients ↔ channel ∈ i.clients.map Prod.fst := Iff.rfl
  by_cases hchannel : channel ∈ i.clients.map Prod.fst
  · rw [if_pos hchannel, if_pos (hmem.2 hchannel), ← accounts_drop]
    simp [accounts, drop, Event.traffic]
  · rw [if_neg hchannel, if_neg (fun h => hchannel (hmem.1 h))]

theorem accounts_acknowledge (id : String) (accepted : Bool) :
    (i.acknowledge id accepted).accounts = i.accounts.acknowledge id accepted := by
  have hfirst : accounts { i with
        requests := i.requests.filter (fun request => request.1 ≠ id)
        log := i.log ++ [.acknowledged id accepted] } =
      { i.accounts with
        requests := i.accounts.requests.filter (fun request => request.1 ≠ id)
        log := i.accounts.log ++ [.acknowledged id accepted] } := by
    simp [accounts, Event.traffic]
  unfold acknowledge Accounts.acknowledge
  change (match i.requests.lookup id with | some channel => _ | none => _ : Instance).accounts =
    match i.requests.lookup id with | some channel => _ | none => _
  cases i.requests.lookup id with
  | none => exact hfirst
  | some channel =>
    simp only
    rw [accounts_reply, hfirst]

theorem accounts_expire (now : ℚ) (client : Channel × ℚ) :
    (i.expire now client).accounts =
      if client.2 ≤ now then i.accounts.refuse client.1 else i.accounts := by
  unfold expire
  split
  · have hreply := accounts_reply (i := i) client.1 false
    have hrequests : (i.reply client.1 false).requests = i.requests := by
      unfold reply
      split <;> rfl
    unfold Accounts.refuse
    rw [← hreply]
    simp only [accounts, hrequests]
  · rfl

/-- An outcome event is no traffic. -/
theorem accounts_record {o : Outcome} : (i.record o).accounts = i.accounts := by
  simp [accounts, Instance.record, Event.traffic]

theorem accounts_note {event : Event} (h : event.traffic = false) :
    (i.note event).accounts = i.accounts := by
  simp [accounts, note, h]

theorem accounts_observe (observed : Outcome) :
    (((i.observeResult observed).observeCleanup observed).note (.compositor observed)).accounts =
      i.accounts := by
  have hresult : (i.observeResult observed).accounts = i.accounts := by
    unfold observeResult
    split
    · exact accounts_record
    · rfl
  have hcleanup : ∀ j : Instance, (j.observeCleanup observed).accounts = j.accounts := by
    intro j
    unfold observeCleanup
    split
    · split
      · exact accounts_record
      · rfl
    · rfl
  rw [accounts_note rfl, hcleanup, hresult]

/-- The acknowledgement that a record of the runtime states. -/
def acknowledged? (value : Packet) : Option (String × Bool) :=
  match identifier? (value.lookup "id"), boolean? (value.lookup "accepted") with
  | some id, some accepted => some (id, accepted)
  | _, _ => none

/-- What a read of the runtime does. -/
inductive RuntimeEffect (read : Read) (a : Accounts) : Accounts → Prop
  | none : RuntimeEffect read a a
  | acknowledge {value : Packet} {id : String} {accepted : Bool}
      (hpacket : read.packet = some value) (hid : acknowledged? value = some (id, accepted)) :
      RuntimeEffect read a (a.acknowledge id accepted)

/-- What a read of a client does. -/
inductive ClientEffect (approve : List Json → Option (List String)) (channel : Channel)
    (read : Read) (a : Accounts) : Accounts → Prop
  | none : ClientEffect approve channel read a a
  | drop : ClientEffect approve channel read a (a.drop channel)
  | refuse : ClientEffect approve channel read a (a.reply channel false)
  | accept {value : Packet} {items : List Json} (hpacket : read.packet = some value)
      (hitems : arguments? (value.lookup "args") = some items) (happrove : approve items = some []) :
      ClientEffect approve channel read a (a.reply channel true)
  | forward {value : Packet} {items : List Json} {arguments : List String}
      (hpacket : read.packet = some value) (hitems : arguments? (value.lookup "args") = some items)
      (happrove : approve items = some arguments) (hclient : channel ∈ a.clients)
      (hpending : a.requests.length < 8) :
      ClientEffect approve channel read a (a.forward read.id channel arguments)

section Effect

variable {approve : List Json → Option (List String)} {channel : Channel} {read : Read}

/-- A read that failed refuses the client, or loses the runtime. -/
theorem recordFailed_accounts (i : Instance) (channel : Channel) :
    Ends i (recordFailed channel)
      (fun _ i' => i'.accounts = i.accounts ∨
        i.runtime ≠ some channel ∧ i'.accounts = i.accounts.reply channel false)
      fun _ i' => i'.accounts = i.accounts := by
  refine .get_bind ?_
  split
  · refine .set_bind ?_
    cases hsome : i.outcome.isSome
    · exact .throw rfl
    · exact .pure (.inl rfl)
  case isFalse hruntime => exact .set (.inr ⟨hruntime, accounts_reply channel false⟩)

theorem runtimeRecord_accounts {value : Packet} (hpacket : read.packet = some value)
    (i : Instance) :
    Ends i (runtimeRecord value)
      (fun _ i' => RuntimeEffect read i.accounts i'.accounts)
      fun _ i' => i' = i := by
  refine .get_bind ?_
  split
  · exact .set .none
  split
  · cases ho : Outcome.fromPacket value with
    | error e => exact .throw rfl
    | ok o =>
      refine .set ?_
      rw [accounts_record, accounts_note rfl]
      exact .none
  split
  · rename_i o failed ho _ _
    refine .set ?_
    cases failed
    · rw [if_neg Bool.false_ne_true, accounts_note rfl]
      exact .none
    · rw [if_pos rfl, accounts_record, accounts_note rfl]
      exact .none
  split
  · cases hid : identifier? (value.lookup "id") with
    | none => exact .throw rfl
    | some id =>
      cases haccepted : boolean? (value.lookup "accepted") with
      | none => exact .throw rfl
      | some accepted =>
        refine .set ?_
        rw [accounts_acknowledge]
        exact .acknowledge hpacket (by simp [acknowledged?, hid, haccepted])
  · exact .throw rfl

theorem runtimePacket_accounts (i : Instance) (read : Read) : Ends i (match read.packet with
    | none => throw .protocol
    | some value => runtimeRecord value : Session Unit)
    (fun _ i' => RuntimeEffect read i.accounts i'.accounts) fun _ i' => i' = i := by
  cases hpacket : read.packet with
  | none => exact .throw rfl
  | some value => exact runtimeRecord_accounts hpacket i

theorem readRuntime_accounts (i : Instance) (read : Read) :
    RuntimeEffect read i.accounts (final (readRuntime read) i).accounts := by
  suffices h : Ends i (readRuntime read)
      (fun _ i' => RuntimeEffect read i.accounts i'.accounts)
      fun _ i' => i'.accounts = i.accounts from
    final_of_ends (h.mono (fun _ _ => id) fun _ _ heq => heq ▸ .none)
  refine .get_bind ?_
  cases hruntime : i.runtime with
  | none => exact .pure .none
  | some channel =>
    refine (runtimePacket_accounts i read).rescue fun e i' hi' => ?_
    subst hi'
    refine (recordFailed_accounts i' channel).mono (fun _ i'' h => ?_) fun _ _ => id
    rcases h with heq | ⟨hne, -⟩
    · exact heq ▸ .none
    · exact (hne hruntime).elim

theorem activate_accounts {value : Packet} (hpacket : read.packet = some value) {i : Instance}
    (hclient : channel ∈ i.accounts.clients) :
    Ends i (activate approve channel value read)
      (fun _ i' => ClientEffect approve channel read i.accounts i'.accounts)
      fun _ i' => i'.accounts = i.accounts := by
  have hrefuse : Ends i (set (i.reply channel false) : Session PUnit)
      (fun _ i' => ClientEffect approve channel read i.accounts i'.accounts)
      fun _ i' => i'.accounts = i.accounts := by
    refine .set ?_
    rw [accounts_reply]
    exact .refuse
  refine .get_bind ?_
  split
  · exact .throw rfl
  case h_2 items hitems =>
    split
    · exact .throw rfl
    case h_2 arguments happrove =>
      split
      · exact hrefuse
      split
      case isTrue hempty =>
        refine .set ?_
        rw [accounts_reply]
        exact .accept hpacket hitems (happrove.trans (congrArg some hempty))
      split
      · exact hrefuse
      split
      · exact hrefuse
      case isFalse hpending =>
        split
        · refine .set ?_
          have hforward : accounts { i with
              requests := i.requests ++ [(read.id, channel)]
              log := i.log ++ [.forwarded read.id channel arguments] } =
              i.accounts.forward read.id channel arguments := by
            simp [accounts, Accounts.forward, Event.traffic]
          rw [hforward]
          exact .forward hpacket hitems happrove hclient
            (by simpa [accounts] using hpending)
        · exact .throw rfl

theorem require_accounts (i : Instance) (succeeds : Bool) :
    Ends i (require succeeds) (fun _ i' => i' = i) fun _ i' => i' = i := by
  cases succeeds
  · exact .throw rfl
  · exact .pure rfl

theorem registerRuntime_accounts (i : Instance) :
    Ends i (registerRuntime channel read)
      (fun _ i' => i'.accounts = i.accounts.drop channel)
      fun _ i' => i' = i ∨ i'.accounts = i.accounts.drop channel ∧ i'.runtime = some channel := by
  refine ((require_accounts i read.helper).mono (fun _ _ => id) fun _ _ => .inl).bind
    fun _ i' hi' => ?_
  subst hi'
  have hregistered : Ends i'
      (update fun i => { i.drop channel with runtime := some channel })
      (fun _ i'' => i''.accounts = i'.accounts.drop channel ∧ i''.runtime = some channel)
      fun _ i'' => i'' = i' ∨ i''.accounts = i'.accounts.drop channel ∧
        i''.runtime = some channel :=
    Ends.modify ⟨accounts_drop channel, rfl⟩
  refine hregistered.bind fun _ i'' hi'' => ?_
  exact (require_accounts i'' read.sent).mono (fun _ _ heq => heq ▸ hi''.1)
    fun _ _ heq => heq ▸ .inr hi''

theorem compositorOutcome_accounts (i : Instance) (value : Packet) :
    Ends i (compositorOutcome value) (fun _ i' => i'.accounts = i.accounts)
      fun _ i' => i'.accounts = i.accounts := by
  refine .get_bind ?_
  split
  · cases ho : compositorObserved i.running value with
    | error e => exact .throw rfl
    | ok observed => exact .set (accounts_observe observed)
  · exact .throw rfl

theorem clientRecord_accounts {value : Packet} (hpacket : read.packet = some value) {i : Instance}
    (hclient : channel ∈ i.accounts.clients) :
    Ends i (clientRecord approve channel value read)
      (fun _ i' => ClientEffect approve channel read i.accounts i'.accounts)
      fun _ i' => i'.accounts = i.accounts ∨
        i'.accounts = i.accounts.drop channel ∧ i'.runtime = some channel := by
  refine .get_bind ?_
  split
  · refine (registerRuntime_accounts i).mono (fun _ i' h => h ▸ .drop) fun _ i' h => ?_
    rcases h with rfl | h
    · exact .inl rfl
    · exact .inr h
  split
  · refine ((require_accounts i read.helper).mono (fun _ _ => id)
      fun _ _ h => .inl (by rw [h])).bind fun _ i' hi' => ?_
    subst hi'
    refine ((compositorOutcome_accounts i' value).mono (fun _ _ => id) fun _ _ => .inl).bind
      fun _ i'' hi'' => ?_
    refine ((require_accounts i'' read.sent).mono (fun _ _ => id)
      fun _ _ h => .inl (by rw [h, hi''])).bind fun _ j hj => ?_
    subst hj
    refine .modify ?_
    rw [accounts_drop, hi'']
    exact .drop
  split
  · exact (activate_accounts hpacket hclient).mono (fun _ _ => id) fun _ _ => .inl
  · refine .set ?_
    rw [accounts_reply]
    exact .refuse

theorem clientPacket_accounts (i : Instance) : Ends i
    (match decide (channel ∈ i.clients.map Prod.fst), read.packet with
      | true, some value => clientRecord approve channel value read
      | _, _ => throw .protocol : Session Unit)
    (fun _ i' => ClientEffect approve channel read i.accounts i'.accounts)
    fun _ i' => i'.accounts = i.accounts ∨
      i'.accounts = i.accounts.drop channel ∧ i'.runtime = some channel := by
  by_cases hclient : channel ∈ i.clients.map Prod.fst
  · rw [decide_eq_true hclient]
    cases hpacket : read.packet with
    | none => exact .throw (.inl rfl)
    | some value => exact clientRecord_accounts hpacket hclient
  · rw [decide_eq_false hclient]
    exact .throw (.inl rfl)

theorem readClient_accounts (i : Instance) :
    ClientEffect approve channel read i.accounts
      (final (readClient approve channel read) i).accounts := by
  suffices h : Ends i (readClient approve channel read)
      (fun _ i' => ClientEffect approve channel read i.accounts i'.accounts)
      fun _ i' => ClientEffect approve channel read i.accounts i'.accounts from final_of_ends h
  refine .get_bind ?_
  refine (clientPacket_accounts i).rescue fun e i' hi' => ?_
  refine (recordFailed_accounts i' channel).mono (fun _ i'' h => ?_) fun _ i'' h => ?_
  · rcases h with heq | ⟨hne, heq⟩
    · rcases hi' with hi' | hi'
      · exact (heq.trans hi') ▸ .none
      · exact (heq.trans hi'.1) ▸ .drop
    · rcases hi' with hi' | hi'
      · rw [heq, hi']
        exact .refuse
      · exact (hne hi'.2).elim
  · rcases hi' with hi' | hi'
    · exact (h.trans hi') ▸ .none
    · exact (h.trans hi'.1) ▸ .drop

/-- An accepted connection is one more of at most eight clients. -/
theorem acceptClient_accounts (i : Instance) (now : ℚ) (connection : Connection) :
    (final (acceptClient now connection) i).accounts = i.accounts ∨
      (final (acceptClient now connection) i).accounts =
        i.accounts.connect connection.channel := by
  suffices h : Ends i (acceptClient now connection)
      (fun _ i' => i'.accounts = i.accounts ∨ i'.accounts = i.accounts.connect connection.channel)
      fun _ i' => i'.accounts = i.accounts ∨
        i'.accounts = i.accounts.connect connection.channel from final_of_ends h
  refine .modify ?_
  split
  · exact .inl rfl
  · exact .inr (by simp [accounts, Accounts.connect])

end Effect

end Preseed.Compatibility
