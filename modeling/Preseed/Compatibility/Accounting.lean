import Preseed.Compatibility.Requesters

/-!
# Activation accounting

The accounts stay balanced in every undisturbed run, so one call starts at most one activation.
-/

namespace Preseed.Compatibility

open List Event

variable {calls : ℕ → List String} {a : Accounts} {handled : List (String × Bool)}
  {attempts : List (ℕ × Channel)} {connected : List Channel}

/-- A client is answered and its requests are forgotten. -/
def Accounts.answer (a : Accounts) (channel : Channel) (accepted : Bool) : Accounts where
  clients := a.clients.filter (· ≠ channel)
  requests := a.requests.filter (·.2 ≠ channel)
  log := a.log ++ [.replied channel accepted]

/-- No activation of the channel was started. -/
def Accounts.Unstarted (a : Accounts) (handled : List (String × Bool)) (channel : Channel) :
    Prop :=
  ∀ id arguments, Event.forwarded id channel arguments ∈ a.log → (id, true) ∉ handled

namespace Balanced

theorem start : Balanced calls ⟨[], [], []⟩ [] [] [] := by
  constructor <;> simp

variable (h : Balanced calls a handled attempts connected)

include h

variable {channel : Channel}

theorem connect (hfresh : channel ∉ connected) :
    Balanced calls (a.connect channel) handled attempts (connected ++ [channel]) :=
  { h with
    owned := fun id c hc => mem_append_left _ (h.owned id c hc)
    clients_connected := fun c hc => by
      rcases mem_append.1 hc with hc | hc
      · exact mem_append_left _ (h.clients_connected c hc)
      · exact mem_append_right _ hc
    clients_nodup := by
      refine nodup_append.2 ⟨h.clients_nodup, by simp, fun c hc d hd => ?_⟩
      rintro rfl
      rw [mem_singleton] at hd
      exact hfresh (hd ▸ h.clients_connected c hc)
    unanswered := fun c accepted hc hmem => by
      rcases mem_append.1 hmem with hmem | hmem
      · exact h.unanswered c accepted hc hmem
      · rw [mem_singleton] at hmem
        exact hfresh (hmem ▸ h.replied_connected c accepted hc)
    replied_connected := fun c accepted hc =>
      mem_append_left _ (h.replied_connected c accepted hc)
    pending := fun id c arguments hc hmem => by
      rcases mem_append.1 hmem with hmem | hmem
      · exact h.pending id c arguments hc hmem
      · rw [mem_singleton] at hmem
        exact (hfresh (hmem ▸ h.forwarded_connected id c arguments hc)).elim
    forwarded_connected := fun id c arguments hc =>
      mem_append_left _ (h.forwarded_connected id c arguments hc) }

/-- A connection that was not accepted. -/
theorem unconnected (channel : Channel) :
    Balanced calls a handled attempts (connected ++ [channel]) :=
  { h with
    clients_connected := fun c hc => mem_append_left _ (h.clients_connected c hc)
    replied_connected := fun c accepted hc =>
      mem_append_left _ (h.replied_connected c accepted hc)
    forwarded_connected := fun id c arguments hc =>
      mem_append_left _ (h.forwarded_connected id c arguments hc) }

/-- A client without a pending request leaves. -/
theorem drop (hpending : channel ∉ a.requests.map Prod.snd) :
    Balanced calls (a.drop channel) handled attempts connected :=
  { h with
    owned := fun id c hc => by
      refine mem_filter.2 ⟨h.owned id c hc, ?_⟩
      rw [decide_eq_true_eq]
      rintro rfl
      exact hpending (mem_map.2 ⟨(id, c), hc, rfl⟩)
    clients_connected := fun c hc => h.clients_connected c (mem_of_mem_filter hc)
    clients_nodup := h.clients_nodup.filter _
    unanswered := fun c accepted hc hmem =>
      h.unanswered c accepted hc (mem_of_mem_filter hmem)
    pending := fun id c arguments hc hmem =>
      h.pending id c arguments hc (mem_of_mem_filter hmem) }

variable {accepted : Bool}

/-- A client is answered: yes where its activation was acknowledged, no where it was not
started. -/
theorem answer (hclient : channel ∈ a.clients)
    (haccepted : ∀ id arguments, Event.forwarded id channel arguments ∈ a.log → accepted = true →
      Event.acknowledged id true ∈ a.log)
    (hrefused : ∀ id arguments, Event.forwarded id channel arguments ∈ a.log → accepted = false →
      (id, true) ∉ handled)
    (hproper : ∀ call, (call, channel) ∈ attempts → calls call ≠ [] → accepted = true →
      ∃ id arguments, Event.forwarded id channel arguments ∈ a.log) :
    Balanced calls (a.answer channel accepted) handled attempts connected where
  owned id c hc := by
    obtain ⟨hmem, hne⟩ := mem_filter.1 hc
    exact mem_filter.2 ⟨h.owned id c hmem, hne⟩
  bounded := (length_filter_le _ _).trans h.bounded
  clients_connected c hc := h.clients_connected c (mem_of_mem_filter hc)
  clients_nodup := h.clients_nodup.filter _
  unanswered c b hc hmem := by
    obtain ⟨hmem, hne⟩ := mem_filter.1 hmem
    rcases mem_append.1 hc with hc | hc
    · exact h.unanswered c b hc hmem
    · simp_all
  replied_connected c b hc := by
    rcases mem_append.1 hc with hc | hc
    · exact h.replied_connected c b hc
    · obtain ⟨rfl, -⟩ : c = channel ∧ b = accepted := by simpa using hc
      exact h.clients_connected c hclient
  pending id c arguments hc hmem := by
    obtain ⟨hmem, hne⟩ := mem_filter.1 hmem
    exact mem_filter.2 ⟨h.pending id c arguments (by simpa [Accounts.answer] using hc) hmem, hne⟩
  forwarded id c hc := by
    obtain ⟨arguments, hlog⟩ := h.forwarded id c (mem_of_mem_filter hc)
    exact ⟨arguments, mem_append_left _ hlog⟩
  forwarded_connected id c arguments hc :=
    h.forwarded_connected id c arguments (by simpa [Accounts.answer] using hc)
  forwarded_id id c arguments c' arguments' hc hc' :=
    h.forwarded_id id c arguments c' arguments' (by simpa [Accounts.answer] using hc)
      (by simpa [Accounts.answer] using hc')
  forwarded_channel id id' c arguments arguments' hc hc' :=
    h.forwarded_channel id id' c arguments arguments' (by simpa [Accounts.answer] using hc)
      (by simpa [Accounts.answer] using hc')
  acknowledged id b hc := h.acknowledged id b (by simpa [Accounts.answer] using hc)
  handled_forwarded id started hc := by
    obtain ⟨c, arguments, hlog⟩ := h.handled_forwarded id started hc
    exact ⟨c, arguments, mem_append_left _ hlog⟩
  handled_nodup := h.handled_nodup
  accepted id c arguments hc hyes := by
    have hlog : Event.forwarded id c arguments ∈ a.log := by simpa [Accounts.answer] using hc
    refine mem_append_left _ ?_
    rcases mem_append.1 hyes with hyes | hyes
    · exact h.accepted id c arguments hlog hyes
    · obtain ⟨rfl, rfl⟩ : c = channel ∧ true = accepted := by simpa using hyes
      exact haccepted id arguments hlog rfl
  refused id c arguments hc hno := by
    have hlog : Event.forwarded id c arguments ∈ a.log := by simpa [Accounts.answer] using hc
    rcases mem_append.1 hno with hno | hno
    · exact h.refused id c arguments hlog hno
    · obtain ⟨rfl, rfl⟩ : c = channel ∧ false = accepted := by simpa using hno
      exact hrefused id arguments hlog rfl
  answered := by
    have hfresh : channel ∉ a.log.filterMap answered? := by
      intro hmem
      obtain ⟨event, hevent, hchannel⟩ := mem_filterMap.1 hmem
      cases event with
      | replied c b =>
        obtain rfl : c = channel := by simpa [answered?] using hchannel
        exact h.unanswered c b hevent hclient
      | _ => cases hchannel
    have hlog : (a.answer channel accepted).log.filterMap answered? =
        a.log.filterMap answered? ++ [channel] := by
      simp [Accounts.answer, answered?]
    rw [hlog]
    refine nodup_append.2 ⟨h.answered, by simp, fun c hc d hd => ?_⟩
    rw [mem_singleton.1 hd]
    rintro rfl
    exact hfresh hc
  attempts_nodup := h.attempts_nodup
  retried call c c' hc hc' hne := by
    rcases h.retried call c c' hc hc' hne with hno | hno
    · exact .inl (mem_append_left _ hno)
    · exact .inr (mem_append_left _ hno)
  arguments call id c arguments hc hlog :=
    h.arguments call id c arguments hc (by simpa [Accounts.answer] using hlog)
  proper call c hc hcall hyes := by
    rcases mem_append.1 hyes with hyes | hyes
    · obtain ⟨id, arguments, hlog⟩ := h.proper call c hc hcall hyes
      exact ⟨id, arguments, mem_append_left _ hlog⟩
    · obtain ⟨rfl, rfl⟩ : c = channel ∧ true = accepted := by simpa using hyes
      obtain ⟨id, arguments, hlog⟩ := hproper call hc hcall rfl
      exact ⟨id, arguments, mem_append_left _ hlog⟩

variable {id : String}

/-- An acknowledgement arrives. -/
theorem acknowledge_log (hhandled : (id, accepted) ∈ handled) :
    Balanced calls { a with log := a.log ++ [.acknowledged id accepted] } handled attempts
      connected where
  owned := h.owned
  bounded := h.bounded
  clients_connected := h.clients_connected
  clients_nodup := h.clients_nodup
  unanswered c b hc := h.unanswered c b (by simpa using hc)
  replied_connected c b hc := h.replied_connected c b (by simpa using hc)
  pending id c arguments hc := h.pending id c arguments (by simpa using hc)
  forwarded id c hc := by
    obtain ⟨arguments, hlog⟩ := h.forwarded id c hc
    exact ⟨arguments, mem_append_left _ hlog⟩
  forwarded_connected id c arguments hc := h.forwarded_connected id c arguments (by simpa using hc)
  forwarded_id id c arguments c' arguments' hc hc' :=
    h.forwarded_id id c arguments c' arguments' (by simpa using hc) (by simpa using hc')
  forwarded_channel id id' c arguments arguments' hc hc' :=
    h.forwarded_channel id id' c arguments arguments' (by simpa using hc) (by simpa using hc')
  acknowledged id' b hc := by
    rcases mem_append.1 hc with hc | hc
    · exact h.acknowledged id' b hc
    · obtain ⟨rfl, rfl⟩ : id' = id ∧ b = accepted := by simpa using hc
      exact hhandled
  handled_forwarded id started hc := by
    obtain ⟨c, arguments, hlog⟩ := h.handled_forwarded id started hc
    exact ⟨c, arguments, mem_append_left _ hlog⟩
  handled_nodup := h.handled_nodup
  accepted id c arguments hc hyes :=
    mem_append_left _ (h.accepted id c arguments (by simpa using hc) (by simpa using hyes))
  refused id c arguments hc hno :=
    h.refused id c arguments (by simpa using hc) (by simpa using hno)
  answered := by
    rw [filterMap_append]
    simpa [answered?, filterMap_cons] using h.answered
  attempts_nodup := h.attempts_nodup
  retried call c c' hc hc' hne := by simpa using h.retried call c c' hc hc' hne
  arguments call id c arguments hc hlog :=
    h.arguments call id c arguments hc (by simpa using hlog)
  proper call c hc hcall hyes := by
    obtain ⟨id, arguments, hlog⟩ := h.proper call c hc hcall (by simpa using hyes)
    exact ⟨id, arguments, mem_append_left _ hlog⟩

/-- An activation of a client without one is forwarded under a new identifier. -/
theorem forward {arguments : List String} (hclient : channel ∈ a.clients)
    (hcount : a.requests.length < 8) (hidle : channel ∉ a.requests.map Prod.snd)
    (hfresh : ∀ before arguments, Event.forwarded id before arguments ∉ a.log)
    (harguments : ∀ call, (call, channel) ∈ attempts → arguments = calls call) :
    Balanced calls (a.forward id channel arguments) handled attempts connected where
  owned id' c hc := by
    rcases mem_append.1 hc with hc | hc
    · exact h.owned id' c hc
    · obtain ⟨rfl, rfl⟩ : id' = id ∧ c = channel := by simpa using hc
      exact hclient
  bounded := by
    change (a.requests ++ [(id, channel)]).length ≤ 8
    rw [length_append, length_singleton]
    omega
  clients_connected := h.clients_connected
  clients_nodup := h.clients_nodup
  unanswered c b hc := h.unanswered c b (by simpa [Accounts.forward] using hc)
  replied_connected c b hc := h.replied_connected c b (by simpa [Accounts.forward] using hc)
  pending id' c arguments' hc hmem := by
    rcases mem_append.1 hc with hc | hc
    · exact mem_append_left _ (h.pending id' c arguments' hc hmem)
    · obtain ⟨rfl, rfl, -⟩ : id' = id ∧ c = channel ∧ arguments' = arguments := by simpa using hc
      exact mem_append_right _ (mem_singleton.2 rfl)
  forwarded id' c hc := by
    rcases mem_append.1 hc with hc | hc
    · obtain ⟨arguments', hlog⟩ := h.forwarded id' c hc
      exact ⟨arguments', mem_append_left _ hlog⟩
    · obtain ⟨rfl, rfl⟩ : id' = id ∧ c = channel := by simpa using hc
      exact ⟨arguments, mem_append_right _ (mem_singleton.2 rfl)⟩
  forwarded_connected id' c arguments' hc := by
    rcases mem_append.1 hc with hc | hc
    · exact h.forwarded_connected id' c arguments' hc
    · obtain ⟨-, rfl, -⟩ : id' = id ∧ c = channel ∧ arguments' = arguments := by simpa using hc
      exact h.clients_connected c hclient
  forwarded_id id' c arguments₁ c' arguments₂ hc hc' := by
    rcases mem_append.1 hc with hl | hl <;> rcases mem_append.1 hc' with hr | hr
    · exact h.forwarded_id id' c arguments₁ c' arguments₂ hl hr
    · obtain ⟨rfl, -⟩ : id' = id ∧ c' = channel ∧ arguments₂ = arguments := by simpa using hr
      exact (hfresh c arguments₁ hl).elim
    · obtain ⟨rfl, -⟩ : id' = id ∧ c = channel ∧ arguments₁ = arguments := by simpa using hl
      exact (hfresh c' arguments₂ hr).elim
    · simp_all
  forwarded_channel id₁ id₂ c arguments₁ arguments₂ hc hc' := by
    -- a client that forwarded one before is not idle
    have hold : ∀ id' arguments', Event.forwarded id' channel arguments' ∉ a.log := by
      intro id' arguments' hlog
      exact hidle (mem_map.2 ⟨_, h.pending id' channel arguments' hlog hclient, rfl⟩)
    rcases mem_append.1 hc with hl | hl <;> rcases mem_append.1 hc' with hr | hr
    · exact h.forwarded_channel id₁ id₂ c arguments₁ arguments₂ hl hr
    · obtain ⟨-, rfl, -⟩ : id₂ = id ∧ c = channel ∧ arguments₂ = arguments := by simpa using hr
      exact (hold id₁ arguments₁ hl).elim
    · obtain ⟨-, rfl, -⟩ : id₁ = id ∧ c = channel ∧ arguments₁ = arguments := by simpa using hl
      exact (hold id₂ arguments₂ hr).elim
    · simp_all
  acknowledged id' b hc := h.acknowledged id' b (by simpa [Accounts.forward] using hc)
  handled_forwarded id' started hc := by
    obtain ⟨c, arguments', hlog⟩ := h.handled_forwarded id' started hc
    exact ⟨c, arguments', mem_append_left _ hlog⟩
  handled_nodup := h.handled_nodup
  accepted id' c arguments' hc hyes := by
    have hyes' : replied c true ∈ a.log := by simpa [Accounts.forward] using hyes
    refine mem_append_left _ ?_
    rcases mem_append.1 hc with hc | hc
    · exact h.accepted id' c arguments' hc hyes'
    · obtain ⟨-, rfl, -⟩ : id' = id ∧ c = channel ∧ arguments' = arguments := by simpa using hc
      exact (h.unanswered c true hyes' hclient).elim
  refused id' c arguments' hc hno := by
    have hno' : replied c false ∈ a.log := by simpa [Accounts.forward] using hno
    rcases mem_append.1 hc with hc | hc
    · exact h.refused id' c arguments' hc hno'
    · obtain ⟨-, rfl, -⟩ : id' = id ∧ c = channel ∧ arguments' = arguments := by simpa using hc
      exact (h.unanswered c false hno' hclient).elim
  answered := by
    have hlog : (a.forward id channel arguments).log.filterMap answered? =
        a.log.filterMap answered? := by
      simp [Accounts.forward, answered?, filterMap_cons]
    exact hlog ▸ h.answered
  attempts_nodup := h.attempts_nodup
  retried call c c' hc hc' hne := by
    simpa [Accounts.forward] using h.retried call c c' hc hc' hne
  arguments call id' c arguments' hc hlog := by
    rcases mem_append.1 hlog with hlog | hlog
    · exact h.arguments call id' c arguments' hc hlog
    · obtain ⟨-, rfl, rfl⟩ : id' = id ∧ c = channel ∧ arguments' = arguments := by simpa using hlog
      exact harguments call hc
  proper call c hc hcall hyes := by
    obtain ⟨id', arguments', hlog⟩ :=
      h.proper call c hc hcall (by simpa [Accounts.forward] using hyes)
    exact ⟨id', arguments', mem_append_left _ hlog⟩

/-- The masked application takes up an activation, and starts it only where its client was not
refused. -/
theorem handle {started : Bool}
    (hforwarded : ∃ channel arguments, Event.forwarded id channel arguments ∈ a.log)
    (hfresh : id ∉ handled.map Prod.fst) (hrefused : started = true → ∀ channel arguments,
      Event.forwarded id channel arguments ∈ a.log → Event.replied channel false ∉ a.log) :
    Balanced calls a (handled ++ [(id, started)]) attempts connected :=
  { h with
    acknowledged := fun id' b hc => mem_append_left _ (h.acknowledged id' b hc)
    handled_forwarded := fun id' b hc => by
      rcases mem_append.1 hc with hc | hc
      · exact h.handled_forwarded id' b hc
      · obtain ⟨rfl, -⟩ : id' = id ∧ b = started := by simpa using hc
        exact hforwarded
    handled_nodup := by
      rw [map_append]
      refine nodup_append.2 ⟨h.handled_nodup, by simp, fun x hx y hy => ?_⟩
      rintro rfl
      obtain rfl : x = id := by simpa using hy
      exact hfresh hx
    refused := fun id' c arguments hc hno hmem => by
      rcases mem_append.1 hmem with hmem | hmem
      · exact h.refused id' c arguments hc hno hmem
      · obtain ⟨rfl, rfl⟩ : id' = id ∧ true = started := by simpa using hmem
        exact hrefused rfl c arguments hc hno }

/-- A call opens a new channel, after its channels before were refused. -/
theorem attempt {call : ℕ} (hconnected : channel ∉ connected)
    (hfresh : channel ∉ attempts.map Prod.snd)
    (hretry : ∀ before, (call, before) ∈ attempts → replied before false ∈ a.log) :
    Balanced calls a handled (attempts ++ [(call, channel)]) connected :=
  { h with
    attempts_nodup := by
      rw [map_append]
      refine nodup_append.2 ⟨h.attempts_nodup, by simp, fun x hx y hy => ?_⟩
      rintro rfl
      obtain rfl : x = channel := by simpa using hy
      exact hfresh hx
    retried := fun call' c c' hc hc' hne => by
      rcases mem_append.1 hc with hl | hl <;> rcases mem_append.1 hc' with hr | hr
      · exact h.retried call' c c' hl hr hne
      · obtain ⟨rfl, rfl⟩ : call' = call ∧ c' = channel := by simpa using hr
        exact .inl (hretry c hl)
      · obtain ⟨rfl, rfl⟩ : call' = call ∧ c = channel := by simpa using hl
        exact .inr (hretry c' hr)
      · simp_all
    arguments := fun call' id c arguments hc hlog => by
      rcases mem_append.1 hc with hc | hc
      · exact h.arguments call' id c arguments hc hlog
      · obtain ⟨-, rfl⟩ : call' = call ∧ c = channel := by simpa using hc
        exact (hconnected (h.forwarded_connected id c arguments hlog)).elim
    proper := fun call' c hc hcall hyes => by
      rcases mem_append.1 hc with hc | hc
      · exact h.proper call' c hc hcall hyes
      · obtain ⟨-, rfl⟩ : call' = call ∧ c = channel := by simpa using hc
        exact (hconnected (h.replied_connected c true hyes)).elim }

/-- A pending request names the channel of its identifier. -/
theorem filter_request (hmem : (id, channel) ∈ a.requests) :
    a.requests.filter (fun request => request.1 ≠ id) =
      a.requests.filter (fun request => request.2 ≠ channel) := by
  obtain ⟨arguments, hlog⟩ := h.forwarded id channel hmem
  refine filter_congr fun request hrequest => ?_
  obtain ⟨id', channel'⟩ := request
  obtain ⟨arguments', hlog'⟩ := h.forwarded id' channel' hrequest
  have hiff : id' = id ↔ channel' = channel := by
    constructor
    · rintro rfl
      exact (h.forwarded_id id' channel' arguments' channel arguments hlog' hlog).1
    · rintro rfl
      exact h.forwarded_channel id' id channel' arguments' arguments hlog' hlog
  simp [hiff]

theorem acknowledge (hhandled : (id, accepted) ∈ handled) :
    Balanced calls (a.acknowledge id accepted) handled attempts connected := by
  have hlog := h.acknowledge_log hhandled
  unfold Accounts.acknowledge
  cases hlookup : a.requests.lookup id with
  | none =>
    have hfilter : a.requests.filter (fun request => request.1 ≠ id) = a.requests := by
      refine filter_eq_self.2 fun request hrequest => ?_
      have hne := lookup_eq_none_iff.1 hlookup request hrequest
      exact decide_eq_true (bne_iff_ne.1 hne).symm
    simp only [hfilter]
    exact hlog
  | some channel =>
    have hmem : (id, channel) ∈ a.requests := by
      obtain ⟨before, after, happend, -⟩ := List.lookup_eq_some_iff.1 hlookup
      rw [happend]
      simp
    obtain ⟨arguments, hforwarded⟩ := h.forwarded id channel hmem
    have hclient := h.owned id channel hmem
    -- the identifier of the channel is the acknowledged one
    have hid : ∀ id' arguments', Event.forwarded id' channel arguments' ∈
        a.log ++ [.acknowledged id accepted] → id' = id := fun id' arguments' hmem' =>
      h.forwarded_channel id' id channel arguments' arguments (by simpa using hmem') hforwarded
    have hanswer : Balanced calls (Accounts.answer { a with
        log := a.log ++ [.acknowledged id accepted] } channel accepted) handled attempts
        connected := hlog.answer hclient
      (fun id' arguments' hmem' haccepted => by
        rw [hid id' arguments' hmem', haccepted]
        exact mem_append_right _ (mem_singleton.2 rfl))
      (fun id' arguments' hmem' haccepted hstarted => by
        subst haccepted
        rw [hid id' arguments' hmem'] at hstarted
        have heq := inj_on_of_nodup_map h.handled_nodup hstarted hhandled rfl
        cases heq)
      (fun _ _ _ _ => ⟨id, arguments, mem_append_left _ hforwarded⟩)
    have heq : Accounts.reply { a with
          requests := a.requests.filter (fun request => request.1 ≠ id)
          log := a.log ++ [.acknowledged id accepted] } channel accepted =
        Accounts.answer { a with log := a.log ++ [.acknowledged id accepted] } channel
          accepted := by
      unfold Accounts.reply
      rw [if_pos hclient, h.filter_request hmem]
      rfl
    simp only
    rw [heq]
    exact hanswer

/-- A client without a pending request did not forward an activation. -/
theorem idle (hclient : channel ∈ a.clients) (hidle : channel ∉ a.requests.map Prod.snd)
    (id : String)
    (arguments : List String) : Event.forwarded id channel arguments ∉ a.log := fun hlog =>
  hidle (mem_map.2 ⟨_, h.pending id channel arguments hlog hclient, rfl⟩)

/-- A client without a pending request is answered, with no unless it sent no URI. -/
theorem reply (hidle : channel ∉ a.requests.map Prod.snd)
    (hproper : ∀ call, (call, channel) ∈ attempts → calls call ≠ [] → accepted = false) :
    Balanced calls (a.reply channel accepted) handled attempts connected := by
  unfold Accounts.reply
  split
  case isFalse => exact h
  case isTrue hclient =>
    have hrequests : a.requests.filter (fun request => request.2 ≠ channel) = a.requests := by
      refine filter_eq_self.2 fun request hrequest => decide_eq_true ?_
      rintro rfl
      exact hidle (mem_map.2 ⟨request, hrequest, rfl⟩)
    have hanswer : Balanced calls (a.answer channel accepted) handled attempts connected :=
      h.answer hclient
      (fun id arguments hlog _ => (h.idle hclient hidle id arguments hlog).elim)
      (fun id arguments hlog _ => (h.idle hclient hidle id arguments hlog).elim)
      (fun call hcall hne haccepted => by
        rw [hproper call hcall hne] at haccepted
        cases haccepted)
    unfold Accounts.answer at hanswer
    rw [hrequests] at hanswer
    exact hanswer

/-- A client is refused whose activation was not started. -/
theorem answer_false (hclient : channel ∈ a.clients) (hunstarted : a.Unstarted handled channel) :
    Balanced calls (a.answer channel false) handled attempts connected :=
  h.answer hclient (fun _ _ _ hfalse => by cases hfalse)
    (fun id arguments hlog _ => hunstarted id arguments hlog) fun _ _ _ hfalse => by cases hfalse

theorem refuse (hunstarted : channel ∈ a.clients → a.Unstarted handled channel) :
    Balanced calls (a.refuse channel) handled attempts connected := by
  unfold Accounts.refuse
  by_cases hclient : channel ∈ a.clients
  · rw [Accounts.reply, if_pos hclient]
    exact h.answer_false hclient (hunstarted hclient)
  · have hrequests : a.requests.filter (fun request => request.2 ≠ channel) = a.requests := by
      refine filter_eq_self.2 fun request hrequest => decide_eq_true ?_
      rintro rfl
      exact hclient (h.owned request.1 request.2 hrequest)
    rw [Accounts.reply, if_neg hclient, hrequests]
    exact h

/-- At the end of an instance its clients are refused one after the other. The first accounts also
forget the requests, as those of the next instance do. -/
theorem exit (cs : List Channel) {b : Accounts} (hlog : a.log = b.log)
    (hclients : a.clients = b.clients) (hcs : ∀ channel ∈ a.clients, channel ∈ cs)
    (hunstarted : ∀ channel ∈ a.clients, a.Unstarted handled channel) :
    Balanced calls ⟨[], [], (cs.foldl (fun b channel => b.reply channel false) b).log⟩ handled
      attempts connected := by
  induction cs generalizing a b with
  | nil =>
    have hnone : a.clients = [] := eq_nil_iff_forall_not_mem.2 fun c hc => by
      cases hcs c hc
    have hrequests : a.requests = [] := eq_nil_iff_forall_not_mem.2 fun request hrequest => by
      have hmem := h.owned request.1 request.2 hrequest
      rw [hnone] at hmem
      cases hmem
    obtain ⟨clients, requests, log⟩ := a
    subst hnone hrequests
    rw [foldl_nil, ← hlog]
    exact h
  | cons channel cs ih =>
    rw [foldl_cons]
    by_cases hclient : channel ∈ a.clients
    · refine ih (h.answer_false hclient (hunstarted channel hclient)) ?_ ?_ ?_ ?_
      · rw [Accounts.reply, if_pos (hclients ▸ hclient)]
        simp [Accounts.answer, hlog]
      · rw [Accounts.reply, if_pos (hclients ▸ hclient)]
        simp [Accounts.answer, Accounts.drop, hclients]
      · intro c hc
        obtain ⟨hmem, hne⟩ := mem_filter.1 hc
        exact (mem_cons.1 (hcs c hmem)).resolve_left (by simpa using hne)
      · intro c hc id arguments hforwarded
        exact hunstarted c (mem_of_mem_filter hc) id arguments
          (by simpa [Accounts.answer] using hforwarded)
    · refine ih h ?_ ?_ ?_ hunstarted
      · rw [Accounts.reply, if_neg (hclients ▸ hclient), hlog]
      · rw [Accounts.reply, if_neg (hclients ▸ hclient), hclients]
      · intro c hc
        refine (mem_cons.1 (hcs c hc)).resolve_left ?_
        rintro rfl
        exact hclient hc

end Balanced

/-- The accounts of a system are balanced. -/
def System.Balanced (calls : ℕ → List String) (s : System) : Prop :=
  Compatibility.Balanced calls s.coordinator.accounts s.handled s.attempts s.connected

theorem accounts_exit (i : Instance) :
    i.exit.accounts = i.accounts.clients.foldl (fun b channel => b.reply channel false)
      i.accounts := by
  suffices h : ∀ clients : List (Channel × ℚ), ∀ j : Instance,
      (clients.foldl (fun j client => j.reply client.1 false) j).accounts =
        (clients.map Prod.fst).foldl (fun b channel => b.reply channel false) j.accounts from
    h i.clients i
  intro clients
  induction clients with
  | nil => exact fun _ => rfl
  | cons client clients ih =>
    intro j
    rw [foldl_cons, ih, accounts_reply]
    rfl

section Runs

variable {valid : List String → String → Bool} {zoom : Bool}

variable {s : System}

/-- A read of a client without a pending request keeps the balance. -/
theorem balanced_client (h : s.Balanced calls)
    (hcalls : ∀ call, ∃ items, activationArguments valid zoom items = some (calls call))
    {channel : Channel} {read : Read} (henabled : s.Enabled calls (.move (.client channel read)))
    (hidle : channel ∉ s.coordinator.accounts.requests.map Prod.snd) {a' : Accounts}
    (heffect : ClientEffect (activationArguments valid zoom) channel read s.coordinator.accounts
      a') : Compatibility.Balanced calls a' s.handled s.attempts s.connected := by
  obtain ⟨hfresh, hpacket⟩ := henabled
  -- a call's packet is approved as the call's arguments
  have hcall : ∀ {value items arguments}, read.packet = some value →
      arguments? (value.lookup "args") = some items →
      activationArguments valid zoom items = some arguments →
      ∀ call, (call, channel) ∈ s.attempts → arguments = calls call := by
    intro value items arguments hvalue hitems happrove call hattempt
    rw [hpacket call value hattempt hvalue] at hitems
    obtain rfl : (calls call).map .str = items := Option.some.inj hitems
    obtain ⟨first, hfirst⟩ := hcalls call
    rw [activationArguments_stable hfirst] at happrove
    exact (Option.some.inj happrove).symm
  cases heffect with
  | none => exact h
  | drop => exact .drop h hidle
  | refuse => exact .reply h hidle fun _ _ _ => rfl
  | accept hvalue hitems happrove =>
    refine .reply h hidle fun call hattempt hne => ?_
    exact (hne (hcall hvalue hitems happrove call hattempt).symm).elim
  | forward hvalue hitems happrove hclient hcount =>
    exact .forward h hclient hcount hidle hfresh (hcall hvalue hitems happrove)

/-- The accounts of every state of an undisturbed run are balanced. -/
theorem balanced_of_reachable
    (hcalls : ∀ call, ∃ items, activationArguments valid zoom items = some (calls call))
    (hs : Reachable (activationArguments valid zoom) calls System.Undisturbed s) :
    s.Balanced calls := by
  induction hs with
  | start runId => exact .start
  | @step s label _ henabled hallowed h =>
    cases label with
    | attempt call channel => exact .attempt h henabled.1 henabled.2.1 henabled.2.2
    | handle id started => exact .handle h henabled.1 henabled.2 hallowed
    | restart runId =>
      have hexit := Balanced.exit h s.coordinator.accounts.clients rfl rfl (fun _ => id) hallowed
      rw [← accounts_exit] at hexit
      exact hexit
    | move move =>
      cases move with
      | accept now connection =>
        rcases acceptClient_accounts s.coordinator now connection with heq | heq
        · change Compatibility.Balanced calls
            (final (acceptClient now connection) s.coordinator).accounts s.handled s.attempts
            (s.connected ++ [connection.channel])
          rw [heq]
          exact .unconnected h _
        · change Compatibility.Balanced calls
            (final (acceptClient now connection) s.coordinator).accounts s.handled s.attempts
            (s.connected ++ [connection.channel])
          rw [heq]
          exact .connect h henabled
      | runtime read =>
        have heffect := readRuntime_accounts s.coordinator read
        change Compatibility.Balanced calls
          (final (readRuntime read) s.coordinator).accounts s.handled s.attempts s.connected
        generalize (final (readRuntime read) s.coordinator).accounts = a' at heffect ⊢
        cases heffect with
        | none => exact h
        | acknowledge hpacket hid => exact .acknowledge h (henabled _ hpacket _ _ hid)
      | client channel read =>
        exact balanced_client h hcalls henabled hallowed (readClient_accounts s.coordinator)
      | expire now client =>
        change Compatibility.Balanced calls (s.coordinator.expire now client).accounts s.handled
          s.attempts s.connected
        rw [accounts_expire]
        split
        case isTrue hlate => exact .refuse h (hallowed hlate)
        case isFalse => exact h

/-- A list without repetition whose members are all equal has at most one. -/
theorem length_le_one {l : List String} (hnodup : l.Nodup) (heq : ∀ x ∈ l, ∀ y ∈ l, x = y) :
    l.length ≤ 1 := by
  match l, hnodup with
  | [], _ => exact Nat.zero_le 1
  | [_], _ => exact le_rfl
  | x :: y :: l, hnodup =>
    have hxy := heq x (by simp) y (by simp)
    simp [hxy] at hnodup

/-- The activations of a call that the masked application started. -/
def System.starts (s : System) (call : ℕ) : List String :=
  (s.handled.filter fun entry => entry.2 && s.coordinator.log.any fun event => match event with
    | .forwarded id channel _ => id == entry.1 && s.attempts.contains (call, channel)
    | _ => false).map Prod.fst

theorem mem_starts {call : ℕ} {id : String} (h : id ∈ s.starts call) :
    (id, true) ∈ s.handled ∧ ∃ channel arguments, (call, channel) ∈ s.attempts ∧
      forwarded id channel arguments ∈ s.coordinator.log := by
  obtain ⟨⟨id, started⟩, hentry, rfl⟩ := mem_map.1 h
  obtain ⟨hmem, hstarted⟩ := mem_filter.1 hentry
  obtain ⟨rfl, hany⟩ := (Bool.and_eq_true_iff.1 hstarted)
  obtain ⟨event, hevent, hmatch⟩ := any_eq_true.1 hany
  cases event with
  | forwarded id' channel arguments =>
    obtain ⟨hid, hattempt⟩ := Bool.and_eq_true_iff.1 hmatch
    obtain rfl : id' = id := by simpa using hid
    exact ⟨hmem, channel, arguments, by simpa using hattempt, hevent⟩
  | _ => cases hmatch

theorem mem_accounts_log {i : Instance} {event : Event} (h : event.traffic = true) :
    event ∈ i.accounts.log ↔ event ∈ i.log := by
  simp [Instance.accounts, h]

/-- Where no client with a pending request is read, and no client whose activation is started is
refused: requests belong to clients, at most eight are pending, each forwarded request has its own
identifier, no channel is answered twice, and an acceptance is the acknowledgement of the request;
one call starts at most one activation, and is answered yes only where it started its own. A call
of `service` is a sequence of such steps (`served_service`). -/
theorem activation_accounting
    (hcalls : ∀ call, ∃ items, activationArguments valid zoom items = some (calls call))
    {s : System}
    (hs : Reachable (activationArguments valid zoom) calls System.Undisturbed s) :
    (∀ id channel, (id, channel) ∈ s.coordinator.requests →
      channel ∈ s.coordinator.clients.map Prod.fst) ∧
    s.coordinator.requests.length ≤ 8 ∧
    (∀ id channel arguments channel' arguments',
      Event.forwarded id channel arguments ∈ s.coordinator.log →
      Event.forwarded id channel' arguments' ∈ s.coordinator.log →
        channel = channel' ∧ arguments = arguments') ∧
    (s.coordinator.log.filterMap Event.answered?).Nodup ∧
    (∀ id channel arguments, Event.forwarded id channel arguments ∈ s.coordinator.log →
      Event.replied channel true ∈ s.coordinator.log →
        Event.acknowledged id true ∈ s.coordinator.log) ∧
    (∀ call, (s.starts call).length ≤ 1) ∧
    (∀ call channel, (call, channel) ∈ s.attempts → calls call ≠ [] →
      Event.replied channel true ∈ s.coordinator.log →
        ∃ id, Event.forwarded id channel (calls call) ∈ s.coordinator.log ∧
          id ∈ s.starts call) := by
  have h : Compatibility.Balanced calls s.coordinator.accounts s.handled s.attempts s.connected :=
    balanced_of_reachable hcalls hs
  have hlog : ∀ {event}, event.traffic = true →
      (event ∈ s.coordinator.accounts.log ↔ event ∈ s.coordinator.log) := mem_accounts_log
  refine ⟨h.owned, h.bounded, fun id channel arguments channel' arguments' hmem hmem' => ?_, ?_,
    fun id channel arguments hmem hyes => ?_, fun call => length_le_one ?_ ?_,
    fun call channel hattempt hne hyes => ?_⟩
  · exact h.forwarded_id id channel arguments channel' arguments' ((hlog rfl).2 hmem)
      ((hlog rfl).2 hmem')
  · have hanswered : s.coordinator.log.filterMap Event.answered? =
        s.coordinator.accounts.log.filterMap Event.answered? := by
      change _ = (s.coordinator.log.filter Event.traffic).filterMap Event.answered?
      rw [List.filterMap_filter]
      refine List.filterMap_congr fun event _ => ?_
      cases event <;> rfl
    rw [hanswered]
    exact h.answered
  · exact (hlog rfl).1 (h.accepted id channel arguments ((hlog rfl).2 hmem) ((hlog rfl).2 hyes))
  · exact h.handled_nodup.sublist (List.filter_sublist.map Prod.fst)
  · intro id hid id' hid'
    obtain ⟨hstarted, channel, arguments, hattempt, hmem⟩ := mem_starts hid
    obtain ⟨hstarted', channel', arguments', hattempt', hmem'⟩ := mem_starts hid'
    by_cases heq : channel = channel'
    · subst heq
      exact h.forwarded_channel id id' channel arguments arguments' ((hlog rfl).2 hmem)
        ((hlog rfl).2 hmem')
    · -- the earlier channel was refused, and its activation was not started
      rcases h.retried call channel channel' hattempt hattempt' heq with hno | hno
      · exact (h.refused id channel arguments ((hlog rfl).2 hmem) hno hstarted).elim
      · exact (h.refused id' channel' arguments' ((hlog rfl).2 hmem') hno hstarted').elim
  · obtain ⟨id, arguments, hmem⟩ := h.proper call channel hattempt hne ((hlog rfl).2 hyes)
    have hown := h.arguments call id channel arguments hattempt hmem
    have hstarted := h.acknowledged id true (h.accepted id channel arguments hmem ((hlog rfl).2 hyes))
    subst hown
    refine ⟨id, (hlog rfl).1 hmem, List.mem_map.2 ⟨(id, true), List.mem_filter.2 ⟨hstarted, ?_⟩,
      rfl⟩⟩
    simp only [Bool.true_and, List.any_eq_true]
    exact ⟨_, (hlog rfl).1 hmem, by simp [hattempt]⟩

end Runs

/-- An instance whose runtime runs. -/
def servingInstance (clients : List (Channel × ℚ)) (requests : List (String × Channel))
    (log : List Event) : Instance :=
  { Instance.new "r" with
    runtime := some 9
    running := true
    clients := clients
    requests := requests
    log := log }

/-- A system of such an instance. -/
def serving (clients : List (Channel × ℚ)) (requests : List (String × Channel)) (log : List Event)
    (handled : List (String × Bool)) (attempts : List (ℕ × Channel)) (connected : List Channel) :
    System :=
  ⟨servingInstance clients requests log, handled, attempts, connected⟩

/-- The approval of one URI, for Discord. -/
def oneUri : List Json → Option (List String) :=
  activationArguments (fun _ uri => uri == "discord://-/x") false

/-- Every call has that URI. -/
def oneCall : ℕ → List String := fun _ => ["discord://-/x"]

/-- The read of a packet. -/
def readOf (value : Packet) (id : String) : Read := ⟨some value, true, true, id⟩

section Serving

variable {allowed : System → Label → Prop}

section

variable (hallowed : ∀ s label, (∀ id started, label ≠ .handle id started) → s.coordinator.requests = [] → s.handled = [] → allowed s label)
include hallowed

/-- The runtime connects and reports its start. -/
theorem reachable_serving :
    Reachable oneUri oneCall allowed (serving [] [] [] [] [] [9]) := by
  have haccept : Reachable oneUri oneCall allowed
      ⟨{ Instance.new "r" with clients := [(9, 0 + requestTimeout)] }, [], [], [9]⟩ :=
    .step (.move (.accept 0 ⟨9, true, true⟩)) (.start "r") (by simp [System.start,
      System.Enabled]) (hallowed _ _ (by simp) rfl rfl)
  have hruntime : Reachable oneUri oneCall allowed
      ⟨{ Instance.new "r" with runtime := some 9 }, [], [], [9]⟩ :=
    .step (.move (.client 9
      (readOf [("type", .str "runtime"), ("run_id", .str "r")] ""))) haccept
      ⟨by simp [Instance.accounts, Instance.new], by simp⟩ (hallowed _ _ (by simp) rfl rfl)
  exact .step (.move (.runtime (readOf [("type", .str "running")] ""))) hruntime
    (by simp [System.Enabled, readOf, acknowledged?, List.lookup_cons, identifier?])
    (hallowed _ _ (by simp) rfl rfl)

/-- The call 0 sends its activation. -/
theorem reachable_forwarded :
    Reachable oneUri oneCall allowed (serving [(1, 0 + requestTimeout)] [("a", 1)]
      [.forwarded "a" 1 ["discord://-/x"]] [] [(0, 1)] [9, 1]) := by
  have hattempt : Reachable oneUri oneCall allowed (serving [] [] [] [] [(0, 1)] [9]) :=
    .step (.attempt 0 1) (reachable_serving hallowed)
      (by simp [System.Enabled, serving]) (hallowed _ _ (by simp) rfl rfl)
  have haccept : Reachable oneUri oneCall allowed
      (serving [(1, 0 + requestTimeout)] [] [] [] [(0, 1)] [9, 1]) :=
    .step (.move (.accept 0 ⟨1, true, true⟩)) hattempt
      (by simp [System.Enabled, serving]) (hallowed _ _ (by simp) rfl rfl)
  exact .step (.move (.client 1 (readOf (activation ["discord://-/x"]) "a"))) haccept
    ⟨by simp [Instance.accounts, serving, servingInstance], by simp [serving, readOf, oneCall]⟩
    (hallowed _ _ (by simp) rfl rfl)

end

end Serving

/-- A client that leaves while its request is pending leaves the request behind; and a call that is
refused by its deadline starts its activation twice. -/
theorem stale_request :
    (Reachable oneUri oneCall (fun _ _ => True) (serving [] [("a", 1)]
      [.forwarded "a" 1 ["discord://-/x"], .replied 1 false] [] [(0, 1)] [9, 1])) ∧
    ∃ s, Reachable oneUri oneCall (fun _ _ => True) s ∧ s.starts 0 = ["a", "b"] := by
  have hforwarded : Reachable oneUri oneCall (fun _ _ => True) _ :=
    reachable_forwarded fun _ _ _ _ _ => trivial
  constructor
  · exact .step (.move (.client 1 ⟨none, true, true, "b"⟩)) hforwarded
      ⟨by simp [Instance.accounts, serving, servingInstance], by simp⟩ trivial
  · have hrefused : Reachable oneUri oneCall (fun _ _ => True) (serving [] []
        [.forwarded "a" 1 ["discord://-/x"], .replied 1 false] [] [(0, 1)] [9, 1]) :=
      .step (.move (.expire 8 (1, 8))) hforwarded trivial trivial
    have hattempt : Reachable oneUri oneCall (fun _ _ => True) (serving [] []
        [.forwarded "a" 1 ["discord://-/x"], .replied 1 false] [] [(0, 1), (0, 2)] [9, 1]) :=
      .step (.attempt 0 2) hrefused
        (by simp [System.Enabled, serving, servingInstance, Instance.accounts, Event.traffic])
        trivial
    have haccept : Reachable oneUri oneCall (fun _ _ => True) (serving [(2, 8 + requestTimeout)] []
        [.forwarded "a" 1 ["discord://-/x"], .replied 1 false] [] [(0, 1), (0, 2)] [9, 1, 2]) :=
      .step (.move (.accept 8 ⟨2, true, true⟩)) hattempt
        (by simp [System.Enabled, serving]) trivial
    have hagain : Reachable oneUri oneCall (fun _ _ => True)
        (serving [(2, 8 + requestTimeout)] [("b", 2)]
          [.forwarded "a" 1 ["discord://-/x"], .replied 1 false,
            .forwarded "b" 2 ["discord://-/x"]] [] [(0, 1), (0, 2)] [9, 1, 2]) :=
      .step (.move (.client 2 (readOf (activation ["discord://-/x"]) "b"))) haccept
        ⟨by simp [Instance.accounts, serving, servingInstance, Event.traffic, readOf],
          by simp [serving, readOf, oneCall]⟩ trivial
    refine ⟨_, .step (.handle "b" true) (.step (.handle "a" true) hagain ⟨⟨1, ["discord://-/x"], ?_⟩, ?_⟩
      trivial) ⟨⟨2, ["discord://-/x"], ?_⟩, ?_⟩ trivial, ?_⟩
    · simp [serving, servingInstance, Instance.accounts, Event.traffic]
    · simp [serving]
    · simp [System.next, serving, servingInstance, Instance.accounts, Event.traffic]
    · simp [System.next, serving]
    · rfl

theorem activation_accounting_started :
    ((serving [(1, 0 + requestTimeout)] [("a", 1)] [.forwarded "a" 1 ["discord://-/x"]]
      [("a", true)] [(0, 1)] [9, 1]).starts 0 = ["a"]) ∧
    ((serving [(1, 0 + requestTimeout)] [("a", 1)] [.forwarded "a" 1 ["discord://-/x"]]
      [("a", true)] [(0, 1)] [9, 1]).starts 0).length ≤ 1 := by
  have hallowed : ∀ (s : System) (label : Label), (∀ id started, label ≠ .handle id started) →
      s.coordinator.requests = [] → s.handled = [] → s.Undisturbed label := by
    intro s label hhandle hrequests hhandled
    have hunstarted : ∀ channel, s.Unstarted channel := by
      intro channel id arguments _
      simp [hhandled]
    cases label with
    | attempt => trivial
    | handle id started => exact (hhandle id started rfl).elim
    | restart => exact fun channel _ => hunstarted channel
    | move move =>
      cases move with
      | accept => trivial
      | runtime => trivial
      | client channel read => simp [System.Undisturbed, Instance.accounts, hrequests]
      | expire now client => exact fun _ _ => hunstarted client.1
  have hforwarded : Reachable oneUri oneCall System.Undisturbed _ := reachable_forwarded hallowed
  have hstarted : Reachable oneUri oneCall System.Undisturbed
      (serving [(1, 0 + requestTimeout)] [("a", 1)] [.forwarded "a" 1 ["discord://-/x"]]
        [("a", true)] [(0, 1)] [9, 1]) := by
    refine .step (.handle "a" true) hforwarded ⟨⟨1, ["discord://-/x"], ?_⟩, ?_⟩ ?_
    · simp [serving, servingInstance, Instance.accounts, Event.traffic]
    · simp [serving]
    · intro _ channel arguments _
      simp [serving, servingInstance, Instance.accounts, Event.traffic]
  have hcalls : ∀ call, ∃ items,
      activationArguments (fun _ uri => uri == "discord://-/x") false items =
        some (oneCall call) := fun _ => ⟨[.str "discord://-/x"], rfl⟩
  exact ⟨rfl, (activation_accounting hcalls hstarted).2.2.2.2.2.1 0⟩

end Preseed.Compatibility
