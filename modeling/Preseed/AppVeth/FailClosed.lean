import Preseed.AppVeth.Egress

/-!
# Egress fails closed

While the host link of a lease is up, its elements are those of its recorded route, unless the
link could not be lowered for another route, a port was announced that is not recorded, or a batch
was applied that the service takes for rejected.
-/

namespace Preseed.AppVeth

open Lease

/-! ## Updates that raise -/

/-- An update ends in one condition, or raises in another. -/
def Ends (ok raised : Network → Prop) : Except Network Network → Prop
  | .ok n => ok n
  | .error n => raised n

variable {ok middle raised : Network → Prop} {answers : Answers}

theorem Ends.bind {x : Except Network Network} {f : Network → Except Network Network}
    (hx : Ends middle raised x) (hf : ∀ n, middle n → Ends ok raised (f n)) :
    Ends ok raised (x >>= f) := by
  cases x with
  | ok n => exact hf n hx
  | error n => exact hx

/-- A step: its effect when it succeeds, or what it leaves when it raises. -/
theorem Ends.perform {action : Action} {effect : Network → Network} {n : Network}
    (hok : ok (effect n)) (htook : answers action = some true → raised (effect n))
    (hraised : answers action = some false → raised n) :
    Ends ok raised (perform answers action effect n) := by
  unfold AppVeth.perform
  split
  · exact hok
  · exact htook ‹_›
  · exact hraised ‹_›

/-- A step that only raises or not. -/
theorem Ends.check {action : Action} {n : Network} (hok : ok n) (hraised : raised n) :
    Ends ok raised (AppVeth.perform answers action id n) :=
  Ends.perform hok (fun _ => hraised) fun _ => hraised

theorem Ends.mono {ok' raised' : Network → Prop} {x : Except Network Network}
    (hx : Ends ok raised x) (hok : ∀ n, ok n → ok' n) (hraised : ∀ n, raised n → raised' n) :
    Ends ok' raised' x := by
  cases x with
  | ok n => exact hok n hx
  | error n => exact hraised n hx

/-! ## Replacing a route -/

section Replace

variable {lease : Lease} {current : Option Route} {n₀ : Network}

/-- What an update announces: a new port, when there is a supervisor. -/
def Lease.toldAfter (lease : Lease) (current : Option Route) (n₀ : Network) : Option ℕ :=
  if lease.portFor n₀.peerPort current ≠ n₀.peerPort ∧ n₀.channel = true then
    lease.portFor n₀.peerPort current
  else n₀.told

/-- The elements of an update. -/
def Lease.elementsAfter (lease : Lease) (current : Option Route) (n₀ : Network) : List Element :=
  lease.elementsFor (lease.portFor n₀.peerPort current) current

/-- A port is one of the lease. -/
def Lease.HasPort (lease : Lease) (port : Option ℕ) : Prop :=
  port = none ↔ lease.initialPort = none

theorem Lease.HasPort.portFor {recorded : Option ℕ} (h : lease.HasPort recorded) :
    lease.HasPort (lease.portFor recorded current) := by
  unfold Lease.portFor
  split
  · rename_i hpolicy
    simp [Lease.HasPort, initialPort, hpolicy]
  · exact h

/-- What is removed and what is installed belong to routes; nothing is installed that a removal
does not know. -/
structure Installed (lease : Lease) (remove elements : List Element) : Prop where
  removed : ∃ port route, lease.HasPort port ∧
    remove = (lease.elementsFor port route).map Element.key
  installed : ∃ port route, lease.HasPort port ∧ elements = lease.elementsFor port route
  empty : remove = [] → elements = []

variable {elements remove : List Element}

/-- Where each key of a route is installed, the installed elements have no other key. -/
theorem Installed.keys (h : Installed lease remove elements)
    (hpresent : ∀ key ∈ remove, key ∈ elements.map Element.key) :
    ∀ e ∈ elements, e.key ∈ remove := by
  obtain ⟨port, route, hport, rfl⟩ := h.removed
  obtain ⟨port', route', hport', rfl⟩ := h.installed
  obtain hempty | hnonempty := eq_or_ne ((lease.elementsFor port route).map Element.key) []
  · rw [h.empty hempty]
    nofun
  have hsame : port = none ↔ port' = none := hport.trans hport'.symm
  cases hpinned : lease.pinned with
  | false => cases route <;> simp [elementsFor, hpinned] at hnonempty
  | true =>
    cases route with
    | none => simp [elementsFor] at hnonempty
    | some route =>
      cases route' with
      | none => nofun
      | some route' =>
        cases port with
        | none =>
          obtain rfl := hsame.1 rfl
          simpa [elementsFor, hpinned, Element.key, eq_comm] using hpresent
        | some port =>
          obtain ⟨port', rfl⟩ := Option.ne_none_iff_exists'.1 fun h => nomatch hsame.2 h
          have hkeys : route.iface = route'.iface ∧ port = port' ∧ route.source = route'.source := by
            simp [elementsFor, hpinned, portElements, Element.key] at hpresent
            exact ⟨hpresent.1, hpresent.2.1, hpresent.2.2.1.1⟩
          obtain ⟨hiface, rfl, hsource⟩ := hkeys
          simp [elementsFor, hpinned, portElements, Element.key, hiface, hsource]

/-- The link is down, with these elements. -/
structure Lowered (n₀ n : Network) (remove elements : List Element) (told : Option ℕ) : Prop where
  up : n.up = false
  remove : n.routeRemove = remove
  elements : n.elements = elements
  port : n.peerPort = n₀.peerPort
  channel : n.channel = n₀.channel
  told : n.told = told

/-- The link is ready for the new elements. -/
structure Ready (lease : Lease) (current : Option Route) (n₀ n : Network) : Prop where
  elements : n.elements = lease.elementsAfter current n₀
  flows : n.flows = []
  route : current ≠ none ∨ lease.pinned = false

/-- How an update that raises leaves the network. -/
structure Stopped (lease : Lease) (answers : Answers) (current : Option Route)
    (n₀ n : Network) : Prop where
  installed : Installed lease n.routeRemove n.elements
  port : n.peerPort = n₀.peerPort
  channel : n.channel = n₀.channel
  told : n.told = n₀.told ∨ n.told = lease.toldAfter current n₀
  up : n.up = true → n = n₀ ∧ answers .lower = some false ∨
    Ready lease current n₀ n ∧ n.told = lease.toldAfter current n₀ ∧ answers .raise = some true

/-- How an update that succeeds leaves it. -/
structure Replaced (lease : Lease) (current : Option Route) (n₀ n : Network) : Prop where
  installed : Installed lease n.routeRemove n.elements
  port : n.peerPort = lease.portFor n₀.peerPort current
  channel : n.channel = n₀.channel
  told : n.told = lease.toldAfter current n₀
  uplink : n.uplink = current
  up : n.up = true → Ready lease current n₀ n

variable {n : Network}

theorem Lowered.stopped {told : Option ℕ} (h : Lowered n₀ n remove elements told)
    (hinstalled : Installed lease remove elements)
    (htold : told = n₀.told ∨ told = lease.toldAfter current n₀) :
    Stopped lease answers current n₀ n where
  installed := by rwa [h.remove, h.elements]
  port := h.port
  channel := h.channel
  told := h.told ▸ htold
  up hup := by rw [h.up] at hup; cases hup

/-- The elements of an update are installed with their removal. -/
theorem installed_elementsAfter (hport : lease.HasPort n₀.peerPort) :
    Installed lease ((lease.elementsAfter current n₀).map Element.key)
      (lease.elementsAfter current n₀) :=
  ⟨⟨_, current, hport.portFor, rfl⟩, ⟨_, current, hport.portFor, rfl⟩,
    List.map_eq_nil_iff.1⟩

/-- The batch replaces the elements. -/
theorem ends_commit (h : Lowered n₀ n n₀.routeRemove n₀.elements n₀.told)
    (hinstalled : Installed lease n₀.routeRemove n₀.elements) (hport : lease.HasPort n₀.peerPort)
    (hcommit : answers .commit = some true → lease.pinned = true → current ≠ none →
      n₀.routeRemove ≠ []) :
    Ends (fun m => Lowered n₀ { m with
          routeRemove := (lease.elementsAfter current n₀).map Element.key }
        ((lease.elementsAfter current n₀).map Element.key) (lease.elementsAfter current n₀) n₀.told)
      (Stopped lease answers current n₀)
      (commitElements answers (lease.elementsAfter current n₀) n) := by
  have hstopped : Stopped lease answers current n₀ n := h.stopped hinstalled (.inl rfl)
  unfold commitElements
  split
  · rename_i hnone
    refine ⟨h.up, rfl, ?_, h.port, h.channel, h.told⟩
    rw [hnone.2]
    exact h.elements.trans (hinstalled.empty (h.remove ▸ hnone.1))
  · split
    · rename_i haccepts
      have hkept : n.kept = [] := by
        refine List.filter_eq_nil_iff.2 fun e he => ?_
        rw [h.elements] at he
        have hpresent := haccepts.1
        rw [h.remove, h.elements] at hpresent
        simp [h.remove, hinstalled.keys hpresent e he]
      have helements : n.kept.filter (fun e => e ∉ lease.elementsAfter current n₀) ++
          lease.elementsAfter current n₀ = lease.elementsAfter current n₀ := by
        rw [hkept, List.filter_nil, List.nil_append]
      refine .perform ⟨h.up, rfl, helements, h.port, h.channel, h.told⟩ (fun htook => ?_)
        fun _ => hstopped
      have hlow : Lowered n₀ { n with
          elements := n.kept.filter (fun e => e ∉ lease.elementsAfter current n₀) ++
            lease.elementsAfter current n₀ } n₀.routeRemove (lease.elementsAfter current n₀)
          n₀.told := ⟨h.up, h.remove, helements, h.port, h.channel, h.told⟩
      refine hlow.stopped ⟨hinstalled.removed, ⟨_, current, hport.portFor, rfl⟩, fun hempty => ?_⟩
        (.inl rfl)
      -- A batch that only adds is not applied and then reported as failed.
      by_contra hadds
      refine hcommit htook ?_ ?_ hempty
      · by_contra hpinned
        refine hadds ?_
        unfold elementsAfter elementsFor
        cases current <;> simp [hpinned]
      · rintro rfl
        exact hadds rfl
    · exact hstopped

/-- The flushes leave no entry of the guest. -/
theorem ends_flush (h : Lowered n₀ n remove elements n₀.told)
    (hinstalled : Installed lease remove elements) :
    Ends (fun m => Lowered n₀ m remove elements n₀.told ∧ m.flows = [])
      (Stopped lease answers current n₀) (flushFlows answers n) := by
  have horiginal : Ends (fun m => Lowered n₀ m remove elements n₀.told ∧
      ∀ flow ∈ m.flows, flow.outbound = false) (Stopped lease answers current n₀)
      (perform answers .flushOriginal
        (fun n => { n with flows := n.flows.filter fun flow => flow.outbound = false }) n) := by
    have hlow : Lowered n₀ { n with flows := n.flows.filter fun flow => flow.outbound = false }
        remove elements n₀.told := ⟨h.up, h.remove, h.elements, h.port, h.channel, h.told⟩
    refine .perform ⟨hlow, fun flow hflow => ?_⟩ (fun _ => hlow.stopped hinstalled (.inl rfl))
      fun _ => h.stopped hinstalled (.inl rfl)
    simpa using (List.mem_filter.1 hflow).2
  refine horiginal.bind fun m hm => ?_
  have hlow : Lowered n₀ { m with flows := m.flows.filter fun flow => flow.outbound = true }
      remove elements n₀.told :=
    ⟨hm.1.up, hm.1.remove, hm.1.elements, hm.1.port, hm.1.channel, hm.1.told⟩
  refine .perform ⟨hlow, List.filter_eq_nil_iff.2 fun flow hflow => ?_⟩
    (fun _ => hlow.stopped hinstalled (.inl rfl)) fun _ => hm.1.stopped hinstalled (.inl rfl)
  simp [hm.2 flow hflow]

/-- The supervisor is told of a new port. -/
theorem ends_notify (h : Lowered n₀ n remove elements n₀.told)
    (hinstalled : Installed lease remove elements) (hflows : n.flows = []) :
    Ends (fun m => Lowered n₀ m remove elements (lease.toldAfter current n₀) ∧ m.flows = [])
      (Stopped lease answers current n₀)
      (notifyPort answers (lease.portFor n₀.peerPort current) n) := by
  unfold notifyPort
  rw [h.port, h.channel]
  by_cases hnew : lease.portFor n₀.peerPort current ≠ n₀.peerPort ∧ n₀.channel = true
  · have htold : lease.portFor n₀.peerPort current = lease.toldAfter current n₀ := by
      rw [toldAfter, if_pos hnew]
    have hlow : Lowered n₀ { n with told := lease.portFor n₀.peerPort current } remove elements
        (lease.toldAfter current n₀) := ⟨h.up, h.remove, h.elements, h.port, h.channel, htold⟩
    rw [if_pos hnew]
    exact .perform ⟨hlow, hflows⟩ (fun _ => hlow.stopped hinstalled (.inr rfl))
      fun _ => h.stopped hinstalled (.inl rfl)
  · have htold : n₀.told = lease.toldAfter current n₀ := by rw [toldAfter, if_neg hnew]
    rw [if_neg hnew]
    exact ⟨htold ▸ h, hflows⟩

/-- The link is raised where the route allows it. -/
theorem ends_raise
    (h : Lowered n₀ n remove (lease.elementsAfter current n₀) (lease.toldAfter current n₀))
    (hinstalled : Installed lease remove (lease.elementsAfter current n₀)) (hflows : n.flows = []) :
    Ends (fun m => Installed lease m.routeRemove m.elements ∧ m.channel = n₀.channel ∧
        m.told = lease.toldAfter current n₀ ∧ (m.up = true → Ready lease current n₀ m))
      (Stopped lease answers current n₀) (raiseLink lease answers current n) := by
  have hin : Installed lease n.routeRemove n.elements := by rwa [h.remove, h.elements]
  unfold raiseLink
  split
  · rename_i hroute
    have hready : Ready lease current n₀ { n with up := true } := ⟨h.elements, hflows, hroute⟩
    exact .perform ⟨hin, h.channel, h.told, fun _ => hready⟩
      (fun htook => ⟨hin, h.port, h.channel, .inr h.told, fun _ => .inr ⟨hready, h.told, htook⟩⟩)
      fun _ => h.stopped hinstalled (.inr rfl)
  · exact ⟨hin, h.channel, h.told, fun hup => by rw [h.up] at hup; cases hup⟩

theorem ends_replaceRoute (hinstalled : Installed lease n₀.routeRemove n₀.elements)
    (hport : lease.HasPort n₀.peerPort)
    (hcommit : answers .commit = some true → lease.pinned = true → current ≠ none →
      n₀.routeRemove ≠ []) :
    Ends (Replaced lease current n₀) (Stopped lease answers current n₀)
      (replaceRoute lease answers current n₀) := by
  have hlower : Ends (fun n => Lowered n₀ n n₀.routeRemove n₀.elements n₀.told)
      (Stopped lease answers current n₀)
      (perform answers .lower (fun n => { n with up := false }) n₀) := by
    have hlow : Lowered n₀ { n₀ with up := false } n₀.routeRemove n₀.elements n₀.told :=
      ⟨rfl, rfl, rfl, rfl, rfl, rfl⟩
    refine .perform hlow (fun _ => hlow.stopped hinstalled (.inl rfl)) fun hfailed => ?_
    exact ⟨hinstalled, rfl, rfl, .inl rfl, fun _ => .inl ⟨rfl, hfailed⟩⟩
  refine hlower.bind fun n hn => ?_
  have hclassify : Ends (fun m => Lowered n₀ m n₀.routeRemove n₀.elements n₀.told)
      (Stopped lease answers current n₀) (classify lease answers current n) := by
    unfold classify
    split
    · exact .check hn (hn.stopped hinstalled (.inl rfl))
    · exact hn
  refine hclassify.bind fun n hn => ?_
  have hreserve : Ends (fun m => Lowered n₀ m n₀.routeRemove n₀.elements n₀.told)
      (Stopped lease answers current n₀) (reservePeerPort lease answers current n) := by
    unfold reservePeerPort
    split
    · exact (Ends.check hn (hn.stopped hinstalled (.inl rfl))).bind fun n hn =>
        Ends.check hn (hn.stopped hinstalled (.inl rfl))
    · exact hn
  rw [hn.port]
  have hafter : Installed lease ((lease.elementsAfter current n₀).map Element.key)
      (lease.elementsAfter current n₀) := installed_elementsAfter hport
  refine hreserve.bind fun n hn => (ends_commit hn hinstalled hport hcommit).bind fun n hn =>
    (ends_flush hn hafter).bind fun n hn => ?_
  have hmtu : Ends (fun m => Lowered n₀ m ((lease.elementsAfter current n₀).map Element.key)
        (lease.elementsAfter current n₀) n₀.told ∧ m.flows = [])
      (Stopped lease answers current n₀) (perform answers .guestMtu id n) :=
    Ends.check hn (hn.1.stopped hafter (.inl rfl))
  refine hmtu.bind fun n hn => (ends_notify hn.1 hafter hn.2).bind fun n hn =>
    (ends_raise hn.1 hafter hn.2).bind fun n hn => ?_
  exact ⟨hn.1, rfl, hn.2.1, hn.2.2.1, rfl, fun hup =>
    let hready := hn.2.2.2 hup
    ⟨hready.elements, hready.flows, hready.route⟩⟩

end Replace

/-! ## Runs that fail closed -/

/-- The peer port in force for a route. -/
def Lease.portOf (lease : Lease) (uplink : Option Route) : Option ℕ :=
  lease.portFor lease.initialPort uplink

/-- While the link is up, everything follows the recorded route. -/
structure FailClosed (lease : Lease) (n : Network) : Prop where
  /-- The elements are those of the recorded route. -/
  elements : n.up = true → n.elements = lease.elementsFor (lease.portOf n.uplink) n.uplink
  /-- No flow is left of other elements. -/
  flows : n.up = true → ∀ flow ∈ n.flows, flow.mapping = n.elements
  /-- The supervisor knows the port in force. -/
  told : n.up = true → n.told = lease.portOf n.uplink
  /-- A pinned lease has a route. -/
  uplink : n.up = true → lease.pinned = true → n.uplink ≠ none

/-- A step of the first update that raises had no effect, where that is the raising of the link
for a port that is not the first one or a batch that adds elements. -/
def Lease.opensInForce (lease : Lease) (current : Option Route) (answers : Answers) : Prop :=
  (answers .raise = some true → lease.portOf current = lease.initialPort) ∧
    (answers .commit = some true → lease.pinned = true → current = none)

/-- An update that replaces the route can lower the link of a pinned lease, a port that is not
announced again is the last one announced, and a batch that only adds elements and raises had no
effect. -/
def Lease.meetsInForce (lease : Lease) (n : Network) : Event → Prop
  | .notification current answers now _ =>
    ¬ n.waits current now → ¬ n.unchanged current → ¬ n.mtuOnly current →
      (answers .lower = some false → n.up = true → lease.pinned = true →
        sameEgress current n.uplink) ∧
      (current ≠ none → lease.portFor n.peerPort current = n.peerPort → n.told = n.peerPort) ∧
      (answers .commit = some true → lease.pinned = true → current ≠ none → n.routeRemove ≠ [])
  | .traffic _ => True

section Runs

variable {lease : Lease} {current : Option Route} {n₀ n : Network}

/-- The peer port does not depend on the route. -/
def Lease.Steady (lease : Lease) : Prop :=
  ∀ ethernet wifi, lease.peerPortPolicy ≠ .byLink ethernet wifi

theorem Lease.Steady.portFor (h : lease.Steady) (recorded : Option ℕ) (current : Option Route) :
    lease.portFor recorded current = recorded := by
  unfold Lease.portFor
  split
  · rename_i hpolicy
    exact absurd hpolicy (h _ _)
  · rfl

theorem Lease.steady_of_not_pinned (h : lease.pinned = false) : lease.Steady := by
  intro ethernet wifi hpolicy
  have hpinned := lease.pinned_of_port (by rw [hpolicy]; nofun)
  rw [h] at hpinned
  cases hpinned

/-- A route decides the port of a policy by link. -/
theorem Lease.portFor_eq (hroute : current ≠ none ∨ lease.pinned = false)
    (hsteady : lease.Steady → n₀.peerPort = lease.initialPort) :
    lease.portFor n₀.peerPort current = lease.portOf current := by
  by_cases h : lease.Steady
  · rw [portOf, h.portFor, h.portFor, hsteady h]
  · obtain ⟨route, rfl⟩ := Option.ne_none_iff_exists'.1
      (hroute.resolve_right fun hpinned => h (steady_of_not_pinned hpinned))
    obtain ⟨ethernet, wifi, hpolicy⟩ : ∃ e w, lease.peerPortPolicy = .byLink e w := by
      simpa [Lease.Steady] using h
    simp [portOf, portFor, hpolicy]

/-- Routes with one interface and source have the same elements and port. -/
theorem sameEgress.elementsFor (lease : Lease) {uplink : Option Route}
    (h : sameEgress current uplink) :
    lease.portOf current = lease.portOf uplink ∧
      (∀ port, lease.elementsFor port current = lease.elementsFor port uplink) ∧ current ≠ none := by
  obtain _ | route := current
  · exact h.elim
  obtain _ | recorded := uplink
  · exact h.elim
  obtain ⟨hiface, hsource⟩ := Prod.mk.inj (show route.identity = recorded.identity from h)
  refine ⟨?_, fun port => ?_, nofun⟩
  · cases hpolicy : lease.peerPortPolicy <;> simp [portOf, portFor, hpolicy, hiface]
  · simp only [elementsFor, portElements, hiface, hsource]

theorem Ready.failClosed (h : Ready lease current n₀ n)
    (hport : lease.portFor n₀.peerPort current = lease.portOf current) (huplink : n.uplink = current)
    (htold : n.told = lease.portOf current) : FailClosed lease n where
  elements _ := by rw [h.elements, huplink, elementsAfter, hport]
  flows _ flow hflow := by rw [h.flows] at hflow; cases hflow
  told _ := by rw [htold, huplink]
  uplink _ hpinned := by
    rw [huplink]
    exact h.route.resolve_right fun hnot => by rw [hpinned] at hnot; cases hnot

theorem FailClosed.of_down (h : n.up ≠ true) : FailClosed lease n :=
  ⟨fun hup => absurd hup h, fun hup => absurd hup h, fun hup => absurd hup h,
    fun hup => absurd hup h⟩

/-- An open network. -/
structure Open (lease : Lease) (n : Network) : Prop where
  failClosed : FailClosed lease n
  installed : Installed lease n.routeRemove n.elements
  channel : n.channel = true
  port : lease.HasPort n.peerPort
  steadyPort : lease.Steady → n.peerPort = lease.initialPort
  steadyTold : lease.Steady → n.told = lease.initialPort

/-- What an update announces is the port in force. -/
theorem Open.toldAfter (h : Open lease n₀) (hroute : current ≠ none ∨ lease.pinned = false)
    (hmeets : current ≠ none → lease.portFor n₀.peerPort current = n₀.peerPort →
      n₀.told = n₀.peerPort) :
    lease.toldAfter current n₀ = lease.portOf current := by
  have hport := portFor_eq hroute h.steadyPort
  unfold Lease.toldAfter
  split
  · exact hport
  · rename_i hsame
    have hrecorded : lease.portFor n₀.peerPort current = n₀.peerPort :=
      not_not.1 fun hne => hsame ⟨hne, h.channel⟩
    rw [← hport, hrecorded]
    rcases hroute with hsome | hpinned
    · exact hmeets hsome hrecorded
    · have hsteady := steady_of_not_pinned hpinned
      rw [h.steadyTold hsteady, h.steadyPort hsteady]

/-- What a steady lease announces. -/
theorem Open.toldAfter_steady (h : Open lease n₀) (hsteady : lease.Steady) :
    lease.toldAfter current n₀ = lease.initialPort := by
  rw [Lease.toldAfter, hsteady.portFor, if_neg fun hne => hne.1 rfl, h.steadyTold hsteady]

/-- The same elements serve a route with the same interface and source. -/
theorem Open.recorded (h : Open lease n)
    (hsame : n.up = true → lease.pinned = true → sameEgress current n.uplink)
    (retry : Option ℚ) :
    Open lease { n with uplink := current, routeRetryAt := retry } := by
  refine ⟨?_, h.installed, h.channel, h.port, h.steadyPort, h.steadyTold⟩
  by_cases hpinned : lease.pinned = true
  · refine ⟨fun hup => ?_, h.failClosed.flows, fun hup => ?_, fun hup _ => ?_⟩
    · obtain ⟨hport, helements, -⟩ := (hsame hup hpinned).elementsFor lease
      exact (h.failClosed.elements hup).trans (by rw [hport, helements])
    · exact (h.failClosed.told hup).trans ((hsame hup hpinned).elementsFor lease).1.symm
    · exact ((hsame hup hpinned).elementsFor lease).2.2
  · rw [Bool.not_eq_true] at hpinned
    have hnone : ∀ port uplink, lease.elementsFor port uplink = [] := by
      intro port uplink
      cases uplink <;> simp [elementsFor, hpinned]
    have hsteady := steady_of_not_pinned hpinned
    refine ⟨fun hup => ?_, h.failClosed.flows, fun _ => ?_, fun _ hnot => ?_⟩
    · exact (h.failClosed.elements hup).trans (by rw [hnone, hnone])
    · exact (h.steadyTold hsteady).trans (hsteady.portFor _ _).symm
    · rw [hpinned] at hnot; cases hnot

/-- A replaced route. -/
theorem Replaced.open (h : Open lease n₀) (hreplaced : Replaced lease current n₀ n)
    (hmeets : current ≠ none → lease.portFor n₀.peerPort current = n₀.peerPort →
      n₀.told = n₀.peerPort) : Open lease n where
  installed := hreplaced.installed
  channel := hreplaced.channel.trans h.channel
  port := by
    rw [hreplaced.port]
    exact h.port.portFor
  steadyPort hsteady := hreplaced.port.trans ((hsteady.portFor _ _).trans (h.steadyPort hsteady))
  steadyTold hsteady := hreplaced.told.trans (h.toldAfter_steady hsteady)
  failClosed := by
    by_cases hup : n.up = true
    · have hready := hreplaced.up hup
      exact hready.failClosed (portFor_eq hready.route h.steadyPort) hreplaced.uplink
        (hreplaced.told.trans (h.toldAfter hready.route hmeets))
    · exact .of_down hup

/-- An update that raised, with its route recorded. -/
theorem Stopped.open {answers : Answers} (h : Open lease n₀)
    (hstopped : Stopped lease answers current n₀ n)
    (hlower : answers .lower = some false → n₀.up = true → lease.pinned = true →
      sameEgress current n₀.uplink)
    (hmeets : current ≠ none → lease.portFor n₀.peerPort current = n₀.peerPort →
      n₀.told = n₀.peerPort) (retry : Option ℚ) :
    Open lease { n with uplink := current, routeRetryAt := retry } := by
  by_cases hold : n = n₀ ∧ answers .lower = some false
  · obtain ⟨rfl, hfailed⟩ := hold
    exact h.recorded (hlower hfailed) retry
  refine ⟨?_, hstopped.installed, hstopped.channel.trans h.channel, hstopped.port ▸ h.port,
    fun hsteady => hstopped.port.trans (h.steadyPort hsteady), fun hsteady => ?_⟩
  · by_cases hup : n.up = true
    · obtain ⟨hready, htold, -⟩ := (hstopped.up hup).resolve_left hold
      have hready' : Ready lease current n₀ { n with uplink := current, routeRetryAt := retry } :=
        ⟨hready.elements, hready.flows, hready.route⟩
      exact hready'.failClosed (portFor_eq hready.route h.steadyPort) rfl
        (htold.trans (h.toldAfter hready.route hmeets))
    · exact .of_down hup
  · rcases hstopped.told with htold | htold
    · exact htold.trans (h.steadyTold hsteady)
    · exact htold.trans (h.toldAfter_steady hsteady)

/-- One notification keeps an open network open. -/
theorem Open.refreshRoute {answers : Answers} {now failedAt : ℚ} (h : Open lease n)
    (hmeets : lease.meetsInForce n (.notification current answers now failedAt)) :
    Open lease (refreshRoute lease answers current now failedAt n) := by
  unfold AppVeth.refreshRoute
  split
  · exact h
  rename_i hwaits
  have hends : Ends (Open lease) (fun m => Open lease
      { m with uplink := current, routeRetryAt := some (failedAt + routeRetrySeconds) })
      (updateRoute lease answers current n) := by
    unfold updateRoute
    split
    · exact h
    rename_i hunchanged
    split
    · -- The link stays up: the elements are those of the new route as well.
      rename_i hmtu
      have hsame := h.recorded fun _ _ => hmtu.2.2
      have hguest : Ends (fun m => m = n) (fun m => Open lease
          { m with uplink := current, routeRetryAt := some (failedAt + routeRetrySeconds) })
          (perform answers .guestMtu id n) := Ends.check rfl (hsame _)
      refine hguest.bind fun m hm => ?_
      subst hm
      have hhost : Ends (fun m' => m' = m) (fun m' => Open lease
          { m' with uplink := current, routeRetryAt := some (failedAt + routeRetrySeconds) })
          (perform answers .hostMtu id m) := Ends.check rfl (hsame _)
      refine hhost.bind fun m' hm' => ?_
      subst hm'
      exact hsame m'.routeRetryAt
    · rename_i hmtu
      obtain ⟨hlower, htold, hcommit⟩ := hmeets hwaits hunchanged hmtu
      exact (ends_replaceRoute h.installed h.port hcommit).mono (fun m hm => hm.open h htold)
        fun m hm => hm.open h hlower htold _
  revert hends
  cases updateRoute lease answers current n with
  | ok m => exact id
  | error m => exact id

/-- The first update opens a network. -/
theorem open_opened {answers : Answers} {now failedAt : ℚ} (flows : List Flow)
    (hopens : lease.opensInForce current answers) :
    Open lease (refreshRoute lease answers current now failedAt (lease.fresh flows)).connect := by
  have hports (hsteady : lease.Steady) : lease.portOf current = lease.initialPort :=
    hsteady.portFor _ _
  have hinstalled : Installed lease [] [] :=
    ⟨⟨lease.initialPort, none, Iff.rfl, rfl⟩, ⟨lease.initialPort, none, Iff.rfl, rfl⟩, id⟩
  have hends : Ends (fun m => Open lease m.connect) (fun m => Open lease
      (Network.connect
        { m with uplink := current, routeRetryAt := some (failedAt + routeRetrySeconds) }))
      (replaceRoute lease answers current (lease.fresh flows)) := by
    have hport : lease.HasPort (lease.fresh flows).peerPort := Iff.rfl
    refine (ends_replaceRoute hinstalled hport fun htook hpinned hroute =>
      absurd (hopens.2 htook hpinned) hroute).mono (fun m hm => ?_) fun m hm => ?_
    · refine ⟨?_, hm.installed, rfl, hm.port ▸ hport.portFor, fun hsteady => hm.port.trans (hports hsteady),
        fun hsteady => hm.port.trans (hports hsteady)⟩
      by_cases hup : m.up = true
      · have hready : Ready lease current (lease.fresh flows) m.connect :=
          ⟨(hm.up hup).elements, (hm.up hup).flows, (hm.up hup).route⟩
        exact hready.failClosed rfl hm.uplink hm.port
      · exact .of_down hup
    · refine ⟨?_, hm.installed, rfl, hm.port ▸ hport, fun _ => hm.port, fun _ => hm.port⟩
      by_cases hup : m.up = true
      · rcases hm.up hup with ⟨rfl, -⟩ | ⟨hready, -, htook⟩
        · cases hup
        have hready' : Ready lease current (lease.fresh flows) (Network.connect
            { m with uplink := current, routeRetryAt := some (failedAt + routeRetrySeconds) }) :=
          ⟨hready.elements, hready.flows, hready.route⟩
        exact hready'.failClosed rfl rfl (hm.port.trans (hopens.1 htook).symm)
      · exact .of_down hup
  change Open lease (Network.connect
    (match replaceRoute lease answers current (lease.fresh flows) with
    | .ok n => n
    | .error n => { n with uplink := current, routeRetryAt := some (failedAt + routeRetrySeconds) }))
  revert hends
  cases replaceRoute lease answers current (lease.fresh flows) with
  | ok m => exact id
  | error m => exact id

/-- Traffic is tracked under the elements in force. -/
theorem Open.traffic (h : Open lease n) (outbound : Bool) :
    Open lease (n.after lease (.traffic outbound)) := by
  refine ⟨⟨h.failClosed.elements, fun hup flow hflow => ?_, h.failClosed.told,
    h.failClosed.uplink⟩, h.installed, h.channel, h.port, h.steadyPort, h.steadyTold⟩
  rcases List.mem_cons.1 hflow with rfl | hold
  · rfl
  · exact h.failClosed.flows hup flow hold

theorem Reached.open (h : Reached lease lease.opensInForce lease.meetsInForce n) :
    Open lease n := by
  induction h with
  | opened flows current answers now failedAt hopens => exact open_opened flows hopens
  | step _ event hmeets ih =>
    cases event with
    | notification current answers now failedAt => exact ih.refreshRoute hmeets
    | traffic outbound => exact ih.traffic outbound

end Runs

/-- Egress fails closed in every run whose updates can lower the link and announce their port. -/
theorem egress_fails_closed (lease : Lease) {n : Network}
    (h : Reached lease lease.opensInForce lease.meetsInForce n) : FailClosed lease n :=
  h.open.failClosed

/-! ## A pinned application with a port for each kind of uplink -/

/-- A lease with a peer port for Ethernet and one for Wi-Fi. -/
def peerLease : Lease where
  name := "veth7"
  address := "10.200.0.30"
  pinned := true
  peerPortPolicy := .byLink 6881 6882
  wireless iface := iface == "wlan0"
  pinned_of_port _ := rfl

def ethernetRoute : Route := ⟨"eth0", "192.0.2.10", 1500⟩

def wifiRoute : Route := ⟨"wlan0", "192.0.2.77", 1500⟩

/-- Every step succeeds. -/
def noFailure : Answers := fun _ => none

/-- One step raises without its effect. -/
def failing (action : Action) : Answers := fun other => if other = action then some false else none

/-- The lease opens on Ethernet. -/
def openedNetwork : Network :=
  (refreshRoute peerLease noFailure (some ethernetRoute) 0 0 (peerLease.fresh [])).connect

/-- It has a connection and moves to Wi-Fi. -/
def movedNetwork : Network :=
  (openedNetwork.after peerLease (.traffic true)).after peerLease
    (.notification (some wifiRoute) noFailure 10 10)

/-- The host link cannot be lowered for the move. -/
def keptNetwork : Network :=
  openedNetwork.after peerLease (.notification (some wifiRoute) (failing .lower) 10 10)

/-- The move to Wi-Fi is announced and its link is not raised, and Ethernet returns. -/
def returnedNetwork : Network :=
  (openedNetwork.after peerLease (.notification (some wifiRoute) (failing .raise) 10 10)).after
    peerLease (.notification (some ethernetRoute) noFailure 11 11)

private theorem networks_computed :
    (movedNetwork.up = true ∧ movedNetwork.told = some 6882) ∧
    (keptNetwork.up = true ∧
      keptNetwork.elements ≠
        peerLease.elementsFor (peerLease.portOf keptNetwork.uplink) keptNetwork.uplink) ∧
    returnedNetwork.up = true ∧ returnedNetwork.told = some 6882 ∧
      peerLease.portOf returnedNetwork.uplink = some 6881 := by
  decide +kernel

theorem egress_fails_closed_moved :
    FailClosed peerLease movedNetwork ∧ movedNetwork.up = true ∧ movedNetwork.told = some 6882 := by
  refine ⟨egress_fails_closed peerLease ?_, networks_computed.1⟩
  have hopened : Reached peerLease peerLease.opensInForce peerLease.meetsInForce openedNetwork :=
    .opened [] (some ethernetRoute) noFailure 0 0 ⟨nofun, nofun⟩
  exact (hopened.step (.traffic true) trivial).step (.notification (some wifiRoute) noFailure 10 10)
    fun _ _ _ => ⟨nofun, fun _ => by decide, nofun⟩

/-- The link stays up with the elements of Ethernet, and Wi-Fi is recorded. -/
theorem failed_lowering_keeps_egress :
    Reached peerLease (fun _ _ => True) (fun _ _ => True) keptNetwork ∧
      ¬ FailClosed peerLease keptNetwork :=
  ⟨.step (.opened [] (some ethernetRoute) noFailure 0 0 trivial) _ trivial,
    fun h => absurd (h.elements networks_computed.2.1.1) networks_computed.2.1.2⟩

/-- The supervisor keeps the port of Wi-Fi while the link is up for Ethernet. -/
theorem failed_raise_loses_announcement :
    Reached peerLease (fun _ _ => True) (fun _ _ => True) returnedNetwork ∧
      returnedNetwork.up = true ∧ returnedNetwork.told = some 6882 ∧
      peerLease.portOf returnedNetwork.uplink = some 6881 :=
  ⟨.step (.step (.opened [] (some ethernetRoute) noFailure 0 0 trivial) _ trivial) _ trivial,
    networks_computed.2.2⟩

end Preseed.AppVeth
