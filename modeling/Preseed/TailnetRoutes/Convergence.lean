import Preseed.Ipaddress.Networks
import Preseed.TailnetRoutes.Commands

/-!
# Route mirroring converges in one pass

After one call the host has the addresses of the daemon and the wanted private routes, and
another call has nothing left to do.
-/

namespace Preseed.TailnetRoutes

open Effects Ipaddress List

variable {config : Config} {kernel : Kernel} {f g : Family} {w : World} {s : Netkit}

/-! ### One family -/

/-- The addresses of one family that the host shall have. -/
def wantedOf (desired : List Text) (f : Family) : List Text := desired.filter (versionIs f)

/-- The texts of tailnet addresses. -/
def inTailnet (f : Family) (text : Text) : Bool := (ipAddress text).any (contains f.tailnet)

/-- The host has the wanted addresses of a family. -/
structure AddressesDone (desired : List Text) (f : Family) (w : World) : Prop where
  listed : ∀ text ∈ w.addresses f, (ipAddress text).isSome = true
  single : (wantedOf desired f).length ≤ 1
  addresses : ∀ text, text ∈ w.addresses f ∧ inTailnet f text = true ↔ text ∈ wantedOf desired f

/-- The routes of a family with these keys are the host routes. -/
structure RoutesDone (config : Config) (f : Family) (keys : List Key) (source : Option Text)
    (w : World) : Prop where
  distinct : (keys.map Prod.snd).Nodup
  owned : ∀ r ∈ w.routes f, OwnedRecord config f r
  single : (destinations (w.routes f)).Nodup
  sound : ∀ r ∈ w.routes f, r.key ∈ keys ∧ (r.kind = .unicast → r.prefsrc = source)
  complete : ∀ key ∈ keys, ∃ r ∈ w.routes f, r.key = key

/-- A text in the tailnet of its family. -/
def Tailnet (text : Text) : Prop :=
  ∃ a, ipAddress text = some a ∧ contains (family a).tailnet a = true

variable {desired : List Text}

/-- A wanted address is in the tailnet of its family. -/
theorem inTailnet_of_wanted (hdesired : ∀ text ∈ desired, Tailnet text) {text : Text}
    (h : text ∈ wantedOf desired f) : inTailnet f text = true := by
  obtain ⟨hmem, hversion⟩ := mem_filter.mp h
  obtain ⟨a, ha, hcontains⟩ := hdesired text hmem
  unfold versionIs at hversion
  rw [ha, Option.map_some, decide_eq_true_eq, Option.some.injEq] at hversion
  rw [inTailnet, ha, Option.any_some, ← hversion, hcontains]

theorem isSome_of_inTailnet {text : Text} (h : inTailnet f text = true) :
    (ipAddress text).isSome = true := by
  unfold inTailnet at h
  cases ha : ipAddress text with
  | none => simp [ha] at h
  | some a => rfl

theorem ends_mirrorAddresses (hdesired : ∀ text ∈ desired, Tailnet text) :
    Ends s (mirrorAddresses kernel config desired f)
      (fun wanted t => wanted = wantedOf desired f ∧ AddressesDone desired f t.world ∧
        Within f s.world t.world) fun _ _ => True := by
  unfold mirrorAddresses
  refine .bind (ends_objects _ _).anyRaise ?_
  rintro listed t ⟨rfl, rfl⟩
  refine .bind (ends_lift _).anyRaise ?_
  rintro current t₁ ⟨rfl, hcurrent⟩
  dsimp only
  split
  · exact .throw trivial
  rename_i hsingle
  refine .bind (ends_commands _) ?_
  rintro - - rfl
  refine .bind (ends_commands _) ?_
  rintro - - rfl
  unfold tailnetAddresses at hcurrent
  by_cases hlisted : ((t₁.world.addresses f).all fun text => (ipAddress text).isSome) = true
  swap
  · rw [if_neg hlisted] at hcurrent
    cases hcurrent
  rw [if_pos hlisted] at hcurrent
  have hin : ∀ text, text ∈ current ↔ text ∈ t₁.world.addresses f ∧ inTailnet f text = true := by
    intro text
    rw [← Except.ok.inj hcurrent, mem_dedup, mem_filter]
    rfl
  -- The addresses after both loops.
  have hafter : ∀ text, text ∈ ((t₁.world.applyAll config (addCommands f (sortTexts
        ((wantedOf desired f).filter (· ∉ current))))).applyAll config (deleteCommands f
          (sortTexts (current.filter (· ∉ wantedOf desired f))))).addresses f ↔
      (text ∈ t₁.world.addresses f ∨ text ∈ wantedOf desired f ∧ text ∉ current) ∧
        ¬(text ∈ current ∧ text ∉ wantedOf desired f) := by
    intro text
    rw [addresses_deleteCommands, addresses_addCommands]
    simp only [mem_filter, mem_append, mem_sortTexts, decide_eq_true_eq]
  refine .pure ⟨rfl, ⟨fun text htext => ?_, Nat.le_of_not_lt hsingle, fun text => ?_⟩, ?_⟩
  · rcases ((hafter text).mp htext).1 with hold | ⟨hwanted, -⟩
    · exact all_eq_true.mp hlisted text hold
    · exact isSome_of_inTailnet (inTailnet_of_wanted hdesired hwanted)
  · refine (and_congr_left fun _ => hafter text).trans ?_
    constructor
    · rintro ⟨⟨hold | ⟨hwanted, -⟩, hkept⟩, htailnet⟩
      · by_contra hnot
        exact hkept ⟨(hin text).mpr ⟨hold, htailnet⟩, hnot⟩
      · exact hwanted
    · intro hwanted
      refine ⟨⟨?_, fun hkept => hkept.2 hwanted⟩, inTailnet_of_wanted hdesired hwanted⟩
      by_cases hcur : text ∈ current
      · exact .inl ((hin text).mp hcur).1
      · exact .inr ⟨hwanted, hcur⟩
  · refine (within_applyAll fun c hc => ?_).trans (within_applyAll fun c hc => ?_) <;>
    · obtain ⟨address, -, hc⟩ := mem_flatMap.mp hc
      simp only [mem_cons, not_mem_nil, or_false] at hc
      rcases hc with rfl | rfl <;> rfl

theorem routeArguments_owned {key : Key} (source : Option Text)
    (hsupported : key.1.supported = true) :
    OwnedRecord config f (routeArguments config f key source) := by
  unfold routeArguments
  split
  case isTrue hkind => exact ⟨hsupported, rfl, fun h => absurd h hkind, fun _ => ⟨rfl, rfl⟩⟩
  case isFalse => exact ⟨rfl, rfl, fun _ => ⟨rfl, rfl⟩, fun h => absurd rfl h⟩

theorem routeArguments_prefsrc {key : Key} (source : Option Text) (hkind : key.1 = .unicast) :
    (routeArguments config f key source).prefsrc = source := by
  unfold routeArguments
  rw [if_neg (not_not_intro hkind)]

@[simp] theorem routeArguments_key (key : Key) (source : Option Text) :
    (routeArguments config f key source).key = key := by
  simp [Route.key]

/-- Keys of different destinations are told apart by them. -/
theorem key_eq {keys : List Key} (h : (keys.map Prod.snd).Nodup) {key key' : Key}
    (hkey : key ∈ keys) (hkey' : key' ∈ keys) (heq : key.2 = key'.2) : key = key' :=
  inj_on_of_nodup_map h hkey hkey' heq

theorem ends_mirrorRoutes {keys : List Key} {source : Option Text}
    (hsupported : ∀ key ∈ keys, key.1.supported = true) :
    Ends s (mirrorRoutes kernel config keys source f)
      (fun _ t => RoutesDone config f keys source t.world ∧
        t.world.addresses = s.world.addresses ∧ Within f s.world t.world)
      fun _ _ => True := by
  unfold mirrorRoutes
  refine .bind ends_ownedRoutes.anyRaise ?_
  rintro - t ⟨rfl, howned, hnodup, rfl⟩
  dsimp only
  split
  · exact .throw trivial
  rename_i hlength
  have hdistinct : (keys.map Prod.snd).Nodup := by
    rw [not_not] at hlength
    rw [← dedup_eq_self]
    exact (dedup_sublist _).eq_of_length (by rw [hlength, length_map])
  refine .bind (ends_commands _) ?_
  rintro - - rfl
  refine (ends_commands _).mono ?_ fun _ _ => id
  rintro - - rfl
  generalize hreplaced : sortKeys (keys.filter _) = replaced
  generalize hdeleted : sortKeys (List.filter _ _) = deleted
  have hmemReplaced : ∀ key, key ∈ replaced ↔ key ∈ keys ∧
      ((∀ r ∈ t.world.routes f, r.key ≠ key) ∨ ∃ r ∈ t.world.routes f,
        r.kind = .unicast ∧ r.prefsrc ≠ source ∧ r.key = key) := by
    intro key
    rw [← hreplaced, mem_sortKeys]
    simp only [mem_filter, mem_map, decide_eq_true_eq]
    refine and_congr_right fun _ => or_congr ?_ ?_
    · constructor
      · rintro hnot r hr rfl
        exact hnot ⟨_, ⟨r, hr, rfl⟩, rfl⟩
      · rintro hnot ⟨-, ⟨r, hr, rfl⟩, rfl⟩
        exact hnot r hr rfl
    · constructor
      · rintro ⟨-, ⟨⟨r, hr, rfl⟩, hkind, hsource⟩, rfl⟩
        exact ⟨r, hr, hkind, hsource, rfl⟩
      · rintro ⟨r, hr, hkind, hsource, rfl⟩
        exact ⟨_, ⟨⟨r, hr, rfl⟩, hkind, hsource⟩, rfl⟩
  have hmemDeleted : ∀ key, key ∈ deleted ↔ (∃ r ∈ t.world.routes f, r.key = key) ∧
      key.2 ∉ keys.map Prod.snd := by
    intro key
    rw [← hdeleted, mem_sortKeys, mem_filter, map_map]
    simp only [mem_map, decide_eq_true_eq, Function.comp_apply]
  have hdistinctReplaced : (replaced.map Prod.snd).Nodup := by
    rw [← hreplaced, sortKeys, ((mergeSort_perm _ _).map _).nodup_iff]
    exact hdistinct.sublist (filter_sublist.map _)
  -- The routes after both loops.
  have hafter : ∀ r, r ∈ ((t.world.applyAll config (replaceCommands f replaced source)).applyAll
        config (deleted.map (.deleteRoute f))).routes f ↔
      ((r ∈ t.world.routes f ∧ r.destination ∉ replaced.map Prod.snd) ∨
        ∃ key ∈ replaced, r = routeArguments config f key source) ∧ r.key ∉ deleted := by
    intro r
    rw [routes_deleteRoutes, mem_filter, mem_routes_replaceCommands source hdistinctReplaced,
      decide_eq_true_eq]
    rfl
  have hsame : ∀ r ∈ t.world.routes f, ∀ r' ∈ t.world.routes f,
      r.destination = r'.destination → r = r' :=
    fun r hr r' hr' => inj_on_of_nodup_map hnodup hr hr'
  -- A route that is left alone was mirrored before.
  have hkept : ∀ r ∈ t.world.routes f, r.destination ∉ replaced.map Prod.snd → r.key ∉ deleted →
      r.key ∈ keys ∧ (r.kind = .unicast → r.prefsrc = source) := by
    intro r hr hnotReplaced hnotDeleted
    have hdestination : r.destination ∈ keys.map Prod.snd := by
      by_contra hnot
      exact hnotDeleted ((hmemDeleted _).mpr ⟨⟨r, hr, rfl⟩, hnot⟩)
    obtain ⟨key, hkey, hkeydest⟩ := mem_map.mp hdestination
    have hnot : key ∉ replaced := fun hmem =>
      hnotReplaced (mem_map.mpr ⟨key, hmem, hkeydest⟩)
    have hexisting : ∃ r' ∈ t.world.routes f, r'.key = key := by
      by_contra hnone
      exact hnot ((hmemReplaced key).mpr ⟨hkey, .inl fun r' hr' heq => hnone ⟨r', hr', heq⟩⟩)
    obtain ⟨r', hr', rfl⟩ := hexisting
    obtain rfl := hsame r' hr' r hr hkeydest
    refine ⟨hkey, fun hkind => ?_⟩
    by_contra hsource
    exact hnot ((hmemReplaced _).mpr ⟨hkey, .inr ⟨r', hr', hkind, hsource, rfl⟩⟩)
  have hreplacedKeys : ∀ key ∈ replaced, key ∈ keys := fun key hkey =>
    ((hmemReplaced key).mp hkey).1
  refine ⟨⟨hdistinct, fun r hr => ?_, ?_, fun r hr => ?_, fun key hkey => ?_⟩, ?_, ?_⟩
  · rcases ((hafter r).mp hr).1 with ⟨hr, -⟩ | ⟨key, hkey, rfl⟩
    · exact howned r hr
    · exact routeArguments_owned source (hsupported key (hreplacedKeys key hkey))
  · have hlast : (destinations ((t.world.applyAll config
        (replaceCommands f replaced source)).routes f)).Nodup :=
      nodup_replaceCommands source hnodup
    refine hlast.sublist (.map _ ?_)
    change ((t.world.applyAll config (replaceCommands f replaced source)).applyAll config
      (deleted.map (.deleteRoute f))).routes f |>.Sublist _
    rw [routes_deleteRoutes]
    exact filter_sublist
  · obtain ⟨⟨hr, hnotReplaced⟩ | ⟨key, hkey, rfl⟩, hnotDeleted⟩ := (hafter r).mp hr
    · exact hkept r hr hnotReplaced hnotDeleted
    · rw [routeArguments_key, routeArguments_kind]
      exact ⟨hreplacedKeys key hkey, routeArguments_prefsrc source⟩
  · have hnotDeleted : key ∉ deleted := fun hmem =>
      ((hmemDeleted key).mp hmem).2 (mem_map.mpr ⟨key, hkey, rfl⟩)
    by_cases hmem : key ∈ replaced
    · refine ⟨routeArguments config f key source, (hafter _).mpr ⟨.inr ⟨key, hmem, rfl⟩, ?_⟩,
        routeArguments_key key source⟩
      rwa [routeArguments_key]
    · have hexisting : ∃ r ∈ t.world.routes f, r.key = key := by
        by_contra hnone
        exact hmem ((hmemReplaced key).mpr ⟨hkey, .inl fun r hr heq => hnone ⟨r, hr, heq⟩⟩)
      obtain ⟨r, hr, rfl⟩ := hexisting
      refine ⟨r, (hafter r).mpr ⟨.inl ⟨hr, fun hdest => ?_⟩, hnotDeleted⟩, rfl⟩
      obtain ⟨key', hkey', heq⟩ := mem_map.mp hdest
      obtain rfl := key_eq hdistinct (hreplacedKeys key' hkey') hkey heq
      exact hmem hkey'
  · change ((t.world.applyAll config (replaceCommands f replaced source)).applyAll config
      (deleted.map (.deleteRoute f))).addresses = _
    rw [addresses_deleteRoutes, addresses_replaceCommands]
  · refine (within_applyAll fun c hc => ?_).trans (within_applyAll fun c hc => ?_) <;>
    · obtain ⟨key, -, rfl⟩ := mem_map.mp hc
      rfl

/-! ### One call -/

/-- What a call leaves for one family. -/
structure FamilyDone (config : Config) (active : Bool) (desired : List Text) (f : Family)
    (w : World) : Prop where
  addresses : AddressesDone desired f w
  routes : ∃ keys, (if active then
      wantedRoutes config (wantedOf desired f) (w.privateRoutes f) = .ok keys else keys = []) ∧
    RoutesDone config f keys (wantedOf desired f).head? w

variable {active : Bool}

/-- Only its own family matters. -/
theorem FamilyDone.congr {w' : World} (h : FamilyDone config active desired f w)
    (haddresses : w'.addresses f = w.addresses f) (hroutes : w'.routes f = w.routes f)
    (hprivate : w'.privateRoutes = w.privateRoutes) :
    FamilyDone config active desired f w' := by
  obtain ⟨⟨hlisted, hsingle, hmem⟩, keys, hkeys, hdistinct, howned, hnodup, hsound, hcomplete⟩ := h
  rw [← haddresses] at hlisted hmem
  rw [← hroutes] at howned hnodup hsound hcomplete
  rw [← hprivate] at hkeys
  exact ⟨⟨hlisted, hsingle, hmem⟩, keys, hkeys, hdistinct, howned, hnodup, hsound, hcomplete⟩

/-- Wanted keys are supported. -/
theorem supported_of_keys {wanted : List Text} {keys : List Key} {records : List Route}
    (h : if active then wantedRoutes config wanted records = .ok keys
      else keys = []) : ∀ key ∈ keys, key.1.supported = true := by
  intro key hkey
  cases active with
  | true =>
    obtain ⟨r, hr, -, rfl⟩ := ((mem_wantedRoutes h).2 key).mp hkey
    exact (mem_wantedRoutes h).1 r hr
  | false =>
    obtain rfl : keys = [] := h
    cases hkey

theorem ends_mirrorFamily (hdesired : ∀ text ∈ desired, Tailnet text) :
    Ends s (mirrorFamily kernel config active desired f)
      (fun _ t => FamilyDone config active desired f t.world ∧ Within f s.world t.world)
      fun _ _ => True := by
  unfold mirrorFamily
  refine .bind (ends_mirrorAddresses hdesired) ?_
  rintro - t ⟨rfl, haddresses, hwithin⟩
  refine .bind ends_privateKeys.anyRaise ?_
  rintro keys t₁ ⟨rfl, hkeys⟩
  refine .bind (ends_mirrorRoutes (supported_of_keys hkeys)) ?_
  rintro - t₂ ⟨hroutes, hsame, hwithin'⟩
  refine .pure ⟨⟨⟨?_, haddresses.single, ?_⟩, keys, ?_, hroutes⟩, hwithin.trans hwithin'⟩
  · rw [hsame]
    exact haddresses.listed
  · rw [hsame]
    exact haddresses.addresses
  · rw [hwithin'.privateRoutes]
    exact hkeys

/-- Where its work is done, a call changes nothing, and it returns unless a query fails. -/
theorem ends_mirrorFamily_again (h : FamilyDone config active desired f s.world) :
    Ends s (mirrorFamily kernel config active desired f) (fun _ t => t = s)
      fun _ t => t = s ∧ ∃ query, kernel.unreadable s.world query = true := by
  obtain ⟨haddresses, keys₀, hkeys₀, hroutes⟩ := h
  have hcurrent : ∃ current, tailnetAddresses f (s.world.addresses f) = .ok current ∧
      ∀ text, text ∈ current ↔ text ∈ wantedOf desired f := by
    refine ⟨_, if_pos (all_eq_true.mpr haddresses.listed), fun text => ?_⟩
    rw [mem_dedup, mem_filter]
    exact haddresses.addresses text
  obtain ⟨current, hcurrent, hmem⟩ := hcurrent
  unfold mirrorFamily
  have hfirst : Ends s (mirrorAddresses kernel config desired f)
      (fun wanted t => wanted = wantedOf desired f ∧ t = s)
      fun _ t => t = s ∧ ∃ query, kernel.unreadable s.world query = true := by
    unfold mirrorAddresses
    refine .bind ((ends_objects _ _).mono (fun _ _ => id) ?_) ?_
    · rintro e t ⟨rfl, hquery⟩
      exact ⟨rfl, _, hquery⟩
    rintro listed t ⟨rfl, rfl⟩
    refine .bind ((ends_lift _).mono (fun _ _ => id) ?_) ?_
    · rintro e t ⟨rfl, herror⟩
      rw [hcurrent] at herror
      cases herror
    rintro current' t ⟨rfl, hcurrent'⟩
    obtain rfl := Except.ok.inj (hcurrent.symm.trans hcurrent')
    have hsingle : ¬1 < (desired.filter (versionIs f)).length := Nat.not_lt.mpr haddresses.single
    dsimp only
    rw [if_neg hsingle]
    have hadd : (desired.filter (versionIs f)).filter (· ∉ current) = [] := by
      rw [filter_eq_nil_iff]
      intro text htext
      simpa using (hmem text).mpr htext
    have hdelete : current.filter (· ∉ desired.filter (versionIs f)) = [] := by
      rw [filter_eq_nil_iff]
      intro text htext
      simpa [wantedOf] using (hmem text).mp htext
    rw [hadd, hdelete, sortTexts_nil]
    exact .pure ⟨rfl, rfl⟩
  refine .bind hfirst ?_
  rintro wanted t ⟨rfl, rfl⟩
  refine .bind (ends_privateKeys.mono (fun _ _ => id) ?_) ?_
  · rintro e t₁ ⟨rfl, hquery | ⟨rfl, e', herror⟩⟩
    · exact ⟨rfl, _, hquery⟩
    · rw [if_pos rfl, herror] at hkeys₀
      cases hkeys₀
  rintro keys t₁ ⟨rfl, hkeys⟩
  obtain rfl : keys = keys₀ := by
    cases active with
    | true => exact Except.ok.inj (hkeys.symm.trans hkeys₀)
    | false => exact hkeys.trans hkeys₀.symm
  have hnothing : Ends t₁ (mirrorRoutes kernel config keys (wantedOf desired f).head? f)
      (fun _ t => t = t₁) fun _ t => t = t₁ ∧ ∃ query, kernel.unreadable t₁.world query = true := by
    unfold mirrorRoutes
    refine .bind (ends_ownedRoutes.mono (fun _ _ => id) ?_) ?_
    · rintro e t ⟨rfl, hquery | hnot⟩
      · exact ⟨rfl, _, hquery⟩
      · exact absurd ⟨hroutes.owned, hroutes.single⟩ hnot
    rintro existing t ⟨rfl, -, -, rfl⟩
    dsimp only
    have hlength : (keys.map Prod.snd).dedup.length = keys.length := by
      rw [hroutes.distinct.dedup, length_map]
    rw [if_neg (not_not_intro hlength)]
    generalize hreplaced : keys.filter _ = replaced
    generalize hdeleted : List.filter _ _ = deleted
    have hreplaceNil : replaced = [] := by
      rw [← hreplaced, filter_eq_nil_iff]
      intro key hkey
      obtain ⟨r, hr, rfl⟩ := hroutes.complete key hkey
      simp only [mem_map, mem_filter, decide_eq_true_eq, not_or, not_not]
      refine ⟨⟨_, ⟨r, hr, rfl⟩, rfl⟩, ?_⟩
      rintro ⟨-, ⟨⟨r', hr', rfl⟩, hkind, hsource⟩, -⟩
      exact hsource ((hroutes.sound r' hr').2 hkind)
    have hdeleteNil : deleted = [] := by
      rw [← hdeleted, filter_eq_nil_iff]
      intro key hkey
      obtain ⟨entry, hentry, rfl⟩ := mem_map.mp hkey
      obtain ⟨r, hr, rfl⟩ := mem_map.mp hentry
      rw [decide_eq_true_eq, not_not]
      exact mem_map.mpr ⟨r.key, (hroutes.sound r hr).1, rfl⟩
    rw [hreplaceNil, hdeleteNil, sortKeys_nil]
    exact .pure rfl
  refine .bind hnothing ?_
  rintro - t rfl
  exact .pure rfl

/-! ### The daemon's addresses -/

/-- The text of an address is read as the address. -/
theorem ipAddress_text {a : Address} (h : a.Valid) : ipAddress a.text = some a := by
  unfold ipAddress
  cases a with
  | v4 ip =>
    rw [ipv4Address_text h]
    rfl
  | v6 ip scope =>
    rw [ipv4Address_of_colon (Address.colon_mem_text ip scope), ipv6Address_text h]
    rfl

/-- The addresses of the daemon in one family, as texts. -/
def Status.addressesOf (status : Status) (f : Family) : List Text :=
  (((if status.active then status.tailscaleIPs.getD [] else []).filterMap ipAddress).filter
    fun a => family a = f).map Address.text

/-- The accepted addresses of a daemon. -/
theorem desired_ok {status : Status} (h : status.desired = .ok desired) :
    (∀ text ∈ desired, Tailnet text) ∧
      ∀ f text, text ∈ wantedOf desired f ↔ text ∈ status.addressesOf f := by
  unfold Status.desired at h
  unfold Status.addressesOf
  generalize (if status.active then status.tailscaleIPs.getD [] else []) = raws at h ⊢
  dsimp only at h
  split at h
  · cases h
  rename_i hlength
  cases htexts : raws.mapM desiredAddress with
  | error e =>
    rw [htexts] at h
    cases h
  | ok texts =>
    rw [htexts] at h
    cases h
    have hall := mapM_ok htexts
    -- Each accepted text is that of the address it was read from.
    have haddress : ∀ raw text, desiredAddress raw = .ok text → ∃ a, ipAddress raw = some a ∧
        text = a.text ∧ ipAddress text = some a ∧ contains (family a).tailnet a = true := by
      intro raw text hraw
      unfold desiredAddress at hraw
      split at hraw
      · cases hraw
      rename_i a ha
      split at hraw
      · cases hraw
        exact ⟨a, ha, rfl, ipAddress_text (ipAddress_some ha).1, ‹_›⟩
      · cases hraw
    have hmem : ∀ text, text ∈ texts ↔ ∃ raw ∈ raws, ∃ a, ipAddress raw = some a ∧
        a.text = text := by
      intro text
      clear htexts hlength
      induction hall with
      | nil => simp
      | @cons raw text' raws texts hraw _ ih =>
        obtain ⟨a, ha, rfl, -⟩ := haddress raw text' hraw
        rw [mem_cons, ih, exists_mem_cons_iff]
        refine or_congr ⟨fun heq => ⟨a, ha, heq.symm⟩, ?_⟩ Iff.rfl
        rintro ⟨a', ha', rfl⟩
        rw [Option.some.inj (ha.symm.trans ha')]
    have htailnet : ∀ text ∈ texts, Tailnet text := by
      intro text htext
      clear htexts hmem hlength
      induction hall with
      | nil => cases htext
      | @cons raw text' raws texts hraw _ ih =>
        rcases mem_cons.mp htext with rfl | htext
        · obtain ⟨a, -, -, ha⟩ := haddress raw text hraw
          exact ⟨a, ha⟩
        · exact ih htext
    refine ⟨fun text htext => htailnet text (mem_dedup.mp htext), fun f text => ?_⟩
    unfold wantedOf
    rw [mem_filter, mem_dedup, hmem]
    simp only [mem_map, mem_filter, mem_filterMap, decide_eq_true_eq]
    constructor
    · rintro ⟨⟨raw, hraw, a, ha, rfl⟩, hversion⟩
      unfold versionIs at hversion
      rw [ipAddress_text (ipAddress_some ha).1, Option.map_some, decide_eq_true_eq,
        Option.some.injEq] at hversion
      exact ⟨a, ⟨⟨raw, hraw, ha⟩, hversion⟩, rfl⟩
    · rintro ⟨a, ⟨⟨raw, hraw, ha⟩, hversion⟩, rfl⟩
      refine ⟨⟨raw, hraw, a, ha, rfl⟩, ?_⟩
      rw [versionIs, ipAddress_text (ipAddress_some ha).1, Option.map_some, hversion]
      exact decide_eq_true rfl

/-! ### Convergence -/

/-- A private route that the host shall have: any route of a running daemon, but a unicast one
only of the interface, and when the daemon has an address. -/
def Wants (config : Config) (status : Status) (f : Family) (p : Route) : Prop :=
  status.active = true ∧
    (p.kind = .unicast → p.dev = some config.interface ∧ status.addressesOf f ≠ [])

/-- A host route that repeats a private one. -/
structure Repeats (config : Config) (status : Status) (f : Family) (p r : Route) : Prop where
  kind : r.kind = p.kind
  destination : r.destination = p.destination
  protocol : r.protocol = routeProtocol
  /-- A unicast route goes by the peer, with the address of the daemon as its source. -/
  unicast : p.kind = .unicast → r.dev = some config.interface ∧ r.gateway = some f.peer ∧
    ∃ address ∈ status.addressesOf f, r.prefsrc = some address
  other : p.kind ≠ .unicast → truthy r.dev = false ∧ truthy r.gateway = false

/-- The host has the addresses and the routes of the daemon, and no others of them. -/
structure Converged (config : Config) (status : Status) (w : World) : Prop where
  addresses : ∀ f text, text ∈ w.addresses f ∧ inTailnet f text = true ↔
    text ∈ status.addressesOf f
  sound : ∀ f, ∀ r ∈ w.routes f, ∃ p ∈ w.privateRoutes f, Wants config status f p ∧
    Repeats config status f p r
  complete : ∀ f, ∀ p ∈ w.privateRoutes f, Wants config status f p →
    ∃ r ∈ w.routes f, Repeats config status f p r
  single : ∀ f, (destinations (w.routes f)).Nodup

theorem converged_of_done {status : Status}
    (hdesired : ∀ f text, text ∈ wantedOf desired f ↔ text ∈ status.addressesOf f)
    (h : ∀ f, FamilyDone config status.active desired f w) : Converged config status w := by
  have hnil : ∀ f, wantedOf desired f ≠ [] ↔ status.addressesOf f ≠ [] := by
    intro f
    simp only [ne_eq, eq_nil_iff_forall_not_mem, hdesired]
  -- A private route is wanted when its key is, and the source is the daemon's address.
  have hwants : ∀ f p, Wants config status f p ↔
      status.active = true ∧ wantedRoute config (wantedOf desired f) p = true := by
    intro f p
    unfold Wants wantedRoute
    rw [← hnil, decide_eq_true_eq, or_iff_not_imp_left, not_not]
  have hrepeats : ∀ f keys, RoutesDone config f keys (wantedOf desired f).head? w →
      ∀ r ∈ w.routes f, ∀ p, Wants config status f p → p.key = r.key →
        Repeats config status f p r := by
    intro f keys hroutes r hr p hp heq
    obtain ⟨hkind, hdestination⟩ := Prod.mk.inj heq
    refine ⟨hkind.symm, hdestination.symm, (hroutes.owned r hr).protocol, fun hunicast => ?_,
      fun hother => (hroutes.owned r hr).other (hkind ▸ hother)⟩
    have hunicast' : r.kind = .unicast := hkind ▸ hunicast
    obtain ⟨hdev, hgateway⟩ := (hroutes.owned r hr).unicast hunicast'
    obtain ⟨address, rest, hwanted⟩ :=
      exists_cons_of_ne_nil ((hnil f).mpr (hp.2 hunicast).2)
    refine ⟨hdev, hgateway, address, (hdesired f address).mp (by simp [hwanted]), ?_⟩
    rw [(hroutes.sound r hr).2 hunicast', hwanted]
    rfl
  refine ⟨fun f text => ?_, fun f r hr => ?_, fun f p hp hwant => ?_, fun f => ?_⟩
  · rw [← hdesired]
    exact (h f).addresses.addresses text
  · obtain ⟨keys, hkeys, hroutes⟩ := (h f).routes
    have hkey := (hroutes.sound r hr).1
    cases hactive : status.active with
    | false =>
      rw [hactive] at hkeys
      obtain rfl : keys = [] := hkeys
      cases hkey
    | true =>
      rw [hactive] at hkeys
      obtain ⟨p, hp, hwanted, heq⟩ := ((mem_wantedRoutes hkeys).2 _).mp hkey
      have hwant := (hwants f p).mpr ⟨hactive, hwanted⟩
      exact ⟨p, hp, hwant, hrepeats f keys hroutes r hr p hwant heq⟩
  · obtain ⟨keys, hkeys, hroutes⟩ := (h f).routes
    obtain ⟨hactive, hwanted⟩ := (hwants f p).mp hwant
    rw [if_pos hactive] at hkeys
    have hkey : p.key ∈ keys := ((mem_wantedRoutes hkeys).2 _).mpr ⟨p, hp, hwanted, rfl⟩
    obtain ⟨r, hr, heq⟩ := hroutes.complete _ hkey
    exact ⟨r, hr, hrepeats f keys hroutes r hr p hwant heq.symm⟩
  · obtain ⟨keys, -, hroutes⟩ := (h f).routes
    exact hroutes.single

/-- A call that returns leaves the host with the addresses and the routes of the daemon, and the
private routes as they were. The next call runs no command, and returns unless a query fails. -/
theorem mirror_converges {status : Status} {result : List Text × List (Family × Key)}
    {s' : Netkit} (h : mirror kernel config status s = .ok result s') :
    Converged config status s'.world ∧ s'.world.privateRoutes = s.world.privateRoutes ∧
      ∀ later : Kernel, Ends ⟨s'.world, []⟩ (mirror later config status)
        (fun _ t => t = ⟨s'.world, []⟩)
        fun _ t => t = ⟨s'.world, []⟩ ∧ ∃ query, later.unreadable s'.world query = true := by
  have hrun : Ends s (mirror kernel config status) (fun _ t => ∃ desired,
      status.desired = .ok desired ∧ (∀ f, FamilyDone config status.active desired f t.world) ∧
        t.world.privateRoutes = s.world.privateRoutes) fun _ _ => True := by
    unfold mirror
    refine Ends.bind (ends_lift _).anyRaise ?_
    rintro desired t ⟨rfl, hdesired⟩
    have htailnet := (desired_ok hdesired).1
    refine Ends.bind (ends_mirrorFamily htailnet) ?_
    rintro keys4 t₄ ⟨hdone4, hwithin4⟩
    refine Ends.bind (ends_mirrorFamily htailnet) ?_
    rintro keys6 t₆ ⟨hdone6, hwithin6⟩
    refine Ends.pure ⟨desired, hdesired, fun f => ?_,
      hwithin6.privateRoutes.trans hwithin4.privateRoutes⟩
    cases f with
    | inet =>
      exact hdone4.congr (hwithin6.addresses .inet (by decide)) (hwithin6.routes .inet (by decide))
        hwithin6.privateRoutes
    | inet6 => exact hdone6
  obtain ⟨desired, hdesired, hdone, hprivate⟩ := hrun.of_ok h
  refine ⟨converged_of_done (desired_ok hdesired).2 hdone, hprivate, fun later => ?_⟩
  unfold mirror
  refine Ends.bind ((ends_lift _).mono (fun _ _ => id) ?_) ?_
  · rintro e t ⟨rfl, herror⟩
    rw [hdesired] at herror
    cases herror
  rintro desired' t ⟨rfl, hdesired'⟩
  obtain rfl := Except.ok.inj (hdesired.symm.trans hdesired')
  refine Ends.bind (ends_mirrorFamily_again (hdone .inet)) ?_
  rintro keys4 t rfl
  refine Ends.bind (ends_mirrorFamily_again (hdone .inet6)) ?_
  rintro keys6 t rfl
  exact Ends.pure rfl

/-- A host that does not have the default route of the private namespace yet. -/
def freshNetkit : Netkit :=
  ⟨{  addresses := fun _ => []
      routes := fun _ => []
      privateRoutes := fun f => match f with
        | .inet => [⟨.unicast, .default, some ['t'], none, none, []⟩]
        | .inet6 => []
      delivered := fun _ => [] }, []⟩

/-- The daemon is running, with one address. -/
def runningStatus : Status := ⟨some "Running".toList, some ["100.64.0.1".toList]⟩

theorem mirror_converges_fresh :
    ∃ result s', mirror ⟨fun _ _ => false, fun _ _ => false⟩ ⟨['t']⟩ runningStatus freshNetkit =
        .ok result s' ∧
      s'.issued.length = 3 ∧ Converged ⟨['t']⟩ runningStatus s'.world := by
  have hrun : (match mirror ⟨fun _ _ => false, fun _ _ => false⟩ ⟨['t']⟩ runningStatus
        freshNetkit with
      | .ok _ t => decide (t.issued.length = 3)
      | .error _ _ => false) = true := by
    decide +kernel
  cases h : mirror ⟨fun _ _ => false, fun _ _ => false⟩ ⟨['t']⟩ runningStatus freshNetkit with
  | error e s' =>
    rw [h] at hrun
    cases hrun
  | ok result s' =>
    rw [h] at hrun
    exact ⟨result, s', rfl, of_decide_eq_true hrun, (mirror_converges h).1⟩

end Preseed.TailnetRoutes
