import Preseed.TailnetRoutes.Mirror

/-!
# What a mirror call reads

The specifications of its queries: what `owned_routes` accepts, and the keys of the wanted
private routes.
-/

namespace Preseed.TailnetRoutes

open Effects Ipaddress List

variable {config : Config} {kernel : Kernel} {f : Family} {s : Netkit}

/-- The destinations of a table. -/
def destinations (routes : List Route) : List Destination := routes.map Route.destination

/-- What a loop that may raise returns, when it returns. -/
theorem mapM_ok {α β ε : Type} {body : α → Except ε β} {xs : List α} {ys : List β}
    (h : xs.mapM body = .ok ys) : List.Forall₂ (fun x y => body x = .ok y) xs ys := by
  induction xs generalizing ys with
  | nil =>
    cases h
    exact .nil
  | cons x xs ih =>
    rw [mapM_cons] at h
    cases hx : body x with
    | error e =>
      rw [hx] at h
      cases h
    | ok y =>
      rw [hx] at h
      cases hxs : xs.mapM body with
      | error e =>
        rw [hxs] at h
        cases h
      | ok rest =>
        rw [hxs] at h
        cases h
        exact .cons hx (ih hxs)

/-- A record that `owned_routes` accepts by itself. -/
structure OwnedRecord (config : Config) (f : Family) (r : Route) : Prop where
  supported : r.kind.supported = true
  protocol : r.protocol = routeProtocol
  unicast : r.kind = .unicast → r.dev = some config.interface ∧ r.gateway = some f.peer
  other : r.kind ≠ .unicast → truthy r.dev = false ∧ truthy r.gateway = false

/-- The key of a route. -/
def Route.key (r : Route) : Key := (r.kind, r.destination)

theorem owned_ok {before after : List (Key × Route)} {r : Route} :
    owned config f before r = .ok after ↔ OwnedRecord config f r ∧
      (∀ old ∈ before, old.1.2 ≠ r.destination) ∧ after = before ++ [(r.key, r)] := by
  unfold owned routeKey
  by_cases hsupported : r.kind.supported = true
  · rw [if_pos hsupported]
    change (if _ then _ else _) = _ ↔ _
    constructor
    · intro h
      split at h
      · cases h
      rename_i hok
      simp only [not_or, not_and_or, ne_eq, not_not, any_eq_true, decide_eq_true_eq,
        not_exists] at hok
      obtain ⟨hprotocol, hbefore, hunicast, hother⟩ := hok
      cases h
      refine ⟨⟨hsupported, hprotocol, fun hk => ?_, fun hk => ?_⟩, ?_, rfl⟩
      · exact hunicast.resolve_left (not_not_intro hk)
      · simpa using hother.resolve_left hk
      · intro old hold heq
        have hnot : old ∉ before := by simpa [heq] using hbefore old
        exact hnot hold
    · rintro ⟨hrecord, hbefore, rfl⟩
      rw [if_neg]
      · rfl
      rintro (hprotocol | hany | ⟨hk, hdev | hgateway⟩ | ⟨hk, hdev | hgateway⟩)
      · exact hprotocol hrecord.protocol
      · obtain ⟨old, hold, heq⟩ := any_eq_true.mp hany
        exact hbefore old hold (of_decide_eq_true heq)
      · exact hdev (hrecord.unicast hk).1
      · exact hgateway (hrecord.unicast hk).2
      · simp [(hrecord.other hk).1] at hdev
      · simp [(hrecord.other hk).2] at hgateway
  · rw [if_neg hsupported]
    constructor
    · intro h
      cases h
    · exact fun h => absurd h.1.supported hsupported

/-- What `owned_routes` accepts, after some records. -/
theorem foldlM_owned_ok {records : List Route} {before result : List (Key × Route)} :
    records.foldlM (owned config f) before = .ok result ↔
      (∀ r ∈ records, OwnedRecord config f r) ∧ (destinations records).Nodup ∧
        (∀ old ∈ before, ∀ r ∈ records, old.1.2 ≠ r.destination) ∧
        result = before ++ records.map fun r => (r.key, r) := by
  induction records generalizing before with
  | nil =>
    simp only [foldlM_nil, map_nil, append_nil, destinations]
    constructor
    · intro h
      cases h
      simp
    · rintro ⟨-, -, -, rfl⟩
      rfl
  | cons r records ih =>
    rw [foldlM_cons]
    constructor
    · intro h
      cases hr : owned config f before r with
      | error e =>
        rw [hr] at h
        cases h
      | ok after =>
        rw [hr] at h
        obtain ⟨hrecord, hbefore, rfl⟩ := owned_ok.mp hr
        obtain ⟨hrecords, hnodup, hafter, rfl⟩ := ih.mp h
        refine ⟨forall_mem_cons.mpr ⟨hrecord, hrecords⟩, ?_, fun old hold => ?_, by simp⟩
        · refine nodup_cons.mpr ⟨fun hmem => ?_, hnodup⟩
          obtain ⟨r', hr', heq⟩ := mem_map.mp hmem
          exact hafter (r.key, r) (by simp) r' hr' heq.symm
        · exact forall_mem_cons.mpr
            ⟨hbefore old hold, hafter old (mem_append_left _ hold)⟩
    · rintro ⟨hrecords, hnodup, hbefore, rfl⟩
      rw [forall_mem_cons] at hrecords
      have hnodup' := nodup_cons.mp hnodup
      have hr : owned config f before r = .ok (before ++ [(r.key, r)]) :=
        owned_ok.mpr ⟨hrecords.1, fun old hold => hbefore old hold r mem_cons_self, rfl⟩
      rw [hr]
      refine ih.mpr ⟨hrecords.2, hnodup'.2, fun old hold r' hr' => ?_, by simp⟩
      rcases mem_append.mp hold with hold | hold
      · exact hbefore old hold r' (mem_cons_of_mem _ hr')
      · rw [mem_singleton] at hold
        subst hold
        intro heq
        exact hnodup'.1 (mem_map.mpr ⟨r', hr', heq.symm⟩)

/-- What `owned_routes` accepts. -/
theorem owned_routes_ok {records : List Route} {result : List (Key × Route)} :
    records.foldlM (owned config f) [] = .ok result ↔
      (∀ r ∈ records, OwnedRecord config f r) ∧ (destinations records).Nodup ∧
        result = records.map fun r => (r.key, r) := by
  rw [foldlM_owned_ok]
  simp

/-- The keys of the wanted private routes. -/
theorem mem_wantedRoutes {wanted : List Text} {records : List Route} {keys : List Key}
    (h : wantedRoutes config wanted records = .ok keys) :
    (∀ r ∈ records, r.kind.supported = true) ∧ ∀ key, key ∈ keys ↔
      ∃ r ∈ records, wantedRoute config wanted r = true ∧ r.key = key := by
  unfold wantedRoutes at h
  cases hkeys : records.mapM routeKey with
  | error e =>
    rw [hkeys] at h
    cases h
  | ok all =>
    rw [hkeys] at h
    cases h
    have hall := mapM_ok hkeys
    have hzip : records.zip all = records.map (fun r => (r, r.key)) ∧
        ∀ r ∈ records, r.kind.supported = true := by
      clear hkeys
      induction hall with
      | nil => exact ⟨rfl, by simp⟩
      | cons hx _ ih =>
        unfold routeKey at hx
        split at hx
        · cases hx
          exact ⟨by rw [zip_cons_cons, ih.1]; rfl,
            forall_mem_cons.mpr ⟨‹_›, ih.2⟩⟩
        · cases hx
    refine ⟨hzip.2, fun key => ?_⟩
    rw [hzip.1, mem_dedup]
    simp only [mem_map, mem_filter]
    constructor
    · rintro ⟨entry, ⟨⟨r, hr, rfl⟩, hwanted⟩, rfl⟩
      exact ⟨r, hr, hwanted, rfl⟩
    · rintro ⟨r, hr, hwanted, rfl⟩
      exact ⟨(r, r.key), ⟨⟨r, hr, rfl⟩, hwanted⟩, rfl⟩

theorem mem_sortTexts {texts : List Text} {text : Text} : text ∈ sortTexts texts ↔ text ∈ texts :=
  mem_mergeSort

theorem sortTexts_nil : sortTexts [] = [] := by simp [sortTexts]

theorem sortKeys_nil : sortKeys [] = [] := by simp [sortKeys]

theorem mem_sortKeys {keys : List Key} {key : Key} : key ∈ sortKeys keys ↔ key ∈ keys :=
  mem_mergeSort

theorem ends_objects {α : Type} (query : Query) (answer : World → α) :
    Ends s (objects kernel query answer) (fun a t => t = s ∧ a = answer s.world)
      fun _ t => t = s ∧ kernel.unreadable s.world query = true := by
  refine .get_bind ?_
  by_cases hquery : kernel.unreadable s.world query = true
  · rw [if_pos hquery]
    exact .throw ⟨rfl, hquery⟩
  · rw [if_neg hquery]
    exact .pure ⟨rfl, rfl⟩

theorem ends_lift {α : Type} (x : Except String α) :
    Ends s (lift x) (fun a t => t = s ∧ x = .ok a) fun e t => t = s ∧ x = .error e := by
  cases x with
  | error e => exact .throw ⟨rfl, rfl⟩
  | ok a => exact .pure ⟨rfl, rfl⟩

theorem ends_privateKeys {active : Bool} {wanted : List Text} :
    Ends s (privateKeys kernel config active wanted f)
      (fun keys t => t = s ∧ if active then
        wantedRoutes config wanted (s.world.privateRoutes f) = .ok keys else keys = [])
      fun _ t => t = s ∧ (kernel.unreadable s.world (.privateRoutes f) = true ∨
        active = true ∧ ∃ e, wantedRoutes config wanted (s.world.privateRoutes f) = .error e) := by
  unfold privateKeys
  cases active with
  | false => exact .pure ⟨rfl, rfl⟩
  | true =>
    refine .bind ((ends_objects _ _).mono (fun _ _ => id) ?_) ?_
    · rintro e t ⟨rfl, hquery⟩
      exact ⟨rfl, .inl hquery⟩
    · rintro records t ⟨rfl, rfl⟩
      refine (ends_lift _).mono ?_ ?_
      · rintro keys t ⟨rfl, hkeys⟩
        exact ⟨rfl, hkeys⟩
      · rintro e t ⟨rfl, herror⟩
        exact ⟨rfl, .inr ⟨rfl, e, herror⟩⟩

theorem ends_ownedRoutes :
    Ends s (ownedRoutes kernel config f) (fun existing t => t = s ∧
        (∀ r ∈ s.world.routes f, OwnedRecord config f r) ∧
        (destinations (s.world.routes f)).Nodup ∧
        existing = (s.world.routes f).map fun r => (r.key, r))
      fun _ t => t = s ∧ (kernel.unreadable s.world (.routes f) = true ∨
        ¬((∀ r ∈ s.world.routes f, OwnedRecord config f r) ∧
          (destinations (s.world.routes f)).Nodup)) := by
  unfold ownedRoutes
  refine .bind ((ends_objects _ _).mono (fun _ _ => id) ?_) ?_
  · rintro e t ⟨rfl, hquery⟩
    exact ⟨rfl, .inl hquery⟩
  · rintro records t ⟨rfl, rfl⟩
    refine (ends_lift _).mono ?_ ?_
    · rintro existing t ⟨rfl, hexisting⟩
      exact ⟨rfl, owned_routes_ok.mp hexisting⟩
    · rintro e t ⟨rfl, herror⟩
      refine ⟨rfl, .inr fun hok => ?_⟩
      rw [owned_routes_ok.mpr ⟨hok.1, hok.2, rfl⟩] at herror
      cases herror

end Preseed.TailnetRoutes
