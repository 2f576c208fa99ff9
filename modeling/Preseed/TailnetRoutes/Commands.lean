import Preseed.TailnetRoutes.Reading

/-!
# What the commands of a mirror call do

The commands of one family, run one after another: which addresses and which routes the
host has afterwards.
-/

namespace Preseed.TailnetRoutes

open Effects Ipaddress List

variable {config : Config} {kernel : Kernel} {f g : Family} {w : World} {s : Netkit}

/-- The world after commands. -/
def World.applyAll (config : Config) (w : World) (cs : List Command) : World :=
  cs.foldl (World.apply config) w

/-- A command is run, or it raises. -/
theorem ends_ip (c : Command) : Ends s (ip kernel config c)
    (fun _ t => t = ⟨s.world.apply config c, s.issued ++ [c]⟩) fun _ _ => True := by
  refine Ends.get_bind ?_
  cases kernel.refuses s.world c with
  | true => exact Ends.throw trivial
  | false => exact Ends.set rfl

/-- Commands are run in order. -/
theorem ends_commands (cs : List Command) : Ends s (cs.forM (ip kernel config))
    (fun _ t => t = ⟨s.world.applyAll config cs, s.issued ++ cs⟩) fun _ _ => True := by
  refine Ends.forM_done (I := fun done (t : Netkit) =>
    t = ⟨s.world.applyAll config done, s.issued ++ done⟩) ?_ ?_
  · rintro done c rest - t rfl
    refine (ends_ip c).mono ?_ fun _ _ => id
    rintro - t rfl
    simp [World.applyAll]
  · simp [World.applyAll]

/-! ### Frames -/

/-- The family of a command. -/
def Command.family : Command → Family
  | deliver f _ | addAddress f _ | deleteAddress f _ | undeliver f _ | replaceRoute f _ _
  | deleteRoute f _ => f

/-- What a command of one family leaves alone. -/
theorem World.apply_frame (c : Command) (hg : g ≠ c.family) :
    (w.apply config c).addresses g = w.addresses g ∧ (w.apply config c).routes g = w.routes g := by
  cases c <;> constructor <;>
    first
    | rfl
    | exact Function.update_of_ne hg _ _

/-- Commands of one family, which leave the other family and the private routes alone. -/
structure Within (f : Family) (w w' : World) : Prop where
  privateRoutes : w'.privateRoutes = w.privateRoutes
  addresses : ∀ g, g ≠ f → w'.addresses g = w.addresses g
  routes : ∀ g, g ≠ f → w'.routes g = w.routes g

theorem Within.refl : Within f w w := ⟨rfl, fun _ _ => rfl, fun _ _ => rfl⟩

theorem Within.trans {w' w'' : World} (h : Within f w w') (h' : Within f w' w'') :
    Within f w w'' where
  privateRoutes := h'.privateRoutes.trans h.privateRoutes
  addresses g hg := (h'.addresses g hg).trans (h.addresses g hg)
  routes g hg := (h'.routes g hg).trans (h.routes g hg)

theorem within_applyAll {cs : List Command} (h : ∀ c ∈ cs, c.family = f) :
    Within f w (w.applyAll config cs) := by
  induction cs generalizing w with
  | nil => exact .refl
  | cons c cs ih =>
    have hc := h c mem_cons_self
    have hfirst : Within f w (w.apply config c) :=
      ⟨by cases c <;> rfl, fun g hg => (World.apply_frame c (hc ▸ hg)).1,
        fun g hg => (World.apply_frame c (hc ▸ hg)).2⟩
    exact hfirst.trans (ih fun c' hc' => h c' (mem_cons_of_mem _ hc'))

/-! ### Addresses -/

/-- The commands for new addresses. -/
def addCommands (f : Family) (xs : List Text) : List Command :=
  xs.flatMap fun address => [.deliver f address, .addAddress f address]

/-- The commands for old addresses. -/
def deleteCommands (f : Family) (xs : List Text) : List Command :=
  xs.flatMap fun address => [.deleteAddress f address, .undeliver f address]

theorem addresses_addCommands (xs : List Text) :
    (w.applyAll config (addCommands f xs)).addresses f = w.addresses f ++ xs := by
  induction xs generalizing w with
  | nil => simp [World.applyAll, addCommands]
  | cons address xs ih =>
    have hstep : w.applyAll config (addCommands f (address :: xs)) =
        ((w.apply config (.deliver f address)).apply config (.addAddress f address)).applyAll
          config (addCommands f xs) := rfl
    rw [hstep, ih]
    simp [World.apply]

theorem addresses_deleteCommands (xs : List Text) :
    (w.applyAll config (deleteCommands f xs)).addresses f =
      (w.addresses f).filter fun address => address ∉ xs := by
  induction xs generalizing w with
  | nil => simp [World.applyAll, deleteCommands]
  | cons address xs ih =>
    have hstep : w.applyAll config (deleteCommands f (address :: xs)) =
        ((w.apply config (.deleteAddress f address)).apply config
          (.undeliver f address)).applyAll config (deleteCommands f xs) := rfl
    rw [hstep, ih]
    simp [World.apply, filter_filter, Bool.and_comm]

/-! ### Routes -/

/-- The commands that replace routes. -/
def replaceCommands (f : Family) (keys : List Key) (source : Option Text) : List Command :=
  keys.map fun key => .replaceRoute f key source

theorem addresses_replaceCommands (keys : List Key) (source : Option Text) :
    (w.applyAll config (replaceCommands f keys source)).addresses = w.addresses := by
  induction keys generalizing w with
  | nil => rfl
  | cons key keys ih => exact ih

theorem addresses_deleteRoutes (keys : List Key) :
    (w.applyAll config (keys.map (.deleteRoute f))).addresses = w.addresses := by
  induction keys generalizing w with
  | nil => rfl
  | cons key keys ih => exact ih

@[simp] theorem routeArguments_destination (key : Key) (source : Option Text) :
    (routeArguments config f key source).destination = key.2 := by
  unfold routeArguments
  split <;> rfl

@[simp] theorem routeArguments_kind (key : Key) (source : Option Text) :
    (routeArguments config f key source).kind = key.1 := by
  unfold routeArguments
  split
  case isTrue => rfl
  case isFalse h => exact (not_not.mp h).symm

/-- The routes after replacing those of some destinations. -/
theorem mem_routes_replaceCommands {keys : List Key} (source : Option Text)
    (hkeys : (keys.map Prod.snd).Nodup) {r : Route} :
    r ∈ (w.applyAll config (replaceCommands f keys source)).routes f ↔
      (r ∈ w.routes f ∧ r.destination ∉ keys.map Prod.snd) ∨
        ∃ key ∈ keys, r = routeArguments config f key source := by
  induction keys generalizing w with
  | nil => simp [World.applyAll, replaceCommands]
  | cons key keys ih =>
    rw [map_cons, nodup_cons] at hkeys
    have hstep : w.applyAll config (replaceCommands f (key :: keys) source) =
        (w.apply config (.replaceRoute f key source)).applyAll config
          (replaceCommands f keys source) := rfl
    have hmem : r ∈ (w.apply config (.replaceRoute f key source)).routes f ↔
        (r ∈ w.routes f ∧ r.destination ≠ key.2) ∨ r = routeArguments config f key source := by
      simp [World.apply]
    rw [hstep, ih hkeys.2, hmem, map_cons, mem_cons, not_or, exists_mem_cons_iff]
    constructor
    · rintro (⟨⟨hr, hne⟩ | rfl, hnot⟩ | hlater)
      · exact .inl ⟨hr, hne, hnot⟩
      · exact .inr (.inl rfl)
      · exact .inr (.inr hlater)
    · rintro (⟨hr, hne, hnot⟩ | rfl | hlater)
      · exact .inl ⟨.inl ⟨hr, hne⟩, hnot⟩
      · exact .inl ⟨.inr rfl, by simpa using hkeys.1⟩
      · exact .inr hlater

/-- Replacing keeps one route for a destination. -/
theorem nodup_replaceCommands {keys : List Key} (source : Option Text)
    (h : (destinations (w.routes f)).Nodup) :
    (destinations ((w.applyAll config (replaceCommands f keys source)).routes f)).Nodup := by
  induction keys generalizing w with
  | nil => exact h
  | cons key keys ih =>
    refine ih ?_
    have hroutes : (w.apply config (.replaceRoute f key source)).routes f =
        (w.routes f).filter (fun r => r.destination ≠ key.2) ++
          [routeArguments config f key source] := by
      simp [World.apply]
    rw [hroutes, destinations, map_append, nodup_append]
    refine ⟨h.sublist (filter_sublist.map _), nodup_singleton _, ?_⟩
    intro d hd d' hd'
    obtain ⟨r, hr, rfl⟩ := mem_map.mp hd
    simp only [map_cons, map_nil, routeArguments_destination, mem_singleton] at hd'
    rw [hd']
    simpa using (mem_filter.mp hr).2

/-- The routes after deleting some. -/
theorem routes_deleteRoutes (keys : List Key) :
    (w.applyAll config (keys.map (.deleteRoute f))).routes f =
      (w.routes f).filter fun r => (r.kind, r.destination) ∉ keys := by
  induction keys generalizing w with
  | nil => simp [World.applyAll]
  | cons key keys ih =>
    have hstep : w.applyAll config ((key :: keys).map (.deleteRoute f)) =
        (w.apply config (.deleteRoute f key)).applyAll config (keys.map (.deleteRoute f)) := rfl
    rw [hstep, ih]
    simp [World.apply, filter_filter, Bool.and_comm]

end Preseed.TailnetRoutes
