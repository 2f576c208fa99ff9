import Mathlib.Data.List.Sort
import Preseed.Nftables.References

/-!
# Constants of groups

The names that `build_define_maps` gives to the groups of a policy, the file of
definitions, and the constants which rendered rules use. A constant is defined once,
with the values of its group, exactly if no other defined group of its category has
the same `safe_ident`.
-/

namespace Preseed.Nftables

open Preseed.Networks

open List hiding set

/-! ## Names -/

/-- `re.sub(r"_+", "_", …)`. -/
def squeeze : List Char → List Char
  | [] => []
  | char :: rest =>
      if char == '_' && rest.head? == some '_' then squeeze rest else char :: squeeze rest

/-- `.strip("_")`. -/
def stripUnderscores (chars : List Char) : List Char :=
  ((chars.dropWhile (· == '_')).reverse.dropWhile (· == '_')).reverse

/-- `safe_ident`. Blanks at the ends become underscores, which are stripped as well. -/
def safeIdent (name : String) : Option String :=
  let chars := name.toList.map fun char => if char.isAlphanum || char == '_' then char else '_'
  match stripUnderscores (squeeze chars) with
  | [] => none
  | first :: rest =>
      let ident := if first.isDigit then 'n' :: '_' :: first :: rest else first :: rest
      some (String.ofList (ident.map Char.toLower))

/-- The keys of the define maps. -/
inductive Category
  | interfaces | cidr4 | cidr6 | ports
  deriving DecidableEq

def Category.all : List Category := [interfaces, cidr4, cidr6, ports]

def Category.stem : Category → String
  | interfaces => "if_"
  | cidr4 => "ipv4_"
  | cidr6 => "ipv6_"
  | ports => "ports_"

/-- The values of a constant. -/
inductive Values
  | names (values : List String)
  | networks (values : List Network)
  | ports (values : List Ports)
  deriving DecidableEq

def Values.isEmpty : Values → Bool
  | names values => values.isEmpty
  | networks values => values.isEmpty
  | ports values => values.isEmpty

/-! ## Definitions -/

/-- The groups of a category that have items in the define maps, with their values. -/
def Groups.sources (groups : Groups) : Category → List (String × Values)
  | .interfaces => (groups.interfaces.filter fun group => !group.2.isEmpty).map fun group =>
      (group.1, .names (exactNames group.2))
  | .cidr4 => (groups.cidrs.filter fun group => !(parseNetworks .v4 group.2).isEmpty).map
      fun group => (group.1, .networks (parseNetworks .v4 group.2))
  | .cidr6 => (groups.cidrs.filter fun group => !(parseNetworks .v6 group.2).isEmpty).map
      fun group => (group.1, .networks (parseNetworks .v6 group.2))
  | .ports => (groups.ports.filter fun group => !group.2.isEmpty).map fun group =>
      (group.1, .ports (uniquePreserve group.2))

/-- An item of the define maps. -/
structure Item where
  group : String
  define : String
  values : Values

def buildItem (category : Category) (source : String × Values) : Option Item :=
  (safeIdent source.1).map fun ident => ⟨source.1, category.stem ++ ident, source.2⟩

/-- `build_define_maps`. -/
def buildDefineMaps (groups : Groups) : Option (Category → List Item) := do
  let interfaces ← (groups.sources .interfaces).mapM (buildItem .interfaces)
  let cidr4 ← (groups.sources .cidr4).mapM (buildItem .cidr4)
  let cidr6 ← (groups.sources .cidr6).mapM (buildItem .cidr6)
  let ports ← (groups.sources .ports).mapM (buildItem .ports)
  return fun
    | .interfaces => interfaces
    | .cidr4 => cidr4
    | .cidr6 => cidr6
    | .ports => ports

/-- A line `define NAME = SET`. -/
structure Definition where
  name : String
  values : Values
  deriving DecidableEq

/-- Groups of interfaces without exact names are not defined. -/
def isDefined (category : Category) (values : Values) : Bool :=
  category != .interfaces || !values.isEmpty

/-- The lines of one category. -/
def renderCategory (category : Category) (items : List Item) : List Definition :=
  ((items.insertionSort fun left right => left.group ≤ right.group).filter fun item =>
    isDefined category item.values).map fun item => ⟨item.define, item.values⟩

/-- `render_defines`. -/
def renderDefines (maps : Category → List Item) : List Definition :=
  Category.all.flatMap fun category => renderCategory category (maps category)

/-! ## Rendered files -/

/-- The fragments with constants. -/
structure Rendered where
  defines : List Definition
  filter : Filter
  output : List Rule
  forward : List Rule
  nat : NatTable

/-- `render_all`, for these fragments. -/
def renderAll (policy : Policy) : Option Rendered := do
  let maps ← buildDefineMaps policy.groups
  let filter ← renderFilter policy
  let output ← renderOutput policy filter.guards
  let forward ← renderForward policy
  let nat ← renderNat policy
  return ⟨renderDefines maps, filter, output, forward, nat⟩

/-- `$NAME`, for a group. -/
structure Reference where
  category : Category
  group : String
  deriving DecidableEq

def InterfaceSet.references : InterfaceSet → List Reference
  | group name _ => [⟨.interfaces, name⟩]
  | direct _ | wildcard _ => []

def familyCategory : Version → Category
  | .v4 => .cidr4
  | .v6 => .cidr6

def AddressMatch.references (addresses : AddressMatch) : List Reference :=
  match addresses.set with
  | .group name _ => [⟨familyCategory addresses.version, name⟩]
  | .direct _ => []

def Match.references : Match → List Reference
  | iifname set | oifname set => set.references
  | address addresses => addresses.references
  | _ => []

/-- The conditions of all rules. -/
def Rendered.conditions (rendered : Rendered) : List Match :=
  (rendered.filter.input ++ rendered.filter.guards.flatMap Guard.rules ++ rendered.output ++
    rendered.forward).flatMap Rule.conditions ++
    (rendered.nat.postrouting ++ rendered.nat.prerouting).flatMap NatRule.conditions

/-- The constants in the filter and address translation fragments. -/
def Rendered.references (rendered : Rendered) : List Reference :=
  rendered.conditions.flatMap Match.references

/-- The groups of a category which the file of definitions defines, with their values. -/
def Groups.defined (groups : Groups) (category : Category) : List (String × Values) :=
  (groups.sources category).filter fun source => isDefined category source.2

/-- A constant is defined exactly once, with the values of its group. -/
def Resolves (groups : Groups) (defines : List Definition) (reference : Reference) : Prop :=
  ∃ ident values, safeIdent reference.group = some ident ∧
    (reference.group, values) ∈ groups.defined reference.category ∧
    defines.filter (·.name = reference.category.stem ++ ident) =
      [⟨reference.category.stem ++ ident, values⟩]

/-! ## One definition for a constant -/

/-- Only one item of a list without repetitions satisfies a test. -/
theorem filter_eq_singleton {α : Type} {items : List α} (hnodup : items.Nodup) {test : α → Bool}
    {item : α} (hmem : item ∈ items) (htest : test item = true) :
    items.filter test = [item] ↔ ∀ other ∈ items, test other = true → other = item := by
  constructor
  · intro h other hother hpass
    have hin : other ∈ items.filter test := mem_filter.mpr ⟨hother, hpass⟩
    rw [h] at hin
    exact mem_singleton.mp hin
  · intro h
    have hitem : item ∈ items.filter test := mem_filter.mpr ⟨hmem, htest⟩
    have hall : ∀ other ∈ items.filter test, other = item := by
      intro other hother
      obtain ⟨hin, hpass⟩ := mem_filter.mp hother
      exact h other hin hpass
    have hdistinct := hnodup.filter test
    cases hfilter : items.filter test with
    | nil =>
      rw [hfilter] at hitem
      cases hitem
    | cons first rest =>
      rw [hfilter] at hall hdistinct
      have hfirst := hall first (mem_cons_self ..)
      cases rest with
      | nil => rw [hfirst]
      | cons second rest =>
        have hsecond := hall second (by simp)
        rw [hfirst, hsecond] at hdistinct
        simp at hdistinct

/-- Constants of different categories have different names. -/
theorem stem_inj {left right : Category} {first second : String}
    (h : left.stem ++ first = right.stem ++ second) : left = right ∧ first = second := by
  have hlist := congrArg String.toList h
  simp only [String.toList_append] at hlist
  have hsame : left = right := by
    cases left <;> cases right <;> first | rfl | simp [Category.stem] at hlist
  refine ⟨hsame, ?_⟩
  subst hsame
  exact String.toList_inj.mp (append_cancel_left hlist)

variable {groups : Groups}

theorem sources_nodup (groups : Groups) (category : Category) :
    ((groups.sources category).map Prod.fst).Nodup := by
  cases category with
  | interfaces =>
    rw [Groups.sources, map_map]
    exact groups.interfaces_nodup.sublist (filter_sublist.map _)
  | cidr4 =>
    rw [Groups.sources, map_map]
    exact groups.cidrs_nodup.sublist (filter_sublist.map _)
  | cidr6 =>
    rw [Groups.sources, map_map]
    exact groups.cidrs_nodup.sublist (filter_sublist.map _)
  | ports =>
    rw [Groups.sources, map_map]
    exact groups.ports_nodup.sublist (filter_sublist.map _)

theorem defined_nodup (groups : Groups) (category : Category) :
    (groups.defined category).Nodup :=
  (sources_nodup groups category).of_map.filter _

/-- A group has one list of values. -/
theorem defined_eq {category : Category} {left right : String × Values}
    (hleft : left ∈ groups.defined category) (hright : right ∈ groups.defined category)
    (h : left.1 = right.1) : left = right :=
  inj_on_of_nodup_map (sources_nodup groups category) (mem_filter.mp hleft).1
    (mem_filter.mp hright).1 h

variable {maps : Category → List Item}

theorem buildDefineMaps_eq_some (h : buildDefineMaps groups = some maps) (category : Category) :
    (groups.sources category).mapM (buildItem category) = some (maps category) := by
  simp only [buildDefineMaps, Option.bind_eq_bind, Option.bind_eq_some_iff] at h
  obtain ⟨interfaces, hinterfaces, cidr4, hcidr4, cidr6, hcidr6, ports, hports, h⟩ := h
  cases h
  cases category with
  | interfaces => exact hinterfaces
  | cidr4 => exact hcidr4
  | cidr6 => exact hcidr6
  | ports => exact hports

/-- The name of the constant of a group. -/
def defineName (category : Category) (group : String) : String :=
  category.stem ++ (safeIdent group).getD ""

theorem mapM_buildItem {category : Category} {sources : List (String × Values)}
    {items : List Item} (h : sources.mapM (buildItem category) = some items) :
    items = sources.map (fun source => ⟨source.1, defineName category source.1, source.2⟩) ∧
      ∀ source ∈ sources, (safeIdent source.1).isSome := by
  induction sources generalizing items with
  | nil =>
    obtain rfl : items = [] := by simpa using h.symm
    exact ⟨rfl, fun _ h => nomatch h⟩
  | cons source sources ih =>
    simp only [mapM_cons, Option.bind_eq_bind, Option.bind_eq_some_iff] at h
    obtain ⟨item, hitem, rest, hrest, h⟩ := h
    cases h
    obtain ⟨ident, hident, rfl⟩ := Option.map_eq_some_iff.mp hitem
    obtain ⟨rfl, hsome⟩ := ih hrest
    refine ⟨?_, forall_mem_cons.mpr ⟨by rw [hident]; rfl, hsome⟩⟩
    rw [map_cons, defineName, hident]
    rfl

section

variable (h : buildDefineMaps groups = some maps)
include h

/-- The lines of a category, up to their order. -/
theorem renderCategory_perm (category : Category) :
    (renderCategory category (maps category)).Perm ((groups.defined category).map
      fun source => ⟨defineName category source.1, source.2⟩) := by
  rw [(mapM_buildItem (buildDefineMaps_eq_some h category)).1]
  refine (((perm_insertionSort _ _).filter _).map _).trans ?_
  rw [filter_map, map_map]
  exact List.Perm.refl _

/-- Among the definitions, only those of its own category have the name of a constant. -/
theorem filter_renderDefines (category : Category)
    (ident : String) :
    (renderDefines maps).filter (·.name = category.stem ++ ident) =
      (renderCategory category (maps category)).filter (·.name = category.stem ++ ident) := by
  have hother : ∀ other, other ≠ category →
      (renderCategory other (maps other)).filter (·.name = category.stem ++ ident) = [] := by
    intro other hne
    rw [filter_eq_nil_iff]
    intro line hline
    have hmem := (renderCategory_perm h other).mem_iff.mp hline
    obtain ⟨source, -, rfl⟩ := mem_map.mp hmem
    simp only [decide_eq_true_eq]
    exact fun heq => hne (stem_inj heq).1
  unfold renderDefines
  rw [filter_flatMap]
  cases category <;>
    simp only [Category.all, flatMap_cons, flatMap_nil, append_nil,
      hother .interfaces, hother .cidr4, hother .cidr6, hother .ports, ne_eq, reduceCtorEq,
      not_false_eq_true, nil_append]

/-- The definitions with the name of one constant, up to their order. -/
theorem filter_renderDefines_perm (category : Category)
    (ident : String) :
    ((renderDefines maps).filter (·.name = category.stem ++ ident)).Perm
      (((groups.defined category).filter fun source => safeIdent source.1 = some ident).map
        fun source => ⟨category.stem ++ ident, source.2⟩) := by
  have hsome : ∀ source ∈ groups.defined category, (safeIdent source.1).isSome :=
    fun source hsource => (mapM_buildItem (buildDefineMaps_eq_some h category)).2 source
      (mem_filter.mp hsource).1
  rw [filter_renderDefines h]
  refine ((renderCategory_perm h category).filter _).trans ?_
  rw [filter_map]
  have htest : ∀ source ∈ groups.defined category,
      defineName category source.1 = category.stem ++ ident ↔ safeIdent source.1 = some ident := by
    intro source hsource
    obtain ⟨found, hfound⟩ := Option.isSome_iff_exists.mp (hsome source hsource)
    rw [defineName, hfound, Option.getD_some]
    constructor
    · exact fun heq => congrArg some (stem_inj heq).2
    · exact fun heq => by rw [Option.some.inj heq]
  have hfilter : (groups.defined category).filter
      ((fun line : Definition => decide (line.name = category.stem ++ ident)) ∘
        fun source : String × Values => ⟨defineName category source.1, source.2⟩) =
      (groups.defined category).filter fun source => safeIdent source.1 = some ident :=
    filter_congr fun source hsource => by simp [htest source hsource]
  rw [hfilter]
  refine List.Perm.of_eq (map_congr_left fun source hsource => ?_)
  obtain ⟨hmem, hident⟩ := mem_filter.mp hsource
  rw [(htest source hmem).mpr (of_decide_eq_true hident)]

/-- A constant of a defined group is defined once, with the values of the group, exactly
if no other group of the category has its identifier. -/
theorem resolves_iff {reference : Reference}
    {values : Values} (hmem : (reference.group, values) ∈ groups.defined reference.category) :
    Resolves groups (renderDefines maps) reference ↔
      ∀ other ∈ groups.defined reference.category,
        safeIdent other.1 = safeIdent reference.group → other.1 = reference.group := by
  obtain ⟨ident, hident⟩ := Option.isSome_iff_exists.mp
    ((mapM_buildItem (buildDefineMaps_eq_some h reference.category)).2 _
      (mem_filter.mp hmem).1)
  change safeIdent reference.group = some ident at hident
  have hperm := filter_renderDefines_perm h reference.category ident
  have hsingle : (groups.defined reference.category).filter
      (fun source => safeIdent source.1 = some ident) = [(reference.group, values)] ↔ _ :=
    filter_eq_singleton (defined_nodup groups reference.category) hmem (by simpa using hident)
  constructor
  · rintro ⟨found, others, hfound, hothers, hfilter⟩ other hother hsame
    obtain rfl := Option.some.inj (hident.symm.trans hfound)
    rw [hfilter] at hperm
    have hlength := hperm.length_eq
    rw [length_singleton, length_map] at hlength
    obtain ⟨only, honly⟩ := length_eq_one_iff.mp hlength.symm
    have hin : ∀ source ∈ groups.defined reference.category,
        safeIdent source.1 = some ident → source = only := by
      intro source hsource hpass
      have hfiltered : source ∈ (groups.defined reference.category).filter
          fun source => safeIdent source.1 = some ident :=
        mem_filter.mpr ⟨hsource, decide_eq_true hpass⟩
      rw [honly] at hfiltered
      exact mem_singleton.mp hfiltered
    rw [hin other hother (hsame.trans hident), ← hin _ hmem hident]
  · intro hunique
    refine ⟨ident, values, hident, hmem, ?_⟩
    have hfilter := hsingle.mpr fun other hother hpass =>
      defined_eq hother hmem (hunique other hother
        ((of_decide_eq_true hpass).trans hident.symm))
    rw [hfilter] at hperm
    exact perm_singleton.mp hperm

end

theorem mem_of_lookup {α : Type} {entries : List (String × α)} {key : String} {value : α}
    (h : entries.lookup key = some value) : (key, value) ∈ entries := by
  induction entries with
  | nil => cases h
  | cons entry entries ih =>
    obtain ⟨first, item⟩ := entry
    rw [List.lookup_cons] at h
    split at h
    · rename_i heq
      cases h
      obtain rfl := eq_of_beq heq
      exact mem_cons_self ..
    · exact mem_cons_of_mem _ (ih h)

theorem interfaceGroup_eq_some {name : String} {patterns : List Pattern}
    (h : interfaceGroup groups name = some patterns) :
    (name, patterns) ∈ groups.interfaces ∧ patterns ≠ [] := by
  unfold interfaceGroup at h
  cases hlookup : groups.interfaces.lookup name with
  | none =>
    rw [hlookup] at h
    cases h
  | some found =>
    rw [hlookup] at h
    cases found with
    | nil => cases h
    | cons first rest =>
      cases h
      exact ⟨mem_of_lookup hlookup, cons_ne_nil first rest⟩

theorem cidrGroup_eq_some {version : Version} {name : String} {values : List Network}
    (h : cidrGroup groups version name = some values) :
    ∃ texts, (name, texts) ∈ groups.cidrs ∧ parseNetworks version texts ≠ [] ∧
      parseNetworks version texts = values := by
  unfold cidrGroup at h
  split at h
  · cases h
  · rename_i texts htexts
    split at h
    · cases h
    · rename_i hne
      exact ⟨texts, mem_of_lookup htexts, hne, Option.some.inj h⟩

/-! ## Constants of rendered rules -/

/-- A known match only refers to defined groups. -/
theorem defined_of_known {condition : Match} (h : condition.Known groups) {reference : Reference}
    (hmem : reference ∈ condition.references) :
    ∃ values, (reference.group, values) ∈ groups.defined reference.category := by
  have hset : ∀ set : InterfaceSet, set.Known groups → reference ∈ set.references →
      ∃ values, (reference.group, values) ∈ groups.defined reference.category := by
    intro set hknown hreference
    cases set with
    | group name exact =>
      obtain ⟨hne, patterns, hpatterns, rfl⟩ := hknown
      obtain rfl := mem_singleton.mp hreference
      have hlookup := interfaceGroup_eq_some hpatterns
      refine ⟨.names (exactNames patterns), mem_filter.mpr ⟨mem_map.mpr
        ⟨(name, patterns), mem_filter.mpr ⟨hlookup.1, ?_⟩, rfl⟩, ?_⟩⟩
      · simpa using hlookup.2
      · simpa [isDefined, Values.isEmpty] using hne
    | direct _ => cases hreference
    | wildcard _ => cases hreference
  cases condition with
  | iifname set => exact hset set h hmem
  | oifname set => exact hset set h hmem
  | address addresses =>
    obtain ⟨version, role, set⟩ := addresses
    cases set with
    | group name values =>
      obtain rfl := mem_singleton.mp hmem
      change cidrGroup groups version name = some values at h
      obtain ⟨texts, htexts, hne, -⟩ := cidrGroup_eq_some h
      refine ⟨.networks (parseNetworks version texts), ?_⟩
      cases version with
      | v4 =>
        exact mem_filter.mpr ⟨mem_map.mpr ⟨(name, texts), mem_filter.mpr
          ⟨htexts, by simpa using hne⟩, rfl⟩, rfl⟩
      | v6 =>
        exact mem_filter.mpr ⟨mem_map.mpr ⟨(name, texts), mem_filter.mpr
          ⟨htexts, by simpa using hne⟩, rfl⟩, rfl⟩
    | direct _ => cases hmem
  | _ => cases hmem

theorem renderAll_eq_some {policy : Policy} {rendered : Rendered}
    (h : renderAll policy = some rendered) :
    (∃ maps, buildDefineMaps policy.groups = some maps ∧ rendered.defines = renderDefines maps) ∧
      ∀ condition ∈ rendered.conditions, condition.Known policy.groups := by
  simp only [renderAll, Option.bind_eq_bind, Option.bind_eq_some_iff] at h
  obtain ⟨maps, hmaps, filter, hfilter, output, houtput, forward, hforward, nat, hnat, h⟩ := h
  cases h
  refine ⟨⟨maps, hmaps, rfl⟩, fun condition hcondition => ?_⟩
  obtain ⟨hinput, hguards⟩ := known_renderFilter hfilter
  rcases mem_append.mp hcondition with hcondition | hcondition
  · obtain ⟨rule, hrule, hcondition⟩ := mem_flatMap.mp hcondition
    have hall : AllKnown policy.groups (filter.input ++ filter.guards.flatMap Guard.rules ++
        output ++ forward) := by
      simp only [allKnown_append]
      exact ⟨⟨⟨hinput, AllKnown.flatMap fun built hbuilt => (hguards built hbuilt).1⟩,
        known_renderOutput houtput fun built hbuilt => (hguards built hbuilt).2⟩,
        known_renderForward hforward⟩
    exact hall rule hrule condition hcondition
  · obtain ⟨rule, hrule, hcondition⟩ := mem_flatMap.mp hcondition
    exact known_renderNat hnat rule hrule condition hcondition

/-- One group, with another one under a name with the same identifier. -/
def lanGroups (second : Bool) : Groups where
  interfaces := []
  cidrs := ("lan-1", [some lan]) :: if second then [("lan_1", [some netkitPeer])] else []
  ports := []
  interfaces_nodup := nodup_nil
  cidrs_nodup := by cases second <;> decide
  ports_nodup := nodup_nil

/-- A policy whose service refers to the first group. -/
def lanPolicy (second : Bool) : Policy :=
  { mdnsPolicy lan with
    groups := lanGroups second
    services := [{ mdnsFor lan with allow := { (mdnsFor lan).allow with ipv4Groups := ["lan-1"] } }]
    distinct := nodup_singleton _ }

end Preseed.Nftables
