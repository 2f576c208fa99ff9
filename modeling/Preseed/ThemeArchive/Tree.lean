import Preseed.ThemeArchive.Index

/-!
# Subtrees of a theme archive

`resolve` follows the links of a path inside the index, and `tree` materialises a directory. The
walk cuts cycles along a path, but visits a directory that is reached on two paths twice.
-/

namespace Preseed.ThemeArchive

open Effects List Archive

/-- The shortest link among the prefixes of a path, with the components that follow it. -/
def Archive.linkPrefix? (a : Archive) (path : Text) : Option (Text × List Text) :=
  (List.range' 1 (path.splitOn '/').length).findSome? fun n =>
    match a.get? (join ((path.splitOn '/').take n)) with
    | some (.link target) => some (target, (path.splitOn '/').drop n)
    | _ => none

/-- The steps of `resolve` that are left. -/
def resolveFrom : Nat → Text → Session Text
  | 0, _ => throw (.value "cyclic or excessively deep theme archive link")
  | steps + 1, path => do
    check
    let a ← get
    match a.linkPrefix? path with
    | some (target, components) =>
      let path ← checkedName (components.foldl joinPath target)
      resolveFrom steps path
    | none =>
      if a.get? path = none then throw (.value "missing selected theme archive member")
      else pure path

/-- `resolve`. -/
def resolve (path : Text) : Session Text := do
  let path ← checkedName path
  resolveFrom 16 path

/-- `sorted(self.children.get(key, ()))`. -/
def Archive.children (a : Archive) (key : Text) : List Text :=
  ((a.entries.map Prod.fst).filterMap fun member =>
    if parentOf member = key then some (childOf member) else none).insertionSort (· ≤ ·)

/-- `result[destination] = data`. -/
def assign (result : List (Text × List UInt8)) (destination : Text) (data : List UInt8) :
    List (Text × List UInt8) :=
  if destination ∈ result.map Prod.fst then
    result.map fun item => if item.1 = destination then (destination, data) else item
  else result ++ [(destination, data)]

/-- The destination of a child. -/
def below (destination child : Text) : Text :=
  if destination = [] then child else destination ++ '/' :: child

/-- `visit`, with the calls that the stack still takes. -/
def visit : Nat → Text → Text → List Text → Session Unit
  | 0, _, _, _ => throw .recursion
  | depth + 1, path, destination, parents => do
    modifyGet fun a => ((), { a with visits := a.visits + 1 })
    let actual ← resolve path
    if actual ∈ parents then throw (.value "cyclic theme asset directory")
    else
      let a ← get
      match a.get? actual with
      | some (.regular data) =>
        if maxMembers ≤ a.result.length then
          throw (.value "selected theme asset count exceeds the limit")
        else set { a with result := assign a.result destination data }
      | _ => (a.children actual).forM fun child =>
          visit depth (actual ++ '/' :: child) (below destination child) (actual :: parents)

/-- `tree`, with a stack that takes a call for each entry. -/
def tree (root : Text) : Session Unit := do
  modifyGet fun a => ((), { a with result := [], visits := 0 })
  let actual ← resolve root
  let a ← get
  if a.get? actual ≠ some .directory then
    throw (.value "selected theme subtree is not a directory")
  else visit (a.entries.length + 1) root [] []

/-! ## Resolved paths -/

/-- Where the links of a path lead. -/
def Archive.resolved? (a : Archive) : Nat → Text → Option Text
  | 0, _ => none
  | steps + 1, path =>
    match a.linkPrefix? path with
    | some (target, components) =>
      match name (components.foldl joinPath target) with
      | .ok path => a.resolved? steps path
      | .error _ => none
    | none => if a.get? path = none then none else some path

/-- A key of the index none of whose prefixes is a link. -/
structure Archive.Resolved (a : Archive) (key : Text) : Prop where
  mem : key ∈ a.entries.map Prod.fst
  noLink : ∀ n, 0 < n → n ≤ (key.splitOn '/').length →
    ∀ target, a.get? (join ((key.splitOn '/').take n)) ≠ some (.link target)

section Resolving

variable {a : Archive} {key path : Text}

theorem Archive.linkPrefix?_eq_none (h : a.linkPrefix? path = none) :
    ∀ n, 0 < n → n ≤ (path.splitOn '/').length →
      ∀ target, a.get? (join ((path.splitOn '/').take n)) ≠ some (.link target) := by
  intro n hn hlength target hlink
  have hnone := List.findSome?_eq_none_iff.1 h n (mem_range'_1.2 ⟨by omega, by omega⟩)
  rw [hlink] at hnone
  cases hnone

theorem Archive.resolved?_resolved {steps : Nat} (h : a.resolved? steps path = some key) :
    a.Resolved key := by
  induction steps generalizing path with
  | zero => cases h
  | succ steps ih =>
    rw [resolved?] at h
    split at h
    · split at h
      · exact ih h
      · cases h
    · rename_i hlink
      split at h
      · cases h
      · rename_i hkey
        obtain rfl : path = key := by simpa using h
        obtain ⟨entry, hentry⟩ := Option.ne_none_iff_exists'.1 hkey
        exact ⟨mem_of_get? hentry, linkPrefix?_eq_none hlink⟩

theorem Archive.get?_congr {a' : Archive} (h : a'.entries = a.entries) : a'.get? key = a.get? key := by
  rw [get?, get?, h]

theorem Archive.resolved?_congr {a' : Archive} (h : a'.entries = a.entries) {steps : Nat} :
    a'.resolved? steps path = a.resolved? steps path := by
  induction steps generalizing path with
  | zero => rfl
  | succ steps ih =>
    rw [resolved?, resolved?]
    have hlink : a'.linkPrefix? path = a.linkPrefix? path := by
      unfold linkPrefix?
      simp only [get?_congr h]
    rw [hlink, get?_congr h]
    simp only [ih]

/-- Every step of `resolve` passes a check. -/
theorem ends_resolveFrom (steps : Nat) (a : Archive) (path : Text) :
    Ends a (resolveFrom steps path)
      (fun actual a' => a.resolved? steps path = some actual ∧
        ∃ checks, a' = { a with checks := checks } ∧ checks < a.checks ∧ a.checks ≤ checks + steps)
      fun e a' => e ≠ .recursion ∧ ∃ checks, a' = { a with checks := checks } ∧ checks ≤ a.checks := by
  induction steps generalizing a path with
  | zero => exact .throw ⟨nofun, a.checks, rfl, le_rfl⟩
  | succ steps ih =>
    rw [resolveFrom]
    refine .bind ((ends_check a).mono (fun _ _ => id) fun e a' ha' => ?_) ?_
    · exact ⟨ha'.1, a.checks, ha'.2, le_rfl⟩
    rintro _ _ ⟨hchecks, rfl⟩
    refine .get_bind ?_
    change Ends _ (match a.linkPrefix? path with | some (target, components) => _ | none => _) _ _
    rw [resolved?]
    cases a.linkPrefix? path with
    | none =>
      change Ends _ (if a.get? path = none then _ else _) _ _
      split
      · exact .throw ⟨nofun, a.checks - 1, rfl, by omega⟩
      · rename_i hkey
        exact .pure ⟨by simp, a.checks - 1, rfl, by omega, by omega⟩
    | some link =>
      obtain ⟨target, components⟩ := link
      refine .bind ((ends_checkedName _ _).mono (fun _ _ => id) fun e a' ha' => ?_) ?_
      · exact ⟨ha'.1, a.checks - 1, ha'.2, by omega⟩
      rintro next _ ⟨rfl, hname⟩
      refine (ih _ next).mono ?_ ?_
      · rintro actual _ ⟨hactual, checks, rfl, hless, hmost⟩
        dsimp only at hless hmost
        refine ⟨?_, checks, rfl, by omega, by omega⟩
        have hsame : ({ a with checks := a.checks - 1 } : Archive).resolved? steps next =
            a.resolved? steps next := resolved?_congr (by rfl)
        simp only [hname]
        rw [← hsame, hactual]
      · rintro e _ ⟨he, checks, rfl, hless⟩
        dsimp only at hless
        exact ⟨he, checks, rfl, by omega⟩

theorem ends_resolve (a : Archive) (path : Text) :
    Ends a (resolve path)
      (fun actual a' => (∃ normal, name path = .ok normal ∧ a.resolved? 16 normal = some actual) ∧
        ∃ checks, a' = { a with checks := checks } ∧ checks < a.checks ∧ a.checks ≤ checks + 16)
      fun e a' => e ≠ .recursion ∧ ∃ checks, a' = { a with checks := checks } ∧ checks ≤ a.checks := by
  unfold resolve
  refine .bind ((ends_checkedName a path).mono (fun _ _ => id) fun e a' ha' => ?_) ?_
  · exact ⟨ha'.1, a.checks, ha'.2, le_rfl⟩
  rintro normal _ ⟨rfl, hname⟩
  exact (ends_resolveFrom 16 _ normal).mono (fun actual a' h => ⟨⟨normal, hname, h.1⟩, h.2⟩)
    fun _ _ => id

end Resolving

/-! ## The walk -/

/-- A destination without parent references. -/
def Safe (destination : Text) : Prop := ∀ component ∈ destination.splitOn '/', Plain component

/-- What a walk over an index keeps. -/
structure Archive.Walk (i : Archive) (bound : Nat) (a : Archive) : Prop where
  entries : a.entries = i.entries
  visits : a.visits + a.checks ≤ bound
  regular : ∀ item ∈ a.result, ∃ key, i.get? key = some (.regular item.2)
  destinations : ∀ item ∈ a.result, Safe item.1
  length : a.result.length ≤ maxMembers

section Walking

variable {i a : Archive} {bound : Nat} {key : Text}

theorem childOf_plain (h : WellFormed key) : Plain (childOf key) := by
  have hne := splitOn_ne_nil '/' key
  unfold childOf
  rw [List.getLast?_eq_getLast_of_ne_nil hne, Option.getD_some]
  exact h.plain _ (getLast_mem hne)

theorem plain_of_mem_children (h : a.Valid) {child : Text} (hchild : child ∈ a.children key) :
    Plain child := by
  rw [children, mem_insertionSort, mem_filterMap] at hchild
  obtain ⟨member, hmember, hchild⟩ := hchild
  split at hchild
  · obtain rfl : childOf member = child := by simpa using hchild
    exact childOf_plain (h.wellFormed member hmember)
  · cases hchild

theorem safe_below {destination child : Text} (h : destination = [] ∨ Safe destination)
    (hchild : Plain child) : Safe (below destination child) := by
  have hsingle : child.splitOn '/' = [child] := splitOn_eq_singleton hchild.noSlash
  unfold below
  split
  · intro c hc
    rw [hsingle, mem_singleton] at hc
    exact hc ▸ hchild
  · rename_i hne
    intro c hc
    rw [splitOn_append_cons_self, hsingle, mem_append, mem_singleton] at hc
    rcases hc with hc | rfl
    · exact h.resolve_left hne c hc
    · exact hchild

theorem mem_assign {result : List (Text × List UInt8)} {destination : Text} {data : List UInt8}
    {item : Text × List UInt8} (h : item ∈ assign result destination data) :
    item ∈ result ∨ item = (destination, data) := by
  unfold assign at h
  split at h
  · obtain ⟨old, hold, rfl⟩ := mem_map.1 h
    split
    · exact .inr rfl
    · exact .inl hold
  · simpa using h

theorem length_assign_le (result : List (Text × List UInt8)) (destination : Text)
    (data : List UInt8) : (assign result destination data).length ≤ result.length + 1 := by
  unfold assign
  split <;> simp

/-- A regular member of the result. -/
theorem Archive.Walk.assign (h : i.Walk bound a) {destination : Text} {data : List UInt8}
    (hdata : i.get? key = some (.regular data)) (hsafe : Safe destination)
    (hlength : a.result.length < maxMembers) :
    i.Walk bound { a with result := assign a.result destination data } := by
  refine ⟨h.entries, h.visits, fun item hitem => ?_, fun item hitem => ?_, ?_⟩
  · rcases mem_assign hitem with hold | rfl
    · exact h.regular item hold
    · exact ⟨key, hdata⟩
  · rcases mem_assign hitem with hold | rfl
    · exact h.destinations item hold
    · exact hsafe
  · exact (length_assign_le _ _ _).trans hlength

theorem Archive.Walk.mono (h : i.Walk bound a) : i.Walk (bound + 1) a :=
  ⟨h.entries, h.visits.trans (Nat.le_succ _), h.regular, h.destinations, h.length⟩

/-- A visit resolves its path: it spends a check, or the walk ends. -/
theorem Archive.Walk.resolve (h : i.Walk bound a) (path : Text) :
    Ends { a with visits := a.visits + 1 } (resolve path)
      (fun actual a' => i.Walk bound a' ∧ ∃ normal, name path = .ok normal ∧
        i.resolved? 16 normal = some actual)
      fun e a' => e ≠ .recursion ∧ i.Walk (bound + 1) a' := by
  refine (ends_resolve _ path).mono ?_ ?_
  · rintro actual _ ⟨⟨normal, hname, hactual⟩, checks, rfl, hless, -⟩
    have hsame : ({ a with visits := a.visits + 1 } : Archive).resolved? 16 normal =
        i.resolved? 16 normal := resolved?_congr (by exact h.entries)
    rw [hsame] at hactual
    have hvisits := h.visits
    dsimp only at hless
    exact ⟨⟨h.entries, by dsimp only; omega, h.regular, h.destinations, h.length⟩, normal, hname,
      hactual⟩
  · rintro e _ ⟨he, checks, rfl, hless⟩
    have hvisits := h.visits
    dsimp only at hless
    exact ⟨he, h.entries, by dsimp only; omega, h.regular, h.destinations, h.length⟩

/-- A visit keeps the walk, and its stack is deep enough. -/
theorem ends_visit (hi : i.Valid) (depth : Nat) {path destination : Text} {parents : List Text}
    (h : i.Walk bound a) (hnodup : parents.Nodup)
    (hparents : parents ⊆ i.entries.map Prod.fst)
    (hdepth : i.entries.length < depth + parents.length)
    (hsafe : Safe destination ∨ destination = [] ∧ ∀ normal actual, name path = .ok normal →
      i.resolved? 16 normal = some actual → i.get? actual = some .directory) :
    Ends a (visit depth path destination parents) (fun _ => i.Walk bound)
      fun e a' => e ≠ .recursion ∧ i.Walk (bound + 1) a' := by
  induction depth generalizing a path destination parents with
  | zero =>
    have hlength := hnodup.length_le_of_subset hparents
    rw [length_map] at hlength
    omega
  | succ depth ih =>
    rw [visit]
    change Ends { a with visits := a.visits + 1 } (do let actual ← resolve path; _) _ _
    refine .bind (h.resolve path) ?_
    rintro actual a' ⟨h', normal, hname, hactual⟩
    have hkey := resolved?_resolved hactual
    split
    · exact .throw ⟨nofun, h'.mono⟩
    rename_i hnew
    refine .get_bind ?_
    rw [get?_congr h'.entries]
    split
    · rename_i data hdata
      split
      · exact .throw ⟨nofun, h'.mono⟩
      · rename_i hlength
        refine .set (h'.assign hdata ?_ (by omega))
        rcases hsafe with hsafe | ⟨-, hroot⟩
        · exact hsafe
        · rw [hroot normal actual hname hactual] at hdata
          cases hdata
    · have hchildren : a'.children actual = i.children actual := by
        rw [children, children, h'.entries]
      rw [hchildren]
      refine .forM (fun child hchild b hb => ?_) h'
      refine ih hb (nodup_cons.2 ⟨hnew, hnodup⟩) ?_ ?_ (.inl (safe_below ?_ ?_))
      · exact cons_subset.2 ⟨hkey.mem, hparents⟩
      · rw [length_cons]
        omega
      · exact hsafe.elim .inr fun hroot => .inl hroot.1
      · exact plain_of_mem_children hi hchild

theorem ends_tree (hi : i.Valid) (root : Text) :
    Ends i (tree root) (fun _ => i.Walk i.checks)
      fun e a => e ≠ .recursion ∧ i.Walk (i.checks + 1) a := by
  have hstart (checks : Nat) (h : checks ≤ i.checks) :
      i.Walk i.checks { i with result := [], visits := 0, checks := checks } :=
    ⟨rfl, by dsimp only; omega, nofun, nofun, Nat.zero_le _⟩
  unfold tree
  change Ends { i with result := [], visits := 0 } (do let actual ← resolve root; _) _ _
  refine .bind ((ends_resolve _ root).mono (fun _ _ => id) ?_) ?_
  · rintro e _ ⟨he, checks, rfl, hless⟩
    exact ⟨he, (hstart checks hless).mono⟩
  rintro actual _ ⟨⟨normal, hname, hactual⟩, checks, rfl, hless, -⟩
  have hsame : ({ i with result := [], visits := 0 } : Archive).resolved? 16 normal =
      i.resolved? 16 normal := resolved?_congr (by rfl)
  rw [hsame] at hactual
  refine .get_bind ?_
  split
  · exact .throw ⟨nofun, (hstart checks hless.le).mono⟩
  rename_i hdirectory
  rw [not_not] at hdirectory
  refine ends_visit hi _ (hstart checks hless.le) nodup_nil (nil_subset _)
    (Nat.lt_succ_self _) (.inr ⟨rfl, fun normal' actual' hname' hactual' => ?_⟩)
  obtain rfl : normal = normal' := by simpa [hname] using hname'
  obtain rfl : actual = actual' := by simpa [hactual] using hactual'
  exact hdirectory

end Walking

/-- Theme archives never escape. -/
structure Archive.Bounded (a : Archive) : Prop where
  /-- Keys are relative and normalised, and lie below directories. -/
  keys : ∀ key ∈ a.entries.map Prod.fst, WellFormed key ∧
    ∀ parent ∈ properPrefixes key, a.get? parent = some .directory
  count : a.count ≤ maxMembers
  size : a.size ≤ maxArchive
  /-- `resolve` ends after at most 16 steps at a key below no link. -/
  resolves : ∀ b path, b.entries = a.entries → Ends b (resolve path)
    (fun key b' => a.Resolved key ∧ b.checks ≤ b'.checks + 16) fun e _ => e ≠ .recursion
  /-- `tree` ends, with regular members only, after at most one visit for each check that its
  deadline passes. -/
  trees : ∀ root, Ends a (tree root) (fun _ => a.Walk a.checks)
    fun e b => e ≠ .recursion ∧ a.Walk (a.checks + 1) b

/-- A theme with a file and a link to its directory. -/
def themeArchive : Archive where
  checks := 97
  count := 3
  size := 2
  entries := [(['t'], .directory), (['t', '/', 'f'], .regular [1, 2]), (['l'], .link ['t'])]
  result := []
  visits := 0

end Preseed.ThemeArchive
