import Preseed.ThemeArchive.Tree

/-!
# Directories that are shared

An index in which two links of each directory lead to the next one is small, but its subtree has
exponentially many visits.
-/

namespace Preseed.ThemeArchive

open Effects List Archive

/-- The directories: `d`, `dd`, `ddd`, ... -/
def level (i : Nat) : Text := List.replicate (i + 1) 'd'

/-- A member of a directory. -/
def levelChild (i : Nat) (child : Char) : Text := level i ++ ['/', child]

/-- A level: its directory with two links to the next one. -/
def levelMembers (i : Nat) : List TarMember :=
  [⟨level i, 0, .directory⟩, ⟨levelChild i 'a', 0, .hard (level (i + 1))⟩,
    ⟨levelChild i 'b', 0, .hard (level (i + 1))⟩]

def levelEntries (i : Nat) : List (Text × Entry) :=
  [(level i, .directory), (levelChild i 'a', .link (level (i + 1))),
    (levelChild i 'b', .link (level (i + 1)))]

/-- The levels before `n`. -/
def ladderMembers (n : Nat) : List TarMember := (List.range n).flatMap levelMembers

def ladderEntries (n : Nat) : List (Text × Entry) := (List.range n).flatMap levelEntries

/-- The members of the archive: `n` levels and an empty directory. -/
def ladder (n : Nat) : List TarMember := ladderMembers n ++ [⟨level n, 0, .directory⟩]

section Names

variable {i j : Nat} {child : Char}

theorem level_injective (h : level i = level j) : i = j := by
  have hlength := congrArg List.length h
  simpa [level] using hlength

theorem slash_notMem_level : '/' ∉ level i := by
  rw [level, mem_replicate]
  exact fun h => absurd h.2 (by decide)

theorem splitOn_level : (level i).splitOn '/' = [level i] :=
  splitOn_eq_singleton slash_notMem_level

theorem splitOn_levelChild (hchild : child ≠ '/') :
    (levelChild i child).splitOn '/' = [level i, [child]] := by
  have hsingle : List.splitOn '/' [child] = [[child]] :=
    splitOn_eq_singleton (by simpa using hchild.symm)
  rw [levelChild, splitOn_append_cons_self, splitOn_level, hsingle]
  rfl

theorem level_plain : Plain (level i) := by
  refine ⟨?_, ?_, ?_, slash_notMem_level⟩
  · simp [level]
  · simp [level, replicate_succ]
  · simp [level, replicate_succ]

theorem utf8Length_level : utf8Length (level i) = i + 1 := by
  have hsize : Char.utf8Size 'd' = 1 := by decide
  simp [utf8Length, level, hsize]

theorem any_forbidden_level : (level i).any forbidden = false := by
  rw [any_eq_false]
  intro c hc
  rw [(mem_replicate.1 hc).2]
  decide

theorem level_wellFormed : WellFormed (level i) := by
  refine ⟨fun c hc => ?_, ?_⟩
  · rw [splitOn_level, mem_singleton] at hc
    exact hc ▸ level_plain
  · simp [splitOn_level]

theorem name_level (hi : i ≤ 500) : name (level i) = .ok (level i) :=
  name_of_wellFormed level_wellFormed (by rw [utf8Length_level]; omega) any_forbidden_level

theorem name_levelChild (hi : i ≤ 500) (hchild : child = 'a' ∨ child = 'b') :
    name (levelChild i child) = .ok (levelChild i child) := by
  have hslash : child ≠ '/' := by rcases hchild with rfl | rfl <;> decide
  refine name_of_wellFormed ⟨fun c hc => ?_, ?_⟩ ?_ ?_
  · rw [splitOn_levelChild hslash, mem_cons, mem_singleton] at hc
    rcases hc with rfl | rfl
    · exact level_plain
    · rcases hchild with rfl | rfl <;> exact ⟨by decide, by decide, by decide, by decide⟩
  · simp [splitOn_levelChild hslash]
  · have hsize : utf8Length ['/', child] = 2 := by rcases hchild with rfl | rfl <;> decide
    have hsum : utf8Length (levelChild i child) = utf8Length (level i) + utf8Length ['/', child] := by
      simp [levelChild, utf8Length]
    rw [hsum, hsize, utf8Length_level]
    omega
  · rw [levelChild, any_append, any_forbidden_level]
    rcases hchild with rfl | rfl <;> decide

theorem normpath_level : normpath (level i) = level i := by
  have hhead : leadingSlashes (level i) = [] := by
    simp [leadingSlashes, level, replicate_succ]
  have hplain := @level_plain i
  unfold normpath
  rw [hhead, splitOn_level]
  simp [normalComponent, hplain.nonempty, hplain.noDot, hplain.noParent, join]

theorem parentOf_level : parentOf (level i) = [] := by
  rw [parentOf, splitOn_level]
  rfl

theorem parentOf_levelChild (hchild : child ≠ '/') : parentOf (levelChild i child) = level i := by
  rw [parentOf, splitOn_levelChild hchild]
  simp [join]

theorem childOf_levelChild (hchild : child ≠ '/') : childOf (levelChild i child) = [child] := by
  rw [childOf, splitOn_levelChild hchild]
  rfl

theorem properPrefixes_level : properPrefixes (level i) = [] := by
  rw [properPrefixes, splitOn_level]
  rfl

theorem properPrefixes_levelChild (hchild : child ≠ '/') :
    properPrefixes (levelChild i child) = [level i] := by
  rw [properPrefixes, splitOn_levelChild hchild]
  simp [join]

end Names

/-! ## The index accepts them -/

section Accepting

variable {a : Archive}

/-- Nothing is raised. -/
abbrev NotRaised : Failure → Archive → Prop := fun _ _ => False

theorem ends_check_pass (h : 0 < a.checks) :
    Ends a check (fun _ a' => a' = { a with checks := a.checks - 1 }) NotRaised := by
  unfold check
  refine .get_bind ?_
  rw [if_neg (by omega)]
  exact .set rfl

theorem ends_reserve_pass (hchecks : 0 < a.checks) (hcount : a.count < maxMembers)
    (hsize : a.size = 0) :
    Ends a (reserve 0)
      (fun _ a' => a' = { a with checks := a.checks - 1, count := a.count + 1 }) NotRaised := by
  unfold reserve
  refine .bind (ends_check_pass hchecks) ?_
  rintro _ _ rfl
  refine .get_bind (.set_bind ?_)
  rw [if_neg]
  · refine .pure ?_
    simp
  · simp only [hsize, maxMember, maxArchive]
    omega

/-- Parents that are directories stay. -/
theorem ends_parents_pass {path : Text}
    (h : ∀ parent ∈ properPrefixes path, a.get? parent = some .directory) :
    Ends a ((properPrefixes path).forM addParent) (fun _ a' => a' = a) NotRaised := by
  refine .forM (fun parent hparent b hb => ?_) rfl
  subst hb
  unfold addParent
  refine .get_bind ?_
  rw [h parent hparent]
  exact .pure rfl

/-- The archive after a new empty member. -/
def Archive.withMember (a : Archive) (path : Text) (entry : Entry) : Archive :=
  { a with checks := a.checks - 1, count := a.count + 1, entries := a.entries ++ [(path, entry)] }

/-- A new empty member whose parents are directories is indexed. -/
theorem ends_tarMember_new {path : Text} {kind : TarKind} {entry : Entry} (hchecks : 0 < a.checks)
    (hcount : a.count < maxMembers) (hsize : a.size = 0)
    (hentries : a.entries.length < maxMembers * 2) (hname : name path = .ok path)
    (hdot : path ≠ ['.'] ∧ path ≠ ['.', '/'])
    (hvalue : ∀ b, Ends b (tarValue path ⟨path, 0, kind⟩) (fun e b' => e = entry ∧ b' = b) NotRaised)
    (hnew : a.get? path = none)
    (hparents : ∀ parent ∈ properPrefixes path, a.get? parent = some .directory) :
    Ends a (tarMember ⟨path, 0, kind⟩) (fun _ a' => a' = a.withMember path entry) NotRaised := by
  have hchecked (b : Archive) : Ends b (checkedName path) (fun p b' => p = path ∧ b' = b) NotRaised := by
    unfold checkedName
    rw [hname]
    exact .pure ⟨rfl, rfl⟩
  unfold tarMember
  refine .bind (ends_reserve_pass hchecks hcount hsize) ?_
  rintro _ _ rfl
  rw [if_neg (by simp [hdot])]
  refine .bind (hchecked _) ?_
  rintro _ _ ⟨rfl, rfl⟩
  refine .bind (hvalue _) ?_
  rintro _ _ ⟨rfl, rfl⟩
  unfold add
  refine .bind (hchecked _) ?_
  rintro _ _ ⟨rfl, rfl⟩
  refine .get_bind ?_
  rw [show ({ a with checks := a.checks - 1, count := a.count + 1 } : Archive).get? _ = none from hnew]
  refine .bind (ends_parents_pass hparents) ?_
  rintro _ _ rfl
  refine .get_bind ?_
  rw [if_neg (by dsimp only; omega)]
  exact .set rfl

end Accepting

/-- The index after the levels before `n`. -/
def ladderArchive (checks n : Nat) : Archive :=
  ⟨checks - 3 * n, 3 * n, 0, ladderEntries n, [], 0⟩

section Ladder

variable {n i : Nat}

theorem ladderMembers_succ : ladderMembers (n + 1) = ladderMembers n ++ levelMembers n := by
  simp [ladderMembers, range_succ]

theorem ladderEntries_succ : ladderEntries (n + 1) = ladderEntries n ++ levelEntries n := by
  simp [ladderEntries, range_succ]

theorem length_ladderEntries : (ladderEntries n).length = 3 * n := by
  induction n with
  | zero => rfl
  | succ n ih =>
    rw [ladderEntries_succ, length_append, ih]
    simp [levelEntries]
    omega

/-- The keys before level `n` begin with an earlier directory. -/
theorem head_of_mem_ladderEntries {key : Text} (h : key ∈ (ladderEntries n).map Prod.fst) :
    ∃ i < n, (key.splitOn '/').head? = some (level i) := by
  simp only [ladderEntries, mem_map, mem_flatMap, mem_range] at h
  obtain ⟨item, ⟨i, hi, hitem⟩, rfl⟩ := h
  refine ⟨i, hi, ?_⟩
  simp only [levelEntries, mem_cons, not_mem_nil, or_false] at hitem
  rcases hitem with rfl | rfl | rfl
  · rw [splitOn_level, head?_cons]
  · rw [splitOn_levelChild (by decide), head?_cons]
  · rw [splitOn_levelChild (by decide), head?_cons]

theorem notMem_ladderEntries {key : Text} (h : (key.splitOn '/').head? = some (level n)) :
    key ∉ (ladderEntries n).map Prod.fst := by
  intro hmem
  obtain ⟨i, hi, hhead⟩ := head_of_mem_ladderEntries hmem
  rw [h] at hhead
  have := level_injective (Option.some.inj hhead)
  omega

theorem ends_levelLink {path : Text} (hi : i ≤ 500) (b : Archive) :
    Ends b (tarValue path ⟨path, 0, .hard (level i)⟩)
      (fun e b' => e = .link (level i) ∧ b' = b) NotRaised := by
  have hraw : ¬ (level i = [] ∨ (level i).head? = some '/' ∨
      (level i).any (fun c => c = '\\' || c.toNat < 32) = true) := by
    simp [level, replicate_succ, any_replicate]
  change Ends b (linkTarget path (level i) true) _ _
  unfold linkTarget
  rw [if_neg hraw, if_pos rfl]
  dsimp only
  rw [normpath_level]
  unfold checkedName
  rw [name_level hi]
  exact .pure ⟨rfl, rfl⟩

theorem ends_levelMembers {checks : Nat} (hchecks : 3 * (n + 1) ≤ checks) (hn : n + 1 ≤ 500) :
    Ends (ladderArchive checks n) ((levelMembers n).forM tarMember)
      (fun _ a => a = ladderArchive checks (n + 1)) NotRaised := by
  have hlength : (ladderEntries n).length = 3 * n := length_ladderEntries
  have hnew {key : Text} (h : (key.splitOn '/').head? = some (level n)) :
      (ladderArchive checks n).get? key = none :=
    get?_eq_none.2 (notMem_ladderEntries h)
  have hdot {path : Text} (h : (path.splitOn '/').head? = some (level n)) :
      path ≠ ['.'] ∧ path ≠ ['.', '/'] := by
    have hlevel : level n ≠ ['.'] := level_plain.noDot
    have hone : List.splitOn '/' ['.'] = [['.']] := by decide
    have htwo : List.splitOn '/' ['.', '/'] = [['.'], []] := by decide
    constructor
    · rintro rfl
      rw [hone] at h
      exact hlevel (by simpa using h.symm)
    · rintro rfl
      rw [htwo] at h
      exact hlevel (by simpa using h.symm)
  have hlevel : ((level n).splitOn '/').head? = some (level n) := by
    rw [splitOn_level, head?_cons]
  have hchild (child : Char) (h : child ≠ '/') :
      ((levelChild n child).splitOn '/').head? = some (level n) := by
    rw [splitOn_levelChild h, head?_cons]
  have hne (child : Char) : levelChild n child ≠ level n := by
    intro h
    have := congrArg List.length h
    simp [levelChild] at this
  have hmax : maxMembers = 12000 := rfl
  have hdirectory : Ends (ladderArchive checks n) (tarMember ⟨level n, 0, .directory⟩)
      (fun _ a => a = (ladderArchive checks n).withMember (level n) .directory) NotRaised := by
    refine ends_tarMember_new ?_ ?_ rfl ?_ (name_level (by omega)) (hdot hlevel)
      (fun b => .pure ⟨rfl, rfl⟩) (hnew hlevel) (by simp [properPrefixes_level])
    all_goals simp only [ladderArchive]; omega
  have hlink (a : Archive) (child : Char) (hab : child = 'a' ∨ child = 'b')
      (hchecks : 0 < a.checks) (hcount : a.count < maxMembers) (hsize : a.size = 0)
      (hentries : a.entries.length < maxMembers * 2)
      (hparent : a.get? (level n) = some .directory) (hfresh : a.get? (levelChild n child) = none) :
      Ends a (tarMember ⟨levelChild n child, 0, .hard (level (n + 1))⟩)
        (fun _ a' => a' = a.withMember (levelChild n child) (.link (level (n + 1)))) NotRaised := by
    have hslash : child ≠ '/' := by rcases hab with rfl | rfl <;> decide
    refine ends_tarMember_new hchecks hcount hsize hentries (name_levelChild (by omega) hab)
      (hdot (hchild child hslash)) (ends_levelLink hn) hfresh fun parent hmem => ?_
    rw [properPrefixes_levelChild hslash, mem_singleton] at hmem
    exact hmem ▸ hparent
  have hab : levelChild n 'b' ≠ levelChild n 'a' := by simp [levelChild]
  change Ends _ (tarMember _ >>= fun _ => tarMember _ >>= fun _ => tarMember _ >>= fun _ => _) _ _
  refine .bind hdirectory ?_
  rintro _ _ rfl
  refine .bind (hlink _ 'a' (.inl rfl) ?_ ?_ rfl ?_ ?_ ?_) ?_
  · simp only [ladderArchive, withMember]; omega
  · simp only [ladderArchive, withMember]; omega
  · simp only [ladderArchive, withMember, length_append, length_singleton]; omega
  · exact get?_append_self rfl (hnew hlevel)
  · rw [get?_append_of_ne rfl (hne 'a')]
    exact hnew (hchild 'a' (by decide))
  rintro _ _ rfl
  refine .bind (hlink _ 'b' (.inr rfl) ?_ ?_ rfl ?_ ?_ ?_) ?_
  · simp only [ladderArchive, withMember]; omega
  · simp only [ladderArchive, withMember]; omega
  · simp only [ladderArchive, withMember, length_append, length_singleton]; omega
  · rw [get?_append_of_ne rfl (hne 'a').symm]
    exact get?_append_self rfl (hnew hlevel)
  · rw [get?_append_of_ne rfl hab, get?_append_of_ne rfl (hne 'b')]
    exact hnew (hchild 'b' (by decide))
  rintro _ _ rfl
  refine .pure ?_
  simp only [ladderArchive, withMember, ladderEntries_succ, levelEntries, append_assoc,
    cons_append, nil_append]
  congr 1

theorem ends_ladderMembers {checks : Nat} (hchecks : 3 * n ≤ checks) (hn : n ≤ 500) :
    Ends (new checks) ((ladderMembers n).forM tarMember)
      (fun _ a => a = ladderArchive checks n) NotRaised := by
  induction n with
  | zero => exact .pure rfl
  | succ n ih =>
    rw [ladderMembers_succ]
    refine .forM_append (ih (by omega) (by omega)) ?_
    rintro _ rfl
    exact ends_levelMembers hchecks hn

/-- The index of the whole archive. -/
theorem ends_ladder {checks : Nat} (hchecks : 3 * n < checks) (hn : n ≤ 500) :
    Ends (new checks) (index (.tar (ladder n)))
      (fun _ a => a = (ladderArchive checks n).withMember (level n) .directory) NotRaised := by
  have hmax : maxMembers = 12000 := rfl
  have hhead : ((level n).splitOn '/').head? = some (level n) := by
    rw [splitOn_level, head?_cons]
  have hslash : '/' ∉ level n := slash_notMem_level
  have hdot : level n ≠ ['.'] ∧ level n ≠ ['.', '/'] :=
    ⟨level_plain.noDot, fun h => hslash (by rw [h]; decide)⟩
  refine .forM_append (ends_ladderMembers (by omega) hn) ?_
  rintro _ rfl
  change Ends _ (tarMember _ >>= fun _ => _) _ _
  refine .bind (ends_tarMember_new ?_ ?_ rfl ?_ (name_level hn) hdot
    (fun b => .pure ⟨rfl, rfl⟩) (get?_eq_none.2 (notMem_ladderEntries hhead))
    (by simp [properPrefixes_level])) ?_
  · simp only [ladderArchive]; omega
  · simp only [ladderArchive]; omega
  · simp only [ladderArchive, length_ladderEntries]; omega
  · rintro _ _ rfl
    exact .pure rfl

end Ladder

/-! ## Its subtree -/

/-- The visits below a directory with `n` levels. -/
def ladderVisits : Nat → Nat
  | 0 => 1
  | n + 1 => 1 + 2 * ladderVisits n

theorem ladderVisits_eq (n : Nat) : ladderVisits n + 1 = 2 ^ (n + 1) := by
  induction n with
  | zero => rfl
  | succ n ih =>
    rw [ladderVisits, pow_succ, ← ih]
    ring

/-- What the walk needs of the index. -/
structure Archive.Ladder (a : Archive) (n : Nat) : Prop where
  directory : ∀ i ≤ n, a.get? (level i) = some .directory
  link : ∀ i < n, ∀ child, child = 'a' ∨ child = 'b' →
    a.get? (levelChild i child) = some (.link (level (i + 1)))
  children : ∀ i < n, a.children (level i) = [['a'], ['b']]
  last : a.children (level n) = []

section Walk

variable {a i : Archive} {n j : Nat}

theorem Archive.Ladder.resolve_level (h : i.Ladder n) (ha : a.entries = i.entries) (hj : j ≤ n)
    (steps : Nat) (hchecks : 0 < a.checks) :
    Ends a (resolveFrom (steps + 1) (level j))
      (fun actual a' => actual = level j ∧ a' = { a with checks := a.checks - 1 }) NotRaised := by
  have hget : a.get? (level j) = some .directory := (get?_congr ha).trans (h.directory j hj)
  have hlink : a.linkPrefix? (level j) = none := by
    simp [linkPrefix?, splitOn_level, join, hget]
  rw [resolveFrom]
  refine .bind (ends_check_pass hchecks) ?_
  rintro _ _ rfl
  refine .get_bind ?_
  rw [show ({ a with checks := a.checks - 1 } : Archive).linkPrefix? (level j) = none from hlink]
  dsimp only
  rw [if_neg]
  · exact .pure ⟨rfl, rfl⟩
  · change a.get? (level j) ≠ none
    rw [hget]
    exact Option.some_ne_none _

theorem Archive.Ladder.resolve_child (h : i.Ladder n) (ha : a.entries = i.entries) (hj : j < n)
    (hn : n ≤ 500) {child : Char} (hchild : child = 'a' ∨ child = 'b') (hchecks : 2 ≤ a.checks) :
    Ends a (resolve (levelChild j child))
      (fun actual a' => actual = level (j + 1) ∧ a' = { a with checks := a.checks - 2 })
      NotRaised := by
  have hslash : child ≠ '/' := by rcases hchild with rfl | rfl <;> decide
  have hdirectory : a.get? (level j) = some .directory :=
    (get?_congr ha).trans (h.directory j (by omega))
  have hget : a.get? (levelChild j child) = some (.link (level (j + 1))) :=
    (get?_congr ha).trans (h.link j hj child hchild)
  have hlink : a.linkPrefix? (levelChild j child) = some (level (j + 1), []) := by
    have hwhole : join [level j, [child]] = levelChild j child := by
      rw [← splitOn_levelChild hslash, join_splitOn]
    have hfirst : join [level j] = level j := by simp [join]
    simp [linkPrefix?, splitOn_levelChild hslash, range'_succ, hfirst, hwhole,
      hdirectory, hget]
  unfold resolve checkedName
  rw [name_levelChild (by omega) hchild]
  change Ends a (resolveFrom 16 (levelChild j child)) _ _
  rw [resolveFrom]
  refine .bind (ends_check_pass (by omega)) ?_
  rintro _ _ rfl
  refine .get_bind ?_
  rw [show ({ a with checks := a.checks - 1 } : Archive).linkPrefix? (levelChild j child) =
    some (level (j + 1), []) from hlink]
  dsimp only [foldl_nil]
  unfold checkedName
  rw [name_level (by omega)]
  have hnext : j + 1 ≤ n := hj
  have hleft : 0 < a.checks - 1 := by omega
  have ha' : ({ a with checks := a.checks - 1 } : Archive).entries = i.entries := ha
  have hstep : Ends ({ a with checks := a.checks - 1 } : Archive) (resolveFrom 15 (level (j + 1)))
      (fun actual a' => actual = level (j + 1) ∧ a' = { a with checks := a.checks - 1 - 1 })
      NotRaised := h.resolve_level ha' hnext 14 hleft
  exact hstep

theorem Archive.Ladder.get?_level (h : i.Ladder n) (ha : a.entries = i.entries) (hj : j ≤ n) :
    a.get? (level j) = some .directory := (get?_congr ha).trans (h.directory j hj)

theorem Archive.children_congr (ha : a.entries = i.entries) (key : Text) :
    a.children key = i.children key := by
  rw [children, children, ha]

theorem level_notMem {parents : List Text} (h : ∀ parent ∈ parents, ∃ k < j, parent = level k) :
    level j ∉ parents := by
  intro hmem
  obtain ⟨k, hk, heq⟩ := h _ hmem
  have := level_injective heq
  omega

/-- The first steps of a visit of a directory. -/
theorem Archive.Ladder.ends_enter (h : i.Ladder n) (ha : a.entries = i.entries) (hj : j ≤ n)
    {depth cost : Nat} {path destination : Text} {parents : List Text}
    {returned : Unit → Archive → Prop}
    (hpath : Ends { a with visits := a.visits + 1 } (resolve path)
      (fun actual a' => actual = level j ∧
        a' = { a with visits := a.visits + 1, checks := a.checks - cost }) NotRaised)
    (hparents : ∀ parent ∈ parents, ∃ k < j, parent = level k)
    (hrest : Ends { a with visits := a.visits + 1, checks := a.checks - cost }
      ((i.children (level j)).forM fun child => visit depth (level j ++ '/' :: child)
        (below destination child) (level j :: parents)) returned NotRaised) :
    Ends a (visit (depth + 1) path destination parents) returned NotRaised := by
  rw [visit]
  change Ends { a with visits := a.visits + 1 } (do let actual ← resolve path; _) _ _
  refine .bind hpath ?_
  rintro _ _ ⟨rfl, rfl⟩
  rw [if_neg (level_notMem hparents)]
  refine .get_bind ?_
  have hget : ({ a with visits := a.visits + 1, checks := a.checks - cost } : Archive).get?
      (level j) = some .directory := h.get?_level ha hj
  have hchildren : ({ a with visits := a.visits + 1, checks := a.checks - cost } : Archive).children
      (level j) = i.children (level j) := children_congr ha _
  rw [hget, hchildren]
  exact hrest

/-- A visit of a directory with `k` levels below it, at a cost of two checks for each visit. -/
theorem Archive.Ladder.ends_visit (h : i.Ladder n) (hn : n ≤ 500) (k : Nat) (hk : k ≤ n)
    (depth : Nat) (hdepth : k < depth) {path destination : Text} {parents : List Text} {cost : Nat}
    (ha : a.entries = i.entries)
    (hpath : Ends { a with visits := a.visits + 1 } (resolve path)
      (fun actual a' => actual = level (n - k) ∧
        a' = { a with visits := a.visits + 1, checks := a.checks - cost }) NotRaised)
    (hparents : ∀ parent ∈ parents, ∃ j < n - k, parent = level j)
    (hchecks : cost + 2 * ladderVisits k ≤ a.checks + 2) :
    Ends a (visit depth path destination parents)
      (fun _ a' => a'.entries = i.entries ∧ a'.visits = a.visits + ladderVisits k ∧
        a'.checks + cost + 2 * ladderVisits k = a.checks + 2) NotRaised := by
  induction k generalizing a depth path destination parents cost with
  | zero =>
    obtain ⟨depth, rfl⟩ : ∃ d, depth = d + 1 := ⟨depth - 1, by omega⟩
    refine h.ends_enter ha (Nat.sub_le n 0) hpath hparents ?_
    rw [Nat.sub_zero, h.last]
    refine .pure ⟨ha, rfl, ?_⟩
    simp only [ladderVisits] at hchecks ⊢
    omega
  | succ k ih =>
    obtain ⟨depth, rfl⟩ : ∃ d, depth = d + 1 := ⟨depth - 1, by omega⟩
    have hbelow : n - (k + 1) < n := by omega
    have hnext : n - (k + 1) + 1 = n - k := by omega
    have hpositive : 0 < ladderVisits k := by cases k <;> simp [ladderVisits]
    simp only [ladderVisits] at hchecks ⊢
    -- Both links lead to the next directory.
    have hvisit (b : Archive) (hb : b.entries = i.entries) (child : Char)
        (hab : child = 'a' ∨ child = 'b') (hb2 : 2 * ladderVisits k ≤ b.checks) :
        Ends b (visit depth (level (n - (k + 1)) ++ '/' :: [child]) (below destination [child])
          (level (n - (k + 1)) :: parents))
        (fun _ b' => b'.entries = i.entries ∧ b'.visits = b.visits + ladderVisits k ∧
          b'.checks + 2 + 2 * ladderVisits k = b.checks + 2) NotRaised := by
      have hb' : ({ b with visits := b.visits + 1 } : Archive).entries = i.entries := hb
      have hleft : 2 ≤ b.checks := by omega
      refine ih (by omega) depth (by omega) hb ?_ ?_ (by omega)
      · rw [← hnext]
        exact h.resolve_child hb' hbelow hn hab hleft
      · intro parent hparent
        rcases mem_cons.1 hparent with rfl | hparent
        · exact ⟨_, by omega, rfl⟩
        · obtain ⟨j, hj, rfl⟩ := hparents parent hparent
          exact ⟨j, by omega, rfl⟩
    refine h.ends_enter ha hbelow.le hpath hparents ?_
    rw [h.children _ hbelow]
    change Ends _ (visit _ _ _ _ >>= fun _ => visit _ _ _ _ >>= fun _ => _) _ _
    have hentered : ({ a with visits := a.visits + 1, checks := a.checks - cost } : Archive).entries =
        i.entries := ha
    refine .bind (hvisit _ hentered 'a' (.inl rfl) (by dsimp only; omega)) ?_
    rintro _ b ⟨hb, hvisits, hleft⟩
    dsimp only at hvisits hleft
    refine .bind (hvisit b hb 'b' (.inr rfl) (by omega)) ?_
    rintro _ c ⟨hc, hvisits', hleft'⟩
    exact .pure ⟨hc, by omega, by omega⟩

end Walk

/-! ## Its index -/

theorem Archive.get?_of_mem {a : Archive} (h : (a.entries.map Prod.fst).Nodup) {key : Text}
    {entry : Entry} (hmem : (key, entry) ∈ a.entries) : a.get? key = some entry := by
  obtain ⟨before, after, hentries⟩ := append_of_mem hmem
  rw [hentries, map_append, map_cons, nodup_append] at h
  refine List.lookup_eq_some_iff.2 ⟨before, after, hentries, fun item hitem => ?_⟩
  have hne := h.2.2 item.1 (mem_map_of_mem hitem) key mem_cons_self
  simpa using hne.symm

section Index

variable {n i : Nat}

/-- The names below a directory, in the order of the index. -/
def childNames (entries : List (Text × Entry)) (key : Text) : List Text :=
  (entries.map Prod.fst).filterMap fun member =>
    if parentOf member = key then some (childOf member) else none

theorem childNames_append (xs ys : List (Text × Entry)) (key : Text) :
    childNames (xs ++ ys) key = childNames xs key ++ childNames ys key := by
  simp [childNames]

theorem childNames_levelEntries {j : Nat} :
    childNames (levelEntries j) (level i) = if i = j then [['a'], ['b']] else [] := by
  have hne : ¬ [] = level i := fun h => level_plain.nonempty h.symm
  have ha : parentOf (levelChild j 'a') = level j := parentOf_levelChild (by decide)
  have hb : parentOf (levelChild j 'b') = level j := parentOf_levelChild (by decide)
  have hca : childOf (levelChild j 'a') = ['a'] := childOf_levelChild (by decide)
  have hcb : childOf (levelChild j 'b') = ['b'] := childOf_levelChild (by decide)
  by_cases h : i = j
  · subst h
    simp [childNames, levelEntries, parentOf_level, hne, ha, hb, hca, hcb]
  · have hlevel : ¬ level j = level i := fun heq => h (level_injective heq).symm
    simp [childNames, levelEntries, parentOf_level, hne, ha, hb, hlevel, h]

theorem childNames_ladderEntries :
    childNames (ladderEntries n) (level i) = if i < n then [['a'], ['b']] else [] := by
  induction n with
  | zero => rfl
  | succ n ih =>
    rw [ladderEntries_succ, childNames_append, ih, childNames_levelEntries]
    by_cases h : i < n
    · rw [if_pos h, if_neg (by omega), if_pos (by omega), append_nil]
    · by_cases heq : i = n
      · rw [if_neg h, if_pos heq, if_pos (by omega), nil_append]
      · rw [if_neg h, if_neg heq, if_neg (by omega), nil_append]

theorem mem_ladderEntries {item : Text × Entry} (hi : i < n) (h : item ∈ levelEntries i) :
    item ∈ ladderEntries n :=
  mem_flatMap.2 ⟨i, mem_range.2 hi, h⟩

theorem ladder_ladder {a : Archive} (hnodup : (a.entries.map Prod.fst).Nodup)
    (ha : a.entries = ladderEntries n ++ [(level n, .directory)]) : a.Ladder n := by
  have hchildren (i : Nat) : a.children (level i) =
      (if i < n then [['a'], ['b']] else []).insertionSort (· ≤ ·) := by
    have hlast : childNames [(level n, Entry.directory)] (level i) = [] := by
      have hne : ¬ [] = level i := fun h => level_plain.nonempty h.symm
      simp [childNames, parentOf_level, hne]
    have hnames : childNames a.entries (level i) = if i < n then [['a'], ['b']] else [] := by
      rw [ha, childNames_append, childNames_ladderEntries, hlast, append_nil]
    rw [← hnames]
    rfl
  refine ⟨fun i hi => ?_, fun i hi child hchild => ?_, fun i hi => ?_, ?_⟩
  · refine get?_of_mem hnodup ?_
    rw [ha, mem_append]
    rcases Nat.lt_or_eq_of_le hi with hi | rfl
    · exact .inl (mem_ladderEntries hi (by simp [levelEntries]))
    · exact .inr mem_cons_self
  · refine get?_of_mem hnodup ?_
    rw [ha, mem_append]
    refine .inl (mem_ladderEntries hi ?_)
    rcases hchild with rfl | rfl <;> simp [levelEntries]
  · rw [hchildren, if_pos hi]
    decide
  · rw [hchildren, if_neg (Nat.lt_irrefl n)]
    rfl

/-- An accepted archive with `3 * n + 1` members whose subtree takes `2 ^ (n + 1) - 1` visits. -/
theorem ladder_visits (hn : n ≤ 500) : ∃ checks a b, Accepted (.tar (ladder n)) checks a ∧
    tree (level 0) a = .ok () b ∧ b.visits + 1 = 2 ^ (n + 1) := by
  obtain ⟨_, a, haccepted, ha⟩ :=
    (ends_ladder (show 3 * n < 3 * n + 1 + 2 * ladderVisits n by omega) hn).exists_ok
  have hvalid := Accepted.valid haccepted
  have hladder : a.Ladder n := ladder_ladder hvalid.nodup (by rw [ha]; rfl)
  have hchecks : a.checks = 2 * ladderVisits n := by
    rw [ha]
    simp only [withMember, ladderArchive]
    omega
  have hpositive : 0 < ladderVisits n := by cases n <;> simp [ladderVisits]
  have hresolve (c : Archive) (hc : c.entries = a.entries) (hchecks : 0 < c.checks) :
      Ends c (resolve (level 0))
        (fun actual c' => actual = level 0 ∧ c' = { c with checks := c.checks - 1 }) NotRaised := by
    unfold resolve checkedName
    rw [name_level (Nat.zero_le _)]
    exact hladder.resolve_level hc (Nat.zero_le n) 15 hchecks
  have htree : Ends a (tree (level 0)) (fun _ b => b.visits = ladderVisits n) NotRaised := by
    unfold tree
    change Ends { a with result := [], visits := 0 } (do let actual ← resolve (level 0); _) _ _
    refine .bind (hresolve _ rfl (by dsimp only; omega)) ?_
    rintro _ _ ⟨rfl, rfl⟩
    refine .get_bind ?_
    have hdirectory : ({ a with result := [], visits := 0, checks := a.checks - 1 } : Archive).get?
        (level 0) = some .directory := hladder.directory 0 (Nat.zero_le n)
    rw [if_neg (not_not.2 hdirectory)]
    have hentries : a.entries.length = 3 * n + 1 := by
      rw [ha]
      simp [withMember, ladderArchive, length_ladderEntries]
    have hset : ({ a with checks := a.checks - 1, result := [], visits := 0 } : Archive).entries =
      a.entries := rfl
    have hroot := hresolve { a with checks := a.checks - 1, result := [], visits := 0 + 1 } rfl
      (by dsimp only; omega)
    rw [show level 0 = level (n - n) by rw [Nat.sub_self]] at hroot ⊢
    have hvisit : Ends _ (visit (a.entries.length + 1) (level (n - n)) [] []) _ NotRaised :=
      hladder.ends_visit hn n le_rfl (a.entries.length + 1) (by omega) hset hroot
        (fun _ h => nomatch h) (by dsimp only; omega)
    exact hvisit.mono (fun _ b hb => hb.2.1.trans (Nat.zero_add _)) fun _ _ => id
  obtain ⟨_, b, hb, hvisits⟩ := htree.exists_ok
  exact ⟨_, a, b, haccepted, hb, hvisits ▸ ladderVisits_eq n⟩

end Index

end Preseed.ThemeArchive
