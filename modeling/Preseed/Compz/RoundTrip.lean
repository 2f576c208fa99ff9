import Preseed.Compz.Archives

/-!
# Compz archives round trip

`produce_tar` walks the selected entries of a directory and writes a member for each
directory and file. `extract_tar` of these members rebuilds the selected trees, in the
budget that the walk used.
-/

namespace Preseed.Compz

open List

open Texts (Bytes)

/-! ## The trees that are archived -/

/-- A name of an entry of a directory. -/
abbrev Leaf := { name : Name // ProperName name }

mutual
inductive Tree
  | directory (entries : Entries)
  | file (content : Bytes) (executable : Bool)
  | special

/-- The entries of a directory in the order of their sorted names. -/
inductive Entries
  | empty
  | entry (leaf : Leaf) (tree : Tree) (rest : Entries)
end

def Entries.names : Entries → List Name
  | .empty => []
  | .entry leaf _ rest => leaf.val :: rest.names

def Entries.find (leaf : Leaf) : Entries → Option Tree
  | .empty => none
  | .entry first tree rest => if first = leaf then some tree else rest.find leaf

mutual
/-- The names in each directory differ. -/
def Tree.Distinct : Tree → Prop
  | .directory entries => entries.Distinct
  | .file _ _ => True
  | .special => True

def Entries.Distinct : Entries → Prop
  | .empty => True
  | .entry leaf tree rest => leaf.val ∉ rest.names ∧ tree.Distinct ∧ rest.Distinct
end

mutual
/-- What a tree holds at a path below it. -/
def Tree.holds : Tree → Path → Option Entry
  | .directory _, [] => some .directory
  | .directory entries, part :: path => entries.holds part path
  | .file content executable, [] => some (.file content executable)
  | .special, [] => some .other
  | .file _ _, _ :: _ => none
  | .special, _ :: _ => none

def Entries.holds : Entries → Name → Path → Option Entry
  | .empty, _, _ => none
  | .entry leaf tree rest, part, path =>
      if leaf.val = part then tree.holds path else rest.holds part path
end

/-! ## The writer -/

def directoryMember (name : Bytes) : Member where
  name := name ++ [slash]
  isdir := true
  isreg := false
  issparse := false
  size := 0
  executable := true
  data := none

def fileMember (name content : Bytes) (executable : Bool) : Member where
  name := name
  isdir := false
  isreg := true
  issparse := false
  size := content.length
  executable := executable
  data := some content

mutual
/-- `visit` on a tree that does not change under it. -/
def visit (budget : Budget) (name : Bytes) : Tree → Option (Budget × List Member)
  | .directory entries => do
      guard (relative name ≠ none)
      let budget ← budget.add 0
      guard (entries.names.length ≤ budget.maxFiles)
      let (budget, members) ← visitAll budget name entries
      some (budget, directoryMember name :: members)
  | .file content executable => do
      guard (relative name ≠ none)
      let budget ← budget.add content.length
      some (budget, [fileMember name content executable])
  | .special => none

def visitAll (budget : Budget) (name : Bytes) : Entries → Option (Budget × List Member)
  | .empty => some (budget, [])
  | .entry leaf tree rest => do
      let (budget, members) ← visit budget (name ++ slash :: leaf.val) tree
      let (budget, others) ← visitAll budget name rest
      some (budget, members ++ others)
end

/-- `produce_tar`, with the members of the archive it writes. -/
def produceTar (root : Entries) : List Leaf → Budget → Option (Budget × List Member)
  | [], budget => some (budget, [])
  | leaf :: selected, budget => do
      guard ((relative leaf.val).map List.length = some 1)
      let tree ← root.find leaf
      let (budget, members) ← visit budget leaf.val tree
      let (budget, others) ← produceTar root selected budget
      some (budget, members ++ others)

/-! ## The names of the members -/

theorem join_concat {parts : Path} (hne : parts ≠ []) (leaf : Name) :
    join (parts ++ [leaf]) = join parts ++ slash :: leaf := by
  unfold join
  induction parts with
  | nil => exact absurd rfl hne
  | cons part parts ih =>
    cases parts with
    | nil => simp only [cons_append, nil_append, intercalate_cons_cons,
        intercalate_singleton, append_assoc]
    | cons other parts =>
      have hrest := ih (cons_ne_nil _ _)
      rw [cons_append, cons_append, intercalate_cons_cons,
        intercalate_cons_cons, ← cons_append, hrest]
      simp only [append_assoc]

theorem splitOn_join {parts : Path} (hne : parts ≠ []) (hparts : ∀ part ∈ parts, ProperName part) :
    (join parts).splitOn slash = parts :=
  splitOn_intercalate slash (fun part hpart => (hparts part hpart).2.2.2) hne

/-- A path of proper names is known by its joined name. -/
theorem join_injective {parts others : Path} (hne : parts ≠ []) (hothersNe : others ≠ [])
    (hparts : ∀ part ∈ parts, ProperName part) (hothers : ∀ part ∈ others, ProperName part)
    (h : join parts = join others) : parts = others := by
  rw [← splitOn_join hne hparts, h, splitOn_join hothersNe hothers]

theorem dropCurrent_append {part : Name} (hpart : ProperName part) (rest : Bytes) :
    dropCurrent (part ++ rest) = part ++ rest := by
  obtain ⟨hne, hdot, -, hslash⟩ := hpart
  match part with
  | [] => exact absurd rfl hne
  | [byte] =>
    have hbyte : byte ≠ 0x2e := fun h => hdot (by rw [h]; rfl)
    rw [dropCurrent.eq_def]
    split
    · rename_i other heq
      exact absurd (List.cons.inj heq).1 hbyte
    · rfl
  | first :: byte :: bytes =>
    have hbyte : byte ≠ 0x2f := by
      rintro rfl
      exact hslash (mem_cons_of_mem _ mem_cons_self)
    rw [dropCurrent.eq_def]
    split
    · rename_i other heq
      exact absurd (List.cons.inj (List.cons.inj heq).2).1 hbyte
    · rfl

theorem exists_join_eq {parts : Path} (hne : parts ≠ []) :
    ∃ part rest, part ∈ parts ∧ join parts = part ++ rest := by
  cases parts with
  | nil => exact absurd rfl hne
  | cons part parts =>
    cases parts with
    | nil =>
      refine ⟨part, [], mem_cons_self, ?_⟩
      rw [append_nil, join, intercalate_singleton]
    | cons other parts =>
      refine ⟨part, [slash] ++ join (other :: parts), mem_cons_self, ?_⟩
      unfold join
      rw [intercalate_cons_cons, append_assoc]

theorem rdropWhile_join {parts : Path} (hne : parts ≠ [])
    (hparts : ∀ part ∈ parts, ProperName part) :
    (join parts).rdropWhile (· == slash) = join parts := by
  obtain ⟨hleafNe, -, -, hleaf⟩ := hparts _ (getLastD_mem hne)
  have hjoin : ∃ before, join parts = before ++ parts.getLastD [] := by
    conv => enter [1, before]; rw [← concat_getLastD hne]
    by_cases hinit : parts.dropLast = []
    · refine ⟨[], ?_⟩
      rw [hinit]
      simp only [nil_append, join, intercalate_singleton, getLastD_cons,
        getLastD_nil]
    · refine ⟨join parts.dropLast ++ [slash], ?_⟩
      rw [join_concat hinit, concat_getLastD hne, append_assoc, singleton_append]
  obtain ⟨before, hjoin⟩ := hjoin
  rw [rdropWhile_eq_self_iff]
  intro hnonempty hlast
  have hmem : (join parts).getLast hnonempty ∈ parts.getLastD [] := by
    simp only [hjoin, getLast_append_of_ne_nil _ hleafNe]
    exact getLast_mem hleafNe
  rw [beq_iff_eq.mp hlast] at hmem
  exact hleaf hmem

/-- The reader takes the name of a file apart as the writer put it together. -/
theorem bareName_join {parts : Path} (hne : parts ≠ []) (hparts : ∀ part ∈ parts, ProperName part) :
    bareName (join parts) = join parts := by
  obtain ⟨part, rest, hpart, hjoin⟩ := exists_join_eq hne
  unfold bareName
  rw [hjoin, dropCurrent_append (hparts part hpart), ← hjoin]
  exact rdropWhile_join hne hparts

/-- The slash at the end of the name of a directory is dropped. -/
theorem bareName_join_slash {parts : Path} (hne : parts ≠ [])
    (hparts : ∀ part ∈ parts, ProperName part) :
    bareName (join parts ++ [slash]) = join parts := by
  obtain ⟨part, rest, hpart, hjoin⟩ := exists_join_eq hne
  unfold bareName
  have hkept : dropCurrent (join parts ++ [slash]) = join parts ++ [slash] := by
    rw [hjoin, append_assoc, dropCurrent_append (hparts part hpart)]
  rw [hkept, rdropWhile_concat_pos (· == slash) _ _ (beq_self_eq_true slash)]
  exact rdropWhile_join hne hparts

theorem relative_join {parts : Path} (hne : parts ≠ []) (hparts : ∀ part ∈ parts, ProperName part)
    (h : relative (join parts) ≠ none) :
    relative (join parts) = some parts ∧ relative (join parts ++ [slash]) = some parts := by
  unfold relative at h ⊢
  rw [bareName_join hne hparts, splitOn_join hne hparts] at h ⊢
  rw [bareName_join_slash hne hparts, splitOn_join hne hparts]
  split at h
  · exact absurd rfl h
  · rename_i hsafe
    rw [if_neg hsafe]
    exact ⟨rfl, rfl⟩

/-! ## The reader on the members of a tree -/

theorem directoryFd_of_chain {refused : Path → Bool} {create : Bool} {files : Files}
    (current : Path) {parts : List Name} (hparts : ∀ part ∈ parts, ProperName part)
    (hchain : ∀ q, q <+: parts → files (current ++ q) = some .directory) :
    directoryFd refused create files current parts = (files, some (current ++ parts)) := by
  induction parts generalizing current with
  | nil => rw [directoryFd, append_nil]
  | cons part parts ih =>
    have hpart : files (current ++ [part]) = some .directory :=
      hchain [part] (cons_prefix_cons.mpr ⟨rfl, nil_prefix⟩)
    have hmade : (if create then mkdir refused files current part else some files) =
        some files := by
      unfold mkdir
      rw [child_of_properName (hparts part mem_cons_self), hpart]
      split <;> rfl
    have hrest := ih (current ++ [part])
      (fun other hother => hparts other (mem_cons_of_mem _ hother))
      (fun q hq => by
        rw [append_assoc]
        exact hchain _ (cons_prefix_cons.mpr ⟨rfl, hq⟩))
    rw [directoryFd, hmade]
    dsimp only
    rw [child_of_properName (hparts part mem_cons_self), if_pos hpart, hrest,
      append_assoc, singleton_append]

/-- The reader can take a tree at `parts`: its parents exist and nothing of it does. -/
structure Ready (state : Extraction) (root parts : Path) : Prop where
  nonempty : parts ≠ []
  proper : ∀ part ∈ parts, ProperName part
  above : ∀ q, q <+: parts.dropLast → state.files (root ++ q) = some .directory
  fresh : ∀ path, state.files (root ++ (parts ++ path)) = none
  unseen : ∀ q, parts <+: q → (∀ part ∈ q, ProperName part) → join q ∉ state.seen

/-- The reader has added exactly what `holds` says at `parts`. -/
structure Rebuilt (state after : Extraction) (root parts : Path)
    (holds : Path → Option Entry) : Prop where
  below : ∀ path, after.files (root ++ (parts ++ path)) = holds path
  elsewhere : ∀ path, ¬root ++ parts <+: path → after.files path = state.files path
  seen : ∀ key ∈ after.seen, key ∈ state.seen ∨
    ∃ q, parts <+: q ∧ (∀ part ∈ q, ProperName part) ∧ key = join q

def unrefused (_ : Path) : Bool := false

theorem extractMember_of_check {refused : Path → Bool} {root : Path} {state checked : Extraction}
    {member : Member} {parts : Path} {made : Files}
    (hcheck : state.check member = some (parts, checked))
    (hplace : place refused root checked.files parts member = (made, true)) :
    extractMember refused root state member = ({ checked with files := made }, true) := by
  have hname : ¬((member.name = dot ∨ member.name = dot ++ [slash]) ∧ member.isdir) := by
    rintro ⟨hname, -⟩
    have hrelative := (check_eq_some_iff.mp hcheck).1
    rcases hname with h | h
    · rw [h, show relative dot = none by decide] at hrelative
      cases hrelative
    · rw [h, show relative (dot ++ [slash]) = none by decide] at hrelative
      cases hrelative
  unfold extractMember
  rw [if_neg hname, hcheck]
  dsimp only
  rw [hplace]

theorem Ready.absent {state : Extraction} {root parts : Path} (hready : Ready state root parts) :
    state.files (root ++ parts) = none := by
  have habsent := hready.fresh []
  rwa [append_nil] at habsent

theorem Ready.opened {state : Extraction} {root parts : Path} (hready : Ready state root parts)
    (refused : Path → Bool) :
    directoryFd refused true state.files root parts.dropLast =
      (state.files, some (root ++ parts.dropLast)) :=
  directoryFd_of_chain _ (fun part hpart => hready.proper part (dropLast_subset _ hpart))
    hready.above

theorem Ready.child_leaf {state : Extraction} {root parts : Path}
    (hready : Ready state root parts) :
    child (root ++ parts.dropLast) (parts.getLastD []) = root ++ parts := by
  rw [child_of_properName (hready.proper _ (getLastD_mem hready.nonempty)), append_assoc,
    concat_getLastD hready.nonempty]

theorem place_directory {state : Extraction} {root parts : Path} (hready : Ready state root parts)
    {member : Member} (hisdir : member.isdir = true) :
    place unrefused root state.files parts member =
      (Function.update state.files (root ++ parts) (some .directory), true) := by
  have hleaf : parts.getLastD [] ≠ [] := (hready.proper _ (getLastD_mem hready.nonempty)).1
  have hmade : mkdir unrefused state.files (root ++ parts.dropLast) (parts.getLastD []) =
      some (Function.update state.files (root ++ parts) (some .directory)) := by
    unfold mkdir
    rw [hready.child_leaf, hready.absent, if_neg (by simp only [Option.isSome_none,
      Bool.false_eq_true, not_false_eq_true]), if_neg (by simp only [hleaf, unrefused,
      Bool.false_eq_true, or_self, not_false_eq_true])]
  unfold place makeDirectory
  rw [hready.opened]
  dsimp only
  rw [if_pos hisdir, hmade]
  simp only [directoryFd, Bool.false_eq_true, if_false, hready.child_leaf, Function.update_self,
    if_true, Option.isSome_some]

theorem place_file {state : Extraction} {root parts : Path} (hready : Ready state root parts)
    (name content : Bytes) (executable : Bool) :
    place unrefused root state.files parts (fileMember name content executable) =
      (Function.update state.files (root ++ parts) (some (.file content executable)), true) := by
  unfold place
  rw [hready.opened]
  dsimp only
  rw [hready.child_leaf]
  simp only [fileMember, Bool.false_eq_true, if_false, writeRegular, hready.absent,
    Option.isSome_none, unrefused, or_self, Int.toNat_natCast, lt_irrefl, take_length]

/-- The reader has added exactly the trees of these names below `base`. -/
structure Grown (state after : Extraction) (root base : Path) (names : List Name)
    (holds : Name → Path → Option Entry) : Prop where
  below : ∀ part ∈ names, ∀ path, after.files (root ++ (base ++ part :: path)) = holds part path
  elsewhere : ∀ path, (∀ part ∈ names, ¬root ++ (base ++ [part]) <+: path) →
    after.files path = state.files path
  seen : ∀ key ∈ after.seen, key ∈ state.seen ∨ ∃ part ∈ names, ∃ q,
    base ++ [part] <+: q ∧ (∀ part ∈ q, ProperName part) ∧ key = join q

theorem concat_prefix_iff {root base path : Path} {part other : Name} :
    root ++ (base ++ [part]) <+: root ++ (base ++ other :: path) ↔ part = other := by
  rw [prefix_append_right_inj, prefix_append_right_inj, cons_prefix_cons]
  exact ⟨And.left, fun h => ⟨h, nil_prefix⟩⟩

/-- The tree of one name leaves the reader ready for its siblings. -/
theorem Ready.of_sibling {state after : Extraction} {root : Path} (base : Path) {leaf other : Name}
    {holds : Path → Option Entry} (hready : Ready state root (base ++ [other]))
    (hrebuilt : Rebuilt state after root (base ++ [leaf]) holds) (hother : leaf ≠ other) :
    Ready after root (base ++ [other]) where
  nonempty := hready.nonempty
  proper := hready.proper
  above q hq := by
    rw [hrebuilt.elsewhere, hready.above q hq]
    intro hprefix
    rw [dropLast_concat] at hq
    have hlength := hprefix.length_le
    have hshort := hq.length_le
    simp only [length_append, length_singleton] at hlength
    omega
  fresh path := by
    rw [hrebuilt.elsewhere, hready.fresh path]
    rw [append_assoc, singleton_append]
    exact fun h => hother (concat_prefix_iff.mp h)
  unseen q hq hproper hmem := by
    rcases hrebuilt.seen _ hmem with hold | ⟨others, hothers, hothersProper, hkey⟩
    · exact hready.unseen q hq hproper hold
    · have hsame := join_injective (List.IsPrefix.ne_nil hq hready.nonempty)
        (List.IsPrefix.ne_nil hothers (by
          exact append_ne_nil_of_right_ne_nil _ (cons_ne_nil _ _))) hproper
        hothersProper hkey
      obtain ⟨rest, rfl⟩ := hothers
      rw [hsame, append_assoc, singleton_append, prefix_append_right_inj,
        cons_prefix_cons] at hq
      exact hother hq.1.symm

theorem Grown.refl (state : Extraction) (root base : Path) (holds : Name → Path → Option Entry) :
    Grown state state root base [] holds where
  below _ h := absurd h not_mem_nil
  elsewhere _ _ := rfl
  seen _ h := .inl h

/-- One more tree before those of the other names. -/
theorem Grown.cons {state middle after : Extraction} {root : Path} (base : Path) {leaf : Name}
    {names : List Name} {holds : Path → Option Entry} {others : Name → Path → Option Entry}
    (hfirst : Rebuilt state middle root (base ++ [leaf]) holds)
    (hrest : Grown middle after root base names others) (hleaf : leaf ∉ names) :
    Grown state after root base (leaf :: names)
      (fun part path => if leaf = part then holds path else others part path) where
  below part hpart path := by
    by_cases hsame : leaf = part
    · subst hsame
      rw [if_pos rfl, hrest.elsewhere, ← hfirst.below path, append_assoc,
        singleton_append]
      intro other hother h
      rw [concat_prefix_iff] at h
      exact hleaf (h ▸ hother)
    · rw [if_neg hsame]
      have hmem := mem_of_ne_of_mem (fun h => hsame h.symm) hpart
      exact hrest.below part hmem path
  elsewhere path hpath := by
    rw [hrest.elsewhere path (fun part hpart => hpath part (mem_cons_of_mem _ hpart))]
    exact hfirst.elsewhere path (hpath leaf mem_cons_self)
  seen key hkey := by
    rcases hrest.seen key hkey with hmiddle | ⟨part, hpart, hq⟩
    · rcases hfirst.seen key hmiddle with hold | hq
      · exact .inl hold
      · exact .inr ⟨leaf, mem_cons_self, hq⟩
    · exact .inr ⟨part, mem_cons_of_mem _ hpart, hq⟩

theorem holds_of_not_mem {entries : Entries} {part : Name} (hpart : part ∉ entries.names)
    (path : Path) : entries.holds part path = none := by
  match entries with
  | .empty => rw [Entries.holds]
  | .entry leaf tree rest =>
    rw [Entries.names, mem_cons, not_or] at hpart
    rw [Entries.holds, if_neg (fun h => hpart.1 h.symm)]
    exact holds_of_not_mem hpart.2 path

/-- The state after the member of a directory. -/
def Extraction.withDirectory (state : Extraction) (path : Path) (key : Bytes) (budget : Budget) :
    Extraction where
  files := Function.update state.files path (some .directory)
  seen := key :: state.seen
  budget := budget

theorem withDirectory_files_of_ne {state : Extraction} {path other : Path} {key : Bytes}
    {budget : Budget} (hne : other ≠ path) :
    (state.withDirectory path key budget).files other = state.files other :=
  Function.update_of_ne hne _ _

theorem Ready.inside {state : Extraction} {root parts : Path} (hready : Ready state root parts)
    {leaf : Name} (hleaf : ProperName leaf) (grown : Budget) :
    Ready (state.withDirectory (root ++ parts) (join parts) grown) root (parts ++ [leaf]) where
  nonempty := append_ne_nil_of_right_ne_nil _ (cons_ne_nil _ _)
  proper part hpart := by
    rcases mem_append.mp hpart with hpart | hpart
    · exact hready.proper part hpart
    · rw [mem_singleton.mp hpart]
      exact hleaf
  above q hq := by
    rw [dropLast_concat] at hq
    by_cases hsame : q = parts
    · subst hsame
      exact Function.update_self _ _ _
    · have hq' : q <+: parts.dropLast := by
        rw [← concat_getLastD hready.nonempty, prefix_concat_iff,
          concat_getLastD hready.nonempty] at hq
        exact hq.resolve_left hsame
      have hne : root ++ q ≠ root ++ parts := fun h => hsame (append_cancel_left h)
      rw [withDirectory_files_of_ne hne]
      exact hready.above q hq'
  fresh path := by
    have hne : root ++ (parts ++ [leaf] ++ path) ≠ root ++ parts := by
      intro h
      have hlength := congrArg List.length h
      simp only [length_append, length_singleton] at hlength
      omega
    rw [withDirectory_files_of_ne hne, append_assoc]
    exact hready.fresh _
  unseen q hq hproper hmem := by
    rcases mem_cons.mp hmem with hkey | hold
    · have hsame := join_injective (List.IsPrefix.ne_nil hq (by
        exact append_ne_nil_of_right_ne_nil _ (cons_ne_nil _ _))) hready.nonempty
        hproper hready.proper hkey
      have hlength := hq.length_le
      rw [hsame, length_append, length_singleton] at hlength
      omega
    · exact hready.unseen q ((prefix_append _ _).trans hq) hproper hold

theorem Rebuilt.of_grown {state after : Extraction} {root parts : Path} {entries : Entries}
    {grown : Budget} (hready : Ready state root parts)
    (hgrown : Grown (state.withDirectory (root ++ parts) (join parts) grown) after root parts
      entries.names entries.holds) :
    Rebuilt state after root parts (Tree.directory entries).holds where
  below path := by
    cases path with
    | nil =>
      rw [append_nil, hgrown.elsewhere, Tree.holds]
      · exact Function.update_self _ _ _
      · intro part _ h
        have hlength := h.length_le
        simp only [length_append, length_singleton] at hlength
        omega
    | cons part path =>
      rw [Tree.holds]
      by_cases hpart : part ∈ entries.names
      · exact hgrown.below part hpart path
      · rw [holds_of_not_mem hpart, hgrown.elsewhere]
        · have hne : root ++ (parts ++ part :: path) ≠ root ++ parts := by
            intro h
            have hlength := congrArg List.length h
            simp only [length_append, length_cons] at hlength
            omega
          rw [withDirectory_files_of_ne hne]
          exact hready.fresh _
        · intro other hother h
          rw [concat_prefix_iff] at h
          exact hpart (h ▸ hother)
  elsewhere path hpath := by
    rw [hgrown.elsewhere]
    · have hne : path ≠ root ++ parts := fun h => hpath (h ▸ prefix_rfl)
      exact withDirectory_files_of_ne hne
    · intro part _ h
      rw [← append_assoc] at h
      exact hpath ((prefix_append _ _).trans h)
  seen key hkey := by
    rcases hgrown.seen key hkey with hmade | ⟨part, -, q, hq, hproper, hjoin⟩
    · rcases mem_cons.mp hmade with hself | hold
      · exact .inr ⟨parts, prefix_rfl, hready.proper, hself⟩
      · exact .inl hold
    · exact .inr ⟨q, (prefix_append _ _).trans hq, hproper, hjoin⟩

theorem extractMembers_append {refused : Path → Bool} {root : Path} {state middle : Extraction}
    {members : List Member} (h : extractMembers refused root state members = (middle, true))
    (others : List Member) :
    extractMembers refused root state (members ++ others) =
      extractMembers refused root middle others := by
  induction members generalizing state with
  | nil =>
    cases h
    rfl
  | cons member members ih =>
    rw [extractMembers] at h
    rw [cons_append, extractMembers]
    split at h
    · exact absurd h (by simp only [Prod.mk.injEq, Bool.false_eq_true, and_false,
        not_false_eq_true])
    · rename_i next hnext
      exact ih h

theorem extractMember_directory {state : Extraction} {root parts : Path} {grown : Budget}
    (hready : Ready state root parts) (hrelative : relative (join parts) ≠ none)
    (hbudget : state.budget.add 0 = some grown) :
    extractMember unrefused root state (directoryMember (join parts)) =
      (state.withDirectory (root ++ parts) (join parts) grown, true) := by
  have hname := (relative_join hready.nonempty hready.proper hrelative).2
  have hcheck : state.check (directoryMember (join parts)) = some (parts, _) :=
    check_eq_some_iff.mpr ⟨hname, hready.unseen parts prefix_rfl hready.proper,
      ⟨.inl rfl, Bool.false_ne_true⟩, grown, hbudget, rfl⟩
  exact extractMember_of_check hcheck (place_directory hready rfl)

theorem extractMember_file {state : Extraction} {root parts : Path} {grown : Budget}
    {content : Bytes} (executable : Bool) (hready : Ready state root parts)
    (hrelative : relative (join parts) ≠ none)
    (hbudget : state.budget.add content.length = some grown) :
    extractMember unrefused root state (fileMember (join parts) content executable) =
      ({ state with
          files := Function.update state.files (root ++ parts) (some (.file content executable))
          seen := join parts :: state.seen
          budget := grown }, true) := by
  have hname := (relative_join hready.nonempty hready.proper hrelative).1
  have hcheck : state.check (fileMember (join parts) content executable) = some (parts, _) :=
    check_eq_some_iff.mpr ⟨hname, hready.unseen parts prefix_rfl hready.proper,
      ⟨.inr rfl, Bool.false_ne_true⟩, grown, hbudget, rfl⟩
  exact extractMember_of_check hcheck (place_file hready _ content executable)

theorem Rebuilt.file {state : Extraction} {root parts : Path} {grown : Budget}
    {content : Bytes} {executable : Bool} (hready : Ready state root parts) :
    Rebuilt state
      { state with
        files := Function.update state.files (root ++ parts) (some (.file content executable))
        seen := join parts :: state.seen
        budget := grown }
      root parts (Tree.file content executable).holds where
  below path := by
    cases path with
    | nil =>
      rw [append_nil, Tree.holds]
      exact Function.update_self _ _ _
    | cons part path =>
      have hne : root ++ (parts ++ part :: path) ≠ root ++ parts := by
        intro h
        have hlength := congrArg List.length h
        simp only [length_append, length_cons] at hlength
        omega
      rw [Tree.holds]
      exact (Function.update_of_ne hne _ _).trans (hready.fresh _)
  elsewhere path hpath := by
    have hne : path ≠ root ++ parts := fun h => hpath (h ▸ prefix_rfl)
    exact Function.update_of_ne hne _ _
  seen key hkey := by
    rcases mem_cons.mp hkey with hself | hold
    · exact .inr ⟨parts, prefix_rfl, hready.proper, hself⟩
    · exact .inl hold

theorem Grown.congr {state after : Extraction} {root base : Path} {names : List Name}
    {holds others : Name → Path → Option Entry} (hgrown : Grown state after root base names holds)
    (heq : ∀ part ∈ names, ∀ path, holds part path = others part path) :
    Grown state after root base names others where
  below part hpart path := (hgrown.below part hpart path).trans (heq part hpart path)
  elsewhere := hgrown.elsewhere
  seen := hgrown.seen

mutual
/-- The reader rebuilds a tree from the members of `visit`, in the same budget. -/
theorem extract_visit (tree : Tree) {budget grown : Budget} {members : List Member}
    {root parts : Path} {state : Extraction}
    (hvisit : visit budget (join parts) tree = some (grown, members)) (hdistinct : tree.Distinct)
    (hbudget : state.budget = budget) (hready : Ready state root parts) :
    ∃ after, extractMembers unrefused root state members = (after, true) ∧
      after.budget = grown ∧ Rebuilt state after root parts tree.holds := by
  match tree with
  | .directory entries =>
    simp only [visit, Option.bind_eq_bind, Option.bind_eq_some_iff, Option.guard_eq_some',
      Option.some.injEq, Prod.mk.injEq] at hvisit
    obtain ⟨_, hrelative, counted, hcounted, _, -, ⟨last, others⟩, hentries, rfl, rfl⟩ := hvisit
    rw [Tree.Distinct] at hdistinct
    have hmember := extractMember_directory hready hrelative (hbudget ▸ hcounted)
    obtain ⟨after, hafter, hlast, hgrown⟩ := extract_visitAll entries hentries hready.nonempty
      hdistinct rfl (fun leaf hleaf hproper => hready.inside hproper counted)
    refine ⟨after, ?_, hlast, .of_grown hready hgrown⟩
    rw [extractMembers, hmember]
    exact hafter
  | .file content executable =>
    simp only [visit, Option.bind_eq_bind, Option.bind_eq_some_iff, Option.guard_eq_some',
      Option.some.injEq, Prod.mk.injEq] at hvisit
    obtain ⟨_, hrelative, counted, hcounted, rfl, rfl⟩ := hvisit
    have hmember := extractMember_file executable hready hrelative
      (hbudget ▸ hcounted)
    refine ⟨_, ?_, rfl, .file hready⟩
    rw [extractMembers, hmember]
    rfl
  | .special =>
    rw [visit] at hvisit
    cases hvisit

theorem extract_visitAll (entries : Entries) {budget grown : Budget} {members : List Member}
    {root parts : Path} {state : Extraction}
    (hvisit : visitAll budget (join parts) entries = some (grown, members)) (hne : parts ≠ [])
    (hdistinct : entries.Distinct) (hbudget : state.budget = budget)
    (hready : ∀ leaf ∈ entries.names, ProperName leaf → Ready state root (parts ++ [leaf])) :
    ∃ after, extractMembers unrefused root state members = (after, true) ∧
      after.budget = grown ∧ Grown state after root parts entries.names entries.holds := by
  match entries with
  | .empty =>
    rw [visitAll] at hvisit
    cases hvisit
    exact ⟨state, rfl, hbudget, .refl state root parts _⟩
  | .entry leaf tree rest =>
    simp only [visitAll, ← join_concat hne, Option.bind_eq_bind, Option.bind_eq_some_iff,
      Option.some.injEq, Prod.mk.injEq] at hvisit
    obtain ⟨⟨counted, first⟩, hfirst, ⟨last, others⟩, hrest, rfl, rfl⟩ := hvisit
    rw [Entries.Distinct] at hdistinct
    obtain ⟨hleaf, htree, hothers⟩ := hdistinct
    obtain ⟨middle, hmiddle, hcounted, hrebuilt⟩ := extract_visit tree hfirst htree hbudget
      (hready leaf.val mem_cons_self leaf.property)
    have hsiblings : ∀ other ∈ rest.names, ProperName other →
        Ready middle root (parts ++ [other]) := by
      intro other hother hproper
      refine (hready other (mem_cons_of_mem _ hother) hproper).of_sibling _ hrebuilt ?_
      intro hsame
      exact hleaf (hsame ▸ hother)
    obtain ⟨after, hafter, hlast, hgrown⟩ :=
      extract_visitAll rest hrest hne hothers hcounted hsiblings
    refine ⟨after, ?_, hlast, (Grown.cons _ hrebuilt hgrown hleaf).congr ?_⟩
    · rw [extractMembers_append hmiddle]
      exact hafter
    · intro part _ path
      rw [Entries.holds]
end

/-! ## Whole archives -/

/-- A directory whose entries are selected. -/
structure Source where
  entries : Entries
  distinct : entries.Distinct

/-- The destination with the selected trees of the source, and nothing else. -/
def selectedHolds (source : Entries) (selected : List Leaf) : Path → Option Entry
  | [] => some .directory
  | part :: path => if part ∈ selected.map Subtype.val then source.holds part path else none

theorem holds_of_find {entries : Entries} {leaf : Leaf} {tree : Tree}
    (hfind : entries.find leaf = some tree) (path : Path) :
    entries.holds leaf.val path = tree.holds path := by
  match entries with
  | .empty => cases hfind
  | .entry first other rest =>
    rw [Entries.find] at hfind
    rw [Entries.holds]
    split at hfind
    · rename_i hsame
      cases hfind
      rw [if_pos (congrArg Subtype.val hsame)]
    · rename_i hother
      rw [if_neg (fun h => hother (Subtype.ext h))]
      exact holds_of_find hfind path

theorem distinct_of_find {entries : Entries} {leaf : Leaf} {tree : Tree}
    (hdistinct : entries.Distinct) (hfind : entries.find leaf = some tree) : tree.Distinct := by
  match entries with
  | .empty => cases hfind
  | .entry first other rest =>
    rw [Entries.find] at hfind
    rw [Entries.Distinct] at hdistinct
    split at hfind
    · cases hfind
      exact hdistinct.2.1
    · exact distinct_of_find hdistinct.2.2 hfind

theorem extract_produceTar {source : Entries} (hdistinct : source.Distinct)
    {selected : List Leaf} (hselected : selected.Nodup) {budget grown : Budget}
    {members : List Member} (root : Path) (state : Extraction)
    (hproduce : produceTar source selected budget = some (grown, members))
    (hbudget : state.budget = budget)
    (hready : ∀ leaf ∈ selected, Ready state root [leaf.val]) :
    ∃ after, extractMembers unrefused root state members = (after, true) ∧
      after.budget = grown ∧
      Grown state after root [] (selected.map Subtype.val) source.holds := by
  induction selected generalizing budget members state with
  | nil =>
    cases hproduce
    exact ⟨state, rfl, hbudget, .refl state root [] _⟩
  | cons leaf selected ih =>
    obtain ⟨hleaf, hselected⟩ := nodup_cons.mp hselected
    simp only [produceTar, Option.bind_eq_bind, Option.bind_eq_some_iff, Option.guard_eq_some',
      Option.some.injEq, Prod.mk.injEq] at hproduce
    obtain ⟨_, -, tree, htree, ⟨counted, first⟩, hfirst, ⟨last, others⟩, hrest, rfl, rfl⟩ :=
      hproduce
    have hname : leaf.val = join [leaf.val] := by rw [join, intercalate_singleton]
    rw [hname] at hfirst
    obtain ⟨middle, hmiddle, hcounted, hrebuilt⟩ := extract_visit tree hfirst
      (distinct_of_find hdistinct htree) hbudget (hready leaf mem_cons_self)
    have hleaf' : leaf.val ∉ selected.map Subtype.val := by
      intro h
      obtain ⟨other, hother, hsame⟩ := mem_map.mp h
      exact hleaf (Subtype.ext hsame ▸ hother)
    have hsiblings : ∀ other ∈ selected, Ready middle root [other.val] := by
      intro other hother
      refine Ready.of_sibling [] (hready other (mem_cons_of_mem _ hother))
        hrebuilt ?_
      intro hsame
      exact hleaf (Subtype.ext hsame ▸ hother)
    obtain ⟨after, hafter, hlast, hgrown⟩ := ih hselected _ hrest hcounted hsiblings
    refine ⟨after, ?_, hlast, (Grown.cons [] hrebuilt hgrown hleaf').congr ?_⟩
    · rw [extractMembers_append hmiddle]
      exact hafter
    · intro part _ path
      split
      · rename_i hsame
        rw [← hsame]
        exact (holds_of_find htree path).symm
      · rfl

/-- The start of an extraction into an empty directory. -/
theorem ready_start {files : Files} {root : Path} (budget : Budget)
    (hroot : files root = some .directory)
    (hempty : ∀ path, path ≠ [] → files (root ++ path) = none) (leaf : Leaf) :
    Ready ⟨files, [], budget⟩ root [leaf.val] where
  nonempty := cons_ne_nil _ _
  proper part hpart := by
    rw [mem_singleton.mp hpart]
    exact leaf.property
  above q hq := by
    rw [prefix_nil.mp hq, append_nil]
    exact hroot
  fresh path := hempty _ (cons_ne_nil _ _)
  unseen _ _ _ := not_mem_nil

theorem extractTar_produceTar (source : Source) {selected : List Leaf} (hselected : selected.Nodup)
    {budget grown : Budget} {members : List Member}
    (hproduce : produceTar source.entries selected budget = some (grown, members))
    {files : Files} {destination : Path} (hroot : files destination = some .directory)
    (hempty : ∀ path, path ≠ [] → files (destination ++ path) = none) :
    ∃ after, extractTar unrefused ⟨members, false⟩ files destination budget = (after, true) ∧
      after.budget = grown ∧
      (∀ path, after.files (destination ++ path) = selectedHolds source.entries selected path) ∧
      ∀ path, ¬destination <+: path → after.files path = files path := by
  obtain ⟨after, hafter, hlast, hgrown⟩ := extract_produceTar source.distinct hselected
    destination ⟨files, [], budget⟩ hproduce rfl
    (fun leaf _ => ready_start budget hroot hempty leaf)
  refine ⟨after, ?_, hlast, ?_, ?_⟩
  · unfold extractTar
    rw [if_pos hroot]
    dsimp only
    rw [hafter]
    rfl
  · intro path
    cases path with
    | nil =>
      rw [append_nil, selectedHolds, hgrown.elsewhere, ← hroot]
      intro part _ h
      have hlength := h.length_le
      simp only [length_append, nil_append, length_singleton] at hlength
      omega
    | cons part path =>
      rw [selectedHolds]
      by_cases hpart : part ∈ selected.map Subtype.val
      · rw [if_pos hpart]
        exact hgrown.below part hpart path
      · rw [if_neg hpart, hgrown.elsewhere]
        · exact hempty _ (cons_ne_nil _ _)
        · intro other hother h
          rw [← nil_append (part :: path), concat_prefix_iff] at h
          exact hpart (h ▸ hother)
  · intro path hpath
    rw [hgrown.elsewhere]
    intro part _ h
    exact hpath ((prefix_append _ _).trans h)

example :
    produceTar
      (.entry ⟨[0x61], by decide⟩
        (.directory (.entry ⟨[0x62], by decide⟩ (.file [7] true) .empty)) .empty)
      [⟨[0x61], by decide⟩] ⟨1, 2, 0, 0⟩ =
    some (⟨1, 2, 1, 2⟩, [directoryMember [0x61], fileMember [0x61, slash, 0x62] [7] true]) := by
  decide

/-- One file in a directory that the stream does not name. -/
def nestedStream : TarStream where
  members := [fileMember [0x61, slash, 0x62] [] false]
  broken := false

def emptyDestination : Files := fun path => if path = [] then some .directory else none

end Preseed.Compz
