import Mathlib.Algebra.Order.BigOperators.Group.List
import Mathlib.Algebra.Order.Ring.Int
import Mathlib.Algebra.Order.Ring.Nat
import Mathlib.Data.List.DropRight
import Preseed.Texts.Cursors
import Preseed.Texts.Occurrences

/-!
# Extraction of tar streams

`extract_tar` reads a stream of members and creates their directories and files below the
destination, each name after a check and each member against a budget. The files are a
function of full paths; a name on a descriptor is resolved where the system resolves it.
-/

namespace Preseed.Compz

open List

open Texts (Bytes)

abbrev Name := Bytes

abbrev Path := List Name

/-- Names are compared by their bytes. -/
instance lawfulBEq_name : LawfulBEq Name := inferInstance

def slash : UInt8 := 0x2f

def dot : Name := [0x2e]

def dotdot : Name := [0x2e, 0x2e]

/-- `while name.startswith('./'): name = name[2:]`. -/
def dropCurrent : Bytes → Bytes
  | 0x2e :: 0x2f :: rest => dropCurrent rest
  | name => name

/-- A part that `relative` refuses in a name. -/
def badPart (part : Name) : Prop :=
  part ∈ [[], dot, dotdot] ∨ 0 ∈ part ∨ 255 < part.length

instance (part : Name) : Decidable (badPart part) := inferInstanceAs (Decidable (_ ∨ _ ∨ _))

/-- The name as `relative` checks it: without a leading `./` and slashes at its end. -/
def bareName (name : Bytes) : Bytes := (dropCurrent name).rdropWhile (· == slash)

def unsafeName (name : Bytes) (parts : Path) : Prop :=
  name = [] ∨ 4096 < name.length ∨ 128 < parts.length ∨ name.head? = some slash ∨
    0x5c ∈ name ∨ 0x3a ∈ parts.headD [] ∨ ∃ part ∈ parts, badPart part

instance (name : Bytes) (parts : Path) : Decidable (unsafeName name parts) :=
  inferInstanceAs (Decidable (_ ∨ _ ∨ _ ∨ _ ∨ _ ∨ _ ∨ _))

def relative (name : Bytes) : Option Path :=
  if unsafeName (bareName name) ((bareName name).splitOn slash) then none
  else some ((bareName name).splitOn slash)

/-- `'/'.join(parts)`. -/
def join (parts : Path) : Bytes := [slash].intercalate parts

structure Budget where
  maxBytes : ℤ
  maxFiles : ℤ
  usedBytes : ℤ
  usedFiles : ℤ
deriving DecidableEq

/-- `Budget.add` with its default count of one. An overrun ends the extraction. -/
def Budget.add (budget : Budget) (size : ℤ) : Option Budget :=
  if size < 0 then none
  else if budget.maxBytes < budget.usedBytes + size ∨
      budget.maxFiles < budget.usedFiles + 1 then none
  else some { budget with
    usedBytes := budget.usedBytes + size, usedFiles := budget.usedFiles + 1 }

/-! ## The files below the destination -/

/-- Links and special files are `other`. -/
inductive Entry
  | directory
  | file (content : Bytes) (executable : Bool)
  | other
deriving DecidableEq

abbrev Files := Path → Option Entry

/-- The path that a name on the descriptor of a directory means. -/
def child (current : Path) (part : Name) : Path :=
  if part = dot then current
  else if part = dotdot then current.dropLast
  else current ++ [part]

/-- `os.mkdir`; `FileExistsError` is `some` of the same files. The file system may refuse
a new entry at some paths. -/
def mkdir (refused : Path → Bool) (files : Files) (current : Path) (part : Name) :
    Option Files :=
  if (files (child current part)).isSome then some files
  else if part = [] ∨ refused (child current part) then none
  else some (Function.update files (child current part) (some .directory))

def directoryFd (refused : Path → Bool) (create : Bool) :
    Files → (current : Path) → (parts : List Name) → Files × Option Path
  | files, current, [] => (files, some current)
  | files, current, part :: parts =>
      match if create then mkdir refused files current part else some files with
      | none => (files, none)
      | some files =>
          if files (child current part) = some .directory then
            directoryFd refused create files (child current part) parts
          else (files, none)

/-- A member as `tarfile` reads it. `data` is what can be copied of it before the stream
or the room for it ends. -/
structure Member where
  name : Bytes
  isdir : Bool
  isreg : Bool
  issparse : Bool
  size : ℤ
  executable : Bool
  data : Option Bytes
deriving DecidableEq

/-- The creation of a regular file with `O_EXCL`, `copy_exact` and `fchmod`. -/
def writeRegular (refused : Path → Bool) (files : Files) (path : Path) (member : Member) :
    Files × Bool :=
  if (files path).isSome ∨ refused path then (files, false)
  else
    match member.data with
    | none => (Function.update files path (some (.file [] false)), false)
    | some data =>
        if data.length < member.size.toNat then
          (Function.update files path (some (.file data false)), false)
        else
          (Function.update files path
            (some (.file (data.take member.size.toNat) member.executable)), true)

/-- The entry of a directory member: one that exists must open as a directory. -/
def makeDirectory (refused : Path → Bool) (files : Files) (parent : Path) (leaf : Name) :
    Files × Bool :=
  match mkdir refused files parent leaf with
  | none => (files, false)
  | some made =>
      ((directoryFd refused false made parent [leaf]).1,
        (directoryFd refused false made parent [leaf]).2.isSome)

/-- The entry of a member that passed the checks. -/
def place (refused : Path → Bool) (root : Path) (files : Files) (parts : Path)
    (member : Member) : Files × Bool :=
  match directoryFd refused true files root parts.dropLast with
  | (files, none) => (files, false)
  | (files, some parent) =>
      if member.isdir then makeDirectory refused files parent (parts.getLastD [])
      else writeRegular refused files (child parent (parts.getLastD [])) member

/-- The bytes of a member that the budget counts. -/
def Member.countedSize (member : Member) : ℤ := if member.isreg then member.size else 0

structure Extraction where
  files : Files
  seen : List Bytes
  budget : Budget

/-- The checks of one member: its name, a duplicate, its kind and the budget. -/
def Extraction.check (state : Extraction) (member : Member) : Option (Path × Extraction) := do
  let parts ← relative member.name
  guard (join parts ∉ state.seen)
  guard ((member.isdir ∨ member.isreg) ∧ ¬member.issparse)
  let budget ← state.budget.add member.countedSize
  some (parts, { state with seen := join parts :: state.seen, budget := budget })

def extractMember (refused : Path → Bool) (root : Path) (state : Extraction)
    (member : Member) : Extraction × Bool :=
  if (member.name = dot ∨ member.name = dot ++ [slash]) ∧ member.isdir then (state, true)
  else
    match state.check member with
    | none => (state, false)
    | some (parts, state) =>
        let placed := place refused root state.files parts member
        ({ state with files := placed.1 }, placed.2)

def extractMembers (refused : Path → Bool) (root : Path) :
    Extraction → List Member → Extraction × Bool
  | state, [] => (state, true)
  | state, member :: members =>
      match extractMember refused root state member with
      | (state, false) => (state, false)
      | (state, true) => extractMembers refused root state members

/-- A stream: its members in order, and whether reading on after them fails. -/
structure TarStream where
  members : List Member
  broken : Bool

/-- What `extract_tar` leaves, and whether it returned. -/
def extractTar (refused : Path → Bool) (stream : TarStream) (files : Files)
    (destination : Path) (budget : Budget) : Extraction × Bool :=
  let start : Extraction := ⟨files, [], budget⟩
  if files destination = some .directory then
    let result := extractMembers refused destination start stream.members
    (result.1, result.2 && !stream.broken)
  else (start, false)

/-! ## Names that pass the check -/

/-- A name that means an entry of a directory. -/
def ProperName (part : Name) : Prop :=
  part ≠ [] ∧ part ≠ dot ∧ part ≠ dotdot ∧ slash ∉ part

instance (part : Name) : Decidable (ProperName part) := inferInstanceAs (Decidable (_ ∧ _ ∧ _ ∧ _))

variable {current : Path}

theorem child_of_properName {part : Name} (hpart : ProperName part) :
    child current part = current ++ [part] := by
  unfold child
  rw [if_neg hpart.2.1, if_neg hpart.2.2.1]

variable {parts : Path}

theorem relative_sound {name : Bytes} (hparts : relative name = some parts) :
    parts ≠ [] ∧ parts.length ≤ 128 ∧ ∀ part ∈ parts, ProperName part := by
  unfold relative at hparts
  split at hparts
  · cases hparts
  · rename_i hchecks
    simp only [unsafeName, not_or] at hchecks
    obtain ⟨-, -, hlength, -, -, -, hbad⟩ := hchecks
    cases hparts
    refine ⟨splitOn_ne_nil _ _, by omega, fun part hpart => ?_⟩
    have hgood : ¬badPart part := fun h => hbad ⟨part, hpart, h⟩
    simp only [badPart, mem_cons, not_mem_nil, or_false, not_or] at hgood
    exact ⟨hgood.1.1, hgood.1.2.1, hgood.1.2.2, Texts.not_mem_of_mem_splitOn hpart⟩

/-! ## What one member changes -/

/-- Every change from `before` to `after` creates a directory on the way from `base` along
`parts`. -/
def CreatesDirectories (base : Path) (parts : Path) (before after : Files) : Prop :=
  ∀ path, after path = before path ∨
    before path = none ∧ after path = some .directory ∧
      ∃ p, p ≠ [] ∧ p <+: parts ∧ path = base ++ p

theorem CreatesDirectories.refl (base parts : Path) (files : Files) :
    CreatesDirectories base parts files files :=
  fun _ => .inl rfl

variable {refused : Path → Bool} {files : Files}

theorem mkdir_creates {made : Files} {part : Name} (hpart : ProperName part)
    (hmade : mkdir refused files current part = some made) :
    CreatesDirectories current [part] files made := by
  unfold mkdir at hmade
  rw [child_of_properName hpart] at hmade
  split at hmade
  · cases hmade
    exact .refl _ _ _
  · rename_i hfree
    split at hmade
    · cases hmade
    · cases hmade
      intro path
      by_cases hpath : path = current ++ [part]
      · subst hpath
        right
        have hnone : files (current ++ [part]) = none := by
          simpa only [Option.not_isSome_iff_eq_none] using hfree
        refine ⟨hnone, Function.update_self _ _ _, [part], ?_, ?_, rfl⟩
        · exact cons_ne_nil _ _
        · exact prefix_rfl
      · left
        exact Function.update_of_ne hpath _ _

variable {before after : Files}

/-- The changes of a walk: those of its first step, then those further down. -/
theorem CreatesDirectories.step {part : Name} {made : Files}
    (hfirst : CreatesDirectories current [part] before made)
    (hrest : CreatesDirectories (current ++ [part]) parts made after) :
    CreatesDirectories current (part :: parts) before after := by
  intro path
  rcases hrest path with hsame | ⟨hnone, hafter, p, hne, hp, hpath⟩
  · rcases hfirst path with hbefore | ⟨hnone, hmade, p, hne, hp, hpath⟩
    · left
      rw [hsame, hbefore]
    · right
      refine ⟨hnone, by rw [hsame, hmade], p, hne, ?_, hpath⟩
      exact hp.trans ⟨parts, rfl⟩
  · rcases hfirst path with hbefore | ⟨-, hmade, -⟩
    · right
      refine ⟨by rw [← hbefore, hnone], hafter, part :: p, cons_ne_nil _ _, ?_, ?_⟩
      · exact cons_prefix_cons.mpr ⟨rfl, hp⟩
      · rw [hpath, append_assoc, singleton_append]
    · rw [hnone] at hmade
      cases hmade

variable (current refused files) in
theorem directoryFd_creates (create : Bool) {parts : List Name}
    (hparts : ∀ part ∈ parts, ProperName part) :
    CreatesDirectories current parts files (directoryFd refused create files current parts).1 ∧
      ∀ opened, (directoryFd refused create files current parts).2 = some opened →
        opened = current ++ parts := by
  induction parts generalizing files current with
  | nil =>
    refine ⟨.refl _ _ _, fun opened hopened => ?_⟩
    cases hopened
    rw [append_nil]
  | cons part parts ih =>
    have hpart := hparts part mem_cons_self
    have hrest : ∀ other ∈ parts, ProperName other :=
      fun other hother => hparts other (mem_cons_of_mem _ hother)
    have hfirst {made : Files}
        (hmade : (if create then mkdir refused files current part else some files) = some made) :
        CreatesDirectories current [part] files made := by
      split at hmade
      · exact mkdir_creates hpart hmade
      · cases hmade
        exact .refl _ _ _
    unfold directoryFd
    rw [child_of_properName hpart]
    split
    · refine ⟨.refl _ _ _, fun opened hopened => ?_⟩
      cases hopened
    · rename_i made hmade
      split
      · obtain ⟨hcreates, hopened⟩ := ih (current ++ [part]) made hrest
        refine ⟨(hfirst hmade).step hcreates, fun opened h => ?_⟩
        rw [hopened opened h, append_assoc, singleton_append]
      · refine ⟨(hfirst hmade).step (.refl _ _ _), fun opened hopened => ?_⟩
        cases hopened

theorem directoryFd_open (refused : Path → Bool) (files : Files) (current : Path)
    (parts : List Name) : (directoryFd refused false files current parts).1 = files := by
  induction parts generalizing current with
  | nil => rfl
  | cons part parts ih =>
    simp only [directoryFd, Bool.false_eq_true, if_false]
    split
    · exact ih _
    · rfl

/-- What a member with these parts may change: it creates directories on its path, and at
its path a file of at most `size` bytes. -/
def Places (root parts : Path) (size : ℕ) (before after : Files) : Prop :=
  ∀ path, after path = before path ∨
    before path = none ∧ (∃ p, p ≠ [] ∧ p <+: parts ∧ path = root ++ p) ∧
      (after path = some .directory ∨
        path = root ++ parts ∧ ∃ content executable,
          after path = some (.file content executable) ∧ content.length ≤ size)

variable {root : Path}

theorem CreatesDirectories.places {dirs : Path} (size : ℕ)
    (hcreates : CreatesDirectories root dirs before after) (hdirs : dirs <+: parts) :
    Places root parts size before after := by
  intro path
  rcases hcreates path with hsame | ⟨hnone, hafter, p, hne, hp, hpath⟩
  · exact .inl hsame
  · exact .inr ⟨hnone, ⟨p, hne, hp.trans hdirs, hpath⟩, .inl hafter⟩

variable {middle : Files} {size : ℕ}

theorem Places.trans (hfirst : Places root parts size before middle)
    (hsecond : Places root parts size middle after) : Places root parts size before after := by
  intro path
  rcases hsecond path with hsame | ⟨hnone, hpath, hafter⟩
  · rw [hsame]
    exact hfirst path
  · rcases hfirst path with hsame | ⟨-, -, hmiddle⟩
    · exact .inr ⟨by rw [← hsame, hnone], hpath, hafter⟩
    · rw [hnone] at hmiddle
      rcases hmiddle with h | ⟨-, content, executable, h, -⟩
      all_goals cases h

variable {member : Member}

theorem writeRegular_places (hparts : parts ≠ []) :
    Places root parts member.size.toNat files
      (writeRegular refused files (root ++ parts) member).1 := by
  have hupdate {content : Bytes} {executable : Bool} (hfree : files (root ++ parts) = none)
      (hlength : content.length ≤ member.size.toNat) :
      Places root parts member.size.toNat files
        (Function.update files (root ++ parts) (some (.file content executable))) := by
    intro path
    by_cases hpath : path = root ++ parts
    · subst hpath
      right
      refine ⟨hfree, ⟨parts, hparts, prefix_rfl, rfl⟩, .inr ⟨rfl, content, executable, ?_, ?_⟩⟩
      · exact Function.update_self _ _ _
      · exact hlength
    · left
      exact Function.update_of_ne hpath _ _
  unfold writeRegular
  split
  · exact fun _ => .inl rfl
  · rename_i hfree
    simp only [not_or, Option.not_isSome_iff_eq_none] at hfree
    split
    · exact hupdate hfree.1 (Nat.zero_le _)
    · rename_i data _
      split
      · exact hupdate hfree.1 (by omega)
      · exact hupdate hfree.1 (by rw [length_take]; omega)

theorem makeDirectory_creates {parent : Path} {leaf : Name} (hleaf : ProperName leaf) :
    CreatesDirectories parent [leaf] files (makeDirectory refused files parent leaf).1 := by
  unfold makeDirectory
  split
  · exact .refl _ _ _
  · rename_i made hmade
    have hopen := directoryFd_open refused made parent [leaf]
    rw [hopen]
    exact mkdir_creates hleaf hmade

theorem concat_getLastD (hne : parts ≠ []) :
    parts.dropLast ++ [parts.getLastD []] = parts := by
  rw [getLastD_eq_getLast?, getLast?_eq_some_getLast hne, Option.getD_some]
  exact dropLast_concat_getLast hne

theorem getLastD_mem (hne : parts ≠ []) : parts.getLastD [] ∈ parts := by
  have hlast : parts.getLastD [] ∈ parts.dropLast ++ [parts.getLastD []] :=
    mem_append_right _ mem_cons_self
  rwa [concat_getLastD hne] at hlast

variable (refused files root) in
theorem place_places (hne : parts ≠ []) (hparts : ∀ part ∈ parts, ProperName part)
    (hkind : member.isdir ∨ member.isreg) :
    Places root parts member.countedSize.toNat files (place refused root files parts member).1 := by
  have hdirs : ∀ part ∈ parts.dropLast, ProperName part :=
    fun part hpart => hparts part (dropLast_subset _ hpart)
  have hleaf : ProperName (parts.getLastD []) := hparts _ (getLastD_mem hne)
  obtain ⟨hcreates, hopened⟩ :=
    directoryFd_creates root refused files true hdirs
  have hparents := hcreates.places member.countedSize.toNat ( dropLast_prefix parts)
  unfold place
  split
  · rename_i made hmade
    rw [hmade] at hparents
    exact hparents
  · rename_i made parent hmade
    rw [hmade] at hparents hopened
    have hparent : parent = root ++ parts.dropLast := hopened parent rfl
    split
    · refine hparents.trans ?_
      intro path
      rcases makeDirectory_creates hleaf path with hsame | ⟨hnone, hafter, p, hp, hprefix, hpath⟩
      · exact .inl hsame
      · right
        refine ⟨hnone, ⟨parts.dropLast ++ p, ?_, ?_, ?_⟩, .inl hafter⟩
        · exact append_ne_nil_of_right_ne_nil _ hp
        · conv => right; rw [← concat_getLastD hne]
          exact (prefix_append_right_inj _).mpr hprefix
        · rw [hpath, hparent, append_assoc]
    · rename_i hfile
      have hreg : member.isreg = true := hkind.resolve_left hfile
      have hsize : member.countedSize = member.size := if_pos hreg
      rw [child_of_properName hleaf, hparent, append_assoc, concat_getLastD hne]
      rw [hsize] at hparents ⊢
      exact hparents.trans (writeRegular_places hne)

/-! ## What a stream changes -/

/-- The bytes of a file that was created. -/
def newBytes (before after : Files) (path : Path) : ℕ :=
  match before path, after path with
  | none, some (.file content _) => content.length
  | _, _ => 0

/-- Every change creates a directory on the way to a counted path, or its file. -/
def Confined (before : Files) (root : Path) (counted : List Path) (after : Files) : Prop :=
  ∀ path, after path = before path ∨
    before path = none ∧ ∃ target ∈ counted, (∃ p, p ≠ [] ∧ p <+: target ∧ path = root ++ p) ∧
      (after path = some .directory ∨
        path = root ++ target ∧ ∃ content executable, after path = some (.file content executable))

/-- What holds between the members of a stream; `counted` are the paths of the members that
passed the checks. -/
structure Accounted (before : Files) (root : Path) (budget : Budget) (counted : List Path)
    (state : Extraction) : Prop where
  confined : Confined before root counted state.files
  distinct : counted.Nodup
  short : ∀ target ∈ counted, target.length ≤ 128
  seen : ∀ target ∈ counted, join target ∈ state.seen
  maxBytes : state.budget.maxBytes = budget.maxBytes
  maxFiles : state.budget.maxFiles = budget.maxFiles
  files : state.budget.usedFiles = budget.usedFiles + counted.length
  bytes : budget.usedBytes +
    (counted.map fun target => newBytes before state.files (root ++ target)).sum ≤
      state.budget.usedBytes
  within : counted = [] ∨ state.budget.usedFiles ≤ state.budget.maxFiles ∧
    state.budget.usedBytes ≤ state.budget.maxBytes

theorem Accounted.start (files : Files) (root : Path) (budget : Budget) :
    Accounted files root budget [] ⟨files, [], budget⟩ where
  confined _ := .inl rfl
  distinct := nodup_nil
  short _ h := absurd h not_mem_nil
  seen _ h := absurd h not_mem_nil
  maxBytes := rfl
  maxFiles := rfl
  files := by simp only [length_nil, Nat.cast_zero, add_zero]
  bytes := by simp only [map_nil, sum_nil, Nat.cast_zero, add_zero, le_refl]
  within := .inl rfl

variable {counted : List Path}

theorem Confined.places (hconfined : Confined before root counted middle)
    (hplaces : Places root parts size middle after) :
    Confined before root (parts :: counted) after := by
  intro path
  rcases hplaces path with hsame | ⟨hnone, hpath, hafter⟩
  · rw [hsame]
    rcases hconfined path with hbefore | ⟨hnone, target, htarget, hrest⟩
    · exact .inl hbefore
    · exact .inr ⟨hnone, target, mem_cons_of_mem _ htarget, hrest⟩
  · have hbefore : before path = none := by
      rcases hconfined path with hbefore | ⟨hbefore, -⟩
      · rw [← hbefore, hnone]
      · exact hbefore
    refine .inr ⟨hbefore, parts, mem_cons_self, hpath, ?_⟩
    rcases hafter with hdirectory | ⟨hparts, content, executable, hfile, -⟩
    · exact .inl hdirectory
    · exact .inr ⟨hparts, content, executable, hfile⟩

theorem newBytes_le_of_places {target : Path} (hplaces : Places root parts size middle after)
    (htarget : target ≠ parts) :
    newBytes before after (root ++ target) ≤ newBytes before middle (root ++ target) := by
  unfold newBytes
  rcases hplaces (root ++ target) with hsame | ⟨-, -, hdirectory | ⟨hparts, -⟩⟩
  · rw [hsame]
  · rw [hdirectory]
    split
    · simp_all only [Option.some.injEq, reduceCtorEq]
    · exact Nat.zero_le _
  · exact absurd (append_cancel_left hparts) htarget

theorem newBytes_le_size (hconfined : Confined before root counted middle)
    (hplaces : Places root parts size middle after) (hparts : parts ∉ counted) :
    newBytes before after (root ++ parts) ≤ size := by
  unfold newBytes
  split
  · rename_i content executable hnone hfile
    rcases hplaces (root ++ parts) with
      hsame | ⟨-, -, hdirectory | ⟨-, content', executable', h, hsize⟩⟩
    · rw [hfile] at hsame
      rcases hconfined (root ++ parts) with hbefore | ⟨-, target, htarget, -, hdirectory | ⟨h, -⟩⟩
      · rw [hnone, ← hsame] at hbefore
        cases hbefore
      · rw [hdirectory] at hsame
        simp only [Option.some.injEq, reduceCtorEq] at hsame
      · rw [append_cancel_left h] at hparts
        exact absurd htarget hparts
    · rw [hdirectory] at hfile
      simp only [Option.some.injEq, reduceCtorEq] at hfile
    · rw [h] at hfile
      cases hfile
      exact hsize
  · exact Nat.zero_le _

variable {state : Extraction}

theorem check_eq_some_iff {checked : Extraction} :
    state.check member = some (parts, checked) ↔
      relative member.name = some parts ∧ join parts ∉ state.seen ∧
        ((member.isdir ∨ member.isreg) ∧ ¬member.issparse) ∧
        ∃ budget, state.budget.add member.countedSize = some budget ∧
          checked = { state with seen := join parts :: state.seen, budget := budget } := by
  simp only [Extraction.check, Option.bind_eq_bind, Option.bind_eq_some_iff,
    Option.guard_eq_some', Option.some.injEq, Prod.mk.injEq]
  constructor
  · rintro ⟨_, hrelative, _, hseen, _, hkind, budget, hbudget, rfl, rfl⟩
    exact ⟨hrelative, hseen, hkind, budget, hbudget, rfl⟩
  · rintro ⟨hrelative, hseen, hkind, budget, hbudget, rfl⟩
    exact ⟨parts, hrelative, (), hseen, (), hkind, budget, hbudget, rfl, rfl⟩

variable {budget : Budget}

theorem add_sound {grown : Budget} {size : ℤ} (h : budget.add size = some grown) :
    0 ≤ size ∧ grown.maxBytes = budget.maxBytes ∧ grown.maxFiles = budget.maxFiles ∧
      grown.usedBytes = budget.usedBytes + size ∧ grown.usedFiles = budget.usedFiles + 1 ∧
      grown.usedFiles ≤ grown.maxFiles ∧ grown.usedBytes ≤ grown.maxBytes := by
  unfold Budget.add at h
  split at h
  · cases h
  · split at h
    · cases h
    · cases h
      refine ⟨by omega, rfl, rfl, rfl, rfl, ?_, ?_⟩
      · change budget.usedFiles + 1 ≤ budget.maxFiles
        omega
      · change budget.usedBytes + size ≤ budget.maxBytes
        omega

theorem Accounted.placed {checked : Extraction}
    (haccounted : Accounted before root budget counted state)
    (hcheck : state.check member = some (parts, checked))
    (hplaces : Places root parts member.countedSize.toNat state.files after) :
    Accounted before root budget (parts :: counted) { checked with files := after } := by
  obtain ⟨hrelative, hseen, -, grown, hadd, rfl⟩ := check_eq_some_iff.mp hcheck
  obtain ⟨hsize, hmaxBytes, hmaxFiles, hbytes, hfiles, hwithinFiles, hwithinBytes⟩ :=
    add_sound hadd
  have hnew : parts ∉ counted := fun h => hseen (haccounted.seen parts h)
  refine
    { confined := haccounted.confined.places hplaces
      distinct := nodup_cons.mpr ⟨hnew, haccounted.distinct⟩
      short := forall_mem_cons.mpr ⟨(relative_sound hrelative).2.1, haccounted.short⟩
      seen := forall_mem_cons.mpr ⟨mem_cons_self, fun target htarget =>
        mem_cons_of_mem _ (haccounted.seen target htarget)⟩
      maxBytes := hmaxBytes.trans haccounted.maxBytes
      maxFiles := hmaxFiles.trans haccounted.maxFiles
      files := ?_
      bytes := ?_
      within := .inr ⟨hwithinFiles, hwithinBytes⟩ }
  · have hold := haccounted.files
    rw [length_cons, Nat.cast_succ]
    change grown.usedFiles = _
    omega
  · have hfirst := newBytes_le_size haccounted.confined hplaces hnew
    have hothers :
        (counted.map fun target => newBytes before after (root ++ target)).sum ≤
          (counted.map fun target => newBytes before state.files (root ++ target)).sum := by
      apply sum_le_sum
      intro target htarget
      apply newBytes_le_of_places hplaces
      rintro rfl
      exact hnew htarget
    have hold := haccounted.bytes
    rw [map_cons, sum_cons, Nat.cast_add]
    change budget.usedBytes + ((newBytes before after (root ++ parts) : ℤ) +
      ((counted.map fun target => newBytes before after (root ++ target)).sum : ℕ)) ≤ _
    rw [show _ = grown.usedBytes from rfl]
    omega

variable (refused) in
theorem extractMember_accounted (member : Member)
    (haccounted : Accounted before root budget counted state) :
    ∃ counted', Accounted before root budget counted'
      (extractMember refused root state member).1 := by
  unfold extractMember
  split
  · exact ⟨counted, haccounted⟩
  · split
    · exact ⟨counted, haccounted⟩
    · rename_i parts checked hcheck
      obtain ⟨hrelative, -, hkind, grown, -, hchecked⟩ := check_eq_some_iff.mp hcheck
      obtain ⟨hne, -, hproper⟩ := relative_sound hrelative
      have hfiles : checked.files = state.files := by rw [hchecked]
      have hplaces := place_places refused checked.files root hne hproper hkind.1
      exact ⟨parts :: counted, haccounted.placed hcheck (hfiles ▸ hplaces)⟩

theorem extractMembers_accounted (members : List Member)
    (haccounted : Accounted before root budget counted state) :
    ∃ counted', Accounted before root budget counted'
      (extractMembers refused root state members).1 := by
  induction members generalizing counted state with
  | nil => exact ⟨counted, haccounted⟩
  | cons member members ih =>
    obtain ⟨counted', hmember⟩ := extractMember_accounted refused member haccounted
    unfold extractMembers
    split
    · rename_i stopped hstopped
      rw [hstopped] at hmember
      exact ⟨counted', hmember⟩
    · rename_i next hnext
      rw [hnext] at hmember
      exact ih hmember

theorem extractTar_accounted (refused : Path → Bool) (stream : TarStream) (files : Files)
    (destination : Path) (budget : Budget) :
    ∃ counted, Accounted files destination budget counted
      (extractTar refused stream files destination budget).1 := by
  have hstart := Accounted.start files destination budget
  unfold extractTar
  split
  · exact extractMembers_accounted stream.members hstart
  · exact ⟨[], hstart⟩

end Preseed.Compz
