import Preseed.ThemeArchive.Names

/-!
# The index of a theme archive

`Archive.__init__` with `_reserve`, `_add`, `_tar` and `_zip`: the members that `tarfile` and
`zipfile` deliver are indexed by their names.
-/

namespace Preseed.ThemeArchive

open Effects List

/-- `MAX_ARCHIVE`. -/
def maxArchive : Nat := 128 * 1024 ^ 2

/-- `MAX_MEMBER`. -/
def maxMember : Nat := 16 * 1024 ^ 2

/-- `MAX_MEMBERS`. -/
def maxMembers : Nat := 12000

/-- A value of the index: `None`, `bytes` or `Link`. -/
inductive Entry
  | directory
  | regular (data : List UInt8)
  | link (target : Text)
  deriving DecidableEq

/-- An archive, with the checks that its deadline still passes and what `tree` has done. -/
structure Archive where
  /-- The calls of `_check` that still pass. -/
  checks : Nat
  count : Nat
  size : Int
  entries : List (Text × Entry)
  /-- The `result` of `tree`. -/
  result : List (Text × List UInt8)
  /-- The calls of `visit`. -/
  visits : Nat
  deriving DecidableEq

abbrev Session := EStateM Failure Archive

/-- `entries.get`. -/
def Archive.get? (a : Archive) (key : Text) : Option Entry := a.entries.lookup key

/-- `name`, in a session. -/
def checkedName (value : Text) : Session Text :=
  match name value with
  | .ok path => pure path
  | .error e => throw e

/-- `_check`. -/
def check : Session Unit := do
  let a ← get
  if a.checks = 0 then throw .deadline
  else set { a with checks := a.checks - 1 }

/-- `_reserve`. -/
def reserve (size : Int) : Session Unit := do
  check
  let a ← get
  let a := { a with count := a.count + 1, size := a.size + size }
  set a
  if maxMembers < a.count ∨ size < 0 ∨ (maxMember : Int) < size ∨ (maxArchive : Int) < a.size then
    throw (.value "theme archive member/byte budget exceeded")

/-- A parent of a new member becomes a directory. -/
def addParent (key : Text) : Session Unit := do
  let a ← get
  match a.get? key with
  | none =>
    if maxMembers * 2 ≤ a.entries.length then
      throw (.value "theme archive directory budget exceeded")
    else set { a with entries := a.entries ++ [(key, Entry.directory)] }
  | some .directory => pure ()
  | some _ => throw (.value "theme archive member has a non-directory parent")

/-- `_add`. -/
def add (path : Text) (value : Entry) : Session Unit := do
  let path ← checkedName path
  let a ← get
  match a.get? path with
  | some old =>
    if value = Entry.directory ∧ old = Entry.directory then pure ()
    else throw (.value "duplicate theme archive member")
  | none =>
    (properPrefixes path).forM addParent
    let a ← get
    if maxMembers * 2 ≤ a.entries.length then
      throw (.value "theme archive index budget exceeded")
    else set { a with entries := a.entries ++ [(path, value)] }

/-- The kinds of a tar member. -/
inductive TarKind
  | directory
  /-- With the data that its stream delivers, if there is one. -/
  | regular (data : Option (List UInt8))
  | symbolic (linkname : Text)
  | hard (linkname : Text)
  | special
  deriving DecidableEq

structure TarMember where
  name : Text
  size : Int
  kind : TarKind
  deriving DecidableEq

/-- The target of a link member at `path`. -/
def linkTarget (path raw : Text) (hard : Bool) : Session Entry := do
  if raw = [] ∨ raw.head? = some '/' ∨ raw.any (fun c => c = '\\' || c.toNat < 32) then
    throw (.value "unsafe theme archive link")
  else
    let target := if hard then raw else joinPath (dirname path) raw
    let target ← checkedName (normpath target)
    pure (.link target)

/-- The value of a tar member at `path`. -/
def tarValue (path : Text) (member : TarMember) : Session Entry :=
  match member.kind with
  | .directory => pure .directory
  | .regular none => throw (.value "missing regular theme archive data")
  | .regular (some data) =>
    if data.length ≠ member.size then throw (.value "truncated theme archive member")
    else pure (.regular data)
  | .symbolic raw => linkTarget path raw false
  | .hard raw => linkTarget path raw true
  | .special => throw (.value "special theme archive members are prohibited")

/-- One member of `_tar`. -/
def tarMember (member : TarMember) : Session Unit := do
  reserve member.size
  if (member.name = ['.'] ∨ member.name = ['.', '/']) ∧ member.kind = .directory then pure ()
  else
    let path ← checkedName member.name
    let value ← tarValue path member
    add path value

/-- A member of a zip archive, with the data that its stream delivers. -/
structure ZipMember where
  filename : Text
  fileSize : Nat
  /-- It is encrypted, special, or compressed by another method. -/
  unsupported : Bool
  data : List UInt8
  deriving DecidableEq

/-- One member of `_zip`. -/
def zipMember (member : ZipMember) : Session Unit := do
  reserve member.fileSize
  if member.unsupported then
    throw (.value "encrypted, special or unsupported compressed theme ZIP member")
  else if member.filename.getLast? = some '/' then
    if member.fileSize ≠ 0 then throw (.value "nonempty theme ZIP directory")
    else add member.filename .directory
  else if member.data.length ≠ member.fileSize then
    throw (.value "truncated theme archive member")
  else add member.filename (.regular member.data)

/-- What an archive delivers. -/
inductive Contents
  | tar (members : List TarMember)
  /-- With the count of its central directory. -/
  | zip (count : Nat) (members : List ZipMember)

/-- `__init__`. -/
def index : Contents → Session Unit
  | .tar members => members.forM tarMember
  | .zip count members =>
    if maxMembers < count ∨ count = 65535 then
      throw (.value "theme ZIP directory exceeds the supported bounds")
    else if members.length ≠ count then throw (.value "theme ZIP directory count mismatch")
    else members.forM zipMember

/-- A new archive. -/
def Archive.new (checks : Nat) : Archive := ⟨checks, 0, 0, [], [], 0⟩

/-- The index accepts the contents. -/
def Accepted (contents : Contents) (checks : Nat) (a : Archive) : Prop :=
  index contents (.new checks) = .ok () a

/-! ## What an accepted index holds -/

/-- The members are well formed, below directories, and within their budgets. -/
structure Archive.Valid (a : Archive) : Prop where
  nodup : (a.entries.map Prod.fst).Nodup
  wellFormed : ∀ key ∈ a.entries.map Prod.fst, WellFormed key
  parents : ∀ key ∈ a.entries.map Prod.fst, ∀ parent ∈ properPrefixes key,
    a.get? parent = some .directory
  targets : ∀ key target, a.get? key = some (.link target) → WellFormed target
  count : a.count ≤ maxMembers
  size : a.size ≤ maxArchive
  length : a.entries.length ≤ maxMembers * 2

section Entries

variable {a a' : Archive} {key path : Text} {entry : Entry}

theorem Archive.get?_eq_none : a.get? key = none ↔ key ∉ a.entries.map Prod.fst := by
  rw [Archive.get?, lookup_eq_none_iff]
  simp only [mem_map, Prod.exists, exists_and_right, exists_eq_right, not_exists, bne_iff_ne,
    ne_eq, Prod.forall]
  exact ⟨fun h entry hmem => h key entry hmem rfl, fun h k v hmem heq => h v (heq ▸ hmem)⟩

theorem Archive.mem_of_get? (h : a.get? key = some entry) : key ∈ a.entries.map Prod.fst := by
  by_contra hnone
  rw [Archive.get?_eq_none.2 hnone] at h
  cases h

section

variable (hentries : a'.entries = a.entries ++ [(path, entry)])
include hentries

theorem Archive.get?_append :
    a'.get? key = (a.get? key).or (if key = path then some entry else none) := by
  unfold Archive.get?
  rw [hentries, lookup_append]
  by_cases h : key = path
  · simp [h]
  · rw [List.lookup_cons, beq_eq_false_iff_ne.2 h, if_neg h, lookup_nil]

theorem Archive.get?_append_of_ne
    (hne : key ≠ path) : a'.get? key = a.get? key := by
  rw [Archive.get?_append hentries, if_neg hne, Option.or_none]

theorem Archive.get?_append_self
    (hnew : a.get? path = none) : a'.get? path = some entry := by
  rw [Archive.get?_append hentries, hnew, if_pos rfl, Option.none_or]

end

/-- A new member below directories. -/
theorem Archive.Valid.append (h : a.Valid) (hentries : a'.entries = a.entries ++ [(path, entry)])
    (hcount : a'.count = a.count) (hsize : a'.size = a.size) (hnew : a.get? path = none)
    (hpath : WellFormed path)
    (hparents : ∀ parent ∈ properPrefixes path, a.get? parent = some .directory)
    (htarget : ∀ target, entry = .link target → WellFormed target)
    (hlength : a.entries.length < maxMembers * 2) : a'.Valid := by
  have hfst : a'.entries.map Prod.fst = a.entries.map Prod.fst ++ [path] := by simp [hentries]
  have hkeep : ∀ key e, a.get? key = some e → a'.get? key = some e := by
    intro key e hkey
    rw [Archive.get?_append hentries, hkey, Option.some_or]
  refine ⟨?_, ?_, ?_, ?_, hcount ▸ h.count, hsize ▸ h.size, ?_⟩
  · rw [hfst, nodup_append]
    refine ⟨h.nodup, nodup_singleton _, fun key hkey key' hkey' => ?_⟩
    rw [mem_singleton.1 hkey']
    rintro rfl
    exact Archive.get?_eq_none.1 hnew hkey
  · intro key hkey
    rw [hfst, mem_append, mem_singleton] at hkey
    rcases hkey with hkey | rfl
    · exact h.wellFormed key hkey
    · exact hpath
  · intro key hkey parent hparent
    rw [hfst, mem_append, mem_singleton] at hkey
    rcases hkey with hkey | rfl
    · exact hkeep _ _ (h.parents key hkey parent hparent)
    · exact hkeep _ _ (hparents parent hparent)
  · intro key target htarget'
    by_cases hkey : key = path
    · subst hkey
      rw [Archive.get?_append_self hentries hnew] at htarget'
      exact htarget target (Option.some.inj htarget')
    · rw [Archive.get?_append_of_ne hentries hkey] at htarget'
      exact h.targets key target htarget'
  · rw [hentries, length_append, length_singleton]
    omega

end Entries

/-- Any failure. -/
abbrev Raised : Failure → Archive → Prop := fun _ _ => True

section Adding

variable {a : Archive} {path : Text}

theorem ends_check (a : Archive) :
    Ends a check (fun _ a' => 0 < a.checks ∧ a' = { a with checks := a.checks - 1 })
      fun e a' => e ≠ .recursion ∧ a' = a := by
  unfold check
  refine .get_bind ?_
  split
  · exact .throw ⟨nofun, rfl⟩
  · exact .set ⟨by omega, rfl⟩

theorem ends_reserve (h : a.Valid) (size : Int) :
    Ends a (reserve size) (fun _ a' => a'.Valid ∧ a'.entries = a.entries) Raised := by
  unfold reserve
  refine .bind (ends_check a).anyRaise ?_
  rintro _ a' ⟨-, rfl⟩
  refine .get_bind (.set_bind ?_)
  split
  · exact .throw trivial
  · rename_i hbudget
    simp only [not_or] at hbudget
    exact .pure ⟨⟨h.nodup, h.wellFormed, h.parents, h.targets, Nat.le_of_not_lt hbudget.1,
      Int.not_lt.1 hbudget.2.2.2, h.length⟩, rfl⟩

/-- After `addParent` the key is a directory. -/
theorem ends_addParent {key : Text} (h : a.Valid) (hkey : WellFormed key)
    (hparents : ∀ parent ∈ properPrefixes key, a.get? parent = some .directory) :
    Ends a (addParent key) (fun _ a' => a'.Valid ∧ a'.get? key = some .directory ∧
      ∀ other, other ≠ key → a'.get? other = a.get? other) Raised := by
  unfold addParent
  refine .get_bind ?_
  split
  · rename_i hnew
    split
    · exact .throw trivial
    · rename_i hlength
      exact .set ⟨h.append rfl rfl rfl hnew hkey hparents nofun (by omega),
        Archive.get?_append_self rfl hnew, fun other hne => Archive.get?_append_of_ne rfl hne⟩
  · rename_i hdirectory
    exact .pure ⟨h, hdirectory, fun _ _ => rfl⟩
  · exact .throw trivial

/-- The parents of a well-formed path become directories. -/
theorem ends_parents (h : a.Valid) (hpath : WellFormed path) :
    Ends a ((properPrefixes path).forM addParent) (fun _ a' => a'.Valid ∧
      (∀ parent ∈ properPrefixes path, a'.get? parent = some .directory) ∧
      ∀ other, other ∉ properPrefixes path → a'.get? other = a.get? other) Raised := by
  refine .forM_done (I := fun (done : List Text) (a' : Archive) => a'.Valid ∧
    (∀ parent ∈ done, a'.get? parent = some .directory) ∧
    ∀ other, other ∉ done → a'.get? other = a.get? other) ?_ ⟨h, nofun, fun _ _ => rfl⟩
  intro done key rest hdone a' ha'
  have hkey : WellFormed key ∧ ∀ parent ∈ properPrefixes key, parent ∈ done := by
    have hmem : key ∈ properPrefixes path := hdone ▸ by simp
    obtain ⟨n, hn, -, rfl⟩ := mem_properPrefixes.1 hmem
    exact ⟨hpath.take hn, fun parent hparent => properPrefixes_of_append hdone ▸ hparent⟩
  refine (ends_addParent ha'.1 hkey.1 fun parent hparent => ha'.2.1 parent (hkey.2 parent hparent)).mono
    (fun _ a'' ha'' => ⟨ha''.1, fun parent hparent => ?_, fun other hother => ?_⟩) fun _ _ => id
  · by_cases heq : parent = key
    · exact heq ▸ ha''.2.1
    · rw [ha''.2.2 parent heq]
      exact ha'.2.1 parent (by simpa [heq] using hparent)
  · rw [mem_append, mem_singleton, not_or] at hother
    rw [ha''.2.2 other hother.2, ha'.2.2 other hother.1]

theorem ends_checkedName (a : Archive) (value : Text) :
    Ends a (checkedName value) (fun path a' => a' = a ∧ name value = .ok path)
      fun e a' => e ≠ .recursion ∧ a' = a := by
  unfold checkedName
  cases hname : name value with
  | ok path => exact .pure ⟨rfl, rfl⟩
  | error e => exact .throw ⟨name_ne_recursion hname, rfl⟩

/-- A link value has a well-formed target. -/
def Entry.TargetWellFormed (entry : Entry) : Prop :=
  ∀ target, entry = .link target → WellFormed target

theorem ends_add (h : a.Valid) {entry : Entry}
    (htarget : entry.TargetWellFormed) :
    Ends a (add path entry) (fun _ a' => a'.Valid) Raised := by
  unfold add
  refine .bind (ends_checkedName a path).anyRaise ?_
  rintro path' _ ⟨rfl, hname⟩
  have hpath := name_wellFormed hname
  refine .get_bind ?_
  split
  · split
    · exact .pure h
    · exact .throw trivial
  · rename_i hnew
    refine .bind (ends_parents h hpath) fun _ a' ha' => .get_bind ?_
    split
    · exact .throw trivial
    · rename_i hlength
      have hnew' : a'.get? path' = none := by rw [ha'.2.2 _ path_notMem_properPrefixes, hnew]
      exact .set (ha'.1.append rfl rfl rfl hnew' hpath ha'.2.1 htarget (by omega))

theorem ends_linkTarget (a : Archive) (path raw : Text) (hard : Bool) :
    Ends a (linkTarget path raw hard) (fun entry a' => a' = a ∧ entry.TargetWellFormed) Raised := by
  unfold linkTarget
  split
  · exact .throw trivial
  · refine .bind (ends_checkedName a _).anyRaise ?_
    rintro target _ ⟨rfl, hname⟩
    refine .pure ⟨rfl, fun target' heq => ?_⟩
    obtain rfl : target = target' := by simpa using heq
    exact name_wellFormed hname

theorem ends_tarValue (a : Archive) (path : Text) (member : TarMember) :
    Ends a (tarValue path member) (fun entry a' => a' = a ∧ entry.TargetWellFormed) Raised := by
  unfold tarValue
  split
  · exact .pure ⟨rfl, nofun⟩
  · exact .throw trivial
  · split
    · exact .throw trivial
    · exact .pure ⟨rfl, nofun⟩
  · exact ends_linkTarget a path _ _
  · exact ends_linkTarget a path _ _
  · exact .throw trivial

theorem ends_tarMember (h : a.Valid) (member : TarMember) :
    Ends a (tarMember member) (fun _ a' => a'.Valid) Raised := by
  unfold tarMember
  refine .bind (ends_reserve h member.size) fun _ a' ha' => ?_
  split
  · exact .pure ha'.1
  · refine .bind (ends_checkedName a' _).anyRaise ?_
    rintro path _ ⟨rfl, -⟩
    refine .bind (ends_tarValue _ path member) ?_
    rintro entry _ ⟨rfl, htarget⟩
    exact ends_add ha'.1 htarget

theorem ends_zipMember (h : a.Valid) (member : ZipMember) :
    Ends a (zipMember member) (fun _ a' => a'.Valid) Raised := by
  unfold zipMember
  refine .bind (ends_reserve h member.fileSize) fun _ a' ha' => ?_
  split
  · exact .throw trivial
  split
  · split
    · exact .throw trivial
    · exact ends_add ha'.1 nofun
  · split
    · exact .throw trivial
    · exact ends_add ha'.1 nofun

end Adding

theorem Archive.new_valid (checks : Nat) : (Archive.new checks).Valid :=
  ⟨nodup_nil, nofun, nofun, nofun, Nat.zero_le _, Int.natCast_nonneg maxArchive, Nat.zero_le _⟩

theorem ends_index (contents : Contents) (checks : Nat) :
    Ends (Archive.new checks) (index contents) (fun _ a => a.Valid) Raised := by
  cases contents with
  | tar members =>
    exact .forM (fun member _ a h => ends_tarMember h member) (Archive.new_valid checks)
  | zip count members =>
    rw [index]
    split
    · exact .throw trivial
    split
    · exact .throw trivial
    · exact .forM (fun member _ a h => ends_zipMember h member) (Archive.new_valid checks)

theorem Accepted.valid {contents : Contents} {checks : Nat} {a : Archive}
    (h : Accepted contents checks a) : a.Valid :=
  (ends_index contents checks).of_ok h

end Preseed.ThemeArchive
