import Preseed.Effects.Raising
import Preseed.Texts.Fields

/-!
# Member names of a theme archive

`name` accepts a member path that is relative and normalised; link targets pass through
`posixpath.normpath` first.
-/

namespace Preseed.ThemeArchive

open List

/-- A text, by its characters. -/
abbrev Text := List Char

/-- What is raised. -/
inductive Failure
  /-- `ValueError` -/
  | value (text : String)
  /-- `TimeoutError` -/
  | deadline
  /-- `RecursionError` -/
  | recursion
  deriving DecidableEq

/-- `'/'.join`. -/
def join (components : List Text) : Text := ['/'].intercalate components

/-- `len(value.encode('utf-8'))`. -/
def utf8Length (value : Text) : Nat := (value.map Char.utf8Size).sum

/-- `value.rstrip('/')`. -/
def rstripSlash (value : Text) : Text := (value.reverse.dropWhile (· == '/')).reverse

/-- A leading `./` is removed. -/
def removeDot : Text → Text
  | '.' :: '/' :: value => value
  | value => value

/-- `PurePosixPath(value).parts` of a relative path. -/
def pathParts (value : Text) : List Text :=
  (value.splitOn '/').filter fun component => component ≠ [] ∧ component ≠ ['.']

/-- `str(PurePosixPath(value))` of a relative path. -/
def pathText (value : Text) : Text :=
  if pathParts value = [] then ['.'] else join (pathParts value)

/-- A control character or a backslash. -/
def forbidden (c : Char) : Bool := c = '\\' || c.toNat < 32 || c.toNat = 127

/-- `name`. -/
def name (value : Text) : Except Failure Text :=
  let value := rstripSlash (removeDot value)
  if value = [] ∨ 512 < utf8Length value ∨ value.any forbidden then
    .error (.value "invalid theme archive member name")
  else if pathParts value = [] ∨ value.head? = some '/' ∨ pathText value ≠ value ∨
      ['.', '.'] ∈ pathParts value ∨ 32 < (pathParts value).length then
    .error (.value "unsafe theme archive member path")
  else .ok value

/-- A component of a normalised path without parent references. -/
structure Plain (component : Text) : Prop where
  nonempty : component ≠ []
  noDot : component ≠ ['.']
  noParent : component ≠ ['.', '.']
  noSlash : '/' ∉ component

/-- A relative normalised path of at most 32 components without parent references. -/
structure WellFormed (path : Text) : Prop where
  plain : ∀ component ∈ path.splitOn '/', Plain component
  length : (path.splitOn '/').length ≤ 32

theorem splitOn_join {components : List Text} (h : ∀ c ∈ components, '/' ∉ c)
    (hne : components ≠ []) : (join components).splitOn '/' = components :=
  splitOn_intercalate '/' h hne

theorem join_splitOn (path : Text) : join (path.splitOn '/') = path :=
  intercalate_splitOn '/'

theorem slash_notMem_splitOn {path component : Text} (h : component ∈ path.splitOn '/') :
    '/' ∉ component := by
  induction path generalizing component with
  | nil =>
    obtain rfl : component = [] := by simpa using h
    nofun
  | cons c path ih =>
    rw [splitOn_cons_eq_if_modifyHead] at h
    split at h
    · rcases mem_cons.1 h with rfl | h
      · nofun
      · exact ih h
    · rename_i hc
      obtain ⟨head, tail, hsplit⟩ := exists_cons_of_ne_nil (splitOn_ne_nil '/' path)
      rw [hsplit, modifyHead_cons] at h
      rcases mem_cons.1 h with rfl | h
      · have hhead : '/' ∉ head := ih (hsplit ▸ mem_cons_self)
        rw [mem_cons, not_or]
        exact ⟨fun heq => hc (by simp [← heq]), hhead⟩
      · exact ih (hsplit ▸ mem_cons_of_mem _ h)

/-- What `name` accepts is well formed. -/
theorem name_wellFormed {value path : Text} (h : name value = .ok path) : WellFormed path := by
  unfold name at h
  dsimp only at h
  generalize rstripSlash (removeDot value) = stripped at h
  split at h
  · cases h
  split at h
  · cases h
  rename_i hsafe
  obtain rfl : stripped = path := by simpa using h
  simp only [not_or, not_not, Nat.not_lt] at hsafe
  obtain ⟨hparts, -, htext, hparent, hlength⟩ := hsafe
  rw [pathText, if_neg hparts] at htext
  have hslash : ∀ c ∈ pathParts stripped, '/' ∉ c := fun c hc =>
    slash_notMem_splitOn (mem_filter.1 hc).1
  have hsplit : stripped.splitOn '/' = pathParts stripped := by
    rw [← splitOn_join hslash hparts, htext]
  refine ⟨fun c hc => ?_, hsplit ▸ hlength⟩
  rw [hsplit] at hc
  have hkept := (mem_filter.1 hc).2
  simp only [decide_eq_true_eq] at hkept
  exact ⟨hkept.1, hkept.2, fun heq => hparent (heq ▸ hc), hslash c hc⟩

/-- A well-formed path of printable characters is accepted as it is. -/
theorem name_of_wellFormed {path : Text} (h : WellFormed path) (hsize : utf8Length path ≤ 512)
    (hprintable : path.any forbidden = false) : name path = .ok path := by
  have hparts : pathParts path = path.splitOn '/' := by
    refine filter_eq_self.2 fun c hc => ?_
    simp [(h.plain c hc).nonempty, (h.plain c hc).noDot]
  have hne : path ≠ [] := by
    rintro rfl
    exact (h.plain [] (by simp)).nonempty rfl
  have hdot : removeDot path = path := by
    unfold removeDot
    split
    · rename_i value
      have hsplit := splitOn_append_cons_self ['.'] value (a := '/')
      exact absurd rfl (h.plain ['.'] (by
        rw [show '.' :: '/' :: value = ['.'] ++ '/' :: value from rfl, hsplit,
          splitOn_eq_singleton (by decide)]
        exact mem_append_left _ mem_cons_self)).noDot
    · rfl
  have hslash : rstripSlash path = path := by
    obtain ⟨before, last, rfl⟩ := eq_nil_or_concat' path |>.resolve_left hne
    have hlast : last ≠ '/' := by
      rintro rfl
      exact (h.plain [] (by rw [splitOn_append_cons_self]; simp)).nonempty rfl
    simp [rstripSlash, hlast]
  have hhead : path.head? ≠ some '/' := by
    intro hhead
    obtain ⟨rest, rfl⟩ : ∃ rest, path = '/' :: rest := by
      cases path with
      | nil => cases hhead
      | cons c rest => exact ⟨rest, by simpa using hhead⟩
    exact (h.plain [] (by rw [← nil_append ('/' :: rest), splitOn_append_cons_self]; simp)).nonempty rfl
  have hjoin : pathText path = path := by
    rw [pathText, hparts, if_neg (splitOn_ne_nil _ _), join_splitOn]
  have hparent : ['.', '.'] ∉ pathParts path := by
    rw [hparts]
    exact fun hmem => (h.plain _ hmem).noParent rfl
  unfold name
  rw [hdot, hslash]
  have hlength := h.length
  rw [if_neg (by simp [hne, hprintable]; omega), if_neg]
  rw [hparts] at hparent ⊢
  simp [splitOn_ne_nil, hhead, hjoin, hparent]
  omega

theorem name_ne_recursion {value : Text} {e : Failure} (h : name value = .error e) :
    e ≠ .recursion := by
  unfold name at h
  dsimp only at h
  split at h
  · cases h
    nofun
  split at h
  · cases h
    nofun
  · cases h

/-! ## Prefixes -/

/-- The proper prefixes of a path, from the shortest. -/
def properPrefixes (path : Text) : List Text :=
  (List.range' 1 ((path.splitOn '/').length - 1)).map fun n => join ((path.splitOn '/').take n)

section Prefixes

variable {path : Text}

theorem splitOn_join_take {n : Nat} (hn : 0 < n) :
    (join ((path.splitOn '/').take n)).splitOn '/' = (path.splitOn '/').take n := by
  refine splitOn_join (fun c hc => slash_notMem_splitOn (mem_of_mem_take hc)) ?_
  rw [ne_eq, take_eq_nil_iff, not_or]
  exact ⟨by omega, splitOn_ne_nil _ _⟩

theorem WellFormed.take (h : WellFormed path) {n : Nat} (hn : 0 < n) :
    WellFormed (join ((path.splitOn '/').take n)) := by
  refine ⟨fun c hc => ?_, ?_⟩
  · rw [splitOn_join_take hn] at hc
    exact h.plain c (mem_of_mem_take hc)
  · rw [splitOn_join_take hn]
    exact Nat.le_trans (length_take_le' _ _) h.length

theorem mem_properPrefixes {key : Text} : key ∈ properPrefixes path ↔
    ∃ n, 0 < n ∧ n < (path.splitOn '/').length ∧ join ((path.splitOn '/').take n) = key := by
  simp only [properPrefixes, mem_map, mem_range'_1]
  refine exists_congr fun n => ⟨fun h => ?_, fun h => ?_⟩
  · exact ⟨by omega, by omega, h.2⟩
  · exact ⟨by omega, h.2.2⟩

/-- The proper prefixes of a proper prefix come before it. -/
theorem properPrefixes_take {n : Nat} (hn : 0 < n) (hlength : n < (path.splitOn '/').length) :
    properPrefixes (join ((path.splitOn '/').take n)) =
      (List.range' 1 (n - 1)).map fun m => join ((path.splitOn '/').take m) := by
  rw [properPrefixes, splitOn_join_take hn, length_take, Nat.min_eq_left (by omega)]
  refine map_congr_left fun m hm => ?_
  rw [mem_range'_1] at hm
  rw [List.take_take, Nat.min_eq_left (by omega)]

/-- Each proper prefix stands after its own proper prefixes. -/
theorem properPrefixes_of_append {done rest : List Text} {key : Text}
    (h : properPrefixes path = done ++ key :: rest) : properPrefixes key = done := by
  rw [properPrefixes, map_eq_append_iff] at h
  obtain ⟨before, after, hrange, rfl, hafter⟩ := h
  obtain ⟨n, after, rfl, rfl, -⟩ := map_eq_cons_iff.1 hafter
  obtain ⟨k, hk, rfl, hn⟩ := range'_eq_append_iff.1 hrange
  obtain ⟨rfl, hpos, -⟩ := range'_eq_cons_iff.1 hn.symm
  rw [properPrefixes_take (by omega) (by omega)]
  congr 2
  omega

theorem path_notMem_properPrefixes : path ∉ properPrefixes path := by
  rw [mem_properPrefixes]
  rintro ⟨n, hn, hlength, hpath⟩
  have hsplit : (join ((path.splitOn '/').take n)).splitOn '/' = (path.splitOn '/').take n :=
    splitOn_join_take hn
  rw [hpath] at hsplit
  have := congrArg List.length hsplit
  rw [length_take] at this
  omega

end Prefixes

/-! ## Link targets -/

/-- One component of `posixpath.normpath`. -/
def normalComponent (absolute : Bool) (components : List Text) (component : Text) : List Text :=
  if component = [] ∨ component = ['.'] then components
  else if component ≠ ['.', '.'] ∨ (absolute = false ∧ components = []) ∨
      components.getLast? = some ['.', '.'] then components ++ [component]
  else components.dropLast

/-- The leading slashes that `posixpath.normpath` keeps. -/
def leadingSlashes (path : Text) : Text :=
  if path.head? ≠ some '/' then []
  else if path.take 2 = ['/', '/'] ∧ path.take 3 ≠ ['/', '/', '/'] then ['/', '/'] else ['/']

/-- `posixpath.normpath`. -/
def normpath (path : Text) : Text :=
  let slashes := leadingSlashes path
  let components := (path.splitOn '/').foldl (normalComponent (slashes ≠ [])) []
  let text := slashes ++ join components
  if text = [] then ['.'] else text

/-- `posixpath.join(base, tail)`. -/
def joinPath (base tail : Text) : Text :=
  if tail.head? = some '/' then tail
  else if base = [] ∨ base.getLast? = some '/' then base ++ tail
  else base ++ '/' :: tail

/-- What precedes the last slash, as `path.rpartition('/')[0]`. -/
def parentOf (path : Text) : Text := join (path.splitOn '/').dropLast

/-- What follows the last slash. -/
def childOf (path : Text) : Text := ((path.splitOn '/').getLast?).getD []

/-- `posixpath.dirname` of a relative normalised path. -/
def dirname (path : Text) : Text := parentOf path

end Preseed.ThemeArchive
