import Preseed.DesktopFirewall.RuleStates
import Preseed.NetworkSharing.Appending

/-!
# The records of accepted settings

Accepted settings make records of six fields, with destinations that are normalized and
different.
-/

namespace Preseed.NetworkSharing

open List

open Ipaddress (Text asciiDigits ofDigits ipv4Int)
open DesktopFirewall (isspace isAlphanum_iff)
open ThemeArchive (normpath)

/-! ## Plain texts -/

/-- A character that separates no fields and begins neither a comment nor an escape. -/
def PlainChar (c : Char) : Prop := isspace c = false ∧ c ≠ '#' ∧ c ≠ '\\'

instance (c : Char) : Decidable (PlainChar c) :=
  inferInstanceAs (Decidable (_ ∧ _ ∧ _))

/-- A text of plain characters. -/
def Plain (text : Text) : Prop := ∀ c ∈ text, PlainChar c

instance (text : Text) : Decidable (Plain text) :=
  decidable_of_iff (text.all (fun c => decide (PlainChar c)) = true) (by simp [Plain])

variable {text other : Text}

theorem Plain.append (h : Plain text) (hother : Plain other) :
    Plain (text ++ other) := fun c hc =>
  (mem_append.1 hc).elim (h c) (hother c)

variable {c : Char}

theorem Plain.cons (h : PlainChar c) (htext : Plain text) :
    Plain (c :: text) := forall_mem_cons.2 ⟨h, htext⟩

theorem Plain.subset (h : Plain text) (hsubset : other ⊆ text) :
    Plain other := fun c hc => h c (hsubset hc)

variable {texts : List Text}

theorem Plain.intercalate (h : ∀ text ∈ texts, Plain text) :
    Plain ([','].intercalate texts) := by
  intro c hc
  rcases Ipaddress.mem_intercalate hc with rfl | ⟨text, htext, hc⟩
  · decide
  · exact h text htext c hc

theorem subset_intercalate (gap : Text) (h : text ∈ texts) :
    text ⊆ gap.intercalate texts := by
  induction texts with
  | nil => cases h
  | cons first texts ih =>
    cases texts with
    | nil => simp [mem_singleton.1 h]
    | cons next texts =>
      rw [intercalate_cons_cons]
      rcases mem_cons.1 h with rfl | h
      · exact fun c hc => by simp [hc]
      · exact fun c hc => by simp [ih h hc]

theorem intercalate_concat (gap : Text) (h : texts ≠ []) (last : Text) :
    gap.intercalate (texts ++ [last]) = gap.intercalate texts ++ (gap ++ last) := by
  induction texts with
  | nil => exact absurd rfl h
  | cons text texts ih =>
    cases texts with
    | nil => simp
    | cons next texts =>
      rw [cons_append, cons_append, intercalate_cons_cons, ← cons_append,
        ih (by simp), intercalate_cons_cons]
      simp

theorem plainChar_of_isAlphanum (h : c.isAlphanum = true) : PlainChar c := by
  rw [isAlphanum_iff] at h
  refine ⟨?_, ?_, ?_⟩
  · simp only [isspace, Bool.or_eq_false_iff, Bool.and_eq_false_iff, decide_eq_false_iff_not,
      contains_eq_mem, mem_cons, not_mem_nil, or_false]
    omega
  · rintro rfl
    revert h
    decide
  · rintro rfl
    revert h
    decide

theorem plainChar_of_isDigit (h : c.isDigit = true) : PlainChar c :=
  plainChar_of_isAlphanum (by simp [Char.isAlphanum, h])

theorem plainChar_of_isPathCharacter (h : isPathCharacter c = true) :
    PlainChar c := by
  rw [isPathCharacter, Bool.or_eq_true] at h
  rcases h with h | h
  · exact plainChar_of_isAlphanum h
  · have hall : Plain ['_', '.', '/', '-'] := by decide
    exact hall c (by simpa using h)

theorem plain_of_asciiDigits (h : asciiDigits text = true) : Plain text := by
  rw [asciiDigits, Bool.and_eq_true, all_eq_true] at h
  exact fun c hc => plainChar_of_isDigit (h.2 c hc)

/-! ## Normalized paths -/

variable {value : Text}

theorem normalizedPath_plain {relative allowRoot : Bool}
    (h : normalizedPath relative allowRoot value = true) : value ≠ [] ∧ Plain value := by
  simp only [normalizedPath, Bool.and_eq_true, decide_eq_true_eq, all_eq_true] at h
  exact ⟨h.1.1.1.1.1.1, fun c hc => plainChar_of_isPathCharacter (h.1.1.1.1.2 c hc)⟩

/-- A path whose parts are not dotted. -/
def PathParts (parts : List Text) : Prop :=
  parts ≠ [] ∧ ∀ part ∈ parts, '/' ∉ part ∧ dottedPart part = false

theorem normalizedPath_absolute (h : normalizedPath false false value = true) :
    ∃ parts, value = '/' :: ['/'].intercalate parts ∧ PathParts parts := by
  simp only [normalizedPath, Bool.and_eq_true, decide_eq_true_eq, Bool.or_eq_true,
    Bool.or_false, ne_eq, Bool.not_eq_eq_eq_not] at h
  obtain ⟨⟨⟨⟨⟨⟨hne, -⟩, -⟩, hhead⟩, hroot⟩, hdouble⟩, hparts⟩ := h
  have hfirst : value.head? = some '/' := by simpa using hhead
  obtain ⟨rest, rfl⟩ : ∃ rest, value = '/' :: rest := by
    cases value with
    | nil => exact absurd rfl hne
    | cons c rest => exact ⟨rest, by simpa using hfirst⟩
  have hslash : rest.head? ≠ some '/' := by
    intro hhead
    cases rest with
    | nil => simp at hhead
    | cons c rest =>
      obtain rfl : c = '/' := by simpa using hhead
      simp at hdouble
  have hparts := hparts.resolve_left hroot
  have hdrop : ('/' :: rest).dropWhile (fun c => decide (c = '/')) = rest := by
    cases rest with
    | nil => rfl
    | cons c rest =>
      have hc : c ≠ '/' := by simpa using hslash
      simp [hc]
  rw [pathParts, hdrop] at hparts
  refine ⟨rest.splitOn '/', by rw [intercalate_splitOn], splitOn_ne_nil '/' rest, ?_⟩
  intro part hpart
  refine ⟨fun hc => ?_, ?_⟩
  · rw [splitOn_eq_splitOnP] at hpart
    simpa using mem_splitOnP_not hpart hc
  · have := any_eq_false.1 hparts part hpart
    simpa using this

theorem normalizedPath_single (h : normalizedPath true false value = true)
    (hlength : (value.splitOn '/').length = 1) : PathParts [value] := by
  simp only [normalizedPath, Bool.and_eq_true, decide_eq_true_eq, Bool.or_eq_true,
    Bool.or_false, ne_eq, Bool.not_eq_eq_eq_not] at h
  obtain ⟨⟨-, hroot⟩, -⟩ := h.1
  have hparts := h.2.resolve_left hroot
  have hsingle : value.splitOn '/' = [value] := by
    obtain ⟨part, hpart⟩ := length_eq_one_iff.1 hlength
    have hvalue : ['/'].intercalate (value.splitOn '/') = value := intercalate_splitOn '/'
    rw [hpart, intercalate_singleton] at hvalue
    rw [hpart, hvalue]
  have hslash : '/' ∉ value := by
    intro hc
    rw [splitOn_eq_splitOnP] at hsingle
    have hmem : value ∈ value.splitOnP (· == '/') := by simp [hsingle]
    simpa using mem_splitOnP_not hmem hc
  have hdrop : value.dropWhile (fun c => decide (c = '/')) = value := by
    cases value with
    | nil => rfl
    | cons c rest =>
      have hc : c ≠ '/' := fun hc => hslash (by simp [hc])
      simp [hc]
  rw [pathParts, hdrop, hsingle] at hparts
  refine ⟨by simp, fun part hpart => ?_⟩
  obtain rfl := mem_singleton.1 hpart
  exact ⟨hslash, by simpa using hparts⟩

theorem decodeEscapes_of_not_mem (h : '\\' ∉ text) : decodeEscapes text = text := by
  induction text with
  | nil => rfl
  | cons c text ih =>
    have hc : c ≠ '\\' := fun hc => h (by simp [hc])
    have ih := ih fun hmem => h (by simp [hmem])
    rw [decodeEscapes, ih]
    rintro _ _ _ _ rfl
    exact fun _ => hc rfl

theorem foldl_normalComponent {parts : List Text} (h : ∀ part ∈ parts, dottedPart part = false)
    (components : List Text) :
    parts.foldl (ThemeArchive.normalComponent true) components = components ++ parts := by
  induction parts generalizing components with
  | nil => simp
  | cons part parts ih =>
    obtain ⟨hpart, hparts⟩ := forall_mem_cons.1 h
    simp only [dottedPart, Bool.or_eq_false_iff, decide_eq_false_iff_not] at hpart
    rw [foldl_cons, ThemeArchive.normalComponent, if_neg (by tauto),
      if_pos (.inl hpart.2), ih hparts, append_assoc]
    rfl

/-- The destination of a path whose parts are not dotted is the path. -/
theorem canonical_path {parts : List Text} (h : PathParts parts)
    (hplain : Plain ('/' :: ['/'].intercalate parts)) :
    canonical ('/' :: ['/'].intercalate parts) = '/' :: ['/'].intercalate parts := by
  generalize htext : ['/'].intercalate parts = text at *
  have hescape : '\\' ∉ '/' :: text := fun hc => (hplain _ hc).2.2 rfl
  have hsplit : text.splitOn '/' = parts := by
    rw [← htext]
    exact splitOn_intercalate '/' (fun part hpart => (h.2 part hpart).1) h.1
  have hslash : text.head? ≠ some '/' := by
    intro hhead
    cases text with
    | nil => simp at hhead
    | cons c rest =>
      obtain rfl : c = '/' := by simpa using hhead
      have hnil : [] ∈ parts := by
        rw [← hsplit, splitOn_eq_splitOnP, Texts.splitOnP_eq_cons]
        simp
      exact absurd (h.2 [] hnil).2 (by decide)
  have hdrop : ('/' :: text).dropWhile (fun c => decide (c = '/')) = text := by
    cases text with
    | nil => rfl
    | cons c rest =>
      have hc : c ≠ '/' := by simpa using hslash
      simp [hc]
  have hslashes : ThemeArchive.leadingSlashes ('/' :: text) = ['/'] := by
    rw [ThemeArchive.leadingSlashes, if_neg (by simp), if_neg]
    rintro ⟨htwo, -⟩
    cases text with
    | nil => simp at htwo
    | cons c rest => exact hslash (by simpa using htwo)
  have hcomponents : ('/' :: text).splitOn '/' = [] :: parts := by
    rw [← hsplit, show '/' :: text = [] ++ '/' :: text from rfl,
      splitOn_append_cons_self_of_not_mem (by simp)]
  rw [canonical, decodeEscapes_of_not_mem hescape]
  simp only [head?_cons, if_true, hdrop]
  rw [normpath, hslashes, hcomponents, foldl_cons]
  have hfold := foldl_normalComponent (fun part hpart => (h.2 part hpart).2) []
  have hnil : ThemeArchive.normalComponent true [] [] = [] := by decide
  simp only [ne_eq, cons_ne_self, not_false_eq_true, decide_true, hnil, hfold,
    nil_append]
  rw [ThemeArchive.join, htext]
  simp

/-! ## Records of six fields -/

/-- A field of a managed record. -/
def Solid (text : Text) : Prop := text ≠ [] ∧ Plain text

instance (text : Text) : Decidable (Solid text) := inferInstanceAs (Decidable (_ ∧ _))

theorem Solid.append (h : Solid text) (hother : Plain other) :
    Solid (text ++ other) := ⟨by simp [h.1], h.2.append hother⟩

/-- Six fields, with a blank between them. -/
def sixFields (a b c d e f : Text) : Text :=
  a ++ ' ' :: (b ++ ' ' :: (c ++ ' ' :: (d ++ ' ' :: (e ++ ' ' :: f))))

/-- A record as the block has them. -/
structure ManagedRecord (entry target : Text) : Prop where
  fields : ∃ a c d e f, split isspace 6 entry = [a, target, c, d, e, f]
  characters : ∀ c ∈ entry, c ≠ '#' ∧ (isspace c = true → c = ' ')

theorem split_sixFields {a b c d e f : Text} (ha : Solid a) (hb : Solid b) (hc : Solid c)
    (hd : Solid d) (he : Solid e) (hf : Solid f) :
    ManagedRecord (sixFields a b c d e f) b := by
  have hblank : isspace ' ' = true := by decide
  have hcut : ∀ {n : ℕ} {word rest : Text}, Solid word →
      split isspace (n + 1) (word ++ ' ' :: rest) = word :: split isspace n rest := by
    intro n word rest hword
    rw [split_word hword.1 (fun c hc => (hword.2 c hc).1) (by simp [hblank]),
      split_cons_separator hblank]
  constructor
  · refine ⟨a, c, d, e, f, ?_⟩
    rw [sixFields, hcut ha, hcut hb, hcut hc, hcut hd, hcut he,
      split_last hf.1 fun c hc => (hf.2 c hc).1]
  · intro x hx
    have hplain : ∀ {word : Text}, Solid word → x ∈ word →
        x ≠ '#' ∧ (isspace x = true → x = ' ') := fun hword hx =>
      ⟨(hword.2 x hx).2.1, fun hspace => absurd hspace (by simp [(hword.2 x hx).1])⟩
    have hseparator : x = ' ' → x ≠ '#' ∧ (isspace x = true → x = ' ') := by
      rintro rfl
      decide
    simp only [sixFields, mem_append, mem_cons] at hx
    rcases hx with hx | hx | hx | hx | hx | hx | hx | hx | hx | hx | hx
    · exact hplain ha hx
    · exact hseparator hx
    · exact hplain hb hx
    · exact hseparator hx
    · exact hplain hc hx
    · exact hseparator hx
    · exact hplain hd hx
    · exact hseparator hx
    · exact hplain he hx
    · exact hseparator hx
    · exact hplain hf hx

variable {entry target : Text}

section

variable (h : ManagedRecord entry target)
include h

theorem ManagedRecord.valid :
    invalidFields (split isspace 6 entry) = false := by
  obtain ⟨a, c, d, e, f, hsplit⟩ := h.fields
  simp [hsplit, invalidFields]

theorem ManagedRecord.destination_eq :
    destination entry = target := by
  obtain ⟨a, c, d, e, f, hsplit⟩ := h.fields
  have hwords : (words entry).take 2 = _ := words_take_two (by simp [hsplit])
  rw [hsplit] at hwords
  rw [destination, getD_eq_getElem?_getD,
    ← getElem?_take_of_lt (show 1 < 2 by decide), hwords]
  rfl

theorem ManagedRecord.isComment :
    isComment entry = false := by
  rw [NetworkSharing.isComment, decide_eq_false_iff_not]
  intro hhead
  have hmem := mem_of_mem_head? hhead
  exact (h.characters '#' ((dropWhile_suffix isspace).subset hmem)).1 rfl

theorem ManagedRecord.isLine :
    IsLine entry := by
  constructor
  · obtain ⟨a, c, d, e, f, hsplit⟩ := h.fields
    exact visible_of_split (n := 6) (by simp [hsplit])
  · intro c hc
    by_contra hend
    have hend : isLineEnd c = true := by simpa using hend
    have := (h.characters c hc).2 (isspace_of_isLineEnd hend)
    rw [this] at hend
    exact absurd hend (by decide)

theorem ManagedRecord.unmarked :
    Unmarked entry := by
  have hhash : '#' ∉ entry := fun hc => (h.characters '#' hc).1 rfl
  rw [Unmarked, count_eq_zero_iff beginMarker_ne_nil, count_eq_zero_iff endMarker_ne_nil]
  exact ⟨fun hmarker => hhash (hmarker.subset (by decide)),
    fun hmarker => hhash (hmarker.subset (by decide))⟩

end

/-! ## The records of accepted settings -/

section Accepted

variable {v : Values}

section

variable (h : v.Accepted)
include h

theorem root_solid : Solid v.networkSharingRootPath :=
  normalizedPath_plain h.root

theorem homeView_solid : Solid (homeView v) := by
  have hhome := normalizedPath_plain h.home.1
  have hbind := normalizedPath_plain h.bind.1
  exact ⟨by simp [homeView], hhome.2.append (Plain.cons (by decide) hbind.2)⟩

theorem client_solid : Solid v.nfsClientPath :=
  normalizedPath_plain h.sources.2

theorem storageRoot_solid {storage : Text}
    (hstorage : storageRoot v = .ok storage) : Solid storage := by
  rw [storageRoot] at hstorage
  split at hstorage
  · cases hstorage
  obtain rfl := Except.ok.inj hstorage
  have hroot := (root_solid h).2
  have hname : Plain (pathName v.networkSharingRootPath) := hroot.subset fun c hc => by
    rw [pathName, mem_reverse] at hc
    exact mem_reverse.1 ((takeWhile_subset _) hc)
  have hparent : Plain (pathParent v.networkSharingRootPath) := hroot.subset fun c hc => by
    rw [pathParent, mem_reverse] at hc
    exact mem_reverse.1 ((dropWhile_suffix _).subset (mem_of_mem_tail hc))
  have hstore : Plain "-store".toList := by decide
  have hlast : Plain "/root".toList := by decide
  have hslash : PlainChar '/' := by decide
  have hdot : PlainChar '.' := by decide
  exact ⟨by simp, (hparent.append (Plain.cons hslash ((Plain.cons hdot hname).append
    hstore))).append hlast⟩

theorem requiredOptions_plain : ∀ option ∈ requiredOptions v, Plain option := by
  have hport : Plain v.nfsServerPort := plain_of_asciiDigits (by
    have := h.port
    simp only [boundedInteger, Bool.and_eq_true] at this
    exact this.1.1)
  have htimeout : Plain v.nfsClientMountTimeout := plain_of_asciiDigits (by
    have := h.timeout
    simp only [boundedInteger, Bool.and_eq_true] at this
    exact this.1.1)
  have hversion : Plain v.nfsClientVersion := by
    rcases h.version with heq | heq <;> rw [heq] <;> decide
  have hliteral : ["hard".toList, "proto=tcp".toList, "resvport".toList,
      "sec=sys".toList, "nosuid".toList, "nodev".toList, "noexec".toList, "nofail".toList,
      "x-systemd.requires=nfs-client.target".toList,
      "x-systemd.requires=nftables.service".toList,
      "x-systemd.requires=network-sharing-identity.service".toList, "_netdev".toList,
      "noauto".toList].all (fun text => decide (Plain text)) = true := by decide
  simp only [all_cons, Bool.and_eq_true, decide_eq_true_eq] at hliteral
  obtain ⟨h₁, h₂, h₄, h₅, h₇, h₈, h₉, h₁₀, h₁₁, h₁₂, h₁₃, h₁₄, h₁₅, -⟩ := hliteral
  simp only [requiredOptions, forall_mem_cons]
  exact ⟨h₁, h₂, Plain.append (by decide) hport, h₄, h₅,
    Plain.append (by decide) hversion, h₇, h₈, h₉, h₁₀, h₁₁, h₁₂, h₁₃, h₁₄, h₁₅,
    (Plain.append (by decide) htimeout).append (by decide), by simp⟩

theorem clientOptions_solid : Solid ([','].intercalate (clientOptions v)) := by
  have hshare : ∀ option ∈ v.nfsMntClientTargetShareOpts.splitOn ',', Plain option := by
    intro option hoption
    have haccepted := h.options
    simp only [mountOptions, Bool.and_eq_true, all_eq_true, Bool.or_eq_true,
      contains_iff_mem, mem_cons, not_mem_nil, or_false] at haccepted
    rcases haccepted.1.2 option hoption with hmem | rfl | rfl
    · exact requiredOptions_plain h option hmem
    · decide
    · decide
  have hdepends : Plain "x-systemd.requires-mounts-for=".toList := by decide
  have hall : ∀ option ∈ clientOptions v, Plain option := by
    intro option hoption
    rw [clientOptions, mem_append] at hoption
    rcases hoption with hoption | hoption
    · split at hoption
      · obtain ⟨source, hsource, rfl⟩ := mem_map.1 hoption
        split
        · decide
        · exact hshare source hsource
      · exact hshare option hoption
    · simp only [mem_cons, not_mem_nil, or_false] at hoption
      rcases hoption with rfl | rfl
      · exact hdepends.append (root_solid h).2
      · exact hdepends.append (homeView_solid h).2
  refine ⟨fun hnil => ?_, Plain.intercalate hall⟩
  have hmem : "x-systemd.requires-mounts-for=".toList ++ v.networkSharingRootPath ∈
      clientOptions v := by simp [clientOptions]
  have hletter := subset_intercalate [','] hmem (show 'x' ∈ _ by simp)
  simp [hnil] at hletter

theorem target_solid :
    Solid (v.nfsClientTargetIp ++ ':' :: v.nfsClientExportPath) := by
  have htarget := h.target
  rw [privateIpv4, Bool.and_eq_true, Option.any_eq_true] at htarget
  obtain ⟨-, ip, hip, -⟩ := htarget
  have hplain : Plain v.nfsClientTargetIp := fun c hc => by
    rcases (Ipaddress.ipv4Int_some hip).2 c hc with hdigit | rfl
    · exact plainChar_of_isDigit hdigit
    · decide
  exact ⟨by simp, hplain.append (Plain.cons (by decide) (normalizedPath_plain h.exported).2)⟩

theorem root_parts :
    ∃ parts, v.networkSharingRootPath = '/' :: ['/'].intercalate parts ∧ PathParts parts :=
  normalizedPath_absolute h.root

theorem homeView_parts :
    ∃ parts, homeView v = '/' :: ['/'].intercalate parts ∧ PathParts parts := by
  obtain ⟨parts, hhome, hparts⟩ := normalizedPath_absolute h.home.1
  have hbind := normalizedPath_single h.bind.1 h.bind.2.1
  refine ⟨parts ++ [v.networkSharingHomeBindPath], ?_, by simp, fun part hpart => ?_⟩
  · rw [homeView, hhome, intercalate_concat ['/'] hparts.1]
    simp
  · rcases mem_append.1 hpart with hpart | hpart
    · exact hparts.2 part hpart
    · exact hbind.2 part hpart

end

theorem canonical_of_parts {path : Text} (hplain : Plain path)
    (h : ∃ parts, path = '/' :: ['/'].intercalate parts ∧ PathParts parts) :
    canonical path = path := by
  obtain ⟨parts, rfl, hparts⟩ := h
  exact canonical_path hparts hplain

theorem below_iff {base path : Text} :
    below base path = true ↔ ∃ rest, path = base ++ '/' :: rest := by
  rw [below, isPrefixOf_iff_prefix]
  constructor
  · rintro ⟨rest, rfl⟩
    exact ⟨rest, by simp⟩
  · rintro ⟨rest, rfl⟩
    exact ⟨rest, by simp⟩

/-- The root is outside `/home`. -/
theorem root_second (h : v.Accepted) :
    ∃ c, v.networkSharingRootPath[1]? = some c ∧ c ≠ 'h' := by
  have hbase := h.base
  rw [any_eq_true] at hbase
  obtain ⟨base, hmem, hbelow⟩ := hbase
  obtain ⟨rest, hrest⟩ := below_iff.1 hbelow
  rw [hrest]
  simp only [mem_cons, not_mem_nil, or_false] at hmem
  rcases hmem with rfl | rfl | rfl
  · exact ⟨'d', rfl, by decide⟩
  · exact ⟨'p', rfl, by decide⟩
  · exact ⟨'s', rfl, by decide⟩

theorem homeView_second (h : v.Accepted) : (homeView v)[1]? = some 'h' := by
  obtain ⟨rest, hrest⟩ := below_iff.1 h.home.2
  rw [homeView, hrest]
  rfl

theorem root_ne_homeView (h : v.Accepted) : v.networkSharingRootPath ≠ homeView v := by
  obtain ⟨c, hc, hne⟩ := root_second h
  intro heq
  rw [heq, homeView_second h] at hc
  exact hne (Option.some.inj hc).symm

theorem client_ne (h : v.Accepted) :
    v.networkSharingRootPath ≠ v.nfsClientPath ∧ homeView v ≠ v.nfsClientPath := by
  obtain ⟨c, hc, hne⟩ := root_second h
  obtain ⟨rest, hrest⟩ := below_iff.1 h.inside.2
  constructor
  · intro heq
    have hlength := congrArg List.length (heq.trans hrest)
    simp at hlength
  · intro heq
    have hsecond := homeView_second h
    rw [heq, hrest, getElem?_append_left (List.getElem?_eq_some_iff.1 hc).1, hc] at hsecond
    exact hne (Option.some.inj hsecond)

/-- The records of a block, and where they are mounted. -/
structure ManagedEntries (entries : List Text) : Prop where
  record : ∀ entry ∈ entries, ManagedRecord entry (destination entry)
  canonical_eq : ∀ entry ∈ entries, canonical (destination entry) = destination entry
  nodup : (entries.map destination).Nodup

theorem ManagedEntries.nil : ManagedEntries [] := ⟨by simp, by simp, by simp⟩

theorem ManagedEntries.cons {entry target : Text} {entries : List Text}
    (h : ManagedRecord entry target) (hcanonical : canonical target = target)
    (hnew : ∀ other ∈ entries, target ≠ destination other) (hentries : ManagedEntries entries) :
    ManagedEntries (entry :: entries) := by
  obtain rfl := h.destination_eq
  refine ⟨forall_mem_cons.2 ⟨h, hentries.record⟩,
    forall_mem_cons.2 ⟨hcanonical, hentries.canonical_eq⟩, ?_⟩
  rw [map_cons, nodup_cons]
  refine ⟨fun hmem => ?_, hentries.nodup⟩
  obtain ⟨other, hother, heq⟩ := mem_map.1 hmem
  exact hnew other hother heq.symm

/-- The records of accepted settings. -/
theorem fstabEntries_managed (h : v.Accepted) {entries : List Text}
    (hentries : fstabEntries v = .ok entries) : ManagedEntries entries := by
  rw [fstabEntries] at hentries
  rcases hstorage : storageRoot v with e | storage
  · rw [hstorage] at hentries
    cases hentries
  rw [hstorage] at hentries
  obtain rfl := Except.ok.inj hentries
  have hzero : Solid ['0'] := by decide
  have hnone : Solid "none".toList := by decide
  have hroot := root_solid h
  have hhome := homeView_solid h
  have hdepends : Solid
      "rbind,rslave,nosuid,nodev,noexec,x-systemd.requires-mounts-for=".toList := by
    decide
  -- Each line is six fields with blanks between them.
  have hfirst := split_sixFields (storageRoot_solid h hstorage) hroot hnone
    (show Solid "bind,shared,nosuid,nodev,noexec".toList by decide) hzero hzero
  have hsecond := split_sixFields hroot hhome hnone (hdepends.append hroot.2) hzero hzero
  have hthird := split_sixFields (target_solid h) (client_solid h)
    (show Solid "nfs".toList by decide) (clientOptions_solid h) hzero hzero
  have hroot' := canonical_of_parts hroot.2 (root_parts h)
  have hhome' := canonical_of_parts hhome.2 (homeView_parts h)
  have hclient' := canonical_of_parts (client_solid h).2
    (normalizedPath_absolute h.sources.2)
  have heq₁ : storage ++ ' ' :: v.networkSharingRootPath ++
      " none bind,shared,nosuid,nodev,noexec 0 0".toList = sixFields storage
        v.networkSharingRootPath "none".toList "bind,shared,nosuid,nodev,noexec".toList
        ['0'] ['0'] := by simp [sixFields]
  have heq₂ : v.networkSharingRootPath ++ ' ' :: homeView v ++
      " none rbind,rslave,nosuid,nodev,noexec,x-systemd.requires-mounts-for=".toList ++
        v.networkSharingRootPath ++ " 0 0".toList = sixFields v.networkSharingRootPath (homeView v)
          "none".toList ("rbind,rslave,nosuid,nodev,noexec,x-systemd.requires-mounts-for=".toList ++
            v.networkSharingRootPath) ['0'] ['0'] := by simp [sixFields]
  have heq₃ : v.nfsClientTargetIp ++ ':' :: v.nfsClientExportPath ++ ' ' :: v.nfsClientPath ++
      " nfs ".toList ++ [','].intercalate (clientOptions v) ++ " 0 0".toList =
        sixFields (v.nfsClientTargetIp ++ ':' :: v.nfsClientExportPath) v.nfsClientPath
          "nfs".toList ([','].intercalate (clientOptions v)) ['0'] ['0'] := by simp [sixFields]
  rw [heq₁, heq₂, heq₃]
  split
  · rw [cons_append, cons_append, nil_append]
    refine .cons hfirst hroot' ?_ (.cons hsecond hhome' ?_ (.cons hthird hclient' ?_ .nil))
    · intro other hother
      simp only [mem_cons, not_mem_nil, or_false] at hother
      rcases hother with rfl | rfl
      · rw [hsecond.destination_eq]
        exact root_ne_homeView h
      · rw [hthird.destination_eq]
        exact (client_ne h).1
    · intro other hother
      rw [mem_singleton.1 hother, hthird.destination_eq]
      exact (client_ne h).2
    · simp
  · refine .cons hfirst hroot' ?_ (.cons hsecond hhome' ?_ .nil)
    · intro other hother
      rw [mem_singleton.1 hother, hsecond.destination_eq]
      exact root_ne_homeView h
    · simp

end Accepted

end Preseed.NetworkSharing
