import Preseed.Aptly.SignedRelease
import Preseed.NetworkSharing.Fstab

/-!
# Issuer chains

`ordered_chain` of the key manager puts the certificates of a bundle in the order in which
they issue one another, from the issuer of the leaf to a self-issued root. What the
certificate tool prints for a certificate is a parameter; a refused bundle is `none`.
-/

namespace Preseed.KeyManager

open List

open Aptly (Bytes Text ascii strip)
open NetworkSharing (splitlines)
open Texts (cut)

/-! ## The certificates of a bundle -/

def beginCertificate : Bytes := ascii "-----BEGIN CERTIFICATE-----"

def endCertificate : Bytes := ascii "-----END CERTIFICATE-----"

/-- The matches of `re.findall`; every match is longer than nothing. -/
def findBlocks : (fuel : ℕ) → Bytes → List Bytes
  | 0, _ => []
  | fuel + 1, value =>
      match cut beginCertificate value with
      | none => []
      | some (_, opened) =>
          match cut endCertificate opened with
          | none => []
          | some (body, rest) =>
              (beginCertificate ++ (body ++ endCertificate)) :: findBlocks fuel rest

/-- The PEM certificates of a bundle, each with a newline. -/
def pemBlocks (value : Bytes) : List Bytes :=
  (findBlocks value.length value).map (· ++ [Aptly.newline])

/-- `certificate_blocks`. -/
def certificateBlocks (value : Bytes) : Option (List Bytes) :=
  if pemBlocks value = [] ∨ 32 < (pemBlocks value).length then none else some (pemBlocks value)

/-! ## Subjects and issuers -/

/-- What the tool prints for a certificate, or nothing when it fails. -/
abbrev Tool := Bytes → Option Text

/-- `line.partition('=')[2].strip()` of a line with this name. -/
def nameAfter (field : String) (line : Text) : Option Text :=
  if (field.toList ++ ['=']).isPrefixOf line then
    some (strip ((line.dropWhile (· ≠ '=')).drop 1))
  else none

/-- `names`: the subject and the issuer. -/
def names (tool : Tool) (certificate : Bytes) : Option (Text × Text) := do
  match splitlines (← tool certificate) with
  | [subject, issuer] => return (← nameAfter "subject" subject, ← nameAfter "issuer" issuer)
  | _ => none

structure Candidate where
  subject : Text
  issuer : Text
  block : Bytes
  deriving DecidableEq

/-- The certificates with their names. -/
def candidatesOf (tool : Tool) (blocks : List Bytes) : Option (List Candidate) :=
  blocks.mapM fun block => (names tool block).map fun pair => ⟨pair.1, pair.2, block⟩

/-! ## The order -/

/-- The loop of `ordered_chain` over `count` candidates that are left. -/
def orderCandidates : (count : ℕ) → (wanted : Text) → List Candidate → Option (List Bytes)
  | 0, _, _ => none
  | count + 1, wanted, candidates =>
      match candidates.filter (·.subject = wanted) with
      | [selected] =>
          if selected.subject = selected.issuer then
            if candidates.erase selected = [] then some [selected.block] else none
          else
            (orderCandidates count selected.issuer (candidates.erase selected)).map
              (selected.block :: ·)
      | _ => none

/-- `ordered_chain`. -/
def orderedChain (tool : Tool) (leaf chain : Bytes) : Option (List Bytes) := do
  let candidates ← candidatesOf tool (← certificateBlocks chain)
  let (_, wanted) ← names tool leaf
  orderCandidates candidates.length wanted candidates

/-! ## Arrangements -/

/-- A path of certificates from an issuer to a self-issued root; at no step is there another
certificate left with the name that is wanted. -/
structure IssuerPath (wanted : Text) (path : List Candidate) : Prop where
  first : path.head?.map Candidate.subject = some wanted
  linked : path.IsChain fun issued issuer => issuer.subject = issued.issuer
  root : ∀ last ∈ path.getLast?, last.subject = last.issuer
  notEarlier : ∀ earlier ∈ path.dropLast, earlier.subject ≠ earlier.issuer
  single : path.Pairwise fun selected left => left.subject ≠ selected.subject

theorem not_issuerPath_nil (wanted : Text) : ¬IssuerPath wanted [] := by
  intro h
  have hfirst := h.first
  cases hfirst

variable {wanted : Text}

theorem issuerPath_singleton_iff {root : Candidate} :
    IssuerPath wanted [root] ↔ root.subject = wanted ∧ root.subject = root.issuer := by
  constructor
  · intro h
    exact ⟨Option.some.inj h.first, h.root root rfl⟩
  · rintro ⟨hsubject, hself⟩
    constructor
    · rw [← hsubject]
      rfl
    · exact isChain_singleton _
    · intro last hlast
      cases hlast
      exact hself
    · intro earlier hearlier
      cases hearlier
    · exact pairwise_singleton _ _

/-- The first certificate of a longer path, and the path of its issuer. -/
theorem issuerPath_cons_iff {selected next : Candidate} {rest : List Candidate} :
    IssuerPath wanted (selected :: next :: rest) ↔
      selected.subject = wanted ∧ selected.subject ≠ selected.issuer ∧
        (∀ left ∈ next :: rest, left.subject ≠ wanted) ∧
        IssuerPath selected.issuer (next :: rest) := by
  constructor
  · intro h
    obtain rfl : selected.subject = wanted := Option.some.inj h.first
    obtain ⟨hlink, hlinked⟩ := isChain_cons_cons.mp h.linked
    obtain ⟨hothers, hsingle⟩ := pairwise_cons.mp h.single
    refine ⟨rfl, h.notEarlier _ (mem_cons_self ..), hothers, ?_⟩
    constructor
    · exact congrArg some hlink
    · exact hlinked
    · exact h.root
    · intro earlier hearlier
      exact h.notEarlier earlier (mem_cons_of_mem _ hearlier)
    · exact hsingle
  · rintro ⟨rfl, hissued, hothers, h⟩
    constructor
    · rfl
    · exact isChain_cons_cons.mpr ⟨Option.some.inj h.first, h.linked⟩
    · exact h.root
    · intro earlier hearlier
      rcases mem_cons.mp hearlier with rfl | hrest
      · exact hissued
      · exact h.notEarlier earlier hrest
    · exact pairwise_cons.mpr ⟨hothers, h.single⟩

variable {candidates : List Candidate}

/-- One candidate has the name exactly when it is the only one of the bundle that has it. -/
theorem filter_subject_singleton_iff {selected : Candidate} :
    candidates.filter (·.subject = wanted) = [selected] ↔
      selected ∈ candidates ∧ selected.subject = wanted ∧
        ∀ left ∈ candidates.erase selected, left.subject ≠ wanted := by
  constructor
  · intro h
    have hselected : selected ∈ candidates.filter (·.subject = wanted) := by
      rw [h]
      exact mem_singleton_self _
    obtain ⟨hmem, hsubject⟩ := mem_filter.mp hselected
    have hsubject : selected.subject = wanted := by simpa using hsubject
    refine ⟨hmem, hsubject, ?_⟩
    intro left hleft hname
    have hperm := (perm_cons_erase hmem).filter (fun c : Candidate => c.subject = wanted)
    rw [h, filter_cons_of_pos (by simpa using hsubject)] at hperm
    have hempty := nil_perm.mp ((perm_cons selected).mp hperm)
    have hfound : left ∈ (candidates.erase selected).filter (·.subject = wanted) :=
      mem_filter.mpr ⟨hleft, by simpa using hname⟩
    rw [hempty] at hfound
    cases hfound
  · rintro ⟨hmem, hsubject, hothers⟩
    have hperm := (perm_cons_erase hmem).filter (fun c : Candidate => c.subject = wanted)
    have hnone : (candidates.erase selected).filter (·.subject = wanted) = [] := by
      rw [filter_eq_nil_iff]
      intro left hleft
      simpa using hothers left hleft
    rw [filter_cons_of_pos (by simpa using hsubject), hnone] at hperm
    exact perm_singleton.mp hperm

variable {blocks : List Bytes}

/-- The loop returns the arrangements of the candidates that are paths. -/
theorem orderCandidates_iff {count : ℕ} (hcount : candidates.length = count) :
    orderCandidates count wanted candidates = some blocks ↔
      ∃ path, path.Perm candidates ∧ IssuerPath wanted path ∧
        blocks = path.map Candidate.block := by
  induction count generalizing wanted candidates blocks with
  | zero =>
    obtain rfl := length_eq_zero_iff.mp hcount
    constructor
    · intro h
      cases h
    · rintro ⟨path, hperm, hpath, -⟩
      rw [perm_nil.mp hperm] at hpath
      exact absurd hpath (not_issuerPath_nil wanted)
  | succ count ih =>
    constructor
    · intro h
      unfold orderCandidates at h
      split at h
      · rename_i selected hfilter
        obtain ⟨hmem, hsubject, hothers⟩ := filter_subject_singleton_iff.mp hfilter
        have hperm := (perm_cons_erase hmem).symm
        have hleft : (candidates.erase selected).length = count := by
          rw [length_erase_of_mem hmem]
          omega
        split at h
        · rename_i hself
          split at h
          · rename_i hempty
            cases h
            rw [hempty] at hperm
            exact ⟨[selected], hperm, issuerPath_singleton_iff.mpr ⟨hsubject, hself⟩, rfl⟩
          · cases h
        · rename_i hissued
          obtain ⟨rest, hrest, rfl⟩ := Option.map_eq_some_iff.mp h
          obtain ⟨path, hpathPerm, hpath, rfl⟩ := (ih hleft).mp hrest
          refine ⟨selected :: path, (hpathPerm.cons selected).trans hperm, ?_, rfl⟩
          cases path with
          | nil => exact absurd hpath (not_issuerPath_nil _)
          | cons next path =>
            refine issuerPath_cons_iff.mpr ⟨hsubject, hissued, ?_, hpath⟩
            intro left hmemLeft
            exact hothers left (hpathPerm.subset hmemLeft)
      · cases h
    · rintro ⟨path, hperm, hpath, rfl⟩
      cases path with
      | nil => exact absurd hpath (not_issuerPath_nil wanted)
      | cons selected path =>
        have hmem := hperm.subset (mem_cons_self ..)
        have hrest : path.Perm (candidates.erase selected) :=
          (perm_cons selected).mp (hperm.trans (perm_cons_erase hmem))
        have hleft : (candidates.erase selected).length = count := by
          rw [length_erase_of_mem hmem]
          omega
        unfold orderCandidates
        cases path with
        | nil =>
          obtain ⟨hsubject, hself⟩ := issuerPath_singleton_iff.mp hpath
          have hempty := nil_perm.mp hrest
          have hfilter : candidates.filter (·.subject = wanted) = [selected] := by
            refine filter_subject_singleton_iff.mpr ⟨hmem, hsubject, ?_⟩
            rw [hempty]
            intro left hleftMem
            cases hleftMem
          rw [hfilter]
          simp only [hself, hempty, if_true, map_cons, map_nil]
        | cons next path =>
          obtain ⟨hsubject, hissued, hothers, hnext⟩ := issuerPath_cons_iff.mp hpath
          have hfilter : candidates.filter (·.subject = wanted) = [selected] := by
            refine filter_subject_singleton_iff.mpr ⟨hmem, hsubject, ?_⟩
            intro left hleftMem
            exact hothers left (hrest.symm.subset hleftMem)
          have htail := (ih hleft).mpr ⟨next :: path, hrest, hnext, rfl⟩
          rw [hfilter]
          simp only [hissued, if_false, htail, Option.map_some, map_cons]

/-- There is at most one path. -/
theorem IssuerPath.unique {path other : List Candidate} (h : IssuerPath wanted path)
    (hother : IssuerPath wanted other) (hperm : path.Perm other) :
    path = other := by
  induction path generalizing wanted other with
  | nil => exact absurd h (not_issuerPath_nil wanted)
  | cons selected path ih =>
    cases other with
    | nil => exact absurd hother (not_issuerPath_nil wanted)
    | cons first other =>
      have hsubject : selected.subject = first.subject := by
        have hone : selected.subject = wanted := Option.some.inj h.first
        have htwo : first.subject = wanted := Option.some.inj hother.first
        rw [hone, htwo]
      -- Another certificate with the wanted name would be among those that are left.
      have hsame : selected = first := by
        rcases mem_cons.mp (hperm.subset (mem_cons_self ..)) with heq | hmem
        · exact heq
        · exact absurd hsubject ((pairwise_cons.mp hother.single).1 selected hmem)
      subst hsame
      have hrest := (perm_cons selected).mp hperm
      cases path with
      | nil => rw [nil_perm.mp hrest]
      | cons next path =>
        cases other with
        | nil => exact absurd (perm_nil.mp hrest) (cons_ne_nil _ _)
        | cons following other =>
          obtain ⟨-, -, -, hnext⟩ := issuerPath_cons_iff.mp h
          obtain ⟨-, -, -, hfollowing⟩ := issuerPath_cons_iff.mp hother
          rw [ih hnext hfollowing hrest]

/-! ## The theorem -/

/-- The certificates of a bundle that can be read, with their names. -/
def Bundle (tool : Tool) (chain : Bytes) (candidates : List Candidate) : Prop :=
  candidatesOf tool (pemBlocks chain) = some candidates ∧ candidates.length ≤ 32

variable {tool : Tool}

theorem candidatesOf_cons_iff {block : Bytes} :
    candidatesOf tool (block :: blocks) = some candidates ↔
      ∃ subject issuer rest, names tool block = some (subject, issuer) ∧
        candidatesOf tool blocks = some rest ∧ candidates = ⟨subject, issuer, block⟩ :: rest := by
  unfold candidatesOf
  rw [mapM_cons]
  simp only [Option.bind_eq_bind, Option.bind_eq_some_iff, Option.map_eq_some_iff]
  constructor
  · rintro ⟨_, ⟨⟨subject, issuer⟩, hnames, rfl⟩, rest, hrest, h⟩
    exact ⟨subject, issuer, rest, hnames, hrest, (Option.some.inj h).symm⟩
  · rintro ⟨subject, issuer, rest, hnames, hrest, rfl⟩
    exact ⟨_, ⟨_, hnames, rfl⟩, rest, hrest, rfl⟩

theorem length_candidatesOf
    (h : candidatesOf tool blocks = some candidates) : candidates.length = blocks.length := by
  induction blocks generalizing candidates with
  | nil =>
    cases h
    rfl
  | cons block blocks ih =>
    obtain ⟨subject, issuer, rest, -, hrest, rfl⟩ := candidatesOf_cons_iff.mp h
    rw [length_cons, length_cons, ih hrest]

/-- Another order of the bundle gives another order of its candidates. -/
theorem candidatesOf_perm {other : List Bytes} (h : blocks.Perm other)
    (hread : candidatesOf tool blocks = some candidates) :
    ∃ more, candidatesOf tool other = some more ∧ candidates.Perm more := by
  induction h generalizing candidates with
  | nil => exact ⟨candidates, hread, List.Perm.refl _⟩
  | cons block _ ih =>
    obtain ⟨subject, issuer, rest, hnames, hrest, rfl⟩ := candidatesOf_cons_iff.mp hread
    obtain ⟨more, hmore, hperm⟩ := ih hrest
    have hcons := candidatesOf_cons_iff.mpr ⟨subject, issuer, more, hnames, hmore, rfl⟩
    exact ⟨_, hcons, hperm.cons _⟩
  | swap first second blocks =>
    obtain ⟨subject, issuer, rest, hfirst, hrest, rfl⟩ := candidatesOf_cons_iff.mp hread
    obtain ⟨subject', issuer', rest', hsecond, hrest', rfl⟩ := candidatesOf_cons_iff.mp hrest
    have hswapped := candidatesOf_cons_iff.mpr ⟨subject', issuer', _, hsecond,
      candidatesOf_cons_iff.mpr ⟨subject, issuer, rest', hfirst, hrest', rfl⟩, rfl⟩
    exact ⟨_, hswapped, List.Perm.swap _ _ _⟩
  | trans _ _ ih ih' =>
    obtain ⟨more, hmore, hperm⟩ := ih hread
    obtain ⟨most, hmost, hperm'⟩ := ih' hmore
    exact ⟨most, hmost, hperm.trans hperm'⟩

theorem orderedChain_eq_some_iff {leaf chain : Bytes} :
    orderedChain tool leaf chain = some blocks ↔
      ∃ subject issuer candidates path, names tool leaf = some (subject, issuer) ∧
        Bundle tool chain candidates ∧ path.Perm candidates ∧ IssuerPath issuer path ∧
        blocks = path.map Candidate.block := by
  unfold orderedChain certificateBlocks Bundle
  simp only [Option.bind_eq_bind, Option.bind_eq_some_iff, Option.ite_none_left_eq_some]
  constructor
  · rintro ⟨pem, ⟨hbound, hpem⟩, candidates, hread, ⟨subject, issuer⟩, hleaf, h⟩
    cases hpem
    obtain ⟨path, hperm, hpath, rfl⟩ := (orderCandidates_iff rfl).mp h
    have hlength := length_candidatesOf hread
    exact ⟨subject, issuer, candidates, path, hleaf, ⟨hread, by omega⟩, hperm, hpath, rfl⟩
  · rintro ⟨subject, issuer, candidates, path, hleaf, ⟨hread, hbound⟩, hperm, hpath, rfl⟩
    have hlength := length_candidatesOf hread
    have hne : pemBlocks chain ≠ [] := by
      intro hempty
      rw [hempty, length_nil] at hlength
      have hnil := length_eq_zero_iff.mp hlength
      rw [hnil] at hperm
      rw [perm_nil.mp hperm] at hpath
      exact not_issuerPath_nil issuer hpath
    refine ⟨_, ⟨?_, rfl⟩, candidates, hread, (subject, issuer), hleaf, ?_⟩
    · rintro (hempty | hlong)
      · exact hne hempty
      · omega
    · exact (orderCandidates_iff rfl).mpr ⟨path, hperm, hpath, rfl⟩

/-- For every leaf and every bundle of at most 32 certificates: a chain is returned exactly
when there is a path of all the certificates, it is the only one, and it is the same for
every order of the bundle. -/
theorem ordered_chain_is_path (tool : Tool) (leaf chain : Bytes) :
    (∀ blocks, orderedChain tool leaf chain = some blocks ↔
      ∃ subject issuer candidates path, names tool leaf = some (subject, issuer) ∧
        Bundle tool chain candidates ∧ path.Perm candidates ∧ IssuerPath issuer path ∧
        blocks = path.map Candidate.block) ∧
    (∀ issuer candidates path other, Bundle tool chain candidates → path.Perm candidates →
      IssuerPath issuer path → other.Perm candidates → IssuerPath issuer other → path = other) ∧
    ∀ reordered, (pemBlocks chain).Perm (pemBlocks reordered) →
      orderedChain tool leaf chain = orderedChain tool leaf reordered := by
  refine ⟨fun blocks => orderedChain_eq_some_iff, ?_, ?_⟩
  · intro issuer candidates path other _ hpath hissuer hother hsame
    exact hissuer.unique hsame (hpath.trans hother.symm)
  · have hmono (first second : Bytes) (hperm : (pemBlocks first).Perm (pemBlocks second))
        (blocks : List Bytes) (h : orderedChain tool leaf first = some blocks) :
        orderedChain tool leaf second = some blocks := by
      obtain ⟨subject, issuer, candidates, path, hleaf, ⟨hread, hbound⟩, hpath, hissuer, rfl⟩ :=
        orderedChain_eq_some_iff.mp h
      obtain ⟨more, hmore, hsame⟩ := candidatesOf_perm hperm hread
      have hbundle : Bundle tool second more := ⟨hmore, by rwa [← hsame.length_eq]⟩
      exact orderedChain_eq_some_iff.mpr
        ⟨subject, issuer, more, path, hleaf, hbundle, hpath.trans hsame, hissuer, rfl⟩
    intro reordered hperm
    apply Option.ext
    intro blocks
    exact ⟨hmono chain reordered hperm blocks, hmono reordered chain hperm.symm blocks⟩

/-! ## Concrete bundles -/

/-- A certificate whose body is a number of letters. -/
def countedCertificate (count : ℕ) : Bytes :=
  beginCertificate ++ (List.replicate count 120 ++ endCertificate)

/-- The tool for the certificates of a chain whose root has the number `root`. -/
def countingTool (root : ℕ) : Tool := fun certificate =>
  let count := certificate.count 120
  some ("subject=".toList ++ (List.replicate count 'x' ++ ("\nissuer=".toList ++
    (List.replicate (min (count + 1) root) 'x' ++ ['\n']))))

theorem ordered_chain_is_path_two :
    orderedChain (countingTool 2) (countedCertificate 0)
      (countedCertificate 2 ++ countedCertificate 1) =
        some [countedCertificate 1 ++ [10], countedCertificate 2 ++ [10]] ∧
    orderedChain (countingTool 2) (countedCertificate 0)
      (countedCertificate 2 ++ countedCertificate 1) =
        orderedChain (countingTool 2) (countedCertificate 0)
          (countedCertificate 1 ++ countedCertificate 2) := by
  have hperm : (pemBlocks (countedCertificate 2 ++ countedCertificate 1)).Perm
      (pemBlocks (countedCertificate 1 ++ countedCertificate 2)) := by decide
  refine ⟨?_, (ordered_chain_is_path _ _ _).2.2 _ hperm⟩
  refine ((ordered_chain_is_path _ _ _).1 _).mpr ⟨[], ['x'], ?_⟩
  refine ⟨[⟨['x', 'x'], ['x', 'x'], countedCertificate 2 ++ [10]⟩,
    ⟨['x'], ['x', 'x'], countedCertificate 1 ++ [10]⟩],
    [⟨['x'], ['x', 'x'], countedCertificate 1 ++ [10]⟩,
      ⟨['x', 'x'], ['x', 'x'], countedCertificate 2 ++ [10]⟩], ?_⟩
  refine ⟨by decide, ⟨by decide, by decide⟩, List.Perm.swap _ _ _, ?_, rfl⟩
  refine issuerPath_cons_iff.mpr ⟨rfl, by decide, by decide, ?_⟩
  exact issuerPath_singleton_iff.mpr ⟨rfl, rfl⟩

def longBundle : Bytes := (List.range 33).flatMap fun n => countedCertificate (n + 1)

def longCandidates : List Candidate := (List.range 33).map fun n =>
  ⟨List.replicate (n + 1) 'x', List.replicate (min (n + 2) 33) 'x',
    countedCertificate (n + 1) ++ [10]⟩

/-- A bundle of 33 certificates is a path from the issuer of the leaf to a root, and refused. -/
theorem long_bundle_refused :
    orderedChain (countingTool 33) (countedCertificate 0) longBundle = none ∧
    names (countingTool 33) (countedCertificate 0) = some ([], ['x']) ∧
    candidatesOf (countingTool 33) (pemBlocks longBundle) = some longCandidates ∧
    IssuerPath ['x'] longCandidates := by
  refine ⟨by decide +kernel, by decide +kernel, by decide +kernel, ?_⟩
  constructor
  · rfl
  · decide
  · decide
  · decide
  · decide

end Preseed.KeyManager
