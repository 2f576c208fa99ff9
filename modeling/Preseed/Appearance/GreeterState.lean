import Preseed.Appearance.Greeter
import Preseed.Effects.Safety

/-!
# The greeter's files

What the helper's steps do to the greeter directory and the three journals, the invariant of the
operations, and when a step may be taken.
-/

namespace Preseed.Appearance

open Effects

variable {δ : Type}

/-- The greeter directory and the journals. -/
structure Greeter (δ : Type) where
  file : Name δ → Option Bytes
  journal : Kind → Option (Journal (Name δ))

/-- A file is written. -/
def Greeter.setFile [DecidableEq δ] (w : Greeter δ) (name : Name δ) (data : Option Bytes) :
    Greeter δ :=
  { w with file := Function.update w.file name data }

/-- A journal is written. -/
def Greeter.setJournal (w : Greeter δ) (kind : Kind) (journal : Option (Journal (Name δ))) :
    Greeter δ :=
  { w with journal := Function.update w.journal kind journal }

/-- The journal that is read is the stored one; the keys of its images are sorted in the file. -/
def Journal.Same {ν : Type} (journal stored : Journal ν) : Prop :=
  journal.token = stored.token ∧ journal.phase = stored.phase ∧ journal.caller = stored.caller ∧
    journal.images.Perm stored.images

/-- A write that succeeds, or fails with or without its effect. -/
def Writes (w w' : Greeter δ) (answer : Except Fault Unit) (m : Greeter δ) : Prop :=
  m = w' ∨ (∃ e, answer = .error e) ∧ m = w

/-- What a step does to the greeter's files, and its answer. Anything may fail. -/
def Step.does [DecidableEq δ] (w : Greeter δ) :
    (op : Step δ) → (Helper δ).Res op → Greeter δ → Prop
  | .read name limit => fun (answer : Except Fault (Option Bytes)) w' => w' = w ∧
      ∀ data, answer = .ok data → data = w.file name ∧ size data ≤ limit
  | .write name data replace => fun (answer : Except Fault Unit) w' =>
      Writes w (w.setFile name data) answer w' ∧
        (replace = false → w.file name ≠ none → (∃ e, answer = .error e) ∧ w' = w)
  | .scan => fun _ w' => w' = w
  | .readJournal kind => fun (answer : Except Fault (Option (Journal (Name δ)))) w' => w' = w ∧
      (answer = .ok none → w.journal kind = none) ∧
      ∀ journal, answer = .ok (some journal) →
        ∃ stored, w.journal kind = some stored ∧ journal.Same stored
  | .writeJournal kind journal => fun (answer : Except Fault Unit) w' =>
      Writes w (w.setJournal kind journal) answer w'

/-- The write of a committed journal of field updates does not fail after its rename. -/
def Step.Settles (w w' : Greeter δ) : (op : Step δ) → (Helper δ).Res op → Prop
  | .writeJournal .fields (some journal) => fun (answer : Except Fault Unit) =>
      journal.phase = .committed → (∃ e, answer = .error e) → w' = w
  | _ => fun _ => True

/-- The greeter. A write of a committed journal that fails after its rename is excluded by
`torn = false`. -/
def greeter [DecidableEq δ] (torn : Bool) : Environment (Helper δ) Unit (Greeter δ) :=
  fun w _ op answer w' => op.does w answer w' ∧ (torn = false → op.Settles w w' answer)

section Invariant

variable (lib : Library δ)

/-- An image is there with the content that its name states. -/
def Present (file : Name δ → Option Bytes) (asset : Asset δ) : Prop :=
  ∃ data, file (.asset asset) = some data ∧ lib.States asset data

/-- The images that a text names are there. -/
def Provided (file : Name δ → Option Bytes) (data : Option Bytes) : Prop :=
  ∀ text asset, data = some text → lib.Names text asset → Present lib file asset

/-- The files a journal of some kind may name. -/
def Kind.allowed : Kind → List (Name δ)
  | .wallpaper => [.sheet .gtkgreet]
  | _ => sheets

/-- What holds of a pending journal. -/
structure Pending (torn : Bool) (file : Name δ → Option Bytes) (kind : Kind)
    (journal : Journal (Name δ)) : Prop where
  valid : journal.Valid kind.allowed
  nodup : (journal.images.map Image.name).Nodup
  current : ∀ image ∈ journal.images, file image.name = image.old ∨ file image.name = image.new
  committed : torn = false → journal.phase = .committed →
    ∀ image ∈ journal.images, file image.name = image.new
  provided : ∀ image ∈ journal.images, Provided lib file image.old ∧ Provided lib file image.new
  prepared : kind ≠ .fields → journal.phase = .prepared
  owned : kind = .theme → ∃ uid, journal.caller = some uid

/-- The invariant of the greeter operations. -/
structure Sound (torn : Bool) (w : Greeter δ) : Prop where
  exclusive : ∀ kind kind', w.journal kind ≠ none → w.journal kind' ≠ none → kind = kind'
  pending : ∀ kind journal, w.journal kind = some journal → Pending lib torn w.file kind journal
  provided : ∀ sheet, Provided lib w.file (w.file (.sheet sheet))

/-- When a step may be taken: a stylesheet becomes one of its images in the pending journal; an
image is stored under its own name, and removed when no journal is pending and no stylesheet
names it; and a journal is written where no other is pending. -/
def Permitted (torn : Bool) (w : Greeter δ) (_ : Unit) : Step δ → Prop
  | .write (.sheet sheet) data _ => ∃ kind journal, w.journal kind = some journal ∧
      (torn = false → journal.phase = .prepared) ∧
      ∃ image ∈ journal.images, image.name = .sheet sheet ∧ (data = image.old ∨ data = image.new)
  | .write (.asset asset) (some data) _ => lib.States asset data
  | .write (.asset asset) none _ => (∀ kind, w.journal kind = none) ∧
      ∀ sheet text, w.file (.sheet sheet) = some text → ¬lib.Names text asset
  | .write (.other _) _ _ => False
  | .writeJournal kind (some journal) => (∀ other, other ≠ kind → w.journal other = none) ∧
      Pending lib torn w.file kind journal
  | _ => True

end Invariant

section Steps

variable [DecidableEq δ] {lib : Library δ} {torn : Bool} {w w' : Greeter δ}

@[simp] theorem setFile_file (name : Name δ) (data : Option Bytes) :
    (w.setFile name data).file name = data := by
  simp [Greeter.setFile]

theorem setFile_file_ne {name other : Name δ} (data : Option Bytes) (h : other ≠ name) :
    (w.setFile name data).file other = w.file other := by
  simp [Greeter.setFile, h]

omit [DecidableEq δ] in
@[simp] theorem setJournal_journal (kind : Kind) (journal : Option (Journal (Name δ))) :
    (w.setJournal kind journal).journal kind = journal := by
  simp [Greeter.setJournal]

omit [DecidableEq δ] in
theorem setJournal_journal_ne {kind other : Kind} (journal : Option (Journal (Name δ)))
    (h : other ≠ kind) : (w.setJournal kind journal).journal other = w.journal other := by
  simp [Greeter.setJournal, h]

omit [DecidableEq δ] in
theorem Provided.of_present {file file' : Name δ → Option Bytes} {data : Option Bytes}
    (h : Provided lib file data) (hpresent : ∀ asset, Present lib file asset →
      Present lib file' asset) : Provided lib file' data :=
  fun text asset hdata hnames => hpresent asset (h text asset hdata hnames)

omit [DecidableEq δ] in
/-- A journal of any kind names stylesheets only. -/
theorem sheet_of_allowed {kind : Kind} {name : Name δ} (h : name ∈ kind.allowed) :
    ∃ sheet, name = .sheet sheet := by
  cases kind with
  | wallpaper => exact ⟨.gtkgreet, List.mem_singleton.1 h⟩
  | theme | fields =>
    rcases List.mem_cons.1 h with hname | hname
    · exact ⟨.gtkgreet, hname⟩
    · exact ⟨.gtkgreetPower, List.mem_singleton.1 hname⟩

omit [DecidableEq δ] in
/-- A pending journal names stylesheets only. -/
theorem Pending.sheet {file : Name δ → Option Bytes} {kind : Kind} {journal : Journal (Name δ)}
    (h : Pending lib torn file kind journal) {image : Image (Name δ)}
    (himage : image ∈ journal.images) : ∃ sheet, image.name = .sheet sheet :=
  sheet_of_allowed (h.valid.1 image himage).1

omit [DecidableEq δ] in
/-- Images that stay keep the invariant, where stylesheets and journals do not change. -/
theorem Sound.of_assets (h : Sound lib torn w) (hjournal : w'.journal = w.journal)
    (hsheet : ∀ sheet, w'.file (.sheet sheet) = w.file (.sheet sheet))
    (hpresent : ∀ asset, Present lib w.file asset → Present lib w'.file asset) :
    Sound lib torn w' where
  exclusive := hjournal ▸ h.exclusive
  provided sheet := hsheet sheet ▸ (h.provided sheet).of_present hpresent
  pending kind journal hpending := by
    have hold := h.pending kind journal (hjournal ▸ hpending)
    have hfile : ∀ image ∈ journal.images, w'.file image.name = w.file image.name := by
      intro image himage
      obtain ⟨sheet, hname⟩ := hold.sheet himage
      rw [hname]
      exact hsheet sheet
    exact {
      valid := hold.valid
      nodup := hold.nodup
      current := fun image himage => hfile image himage ▸ hold.current image himage
      committed := fun htorn hphase image himage =>
        hfile image himage ▸ hold.committed htorn hphase image himage
      provided := fun image himage => (hold.provided image himage).imp
        (fun h => h.of_present hpresent) fun h => h.of_present hpresent
      prepared := hold.prepared
      owned := hold.owned }

omit [DecidableEq δ] in
/-- The invariant does not need a journal. -/
theorem Sound.removeJournal (h : Sound lib torn w) (kind : Kind) :
    Sound lib torn (w.setJournal kind none) := by
  have hother : ∀ k journal, (w.setJournal kind none).journal k = some journal →
      w.journal k = some journal := by
    intro k journal hpending
    by_cases hk : k = kind
    · subst hk
      rw [setJournal_journal] at hpending
      cases hpending
    · rwa [setJournal_journal_ne none hk] at hpending
  refine ⟨fun k k' hk hk' => ?_, fun k journal hpending => h.pending k journal
    (hother k journal hpending), h.provided⟩
  obtain ⟨journal, hj⟩ := Option.ne_none_iff_exists'.1 hk
  obtain ⟨journal', hj'⟩ := Option.ne_none_iff_exists'.1 hk'
  refine h.exclusive k k' ?_ ?_
  · simp [hother k journal hj]
  · simp [hother k' journal' hj']

omit [DecidableEq δ] in
/-- A journal may become pending where no other is. -/
theorem Sound.putJournal (h : Sound lib torn w) {kind : Kind} {journal : Journal (Name δ)}
    (hothers : ∀ other, other ≠ kind → w.journal other = none)
    (hpending : Pending lib torn w.file kind journal) :
    Sound lib torn (w.setJournal kind (some journal)) := by
  have honly : ∀ k, (w.setJournal kind (some journal)).journal k ≠ none → k = kind := by
    intro k hk
    by_contra hne
    rw [setJournal_journal_ne _ hne] at hk
    exact hk (hothers k hne)
  refine ⟨fun k k' hk hk' => (honly k hk).trans (honly k' hk').symm, ?_, h.provided⟩
  intro k journal' hjournal'
  obtain rfl : k = kind := honly k (by simp [hjournal'])
  rw [setJournal_journal] at hjournal'
  cases hjournal'
  exact hpending

/-- A stylesheet may become one of its images in the pending journal. -/
theorem Sound.writeSheet (h : Sound lib torn w) {kind : Kind} {journal : Journal (Name δ)}
    (hjournal : w.journal kind = some journal) (hphase : torn = false → journal.phase = .prepared)
    {image : Image (Name δ)} (himage : image ∈ journal.images) {sheet : Sheet}
    (hname : image.name = .sheet sheet) {data : Option Bytes}
    (hdata : data = image.old ∨ data = image.new) :
    Sound lib torn (w.setFile (.sheet sheet) data) := by
  have hpending := h.pending kind journal hjournal
  have hpresent : ∀ asset, Present lib w.file asset →
      Present lib (w.setFile (.sheet sheet) data).file asset := by
    rintro asset ⟨stored, hstored, hstates⟩
    refine ⟨stored, ?_, hstates⟩
    rwa [setFile_file_ne data (by simp)]
  refine ⟨h.exclusive, fun k journal' hjournal' => ?_, fun sheet' => ?_⟩
  · obtain rfl : k = kind := h.exclusive k kind (by simpa using hjournal' ▸ Option.some_ne_none _)
      (by simp [hjournal])
    obtain rfl : journal' = journal := Option.some.inj (hjournal'.symm.trans hjournal)
    refine { hpending with
      current := fun other hother => ?_
      committed := fun htorn hcommitted => ?_
      provided := fun other hother => (hpending.provided other hother).imp
        (fun h => h.of_present hpresent) fun h => h.of_present hpresent }
    · by_cases hsame : other.name = .sheet sheet
      · obtain rfl : other = image :=
          List.inj_on_of_nodup_map hpending.nodup hother himage (hsame.trans hname.symm)
        rw [hsame, setFile_file]
        exact hdata
      · rw [setFile_file_ne data hsame]
        exact hpending.current other hother
    · rw [hphase htorn] at hcommitted
      cases hcommitted
  · by_cases hsame : sheet' = sheet
    · subst hsame
      rw [setFile_file]
      have hprovided : Provided lib w.file data := by
        rcases hdata with rfl | rfl
        · exact (hpending.provided image himage).1
        · exact (hpending.provided image himage).2
      exact hprovided.of_present hpresent
    · rw [setFile_file_ne data (by simpa using hsame)]
      exact (h.provided sheet').of_present hpresent

/-- Every permitted step keeps the invariant. -/
theorem sound_step (w : Greeter δ) (s : Unit) (op : Step δ) (answer : (Helper δ).Res op)
    (w' : Greeter δ) (hpermitted : Permitted lib torn w s op)
    (hstep : greeter torn w s op answer w') (h : Sound lib torn w) : Sound lib torn w' := by
  have hdoes := hstep.1
  cases op with
  | read name limit =>
    obtain rfl : w' = w := hdoes.1
    exact h
  | scan =>
    obtain rfl : w' = w := hdoes
    exact h
  | readJournal kind =>
    obtain rfl : w' = w := hdoes.1
    exact h
  | writeJournal kind journal =>
    rcases hdoes with rfl | ⟨-, rfl⟩
    · cases journal with
      | none => exact h.removeJournal kind
      | some journal => exact h.putJournal hpermitted.1 hpermitted.2
    · exact h
  | write name data replace =>
    rcases hdoes.1 with rfl | ⟨-, rfl⟩
    · cases name with
      | sheet sheet =>
        obtain ⟨kind, journal, hjournal, hphase, image, himage, hname, hdata⟩ := hpermitted
        exact h.writeSheet hjournal hphase himage hname hdata
      | asset asset =>
        have hsheet : ∀ sheet, (w.setFile (.asset asset) data).file (.sheet sheet) =
            w.file (.sheet sheet) := fun sheet => setFile_file_ne data (by simp)
        cases data with
        | some data =>
          refine h.of_assets rfl hsheet fun other hother => ?_
          by_cases hsame : other = asset
          · subst hsame
            exact ⟨data, setFile_file _ _, hpermitted⟩
          · obtain ⟨stored, hstored, hstates⟩ := hother
            exact ⟨stored, (setFile_file_ne _ (by simpa using hsame)).trans hstored, hstates⟩
        | none =>
          refine ⟨h.exclusive, fun kind journal hjournal => ?_, fun sheet => ?_⟩
          · cases (hpermitted.1 kind).symm.trans hjournal
          · rw [hsheet sheet]
            intro text other htext hnames
            obtain ⟨stored, hstored, hstates⟩ := h.provided sheet text other htext hnames
            refine ⟨stored, (setFile_file_ne _ ?_).trans hstored, hstates⟩
            intro hsame
            cases hsame
            exact hpermitted.2 sheet text htext hnames
      | other name => exact hpermitted.elim
    · exact h

end Steps

end Preseed.Appearance
