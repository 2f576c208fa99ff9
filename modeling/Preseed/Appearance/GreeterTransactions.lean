import Preseed.Appearance.GreeterRuns

/-!
# Greeter transactions

At most one journal is pending, its own kind of operation can clear it, and the images that
stylesheets and journals name are there; a commitment that fails after its rename is the exception.
-/

namespace Preseed.Appearance

open Effects

variable {δ : Type} [DecidableEq δ] {lib : Library δ} {torn : Bool}

/-- A committed journal of field updates is what the files are. -/
def Settled (kind : Kind) (journal : Journal (Name δ)) (w : Greeter δ) : Prop :=
  kind = .fields → journal.phase = .committed → Applied journal w

/-- An operation recovers a pending journal: a field update, a publication, or the rollback by the
account that has the token. -/
def Operation.Owns (kind : Kind) (journal : Journal (Name δ)) : Operation lib → Prop
  | theme uid token .rollback => kind = .theme ∧ journal.caller = some uid ∧ journal.token = token
  | theme _ _ _ => False
  | fields _ _ => kind = .fields
  | wallpaper _ _ => kind = .wallpaper

/-- An operation has a run that clears the journal of a kind. -/
def Clears (torn : Bool) (operation : Operation lib) (kind : Kind) (w : Greeter δ) : Prop :=
  ∃ w' p, Program.Steps (greeter torn) w (operation.run ()) w' p ∧ w'.journal kind = none

omit [DecidableEq δ] in
variable {kind : Kind} {journal : Journal (Name δ)}

/-- A pending journal has an operation that owns it. -/
theorem exists_owner {file : Name δ → Option Bytes} (h : Pending lib torn file kind journal) :
    ∃ operation : Operation lib, operation.Owns kind journal := by
  cases kind with
  | theme =>
    obtain ⟨uid, hcaller⟩ := h.owned rfl
    exact ⟨.theme uid journal.token .rollback, rfl, hcaller, rfl⟩
  | fields => exact ⟨.fields ⟨[], .nil, by simp⟩ 0, rfl⟩
  | wallpaper => exact ⟨.wallpaper [] 0, rfl⟩

omit [DecidableEq δ] in
theorem Sound.pends {w : Greeter δ} (h : Sound lib torn w)
    (hjournal : w.journal kind = some journal) :
    Pends kind journal w := by
  refine ⟨fun other hother => ?_, hjournal, (h.pending kind journal hjournal).current,
    fun image himage hnot => (hnot himage).elim⟩
  by_contra hpending
  exact hother (h.exclusive other kind hpending (by simp [hjournal]))

/-- An operation that owns the pending journal can clear it. -/
theorem clears_of_settled {w : Greeter δ} (h : Sound lib torn w)
    (hjournal : w.journal kind = some journal) (hsettled : Settled kind journal w)
    {operation : Operation lib}
    (howns : operation.Owns kind journal) : Clears torn operation kind w := by
  have hpending := h.pending kind journal hjournal
  have hpends := h.pends hjournal
  cases operation with
  | theme uid token action =>
    cases action with
    | apply edits => exact howns.elim
    | commit => exact howns.elim
    | rollback =>
      obtain ⟨rfl, hcaller, rfl⟩ := howns
      have hworks := works_rollbackTheme lib hpending.valid hpending.nodup hcaller
      obtain ⟨⟨outcome, _⟩, w', hrun, hpost⟩ := (hworks () w hpends).terminates
      cases outcome with
      | error e => exact hpost.elim
      | ok a => exact ⟨w', _, hrun.mono greeter_of_working, hpost⟩
  | fields edits token =>
    obtain rfl : kind = .fields := howns
    exact (works_recoverFields hpending.valid hpending.nodup).steps ⟨hpends, hsettled rfl⟩ _
  | wallpaper data token =>
    obtain rfl : kind = .wallpaper := howns
    exact (works_recoverWallpaper hpending.valid hpending.nodup).steps hpends _

section Fixture

/-- The eight bytes of a PNG signature. -/
def pngSignature : Bytes := [0x89, 0x50, 0x4e, 0x47, 0x0d, 0x0a, 0x1a, 0x0a]

/-- The library for that image and the empty stylesheet. -/
def fixture : Library Unit where
  sha256 _ := ()
  hex _ := ascii "4c4b6a3be1314ab86138bef4314dde022e600960d8689a2c8f8631802d20dab6"
  stylesheet raw asset :=
    if raw = [] ∧ asset.suffix = .png then
      .ok (ascii ("\nwindow \x7b background-image: url(\"file:///etc/greetd/waypaper-wallpaper-" ++
        "4c4b6a3be1314ab86138bef4314dde022e600960d8689a2c8f8631802d20dab6.png\"); \x7d\n"))
    else .error .valueError

theorem fixture_lawful : fixture.Lawful := by
  rintro raw ⟨⟨⟩, suffix⟩ text htext ⟨⟨⟩, other⟩ hnames
  simp only [fixture] at htext
  split at htext
  case isFalse => cases htext
  case isTrue hcase =>
    obtain ⟨-, rfl⟩ := hcase
    rw [← Except.ok.inj htext] at hnames
    cases other with
    | png => exact .inr rfl
    | jpg =>
      have hletter : (106 : UInt8) ∈ fixture.reference ⟨(), .jpg⟩ := by
        simp [Library.reference, Library.fileName, ascii]
      have hmember := hnames.subset hletter
      simp [ascii] at hmember

/-- Empty stylesheets, and nothing pending. -/
def blank : Greeter Unit where
  file
    | .sheet _ => some []
    | _ => none
  journal _ := none

theorem reaches_blank (torn : Bool) : Reaches fixture torn blank := by
  refine .start (fun _ => rfl) fun sheet text asset htext hnames => ?_
  cases htext
  have hempty : fixture.reference asset = [] := List.eq_nil_of_infix_nil hnames
  simp [Library.reference, ascii] at hempty

/-- A publication that is stopped when its stylesheet is written. -/
def published : Greeter Unit :=
  (Program.runFor answered 13 blank ((Operation.wallpaper pngSignature 1 : Operation fixture).run ())).1

theorem reaches_published : Reaches fixture false published := by
  have hrun : Program.Steps (greeter false) blank
      ((Operation.wallpaper pngSignature 1 : Operation fixture).run ()) _ _ :=
    Program.Steps.of_runFor (fun w s op => greeter_of_working w s op _ _ rfl) 13 blank _
  exact .run (reaches_blank false) hrun

/-- A field update of one color. -/
def recolored : Edits fixture where
  edits := [(.gtkgreet, fun _ => .ok [0x20])]
  nodup := by decide
  names := by
    rintro edit hedit raw text htext asset hnames
    obtain rfl := List.mem_singleton.1 hedit
    cases htext
    have hlength := hnames.length_le
    simp [Library.reference, ascii] at hlength

/-- A commitment that fails after its rename. -/
def failing (w : Greeter Unit) (s : Unit) : (op : Step Unit) → (Helper Unit).Res op × Greeter Unit
  | .writeJournal .fields (some journal) =>
    (if journal.phase = .committed then .error .osError else .ok (),
      w.setJournal .fields (some journal))
  | op => answered w s op

theorem greeter_failing (w : Greeter Unit) (s : Unit) (op : Step Unit) :
    greeter true w s op (failing w s op).1 (failing w s op).2 := by
  cases op with
  | writeJournal kind journal =>
    cases kind with
    | fields =>
      cases journal with
      | some journal => exact ⟨.inl rfl, fun h => by cases h⟩
      | none => exact ⟨.inl rfl, fun h => by cases h⟩
    | theme | wallpaper => exact ⟨.inl rfl, fun h => by cases h⟩
  | _ => exact greeter_of_working w s _ _ _ rfl

/-- A field update whose commitment fails after its rename, and that is stopped in its rollback. -/
def unsettled : Greeter Unit :=
  (Program.runFor failing 12 blank ((Operation.fields recolored 1 : Operation fixture).run ())).1

theorem reaches_unsettled : Reaches fixture true unsettled := by
  have hrun : Program.Steps (greeter true) blank
      ((Operation.fields recolored 1 : Operation fixture).run ()) _ _ :=
    Program.Steps.of_runFor greeter_failing 12 blank _
  exact .run (reaches_blank true) hrun

end Fixture

end Preseed.Appearance
