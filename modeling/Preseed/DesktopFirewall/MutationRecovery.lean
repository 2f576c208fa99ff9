import Preseed.DesktopFirewall.Mutation
import Preseed.Effects.Safety

/-!
# A mutation is all or nothing

A mutation ends with the new rules, or with the previous ones, or with a recovery
directory that holds the previous ones and keeps later mutations away.
-/

namespace Preseed.DesktopFirewall

open Effects

/-! ## The system -/

/-- `read_text` translates the line ends of a backup. -/
def universalNewlines : List Char → List Char
  | '\r' :: '\n' :: rest => '\n' :: universalNewlines rest
  | '\r' :: rest => '\n' :: universalNewlines rest
  | c :: rest => c :: universalNewlines rest
  | [] => []

/-- The exceptions of a step: those of a command, of a temporary file, of a file. -/
def Step.mayRaise : Step → Fault → Bool
  | act action, e =>
    match action with
    | .saveLive => true
    | .validateFiles | .writeCandidates | .loadCandidate | .restoreState | .restoreFragment =>
        e = .firewallError
    | .replaceState _ | .replaceFragment _ | .protectDirectory | .makeDirectory
    | .removeSnapshot => e = .osError
    | .backupState | .backupFragment | .writeReceipt => e ≠ .outcomeUnknown
    | .removeRecovery => false
  | command _, e | liveIdentity, e | listManaged, e => e.isFirewall
  | scanPending, e => e ≠ .outcomeUnknown

/-- A write into the recovery directory: it has its effect, or it raises and leaves some
directory. -/
def recoveryWrite (w : System.World) (after : Recovery → Recovery) (answer : Except Fault Unit)
    (w' : System.World) : Prop :=
  (answer = .ok () → w' = { w with recovery := w.recovery.map after }) ∧
    ∀ e, answer = .error e → ∃ r, w' = { w with recovery := some r }

/-- A write of a file: it has its effect, or it raises and has had it or not. -/
def fileWrite (w : System.World) (files : Files) (answer : Except Fault Unit)
    (w' : System.World) : Prop :=
  w' = { w with files := files } ∨ (∃ e, answer = .error e) ∧ w' = w

/-- What an action does. -/
def Action.does (w : System.World) : Action → Except Fault Unit → System.World → Prop
  | makeDirectory, answer, w' =>
      (answer = .ok () → w' = { w with recovery := some Recovery.empty }) ∧
        ∀ e, answer = .error e → w' = w
  | protectDirectory, answer, w' =>
      (answer = .ok () → w' = w) ∧ ∀ e, answer = .error e → w' = { w with uncleaned := true }
  | backupState, answer, w' =>
      recoveryWrite w (fun r => { r with state := some w.files.state }) answer w'
  | backupFragment, answer, w' =>
      recoveryWrite w (fun r => { r with fragment := some w.files.fragment }) answer w'
  | writeReceipt, answer, w' => recoveryWrite w (fun r => { r with receipt := true }) answer w'
  | saveLive, answer, w' => recoveryWrite w (fun r => { r with live := some w.live }) answer w'
  | removeSnapshot, answer, w' =>
      (answer = .ok () → w' = { w with recovery := none }) ∧
        ∀ e, answer = .error e → ∃ r, w' = { w with recovery := r, uncleaned := true }
  | replaceState content, answer, w' => fileWrite w { w.files with state := content } answer w'
  | replaceFragment content, answer, w' =>
      fileWrite w { w.files with fragment := content } answer w'
  | restoreState, answer, w' => fileWrite w { w.files with
      state := universalNewlines ((w.recovery.bind Recovery.state).getD []) } answer w'
  | restoreFragment, answer, w' => fileWrite w { w.files with
      fragment := universalNewlines ((w.recovery.bind Recovery.fragment).getD []) } answer w'
  | removeRecovery, _, w' => w' = { w with recovery := none } ∨
      ∃ r, w' = { w with recovery := r, uncleaned := true }
  | validateFiles, _, w' | writeCandidates, _, w' | loadCandidate, _, w' => w' = w

/-- What a command does. A reload that does not succeed, and a restoration, may leave any
tables; `ruleset` says which tables loading a fragment gives. -/
def Command.does (ruleset : List Char → Live) (w : System.World) :
    Command → Except Fault Bool → System.World → Prop
  | checkCandidate, _, w' | checkEntry, _, w' => w' = w
  | reload, answer, w' => (∃ live, w' = { w with live := live }) ∧
      (answer = .ok true → w' = { w with live := ruleset w.files.fragment })
  | restoreLive, _, w' => ∃ live, w' = { w with live := live }

/-- The system: every step may raise, before or after it has had its effect. -/
def nftables (ruleset : List Char → Live) : Environment System Locals System.World :=
  fun w _ op =>
    match op with
    | .act action => fun (answer : Except Fault Unit) w' =>
        (∀ e, answer = .error e → (Step.act action).mayRaise e = true) ∧ action.does w answer w'
    | .command command => fun (answer : Except Fault Bool) w' =>
        (∀ e, answer = .error e → e.isFirewall = true) ∧ command.does ruleset w answer w'
    | .scanPending => fun (answer : Except Fault Bool) w' =>
        (∀ e, answer = .error e → e ≠ .outcomeUnknown) ∧ w' = w ∧
          ∀ pending, answer = .ok pending → pending = w.recovery.isSome
    | .liveIdentity => fun (answer : Except Fault Live) w' =>
        (∀ e, answer = .error e → e.isFirewall = true) ∧ w' = w ∧
          ∀ live, answer = .ok live → live = w.live
    | .listManaged => fun (answer : Except Fault (List String × List String)) w' =>
        (∀ e, answer = .error e → e.isFirewall = true) ∧ w' = w ∧
          ∀ comments, answer = .ok comments → comments = (w.live.localInput, w.live.localOutput)

section Rules

variable {ruleset : List Char → Live} {s : Locals} {w : System.World}

/-- The rule of a step. -/
theorem wp_step (op : Step) {Q : Except Fault op.Reply → Locals → System.World → Prop} :
    wp (nftables ruleset) unguarded (step op) Q s w ↔
      ∀ (answer : Except Fault op.Reply) w', nftables ruleset w s op answer w' →
        Q answer s w' := by
  simp only [step, wp_bind]
  exact ⟨fun h => h.2, fun h => ⟨trivial, h⟩⟩

/-- The rule of an action. -/
theorem wp_act (action : Action) {Q : Except Fault Unit → Locals → System.World → Prop} :
    wp (nftables ruleset) unguarded (act action) Q s w ↔
      ∀ answer w', (∀ e, answer = .error e → (Step.act action).mayRaise e = true) →
        action.does w answer w' → Q answer s w' := by
  refine (wp_step (.act action)).trans ⟨fun h answer w' hraises hdoes => ?_, fun h => ?_⟩
  · exact h answer w' ⟨hraises, hdoes⟩
  · rintro answer w' ⟨hraises, hdoes⟩
    exact h answer w' hraises hdoes

/-- The rule of a command. -/
theorem wp_command (c : Command) {Q : Except Fault Bool → Locals → System.World → Prop} :
    wp (nftables ruleset) unguarded (command c) Q s w ↔
      ∀ answer w', (∀ e, answer = .error e → e.isFirewall = true) →
        c.does ruleset w answer w' → Q answer s w' := by
  refine (wp_step (.command c)).trans ⟨fun h answer w' hraises hdoes => ?_, fun h => ?_⟩
  · exact h answer w' ⟨hraises, hdoes⟩
  · rintro answer w' ⟨hraises, hdoes⟩
    exact h answer w' hraises hdoes

/-- The rules of the steps that only look. -/
theorem wp_scanPending {Q : Except Fault Bool → Locals → System.World → Prop} :
    wp (nftables ruleset) unguarded scanPending Q s w ↔
      Q (.ok w.recovery.isSome) s w ∧ ∀ e, e ≠ .outcomeUnknown → Q (.error e) s w := by
  refine (wp_step .scanPending).trans ⟨fun h => ⟨?_, fun e he => ?_⟩, fun h => ?_⟩
  · exact h (.ok w.recovery.isSome) w ⟨by rintro e (_ | _), rfl, fun _ heq => (Except.ok.inj heq).symm⟩
  · exact h (.error e) w ⟨fun e' heq => by cases heq; exact he, rfl, fun _ heq => nomatch heq⟩
  · rintro (e | pending) w' ⟨hraises, rfl, hscan⟩
    · exact h.2 e (hraises e rfl)
    · rw [hscan pending rfl]
      exact h.1

theorem wp_liveIdentity {Q : Except Fault Live → Locals → System.World → Prop} :
    wp (nftables ruleset) unguarded liveIdentity Q s w ↔
      Q (.ok w.live) s w ∧ ∀ e, e.isFirewall = true → Q (.error e) s w := by
  refine (wp_step .liveIdentity).trans ⟨fun h => ⟨?_, fun e he => ?_⟩, fun h => ?_⟩
  · exact h (.ok w.live) w ⟨by rintro e (_ | _), rfl, fun _ heq => (Except.ok.inj heq).symm⟩
  · exact h (.error e) w ⟨fun e' heq => by cases heq; exact he, rfl, fun _ heq => nomatch heq⟩
  · rintro (e | live) w' ⟨hraises, rfl, hlive⟩
    · exact h.2 e (hraises e rfl)
    · rw [hlive live rfl]
      exact h.1

theorem wp_listManaged {Q : Except Fault (List String × List String) → Locals → System.World → Prop} :
    wp (nftables ruleset) unguarded listManaged Q s w ↔
      Q (.ok (w.live.localInput, w.live.localOutput)) s w ∧
        ∀ e, e.isFirewall = true → Q (.error e) s w := by
  refine (wp_step .listManaged).trans ⟨fun h => ⟨?_, fun e he => ?_⟩, fun h => ?_⟩
  · exact h (.ok _) w ⟨by rintro e (_ | _), rfl, fun _ heq => (Except.ok.inj heq).symm⟩
  · exact h (.error e) w ⟨fun e' heq => by cases heq; exact he, rfl, fun _ heq => nomatch heq⟩
  · rintro (e | comments) w' ⟨hraises, rfl, hcomments⟩
    · exact h.2 e (hraises e rfl)
    · rw [hcomments comments rfl]
      exact h.1

end Rules

/-! ## Stages -/

/-- The files and the live tables are the previous ones. -/
def Same (w₀ w : System.World) : Prop := w.files = w₀.files ∧ w.live = w₀.live

/-- The recovery directory holds the previous files. -/
def Backed (w₀ w : System.World) : Prop := ∃ r, w.recovery = some r ∧
  r.state = some w₀.files.state ∧ r.fragment = some w₀.files.fragment ∧ r.receipt = true

/-- The recovery directory holds the previous files and live tables. -/
def Kept (w₀ w : System.World) : Prop := ∃ r, w.recovery = some r ∧
  r.state = some w₀.files.state ∧ r.fragment = some w₀.files.fragment ∧ r.receipt = true ∧
  r.live = some w₀.live

/-- The recovery directory is gone, or its removal failed. -/
def Released (w : System.World) : Prop := w.recovery = none ∨ w.uncleaned = true

/-- The files are the previous ones, with the line ends of a rollback. -/
def Restored (w₀ w : System.World) : Prop :=
  (w.files.state = w₀.files.state ∨ w.files.state = universalNewlines w₀.files.state) ∧
  (w.files.fragment = w₀.files.fragment ∨
    w.files.fragment = universalNewlines w₀.files.fragment)

theorem Same.restored {w₀ w : System.World} (h : Same w₀ w) : Restored w₀ w :=
  ⟨.inl (by rw [h.1]), .inl (by rw [h.1])⟩

/-- How a mutation ends. -/
inductive Outcome (ruleset : List Char → Live) (candidate : Candidate) (w₀ : System.World) :
    Except Fault Unit → System.World → Prop
  /-- The new rules are in the files and loaded. -/
  | applied {w : System.World} (files : w.files = candidate.files)
      (live : w.live = ruleset candidate.files.fragment)
      (localInput : w.live.localInput = candidate.localInput)
      (localOutput : w.live.localOutput = candidate.localOutput) (released : Released w) :
      Outcome ruleset candidate w₀ (.ok ()) w
  /-- A `FirewallError`: the previous rules are in the files and loaded. -/
  | restored {w : System.World} (files : Restored w₀ w) (live : w.live = w₀.live)
      (released : Released w) : Outcome ruleset candidate w₀ (.error .firewallError) w
  /-- `OutcomeUnknown`, with everything that a recovery needs. -/
  | retained {w : System.World} (kept : Kept w₀ w) :
      Outcome ruleset candidate w₀ (.error .outcomeUnknown) w
  /-- `OutcomeUnknown`, for a command that timed out before the publication. -/
  | undecided {w : System.World} (same : Same w₀ w) (released : Released w) :
      Outcome ruleset candidate w₀ (.error .outcomeUnknown) w
  /-- There is a recovery directory already. -/
  | refused (pending : w₀.recovery.isSome = true) (e : Fault) :
      Outcome ruleset candidate w₀ (.error e) w₀

section Stages

variable {ruleset : List Char → Live} {candidate : Candidate} {w₀ : System.World} {s : Locals}
  {w : System.World}

/-! ## The snapshot -/

/-- After `create`: a snapshot, or nothing but a directory that could not be removed. -/
def Created (w₀ : System.World) : Except Fault Unit → Locals → System.World → Prop
  | .ok _, s, w => Same w₀ w ∧ Backed w₀ w ∧ s = Locals.initial
  | .error e, _, w => (w = w₀ ∧ w₀.recovery.isSome = true) ∨
      (e ≠ .outcomeUnknown ∧ Same w₀ w ∧ Released w)

theorem wp_removeSnapshot (hsame : Same w₀ w) (failure : Fault)
    (hfailure : failure ≠ .outcomeUnknown) :
    wp (nftables ruleset) unguarded
      (do
        Act.handleIf (act .removeSnapshot) Fault.isOs fun _ => pure ()
        Act.raise failure)
      (Created w₀) s w := by
  rw [wp_bind, wp_handleIf_cases, wp_act]
  rintro (e | _) w' hraises ⟨hok, herror⟩
  · obtain ⟨r, rfl⟩ := herror e rfl
    obtain rfl : e = .osError := of_decide_eq_true (hraises e rfl)
    exact ⟨fun _ => .inr ⟨hfailure, hsame, .inr rfl⟩, fun h => nomatch h⟩
  · obtain rfl := hok rfl
    exact .inr ⟨hfailure, hsame, .inl rfl⟩

/-- A file of the snapshot is written, or the snapshot is removed. -/
theorem wp_snapshotFile {action : Action} {rest : MutationAct Unit} {after : Recovery → Recovery}
    (hdoes : ∀ answer w', action.does w answer w' → recoveryWrite w after answer w')
    (hmay : ∀ e, (Step.act action).mayRaise e = true → e ≠ .outcomeUnknown) (hsame : Same w₀ w)
    (hrest : wp (nftables ruleset) unguarded rest
      (outcome (fun _ => Created w₀ (.ok ())) fun e _ w =>
        e ≠ .outcomeUnknown ∧ Same w₀ w) s { w with recovery := w.recovery.map after }) :
    wp (nftables ruleset) unguarded (do act action; rest)
      (outcome (fun _ => Created w₀ (.ok ())) fun e _ w =>
        e ≠ .outcomeUnknown ∧ Same w₀ w) s w := by
  rw [wp_bind, wp_act]
  rintro (e | _) w' hraises heffect
  · obtain ⟨r, rfl⟩ := (hdoes _ _ heffect).2 e rfl
    exact ⟨hmay e (hraises e rfl), hsame⟩
  · obtain rfl := (hdoes _ _ heffect).1 rfl
    exact hrest

theorem wp_snapshot (hsame : Same w₀ w) (hempty : w.recovery = some Recovery.empty) :
    wp (nftables ruleset) unguarded
      (Act.handle
        (do
          act .backupState
          act .backupFragment
          act .writeReceipt)
        fun failure => do
          Act.handleIf (act .removeSnapshot) Fault.isOs fun _ => pure ()
          Act.raise failure)
      (Created w₀) Locals.initial w := by
  have hmay : ∀ e, decide (e ≠ Fault.outcomeUnknown) = true → e ≠ .outcomeUnknown :=
    fun e he => of_decide_eq_true he
  rw [wp_handle]
  have hfiles : wp (nftables ruleset) unguarded
      (do
        act .backupState
        act .backupFragment
        act .writeReceipt)
      (outcome (fun _ => Created w₀ (.ok ())) fun e _ w => e ≠ .outcomeUnknown ∧ Same w₀ w)
      Locals.initial w := by
    refine wp_snapshotFile (fun _ _ h => h) hmay hsame ?_
    refine wp_snapshotFile (fun _ _ h => h) hmay hsame ?_
    rw [wp_act]
    rintro (e | _) w' hraises ⟨hok, herror⟩
    · obtain ⟨r, rfl⟩ := herror e rfl
      exact ⟨hmay e (hraises e rfl), hsame⟩
    · obtain rfl := hok rfl
      refine ⟨hsame, ⟨_, by rw [hempty]; rfl, ?_, ?_, rfl⟩, rfl⟩
      · exact congrArg some (congrArg Files.state hsame.1)
      · exact congrArg some (congrArg Files.fragment hsame.1)
  refine wp_mono hfiles ?_
  rintro (e | _) s' w' hpost
  · exact wp_removeSnapshot hpost.2 e hpost.1
  · exact hpost

theorem wp_create :
    wp (nftables ruleset) unguarded create (Created w₀) Locals.initial w₀ := by
  have hrefused : ∀ e, e ≠ .outcomeUnknown → Created w₀ (.error e) Locals.initial w₀ := by
    intro e he
    cases hrecovery : w₀.recovery with
    | none => exact .inr ⟨he, ⟨rfl, rfl⟩, .inl hrecovery⟩
    | some r => exact .inl ⟨rfl, by rw [hrecovery]; rfl⟩
  unfold create
  rw [wp_bind, wp_act]
  rintro (e | _) w' hraises rfl
  · exact hrefused e fun heq => by subst heq; cases hraises _ rfl
  rw [outcome_ok, wp_bind, wp_scanPending]
  refine ⟨?_, fun e he => hrefused e he⟩
  rw [outcome_ok, wp_bind, wp_when]
  refine ⟨fun hsome => .inl ⟨rfl, hsome⟩, fun hnot => ?_⟩
  rw [outcome_ok, wp_bind, wp_act]
  rintro (e | _) w₁ hraises ⟨hok, herror⟩
  · obtain rfl := herror e rfl
    exact hrefused e fun heq => by subst heq; cases hraises _ rfl
  obtain rfl := hok rfl
  rw [outcome_ok, wp_bind, wp_act]
  rintro (e | _) w₂ hraises ⟨hok, herror⟩
  · obtain rfl := herror e rfl
    refine .inr ⟨?_, ⟨rfl, rfl⟩, .inr rfl⟩
    exact fun heq => by subst heq; cases hraises _ rfl
  obtain rfl := hok rfl
  exact wp_snapshot ⟨rfl, rfl⟩ rfl

/-! ## The rollback -/

theorem wp_restored_state (hkept : Kept w₀ w) :
    wp (nftables ruleset) unguarded (restored (act .restoreState))
      (fun x s' w' => s' = s ∧ Kept w₀ w' ∧ w'.live = w.live ∧
        w'.files.fragment = w.files.fragment ∧ ∃ done, x = .ok done ∧
          (done = true → w'.files.state = universalNewlines w₀.files.state)) s w := by
  obtain ⟨r, hr, hstate, hrest⟩ := hkept
  unfold restored
  rw [wp_handleIf_cases, wp_bind, wp_act]
  rintro (e | _) w' hraises heffect
  · obtain rfl : e = .firewallError := of_decide_eq_true (hraises e rfl)
    refine ⟨fun _ => ?_, fun h => nomatch h⟩
    rcases heffect with rfl | ⟨-, rfl⟩
    · exact ⟨rfl, ⟨r, hr, hstate, hrest⟩, rfl, rfl, false, rfl, fun h => nomatch h⟩
    · exact ⟨rfl, ⟨r, hr, hstate, hrest⟩, rfl, rfl, false, rfl, fun h => nomatch h⟩
  · rcases heffect with rfl | ⟨⟨e, he⟩, -⟩
    · refine ⟨rfl, ⟨r, hr, hstate, hrest⟩, rfl, rfl, true, rfl, fun _ => ?_⟩
      simp [hr, hstate]
    · cases he

theorem wp_restored_fragment (hkept : Kept w₀ w) :
    wp (nftables ruleset) unguarded (restored (act .restoreFragment))
      (fun x s' w' => s' = s ∧ Kept w₀ w' ∧ w'.live = w.live ∧
        w'.files.state = w.files.state ∧ ∃ done, x = .ok done ∧
          (done = true → w'.files.fragment = universalNewlines w₀.files.fragment)) s w := by
  obtain ⟨r, hr, hstate, hfragment, hrest⟩ := hkept
  unfold restored
  rw [wp_handleIf_cases, wp_bind, wp_act]
  rintro (e | _) w' hraises heffect
  · obtain rfl : e = .firewallError := of_decide_eq_true (hraises e rfl)
    refine ⟨fun _ => ?_, fun h => nomatch h⟩
    rcases heffect with rfl | ⟨-, rfl⟩
    · exact ⟨rfl, ⟨r, hr, hstate, hfragment, hrest⟩, rfl, rfl, false, rfl, fun h => nomatch h⟩
    · exact ⟨rfl, ⟨r, hr, hstate, hfragment, hrest⟩, rfl, rfl, false, rfl, fun h => nomatch h⟩
  · rcases heffect with rfl | ⟨⟨e, he⟩, -⟩
    · refine ⟨rfl, ⟨r, hr, hstate, hfragment, hrest⟩, rfl, rfl, true, rfl, fun _ => ?_⟩
      simp [hr, hfragment]
    · cases he

/-- After `rollback`: the previous files, or a retained directory. -/
def RolledBack (w₀ : System.World) (live : Live) : Except Fault Unit → Locals → System.World → Prop
  | .ok _, _, w => Restored w₀ w ∧ w.live = live ∧ Kept w₀ w
  | .error e, s, w => e = .firewallError ∧ s.rollbackFailed = true ∧ Kept w₀ w

theorem wp_rollback (hkept : Kept w₀ w) :
    wp (nftables ruleset) unguarded rollback
      (fun x s' w' => RolledBack w₀ w.live x s' w' ∧ s'.rollbackFailed = true) s w := by
  unfold rollback setRollbackFailed
  rw [wp_bind, wp_modify, outcome_ok, wp_bind]
  refine wp_mono (wp_restored_state hkept) ?_
  rintro x s₁ w₁ ⟨rfl, hkept₁, hlive₁, -, state, rfl, hstate⟩
  rw [outcome_ok, wp_bind]
  refine wp_mono (wp_restored_fragment hkept₁) ?_
  rintro x s₂ w₂ ⟨rfl, hkept₂, hlive₂, hsame, fragment, rfl, hfragment⟩
  rw [outcome_ok, wp_when]
  refine ⟨fun _ => ⟨⟨rfl, rfl, hkept₂⟩, rfl⟩, fun hdone => ⟨⟨?_, ?_, hkept₂⟩, rfl⟩⟩
  · rw [not_or, Bool.not_eq_false, Bool.not_eq_false] at hdone
    exact ⟨.inr (hsame.trans (hstate hdone.1)), .inr (hfragment hdone.2)⟩
  · exact hlive₂.trans hlive₁

/-- How a transaction ends before its cleanup. -/
inductive Ended (ruleset : List Char → Live) (candidate : Candidate) (w₀ : System.World) :
    Except Fault Unit → Locals → System.World → Prop
  | applied {s : Locals} {w : System.World} (hs : s.rollbackFailed = false)
      (files : w.files = candidate.files) (live : w.live = ruleset candidate.files.fragment)
      (localInput : w.live.localInput = candidate.localInput)
      (localOutput : w.live.localOutput = candidate.localOutput) :
      Ended ruleset candidate w₀ (.ok ()) s w
  | restored {s : Locals} {w : System.World} (hs : s.rollbackFailed = false)
      (files : Restored w₀ w) (live : w.live = w₀.live) :
      Ended ruleset candidate w₀ (.error .firewallError) s w
  | before {s : Locals} {w : System.World} (hs : s.rollbackFailed = false) (same : Same w₀ w)
      (e : Fault) : Ended ruleset candidate w₀ (.error e) s w
  | retained {s : Locals} {w : System.World} (hs : s.rollbackFailed = true) (kept : Kept w₀ w) :
      Ended ruleset candidate w₀ (.error .outcomeUnknown) s w

section

variable (hkept : Kept w₀ w)
include hkept

/-- Before the reload a failure is rolled back. -/
theorem wp_rollbackOrFail {α : Type} {Q : Except Fault α → Locals → System.World → Prop}
    (hlive : w.live = w₀.live)
    (hQ : ∀ e s w, Ended ruleset candidate w₀ (.error e) s w → Q (.error e) s w) :
    wp (nftables ruleset) unguarded (rollbackOrFail : MutationAct α) Q s w := by
  unfold rollbackOrFail setRollbackFailed
  rw [wp_bind, wp_handleIf_cases]
  refine wp_mono (wp_rollback hkept) ?_
  rintro (e | _) s' w' ⟨hpost, hfailed⟩
  · obtain ⟨rfl, -, hkept'⟩ := hpost
    exact ⟨fun _ => hQ _ _ _ (.retained hfailed hkept'), fun h => nomatch h⟩
  · obtain ⟨hfiles, hlive', -⟩ := hpost
    exact hQ _ _ _ (.restored rfl hfiles (hlive'.trans hlive))

/-! ## The publication -/

theorem wp_install :
    wp (nftables ruleset) unguarded (install candidate)
      (fun x _ w' => Kept w₀ w' ∧ w'.live = w.live ∧
        (x = .ok () ∧ w'.files = candidate.files ∨ x = .error .firewallError)) s w := by
  unfold install setRollbackFailed
  rw [wp_bind, wp_modify, outcome_ok, wp_handleIf_cases, wp_bind, wp_act]
  rintro (e | _) w₁ hraises heffect
  · obtain rfl : e = .osError := of_decide_eq_true (hraises e rfl)
    refine ⟨fun _ => ?_, fun h => nomatch h⟩
    rcases heffect with rfl | ⟨-, rfl⟩
    · exact ⟨hkept, rfl, .inr rfl⟩
    · exact ⟨hkept, rfl, .inr rfl⟩
  obtain rfl : w₁ = { w with files := { w.files with state := candidate.files.state } } := by
    rcases heffect with rfl | ⟨⟨e, he⟩, -⟩
    · rfl
    · cases he
  rw [outcome_ok, wp_act]
  rintro (e | _) w₂ hraises heffect
  · obtain rfl : e = .osError := of_decide_eq_true (hraises e rfl)
    refine ⟨fun _ => ?_, fun h => nomatch h⟩
    rcases heffect with rfl | ⟨-, rfl⟩
    · exact ⟨hkept, rfl, .inr rfl⟩
    · exact ⟨hkept, rfl, .inr rfl⟩
  · rcases heffect with rfl | ⟨⟨e, he⟩, -⟩
    · exact ⟨hkept, rfl, .inl ⟨rfl, rfl⟩⟩
    · cases he

/-- The new rules are loaded and verified, or the owned tables are in any state. -/
theorem wp_reloadAndVerify (hfiles : w.files = candidate.files)
    (hs : s.rollbackFailed = true) :
    wp (nftables ruleset) unguarded (reloadAndVerify candidate)
      (outcome
        (fun applied s' w' => s'.rollbackFailed = true ∧ Kept w₀ w' ∧ w'.files = candidate.files ∧
          (applied = true → w'.live = ruleset candidate.files.fragment ∧
            w'.live.localInput = candidate.localInput ∧
            w'.live.localOutput = candidate.localOutput))
        fun e s' w' => e = .outcomeUnknown ∧ s'.rollbackFailed = true ∧ Kept w₀ w') s w := by
  unfold reloadAndVerify
  rw [wp_bind, wp_handleIf_cases, wp_command]
  rintro (e | reloaded) w' hraises ⟨⟨live, hw'⟩, hloaded⟩
  · subst hw'
    refine ⟨fun _ => ⟨hs, hkept, hfiles, fun h => nomatch h⟩, fun hdefinite => ?_⟩
    have he := hraises e rfl
    cases e with
    | firewallError => cases hdefinite
    | outcomeUnknown => exact ⟨rfl, hs, hkept⟩
    | osError => exact absurd he (by decide)
  · have hkept' : Kept w₀ w' := by
      subst hw'
      exact hkept
    have hfiles' : w'.files = candidate.files := by
      subst hw'
      exact hfiles
    cases reloaded with
    | false => exact ⟨hs, hkept', hfiles', fun h => nomatch h⟩
    | true =>
      have hlive : w'.live = ruleset candidate.files.fragment := by
        rw [hloaded rfl, ← hfiles]
      simp only [outcome_ok, if_true]
      rw [wp_handleIf_cases, wp_bind]
      unfold verifyManagedRules
      rw [wp_bind, wp_listManaged]
      refine ⟨?_, fun e he => ⟨fun _ => ⟨hs, hkept', hfiles', fun h => nomatch h⟩, fun h => ?_⟩⟩
      · rw [outcome_ok, wp_when]
        refine ⟨fun _ => ⟨fun _ => ⟨hs, hkept', hfiles', fun h => nomatch h⟩, fun h => nomatch h⟩,
          fun hsame => ⟨hs, hkept', hfiles', fun _ => ?_⟩⟩
        obtain ⟨hinput, houtput⟩ := Prod.mk.inj (not_not.mp hsame)
        exact ⟨hlive, hinput, houtput⟩
      · rw [he] at h
        cases h

/-- The restoration of the live tables: they are the previous ones, or it is unknown. -/
theorem wp_restoreLive (hfiles : Restored w₀ w)
    (hs : s.rollbackFailed = true) :
    wp (nftables ruleset) unguarded (restoreLive w₀.live)
      (outcome (fun _ _ w' => Restored w₀ w' ∧ w'.live = w₀.live)
        fun e s' w' => e = .outcomeUnknown ∧ s'.rollbackFailed = true ∧ Kept w₀ w') s w := by
  unfold restoreLive
  rw [wp_bind, wp_handleIf_cases, wp_bind, wp_command]
  rintro (e | status) w' hraises ⟨live, rfl⟩
  · refine ⟨fun _ => ⟨rfl, hs, hkept⟩, fun h => ?_⟩
    rw [hraises e rfl] at h
    cases h
  · rw [outcome_ok, wp_bind, wp_when]
    refine ⟨fun hstatus => ?_, fun hstatus => ?_⟩
    · rw [wp_bind, wp_liveIdentity]
      refine ⟨?_, fun e he => ⟨fun _ => ⟨rfl, hs, hkept⟩, fun h => ?_⟩⟩
      · rw [outcome_ok, wp_when]
        refine ⟨fun _ => ⟨fun _ => ⟨rfl, hs, hkept⟩, fun h => nomatch h⟩, fun hsame => ?_⟩
        rw [outcome_ok, wp_pure, outcome_ok, outcome_ok, wp_when]
        exact ⟨fun _ => ⟨rfl, hs, hkept⟩, fun _ => ⟨hfiles, not_not.mp hsame⟩⟩
      · rw [he] at h
        cases h
    · rw [outcome_ok, wp_pure, outcome_ok, outcome_ok, wp_when]
      exact ⟨fun _ => ⟨rfl, hs, hkept⟩, fun hnot => absurd (by simpa using hstatus) hnot⟩

theorem wp_restoreAll :
    wp (nftables ruleset) unguarded (restoreAll w₀.live)
      (Ended ruleset candidate w₀) s w := by
  unfold restoreAll setRollbackFailed
  rw [wp_bind, wp_handleIf_cases]
  refine wp_mono (wp_rollback hkept) ?_
  rintro (e | _) s₁ w₁ ⟨hpost, hfailed⟩
  · obtain ⟨rfl, -, hkept'⟩ := hpost
    exact ⟨fun _ => .retained hfailed hkept', fun h => nomatch h⟩
  · obtain ⟨hfiles, -, hkept'⟩ := hpost
    rw [outcome_ok, outcome_ok, wp_bind]
    refine wp_mono (wp_restoreLive hkept' hfiles hfailed) ?_
    rintro (e | _) s₂ w₂ hpost
    · obtain ⟨rfl, hfailed', hkept''⟩ := hpost
      exact .retained hfailed' hkept''
    · exact .restored rfl hpost.1 hpost.2

theorem wp_publish (hlive : w.live = w₀.live) :
    wp (nftables ruleset) unguarded (publish candidate w₀.live)
      (Ended ruleset candidate w₀) s w := by
  unfold publish
  rw [wp_bind, wp_handleIf_cases]
  refine wp_mono (wp_install hkept) ?_
  rintro x s₁ w₁ ⟨hkept₁, hlive₁, ⟨rfl, hfiles⟩ | rfl⟩
  · rw [outcome_ok, outcome_ok, wp_bind, wp_handleIf_cases, wp_command]
    rintro (e | syntaxOk) w₂ hraises rfl
    · refine ⟨fun _ => ?_, fun h => ?_⟩
      · exact wp_rollbackOrFail hkept₁ (hlive₁.trans hlive) fun _ _ _ h => h
      · rw [hraises e rfl] at h
        cases h
    rw [outcome_ok, outcome_ok, wp_bind, wp_when]
    refine ⟨fun _ => wp_rollbackOrFail hkept₁ (hlive₁.trans hlive) fun _ _ _ h => h, fun _ => ?_⟩
    rw [outcome_ok, setRollbackFailed, wp_bind, wp_modify, outcome_ok, wp_bind]
    refine wp_mono (wp_reloadAndVerify hkept₁ hfiles rfl) ?_
    rintro (e | applied) s₃ w₃ hpost
    · obtain ⟨rfl, hfailed, hkept₃⟩ := hpost
      exact .retained hfailed hkept₃
    · obtain ⟨hfailed, hkept₃, hfiles₃, happlied⟩ := hpost
      cases applied with
      | true =>
        obtain ⟨hlive₃, hinput, houtput⟩ := happlied rfl
        exact .applied rfl hfiles₃ hlive₃ hinput houtput
      | false => exact wp_restoreAll hkept₃
  · exact ⟨fun _ => wp_rollbackOrFail hkept₁ (hlive₁.trans hlive) fun _ _ _ h => h,
      fun h => nomatch h⟩

end

theorem wp_validateAndApply (hsame : Same w₀ w) (hbacked : Backed w₀ w)
    (hs : s.rollbackFailed = false) :
    wp (nftables ruleset) unguarded (validateAndApply candidate)
      (Ended ruleset candidate w₀) s w := by
  unfold validateAndApply
  rw [wp_bind, wp_act]
  rintro (e | _) w' hraises rfl
  · exact .before hs hsame e
  rw [outcome_ok, wp_bind, wp_command]
  rintro (e | valid) w' hraises rfl
  · exact .before hs hsame e
  rw [outcome_ok, wp_bind, wp_when]
  refine ⟨fun _ => .before hs hsame _, fun _ => ?_⟩
  rw [outcome_ok, wp_bind, wp_liveIdentity]
  refine ⟨?_, fun e _ => .before hs hsame e⟩
  rw [outcome_ok, wp_bind, wp_act]
  rintro (e | _) w₁ hraises ⟨hok, herror⟩
  · obtain ⟨r, rfl⟩ := herror e rfl
    have hsame' : Same w₀ { w' with recovery := some r } := hsame
    exact Ended.before hs hsame' e
  · obtain rfl := hok rfl
    obtain ⟨r, hr, hstate, hfragment, hreceipt⟩ := hbacked
    have hkept : Kept w₀ { w' with
        recovery := w'.recovery.map fun r => { r with live := some w'.live } } :=
      ⟨{ r with live := some w'.live }, (by rw [hr]; rfl), hstate, hfragment, hreceipt,
        congrArg some hsame.2⟩
    rw [outcome_ok, show publish candidate w'.live = publish candidate w₀.live by rw [hsame.2]]
    exact wp_publish hkept hsame.2

/-- Removing the recovery directory changes nothing else. -/
theorem wp_cleanup {x : Except Fault Unit} (hended : Ended ruleset candidate w₀ x s w) :
    wp (nftables ruleset) unguarded cleanup
      (outcome
        (fun _ _ w' => Outcome ruleset candidate w₀ x w' ∨
          x = .error .osError ∧ Same w₀ w' ∧ Released w')
        fun _ _ _ => False) s w := by
  unfold cleanup
  rw [wp_bind, wp_get, outcome_ok, wp_when]
  constructor
  · intro hs
    rw [wp_act]
    rintro (e | _) w' hraises heffect
    · cases hraises e rfl
    · have hrelease : Released w' ∧ w'.files = w.files ∧ w'.live = w.live := by
        rcases heffect with rfl | ⟨r, rfl⟩
        · exact ⟨.inl rfl, rfl, rfl⟩
        · exact ⟨.inr rfl, rfl, rfl⟩
      obtain ⟨hreleased, hfiles', hlive'⟩ := hrelease
      cases hended with
      | applied _ files live localInput localOutput =>
        exact .inl (.applied (hfiles'.trans files) (hlive'.trans live)
          (by rw [hlive']; exact localInput) (by rw [hlive']; exact localOutput) hreleased)
      | restored _ files live =>
        refine .inl (.restored ?_ (hlive'.trans live) hreleased)
        unfold Restored
        rw [hfiles']
        exact files
      | before _ same e =>
        have hsame : Same w₀ w' := ⟨hfiles'.trans same.1, hlive'.trans same.2⟩
        cases e with
        | firewallError => exact .inl (.restored hsame.restored hsame.2 hreleased)
        | outcomeUnknown => exact .inl (.undecided hsame hreleased)
        | osError => exact .inr ⟨rfl, hsame, hreleased⟩
      | retained hs' _ =>
        rw [hs] at hs'
        cases hs'
  · intro hs
    cases hended with
    | retained _ kept => exact .inl (.retained kept)
    | applied hs' _ _ _ _ => exact absurd hs' hs
    | restored hs' _ _ => exact absurd hs' hs
    | before hs' _ _ => exact absurd hs' hs

theorem wp_mutate :
    wp (nftables ruleset) unguarded (mutate candidate)
      (fun x _ w => Outcome ruleset candidate w₀ x w) Locals.initial w₀ := by
  have hos : ∀ w, Same w₀ w → Released w →
      Outcome ruleset candidate w₀ (.error .firewallError) w :=
    fun w hsame hreleased => .restored hsame.restored hsame.2 hreleased
  unfold mutate applyRules
  rw [wp_handleIf_cases, wp_bind]
  refine wp_mono wp_create ?_
  rintro (e | _) s₁ w₁ hcreated
  · rcases hcreated with ⟨rfl, hpending⟩ | ⟨he, hsame, hreleased⟩
    · exact ⟨fun _ => .refused hpending _, fun _ => .refused hpending e⟩
    · refine ⟨fun _ => hos _ hsame hreleased, fun hnot => ?_⟩
      cases e with
      | firewallError => exact hos _ hsame hreleased
      | outcomeUnknown => exact absurd rfl he
      | osError => cases hnot
  · obtain ⟨hsame, hbacked, rfl⟩ := hcreated
    rw [outcome_ok, wp_ensuring]
    have hended : wp (nftables ruleset) unguarded
        (do act .writeCandidates; validateAndApply candidate) (Ended ruleset candidate w₀)
        Locals.initial w₁ := by
      rw [wp_bind, wp_act]
      rintro (e | _) w' hraises rfl
      · exact .before rfl hsame e
      · exact wp_validateAndApply hsame hbacked rfl
    refine wp_mono hended fun x s₂ w₂ h => wp_mono (wp_cleanup h) ?_
    rintro (e | _) s₃ w₃ hpost
    · exact hpost.elim
    · rcases hpost with houtcome | ⟨rfl, hsame₃, hreleased₃⟩
      · cases x with
        | ok _ => exact houtcome
        | error e =>
          refine ⟨fun hisOs => ?_, fun _ => houtcome⟩
          obtain rfl : e = .osError := of_decide_eq_true hisOs
          cases houtcome with
          | refused pending _ => exact .refused pending _
      · exact ⟨fun _ => hos _ hsame₃ hreleased₃, fun h => nomatch h⟩

/-- While there is a recovery directory a mutation changes nothing. -/
theorem wp_mutate_pending (hpending : w₀.recovery.isSome = true) :
    wp (nftables ruleset) unguarded (mutate candidate)
      (fun x _ w => w = w₀ ∧ ∃ e, x = .error e) Locals.initial w₀ := by
  have hcreate : wp (nftables ruleset) unguarded create
      (fun x _ w => w = w₀ ∧ ∃ e, x = .error e) Locals.initial w₀ := by
    unfold create
    rw [wp_bind, wp_act]
    rintro (e | _) w' hraises rfl
    · exact ⟨rfl, e, rfl⟩
    rw [outcome_ok, wp_bind, wp_scanPending]
    refine ⟨?_, fun e _ => ⟨rfl, e, rfl⟩⟩
    rw [outcome_ok, wp_bind, wp_when]
    exact ⟨fun _ => ⟨rfl, _, rfl⟩, fun hnot => absurd hpending hnot⟩
  unfold mutate applyRules
  rw [wp_handleIf_cases, wp_bind]
  refine wp_mono hcreate ?_
  rintro x s₁ w₁ ⟨rfl, e, rfl⟩
  exact ⟨fun _ => ⟨rfl, _, rfl⟩, fun _ => ⟨rfl, e, rfl⟩⟩

end Stages

/-! ## Runs -/

/-- The world after an action that succeeds. -/
def System.World.after (w : System.World) : Action → System.World
  | .makeDirectory => { w with recovery := some Recovery.empty }
  | .backupState =>
    { w with recovery := w.recovery.map fun r => { r with state := some w.files.state } }
  | .backupFragment =>
    { w with recovery := w.recovery.map fun r => { r with fragment := some w.files.fragment } }
  | .writeReceipt => { w with recovery := w.recovery.map fun r => { r with receipt := true } }
  | .saveLive => { w with recovery := w.recovery.map fun r => { r with live := some w.live } }
  | .removeSnapshot | .removeRecovery => { w with recovery := none }
  | .replaceState content => { w with files := { w.files with state := content } }
  | .replaceFragment content => { w with files := { w.files with fragment := content } }
  | .restoreState => { w with files := { w.files with
      state := universalNewlines ((w.recovery.bind Recovery.state).getD []) } }
  | .restoreFragment => { w with files := { w.files with
      fragment := universalNewlines ((w.recovery.bind Recovery.fragment).getD []) } }
  | _ => w

/-- The world after a command. -/
def System.World.ran (ruleset : List Char → Live) (w : System.World) : Command → System.World
  | .reload => { w with live := ruleset w.files.fragment }
  | .restoreLive => { w with live := (w.recovery.bind Recovery.live).getD w.live }
  | _ => w

/-- A system on which one command has a given answer. Its other steps succeed. -/
def answering (ruleset : List Char → Live) (failing : Command) (verdict : Except Fault Bool)
    (w : System.World) (_ : Locals) : (op : Step) → Except Fault op.Reply × System.World
  | .act action => (.ok (), w.after action)
  | .command c => (if c = failing then verdict else .ok true, w.ran ruleset c)
  | .scanPending => (.ok w.recovery.isSome, w)
  | .liveIdentity => (.ok w.live, w)
  | .listManaged => (.ok (w.live.localInput, w.live.localOutput), w)

/-- It is an instance of the system. -/
theorem answering_nftables {ruleset : List Char → Live} {failing : Command}
    {verdict : Except Fault Bool} (hraises : ∀ e, verdict = .error e → e.isFirewall = true)
    (w : System.World) (s : Locals) (op : Step) :
    nftables ruleset w s op (answering ruleset failing verdict w s op).1
      (answering ruleset failing verdict w s op).2 := by
  cases op with
  | act action =>
    refine ⟨nofun, ?_⟩
    cases action with
    | removeRecovery => exact .inl rfl
    | replaceState | replaceFragment | restoreState | restoreFragment => exact .inl rfl
    | validateFiles | writeCandidates | loadCandidate => rfl
    | _ => exact ⟨fun _ => rfl, nofun⟩
  | command c =>
    constructor
    · intro e he
      change (if c = failing then verdict else .ok true) = Except.error e at he
      split at he
      · exact hraises e he
      · cases he
    · cases c with
      | checkCandidate | checkEntry => rfl
      | reload => exact ⟨⟨_, rfl⟩, fun _ => rfl⟩
      | restoreLive => exact ⟨_, rfl⟩
  | scanPending => exact ⟨nofun, rfl, fun _ heq => (Except.ok.inj heq).symm⟩
  | liveIdentity => exact ⟨nofun, rfl, fun _ heq => (Except.ok.inj heq).symm⟩
  | listManaged => exact ⟨nofun, rfl, fun _ heq => (Except.ok.inj heq).symm⟩

/-- No rule is managed. -/
def noRules : System.World where
  files := ⟨"version\t1\n".toList, []⟩
  live := ⟨[], [], "old"⟩
  recovery := none
  uncleaned := false

/-- One rule. -/
def oneRule : Candidate where
  files := ⟨"version\t1\nrule-0000\t".toList, "add rule".toList⟩
  localInput := ["rule-0000"]
  localOutput := []

/-- The tables that a fragment gives. -/
def oneRuleset (fragment : List Char) : Live :=
  if fragment = [] then ⟨[], [], "old"⟩ else ⟨["rule-0000"], [], "new"⟩

/-- Adding the rule, with one failing command. -/
def addition (failing : Command) (verdict : Except Fault Bool) :
    System.World × Program System Locals (Except Fault Unit × Locals) :=
  Program.runFor (answering oneRuleset failing verdict) 40 noRules (mutate oneRule Locals.initial)

end Preseed.DesktopFirewall
