import Preseed.Aptly.Publishing

/-!
# What a receipt says

A receipt that is not verified keeps every other publication away, and is verified only
by what was observed.
-/

namespace Preseed.Aptly

/-- There is no receipt, or it is verified. -/
def Resolved (file : Option Receipt) : Prop := ∀ r, file = some r → r.status = .verified

/-- The file is the receipt, up to its status. -/
def Holds (file : Option Receipt) (receipt : Receipt) : Prop := ∃ r, file = some r ∧ r.same receipt

theorem Receipt.same_self (r : Receipt) : r.same r := ⟨rfl, rfl, rfl, rfl, rfl, rfl⟩

variable {file : Option Receipt} {context : Context}

theorem resolved_of_reconciled (h : requireReconciled context file = true) : Resolved file := by
  rintro r rfl
  simp only [requireReconciled, publicationReceipt] at h
  split at h
  · cases h
  · rename_i heq
    split at heq <;> cases heq
  · rename_i receipt heq
    split at heq
    · obtain rfl := Option.some.inj (Option.some.inj heq)
      exact of_decide_eq_true h
    · cases heq

variable {receipt : Receipt}

theorem publicationReceipt_some
    (h : publicationReceipt context file = some (some receipt)) : file = some receipt := by
  cases file with
  | none => cases h
  | some r =>
    simp only [publicationReceipt] at h
    split at h
    · exact Option.some.inj h
    · cases h

/-- What the process with the lock knows of the file and of what it observed. -/
def Pc.Fits (context : Context) (file : Option Receipt) : Pc → Prop
  | native _ | reconciling _ | publishing _ => True
  | preparing _ => Resolved file
  | attempting receipt _ =>
      Resolved file ∧ receipt.status = .attempting ∧ receipt.target = context.publishTarget
  | starting receipt _ =>
      file = some receipt ∧ receipt.status = .attempting ∧ receipt.target = context.publishTarget
  | waiting receipt | failing receipt | committing receipt | fetching receipt _ =>
      Holds file receipt
  | showing receipt release _ => Holds file receipt ∧ release.confirms context receipt = true
  | verifying receipt release record => Holds file receipt ∧
      release.confirms context receipt = true ∧ record.confirms context receipt = true

/-- The process waits for the command, or has given up on it. -/
def Pc.waits : Pc → Bool
  | waiting _ | failing _ => true
  | _ => false

structure Good (s : System) : Prop where
  fits : ∀ context pc, s.holder = some (context, pc) → pc.Fits context s.receipt
  waits : s.running ≠ none → ∀ context pc, s.holder = some (context, pc) → pc.waits = true

variable {s : System}

/-- A system whose lock is with no process. -/
theorem Good.released (h : s.holder = none) : Good s := by
  constructor
  · intro context pc hholder
    rw [h] at hholder
    cases hholder
  · intro _ context pc hholder
    rw [h] at hholder
    cases hholder

variable {pc : Pc}

/-- A system whose lock is with this process. -/
theorem Good.held (h : s.holder = some (context, pc)) (hfits : pc.Fits context s.receipt)
    (hwaits : s.running ≠ none → pc.waits = true) :
    Good s := by
  constructor
  · intro context' pc' hholder
    rw [h] at hholder
    cases hholder
    exact hfits
  · intro hrunning context' pc' hholder
    rw [h] at hholder
    cases hholder
    exact hwaits hrunning

/-- A process that goes on without a command. -/
theorem Good.idle (h : Good s) (hholder : s.holder = some (context, pc))
    (hwaits : pc.waits = false) : s.running = none := by
  by_contra hrunning
  rw [h.waits hrunning context pc hholder] at hwaits
  cases hwaits

/-- A system without a command whose lock is with this process. -/
theorem Good.heldIdle (h : s.holder = some (context, pc)) (hfits : pc.Fits context s.receipt)
    (hidle : s.running = none) : Good s :=
  .held h hfits fun hrunning => absurd hidle hrunning

theorem Good.retry {reconcile : Bool} (hholds : Holds s.receipt receipt)
    (hidle : s.running = none) :
    Good { s with holder := (Aptly.retry receipt reconcile).map fun pc => (context, pc) } := by
  cases reconcile with
  | true => exact .released rfl
  | false => exact .heldIdle rfl hholds hidle

theorem Holds.kept {saved : Receipt} (h : Holds file receipt) (hsaved : saved.same receipt)
    {r : Receipt} (hr : file = some r) : saved.same r := by
  obtain ⟨r', hr', hsame⟩ := h
  obtain rfl := Option.some.inj (hr.symm.trans hr')
  obtain ⟨h1, h2, h3, h4, h5, h6⟩ := hsaved
  obtain ⟨k1, k2, k3, k4, k5, k6⟩ := hsame
  exact ⟨h1.trans k1.symm, h2.trans k2.symm, h3.trans k3.symm, h4.trans k4.symm,
    h5.trans k5.symm, h6.trans k6.symm⟩

/-- The saved receipt keeps the publication that is not verified, and is what the process
goes on with. -/
theorem Pc.Fits.saves (h : pc.Fits context file) {next : Option Pc}
    (hsaves : pc.saves = some (receipt, next)) :
    (∀ r, file = some r → r.status ≠ .verified → receipt.same r) ∧
      ∀ pc', next = some pc' → pc'.Fits context (some receipt) := by
  cases pc with
  | attempting r published =>
    cases hsaves
    refine ⟨fun r' hr' hnot => absurd (h.1 r' hr') hnot, ?_⟩
    rintro pc' heq
    cases heq
    exact ⟨rfl, h.2⟩
  | failing r =>
    cases hsaves
    exact ⟨fun r' hr' _ => h.kept r.same_self hr', fun _ heq => nomatch heq⟩
  | committing r =>
    cases hsaves
    refine ⟨fun r' hr' _ => h.kept r.same_self hr', ?_⟩
    rintro pc' heq
    cases heq
    exact ⟨_, rfl, Receipt.same_self _⟩
  | verifying r release record =>
    cases hsaves
    exact ⟨fun r' hr' _ => h.1.kept r.same_self hr', fun _ heq => nomatch heq⟩
  | _ => cases hsaves

theorem saves_not_waits {next : Pc}
    (hsaves : pc.saves = some (receipt, some next)) : pc.waits = false := by
  cases pc <;> first | rfl | cases hsaves

attribute [local simp] System.step

section Step

variable {s t : System} (h : Good s)

include h

theorem Good.check (hstep : s.step .check = some t) : Good t := by
  simp only [System.step] at hstep
  split at hstep
  · split at hstep <;> obtain rfl := Option.some.inj hstep <;> exact .released rfl
  · rename_i context distribution hholder
    have hidle := h.idle hholder rfl
    split at hstep
    · rename_i receipt hreceipt
      split at hstep <;> cases hstep
      · have hfile := publicationReceipt_some hreceipt
        exact .heldIdle rfl ⟨receipt, hfile, receipt.same_self⟩ hidle
      · exact .released rfl
    · cases hstep
      exact .released rfl
  · rename_i context distribution hholder
    have hidle := h.idle hholder rfl
    split at hstep <;> cases hstep
    · rename_i hreconciled
      exact .heldIdle rfl (resolved_of_reconciled hreconciled.1) hidle
    · exact .released rfl
  · cases hstep

theorem Good.prepared {snapshot : String} {published : Bool}
    (hstep : s.step (.prepared snapshot published) = some t) : Good t := by
  simp only [System.step] at hstep
  split at hstep
  · rename_i context distribution hholder
    have hidle := h.idle hholder rfl
    cases hstep
    exact .heldIdle rfl ⟨h.fits _ _ hholder, rfl, rfl⟩ hidle
  · cases hstep

theorem Good.save {saved : Saved} (hstep : s.step (.save saved) = some t) : Good t := by
  simp only [System.step] at hstep
  split at hstep
  · rename_i context pc hholder
    split at hstep
    · rename_i receipt next hsaves
      cases saved with
      | ok =>
        cases hstep
        cases next with
        | none => exact .released rfl
        | some pc' =>
          have hidle := h.idle hholder (saves_not_waits hsaves)
          have hnext := ((h.fits _ _ hholder).saves hsaves).2 pc' rfl
          exact .heldIdle rfl hnext hidle
      | fails =>
        cases hstep
        exact .released rfl
      | failsLate =>
        cases hstep
        exact .released rfl
    · cases hstep
  · cases hstep

theorem Good.start (hstep : s.step .start = some t) : Good t := by
  simp only [System.step] at hstep
  split at hstep
  · rename_i context receipt published hholder
    cases hstep
    exact .held rfl ⟨receipt, (h.fits _ _ hholder).1, receipt.same_self⟩ fun _ => rfl
  · cases hstep

theorem Good.ends {succeeded : Bool} (hstep : s.step (.ends succeeded) = some t) : Good t := by
  simp only [System.step] at hstep
  split at hstep
  · split at hstep
    · rename_i context receipt hholder
      have hholds : Holds s.receipt receipt := h.fits _ _ hholder
      cases hstep
      refine .heldIdle rfl ?_ rfl
      cases succeeded <;> exact hholds
    · cases hstep
      exact ⟨h.fits, fun hrunning => absurd rfl hrunning⟩
  · cases hstep

theorem Good.cancel (hstep : s.step .cancel = some t) : Good t := by
  simp only [System.step] at hstep
  split at hstep
  · rename_i context receipt published hholder
    cases hstep
    exact .held rfl ⟨receipt, (h.fits _ _ hholder).1, receipt.same_self⟩ fun _ => rfl
  · rename_i context receipt hholder
    have hholds : Holds s.receipt receipt := h.fits _ _ hholder
    cases hstep
    exact .held rfl hholds fun _ => rfl
  · cases hstep

theorem Good.fetch {release : Option Release} (hstep : s.step (.fetch release) = some t) :
    Good t := by
  simp only [System.step] at hstep
  split at hstep
  · rename_i context receipt reconcile hholder
    have hidle := h.idle hholder rfl
    have hholds : Holds s.receipt receipt := h.fits _ _ hholder
    split at hstep
    · split at hstep <;> cases hstep
      · rename_i hconfirms
        exact .heldIdle rfl ⟨hholds, hconfirms⟩ hidle
      · exact .retry hholds hidle
    · cases hstep
      exact .retry hholds hidle
  · cases hstep

theorem Good.shows {record : Option LocalRecord} (hstep : s.step (.shows record) = some t) :
    Good t := by
  simp only [System.step] at hstep
  split at hstep
  · rename_i context receipt release reconcile hholder
    have hidle := h.idle hholder rfl
    obtain ⟨hholds, hrelease⟩ := h.fits _ _ hholder
    split at hstep
    · split at hstep <;> cases hstep
      · rename_i hconfirms
        exact .heldIdle rfl ⟨hholds, hrelease, hconfirms⟩ hidle
      · exact .retry hholds hidle
    · cases hstep
      exact .retry hholds hidle
  · cases hstep

/-- Every event keeps what the process with the lock knows. -/
theorem Good.step {event : Event} (hstep : s.step event = some t) : Good t := by
  cases event with
  | acquire context invocation =>
    simp only [System.step, Option.ite_none_right_eq_some, Option.some.injEq] at hstep
    obtain ⟨⟨_, hidle⟩, rfl⟩ := hstep
    refine .heldIdle rfl ?_ hidle
    cases invocation <;> trivial
  | check => exact h.check hstep
  | prepared suffix published => exact h.prepared hstep
  | save saved => exact h.save hstep
  | start => exact h.start hstep
  | ends succeeded => exact h.ends hstep
  | cancel => exact h.cancel hstep
  | fetch release => exact h.fetch hstep
  | shows record => exact h.shows hstep
  | crash =>
    cases hstep
    exact .released rfl

end Step

/-- A state of a run from no publication. -/
inductive Reachable : System → Prop
  | initial : Reachable .initial
  | step {s t : System} (h : Reachable s) (event : Event) (hstep : s.step event = some t) :
      Reachable t

theorem Reachable.good {s : System} (h : Reachable s) : Good s := by
  induction h with
  | initial => exact .released rfl
  | step _ event hstep ih => exact ih.step hstep

/-! ## Steps that start a command or change the receipt -/

variable {event : Event}

/-- Other steps than these start nothing. -/
theorem running_of_step {s t : System} (hstep : s.step event = some t) (hcheck : event ≠ .check)
    (hstart : event ≠ .start) (hidle : s.running = none) :
    t.running = none := by
  cases event with
  | check => exact absurd rfl hcheck
  | start => exact absurd rfl hstart
  | acquire context invocation =>
    simp only [System.step, Option.ite_none_right_eq_some, Option.some.injEq] at hstep
    obtain ⟨_, rfl⟩ := hstep
    exact hidle
  | ends succeeded =>
    simp only [System.step, hidle] at hstep
    cases hstep
  | crash =>
    cases hstep
    exact hidle
  | _ =>
    simp only [System.step] at hstep
    repeat' split at hstep
    all_goals first
      | (obtain rfl := Option.some.inj hstep; exact hidle)
      | cases hstep

/-- A command that starts is a native one, read only or with nothing unresolved, or the
publish command of the attempting receipt in the file. -/
theorem started {s t : System} (h : Good s) (hstep : s.step event = some t) {command : Command}
    (hidle : s.running = none) (hrunning : t.running = some command) :
    (∃ arguments, command = .native arguments ∧
      (readOnly arguments = true ∨ Resolved s.receipt)) ∨
    ∃ context receipt published, command = .publish (publishArguments published receipt) ∧
      s.holder = some (context, .starting receipt published) ∧ s.receipt = some receipt ∧
      receipt.status = .attempting ∧ receipt.target = context.publishTarget := by
  have hnot : t.running = s.running → False := by
    intro heq
    rw [heq, hidle] at hrunning
    cases hrunning
  by_cases hcheck : event = .check
  · subst hcheck
    simp only [System.step] at hstep
    split at hstep
    · rename_i context arguments _
      split at hstep
      · rename_i hallowed
        cases hstep
        refine .inl ⟨arguments, (Option.some.inj hrunning).symm, ?_⟩
        rcases hallowed with hread | hreconciled
        · exact .inl hread
        · exact .inr (resolved_of_reconciled hreconciled)
      · cases hstep
        exact (hnot rfl).elim
    · split at hstep
      · split at hstep <;> obtain rfl := Option.some.inj hstep <;> exact (hnot rfl).elim
      · cases hstep
        exact (hnot rfl).elim
    · split at hstep <;> obtain rfl := Option.some.inj hstep <;> exact (hnot rfl).elim
    · cases hstep
  · by_cases hstart : event = .start
    · subst hstart
      simp only [System.step] at hstep
      split at hstep
      · rename_i context receipt published hholder
        obtain ⟨hfile, hstatus, htarget⟩ := h.fits _ _ hholder
        cases hstep
        exact .inr ⟨context, receipt, published, (Option.some.inj hrunning).symm, hholder, hfile,
          hstatus, htarget⟩
      · cases hstep
    · rw [running_of_step hstep hcheck hstart hidle] at hrunning
      cases hrunning

/-- Only a save changes the receipt. -/
theorem receipt_of_step {s t : System} (hstep : s.step event = some t) :
    t.receipt = s.receipt ∨ ∃ context pc receipt next, s.holder = some (context, pc) ∧
      pc.saves = some (receipt, next) ∧ t.receipt = some receipt := by
  cases event with
  | save saved =>
    simp only [System.step] at hstep
    split at hstep
    · rename_i context pc hholder
      split at hstep
      · rename_i receipt next hsaves
        cases saved with
        | ok =>
          cases hstep
          exact .inr ⟨context, pc, receipt, next, hholder, hsaves, rfl⟩
        | fails =>
          cases hstep
          exact .inl rfl
        | failsLate =>
          cases hstep
          exact .inr ⟨context, pc, receipt, next, hholder, hsaves, rfl⟩
      · cases hstep
    · cases hstep
  | crash =>
    cases hstep
    exact .inl rfl
  | _ =>
    simp only [System.step] at hstep
    repeat' split at hstep
    all_goals first
      | (obtain rfl := Option.some.inj hstep; exact .inl rfl)
      | cases hstep

/-- A save of the verified status is by a process that observed the publication. -/
theorem verified_saves {context : Context} {file : Option Receipt} {pc : Pc}
    (h : pc.Fits context file) {receipt : Receipt} {next : Option Pc}
    (hsaves : pc.saves = some (receipt, next)) (hverified : receipt.status = .verified) :
    ∃ r release record, pc = .verifying r release record ∧
      release.confirms context receipt = true ∧ record.confirms context receipt = true := by
  cases pc with
  | attempting r published =>
    cases hsaves
    rw [h.2.1] at hverified
    cases hverified
  | failing r =>
    cases hsaves
    cases hverified
  | committing r =>
    cases hsaves
    cases hverified
  | verifying r release record =>
    cases hsaves
    exact ⟨r, release, record, rfl, h.2.1, h.2.2⟩
  | _ => cases hsaves

/-- A command that may change the publication starts with nothing unresolved, or it is the
publish command of the attempting receipt in the file. A receipt that is not verified is
kept, and it becomes verified only after its publication was observed. -/
theorem publication_receipts {s t : System} (hs : Reachable s) {event : Event}
    (hstep : s.step event = some t) :
    (∀ command, s.running = none → t.running = some command → command.mutates = true →
      (∃ arguments, command = .native arguments ∧ Resolved s.receipt) ∨
      ∃ context receipt published, command = .publish (publishArguments published receipt) ∧
        s.holder = some (context, .starting receipt published) ∧ s.receipt = some receipt ∧
        receipt.status = .attempting ∧ receipt.target = context.publishTarget) ∧
    (∀ r, s.receipt = some r → r.status ≠ .verified →
      ∃ r', t.receipt = some r' ∧ r'.same r) ∧
    (∀ r, t.receipt = some r → s.receipt ≠ some r → r.status = .verified →
      ∃ context receipt release record,
        s.holder = some (context, .verifying receipt release record) ∧
        release.confirms context r = true ∧ record.confirms context r = true) := by
  have hgood := hs.good
  refine ⟨fun command hidle hrunning hmutates => ?_, fun r hr hnot => ?_,
    fun r hr hchanged hverified => ?_⟩
  · rcases started hgood hstep hidle hrunning with ⟨arguments, rfl, hread | hresolved⟩ | hpublish
    · simp [Command.mutates, hread] at hmutates
    · exact Or.inl ⟨arguments, rfl, hresolved⟩
    · exact Or.inr hpublish
  · rcases receipt_of_step hstep with hsame | ⟨context, pc, receipt, next, hholder, hsaves, ht⟩
    · exact ⟨r, hsame.trans hr, r.same_self⟩
    · exact ⟨receipt, ht, ((hgood.fits _ _ hholder).saves hsaves).1 r hr hnot⟩
  · rcases receipt_of_step hstep with hsame | ⟨context, pc, receipt, next, hholder, hsaves, ht⟩
    · exact absurd (hsame.symm.trans hr) hchanged
    · obtain rfl := Option.some.inj (ht.symm.trans hr)
      obtain ⟨r', release, record, rfl, hrelease, hrecord⟩ :=
        verified_saves (hgood.fits _ _ hholder) hsaves hverified
      exact ⟨context, r', release, record, hholder, hrelease, hrecord⟩

/-! ## Runs -/

/-- Events one after another. -/
def System.run (s : System) : List Event → Option System
  | [] => some s
  | event :: events => (s.step event).bind fun t => t.run events

theorem Reachable.run {s t : System} (hs : Reachable s) (events : List Event)
    (h : s.run events = some t) : Reachable t := by
  induction events generalizing s with
  | nil =>
    cases h
    exact hs
  | cons event events ih =>
    obtain ⟨m, hm, hrest⟩ := Option.bind_eq_some_iff.mp h
    exact ih (hs.step event hm) hrest

def sampleContext : Context where
  distributions := ["trixie"]
  component := "main"
  publishTarget := "s3:packages:"
  publicBaseUrl := "https://packages.example"
  signingKey := "0123456789ABCDEF0123456789ABCDEF01234567"

def sampleReceipt : Receipt :=
  attemptingReceipt sampleContext "trixie" "20261119T080000Z-0123456789ab"

/-- A publication up to its command. -/
def publicationEvents : List Event :=
  [.acquire sampleContext (.publish "trixie"), .check,
    .prepared "20261119T080000Z-0123456789ab" false, .save .ok]

theorem publication_receipts_started : ∃ s t, Reachable s ∧ s.step .start = some t ∧
    t.running = some (.publish (publishArguments false sampleReceipt)) ∧
    s.receipt = some sampleReceipt ∧ sampleReceipt.target = sampleContext.publishTarget := by
  have hrun : ∃ s, System.initial.run publicationEvents = some s ∧ s.running = none ∧
      s.holder = some (sampleContext, .starting sampleReceipt false) := ⟨_, rfl, rfl, rfl⟩
  obtain ⟨s, hs, hidle, hholder⟩ := hrun
  have hreachable : Reachable s := Reachable.initial.run publicationEvents hs
  have hstep : s.step .start = some { s with
      holder := some (sampleContext, .waiting sampleReceipt)
      running := some (.publish (publishArguments false sampleReceipt)) } := by
    simp only [System.step, hholder]
  rcases (publication_receipts hreachable hstep).1 _ hidle rfl rfl with
    ⟨_, hnative, -⟩ | ⟨context, receipt, published, -, hheld, hreceipt, -, htarget⟩
  · cases hnative
  · obtain ⟨rfl, hpc⟩ := Prod.mk.inj (Option.some.inj (hholder.symm.trans hheld))
    obtain ⟨rfl, rfl⟩ := Pc.starting.inj hpc
    exact ⟨s, _, hreachable, hstep, rfl, hreceipt, htarget⟩

/-- A native command that drops a publication starts without a receipt. -/
theorem native_drop_without_receipt : ∃ s t, Reachable s ∧ s.step .check = some t ∧
    s.running = none ∧ t.running = some (.native ["publish", "drop", "trixie", "s3:packages:"]) ∧
    Command.mutates (.native ["publish", "drop", "trixie", "s3:packages:"]) = true ∧
    s.receipt = none := by
  refine ⟨_, _, Reachable.initial.run [.acquire sampleContext
    (.aptly ["publish", "drop", "trixie", "s3:packages:"])] rfl, rfl, rfl, rfl, ?_, rfl⟩
  decide

end Preseed.Aptly
