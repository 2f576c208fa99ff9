import Preseed.HardwareTuning.RestoringLoop

/-!
# A reset on the log

The rule of a whole `Engine.reset`, with the restoring loop described by what is known
of it: what holds when a write is issued, and what holds of the journal that is left
after the final verification.
-/

namespace Preseed.HardwareTuning

open Effects List

/-- The last reading of the control of an entry is not its baseline. -/
def Astray (log : List Exchange) (e : Entry) : Prop :=
  (readings log e.id).getLast? ≠ some (.ok e.before)

/-- What the final verification has found: the controls that are still completed are restored, and
the other ones have gone astray. -/
structure Verified (inventory : Inventory) (file : Journal) (scan : Scan) (st st' : Restoration)
    (t : Trace) : Prop where
  /-- Nothing is newly completed. -/
  sub : st'.complete ⊆ st.complete
  /-- The yielded controls stay completed. -/
  yields : ∀ key ∈ scan.yielded, key ∈ st'.complete
  /-- The completed controls are restored. -/
  checked : ∀ e ∈ file.entries, e.id ∈ st'.complete → e.id ∉ scan.yielded →
    Restored inventory t.log e
  /-- The other ones do not read their baselines any more. -/
  astray : ∀ e ∈ file.entries, e.id ∈ st.complete → e.id ∉ st'.complete → Astray t.log e

/-- The controls a reset drops from its journal. -/
def Restoration.dropped (inventory : Inventory) (file : Journal) (keys : List String)
    (st : Restoration) : List String :=
  st.complete.filter fun key =>
    key ∉ retainedKeys inventory file keys (keys.filter fun key => key ∉ st.complete)

section Pass

variable {G : Guard Hardware Journal Trace} {inventory : Inventory} {file : Journal}

/-- The first pass only reads, and what it sorts to be restored has answered. -/
theorem wp_scan_reads (hnodup : file.ids.Nodup) (hpassive : ∀ t id, G t file (.read id)) :
    wp observed G (Act.fold (scanOne inventory) ⟨[], [], []⟩ file.entries)
      (fun x _ t => ∀ scan, x = .ok scan → ∀ key ∈ scan.restore.map Prod.fst,
        Untroubled t.log key ∧ ∃ value, (readings t.log key).head? = some (.ok value))
      file ⟨file, []⟩ := by
  refine wp_fold (fun rest scan s' t => s' = file ∧ ∃ seen, file.entries = seen ++ rest ∧
    (∀ x ∈ t.log, x.op.target = none) ∧
    (∀ key ∈ rest.map Entry.id, readings t.log key = []) ∧
    (∀ key ∈ scan.restore.map Prod.fst, key ∈ seen.map Entry.id ∧
      ∃ value, readings t.log key = [.ok value])) ?_ ?_ ?_
  · exact ⟨rfl, [], rfl, by simp, by simp [readings], by simp⟩
  · rintro e rest scan s' t ⟨rfl, seen, hsplit, hreads, hunread, hok⟩
    have hsplit' : s'.entries = (seen ++ [e]) ++ rest := by simp [hsplit]
    have hunread' : ∀ key ∈ rest.map Entry.id, readings t.log key = [] := fun key hkey =>
      hunread key (by simp [hkey])
    have hseen : ∀ key ∈ scan.restore.map Prod.fst, key ∈ (seen ++ [e]).map Entry.id ∧
        ∃ value, readings t.log key = [.ok value] := by
      intro key hkey
      obtain ⟨hin, hans⟩ := hok key hkey
      exact ⟨by rw [map_append]; exact mem_append_left _ hin, hans⟩
    -- The entries still to come, and those seen, have other identifiers.
    have hids : (seen.map Entry.id ++ e.id :: rest.map Entry.id).Nodup := by
      have h : (s'.entries.map Entry.id).Nodup := hnodup
      rw [hsplit] at h
      simpa using h
    rw [nodup_append] at hids
    have hother : ∀ key ∈ rest.map Entry.id, e.id ≠ key := fun key hkey heq =>
      (nodup_cons.mp hids.2.1).1 (heq ▸ hkey)
    have hold : ∀ key ∈ seen.map Entry.id, e.id ≠ key := fun key hkey heq =>
      hids.2.2 key hkey e.id mem_cons_self heq.symm
    unfold scanOne
    cases hget : inventory.get? e.id with
    | none => exact ⟨rfl, _, hsplit', hreads, hunread', hseen⟩
    | some knob =>
      simp only [wp_handleIf, wp_bind, wp_readControl]
      refine ⟨hpassive t e.id, fun answer t' h => ?_⟩
      obtain ⟨-, hlog⟩ := h
      have hreads' : ∀ x ∈ t'.log, x.op.target = none := by
        rw [hlog]
        intro x hx
        rcases mem_append.mp hx with hx | hx
        · exact hreads x hx
        · rw [mem_singleton.mp hx]
          rfl
      have hunread'' : ∀ key ∈ rest.map Entry.id, readings t'.log key = [] := by
        intro key hkey
        rw [hlog, readings_append, hunread' key hkey]
        simp [hother key hkey]
      have hseen' : ∀ key ∈ scan.restore.map Prod.fst, key ∈ (seen ++ [e]).map Entry.id ∧
          ∃ value, readings t'.log key = [.ok value] := by
        intro key hkey
        obtain ⟨hin, hans⟩ := hok key hkey
        refine ⟨by rw [map_append]; exact mem_append_left _ hin, ?_⟩
        rw [hlog, readings_append]
        simpa [hold key hin] using hans
      cases answer with
      | error err =>
        simp only [outcome_error]
        cases err.isCaught with
        | true => exact ⟨rfl, _, hsplit', hreads', hunread'', hseen'⟩
        | false => simp
      | ok value =>
        simp only [outcome_ok]
        split
        · refine ⟨rfl, _, hsplit', hreads', hunread'', fun key hkey => ?_⟩
          rw [map_append] at hkey
          rcases mem_append.mp hkey with hkey | hkey
          · exact hseen' key hkey
          · have heq : key = e.id := by simpa using hkey
            subst heq
            refine ⟨by simp, value, ?_⟩
            rw [hlog, readings_append, hunread e.id (by simp)]
            simp
        · exact ⟨rfl, _, hsplit', hreads', hunread'', hseen'⟩
  · rintro scan s' t ⟨rfl, seen, -, hreads, -, hok⟩ scan' hscan key hkey
    cases hscan
    obtain ⟨-, value, hvalue⟩ := hok key hkey
    refine ⟨⟨fun x hx htarget => ?_, by simp [hvalue]⟩, value, by simp [hvalue]⟩
    rw [hreads x hx] at htarget
    cases htarget

/-- What the first pass could not sort is missing, or has failed to answer. -/
theorem wp_scan_covers (hpassive : ∀ t id, G t file (.read id)) {t : Trace} :
    wp observed G (Act.fold (scanOne inventory) ⟨[], [], []⟩ file.entries)
      (fun x _ t => ∀ scan, x = .ok scan → ∀ e ∈ file.entries, (inventory.get? e.id).isSome →
        e.id ∈ scan.restore.map Prod.fst ∨ e.id ∈ scan.yielded ∨
          ∃ err, .error err ∈ readings t.log e.id) file t := by
  refine wp_fold (fun rest scan s' t => s' = file ∧ ∃ seen, file.entries = seen ++ rest ∧
    ∀ e ∈ seen, (inventory.get? e.id).isSome → e.id ∈ scan.restore.map Prod.fst ∨
      e.id ∈ scan.yielded ∨ ∃ err, .error err ∈ readings t.log e.id) ?_ ?_ ?_
  · exact ⟨rfl, [], rfl, by simp⟩
  · rintro e rest scan s' t ⟨rfl, seen, hsplit, hseen⟩
    have hsplit' : s'.entries = (seen ++ [e]) ++ rest := by simp [hsplit]
    unfold scanOne
    cases hget : inventory.get? e.id with
    | none =>
      refine ⟨rfl, _, hsplit', fun e' he' hknown => ?_⟩
      rcases mem_append.mp he' with he' | he'
      · exact hseen e' he' hknown
      · rw [mem_singleton.mp he', hget] at hknown
        cases hknown
    | some knob =>
      simp only [wp_handleIf, wp_bind, wp_readControl]
      refine ⟨hpassive t e.id, fun answer t' h => ?_⟩
      obtain ⟨-, hlog⟩ := h
      -- The entries seen before stay covered, whatever becomes of this one.
      have hnext : ∀ scan' : Scan, scan.restore ⊆ scan'.restore → scan.yielded ⊆ scan'.yielded →
          (e.id ∈ scan'.restore.map Prod.fst ∨ e.id ∈ scan'.yielded ∨
            ∃ err, answer = .error err) →
          ∀ e' ∈ seen ++ [e], (inventory.get? e'.id).isSome →
            e'.id ∈ scan'.restore.map Prod.fst ∨ e'.id ∈ scan'.yielded ∨
              ∃ err, .error err ∈ readings t'.log e'.id := by
        intro scan' hrestore hyielded hcurrent e' he' hknown
        rcases mem_append.mp he' with he' | he'
        · rcases hseen e' he' hknown with hin | hin | ⟨err, herr⟩
          · exact .inl (map_subset _ hrestore hin)
          · exact .inr (.inl (hyielded hin))
          · refine .inr (.inr ⟨err, ?_⟩)
            rw [hlog, readings_append]
            exact mem_append_left _ herr
        · rw [mem_singleton.mp he']
          rcases hcurrent with hin | hin | ⟨err, herr⟩
          · exact .inl hin
          · exact .inr (.inl hin)
          · refine .inr (.inr ⟨err, ?_⟩)
            rw [hlog, readings_append, readings_read, if_pos rfl, herr]
            simp
      cases answer with
      | error err =>
        simp only [outcome_error]
        cases err.isCaught with
        | true =>
          exact ⟨rfl, _, hsplit', hnext _ (List.Subset.refl _) (List.Subset.refl _)
            (.inr (.inr ⟨err, rfl⟩))⟩
        | false => simp
      | ok value =>
        simp only [outcome_ok]
        split
        · exact ⟨rfl, _, hsplit', hnext _ (subset_append_left _ _) (List.Subset.refl _)
            (.inl (by simp))⟩
        · exact ⟨rfl, _, hsplit', hnext _ (List.Subset.refl _) (subset_append_left _ _)
            (.inr (.inl (by simp)))⟩
  · rintro scan s' t ⟨rfl, seen, hsplit, hseen⟩ scan' hscan e he hknown
    cases hscan
    rw [append_nil] at hsplit
    exact hseen e (hsplit ▸ he) hknown

/-- A yielded control has been read: it is changed, or was to be restored. -/
theorem yielded_of_sorts {scan : Scan} {log : List Exchange}
    (hsorts : scan.Sorts inventory (fun e answer => (readings log e.id).head? = some answer)
      file.entries)
    (hread : ∀ key ∈ scan.restore.map Prod.fst, ∃ value,
      (readings log key).head? = some (.ok value)) {key : String}
    (hkey : key ∈ (yieldDomains inventory file scan).yielded) :
    ∃ e ∈ file.entries, e.id = key ∧ Yielded inventory file log e := by
  obtain ⟨e, he, hid, hup⟩ := hsorts.givenUp hkey
  refine ⟨e, he, hid, hup, ?_⟩
  rw [hid]
  rcases mem_append.mp hkey with hchanged | hcoupled
  · obtain ⟨e', -, hid', -, -, value, hfirst, -⟩ := hsorts.yielded key hchanged
    exact ⟨value, hid' ▸ hfirst⟩
  · exact hread key (mem_of_mem_filter hcoupled)

/-- Reading another control leaves one astray. -/
theorem Astray.read {log : List Exchange} {e : Entry} (h : Astray log e) {id : String}
    (hne : id ≠ e.id) (answer : Except Failure Value) :
    Astray (log ++ [⟨.read id, answer⟩]) e := by
  unfold Astray
  rwa [readings_append, readings_read, if_neg hne, append_nil]

/-- A control that answers anything but its baseline is astray. -/
theorem astray_read (log : List Exchange) (e : Entry) {answer : Except Failure Value}
    (h : answer ≠ .ok e.before) : Astray (log ++ [⟨.read e.id, answer⟩]) e := by
  unfold Astray
  rw [readings_append, readings_read, if_pos rfl, getLast?_append]
  simpa using h

/-- The final verification so far. -/
private structure Verifying (inventory : Inventory) (file : Journal) (st st' : Restoration)
    (seen : List String) (t t' : Trace) : Prop where
  same : t'.file = t.file
  grown : ∃ more, t'.log = t.log ++ more ∧ ∀ x ∈ more, x.op.target = none
  sub : st'.complete ⊆ st.complete
  kept : ∀ key ∈ st.complete, key ∉ seen → key ∈ st'.complete
  found : ∀ e ∈ file.entries, e.id ∈ seen →
    (e.id ∈ st'.complete → Restored inventory t'.log e) ∧
      (e.id ∉ st'.complete → Astray t'.log e)

/-- One more control is verified. -/
private theorem Verifying.next {st st' st'' : Restoration} {seen : List String} {t t' t'' : Trace}
    (h : Verifying inventory file st st' seen t t') {key : String} (hnew : key ∉ seen)
    (hgrown : t''.file = t'.file ∧ (t''.log = t'.log ∨
      ∃ answer : Except Failure Value, t''.log = t'.log ++ [⟨.read key, answer⟩]))
    (hcomplete : st''.complete = st'.complete ∨ st''.complete = st'.complete.filter (· ≠ key))
    (hfound : ∀ e ∈ file.entries, e.id = key →
      (key ∈ st''.complete → Restored inventory t''.log e) ∧
        (key ∉ st''.complete → Astray t''.log e)) :
    Verifying inventory file st st'' (seen ++ [key]) t t'' := by
  obtain ⟨hfile, hlog⟩ := hgrown
  obtain ⟨more, hmore, hpassive⟩ := h.grown
  have hothers : ∀ k, k ≠ key → (k ∈ st''.complete ↔ k ∈ st'.complete) := by
    intro k hne
    rcases hcomplete with hsame | hfilter
    · rw [hsame]
    · rw [hfilter, mem_filter]
      simp [hne]
  refine ⟨hfile.trans h.same, ?_, fun k hk => ?_, fun k hk hnot => ?_, fun e he hseen => ?_⟩
  · rcases hlog with hlog | ⟨answer, hlog⟩
    · exact ⟨more, hlog.trans hmore, hpassive⟩
    · refine ⟨more ++ [⟨.read key, answer⟩], by rw [hlog, hmore, append_assoc], ?_⟩
      intro x hx
      rcases mem_append.mp hx with hx | hx
      · exact hpassive x hx
      · rw [mem_singleton.mp hx]
        rfl
  · rcases hcomplete with hsame | hfilter
    · exact h.sub (hsame ▸ hk)
    · rw [hfilter] at hk
      exact h.sub (mem_of_mem_filter hk)
  · simp only [mem_append, mem_singleton, not_or] at hnot
    exact (hothers k hnot.2).mpr (h.kept k hk hnot.1)
  · rcases mem_append.mp hseen with hseen | hseen
    · have hne : e.id ≠ key := fun heq => hnew (heq ▸ hseen)
      obtain ⟨hdone, hlost⟩ := h.found e he hseen
      rw [hothers e.id hne]
      rcases hlog with hlog | ⟨answer, hlog⟩
      · rw [hlog]
        exact ⟨hdone, hlost⟩
      · rw [hlog]
        exact ⟨fun hin => (hdone hin).read (Ne.symm hne) answer,
          fun hout => (hlost hout).read (Ne.symm hne) answer⟩
    · have hid := mem_singleton.mp hseen
      rw [hid]
      exact hfound e he hid

/-- The rule of the final verification, on the log. -/
theorem wp_verify_observed {held : Journal} {scan : Scan} {st : Restoration} {t : Trace}
    (hnodup : file.ids.Nodup)
    (hdone : ∀ e ∈ file.entries, e.id ∈ st.complete → e.id ∉ scan.yielded →
      Resolved inventory t.log e)
    (hyields : ∀ key ∈ scan.yielded, key ∈ st.complete) (hpassive : ∀ t id, G t held (.read id)) :
    wp observed G (Act.fold (verifyOne inventory file) st
        (sortedKeys (st.complete.filter fun key => key ∉ scan.yielded)))
      (outcome (fun st' s' t' => s' = held ∧ t'.file = t.file ∧
          (∃ more, t'.log = t.log ++ more ∧ ∀ x ∈ more, x.op.target = none) ∧
          Verified inventory file scan st st' t')
        fun _ s' t' => s' = held ∧ t'.file = t.file) held t := by
  set keys := sortedKeys (st.complete.filter fun key => key ∉ scan.yielded) with hkeys
  have hunique : keys.Nodup := nodup_sortedKeys _
  refine wp_fold (fun rest st' s' t' => s' = held ∧ ∃ seen, keys = seen ++ rest ∧
    Verifying inventory file st st' seen t t') ?_ ?_ ?_
  · exact ⟨rfl, [], rfl, rfl, ⟨[], by simp, by simp⟩, List.Subset.refl _, fun k hk _ => hk, by simp⟩
  · rintro key rest st' s' t' ⟨rfl, seen, hsplit, h⟩
    have hsplit' : keys = (seen ++ [key]) ++ rest := by simp [hsplit]
    have hnew : key ∉ seen := by
      rw [hsplit, nodup_append] at hunique
      exact fun hmem => hunique.2.2 key hmem key mem_cons_self rfl
    have hkey : key ∈ st.complete ∧ key ∉ scan.yielded := by
      have hin : key ∈ keys := by simp [hsplit]
      rw [hkeys, mem_sortedKeys] at hin
      simpa using mem_filter.mp hin
    have hin : key ∈ st'.complete := h.kept key hkey.1 hnew
    unfold verifyOne
    cases hget : inventory.get? key with
    | none => exact ⟨rfl, h.same⟩
    | some knob =>
      cases hentry : file.entry? key with
      | none => exact ⟨rfl, h.same⟩
      | some entry =>
        obtain ⟨hmem, hid⟩ := Journal.entry?_eq_some hentry
        have hsame : ∀ e ∈ file.entries, e.id = key → e = entry := fun e he heq =>
          inj_on_of_nodup_map hnodup he hmem (heq.trans hid.symm)
        have hrestorable := Inventory.restorable_of_get? hget
        subst hid
        -- The readback finds the control restored, or astray.
        have hcheck : wp observed G (checkReadback knob entry.id entry.before
              "final restoration readback differs from original value")
            (fun x s'' t'' => s'' = s' ∧ t''.file = t'.file ∧ (t''.log = t'.log ∨
              ∃ answer : Except Failure Value, t''.log = t'.log ++ [⟨.read entry.id, answer⟩]) ∧
              (x = .ok () → Restored inventory t''.log entry) ∧
              ∀ err, x = .error err → Astray t''.log entry) s' t' := by
          refine wp_checkReadback (fun hreadable =>
            ⟨hpassive t' entry.id, fun answer t'' hans => ?_⟩) fun hfixed => ?_
          · obtain ⟨hfile, hlog⟩ := hans
            refine ⟨fun err herr => ⟨rfl, hfile, .inr ⟨answer, hlog⟩, by simp, fun _ _ => ?_⟩, ?_⟩
            · rw [hlog]
              exact astray_read t'.log entry (by simp [herr])
            · intro current hcurrent
              split
              case isTrue heq =>
                refine ⟨rfl, hfile, .inr ⟨answer, hlog⟩, fun _ => ?_, by simp⟩
                unfold Restored
                rw [hrestorable, hreadable, if_pos rfl, hlog]
                exact holds_read t'.log entry.id (heq ▸ hcurrent)
              case isFalse hne =>
                refine ⟨rfl, hfile, .inr ⟨answer, hlog⟩, by simp, fun _ _ => ?_⟩
                rw [hlog]
                exact astray_read t'.log entry (by simpa [hcurrent] using hne)
          · refine ⟨rfl, rfl, .inl rfl, fun _ => ?_, by simp⟩
            obtain ⟨more, hmore, -⟩ := h.grown
            have hwritten := (hdone entry hmem hkey.1 hkey.2).written (by rw [hrestorable, hfixed])
            unfold Restored
            rw [hrestorable, hfixed, hmore]
            simpa using hwritten.append more
        simp only [wp_handleIf, wp_bind]
        refine wp_mono hcheck ?_
        rintro (err | _) s'' t'' ⟨rfl, hfile, hlog, hok, hlost⟩
        · simp only [outcome_error]
          by_cases hcaught : err.isCaught = true
          · rw [if_pos hcaught]
            refine ⟨rfl, seen ++ [entry.id], hsplit', h.next hnew ⟨hfile, hlog⟩ (.inr rfl)
              fun e he hid => ⟨fun hin => by simp at hin, fun _ => ?_⟩⟩
            rw [hsame e he hid]
            exact hlost err rfl
          · rw [if_neg hcaught]
            exact ⟨trivial, hfile.trans h.same⟩
        · refine ⟨rfl, seen ++ [entry.id], hsplit', h.next hnew ⟨hfile, hlog⟩ (.inl rfl)
            fun e he hid => ⟨fun _ => ?_, fun hout => (hout hin).elim⟩⟩
          rw [hsame e he hid]
          exact hok rfl
  · rintro st' s' t' ⟨rfl, seen, hsplit, h⟩
    rw [append_nil] at hsplit
    subst hsplit
    have hmem : ∀ key, key ∈ keys ↔ key ∈ st.complete ∧ key ∉ scan.yielded := by
      intro key
      rw [hkeys, mem_sortedKeys, mem_filter]
      simp
    refine ⟨rfl, h.same, h.grown, h.sub, fun key hkey => ?_, fun e he hin hnot => ?_,
      fun e he hin hout => ?_⟩
    · exact h.kept key (hyields key hkey) fun hin => ((hmem key).mp hin).2 hkey
    · exact (h.found e he ((hmem e.id).mpr ⟨h.sub hin, hnot⟩)).1 hin
    · refine (h.found e he ((hmem e.id).mpr ⟨hin, fun hyield => hout ?_⟩)).2 hout
      exact h.kept e.id hin fun hmem' => ((hmem e.id).mp hmem').2 hyield

/-- A save changes nothing about what was verified. -/
private theorem Verified.save {scan : Scan} {st st' : Restoration} {t t' : Trace}
    (h : Verified inventory file scan st st' t) {journal : Journal} {answer : Except Failure Unit}
    (hlog : t'.log = t.log ++ [⟨.save journal, answer⟩]) :
    Verified inventory file scan st st' t' where
  sub := h.sub
  yields := h.yields
  checked e he hin hnot := hlog ▸ (h.checked e he hin hnot).save journal answer
  astray e he hin hout := by
    have hlost := h.astray e he hin hout
    unfold Astray at hlost ⊢
    rwa [hlog, readings_append, show readings [⟨.save journal, answer⟩] e.id = [] from rfl,
      append_nil]

/-- The start of the restoring loop. -/
private theorem loopFacts_start {scan : Scan} {t : Trace}
    (hkept : t.file.baselines = file.baselines)
    (hknown : ∀ key ∈ scan.restore.map Prod.fst, (inventory.get? key).isSome)
    (hgiven : ∀ key ∈ scan.yielded, ∃ e ∈ file.entries, e.id = key ∧
      Yielded inventory file t.log e)
    (hfresh : ∀ key ∈ scan.restore.map Prod.fst, Untroubled t.log key) :
    LoopFacts inventory file scan [] (scan.start inventory file) t where
  kept := hkept
  known := hknown
  given := hgiven
  inherited := List.Subset.refl _
  yields _ hkey := mem_dedup.mpr hkey
  within _ hkey := .inl (mem_dedup.mp hkey)
  settled _ _ hvisit := by cases hvisit
  completed _ _ hdone hnot := absurd (mem_dedup.mp hdone) hnot
  flagged key hkey hfirmware := any_eq_true.mpr ⟨key, hkey, by simp [hfirmware]⟩
  barred hfailed := ⟨hfailed, fun _ hkey => mem_dedup.mp hkey⟩
  fresh key hkey _ := hfresh key hkey
  released _ hdone hnot := absurd (mem_dedup.mp hdone) hnot

/-- The rule of a whole reset, on the log: what holds of every write that it may issue, and what
holds at its end, if it comes to its final save. -/
theorem wp_reset_logged {Q : Except Failure ResetReport → Journal → Trace → Prop}
    (hplain : inventory.PlainSelectors) (hnodup : file.ids.Nodup)
    (hpassive : ∀ t s op, Request.target op = none → G t s op)
    (hwrite : ∀ scan held visited st t key value, LoopFacts inventory file scan visited st t →
      key ∉ visited → scan.restore.lookup key = some value →
      Turn inventory scan.restore visited key → st.Admits inventory key value →
      ∀ t' op, t.Restoring t' key value → Request.Puts key value op → G t' held op)
    (hearly : ∀ err mem t, mem.baselines = file.baselines → t.file.baselines = file.baselines →
      Q (.error err) mem t)
    (hfinal : ∀ scan visited st st' t t' mem x,
      visited.Perm (scan.restore.map Prod.fst) → LoopFacts inventory file scan visited st t →
      Verified inventory file scan st st' t' → (∃ more, t'.log = t.log ++ more) →
      (∀ kv ∈ scan.restore, ∃ e ∈ file.entries, e.id = kv.1 ∧ e.before = kv.2) →
      mem = (file.update (scan.restore.map Prod.fst) Entry.markPending).without
        (st'.dropped inventory file (scan.restore.map Prod.fst)) →
      (t'.file = mem ∨ t'.file.baselines = file.baselines) → Q x mem t') :
    wp observed G (reset inventory) Q file ⟨file, []⟩ := by
  have hread : ∀ s t id, G t s (.read id) := fun s t id => hpassive t s (.read id) rfl
  unfold reset resetCore
  simp only [wp_bind, wp_get, outcome_ok]
  refine wp_mono (Act.wp_and (wp_scan_observed hnodup) (wp_scan_reads hnodup (hread file))) ?_
  rintro (err | scan) s' t ⟨⟨rfl, hfile, hsorts⟩, hquiet⟩
  · exact hearly err s' t rfl (by rw [hfile])
  have hsorts := hsorts scan rfl
  have hquiet := hquiet scan rfl
  rw [outcome_ok]
  unfold restoreScanned
  set y := yieldDomains inventory s' scan with hy
  set keys := y.restore.map Prod.fst with hkeys
  set held := s'.update keys Entry.markPending with hheld
  have hbase : held.baselines = s'.baselines :=
    Journal.baselines_update s' _ fun _ => ⟨rfl, rfl⟩
  have hentries : ∀ kv ∈ y.restore, ∃ e ∈ s'.entries, e.id = kv.1 ∧ e.before = kv.2 := by
    intro kv hkv
    obtain ⟨e, he, hid, hbefore, -⟩ := hsorts.restore kv (restore_yieldDomains_subset hkv)
    exact ⟨e, he, hid, hbefore⟩
  have hunique : keys.Nodup := (order_yieldDomains hsorts.order).nodup hnodup
  have hknown : ∀ key ∈ keys, (inventory.get? key).isSome := by
    intro key hkey
    obtain ⟨kv, hkv, rfl⟩ := mem_map.mp hkey
    obtain ⟨e, -, hid, -, hsome⟩ := hsorts.restore kv (restore_yieldDomains_subset hkv)
    rwa [← hid]
  have hstart : LoopFacts inventory s' y [] (y.start inventory s') t := by
    refine loopFacts_start (by rw [hfile]) hknown
      (fun key => yielded_of_sorts hsorts fun k hk => (hquiet k hk).2) fun key hkey => ?_
    obtain ⟨kv, hkv, rfl⟩ := mem_map.mp hkey
    exact (hquiet kv.1 (mem_map_of_mem (restore_yieldDomains_subset hkv))).1
  -- The loops and the final save, once the intent is saved.
  have hloops : ∀ t, LoopFacts inventory s' y [] (y.start inventory s') t →
      wp observed G (do
        let st ← ordered inventory y.restore (y.start inventory s') (restoreOne inventory)
        let st ← Act.fold (verifyOne inventory s') st
          (sortedKeys (st.complete.filter fun key => key ∉ y.yielded))
        let failed := keys.filter fun key => key ∉ st.complete
        let retained := retainedKeys inventory s' keys failed
        let complete := st.complete.filter fun key => key ∉ retained
        Act.modify (·.without complete)
        let j ← Act.get
        saveJournal j
        pure (⟨complete, y.yielded, st.failures⟩ : ResetOutcome))
        (fun x s t => outcome (fun done => wp observed G (if done.failures = [] then
            pure ⟨done.complete.length - done.yielded.dedup.length, sortedKeys done.yielded⟩
          else Act.raise (tuningError
            ("restoration incomplete; journal retained: " ++ join "; " done.failures))) Q)
          (fun e => Q (.error e)) x s t) held t := by
    intro t hstart
    rw [wp_bind]
    refine wp_mono (wp_restoringLoop hplain hentries hnodup hunique hknown hstart
      (fun t id => hread held t id)
      fun visited st t key value => hwrite y held visited st t key value) ?_
    rintro (err | st) s'' t₁ h
    · obtain ⟨rfl, hkept⟩ := h
      exact hearly err held t₁ hbase hkept
    obtain ⟨rfl, visited, hperm, hfacts⟩ := h
    rw [outcome_ok, wp_bind]
    refine wp_mono (wp_verify_observed hnodup hfacts.completed hfacts.yields
      fun t id => hread held t id) ?_
    rintro (err | st') s'' t₂ h
    · obtain ⟨rfl, hsame⟩ := h
      exact hearly err held t₂ hbase (by rw [hsame]; exact hfacts.kept)
    obtain ⟨rfl, hsame, ⟨more, hmore, -⟩, hverified⟩ := h
    simp only [outcome_ok, wp_bind, wp_modify, wp_get, wp_saveJournal]
    refine ⟨hpassive _ _ _ rfl, fun answer t₃ h => ?_⟩
    obtain ⟨hcases, hlog⟩ := h
    have hend : ∀ x, Q x (held.without (st'.dropped inventory s' keys)) t₃ := by
      refine fun x => hfinal y visited st st' t₁ t₃ _ x hperm hfacts (hverified.save hlog)
        ⟨more ++ _, by rw [hlog, hmore, append_assoc]⟩ hentries rfl ?_
      rcases hcases with hnew | ⟨-, hold⟩
      · exact .inl hnew
      · exact .inr (by rw [hold, hsame]; exact hfacts.kept)
    cases answer with
    | error err => exact hend (.error err)
    | ok _ =>
      simp only [outcome_ok, wp_pure]
      split
      · exact hend _
      · exact hend _
  rw [wp_bind, wp_modify, outcome_ok, wp_bind, wp_when]
  refine ⟨fun _ => ?_, fun _ => hloops t hstart⟩
  rw [wp_saveJournal]
  refine ⟨hpassive _ _ _ rfl, fun answer t₁ h => ?_⟩
  obtain ⟨hcases, hlog⟩ := h
  have hkept : t₁.file.baselines = s'.baselines := by
    rcases hcases with hnew | ⟨-, hold⟩
    · rw [hnew, hbase]
    · rw [hold, hfile]
  cases answer with
  | error err => exact hearly err held t₁ hbase hkept
  | ok _ =>
    exact hloops t₁ (hstart.grow hkept hlog fun key hkey hnot =>
      hlog ▸ (hstart.fresh key hkey hnot).save _ _)

end Pass

/-! ### A deterministic instance -/

/-- What operations return when the controls read some values and nothing else fails. -/
def Request.answer (values : String → Except Failure Value) :
    (op : Request) → Except Failure op.Reply
  | .read key => values key
  | .write _ _ | .restoreValue _ _ | .save _ | .checkOwnership _ => .ok ()
  | .writeMaximum _ | .temperature => .ok none

/-- Controls whose readings are determined by what has happened to them. -/
def Trace.respond (values : List Exchange → String → Except Failure Value) (t : Trace)
    (_ : Journal) (op : Request) : Except Failure op.Reply × Trace :=
  (op.answer (values t.log),
    ⟨match op with | .save journal => journal | _ => t.file,
      t.log ++ [⟨op, op.answer (values t.log)⟩]⟩)

theorem Trace.respond_observed (values : List Exchange → String → Except Failure Value) (t : Trace)
    (mem : Journal) (op : Request) :
    observed t mem op (t.respond values mem op).1 (t.respond values mem op).2 := by
  refine ⟨?_, rfl⟩
  cases op with
  | save journal => exact .inl rfl
  | read | write | writeMaximum | restoreValue | temperature | checkOwnership => rfl

/-- A reset of a journal with such controls. -/
def resetWith (values : List Exchange → String → Except Failure Value) (inventory : Inventory)
    (file : Journal) : Trace × Program Hardware Journal (Except Failure ResetReport × Journal) :=
  Program.runFor (Trace.respond values) 100 ⟨file, []⟩ (reset inventory file)

theorem resetWith_steps (values : List Exchange → String → Except Failure Value)
    (inventory : Inventory) (file : Journal) :
    Program.Steps observed ⟨file, []⟩ (reset inventory file) (resetWith values inventory file).1
      (resetWith values inventory file).2 :=
  .of_runFor (fun t mem op => t.respond_observed values mem op) _ _ _

end Preseed.HardwareTuning
