import Preseed.ManagedNetwork.RoundTrip

/-!
# Texts that end inside a quoted value

Where a byte of an environment stands is decided without reading any value. A text that
ends inside a quoted value is refused.
-/

namespace Preseed.ManagedNetwork

open List hiding next after

/-- Where a byte of an environment stands. -/
inductive Place
  /-- Only blanks before it in the line. -/
  | start
  | comment
  | key
  /-- After `=`, and blanks. -/
  | value
  /-- In a value that is not quoted. -/
  | plain
  /-- Inside single quotes. -/
  | quoted
  /-- After a closing quote, or an escaped one. -/
  | closed
  /-- After a backslash that follows a closing quote. -/
  | escape
  /-- After a quoted value and a blank. -/
  | after
  deriving DecidableEq

namespace Place

/-- Where the next byte stands. -/
def next : Place → Char → Place
  | quoted, c => if c = '\'' then closed else quoted
  | p, c =>
    if c = '\n' then start
    else match p with
      | start => if isSpace c then start else if c = '#' then comment else key
      | key => if c = '=' then value else key
      | value => if isSpace c then value else if c = '\'' then quoted else plain
      | closed =>
        if c = '\'' then quoted else if c = '\\' then escape
        else if isSpace c then after else plain
      | escape => if c = '\'' then closed else plain
      | after =>
        if isSpace c then after else if c = '\'' then quoted
        else if c = '#' then comment else plain
      | comment => comment
      | _ => plain

/-- Where the end of a text stands. -/
def scan (p : Place) (text : Text) : Place := text.foldl next p

/-- A text has no newline outside of quotes. -/
def Calm : Place → Text → Prop
  | _, [] => True
  | p, c :: rest => (c = '\n' → p = quoted) ∧ Calm (p.next c) rest

variable {p : Place} {x y text : Text}

theorem scan_append : scan p (x ++ y) = scan (scan p x) y := foldl_append

theorem calm_append : Calm p (x ++ y) ↔ Calm p x ∧ Calm (scan p x) y := by
  induction x generalizing p with
  | nil => simp [Calm, scan]
  | cons c x ih =>
    rw [cons_append, Calm, Calm, ih, and_assoc]
    rfl

/-- A line is calm. -/
theorem calm_of_line (h : '\n' ∉ text) : Calm p text := by
  induction text generalizing p with
  | nil => trivial
  | cons c text ih =>
    rw [mem_cons, not_or] at h
    exact ⟨fun hc => absurd hc.symm h.1, ih h.2⟩

/-- A place outside of quotes that its bytes do not leave. -/
theorem scan_stays (hp : p ≠ quoted) (hcalm : Calm p text)
    (hstay : ∀ c ∈ text, c ≠ '\n' → p.next c = p) : scan p text = p := by
  induction text with
  | nil => rfl
  | cons c text ih =>
    have hc : c ≠ '\n' := fun hc => hp (hcalm.1 hc)
    have hnext := hstay c mem_cons_self hc
    have hrest := hcalm.2
    rw [hnext] at hrest
    rw [scan, foldl_cons, hnext]
    exact ih hrest fun d hd => hstay d (mem_cons_of_mem _ hd)

/-- A blank neither opens nor closes a quote. -/
theorem next_blank {c : Char} (hc : isSpace c = true) : p.next c = quoted ↔ p = quoted := by
  have hquote : c ≠ '\'' := by
    rintro rfl
    exact absurd hc (by decide)
  cases p with
  | quoted => simp [next, hquote]
  | start | comment | key | value | plain | closed | escape | after =>
    simp only [next, hquote, hc, if_true, if_false, reduceCtorEq, iff_false]
    split
    · exact fun h => by cases h
    · first
      | exact fun h => by cases h
      | split <;> exact fun h => by cases h

theorem scan_blank (h : ∀ c ∈ text, isSpace c = true) : scan p text = quoted ↔ p = quoted := by
  induction text generalizing p with
  | nil => rfl
  | cons c text ih =>
    rw [scan, foldl_cons]
    exact (ih fun d hd => h d (mem_cons_of_mem _ hd)).trans
      (next_blank (h c mem_cons_self))

/-- Nothing is quoted in what follows a quoted value. -/
theorem scan_after (hcalm : Calm after text) (h : isComment text = true) :
    scan after text ≠ quoted := by
  induction text with
  | nil => exact fun h => by cases h
  | cons c text ih =>
    have hc : c ≠ '\n' := fun hc => by cases hcalm.1 hc
    by_cases hspace : isSpace c = true
    · have hnext : after.next c = after := by simp [next, hc, hspace]
      have hrest := hcalm.2
      rw [hnext] at hrest
      rw [scan, foldl_cons, hnext]
      exact ih hrest (by simpa [isComment, hspace] using h)
    · have hhash : c = '#' := by simpa [isComment, hspace] using h
      subst hhash
      have hrest : Calm comment text := hcalm.2
      have hstay := scan_stays (by decide) hrest fun d _ hd => by simp [next, hd]
      rw [scan, foldl_cons]
      change scan comment text ≠ quoted
      rw [hstay]
      decide

end Place

open Place

/-- A quoted value is complete outside of quotes, and unterminated inside. -/
theorem scan_of_parseQuoted {inside : Bool} {out text : Text}
    (hcalm : Calm (if inside then quoted else closed) text) :
    match parseQuoted inside out text with
    | .ok _ => scan (if inside then quoted else closed) text ≠ quoted
    | .error .unterminated => scan (if inside then quoted else closed) text = quoted
    | .error (.unsupported _) => True := by
  fun_induction parseQuoted inside out text with
  | case1 => rfl
  | case2 out rest ih => exact ih hcalm.2
  | case3 out c rest hc ih =>
    have hnext : quoted.next c = quoted := by simp [next, hc]
    have hrest := hcalm.2
    rw [if_pos rfl, hnext] at hrest
    simpa only [scan, foldl_cons, hnext, if_true] using ih hrest
  | case4 => exact fun h => by cases h
  | case5 out rest ih => exact ih hcalm.2
  | case6 out rest ih => exact ih hcalm.2.2
  | case7 out c rest _ _ hend =>
    obtain ⟨hspace, hcomment⟩ := hend
    have hc : c ≠ '\n' := fun hc => by cases hcalm.1 hc
    have hnext : closed.next c = after := by
      have hquote : c ≠ '\'' := by
        rintro rfl
        exact absurd hspace (by decide)
      have hslash : c ≠ '\\' := by
        rintro rfl
        exact absurd hspace (by decide)
      simp [next, hc, hquote, hslash, hspace]
    have hrest := hcalm.2
    change Calm (closed.next c) rest at hrest
    rw [hnext] at hrest
    change scan (closed.next c) rest ≠ quoted
    rw [hnext]
    exact scan_after hrest hcomment
  | case8 => trivial

/-- Trimming takes blanks off. -/
theorem trim_spec (raw : Text) : ∃ lead trail, raw = lead ++ (trim raw ++ trail) ∧
    (∀ c ∈ lead, isSpace c = true) ∧ ∀ c ∈ trail, isSpace c = true := by
  refine ⟨raw.takeWhile isSpace, ((raw.dropWhile isSpace).reverse.takeWhile isSpace).reverse,
    ?_, fun c => mem_takeWhile_imp, fun c hc => ?_⟩
  · rw [trim, List.rdropWhile, ← reverse_append, takeWhile_append_dropWhile,
      reverse_reverse, takeWhile_append_dropWhile]
  · exact mem_takeWhile_imp (mem_reverse.mp hc)

/-- Trimmed text does not start with a blank. -/
theorem head_trim {raw : Text} {c : Char} (h : (trim raw).head? = some c) : isSpace c = false := by
  obtain ⟨rest, hrest⟩ := head?_eq_some_iff.mp h
  obtain ⟨tail, htail⟩ : trim raw <+: raw.dropWhile isSpace := rdropWhile_prefix _ _
  have hhead : (raw.dropWhile isSpace).head? = some c := by
    rw [← htail, hrest]
    rfl
  simpa [hhead] using head?_dropWhile_not isSpace raw

/-- A value is complete outside of quotes, and unterminated inside. -/
theorem scan_of_parseShellValue {raw : Text} (hcalm : Calm value raw) :
    match parseShellValue raw with
    | .ok _ => scan value raw ≠ quoted
    | .error .unterminated => scan value raw = quoted
    | .error (.unsupported _) => True := by
  obtain ⟨lead, trail, hraw, hlead, htrail⟩ := trim_spec raw
  have hstart : Calm value lead ∧ Calm value (trim raw) := by
    rw [hraw, calm_append, calm_append] at hcalm
    have hvalue : scan value lead = value :=
      scan_stays (by decide) hcalm.1 fun c hc hn => by simp [next, hn, hlead c hc]
    exact ⟨hcalm.1, hvalue ▸ hcalm.2.1⟩
  have hscan : scan value raw = quoted ↔ scan value (trim raw) = quoted := by
    have hvalue : scan value lead = value :=
      scan_stays (by decide) hstart.1 fun c hc hn => by simp [next, hn, hlead c hc]
    conv_lhs => rw [hraw]
    rw [scan_append, hvalue, scan_append, scan_blank htrail]
  simp only [ne_eq, hscan]
  have hcalm := hstart.2
  by_cases hquote : (trim raw).head? = some '\''
  · have hparse : parseShellValue raw = parseQuoted false [] (trim raw) := if_pos hquote
    rw [hparse]
    obtain ⟨rest, hrest⟩ := head?_eq_some_iff.mp hquote
    rw [hrest] at hcalm ⊢
    exact @scan_of_parseQuoted true [] rest hcalm.2
  · have hparse : parseShellValue raw = .ok (trim (stripComment (trim raw))) := if_neg hquote
    rw [hparse]
    cases htext : trim raw with
    | nil => exact fun h => by cases h
    | cons c rest =>
      rw [htext] at hcalm hquote
      have hc : c ≠ '\n' := fun hc => by cases hcalm.1 hc
      have hne : c ≠ '\'' := fun hc => hquote (by rw [hc]; rfl)
      have hnext : value.next c = plain := by
        simp [next, hc, hne, head_trim (htext ▸ rfl : (trim raw).head? = some c)]
      have hrest := hcalm.2
      rw [hnext] at hrest
      have hstay : scan plain rest = plain :=
        scan_stays (by decide) hrest fun d _ hd => by simp [next, hd]
      have hplain : scan value (c :: rest) = plain := by
        rw [scan, foldl_cons, hnext]
        exact hstay
      exact fun h => by cases hplain.symm.trans h

/-! ### Lines -/

/-- An assignment is a key, `=` and a value. -/
theorem splitAssignment_eq_some {text key raw : Text}
    (h : splitAssignment text = some (key, raw)) : IsKey key ∧ text = key ++ '=' :: raw := by
  unfold splitAssignment at h
  dsimp only at h
  split at h
  case h_2 => cases h
  rename_i value hvalue
  split at h
  case isFalse => cases h
  rename_i hstart
  cases h
  refine ⟨⟨hstart, all_eq_true.mpr fun c => mem_takeWhile_imp⟩, ?_⟩
  rw [← hvalue, takeWhile_append_dropWhile]

/-- The value of an assignment stands after its key. -/
theorem scan_assignment {key raw : Text} (h : IsKey key) :
    scan start (key ++ '=' :: raw) = scan value raw := by
  have hkey : ∀ keyBytes : Text, (∀ c ∈ keyBytes, isKeyByte c = true) →
      scan Place.key keyBytes = Place.key := by
    intro keyBytes hbytes
    refine scan_stays (by decide) (calm_of_line fun hmem => ?_) fun c hc hn => ?_
    · exact absurd (hbytes _ hmem) (by decide)
    · have hne : c ≠ '=' := by
        rintro rfl
        exact absurd (hbytes _ hc) (by decide)
      simp [next, hn, hne]
  obtain ⟨c, cs, rfl⟩ := exists_cons_of_ne_nil h.ne_nil
  have hbytes := all_eq_true.mp h.2
  have hspace := not_isSpace_of_isKeyByte (hbytes c mem_cons_self)
  have hfirst : start.next c = Place.key := by
    have hn : c ≠ '\n' := by
      rintro rfl
      exact absurd hspace (by decide)
    have hhash : c ≠ '#' := by
      rintro rfl
      exact absurd (hbytes _ mem_cons_self) (by decide)
    simp [next, hn, hspace, hhash]
  have hend : scan start (c :: cs) = Place.key := by
    rw [scan, foldl_cons, hfirst]
    exact hkey cs fun d hd => hbytes d (mem_cons_of_mem _ hd)
  rw [scan_append, hend]
  rfl

/-- A comment has nothing quoted. -/
theorem scan_comment {line : Text} (hline : '\n' ∉ line) (h : isComment line = true) :
    scan start line ≠ quoted := by
  induction line with
  | nil => exact fun h => by cases h
  | cons c line ih =>
    rw [mem_cons, not_or] at hline
    by_cases hspace : isSpace c = true
    · have hnext : start.next c = start := by simp [next, hspace]
      rw [scan, foldl_cons, hnext]
      exact ih hline.2 (by simpa [isComment, hspace] using h)
    · have hhash : c = '#' := by simpa [isComment, hspace] using h
      subst hhash
      have hstay : scan comment line = comment :=
        scan_stays (by decide) (calm_of_line hline.2) fun d _ hd => by simp [next, hd]
      change scan comment line ≠ quoted
      rw [hstay]
      decide

/-- Where the reader is, at the start of a line. -/
def Reading.Follows (r : Reading) (p : Place) : Prop :=
  if r.current = [] then p = start
  else p = quoted ∧ ∃ key raw, splitAssignment r.current = some (key, raw) ∧ Calm value raw ∧
    scan value raw = quoted

theorem next_newline : ∀ q : Place, q ≠ quoted → q.next '\n' = start := by
  intro q hq
  cases q <;> first | rfl | exact absurd rfl hq

/-- What the joined statement says about the end of a line. -/
theorem follows_joined {path : String} {r r' : Reading} {line : Text} : ∀ current key raw, splitAssignment current = some (key, raw) → Calm value raw →
    scan p line = scan value raw → (match (motive := Except ShellError Text →
        Except String Reading) parseShellValue raw with
      | .ok _ => .ok ⟨if current.all isSpace then r.statements
          else r.statements ++ [current], []⟩
      | .error .unterminated => .ok ⟨r.statements, current⟩
      | .error e => .error ("invalid shell value in " ++ path ++ ": " ++ e.message)) = .ok r' →
    (r'.current = [] → scan p line ≠ quoted) ∧ r'.Follows ((scan p line).next '\n') := by
  intro current key raw hsplit hcalm hscan hresult
  have hend := scan_of_parseShellValue hcalm
  rw [hscan]
  split at hresult
  · rename_i hvalue
    rw [hvalue] at hend
    cases hresult
    exact ⟨fun _ => hend, by rw [Reading.Follows, if_pos rfl, next_newline _ hend]⟩
  · rename_i hvalue
    rw [hvalue] at hend
    cases hresult
    have hne : current ≠ [] := by
      rintro rfl
      cases hsplit
    refine ⟨fun hnil => absurd hnil hne, ?_⟩
    rw [Reading.Follows, if_neg hne, hend]
    exact ⟨rfl, key, raw, hsplit, hcalm, hend⟩
  · cases hresult

/-- A line that is read ends inside quotes exactly when its statement goes on. -/
theorem readLine_follows {path : String} {r r' : Reading} {p : Place} {line : Text}
    (hr : r.Follows p) (hline : '\n' ∉ line) (h : readLine path r line = .ok r') :
    (r'.current = [] → scan p line ≠ quoted) ∧ r'.Follows ((scan p line).next '\n') := by
  unfold readLine at h
  unfold Reading.Follows at hr
  by_cases hcurrent : r.current = []
  · rw [if_pos hcurrent] at hr
    subst hr
    by_cases hcomment : isComment line = true
    · rw [if_pos ⟨hcurrent, hcomment⟩] at h
      cases h
      have hend := scan_comment hline hcomment
      exact ⟨fun _ => hend, by rw [Reading.Follows, if_pos hcurrent, next_newline _ hend]⟩
    · rw [if_neg (fun hboth => hcomment hboth.2)] at h
      dsimp only at h
      rw [if_pos hcurrent] at h
      cases hsplit : splitAssignment line with
      | none =>
        rw [hsplit] at h
        cases h
      | some assignment =>
        obtain ⟨key, raw⟩ := assignment
        rw [hsplit] at h
        obtain ⟨hkey, rfl⟩ := splitAssignment_eq_some hsplit
        have hraw : '\n' ∉ raw := fun hmem =>
          hline (mem_append_right _ (mem_cons_of_mem _ hmem))
        exact follows_joined _ key raw hsplit (calm_of_line hraw) (scan_assignment hkey) h
  · rw [if_neg hcurrent] at hr
    obtain ⟨rfl, key, raw, hsplit, hcalm, hscan⟩ := hr
    rw [if_neg (fun hboth => hcurrent hboth.1)] at h
    dsimp only at h
    obtain ⟨hkey, htext⟩ := splitAssignment_eq_some hsplit
    have hsplit' : splitAssignment (r.current ++ '\n' :: line) =
        some (key, raw ++ '\n' :: line) := by
      rw [htext, append_assoc, cons_append, splitAssignment_append hkey]
    rw [if_neg hcurrent, hsplit'] at h
    refine follows_joined _ key _ hsplit' (calm_append.mpr ⟨hcalm, ?_⟩) ?_ h
    · rw [hscan]
      exact ⟨fun _ => rfl, calm_of_line hline⟩
    · rw [scan_append, hscan]
      rfl

/-- A text that is read to its end does not end inside a quoted value. -/
theorem foldlM_readLine_follows {path : String} {r r' : Reading} {p : Place} {text : Text}
    (hr : r.Follows p) (h : (text.splitOn '\n').foldlM (readLine path) r = .ok r')
    (hend : r'.current = []) : scan p text ≠ quoted := by
  induction hn : text.length using Nat.strong_induction_on generalizing r p text with
  | _ n ih =>
    by_cases hmem : '\n' ∈ text
    · obtain ⟨line, rest, rfl, hline⟩ := eq_append_cons_of_mem hmem
      rw [splitOn_append_cons_self_of_not_mem hline, foldlM_cons] at h
      cases hread : readLine path r line with
      | error e =>
        rw [hread] at h
        cases h
      | ok r₁ =>
        rw [hread] at h
        have hlength : rest.length < n := by
          rw [← hn, length_append, length_cons]
          omega
        rw [scan_append]
        change scan ((scan p line).next '\n') rest ≠ quoted
        exact ih _ hlength (readLine_follows hr hline hread).2 h rfl
    · rw [splitOn_eq_singleton hmem, foldlM_cons] at h
      cases hread : readLine path r text with
      | error e =>
        rw [hread] at h
        cases h
      | ok r₁ =>
        rw [hread] at h
        cases h
        exact (readLine_follows hr hmem hread).1 hend

/-- A text that ends inside a quoted value is refused. -/
theorem readInputEnv_open {text : Text} (h : scan start text = quoted) (path : String)
    (cfg : Config) : ∃ e, readInputEnv path cfg text = .error e := by
  unfold readInputEnv
  by_cases hsize : 65536 < text.length
  · exact ⟨_, by rw [if_pos hsize]; rfl⟩
  rw [if_neg hsize]
  cases hread : (text.splitOn '\n').foldlM (readLine path) ⟨[], []⟩ with
  | error e => exact ⟨e, rfl⟩
  | ok r =>
    have hcurrent : r.current ≠ [] := fun hnil =>
      foldlM_readLine_follows (by rfl) hread hnil h
    refine ⟨"unterminated quoted assignment in " ++ path, ?_⟩
    dsimp only [bind, Except.bind]
    rw [if_pos hcurrent]

/-! ### The round trip -/

/-- The environment of supported keys and plain values is read back, unless it is too large, and
no text that ends inside a quoted value is read. -/
theorem managed_environment (path : String) (cfg : Config) :
    (∀ entries : List (Text × Text), (∀ entry ∈ entries, entry.1 ∈ supportedKeys) →
      (∀ entry ∈ entries, ∀ c ∈ entry.2, isRejected c = false) →
      ∃ text, (entries.mapM fun entry => shellAssignment entry.1 entry.2).map List.flatten =
          .ok text ∧
        if text.length ≤ 65536 then
          ∃ cfg', readInputEnv path cfg text = .ok cfg' ∧ ∀ key, cfg' key =
            ((entries.reverse.find? fun entry => entry.1 = key).map Prod.snd).getD (cfg key)
        else readInputEnv path cfg text = .error ("input env is too large: " ++ path)) ∧
      ∀ text, scan start text = quoted → ∃ e, readInputEnv path cfg text = .error e := by
  refine ⟨fun entries hkeys hplain => ⟨environment entries, mapM_shellAssignment fun entry hentry =>
    isKey_of_supported (hkeys entry hentry), ?_⟩, fun text h => readInputEnv_open h path cfg⟩
  split
  case isTrue hsize =>
    exact ⟨_, readInputEnv_environment hkeys hplain hsize cfg, foldl_update_apply entries cfg⟩
  case isFalse hsize =>
    unfold readInputEnv
    rw [if_pos (by omega)]
    rfl

/-- A value is shorter than its environment. -/
theorem length_le_environment {entries : List (Text × Text)} {entry : Text × Text}
    (h : entry ∈ entries) : entry.2.length < (environment entries).length := by
  have hescape : entry.2.length ≤ (escapeQuotes entry.2).length := by
    induction entry.2 with
    | nil => exact Nat.zero_le _
    | cons c value ih =>
      rw [escapeQuotes, flatMap_cons, length_append, length_cons]
      split <;> simp only [length_cons, length_nil] <;>
        (change value.length ≤ (value.flatMap _).length at ih; omega)
  have hmem : (statement entry.1 entry.2 ++ ['\n']).length ≤ (environment entries).length := by
    rw [environment, flatMap_def]
    have hline := mem_map_of_mem (f := fun e : Text × Text => statement e.1 e.2 ++ ['\n']) h
    exact (sublist_flatten_of_mem hline).length_le
  simp only [statement, shellQuote, length_append, length_cons, length_nil] at hmem
  omega

/-- A value that fills the file is not read back. -/
theorem large_environment_refused :
    ¬ ∀ (path : String) (cfg : Config) (entries : List (Text × Text)),
      (∀ entry ∈ entries, entry.1 ∈ supportedKeys) →
      (∀ entry ∈ entries, ∀ c ∈ entry.2, isRejected c = false) →
      ∃ cfg', readInputEnv path cfg (environment entries) = .ok cfg' := by
  intro h
  have hplain : ∀ c ∈ List.replicate 65536 'a', isRejected c = false := by
    intro c hc
    rw [List.eq_of_mem_replicate hc]
    decide
  obtain ⟨cfg', hread⟩ := h "" (fun _ => [])
    [("MANAGED_NETWORK_WIFI_ESSID".toList, List.replicate 65536 'a')]
    (by simpa only [List.mem_singleton, forall_eq] using List.mem_of_getElem? (i := 27) rfl)
    (by simpa only [List.mem_singleton, forall_eq] using hplain)
  have hsize : 65536 < (environment
      [("MANAGED_NETWORK_WIFI_ESSID".toList, List.replicate 65536 'a')]).length := by
    have hvalue := length_le_environment (List.mem_singleton.mpr rfl :
      ("MANAGED_NETWORK_WIFI_ESSID".toList, List.replicate 65536 'a') ∈
        [("MANAGED_NETWORK_WIFI_ESSID".toList, List.replicate 65536 'a')])
    rw [List.length_replicate] at hvalue
    omega
  unfold readInputEnv at hread
  rw [if_pos hsize] at hread
  cases hread

end Preseed.ManagedNetwork
