import Preseed.DesktopFirewall.RuleTexts

/-!
# The state file is read back

The rows of accepted rules are read back as these rules. With it, an exact condition for the
texts that are written for a list of accepted rules to say what the rules say.
-/

namespace Preseed.DesktopFirewall

open List

open Ipaddress (Text decimal Network)

/-! ## Characters -/

theorem isDigit_of_isdigit {c : Char} (h : isdigit c = true) (hascii : c.toNat < 128) :
    c.isDigit = true := by
  have hranges : ∀ range ∈ digitRanges, range = (48, 57) ∨ 128 ≤ range.1 := by decide
  obtain ⟨⟨first, last⟩, hmem, hin⟩ := any_eq_true.mp h
  simp only [Bool.and_eq_true, decide_eq_true_iff] at hin
  rcases hranges _ hmem with heq | hbeyond
  · obtain ⟨rfl, rfl⟩ := Prod.mk.inj heq
    rw [Char.isDigit, Bool.and_eq_true, decide_eq_true_iff, decide_eq_true_iff]
    exact ⟨UInt32.le_iff_toNat_le.mpr hin.1, UInt32.le_iff_toNat_le.mpr hin.2⟩
  · omega

theorem isAlphanum_iff (c : Char) : c.isAlphanum = true ↔
    ((65 ≤ c.toNat ∧ c.toNat ≤ 90) ∨ (97 ≤ c.toNat ∧ c.toNat ≤ 122)) ∨
      (48 ≤ c.toNat ∧ c.toNat ≤ 57) := by
  simp only [Char.isAlphanum, Char.isAlpha, Char.isUpper, Char.isLower, Char.isDigit,
    Bool.or_eq_true, Bool.and_eq_true, decide_eq_true_eq, UInt32.le_iff_toNat_le, ge_iff_le]
  exact Iff.rfl

theorem inAlphabet_of_isHexDigit {c : Char} (h : Ipaddress.isHexDigit c = true) :
    inAlphabet c = true := by
  simp only [Ipaddress.isHexDigit, Bool.or_eq_true, Bool.and_eq_true, decide_eq_true_iff] at h
  rcases h with (h | h) | h
  · exact inAlphabet_of_isDigit h
  · have hlower : 97 ≤ c.toNat ∧ c.toNat ≤ 102 :=
      ⟨UInt32.le_iff_toNat_le.mp h.1, UInt32.le_iff_toNat_le.mp h.2⟩
    have halpha := (isAlphanum_iff c).mpr (by omega)
    simp [inAlphabet, halpha]
  · have hupper : 65 ≤ c.toNat ∧ c.toNat ≤ 70 :=
      ⟨UInt32.le_iff_toNat_le.mp h.1, UInt32.le_iff_toNat_le.mp h.2⟩
    have halpha := (isAlphanum_iff c).mpr (by omega)
    simp [inAlphabet, halpha]

theorem ascii_of_inAlphabet {c : Char} (h : inAlphabet c = true) : c.toNat < 128 := by
  have hpunctuation : ("_-.:/{},\"".toList.all fun d => d.toNat < 128) = true := by
    decide
  rw [inAlphabet, Bool.or_eq_true] at h
  rcases h with h | h
  · rw [isAlphanum_iff] at h
    omega
  · exact of_decide_eq_true (all_eq_true.mp hpunctuation c (contains_iff_mem.mp h))

/-- An identifier of ASCII digits has no other characters. -/
theorem ValidId.alphabet {ruleId : Text} (h : ValidId ruleId) (hascii : ∀ c ∈ ruleId, c.toNat < 128) :
    ∀ c ∈ ruleId, inAlphabet c = true := by
  obtain ⟨-, ⟨number, rfl⟩, hdigits⟩ := h
  intro c hc
  rcases mem_append.mp hc with hmem | hmem
  · exact alphabet_of_all (by decide) c hmem
  · have hdrop : ("rule-".toList ++ number).drop 5 = number := rfl
    rw [hdrop, all_eq_true] at hdigits
    exact inAlphabet_of_isDigit (isDigit_of_isdigit (hdigits c hmem) (hascii c hc))

/-- A network without a scope has no other characters. -/
theorem network_alphabet {network : Network} (h : '%' ∉ network.text) :
    ∀ c ∈ network.text, inAlphabet c = true := by
  rw [Network.percent_mem_text, Bool.not_eq_true, Option.isSome_eq_false_iff,
    Option.isNone_iff_eq_none] at h
  obtain ⟨address, prefixlen⟩ := network
  intro c hc
  rw [Network.text, mem_append, mem_cons] at hc
  rcases hc with hc | rfl | hc
  · cases address with
    | v4 ip =>
      rcases Ipaddress.isDigit_or_dot_of_mem_ipv4Text hc with hc | rfl
      · exact inAlphabet_of_isDigit hc
      · decide
    | v6 ip scope =>
      obtain rfl : scope = none := h
      rcases Ipaddress.mem_ipv6Text hc with hc | rfl | rfl
      · exact inAlphabet_of_isHexDigit hc
      · decide
      · decide
  · decide
  · exact inAlphabet_of_isDigit (Ipaddress.isDigit_of_mem_decimal hc)

/-- The rules that are written as they are. -/
structure Rule.Storable (rule : Rule) : Prop extends rule.Accepted where
  ascii : ∀ c ∈ rule.ruleId, c.toNat < 128
  unscoped : '%' ∉ rule.cidr

variable {rule : Rule}

theorem Rule.Storable.clean (h : rule.Storable) : rule.Clean := by
  refine ⟨h.ruleId.alphabet h.ascii, ?_⟩
  by_cases hscope : rule.scope = .ip
  · obtain ⟨network, -, heq⟩ := h.network hscope
    have hunscoped := h.unscoped
    rw [heq] at hunscoped ⊢
    exact network_alphabet hunscoped
  · rw [h.plain hscope]
    exact alphabet_of_all (by decide)

/-! ## Lines -/

/-- A text without line ends. -/
def OneLine (text : Text) : Prop := ∀ c ∈ text, c ≠ '\n' ∧ c ≠ '\r'

theorem oneLine_of_alphabet {text : Text} (h : ∀ c ∈ text, inAlphabet c = true) :
    OneLine text := by
  refine fun c hc => ⟨?_, ?_⟩
  · rintro rfl
    exact absurd (h _ hc) (by decide)
  · rintro rfl
    exact absurd (h _ hc) (by decide)

theorem fileLines_line {line : Text} (h : OneLine line) (rest : Text) :
    fileLines (line ++ '\n' :: rest) = (line ++ ['\n']) :: fileLines rest := by
  induction line with
  | nil => simp [fileLines]
  | cons c line ih =>
    obtain ⟨hend, hreturn⟩ := h c (by simp)
    have htail := ih fun d hd => h d (by simp [hd])
    rw [cons_append, fileLines]
    · simp [hend, hreturn, htail]
    · exact fun _ hc => absurd hc hreturn

/-- The lines of a text of lines. -/
theorem fileLines_intercalate {lines : List Text} (hne : lines ≠ [])
    (h : ∀ line ∈ lines, OneLine line) :
    fileLines (['\n'].intercalate lines ++ ['\n']) = lines.map (· ++ ['\n']) := by
  induction lines with
  | nil => exact absurd rfl hne
  | cons line lines ih =>
    have hline := h line (by simp)
    rcases lines with _ | ⟨next, lines⟩
    · rw [intercalate_singleton, fileLines_line hline]
      rfl
    · have hrest := ih (cons_ne_nil _ _) fun line hmem => h line (by simp [hmem])
      rw [intercalate_cons_cons, append_assoc, append_assoc,
        singleton_append, fileLines_line hline, hrest]
      rfl

theorem stripEnd_line {line : Text} (h : OneLine line) : stripEnd (line ++ ['\n']) = line := by
  unfold stripEnd
  rw [reverse_append, reverse_singleton, singleton_append,
    dropWhile_cons_of_pos (by decide)]
  cases hreverse : line.reverse with
  | nil =>
    obtain rfl := reverse_eq_nil_iff.mp hreverse
    rfl
  | cons c rest =>
    have hc := h c (mem_reverse.mp (by rw [hreverse]; exact mem_cons_self))
    rw [dropWhile_cons_of_neg (by simp [hc]), ← hreverse, reverse_reverse]

/-! ## Rows -/

theorem Rule.Storable.fields (h : rule.Storable) :
    validateRuleFields ⟨rule.direction.text, rule.verdict.text, rule.protocol.text,
      decimal rule.port, rule.scope.text, rule.cidr⟩ = .ok rule.toFields := by
  have hdirection : ∀ direction : Direction, oneOf [.incoming, .outgoing] Direction.text
      direction.text "invalid firewall direction" = .ok direction := by
    intro direction
    cases direction <;> rfl
  have hverdict : ∀ verdict : Verdict, oneOf [.allow, .block] Verdict.text verdict.text
      "invalid firewall verdict" = .ok verdict := by
    intro verdict
    cases verdict <;> rfl
  have hprotocol : ∀ protocol : Protocol, oneOf [.tcp, .udp] Protocol.text protocol.text
      "invalid firewall protocol" = .ok protocol := by
    intro protocol
    cases protocol <;> rfl
  have hscope : ∀ scope : Scope, oneOf [.any, .lan, .ip] Scope.text scope.text
      "invalid firewall scope" = .ok scope := by
    intro scope
    cases scope <;> rfl
  have hport : validatePort (decimal rule.port) = .ok rule.port :=
    validatePort_eq_ok.mpr ⟨Ipaddress.asciiDigits_decimal _, Ipaddress.ofDigits_decimal _, h.port⟩
  obtain ⟨⟨direction, verdict, protocol, port, scope, cidr⟩, ruleId⟩ := rule
  unfold validateRuleFields
  simp only [hdirection, hverdict, hprotocol, hscope, hport, bind, Except.bind]
  cases scope with
  | ip =>
    obtain ⟨network, hnormal, heq⟩ := h.network rfl
    have hunscoped := h.unscoped
    dsimp only at heq hunscoped ⊢
    subst heq
    rw [Network.percent_mem_text, Bool.not_eq_true, Option.isSome_eq_false_iff,
      Option.isNone_iff_eq_none] at hunscoped
    rw [normalizeCidr_text hnormal hunscoped]
    rfl
  | any =>
    have hplain := h.plain (by simp)
    dsimp only at hplain ⊢
    subst hplain
    rfl
  | lan =>
    have hplain := h.plain (by simp)
    dsimp only at hplain ⊢
    subst hplain
    rfl

theorem Rule.Clean.columns (h : rule.Clean) :
    ∀ text ∈ rule.columns, ∀ c ∈ text, inAlphabet c = true := by
  intro text hmem
  simp only [Rule.columns, mem_cons, not_mem_nil, or_false] at hmem
  rcases hmem with rfl | rfl | rfl | rfl | rfl | rfl | rfl
  · exact h.ruleId
  · cases rule.direction <;> exact alphabet_of_all (by decide)
  · cases rule.verdict <;> exact alphabet_of_all (by decide)
  · cases rule.protocol <;> exact alphabet_of_all (by decide)
  · exact fun c hc => inAlphabet_of_isDigit (Ipaddress.isDigit_of_mem_decimal hc)
  · cases rule.scope <;> exact alphabet_of_all (by decide)
  · exact h.cidr

/-- The row of a rule is one line. -/
theorem Rule.Clean.oneLine (h : rule.Clean) : OneLine rule.row := by
  intro c hc
  rcases Ipaddress.mem_intercalate hc with rfl | ⟨text, hmem, hc⟩
  · decide
  · exact oneLine_of_alphabet (h.columns text hmem) c hc

/-- The row of a rule is read back. -/
theorem Rule.Storable.readRow_row (h : rule.Storable) (number : ℕ) :
    readRow number rule.row = .ok rule := by
  have hcolumns : ∀ text ∈ rule.columns, '\t' ∉ text := fun text hmem =>
    notMem_of_alphabet (h.clean.columns text hmem) (by decide)
  have haccept : acceptRule rule.ruleId ⟨rule.direction.text, rule.verdict.text,
      rule.protocol.text, decimal rule.port, rule.scope.text, rule.cidr⟩ = .ok rule := by
    unfold acceptRule
    rw [bind_eq_ok]
    refine ⟨rule.ruleId, validateRuleId_eq_ok.mpr ⟨h.ruleId, rfl⟩, ?_⟩
    rw [h.fields]
    rfl
  unfold readRow Rule.row
  rw [splitOn_intercalate '\t' hcolumns (cons_ne_nil _ _), Rule.columns]
  dsimp only
  rw [haccept]

/-- The row of a rule is no comment. -/
theorem Rule.Storable.row_ne_comment (h : rule.Storable) :
    rule.row ≠ [] ∧ (rule.row.dropWhile isspace).head? ≠ some '#' := by
  obtain ⟨number, hnumber⟩ := h.ruleId.2.1
  have hrow : ∃ rest, rule.row = 'r' :: rest := by
    unfold Rule.row Rule.columns
    rw [intercalate_cons_cons, ← hnumber]
    exact ⟨_, rfl⟩
  obtain ⟨rest, hrow⟩ := hrow
  rw [hrow, dropWhile_cons_of_neg (by decide)]
  exact ⟨cons_ne_nil _ _, by simp⟩

variable {rules : List Rule}

/-- The rows of rules are read back one after the other. -/
theorem readRows_rows {limit : ℕ} (h : ∀ rule ∈ rules, rule.Storable) (number : ℕ)
    (before : List Rule) (hids : ((before ++ rules).map Rule.ruleId).Nodup)
    (hlimit : (before ++ rules).length ≤ limit) :
    readRows limit number before (rules.map fun rule => rule.row ++ ['\n']) =
      .ok (before ++ rules) := by
  induction rules generalizing number before with
  | nil => simp [readRows]
  | cons rule rules ih =>
    have hrule := h rule (by simp)
    obtain ⟨hnil, hcomment⟩ := hrule.row_ne_comment
    have happend : before ++ rule :: rules = (before ++ [rule]) ++ rules := by simp
    have hfresh : rule.ruleId ∉ before.map Rule.ruleId := by
      rw [map_append, map_cons, nodup_append] at hids
      exact fun hmem => hids.2.2 _ hmem _ mem_cons_self rfl
    have hlength : (before ++ [rule]).length ≤ limit := by
      rw [happend, length_append] at hlimit
      omega
    rw [map_cons, readRows, stripEnd_line hrule.clean.oneLine]
    simp only [hnil, hcomment, or_self, if_false]
    rw [happend] at hids hlimit ⊢
    rw [bind_eq_ok]
    refine ⟨rule, hrule.readRow_row number, ?_⟩
    rw [bind_eq_ok]
    refine ⟨(), require_eq_ok.mpr hfresh, ?_⟩
    rw [bind_eq_ok]
    exact ⟨(), require_eq_ok.mpr hlength,
      ih (fun r hr => h r (by simp [hr])) (number + 1) (before ++ [rule]) hids hlimit⟩

/-- No more rules are read than the limit. -/
theorem readRows_length {limit number : ℕ} {before : List Rule} {lines : List Text}
    (hbefore : before.length ≤ limit) (h : readRows limit number before lines = .ok rules) :
    rules.length ≤ limit := by
  induction lines generalizing number before with
  | nil =>
    obtain rfl := Except.ok.inj h
    exact hbefore
  | cons line lines ih =>
    rw [readRows] at h
    split at h
    · exact ih hbefore h
    · obtain ⟨rule, -, h⟩ := bind_eq_ok.mp h
      obtain ⟨-, -, h⟩ := bind_eq_ok.mp h
      obtain ⟨_, hlimit, h⟩ := bind_eq_ok.mp h
      exact ih (require_eq_ok.mp hlimit) h

/-! ## Files -/

theorem utf8Size_le (text : Text) : (text.map Char.utf8Size).sum ≤ 4 * text.length := by
  induction text with
  | nil => exact Nat.zero_le 0
  | cons c text ih =>
    have hsize := Char.utf8Size_le_four c
    rw [map_cons, sum_cons, length_cons]
    omega

theorem Rule.Storable.length_row (h : rule.Storable) : rule.row.length ≤ 103 := by
  have hdirection : rule.direction.text.length ≤ 8 := by
    cases rule.direction <;> decide
  have hverdict : rule.verdict.text.length ≤ 5 := by
    cases rule.verdict <;> decide
  have hprotocol : rule.protocol.text.length ≤ 3 := by
    cases rule.protocol <;> decide
  have hscope : rule.scope.text.length ≤ 3 := by
    cases rule.scope <;> decide
  have hport : (decimal rule.port).length ≤ 5 := by
    have hrange := h.port.2
    exact Ipaddress.length_decimal (by decide) (by omega)
  have hcidr : rule.cidr.length ≤ 64 := by
    by_cases hip : rule.scope = .ip
    · obtain ⟨network, hnormal, heq⟩ := h.network hip
      have hunscoped := h.unscoped
      rw [heq, Network.percent_mem_text, Bool.not_eq_true, Option.isSome_eq_false_iff,
        Option.isNone_iff_eq_none] at hunscoped
      rw [heq]
      exact Network.length_text hnormal hunscoped
    · rw [h.plain hip]
      decide
  have hid := h.ruleId.1
  simp only [Rule.row, Rule.columns, intercalate_cons_cons, intercalate_singleton,
    length_append, length_singleton]
  omega

/-- The state file of at most as many rules as it may have is not too large. -/
theorem size_serializeState (h : ∀ rule ∈ rules, rule.Storable) (hlimit : rules.length ≤ maxRules) :
    ((serializeState rules).map Char.utf8Size).sum ≤ maxStateBytes := by
  have hheader : ∀ line ∈ stateHeader, line.length ≤ 103 := by decide
  have hlines : ∀ line ∈ stateHeader ++ rules.map Rule.row, line.length ≤ 103 := by
    intro line hmem
    rcases mem_append.mp hmem with hmem | hmem
    · exact hheader line hmem
    · obtain ⟨rule, hrule, rfl⟩ := mem_map.mp hmem
      exact (h rule hrule).length_row
  have hlength := Ipaddress.length_intercalate '\n' hlines
  have hcount : (stateHeader ++ rules.map Rule.row).length = 2 + rules.length := by
    rw [length_append, length_map]
    rfl
  have hsize := utf8Size_le (serializeState rules)
  have htext : (serializeState rules).length ≤ (2 + rules.length) * 104 + 1 := by
    rw [serializeState, length_append, length_singleton, ← hcount]
    omega
  have hrules : rules.length ≤ 128 := hlimit
  have hmax : maxStateBytes = 65536 := rfl
  omega

/-- The state file of rules is read back. -/
theorem loadState_serializeState (h : ∀ rule ∈ rules, rule.Storable)
    (hids : (rules.map Rule.ruleId).Nodup) (hlimit : rules.length ≤ maxRules) :
    loadState (serializeState rules) maxRules = .ok rules := by
  have hheader : ∀ line ∈ stateHeader, OneLine line := by
    have hends : ∀ line ∈ stateHeader, '\n' ∉ line ∧ '\r' ∉ line := by decide
    intro line hmem c hc
    exact ⟨fun h => (hends line hmem).1 (h ▸ hc), fun h => (hends line hmem).2 (h ▸ hc)⟩
  have hlines : ∀ line ∈ stateHeader ++ rules.map Rule.row, OneLine line := by
    intro line hmem
    rcases mem_append.mp hmem with hmem | hmem
    · exact hheader line hmem
    · obtain ⟨rule, hrule, rfl⟩ := mem_map.mp hmem
      exact (h rule hrule).clean.oneLine
  have hskip : ∀ (number : ℕ) (rest : List Text), readRows maxRules number []
      (stateHeader.map (· ++ ['\n']) ++ rest) = readRows maxRules (number + 2) [] rest := by
    intro number rest
    have hcomment : ∀ line ∈ stateHeader,
        ((stripEnd (line ++ ['\n'])).dropWhile isspace).head? = some '#' := by decide
    have hlist : ∃ first second, stateHeader = [first, second] := ⟨_, _, rfl⟩
    obtain ⟨first, second, hlist⟩ := hlist
    rw [hlist] at hcomment ⊢
    rw [map_cons, map_singleton, cons_append, cons_append, nil_append,
      readRows, if_pos (Or.inr (hcomment first (by simp))), readRows,
      if_pos (Or.inr (hcomment second (by simp)))]
  have hne : stateHeader ++ rules.map Rule.row ≠ [] :=
    append_ne_nil_of_left_ne_nil (cons_ne_nil _ _) _
  unfold loadState
  rw [bind_eq_ok]
  refine ⟨(), require_eq_ok.mpr (size_serializeState h hlimit), ?_⟩
  rw [serializeState, fileLines_intercalate hne hlines, map_append, map_map, hskip]
  exact readRows_rows h 3 [] hids hlimit

/-! ## Every list of accepted rules -/

/-- The texts that are written for rules say what the rules say. -/
structure Faithful (rules : List Rule) : Prop where
  /-- The fragment has one command for each rule, or two for the local network. -/
  policy : fragmentPolicy (renderFragment rules) = rules.flatMap Rule.policy
  commands : ∀ rule ∈ rules, rule.policy.length = if rule.scope = .lan then 2 else 1
  alphabet : ∀ command ∈ fragmentPolicy (renderFragment rules), ∀ word ∈ command, ∀ c ∈ word,
    inAlphabet c = true
  /-- The state file is read back. -/
  state : loadState (serializeState rules) maxRules = .ok rules

theorem Rule.length_policy (rule : Rule) :
    rule.policy.length = if rule.scope = .lan then 2 else 1 := by
  unfold Rule.policy
  cases rule.scope <;> rfl

/-- The identifier and the network of a rule are words of its policy. -/
theorem Rule.clean_of_policy
    (h : ∀ command ∈ rule.policy, ∀ word ∈ command, ∀ c ∈ word, inAlphabet c = true) :
    (∀ c ∈ rule.ruleId, inAlphabet c = true) ∧
      (rule.scope = .ip → ∀ c ∈ rule.cidr, inAlphabet c = true) := by
  have hclosing : ∃ command ∈ rule.policy, rule.ruleId ++ ['"'] ∈ command := by
    unfold Rule.policy
    cases rule.scope with
    | any => exact ⟨_, mem_cons_self, by simp [Rule.closing]⟩
    | lan => exact ⟨_, mem_cons_self, by simp [Rule.closing]⟩
    | ip => exact ⟨_, mem_cons_self, by simp [Rule.closing]⟩
  obtain ⟨command, hcommand, hword⟩ := hclosing
  refine ⟨fun c hc => h command hcommand _ hword c (mem_append_left _ hc), fun hip c hc => ?_⟩
  have hpolicy : rule.policy =
      [rule.opening ++ [rule.family, rule.addressDirection, rule.cidr] ++ rule.closing] := by
    simp only [Rule.policy, hip]
  rw [hpolicy] at h
  exact h _ mem_cons_self rule.cidr (by simp) c hc

/-- Rules are written faithfully exactly when they can be stored, at most 128 of them. -/
theorem faithful_iff (haccepted : ∀ rule ∈ rules, rule.Accepted)
    (hids : (rules.map Rule.ruleId).Nodup) :
    Faithful rules ↔ rules.length ≤ maxRules ∧ ∀ rule ∈ rules, rule.Storable := by
  constructor
  · intro h
    constructor
    · have hload := h.state
      unfold loadState at hload
      obtain ⟨-, -, hload⟩ := bind_eq_ok.mp hload
      exact readRows_length (Nat.zero_le _) hload
    · intro rule hrule
      have halphabet : ∀ command ∈ rule.policy, ∀ word ∈ command, ∀ c ∈ word,
          inAlphabet c = true := by
        intro command hcommand
        refine h.alphabet command ?_
        rw [h.policy]
        exact mem_flatMap.mpr ⟨rule, hrule, hcommand⟩
      obtain ⟨hid, hcidr⟩ := Rule.clean_of_policy halphabet
      refine ⟨haccepted rule hrule, fun c hc => ascii_of_inAlphabet (hid c hc), ?_⟩
      by_cases hip : rule.scope = .ip
      · exact notMem_of_alphabet (hcidr hip) (by decide)
      · rw [(haccepted rule hrule).plain hip]
        decide
  · rintro ⟨hlimit, hstorable⟩
    have hpolicy := fragmentPolicy_render fun rule hrule => (hstorable rule hrule).clean
    refine ⟨hpolicy, fun rule _ => rule.length_policy, ?_,
      loadState_serializeState hstorable hids hlimit⟩
    rw [hpolicy]
    intro command hcommand
    obtain ⟨rule, hrule, hcommand⟩ := mem_flatMap.mp hcommand
    exact Rule.policy_alphabet (hstorable rule hrule).clean command hcommand

theorem acceptRules_forall {inputs : List (Text × Arguments)}
    (h : inputs.mapM (fun input => acceptRule input.1 input.2) = .ok rules) :
    List.Forall₂ (fun input rule => acceptRule input.1 input.2 = .ok rule) inputs rules := by
  induction inputs generalizing rules with
  | nil =>
    obtain rfl := Except.ok.inj h
    exact .nil
  | cons input inputs ih =>
    rw [mapM_cons] at h
    obtain ⟨rule, hrule, h⟩ := bind_eq_ok.mp h
    obtain ⟨rest, hrest, h⟩ := bind_eq_ok.mp h
    obtain rfl := Except.ok.inj h
    exact .cons hrule (ih hrest)

/-- The rules of accepted arguments are written faithfully exactly when they are at most 128,
their identifiers are ASCII, and no address keeps its scope. -/
theorem accepted_rules_faithful_iff (inputs : List (Text × Arguments)) (rules : List Rule)
    (haccepted : inputs.mapM (fun input => acceptRule input.1 input.2) = .ok rules)
    (hdistinct : (inputs.map Prod.fst).Nodup) :
    Faithful rules ↔ inputs.length ≤ 128 ∧ ∀ input ∈ inputs,
      (∀ c ∈ input.1, c.toNat < 128) ∧ ¬input.2.keepsScope := by
  have hforall := acceptRules_forall haccepted
  have hids : rules.map Rule.ruleId = inputs.map Prod.fst := by
    clear hdistinct haccepted
    induction hforall with
    | nil => rfl
    | cons hrule _ ih => rw [List.map_cons, List.map_cons, ih, (acceptRule_ok hrule).2.1]
  have hall : ∀ rule ∈ rules, rule.Accepted := by
    clear hdistinct haccepted hids
    induction hforall with
    | nil => exact nofun
    | cons hrule _ ih =>
      intro r hr
      rcases List.mem_cons.mp hr with rfl | hr
      · exact (acceptRule_ok hrule).1
      · exact ih r hr
  have hstorable : (∀ rule ∈ rules, rule.Storable) ↔ ∀ input ∈ inputs,
      (∀ c ∈ input.1, c.toNat < 128) ∧ ¬input.2.keepsScope := by
    clear hdistinct haccepted hids hall
    induction hforall with
    | nil => simp
    | cons hrule _ ih =>
      obtain ⟨haccept, hid, hpercent⟩ := acceptRule_ok hrule
      rw [List.forall_mem_cons, List.forall_mem_cons, ih, ← hpercent, ← hid]
      refine and_congr_left fun _ => ⟨fun h => ⟨h.ascii, h.unscoped⟩, fun h => ⟨haccept, h.1, h.2⟩⟩
  have hlength : rules.length = inputs.length := by
    rw [← List.length_map (f := Rule.ruleId), hids, List.length_map]
  rw [faithful_iff hall (by rw [hids]; exact hdistinct), hstorable, hlength]
  rfl

/-- A rule for a network. -/
def officeRule : Arguments :=
  ⟨"incoming".toList, "allow".toList, "tcp".toList, "22".toList, "ip".toList,
    "192.168.1.5/24".toList⟩

theorem accepted_rules_faithful_iff_office : Faithful
    [⟨⟨.incoming, .allow, .tcp, 22, .ip, "192.168.1.0/24".toList⟩, "rule-0001".toList⟩] := by
  have hascii : ("rule-0001".toList.all fun c => c.toNat < 128) = true := by decide
  refine (accepted_rules_faithful_iff [("rule-0001".toList, officeRule)] _ ?_ ?_).mpr ⟨?_, ?_⟩
  · decide +kernel
  · decide
  · decide
  · intro input hmem
    rw [List.mem_singleton.mp hmem]
    exact ⟨fun c hc => of_decide_eq_true (List.all_eq_true.mp hascii c hc), by decide⟩

/-- A rule whose address keeps a scope with a line end and a command in it. -/
def scopedRule : Arguments :=
  ⟨"outgoing".toList, "block".toList, "tcp".toList, "1".toList, "ip".toList,
    "::%\nadd rule inet labwc_filter local_input accept #".toList⟩

/-- Its fragment has a command of its own. -/
theorem scoped_rule_injects_policy : ¬∀ (inputs : List (Text × Arguments)) (rules : List Rule),
    inputs.mapM (fun input => acceptRule input.1 input.2) = .ok rules →
      (inputs.map Prod.fst).Nodup → inputs.length ≤ 128 →
        (∀ input ∈ inputs, ∀ c ∈ input.1, c.toNat < 128) → Faithful rules := by
  intro h
  have hascii : ("rule-0001".toList.all fun c => c.toNat < 128) = true := by decide
  have hfaithful := h [("rule-0001".toList, scopedRule)]
    [⟨⟨.outgoing, .block, .tcp, 1, .ip,
      "::%\nadd rule inet labwc_filter local_input accept #/128".toList⟩, "rule-0001".toList⟩]
    (by decide) (by decide) (by decide) (by
      intro input hmem c hc
      rw [List.mem_singleton.mp hmem] at hc
      exact of_decide_eq_true (List.all_eq_true.mp hascii c hc))
  have hcommands := congrArg List.length hfaithful.policy
  revert hcommands
  decide

end Preseed.DesktopFirewall
