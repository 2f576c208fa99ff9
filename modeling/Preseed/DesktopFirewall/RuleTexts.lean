import Preseed.DesktopFirewall.Rules
import Preseed.Ipaddress.Networks

/-!
# What the rules are written as

The fragment of accepted rules is their policy and the state file is read back as the same
rules, unless a network keeps the scope of an IPv6 address: a scope may be any text.
-/

namespace Preseed.DesktopFirewall

open List Rule

open Ipaddress (Text decimal Network)

/-! ## Acceptance -/

theorem bind_eq_ok {α β : Type} {x : Checked α} {f : α → Checked β} {b : β} :
    (x >>= f) = .ok b ↔ ∃ a, x = .ok a ∧ f a = .ok b := by
  cases x with
  | error e => exact ⟨nofun, fun ⟨_, h, _⟩ => nomatch h⟩
  | ok a => exact ⟨fun h => ⟨a, rfl, h⟩, fun ⟨_, ha, h⟩ => Except.ok.inj ha ▸ h⟩

@[simp] theorem require_eq_ok {condition : Prop} [Decidable condition] {message : String}
    {u : Unit} : require condition message = .ok u ↔ condition := by
  unfold require
  split <;> simp_all

variable {value : Text}

theorem oneOf_eq_ok {α : Type} {members : List α} {text : α → Text} {message : String} {member : α}
    (h : oneOf members text value message = .ok member) :
    text member = value := by
  unfold oneOf at h
  cases hfind : members.find? fun member => text member = value with
  | none =>
    rw [hfind] at h
    cases h
  | some found =>
    rw [hfind] at h
    obtain rfl := Except.ok.inj h
    simpa using find?_some hfind

/-- What `validate_rule_id` accepts. -/
def ValidId (ruleId : Text) : Prop :=
  ruleId.length = 9 ∧ "rule-".toList <+: ruleId ∧ (ruleId.drop 5).all isdigit = true

theorem validateRuleId_eq_ok {ruleId : Text} :
    validateRuleId value = .ok ruleId ↔ ValidId value ∧ value = ruleId := by
  unfold validateRuleId
  rw [bind_eq_ok]
  simp only [require_eq_ok, pure, Except.pure, Except.ok.injEq]
  exact ⟨fun ⟨_, h⟩ => h, fun h => ⟨(), h⟩⟩

variable {text : Text}

theorem validatePort_eq_ok {port : ℕ} :
    validatePort text = .ok port ↔ Ipaddress.asciiDigits text = true ∧
      Ipaddress.ofDigits 10 text = port ∧ 1 ≤ port ∧ port ≤ 65535 := by
  unfold validatePort
  simp only [bind_eq_ok, require_eq_ok, pure, Except.pure, Except.ok.injEq]
  constructor
  · rintro ⟨_, hdigits, _, hrange, rfl⟩
    exact ⟨hdigits, rfl, hrange⟩
  · rintro ⟨hdigits, rfl, hrange⟩
    exact ⟨(), hdigits, (), hrange, rfl⟩

/-- What `normalize_cidr` gives: a network, that keeps a scope when it has no host bits. -/
theorem normalizeCidr_ok {cidr : Text} (h : normalizeCidr value = .ok cidr) :
    ∃ network : Network, network.Normal ∧ cidr = network.text ∧
      ('%' ∈ cidr ↔ '%' ∈ value ∧ Ipaddress.hostBits value = false) := by
  unfold normalizeCidr at h
  obtain ⟨-, -, h⟩ := bind_eq_ok.mp h
  dsimp only at h
  split at h
  · rename_i network hnetwork
    obtain rfl := Except.ok.inj h
    obtain ⟨text, htext, hread⟩ := Option.bind_eq_some_iff.mp hnetwork
    split at htext
    · cases htext
      obtain ⟨hnormal, hscope⟩ := Ipaddress.ipNetwork_some hread
      exact ⟨network, hnormal, rfl, network.percent_mem_text.trans hscope⟩
    · rename_i hslash
      obtain ⟨address, haddress, rfl⟩ := Option.map_eq_some_iff.mp htext
      obtain ⟨hvalid, hscope⟩ := Ipaddress.ipAddress_some haddress
      rw [Ipaddress.ipNetwork_address hvalid (Nat.le_refl _)] at hread
      cases hread
      refine ⟨_, Ipaddress.Address.network_normal hvalid (Nat.le_refl _), rfl, ?_⟩
      have hbits : Ipaddress.hostBits value = false := by
        unfold Ipaddress.hostBits
        rw [splitOn_eq_singleton hslash]
      rw [Network.percent_mem_text]
      dsimp only
      rw [Ipaddress.Address.network_maxPrefixlen hvalid, hscope, hbits]
      simp
  · cases h

/-- A network without a scope is normalized to itself. -/
theorem normalizeCidr_text {network : Network} (h : network.Normal)
    (hscope : network.networkAddress.scope = none) :
    normalizeCidr network.text = .ok network.text := by
  have hslash : '/' ∈ network.text := by simp [Network.text]
  unfold normalizeCidr
  rw [bind_eq_ok]
  refine ⟨(), require_eq_ok.mpr (Ipaddress.Network.length_text h hscope), ?_⟩
  rw [if_pos hslash]
  dsimp only
  rw [Option.bind_some, Ipaddress.ipNetwork_text h]
  rfl

/-- The address of a rule keeps its scope. -/
def Arguments.keepsScope (args : Arguments) : Prop :=
  args.scope = "ip".toList ∧ '%' ∈ args.cidr ∧ Ipaddress.hostBits args.cidr = false

instance (args : Arguments) : Decidable args.keepsScope := inferInstanceAs (Decidable (_ ∧ _ ∧ _))

/-- The rules that are accepted. -/
structure Rule.Accepted (rule : Rule) : Prop where
  ruleId : ValidId rule.ruleId
  port : 1 ≤ rule.port ∧ rule.port ≤ 65535
  plain : rule.scope ≠ .ip → rule.cidr = ['-']
  network : rule.scope = .ip → ∃ network : Network, network.Normal ∧ rule.cidr = network.text

variable {rule : Rule}

theorem acceptRule_ok {ruleId : Text} {args : Arguments} (h : acceptRule ruleId args = .ok rule) :
    rule.Accepted ∧ rule.ruleId = ruleId ∧ ('%' ∈ rule.cidr ↔ args.keepsScope) := by
  unfold acceptRule at h
  obtain ⟨id, hid, h⟩ := bind_eq_ok.mp h
  obtain ⟨fields, hfields, h⟩ := bind_eq_ok.mp h
  obtain rfl := Except.ok.inj h
  obtain ⟨hvalid, rfl⟩ := validateRuleId_eq_ok.mp hid
  unfold validateRuleFields at hfields
  obtain ⟨direction, -, hfields⟩ := bind_eq_ok.mp hfields
  obtain ⟨verdict, -, hfields⟩ := bind_eq_ok.mp hfields
  obtain ⟨protocol, -, hfields⟩ := bind_eq_ok.mp hfields
  obtain ⟨port, hport, hfields⟩ := bind_eq_ok.mp hfields
  obtain ⟨scope, hscope, hfields⟩ := bind_eq_ok.mp hfields
  obtain ⟨-, -, hrange⟩ := validatePort_eq_ok.mp hport
  have hscope := oneOf_eq_ok hscope
  have hplain : ∀ kind : Scope, kind ≠ .ip → kind.text = args.scope → ∀ rest : Text,
      args.cidr = ['-'] → rest = args.cidr → ('%' ∈ rest ↔ args.keepsScope) := by
    rintro kind hkind htext rest hcidr rfl
    rw [hcidr]
    refine ⟨fun hpercent => absurd hpercent (by decide), fun hkeeps => ?_⟩
    have hip := htext.trans hkeeps.1
    cases kind with
    | ip => exact absurd rfl hkind
    | any => exact absurd hip (by decide)
    | lan => exact absurd hip (by decide)
  cases scope with
  | ip =>
    obtain ⟨cidr, hcidr, hfields⟩ := bind_eq_ok.mp hfields
    obtain rfl := Except.ok.inj hfields
    obtain ⟨network, hnormal, rfl, hpercent⟩ := normalizeCidr_ok hcidr
    refine ⟨⟨hvalid, hrange, fun h => absurd rfl h, fun _ => ⟨network, hnormal, rfl⟩⟩, rfl, ?_⟩
    exact hpercent.trans ⟨fun h => ⟨hscope.symm, h⟩, fun h => h.2⟩
  | any =>
    obtain ⟨_, hcidr, hfields⟩ := bind_eq_ok.mp hfields
    obtain rfl := Except.ok.inj hfields
    rw [require_eq_ok] at hcidr
    exact ⟨⟨hvalid, hrange, fun _ => hcidr, nofun⟩, rfl,
      hplain .any (by decide) hscope _ hcidr rfl⟩
  | lan =>
    obtain ⟨_, hcidr, hfields⟩ := bind_eq_ok.mp hfields
    obtain rfl := Except.ok.inj hfields
    rw [require_eq_ok] at hcidr
    exact ⟨⟨hvalid, hrange, fun _ => hcidr, nofun⟩, rfl,
      hplain .lan (by decide) hscope _ hcidr rfl⟩

/-! ## Policy -/

/-- The words of a text. -/
def words (text : Text) : List Text := text.splitOn ' '

/-- The words that a rule starts and ends with. -/
def Rule.opening (rule : Rule) : List Text :=
  ["add".toList, "rule".toList, "inet".toList, "labwc_filter".toList, rule.chain]

def Rule.closing (rule : Rule) : List Text :=
  [rule.protocol.text, "dport".toList, decimal rule.port, "counter".toList, rule.statement,
    "comment".toList, "\"firewall-security".toList, rule.ruleId ++ ['"']]

/-- The policy of a rule, as words: one command, or one for each family. -/
def Rule.policy (rule : Rule) : List (List Text) :=
  match rule.scope with
  | .any => [rule.opening ++ rule.closing]
  | .lan =>
    [rule.opening ++ "ip".toList :: rule.addressDirection :: words lanIpv4 ++ rule.closing,
      rule.opening ++ "ip6".toList :: rule.addressDirection :: words lanIpv6 ++ rule.closing]
  | .ip => [rule.opening ++ [rule.family, rule.addressDirection, rule.cidr] ++ rule.closing]

/-- The commands of a fragment: its lines but for the comments, as words. -/
def fragmentPolicy (fragment : Text) : List (List Text) :=
  ((fragment.splitOn '\n').filter fun line => line ≠ [] && line.head? ≠ some '#').map words

/-- Letters, digits, and the punctuation of addresses, sets and comments. -/
def inAlphabet (c : Char) : Bool :=
  c.isAlphanum || "_-.:/{},\"".toList.contains c

theorem intercalate_append {separator : Text} {xs ys : List Text} (hxs : xs ≠ []) (hys : ys ≠ []) :
    separator.intercalate (xs ++ ys) =
      separator.intercalate xs ++ separator ++ separator.intercalate ys := by
  induction xs with
  | nil => exact absurd rfl hxs
  | cons x xs ih =>
    rcases xs with _ | ⟨next, xs⟩
    · rw [intercalate_singleton, singleton_append,
        intercalate_cons_of_ne_nil hys, append_assoc]
    · rw [cons_append, intercalate_cons_of_ne_nil (by simp), ih (by simp),
        intercalate_cons_cons]
      simp only [append_assoc]

theorem Rule.suffix_eq (rule : Rule) : rule.suffix = [' '].intercalate rule.closing := by
  simp only [suffix, closing, intercalate_cons_cons, intercalate_singleton,
    append_assoc]
  rfl

theorem Rule.opening_eq (rule : Rule) :
    addRule ++ rule.chain = [' '].intercalate rule.opening := by
  simp only [opening, intercalate_cons_cons, intercalate_singleton,
    append_assoc]
  rfl

theorem intercalate_words (text : Text) : [' '].intercalate (words text) = text :=
  intercalate_splitOn ' '

/-- The words of a command that matches addresses. -/
theorem intercalate_command {opening closing : List Text} (hopening : opening ≠ [])
    (hclosing : closing ≠ []) (family direction : Text) {addresses : List Text}
    (hne : addresses ≠ []) :
    [' '].intercalate (opening ++ family :: direction :: addresses ++ closing) =
      [' '].intercalate opening ++ [' '] ++ (family ++ [' '] ++ (direction ++ [' '] ++
        [' '].intercalate addresses)) ++ [' '] ++ [' '].intercalate closing := by
  rw [intercalate_append (append_ne_nil_of_left_ne_nil hopening _) hclosing,
    intercalate_append hopening (cons_ne_nil _ _), intercalate_cons_cons,
    intercalate_cons_of_ne_nil hne]

theorem Rule.opening_ne_nil (rule : Rule) : rule.opening ≠ [] := cons_ne_nil _ _

theorem Rule.closing_ne_nil (rule : Rule) : rule.closing ≠ [] := cons_ne_nil _ _

theorem Rule.addressLine_eq (rule : Rule) (family : Text) {addresses : List Text}
    (hne : addresses ≠ []) :
    rule.addressLine family ([' '].intercalate addresses) = [' '].intercalate
      (rule.opening ++ family :: rule.addressDirection :: addresses ++ rule.closing) := by
  rw [intercalate_command rule.opening_ne_nil rule.closing_ne_nil _ _ hne, addressLine,
    rule.opening_eq, rule.suffix_eq]
  simp only [append_assoc]

/-- The lines of a rule are its policy. -/
theorem Rule.lines_eq (rule : Rule) : rule.lines = rule.policy.map [' '].intercalate := by
  have hwords : ∀ text, words text ≠ [] := fun text => splitOn_ne_nil ' ' text
  cases hscope : rule.scope with
  | any =>
    simp only [lines, policy, hscope]
    rw [map_singleton, intercalate_append rule.opening_ne_nil rule.closing_ne_nil,
      rule.opening_eq, rule.suffix_eq]
  | lan =>
    simp only [lines, policy, hscope]
    rw [map_cons, map_singleton, ← rule.addressLine_eq _ (hwords _),
      ← rule.addressLine_eq _ (hwords _), intercalate_words, intercalate_words]
  | ip =>
    simp only [lines, policy, hscope]
    have hcidr := rule.addressLine_eq rule.family (cons_ne_nil rule.cidr [])
    rw [intercalate_singleton] at hcidr
    rw [map_singleton, hcidr]

/-- An identifier and a network without other characters. -/
structure Rule.Clean (rule : Rule) : Prop where
  ruleId : ∀ c ∈ rule.ruleId, inAlphabet c = true
  cidr : ∀ c ∈ rule.cidr, inAlphabet c = true

theorem alphabet_of_all (h : text.all inAlphabet = true) :
    ∀ c ∈ text, inAlphabet c = true := all_eq_true.mp h

variable {texts : List Text}

theorem alphabets_of_all (h : texts.all (·.all inAlphabet) = true) :
    ∀ text ∈ texts, ∀ c ∈ text, inAlphabet c = true := fun text hmem =>
  alphabet_of_all (all_eq_true.mp h text hmem)

theorem inAlphabet_of_isDigit {c : Char} (h : c.isDigit = true) : inAlphabet c = true := by
  simp [inAlphabet, Char.isAlphanum, h]

theorem Rule.opening_alphabet (rule : Rule) :
    ∀ word ∈ rule.opening, ∀ c ∈ word, inAlphabet c = true := by
  refine alphabets_of_all ?_
  unfold opening chain
  cases rule.direction <;> decide

theorem Rule.closing_alphabet (h : rule.Clean) :
    ∀ word ∈ rule.closing, ∀ c ∈ word, inAlphabet c = true := by
  have hprotocol : ∀ c ∈ rule.protocol.text, inAlphabet c = true := by
    refine alphabet_of_all ?_
    cases rule.protocol <;> decide
  have hstatement : ∀ c ∈ rule.statement, inAlphabet c = true := by
    refine alphabet_of_all ?_
    unfold statement
    cases rule.verdict <;> decide
  have hport : ∀ c ∈ decimal rule.port, inAlphabet c = true := fun c hc =>
    inAlphabet_of_isDigit (Ipaddress.isDigit_of_mem_decimal hc)
  have hid : ∀ c ∈ rule.ruleId ++ ['"'], inAlphabet c = true := by
    intro c hc
    rcases mem_append.mp hc with hc | hc
    · exact h.ruleId c hc
    · rw [mem_singleton.mp hc]
      decide
  have hkeywords : ∀ word ∈ ["dport".toList, "counter".toList, "comment".toList,
      "\"firewall-security".toList], ∀ c ∈ word, inAlphabet c = true :=
    alphabets_of_all (by decide)
  intro word hword
  simp only [closing, mem_cons, not_mem_nil, or_false] at hword
  rcases hword with rfl | rfl | rfl | rfl | rfl | rfl | rfl | rfl
  · exact hprotocol
  · exact hkeywords _ (by simp)
  · exact hport
  · exact hkeywords _ (by simp)
  · exact hstatement
  · exact hkeywords _ (by simp)
  · exact hkeywords _ (by simp)
  · exact hid

/-- The words of the policy of a clean rule have no other characters. -/
theorem Rule.policy_alphabet (h : rule.Clean) :
    ∀ command ∈ rule.policy, ∀ word ∈ command, ∀ c ∈ word, inAlphabet c = true := by
  have hcommand : ∀ addresses : List Text, (∀ word ∈ addresses, ∀ c ∈ word, inAlphabet c = true) →
      ∀ word ∈ rule.opening ++ addresses ++ rule.closing, ∀ c ∈ word, inAlphabet c = true := by
    intro addresses haddresses word hword
    rcases mem_append.mp hword with hword | hword
    · rcases mem_append.mp hword with hword | hword
      · exact rule.opening_alphabet word hword
      · exact haddresses word hword
    · exact closing_alphabet h word hword
  have hdirection : ∀ c ∈ rule.addressDirection, inAlphabet c = true := by
    refine alphabet_of_all ?_
    unfold addressDirection
    cases rule.direction <;> decide
  have hfamily : ∀ c ∈ rule.family, inAlphabet c = true := by
    refine alphabet_of_all ?_
    unfold family
    split <;> decide
  intro command hmem
  unfold policy at hmem
  cases hscope : rule.scope with
  | any =>
    simp only [hscope, mem_singleton] at hmem
    rw [hmem]
    simpa using hcommand [] nofun
  | lan =>
    simp only [hscope, mem_cons, not_mem_nil, or_false] at hmem
    have hlan4 : ∀ word ∈ words lanIpv4, ∀ c ∈ word, inAlphabet c = true :=
      alphabets_of_all (by decide)
    have hlan6 : ∀ word ∈ words lanIpv6, ∀ c ∈ word, inAlphabet c = true :=
      alphabets_of_all (by decide)
    rcases hmem with rfl | rfl
    · refine hcommand _ fun word hword => ?_
      rcases mem_cons.mp hword with rfl | hword
      · exact alphabet_of_all (by decide)
      rcases mem_cons.mp hword with rfl | hword
      · exact hdirection
      · exact hlan4 word hword
    · refine hcommand _ fun word hword => ?_
      rcases mem_cons.mp hword with rfl | hword
      · exact alphabet_of_all (by decide)
      rcases mem_cons.mp hword with rfl | hword
      · exact hdirection
      · exact hlan6 word hword
  | ip =>
    simp only [hscope, mem_singleton] at hmem
    rw [hmem]
    refine hcommand _ fun word hword => ?_
    simp only [mem_cons, not_mem_nil, or_false] at hword
    rcases hword with rfl | rfl | rfl
    · exact hfamily
    · exact hdirection
    · exact h.cidr

/-- A text of lines that end in a line feed is split into them. -/
theorem splitOn_lines (hne : texts ≠ []) (h : ∀ text ∈ texts, '\n' ∉ text) :
    (['\n'].intercalate texts ++ ['\n']).splitOn '\n' = texts ++ [[]] := by
  have htext : ['\n'].intercalate texts ++ ['\n'] = ['\n'].intercalate (texts ++ [[]]) := by
    rw [intercalate_append hne (cons_ne_nil _ _), intercalate_singleton,
      append_nil]
  rw [htext, splitOn_intercalate '\n' _ (by simp)]
  intro text hmem
  rcases mem_append.mp hmem with hmem | hmem
  · exact h text hmem
  · rw [mem_singleton.mp hmem]
    exact not_mem_nil

theorem notMem_of_alphabet (h : ∀ c ∈ text, inAlphabet c = true) {c : Char}
    (hc : inAlphabet c = false) : c ∉ text := fun hmem => by
  rw [h c hmem] at hc
  cases hc

/-- A line of a clean rule is a command, and no comment. -/
theorem Rule.line_of_clean (h : rule.Clean) {command : List Text} (hmem : command ∈ rule.policy) :
    '\n' ∉ [' '].intercalate command ∧ words ([' '].intercalate command) = command ∧
      ([' '].intercalate command).head? = some 'a' := by
  have halphabet := policy_alphabet h command hmem
  have hopens : ∃ rest, command = "add".toList :: "rule".toList :: rest := by
    unfold policy at hmem
    cases hscope : rule.scope with
    | any =>
      simp only [hscope, mem_singleton] at hmem
      exact ⟨_, hmem⟩
    | lan =>
      simp only [hscope, mem_cons, not_mem_nil, or_false] at hmem
      rcases hmem with hmem | hmem
      · exact ⟨_, hmem⟩
      · exact ⟨_, hmem⟩
    | ip =>
      simp only [hscope, mem_singleton] at hmem
      exact ⟨_, hmem⟩
  refine ⟨fun hend => ?_, ?_, ?_⟩
  · rcases Ipaddress.mem_intercalate hend with hspace | ⟨word, hword, hend⟩
    · exact absurd hspace (by decide)
    · exact notMem_of_alphabet (halphabet word hword) (by decide) hend
  · refine splitOn_intercalate ' ' (fun word hword => ?_) ?_
    · exact notMem_of_alphabet (halphabet word hword) (by decide)
    · obtain ⟨rest, rfl⟩ := hopens
      exact cons_ne_nil _ _
  · obtain ⟨rest, rfl⟩ := hopens
    rw [intercalate_cons_cons]
    rfl

/-- A comment line, or the rest after the last line. -/
def isComment (line : Text) : Bool := line = [] || line.head? = some '#'

theorem comments_fragmentHeader : ∀ line ∈ fragmentHeader, '\n' ∉ line ∧ isComment line = true := by
  decide

theorem comments_fragmentFooter (rules : List Rule) :
    ∀ line ∈ fragmentFooter rules, '\n' ∉ line ∧ isComment line = true := by
  unfold fragmentFooter
  split
  · decide
  · exact nofun

theorem filter_comments (h : ∀ line ∈ texts, isComment line = true) :
    texts.filter (fun line => line ≠ [] && line.head? ≠ some '#') = [] := by
  refine filter_eq_nil_iff.mpr fun line hmem => ?_
  have hcomment := h line hmem
  simp only [isComment, Bool.or_eq_true, decide_eq_true_iff] at hcomment
  simp only [Bool.and_eq_true, decide_eq_true_iff]
  tauto

/-- The fragment of clean rules is their policy. -/
theorem fragmentPolicy_render {rules : List Rule} (h : ∀ rule ∈ rules, rule.Clean) :
    fragmentPolicy (renderFragment rules) = rules.flatMap policy := by
  have hcommands : rules.flatMap lines =
      (rules.flatMap policy).map [' '].intercalate := by
    rw [map_flatMap]
    exact congrArg (rules.flatMap ·) (funext lines_eq)
  have hline : ∀ command ∈ rules.flatMap policy, '\n' ∉ [' '].intercalate command ∧
      words ([' '].intercalate command) = command ∧
        ([' '].intercalate command).head? = some 'a' := by
    intro command hmem
    obtain ⟨rule, hrule, hmem⟩ := mem_flatMap.mp hmem
    exact line_of_clean (h rule hrule) hmem
  generalize rules.flatMap policy = commands at hcommands hline ⊢
  have hkept : (commands.map [' '].intercalate).filter
      (fun line => line ≠ [] && line.head? ≠ some '#') = commands.map [' '].intercalate := by
    refine filter_eq_self.mpr fun line hmem => ?_
    obtain ⟨command, hcommand, rfl⟩ := mem_map.mp hmem
    have hhead := (hline command hcommand).2.2
    rw [hhead]
    cases hempty : [' '].intercalate command with
    | nil =>
      rw [hempty] at hhead
      cases hhead
    | cons c rest => rfl
  have hread : (commands.map [' '].intercalate).map words = commands := by
    rw [map_map]
    refine (map_congr_left fun command hmem => ?_).trans (map_id commands)
    exact (hline command hmem).2.1
  have hend : ∀ line ∈ fragmentHeader ++ commands.map [' '].intercalate ++ fragmentFooter rules,
      '\n' ∉ line := by
    intro line hmem
    rw [mem_append, mem_append] at hmem
    rcases hmem with (hmem | hmem) | hmem
    · exact (comments_fragmentHeader line hmem).1
    · obtain ⟨command, hcommand, rfl⟩ := mem_map.mp hmem
      exact (hline command hcommand).1
    · exact (comments_fragmentFooter rules line hmem).1
  have hnil : ∀ line ∈ [([] : Text)], isComment line = true := by decide
  have hne : fragmentHeader ++ commands.map [' '].intercalate ++ fragmentFooter rules ≠ [] :=
    append_ne_nil_of_left_ne_nil (append_ne_nil_of_left_ne_nil (cons_ne_nil _ _) _) _
  unfold fragmentPolicy renderFragment
  rw [hcommands, splitOn_lines hne hend, filter_append, filter_append,
    filter_append, hkept,
    filter_comments fun line hmem => (comments_fragmentHeader line hmem).2,
    filter_comments fun line hmem => (comments_fragmentFooter rules line hmem).2,
    filter_comments hnil, nil_append, append_nil, append_nil, hread]

end Preseed.DesktopFirewall
