import Preseed.Aptly.CommandLine

/-!
# Managed signing

`run_aptly` of `aptly-publishing` starts Aptly with the managed signing key. It reads the
arguments as texts: the first `publish`, the argument after it, and the forms of an option
wherever they stand. Aptly's own reading may differ, and the theorem says when a publication
is signed all the same.
-/

namespace Preseed.Aptly

open List

/-- The managed key and its configuration. -/
structure Signer where
  config : List Char
  signingKey : List Char
  /-- `str.upper`. -/
  upper : List Char → List Char
  /-- The fingerprint is in upper case. -/
  upper_key : upper signingKey = signingKey

/-! ## The wrapper -/

/-- `-name`, `--name`, `-name=…` or `--name=…`. -/
def givesOption (name : List Char) (argument : Argument) : Bool :=
  argument == '-' :: name || argument == '-' :: '-' :: name ||
    ('-' :: (name ++ ['='])).isPrefixOf argument ||
    ('-' :: '-' :: (name ++ ['='])).isPrefixOf argument

/-- The arguments before and after the first `publish`. -/
def splitPublish : List Argument → Option (List Argument × List Argument)
  | [] => none
  | argument :: rest =>
      if argument = publishCommand then some ([], rest)
      else (splitPublish rest).map fun parts => (argument :: parts.1, parts.2)

def signedCommands : List Argument := ["repo", "snapshot", "switch", "update"].map String.toList

def remoteCommands : List Argument := signedCommands ++ ["drop".toList]

def hashedCommands : List Argument := ["repo", "snapshot"].map String.toList

def acquireFlags : List Argument :=
  ["-acquire-by-hash", "--acquire-by-hash", "-acquire-by-hash=true", "--acquire-by-hash=true"].map
    String.toList

/-- `aptly_publish_mutates_remote`. -/
def publishMutatesRemote (arguments : List Argument) : Bool :=
  match splitPublish arguments with
  | some (_, sub :: _) => sub ∈ remoteCommands
  | _ => false

/-- `configured_keys`. -/
def configuredKeys : List Argument → Option (List (List Char))
  | [] => some []
  | argument :: rest =>
      if ('-' :: (gpgKey ++ ['='])).isPrefixOf argument ∨
          ('-' :: '-' :: (gpgKey ++ ['='])).isPrefixOf argument then
        (configuredKeys rest).map ((argument.dropWhile (· ≠ '=')).drop 1 :: ·)
      else if argument = '-' :: gpgKey ∨ argument = '-' :: '-' :: gpgKey then
        match rest with
        | [] => none
        | key :: _ => (configuredKeys rest).map (key :: ·)
      else configuredKeys rest

/-- `-gpg-key=…` with the managed key. -/
def keyArgument (signer : Signer) : Argument := '-' :: (gpgKey ++ '=' :: signer.signingKey)

/-- `aptly_arguments_with_managed_signing`; `available` is whether the key can be used. -/
def managedArguments (signer : Signer) (available : Bool) (arguments : List Argument) :
    Option (List Argument) :=
  match splitPublish arguments with
  | some (before, sub :: rest) =>
      if sub ∈ signedCommands then do
        guard (¬arguments.any (givesOption skipSigning))
        let keys ← configuredKeys arguments
        guard (keys.all fun key => signer.upper key == signer.signingKey)
        guard available
        let rest := if keys = [] then keyArgument signer :: rest else rest
        let managed := before ++ publishCommand :: sub :: rest
        if sub ∈ hashedCommands then
          let flags := managed.filter (givesOption acquireByHash)
          guard (flags.all (· ∈ acquireFlags))
          if flags = [] then
            return before ++ publishCommand :: sub :: ('-' :: acquireByHash) :: rest
          return managed
        return managed
      else some arguments
  | _ => some arguments

/-- `run_aptly`: the arguments of Aptly, and whether it gets the remote credentials. The lock,
the state of the publication and the credentials are `admitted`. -/
def runAptly (signer : Signer) (available admitted : Bool) (arguments : List Argument) :
    Option (List Argument × Bool) := do
  guard (¬arguments.any (givesOption configName))
  let managed ← managedArguments signer available arguments
  guard admitted
  return (('-' :: (configName ++ '=' :: signer.config)) :: managed, publishMutatesRemote managed)

/-! ## What is promised -/

/-- A publication that is signed with the managed key. -/
structure SignsManaged (options : AptlyOptions) (signer : Signer) (executed : List Argument)
    (sub : Argument) : Prop where
  key : ∃ value, Item.option gpgKey (some value) ∈ aptlyItems options executed
  onlyKey : ∀ value, Item.option gpgKey value ∈ aptlyItems options executed →
    ∃ key, value = some key ∧ signer.upper key = signer.signingKey
  signs : ∀ value, Item.option skipSigning value ∉ aptlyItems options executed
  hashes : sub ∈ hashedCommands →
    ∃ value, Item.option acquireByHash value ∈ aptlyItems options executed
  onlyHashes : sub ∈ hashedCommands → ∀ value,
    Item.option acquireByHash value ∈ aptlyItems options executed →
      value = none ∨ value = some "true".toList

/-- What is promised of an executed vector. -/
structure Managed (options : AptlyOptions) (signer : Signer) (executed : List Argument)
    (credentials : Bool) : Prop where
  signed : ∀ sub ∈ signedCommands, Publishes options executed sub →
    SignsManaged options signer executed sub
  credentials : credentials = true ↔ ∃ sub ∈ remoteCommands, Publishes options executed sub

/-- Every vector that is executed for the arguments keeps the promise. -/
def NotBypassed (options : AptlyOptions) (signer : Signer) (arguments : List Argument) : Prop :=
  ∀ available admitted executed credentials,
    runAptly signer available admitted arguments = some (executed, credentials) →
      Managed options signer executed credentials

/-! ## The condition -/

/-- The first `publish` and what follows it. -/
def FirstPublish (arguments before : List Argument) (sub : Argument) (rest : List Argument) :
    Prop :=
  arguments = before ++ publishCommand :: sub :: rest ∧ publishCommand ∉ before

/-- Only complete options stand before the command words. -/
def Leads (options : AptlyOptions) (before : List Argument) : Prop :=
  (itemsOf options none before).filterMap Item.word? = [] ∧ pendingOf options none before = none

/-- The wrapper refuses the arguments. -/
def Refused (signer : Signer) (arguments : List Argument) : Prop :=
  (∃ argument ∈ arguments, givesOption configName argument = true) ∨
    ∃ before sub rest, FirstPublish arguments before sub rest ∧ sub ∈ signedCommands ∧
      ((∃ argument ∈ arguments, givesOption skipSigning argument = true) ∨
        configuredKeys arguments = none ∨
        (∃ keys, configuredKeys arguments = some keys ∧
          ∃ key ∈ keys, signer.upper key ≠ signer.signingKey) ∨
        (sub ∈ hashedCommands ∧ ∃ argument ∈ arguments, givesOption acquireByHash argument = true ∧
          argument ∉ acquireFlags))

/-- Neither Aptly nor the wrapper takes the arguments as a change of a publication. -/
def NoPublication (options : AptlyOptions) (arguments : List Argument) : Prop :=
  (∀ sub ∈ remoteCommands, ¬Publishes options arguments sub) ∧
    ∀ before sub rest, FirstPublish arguments before sub rest → sub ∉ remoteCommands

/-- Aptly's command words are the first `publish` and the argument after it, and an option of
the signature that is among the arguments is one of Aptly's options. -/
def PlainPublication (options : AptlyOptions) (arguments : List Argument) : Prop :=
  ∃ before sub rest, FirstPublish arguments before sub rest ∧ sub ∈ remoteCommands ∧
    Leads options before ∧
    (sub ∈ signedCommands → (∃ argument ∈ arguments, givesOption gpgKey argument = true) →
      ∃ value, Item.option gpgKey value ∈ aptlyItems options arguments) ∧
    (sub ∈ hashedCommands → (∃ argument ∈ arguments, givesOption acquireByHash argument = true) →
      ∃ value, Item.option acquireByHash value ∈ aptlyItems options arguments)

/-! ## The texts of options -/

theorem optionName_gpgKey : OptionName gpgKey := ⟨by decide, by decide, by decide⟩

theorem optionName_skipSigning : OptionName skipSigning := ⟨by decide, by decide, by decide⟩

theorem optionName_acquireByHash : OptionName acquireByHash := ⟨by decide, by decide, by decide⟩

theorem optionName_config : OptionName configName := ⟨by decide, by decide, by decide⟩

theorem isPrefixOf_equals_iff (start : List Char) (argument : Argument) :
    (start ++ ['=']).isPrefixOf argument = true ↔ ∃ value, argument = start ++ '=' :: value := by
  rw [ isPrefixOf_iff_prefix]
  constructor
  · rintro ⟨value, rfl⟩
    exact ⟨value, by simp⟩
  · rintro ⟨value, rfl⟩
    exact ⟨value, by simp⟩

variable {name : List Char} {argument : Argument}

/-- The wrapper sees an option in every text that is one for Aptly. -/
theorem givesOption_iff (hname : OptionName name) :
    givesOption name argument = true ↔ ∃ own, optionOf argument = some (name, own) := by
  have hone := isPrefixOf_equals_iff ('-' :: name) argument
  have htwo := isPrefixOf_equals_iff ('-' :: '-' :: name) argument
  rw [cons_append] at hone
  rw [cons_append, cons_append] at htwo
  simp only [givesOption, Bool.or_eq_true, beq_iff_eq, hone, htwo]
  constructor
  · rintro (((h | h) | ⟨value, h⟩) | ⟨value, h⟩)
    · exact ⟨none, (optionOf_bare_iff hname).mpr (.inl h)⟩
    · exact ⟨none, (optionOf_bare_iff hname).mpr (.inr h)⟩
    · exact ⟨some value, (optionOf_value_iff hname).mpr (.inl h)⟩
    · exact ⟨some value, (optionOf_value_iff hname).mpr (.inr h)⟩
  · rintro ⟨own, hown⟩
    cases own with
    | none =>
      rcases (optionOf_bare_iff hname).mp hown with h | h
      · exact .inl (.inl (.inl h))
      · exact .inl (.inl (.inr h))
    | some value =>
      rcases (optionOf_value_iff hname).mp hown with h | h
      · exact .inl (.inr ⟨value, h⟩)
      · exact .inr ⟨value, h⟩

theorem optionOf_keyArgument (signer : Signer) :
    optionOf (keyArgument signer) = some (gpgKey, some signer.signingKey) :=
  (optionOf_value_iff optionName_gpgKey).mpr (.inl rfl)

theorem optionOf_acquire : optionOf ('-' :: acquireByHash) = some (acquireByHash, none) :=
  (optionOf_bare_iff optionName_acquireByHash).mpr (.inl rfl)

theorem givesOption_keyArgument (signer : Signer) :
    givesOption acquireByHash (keyArgument signer) = false := by
  cases h : givesOption acquireByHash (keyArgument signer) with
  | false => rfl
  | true =>
    obtain ⟨own, hown⟩ := (givesOption_iff optionName_acquireByHash).mp h
    rw [optionOf_keyArgument] at hown
    have hname : gpgKey = acquireByHash := (Prod.mk.inj (Option.some.inj hown)).1
    exact absurd hname (by decide)

/-! ## The keys of the arguments -/

variable {rest : List Argument} {keys : List (List Char)}

/-- One argument of `configured_keys`. -/
theorem configuredKeys_cons (h : configuredKeys (argument :: rest) = some keys) :
    (∃ value more, optionOf argument = some (gpgKey, some value) ∧
      configuredKeys rest = some more ∧ keys = value :: more) ∨
    (∃ key others more, optionOf argument = some (gpgKey, none) ∧ rest = key :: others ∧
      configuredKeys rest = some more ∧ keys = key :: more) ∨
    ((∀ own, optionOf argument ≠ some (gpgKey, own)) ∧ configuredKeys rest = some keys) := by
  unfold configuredKeys at h
  split at h
  · rename_i hvalue
    left
    obtain ⟨more, hmore, rfl⟩ := Option.map_eq_some_iff.mp h
    have hone := isPrefixOf_equals_iff ('-' :: gpgKey) argument
    have htwo := isPrefixOf_equals_iff ('-' :: '-' :: gpgKey) argument
    rw [cons_append] at hone
    rw [cons_append, cons_append] at htwo
    rw [hone, htwo] at hvalue
    rcases hvalue with ⟨value, rfl⟩ | ⟨value, rfl⟩
    · refine ⟨value, more, (optionOf_value_iff optionName_gpgKey).mpr (.inl rfl), hmore, ?_⟩
      rw [(takeWhile_name (by decide) value).2]
      rfl
    · refine ⟨value, more, (optionOf_value_iff optionName_gpgKey).mpr (.inr rfl), hmore, ?_⟩
      rw [(takeWhile_name (by decide) value).2]
      rfl
  · rename_i hvalue
    split at h
    · rename_i hbare
      right; left
      cases rest with
      | nil => cases h
      | cons key others =>
        obtain ⟨more, hmore, rfl⟩ := Option.map_eq_some_iff.mp h
        exact ⟨key, others, more, (optionOf_bare_iff optionName_gpgKey).mpr hbare, rfl, hmore, rfl⟩
    · rename_i hbare
      right; right
      refine ⟨?_, h⟩
      intro own hown
      cases own with
      | none => exact hbare ((optionOf_bare_iff optionName_gpgKey).mp hown)
      | some value =>
        apply hvalue
        rcases (optionOf_value_iff optionName_gpgKey).mp hown with h | h
        · left
          exact (isPrefixOf_equals_iff ('-' :: gpgKey) argument).mpr ⟨value, h⟩
        · right
          exact (isPrefixOf_equals_iff ('-' :: '-' :: gpgKey) argument).mpr ⟨value, h⟩

variable {arguments : List Argument}

theorem configuredKeys_nil_iff (h : configuredKeys arguments = some keys) :
    keys = [] ↔ ¬∃ argument ∈ arguments, givesOption gpgKey argument = true := by
  induction arguments generalizing keys with
  | nil =>
    cases h
    simp
  | cons argument rest ih =>
    have hgives : givesOption gpgKey argument = true ↔
        ∃ own, optionOf argument = some (gpgKey, own) := givesOption_iff optionName_gpgKey
    rcases configuredKeys_cons h with ⟨value, more, hown, -, rfl⟩ |
      ⟨key, -, more, hown, -, -, rfl⟩ | ⟨hother, hrest⟩
    · have hargument := hgives.mpr ⟨_, hown⟩
      simp [hargument]
    · have hargument := hgives.mpr ⟨_, hown⟩
      simp [hargument]
    · have hargument : givesOption gpgKey argument = false := by
        cases hgiven : givesOption gpgKey argument with
        | false => rfl
        | true =>
          obtain ⟨own, hown⟩ := hgives.mp hgiven
          exact absurd hown (hother own)
      rw [ih hrest]
      simp [hargument]

/-- The keys of the arguments after one, and the key that it gives. -/
theorem configuredKeys_rest (h : configuredKeys (argument :: rest) = some keys) :
    ∃ more, configuredKeys rest = some more ∧ (∀ key ∈ more, key ∈ keys) ∧
      (∀ own, optionOf argument = some (gpgKey, some own) → own ∈ keys) ∧
      (optionOf argument = some (gpgKey, none) → ∃ key ∈ keys, rest.head? = some key) := by
  rcases configuredKeys_cons h with ⟨value, more, hown, hmore, rfl⟩ |
    ⟨key, others, more, hown, rfl, hmore, rfl⟩ | ⟨hother, hmore⟩
  · refine ⟨more, hmore, fun key hkey => mem_cons_of_mem _ hkey, ?_, ?_⟩
    · intro own hagain
      rw [hown] at hagain
      obtain rfl := Option.some.inj (Prod.mk.inj (Option.some.inj hagain)).2
      exact mem_cons_self ..
    · intro hagain
      rw [hown] at hagain
      cases hagain
  · refine ⟨more, hmore, fun key hkey => mem_cons_of_mem _ hkey, ?_, ?_⟩
    · intro own hagain
      rw [hown] at hagain
      cases hagain
    · intro _
      exact ⟨key, mem_cons_self .., rfl⟩
  · refine ⟨keys, hmore, fun key hkey => hkey, ?_, ?_⟩
    · intro own hown
      exact absurd hown (hother _)
    · intro hown
      exact absurd hown (hother _)

variable {options : AptlyOptions}

variable {value : Option (List Char)}

/-- A signing key of Aptly is one of the configured keys. -/
theorem key_of_item {pending : Option (List Char)} (h : configuredKeys arguments = some keys)
    (hitem : Item.option gpgKey value ∈ itemsOf options pending arguments) :
    (∃ key ∈ keys, value = some key) ∨ (pending = some gpgKey ∧ value = arguments.head?) := by
  induction arguments generalizing pending keys with
  | nil => cases hitem
  | cons argument rest ih =>
    obtain ⟨more, hmore, hkept, hvalue, hnext⟩ := configuredKeys_rest h
    rw [itemsOf] at hitem
    rcases mem_append.mp hitem with hfirst | hrest
    · rcases option_of_step hfirst with ⟨hpending, rfl⟩ | ⟨hown, hbare⟩
      · exact .inr ⟨hpending, rfl⟩
      · left
        cases value with
        | none =>
          have htakes := hbare rfl
          rw [options.gpgKey_takes] at htakes
          cases htakes
        | some own => exact ⟨own, hvalue own hown, rfl⟩
    · left
      rcases ih hmore hrest with ⟨key, hkey, hsome⟩ | ⟨hpending, hhead⟩
      · exact ⟨key, hkept key hkey, hsome⟩
      · obtain ⟨hown, -⟩ := pending_of_step hpending
        obtain ⟨key, hkey, hfirst⟩ := hnext hown
        exact ⟨key, hkey, hhead.trans hfirst⟩

/-- No signing key waits for its value after the arguments. -/
theorem pendingOf_ne_gpgKey {pending : Option (List Char)}
    (h : configuredKeys arguments = some keys)
    (hpending : pendingOf options pending arguments = some gpgKey) : arguments = [] := by
  induction arguments generalizing pending keys with
  | nil => rfl
  | cons argument rest ih =>
    exfalso
    obtain ⟨more, hmore, -, -, hnext⟩ := configuredKeys_rest h
    rw [pendingOf] at hpending
    -- The rest is empty, so the argument is a bare key option with nothing after it.
    have hempty := ih hmore hpending
    rw [hempty, pendingOf] at hpending
    obtain ⟨hown, -⟩ := pending_of_step hpending
    obtain ⟨key, -, hfirst⟩ := hnext hown
    rw [hempty] at hfirst
    cases hfirst

/-! ## The command words -/

variable {before : List Argument}

theorem splitPublish_eq_some_iff {after : List Argument} :
    splitPublish arguments = some (before, after) ↔
      arguments = before ++ publishCommand :: after ∧ publishCommand ∉ before := by
  induction arguments generalizing before with
  | nil => simp [splitPublish]
  | cons argument rest ih =>
    unfold splitPublish
    by_cases hpublish : argument = publishCommand
    · subst hpublish
      rw [if_pos rfl]
      constructor
      · intro h
        cases h
        exact ⟨rfl, not_mem_nil⟩
      · rintro ⟨heq, hnot⟩
        cases before with
        | nil => rw [(List.cons.inj heq).2]
        | cons first before =>
          obtain ⟨rfl, -⟩ := List.cons.inj heq
          exact absurd (mem_cons_self ..) hnot
    · rw [if_neg hpublish]
      constructor
      · intro h
        obtain ⟨⟨front, back⟩, hparts, heq⟩ := Option.map_eq_some_iff.mp h
        obtain ⟨rfl, rfl⟩ := Prod.mk.inj heq
        obtain ⟨rfl, hnot⟩ := ih.mp hparts
        refine ⟨rfl, ?_⟩
        intro hmem
        rcases mem_cons.mp hmem with rfl | hmem
        · exact hpublish rfl
        · exact hnot hmem
      · rintro ⟨heq, hnot⟩
        cases before with
        | nil => exact absurd (List.cons.inj heq).1 hpublish
        | cons first before =>
          obtain ⟨rfl, hrest⟩ := List.cons.inj heq
          rw [ih.mpr ⟨hrest, not_mem_of_not_mem_cons hnot⟩]
          rfl

variable {sub : Argument}

/-- A subcommand is no option and not `publish`. -/
theorem plain_of_mem_remote (h : sub ∈ remoteCommands) :
    optionOf sub = none ∧ sub ≠ publishCommand := by
  revert sub
  decide

theorem remote_of_signed (h : sub ∈ signedCommands) : sub ∈ remoteCommands :=
  mem_append_left _ h

theorem signed_of_hashed (h : sub ∈ hashedCommands) : sub ∈ signedCommands := by
  revert sub
  decide

theorem aptlyItems_append (h : pendingOf options none before = none) (rest : List Argument) :
    aptlyItems options (before ++ rest) =
      itemsOf options none before ++ aptlyItems options rest := by
  unfold aptlyItems
  rw [itemsOf_append, pendingOf_append, h, append_assoc]

/-- An argument that needs none after it. -/
theorem aptlyItems_cons {item : Item} (h : itemStep options none argument = ([item], none))
    (rest : List Argument) :
    aptlyItems options (argument :: rest) = item :: aptlyItems options rest := by
  unfold aptlyItems
  rw [itemsOf, pendingOf, h]
  rfl

theorem itemStep_word (h : optionOf argument = none) :
    itemStep options none argument = ([.word argument], none) := by
  unfold itemStep
  rw [h]

theorem itemStep_value {value : List Char} (h : optionOf argument = some (name, some value)) :
    itemStep options none argument = ([.option name (some value)], none) := by
  unfold itemStep
  rw [h]

theorem itemStep_acquire :
    itemStep options none ('-' :: acquireByHash) = ([.option acquireByHash none], none) := by
  unfold itemStep
  rw [optionOf_acquire]
  exact if_neg (by rw [options.acquireByHash_bare]; exact Bool.false_ne_true)

/-- The items of a vector with a first `publish` that Aptly takes as a word. -/
theorem aptlyItems_publish (hlead : Leads options before) (hsub : sub ∈ remoteCommands)
    (rest : List Argument) :
    aptlyItems options (before ++ publishCommand :: sub :: rest) =
      itemsOf options none before ++
        .word publishCommand :: .word sub :: aptlyItems options rest := by
  rw [aptlyItems_append hlead.2, aptlyItems_cons (itemStep_word (by decide)),
    aptlyItems_cons (itemStep_word (plain_of_mem_remote hsub).1)]

/-- Aptly takes the first `publish` and the argument after it as its command words when only
complete options stand before them. -/
theorem publishes_iff {other : Argument} (hfirst : FirstPublish arguments before sub rest)
    (hsub : sub ∈ remoteCommands) :
    Publishes options arguments other ↔ other = sub ∧ Leads options before := by
  obtain ⟨harguments, hnot⟩ := hfirst
  obtain ⟨hplain, hne⟩ := plain_of_mem_remote hsub
  constructor
  · rintro ⟨more, hwords⟩
    have hitems : aptlyItems options arguments = itemsOf options none before ++
        (itemsOf options (pendingOf options none before) (publishCommand :: sub :: rest) ++
          ((pendingOf options none arguments).map (Item.option · none)).toList) := by
      unfold aptlyItems
      nth_rewrite 1 [harguments]
      rw [itemsOf_append, append_assoc]
    rw [aptlyWords, hitems, filterMap_append] at hwords
    have hbefore : (itemsOf options none before).filterMap Item.word? = [] := by
      cases hlead : (itemsOf options none before).filterMap Item.word? with
      | nil => rfl
      | cons word words =>
        exfalso
        rw [hlead] at hwords
        have hmem : word ∈ (itemsOf options none before).filterMap Item.word? := by
          rw [hlead]
          exact mem_cons_self ..
        obtain ⟨item, hitem, hword⟩ := mem_filterMap.mp hmem
        cases item with
        | word text =>
          cases hword
          obtain rfl := (List.cons.inj hwords).1
          exact hnot (mem_of_word hitem)
        | option => cases hword
    rw [hbefore, nil_append] at hwords
    cases hpending : pendingOf options none before with
    | none =>
      rw [hpending, itemsOf, itemStep_word (by decide), itemsOf, itemStep_word hplain] at hwords
      obtain ⟨-, hrest⟩ := List.cons.inj hwords
      exact ⟨(List.cons.inj hrest).1.symm, hbefore, hpending⟩
    | some name =>
      exfalso
      rw [hpending, itemsOf, itemsOf] at hwords
      have hstep : itemStep options (some name) publishCommand =
          ([.option name (some publishCommand)], none) := rfl
      rw [hstep, itemStep_word hplain] at hwords
      exact hne (List.cons.inj hwords).1
  · rintro ⟨rfl, hlead⟩
    refine ⟨aptlyWords options rest, ?_⟩
    rw [aptlyWords, harguments, aptlyItems_publish hlead hsub, filterMap_append, hlead.1]
    rfl

/-- The option with the configuration changes no command word. -/
theorem itemStep_config (signer : Signer) :
    itemStep options none ('-' :: (configName ++ '=' :: signer.config)) =
      ([.option configName (some signer.config)], none) :=
  itemStep_value ((optionOf_value_iff optionName_config).mpr (.inl rfl))

theorem publishes_config (signer : Signer) :
    Publishes options (('-' :: (configName ++ '=' :: signer.config)) :: arguments) sub ↔
      Publishes options arguments sub := by
  unfold Publishes aptlyWords
  rw [aptlyItems_cons (itemStep_config signer)]
  rfl

/-! ## The arguments that are added -/

/-- The options which the wrapper adds after the subcommand. -/
def inserted (signer : Signer) (arguments : List Argument) (sub : Argument) : List Argument :=
  (if sub ∈ hashedCommands ∧ ¬arguments.any (givesOption acquireByHash) then ['-' :: acquireByHash]
    else []) ++
    if sub ∈ signedCommands ∧ configuredKeys arguments = some [] then [keyArgument signer] else []

/-- The checks of the wrapper on the arguments of a signed publication. -/
structure Accepted (signer : Signer) (arguments : List Argument) (sub : Argument) : Prop where
  signs : ∀ argument ∈ arguments, givesOption skipSigning argument = false
  keys : ∃ keys, configuredKeys arguments = some keys ∧
    ∀ key ∈ keys, signer.upper key = signer.signingKey
  flags : sub ∈ hashedCommands → ∀ argument ∈ arguments,
    givesOption acquireByHash argument = true → argument ∈ acquireFlags

/-- Without a signed publication the arguments stay as they are. -/
theorem managedArguments_other (signer : Signer) (available : Bool)
    (h : ∀ before sub rest, FirstPublish arguments before sub rest → sub ∉ signedCommands) :
    managedArguments signer available arguments = some arguments := by
  unfold managedArguments
  cases hsplit : splitPublish arguments with
  | none => rfl
  | some parts =>
    obtain ⟨before, after⟩ := parts
    cases after with
    | nil => rfl
    | cons sub rest => exact if_neg (h before sub rest (splitPublish_eq_some_iff.mp hsplit))

variable {signer : Signer}

/-- The flags of the arguments are those of the vector with the key. -/
theorem filter_acquire (hfirst : FirstPublish arguments before sub rest) (keyed : Prop)
    [Decidable keyed] :
    (before ++ publishCommand :: sub :: if keyed then keyArgument signer :: rest else rest).filter
      (givesOption acquireByHash) = arguments.filter (givesOption acquireByHash) := by
  rw [hfirst.1]
  split
  · simp [filter_append, filter_cons, givesOption_keyArgument signer]
  · rfl

variable {available : Bool}

/-- A signed publication is accepted with the options that are missing, or refused. -/
theorem managedArguments_signed (hfirst : FirstPublish arguments before sub rest)
    (hsub : sub ∈ signedCommands) {managed : List Argument} :
    managedArguments signer available arguments = some managed ↔
      available = true ∧ Accepted signer arguments sub ∧
        managed = before ++ publishCommand :: sub :: (inserted signer arguments sub ++ rest) := by
  have hsplit : splitPublish arguments = some (before, sub :: rest) :=
    splitPublish_eq_some_iff.mpr hfirst
  simp only [managedArguments, hsplit, if_pos hsub, Option.bind_eq_bind, Option.bind_eq_some_iff,
    Option.guard_eq_some', filter_acquire hfirst]
  have hskip : ¬(arguments.any (givesOption skipSigning) = true) ↔
      ∀ argument ∈ arguments, givesOption skipSigning argument = false := by
    simp [any_eq_true]
  have hflags : ((arguments.filter (givesOption acquireByHash)).all (· ∈ acquireFlags)) = true ↔
      ∀ argument ∈ arguments, givesOption acquireByHash argument = true →
        argument ∈ acquireFlags := by
    simp only [all_eq_true, mem_filter, decide_eq_true_eq, and_imp]
  have hempty : arguments.filter (givesOption acquireByHash) = [] ↔
      ¬(arguments.any (givesOption acquireByHash) = true) := by
    simp [filter_eq_nil_iff, any_eq_true]
  have hinserted (keys : List (List Char)) (hkeys : configuredKeys arguments = some keys) :
      inserted signer arguments sub ++ rest =
        (if sub ∈ hashedCommands ∧ ¬arguments.any (givesOption acquireByHash) then
          ['-' :: acquireByHash] else []) ++
          (if keys = [] then keyArgument signer :: rest else rest) := by
    unfold inserted
    rw [hkeys]
    by_cases hnone : keys = []
    · simp [hnone, hsub]
    · simp [hnone]
  have hadded (h : sub ∈ hashedCommands ∧ ¬arguments.any (givesOption acquireByHash) = true) :
      (if sub ∈ hashedCommands ∧ ¬arguments.any (givesOption acquireByHash) then
        ['-' :: acquireByHash] else []) = ['-' :: acquireByHash] := if_pos h
  have hkept (h : ¬(sub ∈ hashedCommands ∧ ¬arguments.any (givesOption acquireByHash) = true)) :
      (if sub ∈ hashedCommands ∧ ¬arguments.any (givesOption acquireByHash) then
        ['-' :: acquireByHash] else []) = [] := if_neg h
  constructor
  · rintro ⟨_, hnoskip, keys, hkeys, _, hall, _, havailable, h⟩
    have hkey : ∀ key ∈ keys, signer.upper key = signer.signingKey := by
      simpa [all_eq_true] using hall
    refine ⟨havailable, ?_⟩
    rw [hinserted keys hkeys]
    split at h
    · rename_i hhashed
      simp only [Option.bind_eq_some_iff, Option.guard_eq_some'] at h
      obtain ⟨_, hallowed, h⟩ := h
      refine ⟨⟨hskip.mp hnoskip, ⟨keys, hkeys, hkey⟩, fun _ => hflags.mp hallowed⟩, ?_⟩
      split at h
      · rename_i hnone
        cases h
        rw [hadded ⟨hhashed, hempty.mp hnone⟩]
        rfl
      · rename_i hsome
        cases h
        rw [hkept fun hboth => hsome (hempty.mpr hboth.2)]
        rfl
    · rename_i hhashed
      cases h
      refine ⟨⟨hskip.mp hnoskip, ⟨keys, hkeys, hkey⟩, fun h => absurd h hhashed⟩, ?_⟩
      rw [hkept fun hboth => hhashed hboth.1]
      rfl
  · rintro ⟨havailable, ⟨hnoskip, ⟨keys, hkeys, hkey⟩, hallowed⟩, hmanaged⟩
    have hall : (keys.all fun key => signer.upper key == signer.signingKey) = true := by
      simpa [all_eq_true] using hkey
    refine ⟨(), hskip.mpr hnoskip, keys, hkeys, (), hall, (), havailable, ?_⟩
    rw [hmanaged, hinserted keys hkeys]
    split
    · rename_i hhashed
      simp only [Option.bind_eq_some_iff, Option.guard_eq_some']
      refine ⟨(), hflags.mpr (hallowed hhashed), ?_⟩
      split
      · rename_i hnone
        rw [hadded ⟨hhashed, hempty.mp hnone⟩]
        rfl
      · rename_i hsome
        rw [hkept fun hboth => hsome (hempty.mpr hboth.2)]
        rfl
    · rename_i hhashed
      rw [hkept fun hboth => hhashed hboth.1]
      rfl

/-! ## The executed vector -/

/-- The arguments of Aptly for a publication. -/
def executedArguments (signer : Signer) (arguments before : List Argument) (sub : Argument)
    (rest : List Argument) : List Argument :=
  ('-' :: (configName ++ '=' :: signer.config)) ::
    (before ++ publishCommand :: sub :: (inserted signer arguments sub ++ rest))

theorem mem_inserted_items {item : Item} :
    item ∈ aptlyItems options (inserted signer arguments sub ++ rest) ↔
      (sub ∈ hashedCommands ∧ ¬arguments.any (givesOption acquireByHash) = true ∧
        item = .option acquireByHash none) ∨
      (sub ∈ signedCommands ∧ configuredKeys arguments = some [] ∧
        item = .option gpgKey (some signer.signingKey)) ∨
      item ∈ aptlyItems options rest := by
  have hkey (others : List Argument) : aptlyItems options (keyArgument signer :: others) =
      .option gpgKey (some signer.signingKey) :: aptlyItems options others :=
    aptlyItems_cons (itemStep_value (optionOf_keyArgument signer)) others
  have hhash (others : List Argument) : aptlyItems options (('-' :: acquireByHash) :: others) =
      .option acquireByHash none :: aptlyItems options others :=
    aptlyItems_cons itemStep_acquire others
  unfold inserted
  by_cases hadded : sub ∈ hashedCommands ∧ ¬arguments.any (givesOption acquireByHash) = true
  · rw [if_pos hadded, append_assoc, singleton_append, hhash, mem_cons]
    by_cases hkeyed : sub ∈ signedCommands ∧ configuredKeys arguments = some []
    · rw [if_pos hkeyed, singleton_append, hkey, mem_cons]
      simp only [hadded, hkeyed, Bool.false_eq_true, not_false_eq_true, true_and]
    · rw [if_neg hkeyed, nil_append]
      simp only [← and_assoc, hadded, hkeyed, Bool.false_eq_true, not_false_eq_true, true_and,
        false_and, false_or]
  · rw [if_neg hadded, nil_append]
    by_cases hkeyed : sub ∈ signedCommands ∧ configuredKeys arguments = some []
    · rw [if_pos hkeyed, singleton_append, hkey, mem_cons]
      simp only [← and_assoc, hadded, hkeyed, true_and, false_and, false_or]
    · rw [if_neg hkeyed, nil_append]
      simp only [← and_assoc, hadded, hkeyed, false_and, false_or]

/-- The options of the executed vector are those of the arguments and those that are added. -/
theorem mem_executed_items (signer : Signer) (hfirst : FirstPublish arguments before sub rest)
    (hsub : sub ∈ remoteCommands) (hlead : Leads options before) (value : Option (List Char))
    (hname : name ≠ configName) :
    Item.option name value ∈
        aptlyItems options (executedArguments signer arguments before sub rest) ↔
      (sub ∈ hashedCommands ∧ ¬arguments.any (givesOption acquireByHash) = true ∧
        name = acquireByHash ∧ value = none) ∨
      (sub ∈ signedCommands ∧ configuredKeys arguments = some [] ∧
        name = gpgKey ∧ value = some signer.signingKey) ∨
      Item.option name value ∈ aptlyItems options arguments := by
  have harguments := hfirst.1
  unfold executedArguments
  rw [aptlyItems_cons (itemStep_config signer), aptlyItems_publish hlead hsub]
  nth_rewrite 4 [harguments]
  rw [aptlyItems_publish hlead hsub]
  simp only [mem_cons, mem_append, mem_inserted_items, Item.option.injEq, hname,
    false_and, false_or, reduceCtorEq]
  rw [or_left_comm]
  exact or_congr_right or_left_comm

/-- An option that Aptly sees is given in one of the wrapper's forms. -/
theorem gives_of_item (hname : OptionName name)
    (h : Item.option name value ∈ aptlyItems options arguments) :
    ∃ argument ∈ arguments, givesOption name argument = true := by
  obtain ⟨argument, hargument, own, hown, -⟩ := given_of_item h
  exact ⟨argument, hargument, (givesOption_iff hname).mpr ⟨own, hown⟩⟩

/-- A signing key of the arguments is the managed one when the wrapper accepts them. -/
theorem Accepted.key_of_item (h : Accepted signer arguments sub) (hne : arguments ≠ [])
    (hitem : Item.option gpgKey value ∈ aptlyItems options arguments) :
    ∃ key, value = some key ∧ signer.upper key = signer.signingKey := by
  obtain ⟨keys, hkeys, hmanaged⟩ := h.keys
  rcases mem_append.mp hitem with hitem | hlast
  · rcases Aptly.key_of_item hkeys hitem with ⟨key, hkey, hvalue⟩ | ⟨hpending, -⟩
    · exact ⟨key, hvalue, hmanaged key hkey⟩
    · cases hpending
  · rw [Option.mem_toList] at hlast
    obtain ⟨waiting, hwaiting, heq⟩ := Option.map_eq_some_iff.mp hlast
    obtain ⟨rfl, -⟩ := Item.option.inj heq
    exact absurd (pendingOf_ne_gpgKey hkeys hwaiting) hne

/-- An index by hash of the arguments is switched on when the wrapper accepts them. -/
theorem Accepted.hash_of_item (h : Accepted signer arguments sub) (hsub : sub ∈ hashedCommands)
    (hitem : Item.option acquireByHash value ∈ aptlyItems options arguments) :
    value = none ∨ value = some "true".toList := by
  obtain ⟨argument, hargument, own, hown, hvalue⟩ := given_of_item hitem
  have hflag := h.flags hsub argument hargument
    ((givesOption_iff optionName_acquireByHash).mpr ⟨own, hown⟩)
  have hallowed : ∀ argument ∈ acquireFlags, optionOf argument = some (acquireByHash, none) ∨
      optionOf argument = some (acquireByHash, some "true".toList) := by
    decide
  have hsame : own = value := by
    rcases hvalue with htakes | hsame
    · rw [options.acquireByHash_bare] at htakes
      cases htakes
    · exact hsame
  subst hsame
  rcases hallowed argument hflag with hbare | htrue
  · rw [hbare] at hown
    exact .inl (Prod.mk.inj (Option.some.inj hown)).2.symm
  · rw [htrue] at hown
    exact .inr (Prod.mk.inj (Option.some.inj hown)).2.symm

/-- A plain publication that the wrapper accepts is signed. -/
theorem Accepted.signsManaged (h : Accepted signer arguments sub)
    (hfirst : FirstPublish arguments before sub rest) (hsub : sub ∈ signedCommands)
    (hlead : Leads options before)
    (hkey : (∃ argument ∈ arguments, givesOption gpgKey argument = true) →
      ∃ value, Item.option gpgKey value ∈ aptlyItems options arguments)
    (hhash : sub ∈ hashedCommands →
      (∃ argument ∈ arguments, givesOption acquireByHash argument = true) →
      ∃ value, Item.option acquireByHash value ∈ aptlyItems options arguments) :
    SignsManaged options signer (executedArguments signer arguments before sub rest) sub := by
  have hitems {name : List Char} {value : Option (List Char)} (hname : name ≠ configName) :=
    mem_executed_items signer hfirst (remote_of_signed hsub) hlead value hname
  have hne : arguments ≠ [] := by
    rw [hfirst.1]
    simp
  constructor
  · obtain ⟨keys, hkeys, -⟩ := h.keys
    by_cases hempty : keys = []
    · subst hempty
      exact ⟨signer.signingKey,
        (hitems (by decide)).mpr (.inr (.inl ⟨hsub, hkeys, rfl, rfl⟩))⟩
    · have hgiven := not_not.mp (mt (configuredKeys_nil_iff hkeys).mpr hempty)
      obtain ⟨value, hitem⟩ := hkey hgiven
      obtain ⟨key, rfl, -⟩ := h.key_of_item hne hitem
      exact ⟨key, (hitems (by decide)).mpr (.inr (.inr hitem))⟩
  · intro value hitem
    rcases (hitems (by decide)).mp hitem with ⟨-, -, hname, -⟩ | ⟨-, -, -, rfl⟩ | hitem
    · exact absurd hname (by decide)
    · exact ⟨signer.signingKey, rfl, signer.upper_key⟩
    · exact h.key_of_item hne hitem
  · intro value hitem
    rcases (hitems (by decide)).mp hitem with ⟨-, -, hname, -⟩ | ⟨-, -, hname, -⟩ | hitem
    · exact absurd hname (by decide)
    · exact absurd hname (by decide)
    · obtain ⟨argument, hargument, hgives⟩ := gives_of_item optionName_skipSigning hitem
      rw [h.signs argument hargument] at hgives
      cases hgives
  · intro hhashed
    by_cases hgiven : arguments.any (givesOption acquireByHash) = true
    · obtain ⟨argument, hargument, hgives⟩ := any_eq_true.mp hgiven
      obtain ⟨value, hitem⟩ := hhash hhashed ⟨argument, hargument, hgives⟩
      exact ⟨value, (hitems (by decide)).mpr (.inr (.inr hitem))⟩
    · exact ⟨none, (hitems (by decide)).mpr (.inl ⟨hhashed, hgiven, rfl, rfl⟩)⟩
  · intro hhashed value hitem
    rcases (hitems (by decide)).mp hitem with ⟨-, -, -, rfl⟩ | ⟨-, -, hname, -⟩ | hitem
    · exact .inl rfl
    · exact absurd hname (by decide)
    · exact h.hash_of_item hhashed hitem

/-! ## The theorem -/

theorem runAptly_eq_some_iff {admitted : Bool} {executed : List Argument} {credentials : Bool} :
    runAptly signer available admitted arguments = some (executed, credentials) ↔
      (∀ argument ∈ arguments, givesOption configName argument = false) ∧ admitted = true ∧
      ∃ managed, managedArguments signer available arguments = some managed ∧
        executed = ('-' :: (configName ++ '=' :: signer.config)) :: managed ∧
        credentials = publishMutatesRemote managed := by
  have hconfig : ¬(arguments.any (givesOption configName) = true) ↔
      ∀ argument ∈ arguments, givesOption configName argument = false := by
    simp [any_eq_true]
  simp only [runAptly, Option.bind_eq_bind, Option.bind_eq_some_iff, Option.guard_eq_some', hconfig]
  constructor
  · rintro ⟨_, hno, managed, hmanaged, _, hadmitted, h⟩
    cases h
    exact ⟨hno, hadmitted, managed, hmanaged, rfl, rfl⟩
  · rintro ⟨hno, hadmitted, managed, hmanaged, rfl, rfl⟩
    exact ⟨(), hno, managed, hmanaged, (), hadmitted, rfl⟩

theorem publishMutatesRemote_iff :
    publishMutatesRemote arguments = true ↔
      ∃ before sub rest, FirstPublish arguments before sub rest ∧ sub ∈ remoteCommands := by
  unfold publishMutatesRemote
  constructor
  · intro h
    split at h
    · rename_i before sub rest hsplit
      exact ⟨before, sub, rest, splitPublish_eq_some_iff.mp hsplit, by simpa using h⟩
    · cases h
  · rintro ⟨before, sub, rest, hfirst, hsub⟩
    rw [splitPublish_eq_some_iff.mpr hfirst]
    simpa using hsub

/-- There is one first `publish`. -/
theorem FirstPublish.unique {other more : List Argument} {next : Argument}
    (h : FirstPublish arguments before sub rest) (hother : FirstPublish arguments other next more) :
    before = other ∧ sub = next ∧ rest = more := by
  have hfirst := splitPublish_eq_some_iff.mpr h
  rw [splitPublish_eq_some_iff.mpr hother] at hfirst
  obtain ⟨rfl, hrest⟩ := Prod.mk.inj (Option.some.inj hfirst)
  obtain ⟨rfl, rfl⟩ := List.cons.inj hrest
  exact ⟨rfl, rfl, rfl⟩

/-- No other subcommand can be the one that is signed. -/
theorem FirstPublish.not_signed (h : FirstPublish arguments before sub rest)
    (hsub : sub ∉ signedCommands) :
    ∀ other next more, FirstPublish arguments other next more → next ∉ signedCommands := by
  intro other next more hnext
  obtain ⟨-, rfl, -⟩ := h.unique hnext
  exact hsub

/-- The vector of a publication, when it is executed. -/
theorem managedArguments_publish {managed : List Argument}
    (hfirst : FirstPublish arguments before sub rest)
    (h : managedArguments signer available arguments = some managed) :
    managed = before ++ publishCommand :: sub :: (inserted signer arguments sub ++ rest) ∧
      (sub ∈ signedCommands → Accepted signer arguments sub) := by
  by_cases hsub : sub ∈ signedCommands
  · obtain ⟨-, haccepted, hmanaged⟩ := (managedArguments_signed hfirst hsub).mp h
    exact ⟨hmanaged, fun _ => haccepted⟩
  · rw [managedArguments_other signer available (hfirst.not_signed hsub)] at h
    cases h
    have hnone : inserted signer arguments sub = [] := by
      unfold inserted
      rw [if_neg fun hboth => hsub (signed_of_hashed hboth.1), if_neg fun hboth => hsub hboth.1]
      rfl
    rw [hnone]
    exact ⟨hfirst.1, fun hsigned => absurd hsigned hsub⟩

theorem accepted_of_not_refused (h : ¬Refused signer arguments)
    (hfirst : FirstPublish arguments before sub rest) (hsub : sub ∈ signedCommands) :
    Accepted signer arguments sub := by
  have hchecks : ¬((∃ argument ∈ arguments, givesOption skipSigning argument = true) ∨
      configuredKeys arguments = none ∨
      (∃ keys, configuredKeys arguments = some keys ∧
        ∃ key ∈ keys, signer.upper key ≠ signer.signingKey) ∨
      (sub ∈ hashedCommands ∧ ∃ argument ∈ arguments, givesOption acquireByHash argument = true ∧
        argument ∉ acquireFlags)) :=
    fun hcheck => h (.inr ⟨before, sub, rest, hfirst, hsub, hcheck⟩)
  push Not at hchecks
  obtain ⟨hskip, hkeys, hmanaged, hflags⟩ := hchecks
  obtain ⟨keys, hsome⟩ := Option.ne_none_iff_exists'.mp hkeys
  constructor
  · intro argument hargument
    simpa using hskip argument hargument
  · exact ⟨keys, hsome, hmanaged keys hsome⟩
  · exact hflags

theorem config_of_not_refused (h : ¬Refused signer arguments) :
    ∀ argument ∈ arguments, givesOption configName argument = false := by
  intro argument hargument
  cases hgiven : givesOption configName argument with
  | false => rfl
  | true => exact absurd (.inl ⟨argument, hargument, hgiven⟩) h

/-- A vector that is not refused is executed when nothing else stands in the way. -/
theorem runs_of_not_refused (h : ¬Refused signer arguments)
    (hfirst : FirstPublish arguments before sub rest) (hsub : sub ∈ remoteCommands) :
    runAptly signer true true arguments =
      some (executedArguments signer arguments before sub rest, true) := by
  have hmanaged : managedArguments signer true arguments =
      some (before ++ publishCommand :: sub :: (inserted signer arguments sub ++ rest)) := by
    by_cases hsigned : sub ∈ signedCommands
    · exact (managedArguments_signed hfirst hsigned).mpr
        ⟨rfl, accepted_of_not_refused h hfirst hsigned, rfl⟩
    · have hsame := managedArguments_other signer true (hfirst.not_signed hsigned)
      rw [hsame, (managedArguments_publish hfirst hsame).1.symm]
  have hmutates : publishMutatesRemote
      (before ++ publishCommand :: sub :: (inserted signer arguments sub ++ rest)) = true :=
    publishMutatesRemote_iff.mpr ⟨before, sub, _, ⟨rfl, hfirst.2⟩, hsub⟩
  exact runAptly_eq_some_iff.mpr
    ⟨config_of_not_refused h, rfl, _, hmanaged, rfl, hmutates.symm⟩

/-- A publication that is not refused and keeps the promise is plain. -/
theorem NotBypassed.plain (h : NotBypassed options signer arguments)
    (hrefused : ¬Refused signer arguments) (hfirst : FirstPublish arguments before sub rest)
    (hsub : sub ∈ remoteCommands) : PlainPublication options arguments := by
  have hmanaged := h true true _ _ (runs_of_not_refused hrefused hfirst hsub)
  have hvector : FirstPublish
      (before ++ publishCommand :: sub :: (inserted signer arguments sub ++ rest)) before sub
      (inserted signer arguments sub ++ rest) := ⟨rfl, hfirst.2⟩
  obtain ⟨other, -, hother⟩ := hmanaged.credentials.mp rfl
  have hlead := ((publishes_iff hvector hsub).mp ((publishes_config signer).mp hother)).2
  have hpublishes := (publishes_config signer).mpr ((publishes_iff hvector hsub).mpr ⟨rfl, hlead⟩)
  refine ⟨before, sub, rest, hfirst, hsub, hlead, ?_, ?_⟩
  · intro hsigned hgiven
    obtain ⟨value, hitem⟩ := (hmanaged.signed sub hsigned hpublishes).key
    rcases (mem_executed_items signer hfirst hsub hlead _ (by decide)).mp hitem with
      ⟨-, -, hname, -⟩ | ⟨-, hkeys, -, -⟩ | hitem
    · exact absurd hname (by decide)
    · exact absurd hgiven ((configuredKeys_nil_iff hkeys).mp rfl)
    · exact ⟨_, hitem⟩
  · intro hhashed hgiven
    obtain ⟨value, hitem⟩ :=
      (hmanaged.signed sub (signed_of_hashed hhashed) hpublishes).hashes hhashed
    rcases (mem_executed_items signer hfirst hsub hlead _ (by decide)).mp hitem with
      ⟨-, hnone, -, -⟩ | ⟨-, -, hname, -⟩ | hitem
    · exact absurd (any_eq_true.mpr hgiven) hnone
    · exact absurd hname (by decide)
    · exact ⟨_, hitem⟩

/-- Where the wrapper sees no publication there is none for Aptly either. -/
theorem NotBypassed.noPublication (h : NotBypassed options signer arguments)
    (hrefused : ¬Refused signer arguments)
    (hother : ∀ before sub rest, FirstPublish arguments before sub rest → sub ∉ remoteCommands) :
    NoPublication options arguments := by
  refine ⟨?_, hother⟩
  have hsame := managedArguments_other signer true
    fun before sub rest hfirst hsigned => hother before sub rest hfirst (remote_of_signed hsigned)
  have hcredentials : publishMutatesRemote arguments = false := by
    cases hmutates : publishMutatesRemote arguments with
    | false => rfl
    | true =>
      obtain ⟨before, sub, rest, hfirst, hsub⟩ := publishMutatesRemote_iff.mp hmutates
      exact absurd hsub (hother before sub rest hfirst)
  have hmanaged := h true true _ _
    (runAptly_eq_some_iff.mpr ⟨config_of_not_refused hrefused, rfl, arguments, hsame, rfl, rfl⟩)
  intro sub hsub hpublishes
  have hgets := hmanaged.credentials.mpr ⟨sub, hsub, (publishes_config signer).mpr hpublishes⟩
  rw [hcredentials] at hgets
  cases hgets

/-- What is executed was not refused. -/
theorem not_refused_of_managed {managed : List Argument}
    (hconfig : ∀ argument ∈ arguments, givesOption configName argument = false)
    (hmanaged : managedArguments signer available arguments = some managed) :
    ¬Refused signer arguments := by
  rintro (⟨argument, hargument, hgiven⟩ | ⟨before, sub, rest, hfirst, hsub, hchecks⟩)
  · rw [hconfig argument hargument] at hgiven
    cases hgiven
  · have haccepted := (managedArguments_publish hfirst hmanaged).2 hsub
    obtain ⟨keys, hkeys, hsame⟩ := haccepted.keys
    rcases hchecks with ⟨argument, hargument, hgiven⟩ | hnokeys |
      ⟨others, hothers, key, hkey, hwrong⟩ | ⟨hhashed, argument, hargument, hgiven, hflag⟩
    · rw [haccepted.signs argument hargument] at hgiven
      cases hgiven
    · rw [hkeys] at hnokeys
      cases hnokeys
    · rw [hkeys] at hothers
      cases hothers
      exact hwrong (hsame key hkey)
    · exact hflag (haccepted.flags hhashed argument hargument hgiven)

/-- Other arguments are executed as they are, without the credentials. -/
theorem NoPublication.managed (h : NoPublication options arguments) :
    Managed options signer (('-' :: (configName ++ '=' :: signer.config)) :: arguments)
      (publishMutatesRemote arguments) := by
  constructor
  · intro sub hsub hpublishes
    exact absurd ((publishes_config signer).mp hpublishes) (h.1 sub (remote_of_signed hsub))
  · constructor
    · intro hmutates
      obtain ⟨before, sub, rest, hfirst, hsub⟩ := publishMutatesRemote_iff.mp hmutates
      exact absurd hsub (h.2 before sub rest hfirst)
    · rintro ⟨sub, hsub, hpublishes⟩
      exact absurd ((publishes_config signer).mp hpublishes) (h.1 sub hsub)

/-- A plain publication is executed as the promise says. -/
theorem PlainPublication.managed {managed : List Argument} (h : PlainPublication options arguments)
    (hmanaged : managedArguments signer available arguments = some managed) :
    Managed options signer (('-' :: (configName ++ '=' :: signer.config)) :: managed)
      (publishMutatesRemote managed) := by
  obtain ⟨before, sub, rest, hfirst, hsub, hlead, hkey, hhash⟩ := h
  obtain ⟨rfl, haccepted⟩ := managedArguments_publish hfirst hmanaged
  have hvector : FirstPublish
      (before ++ publishCommand :: sub :: (inserted signer arguments sub ++ rest)) before sub
      (inserted signer arguments sub ++ rest) := ⟨rfl, hfirst.2⟩
  constructor
  · intro other hother hpublishes
    obtain ⟨rfl, -⟩ := (publishes_iff hvector hsub).mp ((publishes_config signer).mp hpublishes)
    exact (haccepted hother).signsManaged hfirst hother hlead (hkey hother) hhash
  · constructor
    · intro _
      exact ⟨sub, hsub, (publishes_config signer).mpr
        ((publishes_iff hvector hsub).mpr ⟨rfl, hlead⟩)⟩
    · intro _
      exact publishMutatesRemote_iff.mpr ⟨before, sub, _, hvector, hsub⟩

/-- The managed signing is kept exactly for the vectors which the wrapper refuses, which are
no publication for it and for Aptly, or whose command words are plain to both. -/
theorem managed_signing_kept_iff (options : AptlyOptions) (signer : Signer)
    (arguments : List Argument) :
    NotBypassed options signer arguments ↔
      Refused signer arguments ∨ NoPublication options arguments ∨
        PlainPublication options arguments := by
  constructor
  · intro h
    by_cases hrefused : Refused signer arguments
    · exact Or.inl hrefused
    · right
      by_cases hpublish : ∃ before sub rest, FirstPublish arguments before sub rest ∧
          sub ∈ remoteCommands
      · right
        obtain ⟨before, sub, rest, hfirst, hsub⟩ := hpublish
        exact h.plain hrefused hfirst hsub
      · left
        exact h.noPublication hrefused
          fun before sub rest hfirst hsub => hpublish ⟨before, sub, rest, hfirst, hsub⟩
  · intro h available admitted executed credentials hrun
    obtain ⟨hconfig, -, managed, hmanaged, rfl, rfl⟩ := runAptly_eq_some_iff.mp hrun
    rcases h with hrefused | hnone | hplain
    · exact absurd hrefused (not_refused_of_managed hconfig hmanaged)
    · rw [managedArguments_other signer available fun before sub rest hfirst hsigned =>
        hnone.2 before sub rest hfirst (remote_of_signed hsigned)] at hmanaged
      cases hmanaged
      exact hnone.managed
    · exact hplain.managed hmanaged

/-! ## An option between the command words -/

/-- Options of Aptly that take the next argument. -/
def valueOptions : AptlyOptions where
  takesValue name := name ∈ [gpgKey, configName, "distribution".toList, "component".toList]
  gpgKey_takes := by decide
  acquireByHash_bare := by decide

/-- A fingerprint with its configuration. -/
def hexSigner : Signer where
  config := "/etc/aptly.conf".toList
  signingKey := "0123456789ABCDEF".toList
  upper := List.map Char.toUpper
  upper_key := by decide

def unsignedPublish : List Argument := ["publish", "-skip-signing", "repo", "x"].map String.toList

/-- The option is the argument after `publish`: the vector is executed as it was given, and
Aptly publishes the repository without a signature. -/
theorem option_before_subcommand :
    ¬NotBypassed valueOptions hexSigner unsignedPublish := by
  intro h
  have hrun : runAptly hexSigner true true unsignedPublish =
      some (('-' :: (configName ++ '=' :: hexSigner.config)) :: unsignedPublish, false) := by
    decide
  have hpublishes : Publishes valueOptions
      (('-' :: (configName ++ '=' :: hexSigner.config)) :: unsignedPublish) "repo".toList :=
    ⟨["x".toList], by decide⟩
  have hsigned := (h true true _ _ hrun).signed _ (by decide) hpublishes
  exact hsigned.signs none (by decide)

end Preseed.Aptly
