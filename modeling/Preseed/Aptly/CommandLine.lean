import Preseed.Texts.Fields

/-!
# The command line of Aptly

The managed `aptly` reads its arguments as texts: it looks for the first one that is
`publish` and for the forms of an option anywhere. Aptly itself takes the value of an option
from the next argument where the option has one, and its command words are the arguments
that are left.
-/

namespace Preseed.Aptly

open List

abbrev Argument := List Char

/-! ## Options -/

/-- The text after the dashes of an option. -/
def optionBody : Argument → Option (List Char)
  | '-' :: '-' :: body => if body = [] then none else some body
  | '-' :: body => if body = [] then none else some body
  | _ => none

/-- An option's name and the value that it has itself. -/
def optionOf (argument : Argument) : Option (List Char × Option (List Char)) :=
  (optionBody argument).map fun body =>
    (body.takeWhile (· ≠ '='),
      match body.dropWhile (· ≠ '=') with
      | [] => none
      | _ :: value => some value)

/-- A name of an option. -/
structure OptionName (name : List Char) : Prop where
  nonempty : name ≠ []
  noDash : name.head? ≠ some '-'
  noEquals : '=' ∉ name

variable {name : List Char}

theorem takeWhile_name (h : '=' ∉ name) (rest : List Char) :
    (name ++ '=' :: rest).takeWhile (· ≠ '=') = name ∧
      (name ++ '=' :: rest).dropWhile (· ≠ '=') = '=' :: rest := by
  induction name with
  | nil => exact ⟨rfl, rfl⟩
  | cons char name ih =>
    have hchar : char ≠ '=' := fun heq => h (heq ▸ mem_cons_self ..)
    obtain ⟨htake, hdrop⟩ := ih (not_mem_of_not_mem_cons h)
    rw [cons_append, takeWhile_cons_of_pos (by simpa using hchar),
      dropWhile_cons_of_pos (by simpa using hchar), htake, hdrop]
    exact ⟨rfl, rfl⟩

theorem takeWhile_whole (h : '=' ∉ name) :
    name.takeWhile (· ≠ '=') = name ∧ name.dropWhile (· ≠ '=') = [] := by
  induction name with
  | nil => exact ⟨rfl, rfl⟩
  | cons char name ih =>
    have hchar : char ≠ '=' := fun heq => h (heq ▸ mem_cons_self ..)
    obtain ⟨htake, hdrop⟩ := ih (not_mem_of_not_mem_cons h)
    rw [takeWhile_cons_of_pos (by simpa using hchar),
      dropWhile_cons_of_pos (by simpa using hchar), htake, hdrop]
    exact ⟨rfl, rfl⟩

/-- An option's body is what follows one or two dashes. -/
theorem optionBody_eq_some_iff {argument body : List Char} (hne : body ≠ [])
    (hdash : body.head? ≠ some '-') :
    optionBody argument = some body ↔ argument = '-' :: body ∨ argument = '-' :: '-' :: body := by
  constructor
  · intro h
    unfold optionBody at h
    split at h
    · split at h
      · cases h
      · cases h
        exact .inr rfl
    · split at h
      · cases h
      · cases h
        exact .inl rfl
    · cases h
  · obtain ⟨first, rest, rfl⟩ := exists_cons_of_ne_nil hne
    have hfirst : first ≠ '-' := by simpa using hdash
    rintro (rfl | rfl)
    · unfold optionBody
      split
      · rename_i body heq
        obtain ⟨rfl, -⟩ := List.cons.inj (List.cons.inj heq).2
        exact absurd rfl hfirst
      · rename_i body _ heq
        rw [← (List.cons.inj heq).2]
        exact if_neg (cons_ne_nil _ _)
      · rename_i hnot
        exact absurd rfl (hnot (first :: rest))
    · show (if first :: rest = [] then none else some (first :: rest)) = some (first :: rest)
      rw [if_neg (cons_ne_nil first rest)]

theorem optionOf_bare_iff {argument : List Char} (hname : OptionName name) :
    optionOf argument = some (name, none) ↔
      argument = '-' :: name ∨ argument = '-' :: '-' :: name := by
  rw [← optionBody_eq_some_iff hname.nonempty hname.noDash]
  constructor
  · intro h
    obtain ⟨body, hbody, hpair⟩ := Option.map_eq_some_iff.mp h
    obtain ⟨htake, hvalue⟩ := Prod.mk.inj hpair
    have hdrop : body.dropWhile (· ≠ '=') = [] := by
      cases hrest : body.dropWhile (· ≠ '=') with
      | nil => rfl
      | cons => rw [hrest] at hvalue; cases hvalue
    have hwhole : body = name := by
      rw [← takeWhile_append_dropWhile (p := (· ≠ '=')) (l := body), htake, hdrop,
        append_nil]
    rw [hbody, hwhole]
  · intro h
    obtain ⟨htake, hdrop⟩ := takeWhile_whole hname.noEquals
    rw [optionOf, h, Option.map_some, htake, hdrop]

theorem optionOf_value_iff {argument value : List Char} (hname : OptionName name) :
    optionOf argument = some (name, some value) ↔
      argument = '-' :: (name ++ '=' :: value) ∨
        argument = '-' :: '-' :: (name ++ '=' :: value) := by
  obtain ⟨first, others, rfl⟩ := exists_cons_of_ne_nil hname.nonempty
  rw [← optionBody_eq_some_iff (by simp) (by simpa using hname.noDash)]
  constructor
  · intro h
    obtain ⟨body, hbody, hpair⟩ := Option.map_eq_some_iff.mp h
    obtain ⟨htake, hvalue⟩ := Prod.mk.inj hpair
    rw [hbody]
    cases hrest : body.dropWhile (· ≠ '=') with
    | nil => rw [hrest] at hvalue; cases hvalue
    | cons char rest =>
      rw [hrest] at hvalue
      cases hvalue
      have hchar : char = '=' := by
        have hnot := head?_dropWhile_not (· ≠ '=') body
        rw [hrest] at hnot
        simpa using hnot
      rw [← takeWhile_append_dropWhile (p := (· ≠ '=')) (l := body), htake, hrest, hchar]
  · intro h
    obtain ⟨htake, hdrop⟩ := takeWhile_name hname.noEquals value
    rw [optionOf, h, Option.map_some, htake, hdrop]

/-! ## Aptly's arguments -/

def publishCommand : Argument := "publish".toList

def gpgKey : List Char := "gpg-key".toList

def skipSigning : List Char := "skip-signing".toList

def acquireByHash : List Char := "acquire-by-hash".toList

def configName : List Char := "config".toList

/-- What is known of Aptly's options: the signing key is a value, and the index by hash is
switched on by its name alone. -/
structure AptlyOptions where
  /-- Without a value of its own an option takes the next argument as one. -/
  takesValue : List Char → Bool
  gpgKey_takes : takesValue gpgKey = true
  acquireByHash_bare : takesValue acquireByHash = false

/-- What Aptly makes of an argument. -/
inductive Item
  | word (text : Argument)
  | option (name : List Char) (value : Option (List Char))
  deriving DecidableEq

def Item.word? : Item → Option Argument
  | .word text => some text
  | .option .. => none

variable (options : AptlyOptions)

/-- One argument, after an option that waits for its value. -/
def itemStep (pending : Option (List Char)) (argument : Argument) :
    List Item × Option (List Char) :=
  match pending with
  | some name => ([.option name (some argument)], none)
  | none =>
      match optionOf argument with
      | none => ([.word argument], none)
      | some (name, some value) => ([.option name (some value)], none)
      | some (name, none) =>
          if options.takesValue name then ([], some name) else ([.option name none], none)

/-- The items of the arguments that are complete. -/
def itemsOf : Option (List Char) → List Argument → List Item
  | _, [] => []
  | pending, argument :: rest =>
      (itemStep options pending argument).1 ++ itemsOf (itemStep options pending argument).2 rest

/-- The option that waits for its value after the arguments. -/
def pendingOf : Option (List Char) → List Argument → Option (List Char)
  | pending, [] => pending
  | pending, argument :: rest => pendingOf (itemStep options pending argument).2 rest

/-- What Aptly makes of its arguments. -/
def aptlyItems (arguments : List Argument) : List Item :=
  itemsOf options none arguments ++
    ((pendingOf options none arguments).map (Item.option · none)).toList

/-- The command words. -/
def aptlyWords (arguments : List Argument) : List Argument :=
  (aptlyItems options arguments).filterMap Item.word?

/-- Aptly takes the arguments as this subcommand of `publish`. -/
def Publishes (arguments : List Argument) (sub : Argument) : Prop :=
  ∃ rest, aptlyWords options arguments = publishCommand :: sub :: rest

variable {options}

theorem itemsOf_append (pending : Option (List Char)) (left right : List Argument) :
    itemsOf options pending (left ++ right) =
      itemsOf options pending left ++ itemsOf options (pendingOf options pending left) right := by
  induction left generalizing pending with
  | nil => rfl
  | cons argument left ih =>
    rw [cons_append, itemsOf, itemsOf, pendingOf, ih, append_assoc]

theorem pendingOf_append (pending : Option (List Char)) (left right : List Argument) :
    pendingOf options pending (left ++ right) =
      pendingOf options (pendingOf options pending left) right := by
  induction left generalizing pending with
  | nil => rfl
  | cons argument left ih =>
    rw [cons_append, pendingOf, pendingOf, ih]

variable {pending : Option (List Char)} {arguments : List Argument}

/-- A word is one of the arguments. -/
theorem mem_of_word {text : Argument}
    (h : Item.word text ∈ itemsOf options pending arguments) : text ∈ arguments := by
  induction arguments generalizing pending with
  | nil => cases h
  | cons argument arguments ih =>
    rw [itemsOf] at h
    rcases mem_append.mp h with hfirst | hrest
    · unfold itemStep at hfirst
      split at hfirst
      · simp at hfirst
      · split at hfirst
        · simp only [mem_singleton, Item.word.injEq] at hfirst
          rw [hfirst]
          exact mem_cons_self ..
        · simp at hfirst
        · split at hfirst
          · cases hfirst
          · simp at hfirst
    · exact mem_cons_of_mem _ (ih hrest)

/-- An argument that gives an option with this value, or waits for one. -/
def GivenBy (options : AptlyOptions) (arguments : List Argument) (name : List Char)
    (value : Option (List Char)) : Prop :=
  ∃ argument ∈ arguments, ∃ own, optionOf argument = some (name, own) ∧
    (options.takesValue name = true ∨ own = value)

variable {value : Option (List Char)}

theorem GivenBy.cons {argument : Argument} (h : GivenBy options arguments name value) :
    GivenBy options (argument :: arguments) name value := by
  obtain ⟨other, hother, hgiven⟩ := h
  exact ⟨other, mem_cons_of_mem _ hother, hgiven⟩

/-- An argument after which an option waits for its value. -/
theorem pending_of_step {argument : Argument}
    (h : (itemStep options pending argument).2 = some name) :
    optionOf argument = some (name, none) ∧ options.takesValue name = true := by
  unfold itemStep at h
  split at h
  · cases h
  · split at h
    · cases h
    · cases h
    · rename_i own hown
      split at h
      · rename_i htakes
        cases h
        exact ⟨hown, htakes⟩
      · cases h

/-- An option that is complete with an argument. -/
theorem option_of_step {argument : Argument}
    (h : Item.option name value ∈ (itemStep options pending argument).1) :
    (pending = some name ∧ value = some argument) ∨
      (optionOf argument = some (name, value) ∧
        (value = none → options.takesValue name = false)) := by
  unfold itemStep at h
  split at h
  · simp only [mem_singleton, Item.option.injEq] at h
    obtain ⟨rfl, rfl⟩ := h
    exact .inl ⟨rfl, rfl⟩
  · right
    split at h
    · simp at h
    · rename_i own hown
      simp only [mem_singleton, Item.option.injEq] at h
      obtain ⟨rfl, rfl⟩ := h
      exact ⟨hown, fun hnone => nomatch hnone⟩
    · rename_i own hown
      split at h
      · cases h
      · rename_i htakes
        simp only [mem_singleton, Item.option.injEq] at h
        obtain ⟨rfl, rfl⟩ := h
        exact ⟨hown, fun _ => by simpa using htakes⟩

/-- An option has its value in itself or from the argument after it. -/
theorem option_of_item (h : Item.option name value ∈ itemsOf options pending arguments) :
    pending = some name ∨ GivenBy options arguments name value := by
  induction arguments generalizing pending with
  | nil => cases h
  | cons argument arguments ih =>
    rw [itemsOf] at h
    rcases mem_append.mp h with hfirst | hrest
    · rcases option_of_step hfirst with ⟨hpending, -⟩ | ⟨hown, -⟩
      · exact .inl hpending
      · exact .inr ⟨argument, mem_cons_self .., _, hown, .inr rfl⟩
    · rcases ih hrest with hpending | hgiven
      · obtain ⟨hown, htakes⟩ := pending_of_step hpending
        exact .inr ⟨argument, mem_cons_self .., _, hown, .inl htakes⟩
      · exact .inr hgiven.cons

theorem option_of_pending (value : Option (List Char))
    (h : pendingOf options pending arguments = some name) :
    pending = some name ∨ GivenBy options arguments name value := by
  induction arguments generalizing pending with
  | nil => exact .inl h
  | cons argument arguments ih =>
    rcases ih h with hpending | hgiven
    · obtain ⟨hown, htakes⟩ := pending_of_step hpending
      exact .inr ⟨argument, mem_cons_self .., _, hown, .inl htakes⟩
    · exact .inr hgiven.cons

/-- Every option of Aptly is given by an argument. -/
theorem given_of_item (h : Item.option name value ∈ aptlyItems options arguments) :
    GivenBy options arguments name value := by
  rcases mem_append.mp h with hitem | hlast
  · rcases option_of_item hitem with hpending | hgiven
    · cases hpending
    · exact hgiven
  · rw [Option.mem_toList] at hlast
    obtain ⟨waiting, hwaiting, heq⟩ := Option.map_eq_some_iff.mp hlast
    obtain ⟨rfl, -⟩ := Item.option.inj heq
    rcases option_of_pending value hwaiting with hpending | hgiven
    · cases hpending
    · exact hgiven

end Preseed.Aptly
