import ZshStartup.Proofs.Configuration.Identity
import ZshStartup.Proofs.Script.Directive
import ZshStartup.Proofs.Shell.Evaluation

/-! What the tokens of a directive tell of the modifiers of a plugin. A token states one modifier only: the
name ends before the first quote or digit, and what follows gives back the text or number. So plugins have
the same tokens exactly if the same modifiers take effect.
-/

namespace ZshStartup

-----------------------------------------------------------------------------------------
-- Texts and numbers
-----------------------------------------------------------------------------------------

/-- Elements of one kind end where the first of another kind stands. -/
theorem takeWhile_append_of_head? {α : Type} {kind : α → Bool} {front back : List α}
    (all : ∀ a ∈ front, kind a = true) (ends : ∀ a ∈ back.head?, kind a = false)
    : (front ++ back).takeWhile kind = front := by
  rw [List.takeWhile_append_of_pos all]
  cases back with
  | nil => simp
  | cons a back => simp [ends a rfl]

namespace Modifier

theorem digits_injective : Function.Injective digits :=
  fun _ _ same => UInt64.toNat_inj.mp (Plugin.toString_nat_injective same)

-----------------------------------------------------------------------------------------
-- Tokens
-----------------------------------------------------------------------------------------

/-- The kinds of modifiers. -/
inductive Kind where
  | text
  | depth
  | wait
  | flag
deriving DecidableEq, Repr

def kind : Modifier → Kind
  | .text _ _ => .text
  | .depth _ => .depth
  | .wait _ => .wait
  | .flag _ => .flag

def name : Modifier → String
  | .text name _ => name
  | .depth _ => "depth"
  | .wait _ => "wait"
  | .flag name => name

/-- The text or number that a modifier has. -/
def argument : Modifier → String
  | .text _ value => value
  | .depth revisions => digits revisions
  | .wait seconds => if seconds = 0 then "" else digits seconds
  | .flag _ => ""

/-- What stands behind the name in a token. -/
def quotedArgument : Modifier → String
  | .text _ value => Shell.singleQuote value
  | .depth revisions => digits revisions
  | .wait seconds => if seconds = 0 then "" else Shell.singleQuote (digits seconds)
  | .flag _ => ""

/-- Every modifier that directives list, with its kind. -/
def kinds : List (String × Kind) :=
  [
    ("from", .text), ("as", .text), ("pick", .text), ("atinit", .text), ("atload", .text),
    ("atclone", .text), ("depth", .depth), ("blockf", .flag), ("compile", .flag), ("wait", .wait),
    ("lucid", .flag), ("light-mode", .flag), ("if", .text), ("has", .text), ("on", .text),
    ("bindmap", .text), ("mv", .text), ("bpick", .text), ("atpull", .text)
  ]

/-- A modifier that directives list under its name. -/
def Listed (modifier : Modifier) : Prop :=
  kinds.lookup modifier.name = some modifier.kind

/-- The characters that names consist of. -/
def isNameChar (c : Char) : Bool :=
  c ≠ '\'' && !c.isDigit

theorem token_eq (modifier : Modifier)
    : modifier.token = modifier.name ++ modifier.quotedArgument := by
  cases modifier with
  | text | depth => rfl
  | wait seconds =>
      simp only [token, name, quotedArgument]
      split <;> simp
  | flag => simp [token, name, quotedArgument]

variable {modifier other : Modifier}

theorem Listed.isNameChar_of_mem_name (listed : modifier.Listed)
    : ∀ c ∈ modifier.name.toList, isNameChar c = true := by
  have all : ∀ entry ∈ kinds, entry.1.toList.all isNameChar := by decide
  obtain ⟨before, after, split, -⟩ := List.lookup_eq_some_iff.mp listed
  exact List.all_eq_true.mp (all (modifier.name, modifier.kind) (by simp [split]))

/-- What stands behind a name does not continue it. -/
theorem isNameChar_of_mem_head? (modifier : Modifier)
    : ∀ c ∈ modifier.quotedArgument.toList.head?, isNameChar c = false := by
  have quoted (text : String)
      : ∀ c ∈ (Shell.singleQuote text).toList.head?, isNameChar c = false := by
    rw [Shell.singleQuote, String.toList_ofList]
    simp [Shell.quoteChars, isNameChar]
  cases modifier with
  | text _ value => exact quoted value
  | depth revisions =>
      intro c first
      have member : c ∈ Nat.toDigits 10 revisions.toNat := by
        simpa [quotedArgument, digits] using List.mem_of_mem_head? first
      simp [isNameChar, Nat.isDigit_of_mem_toDigits (by decide) (by decide) member]
  | wait seconds =>
      by_cases zero : seconds = 0
      · simp [quotedArgument, zero]
      · simpa [quotedArgument, zero] using quoted (digits seconds)
  | flag => simp [quotedArgument]

/-- Of one kind and name, a modifier is told by what stands behind the name. -/
theorem eq_of_quotedArgument_eq (kinds : modifier.kind = other.kind)
    (names : modifier.name = other.name)
    (arguments : modifier.quotedArgument = other.quotedArgument)
    : modifier = other := by
  cases modifier <;> cases other <;> simp only [kind, reduceCtorEq] at kinds
  case text value _ otherValue =>
    obtain rfl : value = otherValue := Shell.singleQuote_injective arguments
    exact congrArg (text · value) names
  case depth revisions otherRevisions =>
    obtain rfl : revisions = otherRevisions := digits_injective arguments
    rfl
  case wait seconds otherSeconds =>
    have quoted (text : String) : Shell.singleQuote text ≠ "" := by
      simp [Shell.singleQuote, Shell.quoteChars]
    by_cases zero : seconds = 0 <;> by_cases otherZero : otherSeconds = 0
    · rw [zero, otherZero]
    · simp [quotedArgument, zero, otherZero, (quoted _).symm] at arguments
    · simp [quotedArgument, zero, otherZero, quoted] at arguments
    · simp only [quotedArgument, zero, otherZero, if_false] at arguments
      exact congrArg wait (digits_injective (Shell.singleQuote_injective arguments))
  case flag => exact congrArg flag names

/-- A token states one modifier only. -/
theorem Listed.token_inj (listed : modifier.Listed) (otherListed : other.Listed)
    : modifier.token = other.token ↔ modifier = other := by
  refine ⟨fun same => ?_, congrArg token⟩
  rw [token_eq, token_eq] at same
  have chars := congrArg String.toList same
  rw [String.toList_append, String.toList_append] at chars
  have names : modifier.name = other.name := by
    have taken := congrArg (List.takeWhile isNameChar) chars
    rw [takeWhile_append_of_head? listed.isNameChar_of_mem_name (isNameChar_of_mem_head? modifier),
      takeWhile_append_of_head? otherListed.isNameChar_of_mem_name
        (isNameChar_of_mem_head? other)] at taken
    exact String.toList_injective taken
  have kinds : modifier.kind = other.kind := by
    rw [Listed, names, otherListed] at listed
    exact (Option.some.inj listed).symm
  rw [names] at chars
  have arguments := String.toList_injective (List.append_cancel_left chars)
  exact eq_of_quotedArgument_eq kinds names arguments

end Modifier

-----------------------------------------------------------------------------------------
-- Entries that are present
-----------------------------------------------------------------------------------------

section Present

variable {α κ : Type}

/-- The entries that are present, each with its key. -/
def present (entries : List (κ × Option α)) : List (κ × α) :=
  entries.filterMap fun entry => entry.2.map (entry.1, ·)

theorem map_fst_present_sublist (entries : List (κ × Option α))
    : ((present entries).map Prod.fst).Sublist (entries.map Prod.fst) := by
  induction entries with
  | nil => exact .slnil
  | cons entry entries ih =>
      obtain ⟨key, value⟩ := entry
      cases value with
      | none => exact ih.cons key
      | some value => exact ih.cons_cons key

/-- Where keys are distinct, entries are told by those that are present, by induction on the entries: of
two first ones with the same key, both are present or none, since no later one has the key.
-/
theorem present_inj {entries others : List (κ × Option α)}
    (keys : entries.map Prod.fst = others.map Prod.fst) (distinct : (entries.map Prod.fst).Nodup)
    : present entries = present others ↔ entries = others := by
  refine ⟨fun same => ?_, congrArg present⟩
  induction entries generalizing others with
  | nil => exact (List.map_eq_nil_iff.mp keys.symm).symm
  | cons entry entries ih =>
      obtain ⟨key, value⟩ := entry
      obtain ⟨⟨otherKey, otherValue⟩, others, rfl, first, rest⟩ :=
        List.map_eq_cons_iff.mp keys.symm
      obtain rfl : otherKey = key := first
      obtain ⟨new, later⟩ := List.nodup_cons.mp distinct
      have absent {tail : List (κ × Option α)} (keys : tail.map Prod.fst = entries.map Prod.fst)
          (value : α) (more : List (κ × α))
          : (otherKey, value) :: more ≠ present tail := by
        intro found
        have member : otherKey ∈ (present tail).map Prod.fst := by simp [← found]
        exact new (keys ▸ (map_fst_present_sublist tail).subset member)
      cases value with
      | none =>
          cases otherValue with
          | none => exact congrArg _ (ih rest.symm later same)
          | some other => exact absurd same.symm (absent rfl other _)
      | some value =>
          cases otherValue with
          | none => exact absurd same (absent rest value _)
          | some other =>
              obtain ⟨head, tails⟩ := List.cons.inj same
              obtain rfl : value = other := (Prod.mk.inj head).2
              exact congrArg _ (ih rest.symm later tails)

end Present

-----------------------------------------------------------------------------------------
-- Modifiers in effect
-----------------------------------------------------------------------------------------

namespace Modifier

/-- A modifier that takes effect exactly if it has an argument, and then under the name of the entry. -/
def Matches (modifier : Option Modifier) (entry : String × Option String) : Prop :=
  modifier.map (fun modifier => (modifier.name, modifier.argument)) = entry.2.map (entry.1, ·)
    ∧ ∀ stated ∈ modifier, stated.Listed

theorem matches_text? {name : String} (known : kinds.lookup name = some .text)
    (value : Option String)
    : Matches (text? name value) (name, value.filter (· ≠ "")) := by
  simp only [Matches, text?, bne_eq, decide_not]
  cases value.filter fun text => !decide (text = "") with
  | none => simp
  | some text =>
      refine ⟨rfl, ?_⟩
      rintro _ ⟨⟩
      exact known

theorem matches_flag? {name : String} (known : kinds.lookup name = some .flag) (on : Bool)
    : Matches (flag? name on) (name, if on then some "" else none) := by
  cases on with
  | false => simp [Matches, flag?]
  | true =>
      refine ⟨rfl, ?_⟩
      rintro _ ⟨⟩
      exact known

theorem matches_depth? (revisions : Option UInt64)
    : Matches (depth? revisions)
        ("depth", (revisions.filter (· ≠ 0)).map fun revisions => toString revisions.toNat) := by
  simp only [Matches, depth?, bne_eq, decide_not]
  cases revisions.filter fun number => !decide (number = 0) with
  | none => simp
  | some number =>
      refine ⟨rfl, ?_⟩
      rintro _ ⟨⟩
      rfl

theorem matches_wait (seconds : Option UInt64)
    : Matches (seconds.map .wait)
        ("wait",
          seconds.map fun seconds => if seconds = 0 then "" else toString seconds.toNat) := by
  cases seconds with
  | none => simp [Matches]
  | some seconds =>
      refine ⟨rfl, ?_⟩
      rintro _ ⟨⟩
      rfl

theorem stated_of_forall₂_matches {slots : List (Option Modifier)}
    {entries : List (String × Option String)} (all : List.Forall₂ Matches slots entries)
    : (slots.filterMap id).map (fun modifier => (modifier.name, modifier.argument))
          = present entries
      ∧ ∀ modifier ∈ slots.filterMap id, modifier.Listed := by
  induction all with
  | nil => simp [present]
  | @cons slot entry slots entries matched _ ih =>
      obtain ⟨stated, listed⟩ := matched
      unfold present at ih ⊢
      cases slot with
      | none => simpa [← stated] using ih
      | some modifier =>
          have first : modifier.Listed := listed modifier rfl
          simpa [← stated, first] using ih

end Modifier

namespace Ice

theorem forall₂_matches (ice : Ice)
    : ∃ slots,
        ice.modifiers = slots.filterMap id
        ∧ List.Forall₂ Modifier.Matches slots ice.arguments := by
  refine ⟨_, rfl, ?_⟩
  have text {name : String} (known : Modifier.kinds.lookup name = some .text) :=
    Modifier.matches_text? known
  have switch {name : String} (known : Modifier.kinds.lookup name = some .flag) :=
    Modifier.matches_flag? known
  simp only [arguments, List.forall₂_cons]
  exact ⟨text rfl _, text rfl _, text rfl _, text rfl _, text rfl _, text rfl _,
    Modifier.matches_depth? _, switch rfl _, switch rfl _, Modifier.matches_wait _, switch rfl _,
    switch rfl _, text rfl _, text rfl _, text rfl _, text rfl _, text rfl _, text rfl _,
    text rfl _, .nil⟩

theorem map_modifiers (ice : Ice)
    : ice.modifiers.map (fun modifier => (modifier.name, modifier.argument))
      = present ice.arguments := by
  obtain ⟨slots, eq, all⟩ := ice.forall₂_matches
  rw [eq]
  exact (Modifier.stated_of_forall₂_matches all).1

theorem listed_of_mem_modifiers (ice : Ice) : ∀ modifier ∈ ice.modifiers, modifier.Listed := by
  obtain ⟨slots, eq, all⟩ := ice.forall₂_matches
  rw [eq]
  exact (Modifier.stated_of_forall₂_matches all).2

/-- The modifiers without what has no effect: empty texts and a depth of zero count as absent. -/
def effective (ice : Ice) : Ice where
  fromSite := ice.fromSite.filter (· ≠ "")
  asKind := ice.asKind.filter (· ≠ "")
  pick := ice.pick.filter (· ≠ "")
  atinit := ice.atinit.filter (· ≠ "")
  atload := ice.atload.filter (· ≠ "")
  atclone := ice.atclone.filter (· ≠ "")
  depth := ice.depth.filter (· ≠ 0)
  blockf := ice.blockf
  compile := ice.compile
  wait := ice.wait
  lucid := ice.lucid
  lightMode := ice.lightMode
  ifCondition := ice.ifCondition.filter (· ≠ "")
  hasCommand := ice.hasCommand.filter (· ≠ "")
  onCommand := ice.onCommand.filter (· ≠ "")
  bindmap := ice.bindmap.filter (· ≠ "")
  mv := ice.mv.filter (· ≠ "")
  bpick := ice.bpick.filter (· ≠ "")
  atpull := ice.atpull.filter (· ≠ "")

/-- What has no effect is stated by no modifier. -/
theorem modifiers_effective (ice : Ice) : ice.effective.modifiers = ice.modifiers := by
  have text (name : String) (value : Option String)
      : Modifier.text? name (value.filter (· ≠ "")) = Modifier.text? name value := by
    cases value with
    | none => rfl
    | some value => by_cases empty : value = "" <;> simp [Modifier.text?, Option.filter, empty]
  have depth : Modifier.depth? (ice.depth.filter (· ≠ 0)) = Modifier.depth? ice.depth := by
    cases ice.depth with
    | none => rfl
    | some number => by_cases zero : number = 0 <;> simp [Modifier.depth?, Option.filter, zero]
  simp only [modifiers, effective, text, depth]

theorem arguments_eq_iff (ice other : Ice)
    : ice.arguments = other.arguments ↔ ice.effective = other.effective := by
  have switch (on other : Bool)
      : (if on then some "" else none) = (if other then some "" else none) ↔ on = other := by
    cases on <;> cases other <;> simp
  have revisions (number other : Option UInt64)
      : number.map (fun revisions => toString revisions.toNat)
            = other.map (fun revisions => toString revisions.toNat)
          ↔ number = other :=
    (Option.map_injective Modifier.digits_injective).eq_iff
  have seconds : Function.Injective fun seconds : UInt64 =>
      if seconds = 0 then "" else toString seconds.toNat := by
    intro number other same
    by_cases zero : number = 0 <;> by_cases otherZero : other = 0
    · rw [zero, otherZero]
    · simp [zero, otherZero] at same
    · simp [zero, otherZero] at same
    · simp only [zero, otherZero, if_false] at same
      exact Modifier.digits_injective same
  simp only [arguments, effective, List.cons.injEq, Prod.mk.injEq, true_and, and_true, Ice.mk.injEq,
    switch, revisions, (Option.map_injective seconds).eq_iff]

theorem map_fst_arguments (ice : Ice) : ice.arguments.map Prod.fst = Modifier.kinds.map Prod.fst :=
  rfl

theorem nodup_map_fst_arguments (ice : Ice) : (ice.arguments.map Prod.fst).Nodup := by
  rw [map_fst_arguments]
  decide

/-- The tokens of a directive lose nothing of the modifiers. Two bags of modifiers have the same tokens
exactly if they agree on every modifier, where an empty text and a depth of zero count as absent. A token
states one modifier only, so no text can pass for a switch, a number or another text. And there is one
token for each modifier in effect, in order.
-/
theorem tokens_eq_iff (ice other : Ice)
    : (ice.tokens = other.tokens ↔ ice.effective = other.effective)
      ∧ (∀ modifier ∈ ice.modifiers, ∀ stated ∈ other.modifiers,
          modifier.token = stated.token ↔ modifier = stated)
      ∧ ice.modifiers.map (fun modifier => (modifier.name, modifier.argument))
        = present ice.arguments
      ∧ (ice.modifiers.map Modifier.name).Nodup := by
  have unambiguous : ∀ modifier ∈ ice.modifiers, ∀ stated ∈ other.modifiers,
      modifier.token = stated.token ↔ modifier = stated := by
    intro modifier member stated otherMember
    exact (ice.listed_of_mem_modifiers modifier member).token_inj
      (other.listed_of_mem_modifiers stated otherMember)
  refine ⟨⟨fun same => ?_, fun same => ?_⟩, unambiguous, ice.map_modifiers, ?_⟩
  · have lengths : ice.modifiers.length = other.modifiers.length := by
      simpa [tokens] using congrArg List.length same
    have modifiers : ice.modifiers = other.modifiers := by
      refine List.ext_getElem lengths fun index within otherWithin => ?_
      refine (unambiguous _ (List.getElem_mem within) _ (List.getElem_mem otherWithin)).mp ?_
      have equal := congrArg (·[index]?) same
      simpa [tokens, within, otherWithin] using equal
    have keys : ice.arguments.map Prod.fst = other.arguments.map Prod.fst := rfl
    rw [← arguments_eq_iff, ← present_inj keys ice.nodup_map_fst_arguments, ← map_modifiers,
      ← map_modifiers, modifiers]
  · rw [tokens, tokens, ← ice.modifiers_effective, ← other.modifiers_effective, same]
  · have names : ice.modifiers.map Modifier.name = (present ice.arguments).map Prod.fst := by
      rw [← map_modifiers, List.map_map]
      rfl
    rw [names]
    exact ice.nodup_map_fst_arguments.sublist (map_fst_present_sublist ice.arguments)

end Ice

end ZshStartup
