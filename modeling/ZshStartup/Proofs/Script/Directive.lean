import ZshStartup.Proofs.Shell.Words
import ZshStartup.Script.Directive

/-! What the shell makes of a directive. Whatever the modifiers of a plugin contain, each of them stays
one word: its name with the text or number that it was given.
-/

namespace ZshStartup

open Shell (IsPlainWord Spells wordsFrom)

-----------------------------------------------------------------------------------------
-- Modifiers
-----------------------------------------------------------------------------------------

/-- Every modifier under the name that directives use, in the order in which they list them, with what
stands behind the name if the modifier takes effect. Text takes effect unless it is empty, a depth
unless it is zero, and a wait in any case, though one of zero seconds has nothing behind its name.
-/
def Ice.arguments (ice : Ice) : List (String × Option String) :=
  [
    ("from", ice.fromSite.filter (· ≠ "")),
    ("as", ice.asKind.filter (· ≠ "")),
    ("pick", ice.pick.filter (· ≠ "")),
    ("atinit", ice.atinit.filter (· ≠ "")),
    ("atload", ice.atload.filter (· ≠ "")),
    ("atclone", ice.atclone.filter (· ≠ "")),
    ("depth", (ice.depth.filter (· ≠ 0)).map fun revisions => toString revisions.toNat),
    ("blockf", if ice.blockf then some "" else none),
    ("compile", if ice.compile then some "" else none),
    ("wait", ice.wait.map fun seconds => if seconds = 0 then "" else toString seconds.toNat),
    ("lucid", if ice.lucid then some "" else none),
    ("light-mode", if ice.lightMode then some "" else none),
    ("if", ice.ifCondition.filter (· ≠ "")),
    ("has", ice.hasCommand.filter (· ≠ "")),
    ("on", ice.onCommand.filter (· ≠ "")),
    ("bindmap", ice.bindmap.filter (· ≠ "")),
    ("mv", ice.mv.filter (· ≠ "")),
    ("bpick", ice.bpick.filter (· ≠ "")),
    ("atpull", ice.atpull.filter (· ≠ ""))
  ]

/-- The words that the modifiers in effect amount to: a name and, directly behind it, its argument. -/
def Ice.words (ice : Ice) : List String :=
  ice.arguments.filterMap fun entry => entry.2.map (entry.1 ++ ·)

namespace Modifier

/-- A modifier that takes effect exactly if it has an argument, with a token that is read as its name
and that argument.
-/
def States (modifier : Option Modifier) (entry : String × Option String) : Prop :=
  Option.Rel (fun stated word => Spells stated.token word) modifier (entry.2.map (entry.1 ++ ·))

variable {name : String}

theorem states_text? (plain : IsPlainWord name) (value : Option String)
    : States (text? name value) (name, value.filter (· ≠ "")) := by
  simp only [States, text?, bne_eq, decide_not]
  cases value.filter fun text => !decide (text = "") with
  | none => exact .none
  | some text => exact .some (plain.spells.append_singleQuote text)

theorem states_flag? (plain : IsPlainWord name) (on : Bool)
    : States (flag? name on) (name, if on then some "" else none) := by
  cases on with
  | false => exact .none
  | true => exact .some (by simpa [token] using plain.spells)

theorem states_depth? (revisions : Option UInt64)
    : States (depth? revisions)
        ("depth", (revisions.filter (· ≠ 0)).map fun revisions => toString revisions.toNat) := by
  simp only [States, depth?, bne_eq, decide_not]
  cases revisions.filter fun number => !decide (number = 0) with
  | none => exact .none
  | some number =>
      have name : IsPlainWord "depth" := by decide
      have plain : IsPlainWord ("depth" ++ digits number) := by
        refine ⟨by simp, fun c member => ?_⟩
        rw [String.toList_append] at member
        rcases List.mem_append.mp member with letter | digit
        · exact name.2 c letter
        · have member : c ∈ Nat.toDigits 10 number.toNat := by simpa [digits] using digit
          exact Shell.isPlain_of_isDigit
            (Nat.isDigit_of_mem_toDigits (by decide) (by decide) member)
      exact .some plain.spells

theorem states_wait (seconds : Option UInt64)
    : States (seconds.map .wait)
        ("wait",
          seconds.map fun seconds => if seconds = 0 then "" else toString seconds.toNat) := by
  have plain : IsPlainWord "wait" := by decide
  cases seconds with
  | none => exact .none
  | some seconds =>
      refine .some ?_
      by_cases zero : seconds = 0
      · simpa [token, zero] using plain.spells
      · simpa [token, digits, zero] using plain.spells.append_singleQuote (digits seconds)

end Modifier

/-- The tokens of the modifiers are read as their words, one by one. -/
theorem Ice.forall₂_spells_tokens (ice : Ice) : List.Forall₂ Spells ice.tokens ice.words := by
  rw [tokens, List.forall₂_map_left_iff]
  refine List.rel_filterMap (R := Modifier.States) (fun _ _ states => states) ?_
  have text {name : String} (plain : IsPlainWord name) := Modifier.states_text? plain
  have switch {name : String} (plain : IsPlainWord name) := Modifier.states_flag? plain
  simp only [arguments, List.forall₂_cons]
  exact ⟨text (by decide) _, text (by decide) _, text (by decide) _, text (by decide) _,
    text (by decide) _, text (by decide) _, Modifier.states_depth? _, switch (by decide) _,
    switch (by decide) _, Modifier.states_wait _, switch (by decide) _, switch (by decide) _,
    text (by decide) _, text (by decide) _, text (by decide) _, text (by decide) _,
    text (by decide) _, text (by decide) _, text (by decide) _, .nil⟩

-----------------------------------------------------------------------------------------
-- Directives
-----------------------------------------------------------------------------------------

/-- What stands behind code ends the word under way and holds no other, since all of it is a comment. -/
theorem Script.exists_toList_withComment (code : String) {comment : Option String}
    (oneLine : ∀ text ∈ comment, '\n' ∉ text.toList)
    : ∃ behind,
        (withComment code comment).toList = code.toList ++ behind
        ∧ ∀ word, wordsFrom (.bare (some word)) behind = some [word] := by
  unfold withComment
  cases given : comment.filter (· != "") with
  | none => exact ⟨[], by simp, fun word => rfl⟩
  | some text =>
      have line : '\n' ∉ ' ' :: text.toList := by
        simpa using oneLine text (Option.filter_eq_some_iff.mp given).1
      have hidden : wordsFrom (.bare none) ('#' :: ' ' :: text.toList) = some [] := by
        simpa [wordsFrom, Shell.isSeparator] using Shell.wordsFrom_comment line
      refine ⟨' ' :: ' ' :: '#' :: ' ' :: text.toList, by simp, fun word => ?_⟩
      rw [Shell.wordsFrom_blank_cons, Shell.wordsFrom_blank_cons, hidden]
      rfl

/-- No modifier breaks out of its word. Whatever its modifiers contain, the line of a plugin consists of
the plugin manager's command, a word for each modifier in effect, and the plugin's name behind `for`.
-/
theorem Plugin.words_directive (plugin : Plugin) (named : IsPlainWord plugin.name)
    (oneLine : ∀ description ∈ plugin.description, '\n' ∉ description.toList)
    : Shell.words plugin.directive
      = some ("zinit" :: (plugin.ice.map Ice.words).getD [] ++ ["for", plugin.name]) := by
  have command : IsPlainWord "zinit" := by decide
  have joint : IsPlainWord "for" := by decide
  obtain ⟨tokens, stated⟩ : ∃ tokens, tokens = (plugin.ice.map Ice.tokens).getD [] := ⟨_, rfl⟩
  have modifiers : List.Forall₂ Spells tokens ((plugin.ice.map Ice.words).getD []) := by
    rw [stated]
    cases plugin.ice with
    | none => exact .nil
    | some ice => exact ice.forall₂_spells_tokens
  obtain ⟨behind, line, ends⟩ := Script.exists_toList_withComment
    ("zinit" ++ String.join (tokens.map (" " ++ ·)) ++ " for " ++ plugin.name) oneLine
  have shape
      : plugin.directive.toList
        = "zinit".toList
          ++ ((tokens ++ ["for"]).flatMap (' ' :: ·.toList)
            ++ ' ' :: (plugin.name.toList ++ behind)) := by
    rw [directive, ← stated, line]
    simp [List.flatMap_map]
  have read := Shell.wordsFrom_flatMap_blank (List.rel_append modifiers (.cons joint.spells .nil))
    "zinit".toList (plugin.name.toList ++ behind)
  rw [named.spells, ends] at read
  rw [Shell.words, shape, command.spells, read]
  simp

/-- A plugin with modifiers that quotes, backslashes, blanks, line feeds and signs of the shell could end
early, some that are empty or zero, and the largest depth.
-/
def Plugin.quotedSample : Plugin where
  name := "zsh-users/zsh-autosuggestions"
  description := some "it's a \"comment\" # still one"
  ice :=
    some
      {
        fromSite := some ""
        pick := some "'"
        atinit := some "'; rm -rf ~ #\\"
        atload := some "eval \"$(foo 'a b')\"\n\tdone\\'"
        depth := some 18446744073709551615
        blockf := true
        wait := some 0
        lightMode := true
        mv := some "ä -> 😀"
      }

theorem Plugin.words_directive_quotedSample
    : IsPlainWord quotedSample.name
      ∧ (∀ description ∈ quotedSample.description, '\n' ∉ description.toList)
      ∧ Shell.words quotedSample.directive
        = some
            [
              "zinit", "pick'", "atinit'; rm -rf ~ #\\",
              "atloadeval \"$(foo 'a b')\"\n\tdone\\'", "depth18446744073709551615", "blockf",
              "wait", "light-mode", "mvä -> 😀", "for", "zsh-users/zsh-autosuggestions"
            ] := by
  have named : IsPlainWord quotedSample.name := by decide
  have oneLine : ∀ description ∈ quotedSample.description, '\n' ∉ description.toList := by decide
  exact ⟨named, oneLine, (quotedSample.words_directive named oneLine).trans (by decide)⟩

end ZshStartup
