import ZshStartup.Proofs.Script.Modifiers
import ZshStartup.Script.Section
import Mathlib.Algebra.GroupWithZero.Nat
import Mathlib.Data.List.TakeWhile

/-! The lines of a script. If no text that it shows has a line feed, every entry of a section takes one
line, so that the place of a line depends on nothing but the numbers of entries.
-/

namespace ZshStartup

-----------------------------------------------------------------------------------------
-- Lists of lines
-----------------------------------------------------------------------------------------

/-- A list among others, with what the separator puts around it. -/
theorem intercalate_append_cons {α : Type} (separator : List α) (before after : List (List α))
    (part : List α)
    : separator.intercalate (before ++ part :: after)
      = before.flatMap (· ++ separator) ++ part ++ after.flatMap (separator ++ ·) := by
  induction before with
  | nil =>
      induction after generalizing part with
      | nil => simp
      | cons next after ih => simp_all [List.intercalate_cons_cons]
  | cons first before ih =>
      rw [List.cons_append, List.intercalate_cons_of_ne_nil (by simp), ih]
      simp

theorem getElem?_append_append {α : Type} (before : List α) {entries : List α} (after : List α)
    {index : Nat} {entry : α} (listed : entries[index]? = some entry)
    : (before ++ entries ++ after)[before.length + index]? = some entry := by
  obtain ⟨within, -⟩ := List.getElem?_eq_some_iff.mp listed
  rw [List.append_assoc, List.getElem?_append_right (Nat.le_add_right _ _),
    Nat.add_sub_cancel_left, List.getElem?_append_left within, listed]

namespace Script

@[simp]
theorem unlines_append (lines more : List String)
    : unlines (lines ++ more) = unlines lines ++ unlines more := by
  simp [unlines]

@[simp]
theorem unlines_cons (line : String) (lines : List String)
    : unlines (line :: lines) = line ++ "\n" ++ unlines lines := by
  simp [unlines]

/-- Line feeds between texts of lines are empty lines between the lines. -/
theorem intercalate_unlines (parts : List (List String))
    : "\n".intercalate (parts.map unlines) = unlines ([""].intercalate parts) := by
  induction parts with
  | nil => rfl
  | cons part parts ih =>
      cases parts with
      | nil => simp
      | cons next parts =>
          rw [List.map_cons, List.map_cons, String.intercalate_cons_cons, ← List.map_cons, ih,
            List.intercalate_cons_cons]
          simp [String.append_assoc]

/-- What stands between the line feeds of a text. -/
def pieces (text : String) : List String :=
  (text.split '\n').toList.map String.Slice.copy

/-- A text without line feeds. -/
def SingleLine (text : String) : Prop :=
  '\n' ∉ text.toList

instance : DecidablePred SingleLine :=
  fun _ => inferInstanceAs (Decidable (_ ∉ _))

theorem pieces_append_newline (text rest : String)
    : pieces (text ++ "\n" ++ rest) = pieces text ++ pieces rest := by
  simp [pieces, String.toList_split_char, List.append_assoc, List.splitOn_append_cons_self]

theorem SingleLine.pieces_eq {text : String} (single : SingleLine text) : pieces text = [text] := by
  simp [pieces, String.toList_split_char, List.splitOn_eq_singleton single]

/-- Lines without line feeds are the pieces of their text. -/
theorem pieces_unlines_append {lines : List String} (single : ∀ line ∈ lines, SingleLine line)
    (rest : String)
    : pieces (unlines lines ++ rest) = lines ++ pieces rest := by
  induction lines with
  | nil => simp [unlines]
  | cons line lines ih =>
      obtain ⟨first, others⟩ := List.forall_mem_cons.mp single
      rw [unlines_cons, String.append_assoc, pieces_append_newline, first.pieces_eq, ih others]
      rfl

-----------------------------------------------------------------------------------------
-- Sections
-----------------------------------------------------------------------------------------

/-- The lines of a whole script. An empty one stands between sections. -/
def lines (config : Configuration) : List String :=
  [""].intercalate (Section.order.map fun part => part.lines config)

theorem render_eq_unlines (config : Configuration) : config.render = unlines (lines config) := by
  rw [lines, ← intercalate_unlines, List.map_map]
  rfl

namespace Section

/-- The banner of a section, if it has one. -/
def heading (part : Section) : List String :=
  (part.title.map banner).getD []

/-- The lines above the entries of a section. -/
def above (config : Configuration) (part : Section) : List String :=
  (order.takeWhile (· ≠ part)).flatMap (fun earlier => earlier.lines config ++ [""]) ++ part.heading

/-- The lines below the entries of a section. -/
def below (config : Configuration) (part : Section) : List String :=
  (order.dropWhile (· ≠ part)).tail.flatMap fun later => "" :: later.lines config

theorem lines_eq_append (config : Configuration) (part : Section)
    : Script.lines config = part.above config ++ part.entries config ++ part.below config := by
  have split : order.takeWhile (· ≠ part) ++ part :: (order.dropWhile (· ≠ part)).tail = order := by
    cases part <;> rfl
  have parts := congrArg (List.map fun part => lines part config) split
  rw [List.map_append, List.map_cons] at parts
  rw [Script.lines, ← parts, intercalate_append_cons]
  simp only [above, below, lines, heading, List.flatMap_map, List.append_assoc]
  rfl

/-- The numbers of entries of the sections, which lists alone decide. -/
def count (config : Configuration) : Section → Nat
  | .boot => 18
  | .envVars => config.envVars.length
  | .path => config.pathEntries.length
  | .aliases => config.aliases.length
  | .options => config.options.length
  | .plugins => config.plugins.length
  | .initScript => 1

/-- The number of lines above the entries of a section, from the numbers of entries. -/
def offset (counts : Section → Nat) (part : Section) : Nat :=
  ((order.takeWhile (· ≠ part)).map fun earlier =>
    earlier.heading.length + counts earlier + 1).sum + part.heading.length

theorem length_entries (config : Configuration) (part : Section)
    : (part.entries config).length = count config part := by
  cases part <;> simp [entries, count, bootLines]

theorem length_above (config : Configuration) (part : Section)
    : (part.above config).length = part.offset (count config) := by
  simp [above, offset, List.length_flatMap, lines, heading, length_entries, Nat.add_assoc]

end Section

end Script

-----------------------------------------------------------------------------------------
-- Texts
-----------------------------------------------------------------------------------------

def Bootstrap.texts (bootstrap : Bootstrap) : List String :=
  [bootstrap.brewPath, bootstrap.zinitHome]

def EnvVar.texts (entry : EnvVar) : List String :=
  [entry.key, entry.value]

def PathEntry.texts (entry : PathEntry) : List String :=
  [entry.name, entry.path]

def Alias.texts (entry : Alias) : List String :=
  [entry.name, entry.command] ++ entry.description.toList

def ShellOption.texts (entry : ShellOption) : List String :=
  entry.option :: entry.description.toList

/-- The free texts among modifiers. -/
def Ice.texts (ice : Ice) : List String :=
  [
    ice.fromSite, ice.asKind, ice.pick, ice.atinit, ice.atload, ice.atclone, ice.ifCondition,
    ice.hasCommand, ice.onCommand, ice.bindmap, ice.mv, ice.bpick, ice.atpull
  ].flatMap Option.toList

def Plugin.texts (plugin : Plugin) : List String :=
  plugin.name :: plugin.description.toList ++ plugin.ice.toList.flatMap Ice.texts

/-- The texts that the script shows, but for the one that ends it. -/
def Configuration.texts (config : Configuration) : List String :=
  config.bootstrap.texts ++ config.envVars.flatMap EnvVar.texts
    ++ config.pathEntries.flatMap PathEntry.texts ++ config.aliases.flatMap Alias.texts
    ++ config.options.flatMap ShellOption.texts ++ config.plugins.flatMap Plugin.texts

namespace Script

@[simp]
theorem singleLine_append {text more : String}
    : SingleLine (text ++ more) ↔ SingleLine text ∧ SingleLine more := by
  simp [SingleLine]

/-- A text that is spelled out is looked at character by character. -/
theorem singleLine_ofList {chars : List Char} (single : '\n' ∉ chars)
    : SingleLine (String.ofList chars) := by
  simpa [SingleLine] using single

theorem singleLine_join {texts : List String} (single : ∀ text ∈ texts, SingleLine text)
    : SingleLine (String.join texts) := by
  simpa [SingleLine] using single

theorem SingleLine.singleQuote {text : String} (single : SingleLine text)
    : SingleLine (Shell.singleQuote text) := by
  have quoted : ∀ c ∈ text.toList, '\n' ∉ Shell.quoteChar c := by
    intro c member
    have other : '\n' ≠ c := fun same => single (same ▸ member)
    unfold Shell.quoteChar
    split <;> simp [other]
  simpa [SingleLine, Shell.singleQuote, Shell.quoteChars] using quoted

theorem singleLine_toString (n : Nat) : SingleLine (toString n) := by
  intro member
  have digit : '\n' ∈ Nat.toDigits 10 n := by simpa using member
  exact absurd (Nat.isDigit_of_mem_toDigits (by decide) (by decide) digit) (by decide)

theorem SingleLine.withComment {code : String} (single : SingleLine code) {comment : Option String}
    (others : ∀ text ∈ comment.toList, SingleLine text)
    : SingleLine (withComment code comment) := by
  unfold Script.withComment
  cases given : comment.filter (· != "") with
  | none => exact single
  | some text =>
      have shown := others text (by simpa using (Option.filter_eq_some_iff.mp given).1)
      simp only [singleLine_append]
      exact ⟨⟨single, by decide⟩, shown⟩

end Script

open Script (SingleLine)

theorem Bootstrap.singleLine_bootLines {bootstrap : Bootstrap}
    (single : ∀ text ∈ bootstrap.texts, SingleLine text)
    : ∀ line ∈ Script.bootLines bootstrap, SingleLine line := by
  simp only [texts, List.forall_mem_cons] at single
  obtain ⟨brewPath, zinitHome, -⟩ := single
  simp only [Script.bootLines, List.forall_mem_cons, Script.singleLine_append, brewPath, zinitHome,
    List.not_mem_nil, false_imp_iff, implies_true, and_true]
  and_intros <;> exact Script.singleLine_ofList (by decide)

theorem EnvVar.singleLine_line {entry : EnvVar} (single : ∀ text ∈ entry.texts, SingleLine text)
    : SingleLine entry.line := by
  simp only [texts, List.forall_mem_cons, SingleLine] at single
  obtain ⟨key, value, -⟩ := single
  simp [line, SingleLine, key, value]

theorem PathEntry.singleLine_line {entry : PathEntry}
    (single : ∀ text ∈ entry.texts, SingleLine text)
    : SingleLine entry.line := by
  simp only [texts, List.forall_mem_cons, SingleLine] at single
  obtain ⟨name, path, -⟩ := single
  unfold line
  simp [SingleLine, name, path]

theorem Alias.singleLine_line {entry : Alias} (single : ∀ text ∈ entry.texts, SingleLine text)
    : SingleLine entry.line := by
  simp only [texts, List.forall_mem_append, List.forall_mem_cons] at single
  obtain ⟨⟨name, command, -⟩, description⟩ := single
  refine SingleLine.withComment ?_ description
  unfold SingleLine at name command
  simp [SingleLine, name, command]

theorem ShellOption.singleLine_line {entry : ShellOption}
    (single : ∀ text ∈ entry.texts, SingleLine text)
    : SingleLine entry.line := by
  obtain ⟨option, description⟩ := List.forall_mem_cons.mp single
  exact option.withComment description

namespace Modifier

variable {modifier : Modifier}

theorem Listed.singleLine_name (listed : modifier.Listed) : SingleLine modifier.name := by
  have all : ∀ entry ∈ kinds, SingleLine entry.1 := by decide
  obtain ⟨before, after, split, -⟩ := List.lookup_eq_some_iff.mp listed
  exact all (modifier.name, modifier.kind) (by simp [split])

theorem Listed.singleLine_token (listed : modifier.Listed) (argument : SingleLine modifier.argument)
    : SingleLine modifier.token := by
  rw [token_eq, Script.singleLine_append]
  refine ⟨listed.singleLine_name, ?_⟩
  cases modifier with
  | text _ value => exact SingleLine.singleQuote argument
  | depth | flag => exact argument
  | wait seconds =>
      by_cases zero : seconds = 0
      · simp [quotedArgument, zero, SingleLine]
      · simp only [Modifier.argument, quotedArgument, zero, if_false] at argument ⊢
        exact argument.singleQuote

end Modifier

theorem Ice.singleLine_arguments {ice : Ice} (single : ∀ text ∈ ice.texts, SingleLine text)
    : ∀ entry ∈ ice.arguments, ∀ argument ∈ entry.2, SingleLine argument := by
  have number (n : UInt64) : SingleLine (toString n.toNat) := Script.singleLine_toString n.toNat
  have switch (on : Bool)
      : ∀ argument ∈ (if on then some "" else none), SingleLine argument := by
    cases on <;> simp [SingleLine]
  have text (value : Option String) (single : ∀ text ∈ value.toList, SingleLine text)
      : ∀ argument ∈ value.filter (· ≠ ""), SingleLine argument := by
    intro argument member
    exact single argument (by simpa using (Option.filter_eq_some_iff.mp member).1)
  have depth
      : ∀ argument ∈ (ice.depth.filter (· ≠ 0)).map fun revisions => toString revisions.toNat,
          SingleLine argument := by
    intro argument member
    obtain ⟨revisions, -, rfl⟩ := Option.map_eq_some_iff.mp member
    exact number revisions
  have wait
      : ∀ argument ∈ ice.wait.map fun seconds =>
          if seconds = 0 then "" else toString seconds.toNat,
          SingleLine argument := by
    intro argument member
    obtain ⟨seconds, -, rfl⟩ := Option.map_eq_some_iff.mp member
    split
    · simp [SingleLine]
    · exact number seconds
  simp only [texts, List.forall_mem_flatMap, List.forall_mem_cons] at single
  obtain ⟨fromSite, asKind, pick, atinit, atload, atclone, ifCondition, hasCommand, onCommand,
    bindmap, mv, bpick, atpull, -⟩ := single
  simp only [arguments, List.forall_mem_cons]
  exact ⟨text _ fromSite, text _ asKind, text _ pick, text _ atinit, text _ atload, text _ atclone,
    depth, switch _, switch _, wait, switch _, switch _, text _ ifCondition, text _ hasCommand,
    text _ onCommand, text _ bindmap, text _ mv, text _ bpick, text _ atpull, by simp⟩

theorem Ice.singleLine_tokens {ice : Ice} (single : ∀ text ∈ ice.texts, SingleLine text)
    : ∀ token ∈ ice.tokens, SingleLine token := by
  intro token member
  obtain ⟨modifier, stated, rfl⟩ := List.mem_map.mp member
  refine (ice.listed_of_mem_modifiers modifier stated).singleLine_token ?_
  have argument : (modifier.name, modifier.argument) ∈ present ice.arguments := by
    rw [← map_modifiers]
    exact List.mem_map.mpr ⟨modifier, stated, rfl⟩
  obtain ⟨entry, listed, given⟩ := List.mem_filterMap.mp argument
  obtain ⟨value, found, same⟩ := Option.map_eq_some_iff.mp given
  exact (Prod.mk.inj same).2 ▸ singleLine_arguments single entry listed value found

theorem Plugin.singleLine_directive {plugin : Plugin}
    (single : ∀ text ∈ plugin.texts, SingleLine text)
    : SingleLine plugin.directive := by
  simp only [texts, List.forall_mem_append, List.forall_mem_cons, List.forall_mem_flatMap] at single
  obtain ⟨⟨name, description⟩, modifiers⟩ := single
  have tokens : ∀ token ∈ (plugin.ice.map Ice.tokens).getD [], SingleLine token := by
    cases given : plugin.ice with
    | none => simp
    | some ice => exact ice.singleLine_tokens (modifiers ice (by simp [given]))
  have words : ∀ word ∈ ((plugin.ice.map Ice.tokens).getD []).map (" " ++ ·), SingleLine word := by
    intro word member
    obtain ⟨token, listed, rfl⟩ := List.mem_map.mp member
    exact Script.singleLine_append.mpr ⟨by simp [SingleLine], tokens token listed⟩
  refine SingleLine.withComment ?_ description
  simp only [Script.singleLine_append]
  exact ⟨⟨⟨by simp [SingleLine], Script.singleLine_join words⟩, by simp [SingleLine]⟩, name⟩

-----------------------------------------------------------------------------------------
-- Whole scripts
-----------------------------------------------------------------------------------------

namespace Script.Section

variable {config : Configuration}

theorem singleLine_heading (part : Section) : ∀ line ∈ part.heading, SingleLine line := by
  cases part <;> simp [heading, title, banner, rule, SingleLine]

theorem singleLine_entries (single : ∀ text ∈ config.texts, SingleLine text) {part : Section}
    (listing : part ≠ .initScript)
    : ∀ line ∈ part.entries config, SingleLine line := by
  simp only [Configuration.texts, List.forall_mem_append, List.forall_mem_flatMap] at single
  obtain ⟨⟨⟨⟨⟨bootstrap, envVars⟩, pathEntries⟩, aliases⟩, options⟩, plugins⟩ := single
  cases part <;> simp only [entries, List.forall_mem_map]
  case boot => exact Bootstrap.singleLine_bootLines bootstrap
  case envVars => exact fun entry member => EnvVar.singleLine_line (envVars entry member)
  case path => exact fun entry member => PathEntry.singleLine_line (pathEntries entry member)
  case aliases => exact fun entry member => Alias.singleLine_line (aliases entry member)
  case options => exact fun entry member => ShellOption.singleLine_line (options entry member)
  case plugins => exact fun entry member => Plugin.singleLine_directive (plugins entry member)
  case initScript => exact absurd rfl listing

theorem singleLine_above_initScript (single : ∀ text ∈ config.texts, SingleLine text)
    : ∀ line ∈ above config .initScript, SingleLine line := by
  have empty : SingleLine "" := by simp [SingleLine]
  intro line member
  rcases List.mem_append.mp member with higher | heading
  · obtain ⟨earlier, listed, shown⟩ := List.mem_flatMap.mp higher
    have listing : earlier ≠ .initScript := by simpa using List.mem_takeWhile_imp listed
    simp only [lines, List.mem_append, List.mem_singleton] at shown
    rcases shown with (heading | entry) | rfl
    · exact singleLine_heading earlier line heading
    · exact singleLine_entries single listing line entry
    · exact empty
  · exact singleLine_heading .initScript line heading

/-- The lines above the init script are those of the other sections. -/
theorem above_initScript_eq_append {part : Section} (listing : part ≠ .initScript)
    : above config .initScript
      = part.above config ++ part.entries config ++ (part.below config).dropLast := by
  have followed : part.below config ≠ [] := by
    cases part <;> simp_all [below, order]
  have last : Script.lines config = above config .initScript ++ [config.initScript] := by
    simp [lines_eq_append config .initScript, entries, below, order]
  have shorter := congrArg List.dropLast last
  rw [List.dropLast_concat, lines_eq_append config part, List.dropLast_append_of_ne_nil followed]
    at shorter
  exact shorter.symm

end Script.Section

namespace Configuration

open Script

/-- A script has one line for each entry. -/
theorem pieces_render {config : Configuration} (single : ∀ text ∈ config.texts, SingleLine text)
    : pieces config.render
          = bootLines config.bootstrap
            ++ "" :: banner "ENV VARIABLES" ++ config.envVars.map EnvVar.line
            ++ "" :: banner "PATH VARIABLES" ++ config.pathEntries.map PathEntry.line
            ++ "" :: banner "ALIASES" ++ config.aliases.map Alias.line
            ++ "" :: banner "ZSH OPTIONS" ++ config.options.map ShellOption.line
            ++ "" :: banner "PLUGINS" ++ config.plugins.map Plugin.directive
            ++ "" :: banner "INIT SCRIPT" ++ pieces config.initScript ++ [""]
      ∧ (bootLines config.bootstrap).length = 18
      ∧ ∀ part ≠ Section.initScript, ∀ index line,
          (part.entries config)[index]? = some line →
          (pieces config.render)[part.offset (Section.count config) + index]? = some line := by
  have split : pieces config.render
      = Section.above config .initScript ++ (pieces config.initScript ++ [""]) := by
    have text : config.render
        = unlines (Section.above config .initScript) ++ (config.initScript ++ "\n" ++ "") := by
      simp [render_eq_unlines, Section.lines_eq_append config .initScript, Section.entries,
        Section.below, Section.order, unlines]
    rw [text, pieces_unlines_append (Section.singleLine_above_initScript single),
      pieces_append_newline]
    simp [pieces, String.toList_split_char]
  refine ⟨split.trans ?_, rfl, ?_⟩
  · simp [Section.above, Section.order, Section.lines, Section.heading, Section.title,
      Section.entries]
  · intro part listing index line listed
    rw [split, Section.above_initScript_eq_append listing, List.append_assoc, ← Section.length_above]
    exact getElem?_append_append _ _ listed

/-- A configuration that has entries of every kind but variables and options, with texts that are empty
or quoted, and an init script that starts and ends with a line feed.
-/
def layoutSample : Configuration where
  pathEntries := [{ name := "", path := "$HOME/bin" }]
  aliases :=
    [
      { name := "ll", command := "ls -la", description := some "list" },
      { name := "ll", command := "ls -la", description := some "list" },
      {}
    ]
  plugins :=
    [{ name := "a/b", ice := some { atload := some "it's \"here\"", depth := some 1, wait := some 0 } }]
  initScript := "\necho 1\n"

theorem pieces_render_layoutSample
    : (∀ text ∈ layoutSample.texts, SingleLine text)
      ∧ (pieces layoutSample.render)[32]? = some "alias ll=\"ls -la\"  # list"
      ∧ (pieces layoutSample.render)[42]?
        = some "zinit atload'it'\\''s \"here\"' depth1 wait for a/b" := by
  have single : ∀ text ∈ layoutSample.texts, SingleLine text := by decide
  obtain ⟨-, -, placed⟩ := pieces_render single
  exact ⟨single, placed .aliases (by decide) 1 _ rfl, placed .plugins (by decide) 0 _ rfl⟩

end Configuration

end ZshStartup
