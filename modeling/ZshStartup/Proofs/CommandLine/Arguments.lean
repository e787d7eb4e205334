import ZshStartup.CommandLine.Reader
import ZshStartup.Files.Machine
import Mathlib.Data.List.Perm.Basic

/-! Writing invocations as argument lists. Every invocation can be written: each option with its value behind
an equals sign, each switch bare, and a file behind two dashes. Options that all subcommands share may stand
on either side of the subcommand, and wherever they stand the list is read as that invocation.
-/

namespace ZshStartup

namespace CommandLine

-----------------------------------------------------------------------------------------
-- Writing
-----------------------------------------------------------------------------------------

/-- A part of an invocation: a value, or a switch that is on. -/
inductive Given where
  | valued (slot : Slot) (value : String)
  | turnedOn (switch : Switch)
deriving DecidableEq

def Slot.name : Slot → String
  | .settings => "settings"
  | .scriptPath => "script-path"
  | .configPath => "config-path"
  | .input => "input"
  | .output => "output"
  | .file => "file"

def Switch.name : Switch → String
  | .noBackup => "no-backup"
  | .verbose => "verbose"
  | .help => "help"
  | .version => "version"

def Command.name : Command → String
  | .render => "render"
  | .apply => "apply"
  | .importFile => "import"
  | .exportStored => "export"
  | .generate => "gen"
  | .reset => "reset"
  | .summarize => "show"
  | .settingsTemplate => "settings"

/-- A part of an invocation as an argument. -/
def Given.argument : Given → String
  | .valued slot value => "--" ++ slot.name ++ "=" ++ value
  | .turnedOn switch => "--" ++ switch.name

end CommandLine

namespace Action

open CommandLine (Command Slot)

def command : Action → Command
  | .render _ _ => .render
  | .apply _ => .apply
  | .importFile _ => .importFile
  | .exportStored _ => .exportStored
  | .generate _ => .generate
  | .reset => .reset
  | .summarize => .summarize
  | .settingsTemplate => .settingsTemplate

/-- What an action is given for an option of its subcommand, or for the file of it. -/
def value? : Action → Slot → Option String
  | .render input _, .input => input
  | .render _ output, .output => output
  | .apply input, .input => input
  | .importFile file, .file => some file
  | .exportStored output, .output => output
  | .generate output, .output => output
  | _, _ => none

end Action

namespace CommandLine

namespace Invocation

section Parts

variable (invocation : Invocation)

def value? : Slot → Option String
  | .settings => invocation.settings
  | .scriptPath => invocation.scriptPath
  | .configPath => invocation.configPath
  | slot => invocation.action.value? slot

def isOn : Switch → Bool
  | .noBackup => invocation.noBackup
  | .verbose => invocation.verbose
  | _ => false

/-- The values of an invocation for some of its options, or for its file. -/
def valued (slots : List Slot) : List Given :=
  slots.filterMap fun slot => (invocation.value? slot).map (.valued slot)

def turnedOn : List Given :=
  ([.noBackup, .verbose].filter invocation.isOn).map .turnedOn

/-- The options that an invocation may have with any subcommand. -/
def shared : List Given :=
  invocation.valued [.settings, .scriptPath, .configPath] ++ invocation.turnedOn

/-- The options of the subcommand. -/
def own : List Given :=
  invocation.valued [.input, .output]

/-- The arguments that come last: a file, behind two dashes. -/
def operands : List String :=
  match invocation.value? .file with
  | some file => ["--", file]
  | none => []

/-- The options of an invocation on both sides of the subcommand, in any order. Options of the subcommand
do not stand before it.
-/
structure Splits (before behind : List Given) : Prop where
  perm : (before ++ behind).Perm (invocation.shared ++ invocation.own)
  subset : before ⊆ invocation.shared

/-- An invocation as an argument list. -/
def arguments (before behind : List Given) : List String :=
  before.map Given.argument
  ++ invocation.action.command.name :: (behind.map Given.argument ++ invocation.operands)

end Parts

end Invocation

-----------------------------------------------------------------------------------------
-- Single arguments
-----------------------------------------------------------------------------------------

/-- What two dashes and more characters are. -/
theorem ofArgument_eq_long {argument : String} {rest : List Char}
    (dashes : argument.toList = '-' :: '-' :: rest) (nonempty : rest ≠ [])
    : Word.ofArgument argument
      = .long (String.ofList (rest.takeWhile (· != '=')))
          (if (rest.takeWhile (· != '=')).length < rest.length then
            some (String.ofList (rest.drop ((rest.takeWhile (· != '=')).length + 1)))
          else
            none) := by
  cases rest with
  | nil => exact absurd rfl nonempty
  | cons c rest => simp [Word.ofArgument, dashes]

theorem ofArgument_valued (slot : Slot) (value : String)
    : Word.ofArgument (Given.valued slot value).argument = .long slot.name (some value) := by
  have named : ∀ c ∈ slot.name.toList, (c != '=') = true := by
    cases slot <;> simp [Slot.name]
  have taken : (slot.name.toList ++ '=' :: value.toList).takeWhile (· != '=') = slot.name.toList := by
    rw [List.takeWhile_append_of_pos named]
    simp
  have dashes : (Given.valued slot value).argument.toList
      = '-' :: '-' :: (slot.name.toList ++ '=' :: value.toList) := by
    simp [Given.argument]
  rw [ofArgument_eq_long dashes (by simp), taken]
  simp

theorem ofArgument_turnedOn (switch : Switch)
    : Word.ofArgument (Given.turnedOn switch).argument = .long switch.name none := by
  cases switch <;> decide

@[simp]
theorem ofName?_name (command : Command) : Command.ofName? command.name = some command := by
  cases command <;> rfl

@[simp]
theorem ofArgument_name (command : Command) : Word.ofArgument command.name = .plain := by
  cases command <;> decide

-----------------------------------------------------------------------------------------
-- Levels
-----------------------------------------------------------------------------------------

namespace Given

/-- What may be given only once on a level. -/
def key : Given → Slot ⊕ Switch
  | .valued slot _ => .inl slot
  | .turnedOn switch => .inr switch

/-- All that an invocation may be given. -/
def keys : List (Slot ⊕ Switch) :=
  [
    .inl .file, .inl .settings, .inl .scriptPath, .inl .configPath, .inr .noBackup, .inr .verbose,
    .inl .input, .inl .output
  ]

/-- What is understood on a level: before the subcommand, or behind one. -/
def Known (command : Option Command) : Given → Prop
  | .valued slot _ => Slot.ofName? command slot.name = some slot
  | .turnedOn switch => switch = .noBackup ∨ switch = .verbose

/-- No option is the file of a subcommand. -/
theorem Known.key_ne_file {command : Option Command} {given : Given} (known : given.Known command)
    : given.key ≠ .inl .file := by
  rintro file
  cases given <;> cases file
  cases known

def entry? : Given → Option (Slot × String)
  | .valued slot value => some (slot, value)
  | .turnedOn _ => none

def switch? : Given → Option Switch
  | .valued _ _ => none
  | .turnedOn switch => some switch

end Given

namespace Level

/-- The level on which things have been taken down, the last one first. -/
def ofTaken (taken : List Given) : Level where
  values := taken.filterMap Given.entry?
  switches := taken.filterMap Given.switch?

variable {taken : List Given}

theorem empty_eq_ofTaken : ({} : Level) = ofTaken [] :=
  rfl

@[simp]
theorem settle_ofTaken (taken : List Given) : (ofTaken taken).settle = .ok (ofTaken taken) :=
  rfl

theorem value?_ofTaken_append (taken more : List Given) (slot : Slot)
    : (ofTaken (taken ++ more)).value? slot
      = ((ofTaken taken).value? slot).or ((ofTaken more).value? slot) := by
  simp [value?, ofTaken, List.lookup_append]

theorem switches_ofTaken_append (taken more : List Given)
    : (ofTaken (taken ++ more)).switches = (ofTaken taken).switches ++ (ofTaken more).switches := by
  simp [ofTaken]

theorem mem_switches_ofTaken {switch : Switch}
    : switch ∈ (ofTaken taken).switches ↔ .turnedOn switch ∈ taken := by
  rw [ofTaken, List.mem_filterMap]
  constructor
  · rintro ⟨given, member, eq⟩
    cases given <;> cases eq
    exact member
  · exact fun member => ⟨_, member, rfl⟩

theorem value?_ofTaken_valued_cons (slot other : Slot) (value : String) (taken : List Given)
    : (ofTaken (.valued other value :: taken)).value? slot
      = if slot = other then some value else (ofTaken taken).value? slot := by
  by_cases same : slot = other
  · simp [value?, ofTaken, Given.entry?, same]
  · simp [value?, ofTaken, Given.entry?, List.lookup_cons, same, beq_eq_false_iff_ne.mpr same]

theorem value?_ofTaken_turnedOn_cons (slot : Slot) (switch : Switch) (taken : List Given)
    : (ofTaken (.turnedOn switch :: taken)).value? slot = (ofTaken taken).value? slot :=
  rfl

theorem isSome_value?_ofTaken {slot : Slot}
    : ((ofTaken taken).value? slot).isSome ↔ .inl slot ∈ taken.map Given.key := by
  induction taken with
  | nil => simp [value?, ofTaken]
  | cons given taken ih =>
      rw [List.map_cons, List.mem_cons, ← ih]
      cases given with
      | valued other value =>
          rw [value?_ofTaken_valued_cons, Given.key]
          split <;> simp_all
      | turnedOn switch => simp [value?_ofTaken_turnedOn_cons, Given.key]

/-- The value of an option is the one that was given, since there is only one. -/
theorem value?_ofTaken_eq_some_iff (distinct : (taken.map Given.key).Nodup) {slot : Slot}
    {value : String}
    : (ofTaken taken).value? slot = some value ↔ .valued slot value ∈ taken := by
  induction taken with
  | nil => simp [value?, ofTaken]
  | cons given taken ih =>
      obtain ⟨new, distinct⟩ := List.nodup_cons.mp distinct
      rw [List.mem_cons, ← ih distinct]
      cases given with
      | valued other found =>
          have absent : (ofTaken taken).value? other ≠ some value := fun again =>
            new (isSome_value?_ofTaken.mp (by simp [again]))
          rw [value?_ofTaken_valued_cons]
          split <;> simp_all [eq_comm]
      | turnedOn switch => simp [value?_ofTaken_turnedOn_cons]

theorem register_ofTaken {slot : Slot} {value : String} (new : .inl slot ∉ taken.map Given.key)
    (filled : value ≠ "")
    : (ofTaken taken).register slot (some value) = .ok (ofTaken (.valued slot value :: taken)) := by
  have free : ((ofTaken taken).value? slot).isSome = false := by
    rw [← isSome_value?_ofTaken] at new
    simpa using new
  simp [register, free, filled]
  rfl

theorem turnOn_ofTaken {switch : Switch} (known : switch = .noBackup ∨ switch = .verbose)
    (new : .inr switch ∉ taken.map Given.key)
    : (ofTaken taken).turnOn switch = .ok (ofTaken (.turnedOn switch :: taken)) := by
  have off : switch ∉ (ofTaken taken).switches := fun on =>
    new (List.mem_map.mpr ⟨_, mem_switches_ofTaken.mp on, rfl⟩)
  rcases known with rfl | rfl
  all_goals
    simp only [turnOn, settle_ofTaken, bind, Except.bind, off, if_false]
    rfl

end Level

-----------------------------------------------------------------------------------------
-- Reading
-----------------------------------------------------------------------------------------

open Files (MonadSystem)
open Level (ofTaken)

section Read

variable {command : Option Command}

/-- An option that is known, new and not empty is taken down. -/
theorem readLevel_argument {taken : List Given} {given : Given} (known : given.Known command)
    (filled : ∀ slot value, given = .valued slot value → value ≠ "")
    (new : given.key ∉ taken.map Given.key) (rest : List String)
    : readLevel command false (ofTaken taken) (given.argument :: rest)
      = readLevel command false (ofTaken (given :: taken)) rest := by
  cases given with
  | valued slot value =>
      have known : Slot.ofName? command slot.name = some slot := known
      have taken : Level.long command (ofTaken taken) slot.name (some value)
          = .ok (ofTaken (.valued slot value :: taken)) := by
        rw [Level.long, known]
        exact Level.register_ofTaken new (filled slot value rfl)
      simp only [readLevel, Bool.false_eq_true, if_false, ofArgument_valued, taken, bind, Except.bind]
  | turnedOn switch =>
      have unvalued : Slot.ofName? command switch.name = none := by
        rcases known with rfl | rfl <;> rfl
      have named : Switch.ofName? command switch.name = some switch := by
        rcases known with rfl | rfl <;> rfl
      have taken : Level.long command (ofTaken taken) switch.name none
          = .ok (ofTaken (.turnedOn switch :: taken)) := by
        rw [Level.long, unvalued, named]
        exact Level.turnOn_ofTaken known new
      simp only [readLevel, Bool.false_eq_true, if_false, ofArgument_turnedOn, taken, bind, Except.bind]

/-- Options are taken down one after the other, whatever comes behind them, by induction on the options. -/
theorem readLevel_map_argument {taken given : List Given}
    (known : ∀ part ∈ given, part.Known command)
    (filled : ∀ slot value, .valued slot value ∈ given → value ≠ "")
    (distinct : ((given.reverse ++ taken).map Given.key).Nodup) (rest : List String)
    : readLevel command false (ofTaken taken) (given.map Given.argument ++ rest)
      = readLevel command false (ofTaken (given.reverse ++ taken)) rest := by
  induction given generalizing taken with
  | nil => rfl
  | cons part given ih =>
      rw [List.reverse_cons, List.append_assoc, List.singleton_append] at distinct ⊢
      have new : part.key ∉ taken.map Given.key := by
        rw [List.map_append, List.map_cons] at distinct
        exact (List.nodup_cons.mp (List.nodup_append.mp distinct).2.1).1
      rw [List.map_cons, List.cons_append,
        readLevel_argument (known part (by simp)) (fun slot value same => ?_) new]
      · exact ih (fun part member => known part (by simp [member]))
          (fun slot value member => filled slot value (by simp [member])) distinct
      · exact filled slot value (by simp [same])

end Read

/-- A file behind two dashes is taken down when the line ends. -/
theorem exists_readLevel_operands {invocation : Invocation} {taken : List Given}
    (new : .inl .file ∉ taken.map Given.key) (filled : invocation.value? .file ≠ some "")
    : ∃ level,
        readLevel (some invocation.action.command) false (ofTaken taken) invocation.operands
          = .ok (level, none)
        ∧ level.settle = .ok (ofTaken (invocation.valued [.file] ++ taken)) := by
  cases action : invocation.action with
  | importFile file =>
      have given : invocation.value? .file = some file :=
        congrArg (fun action => action.value? .file) action
      have noFile : (ofTaken taken).hasFile = false := by
        rw [← Level.isSome_value?_ofTaken] at new
        simpa [Level.hasFile, ofTaken] using new
      have separator : Word.ofArgument "--" = .separator := by decide
      refine ⟨{ ofTaken taken with pending := some (.file, some file) }, ?_, ?_⟩
      · simp [Invocation.operands, given, Action.command, readLevel, separator, noFile,
          Command.takes, bind, Except.bind]
      · simp only [Invocation.valued, given, List.filterMap_cons, Option.map_some]
        exact Level.register_ofTaken new fun empty => filled (empty ▸ given)
  | render | apply | exportStored | generate | reset | summarize | settingsTemplate =>
      have missing : invocation.value? .file = none :=
        congrArg (fun action => action.value? .file) action
      refine ⟨ofTaken taken, ?_, ?_⟩
      · rw [Invocation.operands, missing]
        rfl
      · simp [Invocation.valued, missing]

-----------------------------------------------------------------------------------------
-- Invocations
-----------------------------------------------------------------------------------------

namespace Invocation

variable {invocation : Invocation} {slot : Slot} {value : String} {slots : List Slot}

theorem mem_valued_iff
    : .valued slot value ∈ invocation.valued slots
      ↔ slot ∈ slots ∧ invocation.value? slot = some value := by
  simp [valued]

theorem exists_of_mem_valued {part : Given} (member : part ∈ invocation.valued slots)
    : ∃ slot ∈ slots, ∃ value, invocation.value? slot = some value ∧ part = .valued slot value := by
  obtain ⟨slot, listed, given⟩ := List.mem_filterMap.mp member
  obtain ⟨value, found, rfl⟩ := Option.map_eq_some_iff.mp given
  exact ⟨slot, listed, value, found, rfl⟩

theorem turnedOn_mem_turnedOn_iff {switch : Switch}
    : .turnedOn switch ∈ invocation.turnedOn ↔ invocation.isOn switch := by
  cases switch <;> simp [turnedOn, isOn]

theorem map_key_valued_sublist (slots : List Slot)
    : ((invocation.valued slots).map Given.key).Sublist (slots.map .inl) := by
  induction slots with
  | nil => simp [valued]
  | cons slot slots ih =>
      unfold valued at ih ⊢
      rw [List.filterMap_cons]
      cases invocation.value? slot with
      | none => exact ih.cons _
      | some value => exact ih.cons_cons _

theorem map_key_turnedOn_sublist
    : (invocation.turnedOn.map Given.key).Sublist [.inr .noBackup, .inr .verbose] := by
  have filtered : ([.noBackup, .verbose].filter invocation.isOn).Sublist [.noBackup, .verbose] :=
    List.filter_sublist
  rw [turnedOn, List.map_map]
  exact filtered.map _

/-- All that an invocation is given. -/
def given (invocation : Invocation) : List Given :=
  invocation.valued [.file] ++ (invocation.shared ++ invocation.own)

theorem map_key_given_sublist : (invocation.given.map Given.key).Sublist Given.keys := by
  simp only [given, shared, own, List.map_append]
  exact (map_key_valued_sublist [.file]).append
    (((map_key_valued_sublist [.settings, .scriptPath, .configPath]).append
      map_key_turnedOn_sublist).append (map_key_valued_sublist [.input, .output]))

/-- Everything is given at most once. -/
theorem nodup_map_key_given : (invocation.given.map Given.key).Nodup :=
  map_key_given_sublist.nodup (by decide)

theorem valued_mem_given_iff
    : .valued slot value ∈ invocation.given ↔ invocation.value? slot = some value := by
  have unswitched : .valued slot value ∉ invocation.turnedOn := by simp [turnedOn]
  simp only [given, shared, own, List.mem_append, mem_valued_iff, unswitched, or_false]
  cases slot <;> simp

theorem turnedOn_mem_given_iff {switch : Switch}
    : .turnedOn switch ∈ invocation.given ↔ invocation.isOn switch := by
  have unvalued (slots : List Slot) : .turnedOn switch ∉ invocation.valued slots := by
    simp [valued]
  simp only [given, shared, own, List.mem_append, unvalued, turnedOn_mem_turnedOn_iff, or_false,
    false_or]

theorem known_shared (command : Option Command)
    : ∀ part ∈ invocation.shared, part.Known command := by
  intro part member
  rcases List.mem_append.mp member with valued | turnedOn
  · obtain ⟨slot, listed, value, -, rfl⟩ := exists_of_mem_valued valued
    simp only [List.mem_cons, List.not_mem_nil, or_false] at listed
    rcases listed with rfl | rfl | rfl <;> rfl
  · obtain ⟨switch, listed, rfl⟩ := List.mem_map.mp turnedOn
    have known : switch = .noBackup ∨ switch = .verbose := by
      simpa using (List.mem_filter.mp listed).1
    exact known

theorem known_own : ∀ part ∈ invocation.own, part.Known (some invocation.action.command) := by
  intro part member
  obtain ⟨slot, listed, value, found, rfl⟩ := exists_of_mem_valued member
  simp only [List.mem_cons, List.not_mem_nil, or_false] at listed
  rcases listed with rfl | rfl
  all_goals
    replace found : invocation.action.value? _ = some value := found
    cases action : invocation.action <;> rw [action] at found <;> cases found <;> rfl

/-- A subcommand means the action that was asked for, if its options and its file are there. -/
theorem action_command {action : Action} {level : Level}
    (values : ∀ slot ∈ [.input, .output, .file], level.value? slot = action.value? slot)
    : action.command.action level = .ok action := by
  simp only [List.forall_mem_cons] at values
  obtain ⟨input, output, file, -⟩ := values
  cases action <;> simp [Command.action, Action.command, input, output, file, Action.value?]

-----------------------------------------------------------------------------------------
-- Both sides of the subcommand
-----------------------------------------------------------------------------------------

namespace Splits

variable {before behind : List Given} (splits : invocation.Splits before behind)

include splits

/-- Nothing is lost when the two sides are taken down, and nothing else is added. -/
theorem perm_given
    : ((invocation.valued [.file] ++ behind.reverse) ++ before.reverse).Perm invocation.given := by
  rw [List.append_assoc, ← List.reverse_append]
  exact ((List.reverse_perm _).trans splits.perm).append_left _

theorem distinct
    : (((invocation.valued [.file] ++ behind.reverse) ++ before.reverse).map Given.key).Nodup :=
  (splits.perm_given.map Given.key).nodup_iff.mpr nodup_map_key_given

theorem filled_of_mem (filled : ∀ slot, invocation.value? slot ≠ some "")
    : ∀ slot value, .valued slot value ∈ before ++ behind → value ≠ "" := by
  rintro slot _ member rfl
  have given : .valued slot "" ∈ invocation.given :=
    List.mem_append_right _ (splits.perm.mem_iff.mp member)
  exact filled slot (valued_mem_given_iff.mp given)

/-- What stands behind the subcommand is understood there. -/
theorem known_behind : ∀ part ∈ behind, part.Known (some invocation.action.command) := by
  intro part member
  have listed : part ∈ invocation.shared ++ invocation.own :=
    splits.perm.mem_iff.mp (List.mem_append_right _ member)
  rcases List.mem_append.mp listed with shared | own
  · exact known_shared _ part shared
  · exact known_own part own

/-- On one of the two sides stands the value that the invocation has. -/
theorem or_value?_eq (slot : Slot)
    : ((ofTaken (invocation.valued [.file] ++ behind.reverse)).value? slot).or
          ((ofTaken before.reverse).value? slot)
      = invocation.value? slot := by
  rw [← Level.value?_ofTaken_append]
  ext value
  rw [Level.value?_ofTaken_eq_some_iff splits.distinct, splits.perm_given.mem_iff,
    valued_mem_given_iff]

theorem mem_switches_iff {switch : Switch}
    : switch ∈ (ofTaken (invocation.valued [.file] ++ behind.reverse)).switches
          ++ (ofTaken before.reverse).switches
      ↔ invocation.isOn switch := by
  rw [← Level.switches_ofTaken_append, Level.mem_switches_ofTaken, splits.perm_given.mem_iff,
    turnedOn_mem_given_iff]

/-- What only the subcommand understands does not stand before it. -/
theorem value?_before_eq_none (own : slot ∈ [.input, .output, .file])
    : (ofTaken before.reverse).value? slot = none := by
  rw [← Option.not_isSome_iff_eq_none, Level.isSome_value?_ofTaken, List.mem_map]
  rintro ⟨part, member, key⟩
  have shared : part ∈ invocation.shared := splits.subset (List.mem_reverse.mp member)
  rcases List.mem_append.mp shared with valued | turnedOn
  · obtain ⟨other, listed, value, -, rfl⟩ := exists_of_mem_valued valued
    cases key
    cases slot <;> simp_all
  · obtain ⟨switch, -, rfl⟩ := List.mem_map.mp turnedOn
    cases key

theorem value?_behind_eq (own : slot ∈ [.input, .output, .file])
    : (ofTaken (invocation.valued [.file] ++ behind.reverse)).value? slot
      = invocation.action.value? slot := by
  have both := splits.or_value?_eq slot
  rw [splits.value?_before_eq_none own, Option.or_none] at both
  rw [both]
  cases slot <;> simp_all [value?]

/-- The level before the subcommand ends with it. -/
theorem readLevel_arguments (filled : ∀ slot, invocation.value? slot ≠ some "")
    : readLevel none false {} (invocation.arguments before behind)
      = .ok (ofTaken before.reverse,
          some (invocation.action.command, behind.map Given.argument ++ invocation.operands)) := by
  have distinct : ((before.reverse ++ []).map Given.key).Nodup := by
    rw [List.append_nil]
    exact ((List.sublist_append_right _ _).map Given.key).nodup splits.distinct
  have known : ∀ part ∈ before, part.Known none := fun part member =>
    known_shared none part (splits.subset member)
  have filled : ∀ slot value, .valued slot value ∈ before → value ≠ "" := fun slot value member =>
    splits.filled_of_mem filled slot value (List.mem_append_left _ member)
  rw [arguments, Level.empty_eq_ofTaken, readLevel_map_argument known filled distinct, List.append_nil]
  simp [readLevel, Level.awaitsValue, ofTaken]

/-- The level behind the subcommand ends with the line. -/
theorem exists_readLevel_behind (filled : ∀ slot, invocation.value? slot ≠ some "")
    : ∃ level,
        readLevel (some invocation.action.command) false {}
            (behind.map Given.argument ++ invocation.operands)
          = .ok (level, none)
        ∧ level.settle = .ok (ofTaken (invocation.valued [.file] ++ behind.reverse)) := by
  have distinct : ((behind.reverse ++ []).map Given.key).Nodup := by
    have taken := ((List.sublist_append_left _ _).map Given.key).nodup splits.distinct
    rw [List.append_nil]
    exact ((List.sublist_append_right _ _).map Given.key).nodup taken
  have noFile : .inl .file ∉ behind.reverse.map Given.key := by
    rw [List.mem_map]
    rintro ⟨part, member, key⟩
    exact Given.Known.key_ne_file (splits.known_behind part (List.mem_reverse.mp member)) key
  have filledBehind : ∀ slot value, .valued slot value ∈ behind → value ≠ "" :=
    fun slot value member =>
      splits.filled_of_mem filled slot value (List.mem_append_right _ member)
  obtain ⟨level, read, settled⟩ := exists_readLevel_operands noFile (filled .file)
  refine ⟨level, ?_, settled⟩
  rw [Level.empty_eq_ofTaken, readLevel_map_argument splits.known_behind filledBehind distinct,
    List.append_nil]
  exact read

end Splits

/-- Each shared option may stand before the subcommand or behind it, whichever way the others stand. -/
theorem splits_filter (invocation : Invocation) (early : Given → Bool)
    : invocation.Splits (invocation.shared.filter early)
        (invocation.shared.filter (!early ·) ++ invocation.own) where
  perm := by
    rw [← List.append_assoc]
    exact (List.filter_append_perm early invocation.shared).append_right invocation.own
  subset := List.filter_subset_self _

theorem parse_arguments_eq_ok {before behind : List Given} (splits : invocation.Splits before behind)
    (filled : ∀ slot, invocation.value? slot ≠ some "")
    : parse (invocation.arguments before behind) = .ok invocation := by
  obtain ⟨level, read, settled⟩ := splits.exists_readLevel_behind filled
  have action : invocation.action.command.action
        (ofTaken (invocation.valued [.file] ++ behind.reverse))
      = .ok invocation.action :=
    action_command fun _ => splits.value?_behind_eq
  simp [parse, splits.readLevel_arguments filled, read, settled, action, bind, Except.bind,
    splits.or_value?_eq, splits.mem_switches_iff, value?, isOn]

/-- Whatever can be asked for without empty values is asked for by some argument list. -/
theorem exists_parse_eq_ok (filled : ∀ slot, invocation.value? slot ≠ some "")
    : ∃ arguments, parse arguments = .ok invocation :=
  ⟨_, parse_arguments_eq_ok (invocation.splits_filter fun _ => false) filled⟩

/-- Over settings that are there already, files live where the invocation says, and nothing else is read. -/
theorem load_setup {m : Type → Type} [Monad m] [MonadSystem m] (invocation : Invocation)
    (settings : Settings)
    : ({ invocation.setup with settings := some settings }.load : ExceptT Error m Settings)
      = pure
          {
            scriptPath := invocation.scriptPath.or settings.scriptPath
            configPath := invocation.configPath.or settings.configPath
            backup := !invocation.noBackup && settings.backup
          } := by
  cases unsaved : invocation.noBackup <;>
    simp [Setup.load, Settings.override, setup, unsaved]

/-- Every invocation can be written, with the shared options on either side of the subcommand. Over the
default settings, what was written decides where files live and whether backups are kept.
-/
theorem parse_arguments {m : Type → Type} [Monad m] [MonadSystem m] (invocation : Invocation)
    {before behind : List Given} (splits : invocation.Splits before behind)
    (filled : ∀ slot, invocation.value? slot ≠ some "")
    : parse (invocation.arguments before behind) = .ok invocation
      ∧ ({ invocation.setup with settings := some {} }.load : ExceptT Error m Settings)
        = pure
            {
              scriptPath := invocation.scriptPath
              configPath := invocation.configPath
              backup := !invocation.noBackup
            } := by
  constructor
  · exact parse_arguments_eq_ok splits filled
  · rw [load_setup]
    simp

/-- An invocation whose values look like options, like a subcommand and like the end of the options. -/
def misleading : Invocation where
  settings := some "=tool.toml"
  scriptPath := some "--settings"
  configPath := some "apply"
  noBackup := true
  verbose := true
  action := .render (some "-x=--no-backup") (some "--")

def misleadingBefore : List Given :=
  [.valued .scriptPath "--settings", .turnedOn .verbose]

def misleadingBehind : List Given :=
  [
    .valued .output "--", .turnedOn .noBackup, .valued .settings "=tool.toml",
    .valued .input "-x=--no-backup", .valued .configPath "apply"
  ]

theorem parse_arguments_misleading
    : misleading.Splits misleadingBefore misleadingBehind
      ∧ (∀ slot, misleading.value? slot ≠ some "")
      ∧ parse
            [
              "--script-path=--settings", "--verbose", "render", "--output=--", "--no-backup",
              "--settings==tool.toml", "--input=-x=--no-backup", "--config-path=apply"
            ]
          = .ok misleading
      ∧ ({ misleading.setup with settings := some {} }.load
            : ExceptT Error (StateM Files.Machine) Settings)
          = pure { scriptPath := some "--settings", configPath := some "apply", backup := false } := by
  have splits : misleading.Splits misleadingBefore misleadingBehind :=
    { perm := by decide, subset := by decide }
  have filled : ∀ slot, misleading.value? slot ≠ some "" := by
    intro slot
    cases slot <;> decide
  obtain ⟨parsed, loaded⟩ := parse_arguments (m := StateM Files.Machine) misleading splits filled
  exact ⟨splits, filled, parsed, loaded⟩

example
    : parse ["--verbose", "import", "--no-backup", "--", "--help"]
      = .ok { noBackup := true, verbose := true, action := .importFile "--help" } := by
  decide

end Invocation

end CommandLine

end ZshStartup
