import ZshStartup.Proofs.Configuration.Normalization
import ZshStartup.Proofs.Configuration.Schema

/-! Plugins of version 1, field by field. What a plugin gives among its modifiers counts, next its load type
with the wait time, and last its conditions; everything else is read as if these older fields were not
there.
-/

namespace ZshStartup

open Json (Fields)

-----------------------------------------------------------------------------------------
-- The rules
-----------------------------------------------------------------------------------------

namespace Json

/-- The literal that a value is, if it is a boolean. -/
def bool? : Json → Option Bool
  | .bool b => some b
  | _ => none

/-- The literal of an optional field. -/
def Fields.bool? (fields : Fields) (key : String) : Option Bool :=
  (fields.get? key).bind Json.bool?

theorem Fields.flag_eq_getD_bool? (fields : Fields) (key : String)
    : fields.flag key = (fields.bool? key).getD false := by
  unfold flag bool?
  rcases fields.get? key with _ | (_ | (_ | _) | _ | _ | _ | _) <;> rfl

theorem Fields.flag_iff {fields : Fields} {key : String}
    : fields.flag key = true ↔ fields.get? key = some (.bool true) := by
  unfold flag
  rcases fields.get? key with _ | (_ | (_ | _) | _ | _ | _ | _) <;> simp [isTrue]

end Json

/-- The modifiers of a plugin, which are none where it has no bag of them. -/
def Plugin.modifiers (plugin : Plugin) : Ice :=
  plugin.ice.getD {}

/-- Modifiers without those that older fields can amount to. -/
def Ice.withoutOlder (ice : Ice) : Ice :=
  { ice with
    wait := none, lucid := false, lightMode := false, ifCondition := none, hasCommand := none
    onCommand := none }

namespace Legacy

/-- The modifiers that a plugin gives itself. -/
def ownModifiers (plugin : Fields) : Fields :=
  (plugin.record? "ice").getD []

def conditions (plugin : Fields) : Fields :=
  (plugin.record? "conditions").getD []

/-- The text of a condition, unless it is empty. -/
def conditionText? (plugin : Fields) (key : String) : Option String :=
  ((conditions plugin).string? key).filter (· ≠ "")

/-- The seconds that a plugin waits by its load type or, failing that, by a condition that counts. -/
def olderWait? (plugin : Fields) : Option UInt64 :=
  if plugin.string? "loadType" = some "wait" ∨ plugin.string? "loadType" = some "wait lucid" then
    some (waitSeconds (plugin.get? "waitTime"))
  else
    (((conditions plugin).get? "wait").filter fun value => !value.isBlank).map fun value =>
      waitSeconds (some value)

/-- The older fields of a plugin amount to some modifier. -/
inductive Modifies (plugin : Fields) : Prop
  | loadType {name : String} (loads : plugin.string? "loadType" = some name)
    (known : name ∈ ["wait", "wait lucid", "light"])
  | lucid (on : (conditions plugin).get? "lucid" = some (.bool true))
  | condition {key : String} {value : Json} (conditional : key ∈ ["wait", "if", "has", "on"])
    (stated : (conditions plugin).get? key = some value) (counts : value.isBlank = false)

/-- A plugin without its older fields. -/
def withoutOlder (plugin : Fields) : Fields :=
  ((plugin.erase "loadType").erase "waitTime").erase "conditions"

/-- What a plugin of version 1 says of a plugin, field by field. -/
structure Upgraded (older : Fields) (plugin : Plugin) : Prop where
  name : plugin.name = (Plugin.ofFields (withoutOlder older)).name
  description : plugin.description = (Plugin.ofFields (withoutOlder older)).description
  wait : plugin.modifiers.wait = ((ownModifiers older).natural? "wait").or (olderWait? older)
  lucid
    : plugin.modifiers.lucid
      = ((ownModifiers older).bool? "lucid").getD
          (older.string? "loadType" = some "wait lucid" ∨ (conditions older).flag "lucid")
  lightMode
    : plugin.modifiers.lightMode
      = ((ownModifiers older).bool? "light_mode").getD (older.string? "loadType" = some "light")
  ifCondition
    : plugin.modifiers.ifCondition
      = ((ownModifiers older).string? "if").or (conditionText? older "if")
  hasCommand
    : plugin.modifiers.hasCommand
      = ((ownModifiers older).string? "has").or (conditionText? older "has")
  onCommand
    : plugin.modifiers.onCommand
      = ((ownModifiers older).string? "on").or (conditionText? older "on")
  /-- No other modifier depends on the older fields. -/
  others
    : plugin.modifiers.withoutOlder
      = (Plugin.ofFields (withoutOlder older)).modifiers.withoutOlder
  /-- There is a bag of modifiers, if only an empty one, where one was given, and where the older fields
  amount to a modifier, though it may be of a type that is not read.
  -/
  ice_isSome_iff : plugin.ice.isSome ↔ (older.record? "ice").isSome ∨ Modifies older

/-- Every modifier is null or of its type. -/
def WellTyped (ice : Fields) : Prop :=
  ∀ name kind value,
    Schema.ice.lookup name = some kind →
    ice.get? name = some value →
    value = .null ∨ kind.admits value = true

/-- It is enough to look at the fields as they are listed, hidden ones among them. -/
theorem WellTyped.of_forall_mem {ice : Fields}
    (typed
      : ∀ field ∈ ice, ∀ kind ∈ Schema.ice.lookup field.1,
          field.2 = .null ∨ kind.admits field.2 = true)
    : WellTyped ice := by
  intro name kind value known found
  obtain ⟨before, after, rfl, -⟩ := List.lookup_eq_some_iff.mp found
  exact typed (name, value) (by simp) kind known

-----------------------------------------------------------------------------------------
-- Modifiers
-----------------------------------------------------------------------------------------

variable {plugin ice legacy : Fields} {key : String}

/-- Where a null reads as nothing and any other value that a plugin gives is read, the older modifier is read
if and only if the plugin's own is not.
-/
theorem bind_get?_supplied {α : Type} (read : Json → Option α) (null : read .null = none)
    (present : ∀ field ∈ legacy, field.2 ≠ .null)
    (reads : ∀ value, ice.get? key = some value → value = .null ∨ (read value).isSome)
    : ((supplied ice legacy).get? key).bind read
      = ((ice.get? key).bind read).or ((legacy.get? key).bind read) := by
  rw [get?_supplied ice present]
  cases own : ice.get? key with
  | none => simp
  | some value =>
      rcases reads value own with rfl | reads
      · cases legacy.get? key <;> simp [null]
      · obtain ⟨result, eq⟩ := Option.isSome_iff_exists.mp reads
        cases value with
        | null => simp [null] at eq
        | _ => simp [eq]

section Older

variable (plugin)

theorem get?_modifiers_wait
    : (modifiers plugin).get? "wait" = (olderWait? plugin).map Json.natural := by
  rw [modifiers, Fields.get?_ofOptional (by simp)]
  simp only [List.lookup_cons, beq_self_eq_true, Option.join_some]
  unfold olderWait? condition? conditions
  split <;> simp [Function.comp_def]

theorem get?_modifiers_lucid
    : (modifiers plugin).get? "lucid"
      = if plugin.string? "loadType" = some "wait lucid" ∨ (conditions plugin).flag "lucid" then
          some (.bool true)
        else
          none := by
  rw [modifiers, Fields.get?_ofOptional (by simp)]
  rfl

theorem get?_modifiers_lightMode
    : (modifiers plugin).get? "light_mode"
      = if plugin.string? "loadType" = some "light" then some (.bool true) else none := by
  rw [modifiers, Fields.get?_ofOptional (by simp)]
  rfl

theorem get?_modifiers_condition (conditional : key ∈ ["if", "has", "on"])
    : (modifiers plugin).get? key = condition? (conditions plugin) key := by
  rw [modifiers, Fields.get?_ofOptional (by simp)]
  simp only [List.mem_cons, List.not_mem_nil, or_false] at conditional
  rcases conditional with rfl | rfl | rfl <;> rfl

theorem get?_modifiers_eq_none
    (other : key ∉ ["wait", "lucid", "light_mode", "if", "has", "on"])
    : (modifiers plugin).get? key = none := by
  by_contra found
  obtain ⟨value, found⟩ := Option.ne_none_iff_exists'.mp found
  obtain ⟨before, after, listed, -⟩ := List.lookup_eq_some_iff.mp found
  have restated : Restated key value :=
    restated_of_mem_modifiers plugin (key, value) (by simp [listed])
  cases restated with
  | wait | lucid | lightMode => simp at other
  | condition conditional => exact other (by simp_all)

/-- A condition that counts is read if it is a text, and then it is one that is not empty. -/
theorem bind_string?_condition?
    : (condition? (conditions plugin) key).bind Json.string? = conditionText? plugin key := by
  unfold condition? conditionText? Fields.string?
  cases (conditions plugin).get? key with
  | none => rfl
  | some value =>
      cases value with
      | string text =>
          by_cases empty : text = "" <;> simp [Option.filter, Json.isBlank, Json.string?, empty]
      | _ =>
          simp only [Option.filter, Option.bind_some, Json.string?]
          split <;> rfl

theorem condition?_eq_none_iff {fields : Fields}
    : condition? fields key = none
      ↔ ∀ value, fields.get? key = some value → value.isBlank = true := by
  simp [condition?, Option.filter_eq_none_iff]

/-- There are no older modifiers exactly where the older fields amount to none. -/
theorem modifiers_eq_nil_iff : modifiers plugin = [] ↔ ¬Modifies plugin := by
  simp only [modifiers, Fields.ofOptional, List.filterMap_eq_nil_iff, List.forall_mem_cons,
    Option.map_eq_none_iff, ite_eq_right_iff, reduceCtorEq, imp_false]
  constructor
  · rintro ⟨wait, lucid, light, onIf, onHas, onOn, -⟩ modifies
    cases modifies with
    | @loadType name loads known =>
        simp only [List.mem_cons, List.not_mem_nil, or_false] at known
        rcases known with rfl | rfl | rfl
        · simp [loads] at wait
        · simp [loads] at lucid
        · exact light loads
    | lucid on => exact lucid (.inr (Fields.flag_iff.mpr on))
    | @condition key value conditional stated counts =>
        have blank : condition? (conditions plugin) key = none := by
          simp only [List.mem_cons, List.not_mem_nil, or_false] at conditional
          rcases conditional with rfl | rfl | rfl | rfl
          · split at wait
            · cases wait
            · exact Option.map_eq_none_iff.mp wait
          · exact onIf
          · exact onHas
          · exact onOn
        simp [condition?_eq_none_iff.mp blank value stated] at counts
  · intro plain
    have loads : ∀ name ∈ ["wait", "wait lucid", "light"],
        plugin.string? "loadType" ≠ some name := fun name known loads =>
      plain (.loadType loads known)
    have blank : ∀ key ∈ ["wait", "if", "has", "on"],
        condition? (conditions plugin) key = none := by
      intro key conditional
      refine Option.filter_eq_none_iff.mpr fun value stated counts => ?_
      exact plain (.condition conditional stated (by simpa using counts))
    have lucid : ¬(conditions plugin).flag "lucid" = true := fun on =>
      plain (.lucid (Fields.flag_iff.mp on))
    simp only [List.forall_mem_cons] at loads blank
    unfold conditions at blank lucid
    simp [loads, blank, lucid]

end Older

-----------------------------------------------------------------------------------------
-- Plugins
-----------------------------------------------------------------------------------------

/-- The modifiers of a decoded plugin are those that it gives, whether it has a bag of them or not. -/
theorem modifiers_ofFields (plugin : Fields)
    : (Plugin.ofFields plugin).modifiers = Ice.ofFields (ownModifiers plugin) := by
  simp only [Plugin.modifiers, Plugin.ofFields, ownModifiers]
  cases plugin.record? "ice" <;> rfl

/-- The modifiers of a plugin of version 1 are its own with the older ones supplied. -/
theorem modifiers_ofVersion (plugin : Fields) {version : UInt64} (old : version < 2)
    : (Plugin.ofVersion version plugin).modifiers
      = Ice.ofFields (supplied (ownModifiers plugin) (modifiers plugin)) := by
  rw [Plugin.ofVersion, if_pos old]
  by_cases none : modifiers plugin = []
  · rw [ice?_of_modifiers_eq_nil none, none]
    exact modifiers_ofFields plugin
  · simp [Plugin.modifiers, ice?, none, ownModifiers]

theorem WellTyped.bind_supplied {α : Type} {kind : Kind} (read : Json → Option α)
    (wellTyped : WellTyped (ownModifiers plugin)) (known : Schema.ice.lookup key = some kind)
    (null : read .null = none) (reads : ∀ value, kind.admits value = true → (read value).isSome)
    : ((supplied (ownModifiers plugin) (modifiers plugin)).get? key).bind read
      = (((ownModifiers plugin).get? key).bind read).or
          (((modifiers plugin).get? key).bind read) :=
  bind_get?_supplied read null
    (fun field member => (restated_of_mem_modifiers plugin field member).ne_null)
    fun value found => (wellTyped key kind value known found).imp_right (reads value)

section Reading

variable (wellTyped : WellTyped (ownModifiers plugin))

include wellTyped

theorem natural?_supplied
    : (supplied (ownModifiers plugin) (modifiers plugin)).natural? "wait"
      = ((ownModifiers plugin).natural? "wait").or (olderWait? plugin) := by
  have older : ((modifiers plugin).get? "wait").bind Json.natural? = olderWait? plugin := by
    rw [get?_modifiers_wait]
    cases olderWait? plugin <;> rfl
  rw [← older]
  refine wellTyped.bind_supplied Json.natural? rfl rfl fun value integer => ?_
  rcases value with _ | _ | (_ | _) | _ | _ | _ <;> first | rfl | cases integer

theorem flag_supplied {older : Prop} [Decidable older]
    (known : Schema.ice.lookup key = some .boolean)
    (supplies : (modifiers plugin).get? key = if older then some (.bool true) else none)
    : (supplied (ownModifiers plugin) (modifiers plugin)).flag key
      = ((ownModifiers plugin).bool? key).getD older := by
  have own := wellTyped.bind_supplied Json.bool? known rfl fun value boolean => by
    rcases value with _ | _ | _ | _ | _ | _ <;> first | rfl | cases boolean
  rw [Fields.flag_eq_getD_bool?, Fields.bool?, own, supplies, ← Fields.bool?]
  by_cases older <;> cases (ownModifiers plugin).bool? key <;> simp_all [Json.bool?]

theorem string?_supplied (known : Schema.ice.lookup key = some .string)
    (conditional : key ∈ ["if", "has", "on"])
    : (supplied (ownModifiers plugin) (modifiers plugin)).string? key
      = ((ownModifiers plugin).string? key).or (conditionText? plugin key) := by
  rw [← bind_string?_condition?, ← get?_modifiers_condition plugin conditional]
  refine wellTyped.bind_supplied Json.string? known rfl fun value text => ?_
  rcases value with _ | _ | _ | _ | _ | _ <;> first | rfl | cases text

end Reading

/-- Of the modifiers that the older fields cannot amount to, a plugin has its own. -/
theorem get?_supplied_of_not_mem (plugin : Fields)
    (other : key ∉ ["wait", "lucid", "light_mode", "if", "has", "on"])
    : (supplied (ownModifiers plugin) (modifiers plugin)).get? key
      = (ownModifiers plugin).get? key := by
  rw [get?_supplied _ fun field member => (restated_of_mem_modifiers plugin field member).ne_null,
    get?_modifiers_eq_none plugin other]
  cases (ownModifiers plugin).get? key with
  | none => rfl
  | some value => cases value <;> rfl

theorem withoutOlder_ofFields_supplied (plugin : Fields)
    : (Ice.ofFields (supplied (ownModifiers plugin) (modifiers plugin))).withoutOlder
      = (Ice.ofFields (ownModifiers plugin)).withoutOlder := by
  simp (disch := simp) only [Ice.withoutOlder, Ice.ofFields, Fields.string?, Fields.natural?,
    Fields.flag, get?_supplied_of_not_mem]

/-- There is a bag of modifiers where the plugin gives one, and where older ones are put into one. -/
theorem isSome_ice?_iff (plugin : Fields)
    : (ice? plugin).isSome ↔ (plugin.record? "ice").isSome ∨ Modifies plugin := by
  by_cases none : modifiers plugin = []
  · rw [ice?_of_modifiers_eq_nil none, or_iff_left ((modifiers_eq_nil_iff plugin).mp none)]
  · have modifies := not_not.mp (mt (modifiers_eq_nil_iff plugin).mpr none)
    simp [ice?, none, modifies]

theorem get?_withoutOlder (plugin : Fields)
    (current : key ∉ ["loadType", "waitTime", "conditions"])
    : (withoutOlder plugin).get? key = plugin.get? key := by
  simp only [List.mem_cons, List.not_mem_nil, or_false, not_or] at current
  simp [withoutOlder, current]

/-- A plugin of version 1 is read by the rules of that version. -/
theorem upgraded_ofVersion {version : UInt64} (old : version < 2)
    (wellTyped : WellTyped (ownModifiers plugin))
    : Upgraded plugin (Plugin.ofVersion version plugin) := by
  have modifiers := modifiers_ofVersion plugin old
  constructor
  case name | description =>
    simp (disch := simp) [Plugin.ofVersion, old, Plugin.ofFields, Fields.text, Fields.string?,
      get?_withoutOlder]
  case ice_isSome_iff => simpa [Plugin.ofVersion, old] using isSome_ice?_iff plugin
  all_goals rw [modifiers]
  case wait => exact natural?_supplied wellTyped
  case lucid => exact flag_supplied wellTyped rfl (get?_modifiers_lucid plugin)
  case lightMode => exact flag_supplied wellTyped rfl (get?_modifiers_lightMode plugin)
  case ifCondition | hasCommand | onCommand => exact string?_supplied wellTyped rfl (by simp)
  case others =>
    have same : ownModifiers (withoutOlder plugin) = ownModifiers plugin := by
      simp (disch := simp) only [ownModifiers, Fields.record?, get?_withoutOlder]
    rw [withoutOlder_ofFields_supplied, modifiers_ofFields, same]

end Legacy

-----------------------------------------------------------------------------------------
-- Documents
-----------------------------------------------------------------------------------------

namespace Configuration

/-- Each object in the list of plugins of a document describes the plugin in its place, but for the id. -/
theorem exists_getElem?_normalize {raw : Json} {index : Nat} {fields : Fields}
    (listed : (raw.fields.records "plugins")[index]? = some fields)
    : ∃ id,
        (normalize raw).plugins[index]?
        = some { Plugin.ofVersion (Legacy.version raw.fields) fields with id } := by
  have same := congrArg (fun plugins => plugins[index]?)
    (Plugin.map_assignIds (fun plugin => { plugin with id := "" }) (fun _ _ => rfl)
      (ofDocument raw).plugins)
  rw [ofDocument_eq] at same
  simp only [List.getElem?_map, listed, Option.map_some] at same
  obtain ⟨plugin, found, eq⟩ := Option.map_eq_some_iff.mp same
  refine ⟨plugin.id, ?_⟩
  rw [show (normalize raw).plugins = Plugin.assignIds (ofDocument raw).plugins from rfl,
    ofDocument_eq, found]
  exact congrArg (fun other : Plugin => some { other with id := plugin.id }) eq

/-- A document of an older version, or of none that can be read, describes its plugins by the rules of
version 1, field by field, as long as every modifier that a plugin gives itself is null or of its type.
-/
theorem upgraded_normalize {raw : Json}
    (old : ∀ version, raw.fields.natural? "version" = some version → version < 2)
    {index : Nat} {fields : Fields}
    (listed : (raw.fields.records "plugins")[index]? = some fields)
    (wellTyped : Legacy.WellTyped (Legacy.ownModifiers fields))
    : ∃ plugin, (normalize raw).plugins[index]? = some plugin ∧ Legacy.Upgraded fields plugin := by
  have before : Legacy.version raw.fields < 2 := by
    unfold Legacy.version
    cases declared : raw.fields.natural? "version" with
    | none => decide
    | some version => exact old version declared
  obtain ⟨id, described⟩ := exists_getElem?_normalize listed
  exact ⟨_, described, { Legacy.upgraded_ofVersion before wellTyped with }⟩

/-- A plugin that gives some modifiers itself, has a load type with a wait time, and states conditions. -/
def mixedPlugin : Fields :=
  [
    ("name", .string "a/b"), ("loadType", .string "wait lucid"), ("waitTime", .string " +007\n"),
    ("conditions",
      .object
        [("wait", .natural 9), ("if", .string ""), ("has", .natural 5), ("on", .string "zsh")]),
    ("ice", .object [("wait", .null), ("lucid", .bool false), ("pick", .string "x.zsh")])
  ]

/-- A document whose version cannot be read. -/
def mixedDocument : Json :=
  .object [("version", .string "2"), ("plugins", .array [.natural 3, .object mixedPlugin])]

theorem upgraded_normalize_mixedDocument
    : (∀ version, mixedDocument.fields.natural? "version" = some version → version < 2)
      ∧ (mixedDocument.fields.records "plugins")[0]? = some mixedPlugin
      ∧ Legacy.WellTyped (Legacy.ownModifiers mixedPlugin)
      ∧ ∃ plugin,
          (normalize mixedDocument).plugins[0]? = some plugin
          ∧ Legacy.Upgraded mixedPlugin plugin
          ∧ plugin.modifiers.wait = some 7
          ∧ plugin.modifiers.lucid = false
          ∧ plugin.modifiers.hasCommand = none
          ∧ plugin.modifiers.onCommand = some "zsh" := by
  have old : ∀ version, mixedDocument.fields.natural? "version" = some version → version < 2 :=
    fun version declared => by cases declared
  have wellTyped : Legacy.WellTyped (Legacy.ownModifiers mixedPlugin) := by
    have own : Legacy.ownModifiers mixedPlugin
        = [("wait", .null), ("lucid", .bool false), ("pick", .string "x.zsh")] := rfl
    rw [own]
    refine .of_forall_mem ?_
    simp [Schema.ice, List.lookup_cons, Kind.admits]
  have listed : (mixedDocument.fields.records "plugins")[0]? = some mixedPlugin := rfl
  obtain ⟨plugin, described, upgraded⟩ := upgraded_normalize old listed wellTyped
  refine ⟨old, listed, wellTyped, plugin, described, upgraded, ?_, ?_, ?_, ?_⟩
  · exact upgraded.wait.trans (by decide)
  · exact upgraded.lucid.trans (by decide)
  · exact upgraded.hasCommand.trans (by decide)
  · exact upgraded.onCommand.trans (by decide)

end Configuration

end ZshStartup
