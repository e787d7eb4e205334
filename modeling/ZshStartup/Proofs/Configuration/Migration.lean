import ZshStartup.Configuration.Legacy

/-! What migration makes of a plugin. Only the modifiers change, and a modifier changes only where the
plugin does not give it itself.
-/

namespace ZshStartup.Legacy

open Json (Fields)

/-- Modifiers with all of the older ones supplied that are missing or null. -/
def supplied (ice legacy : Fields) : Fields :=
  legacy.foldl (fun ice field => supply ice field.1 field.2) ice

/-- The modifiers that a plugin of version 1 has, if it has any. -/
def ice? (plugin : Fields) : Option Fields :=
  if (modifiers plugin).isEmpty then
    plugin.record? "ice"
  else
    some (supplied ((plugin.record? "ice").getD []) (modifiers plugin))

/-- A modifier that the plugin gives itself counts, and otherwise the older one, by induction on those
that are supplied: none of them is null, so the first with a key settles it.
-/
theorem get?_supplied (ice : Fields) {legacy : Fields}
    (present : ∀ field ∈ legacy, field.2 ≠ .null) (key : String)
    : (supplied ice legacy).get? key
      = match ice.get? key with
        | none => legacy.get? key
        | some .null => (legacy.get? key).or (some .null)
        | some value => some value := by
  induction legacy generalizing ice with
  | nil =>
      cases own : ice.get? key with
      | none => simp [supplied, own]
      | some given => cases given <;> simp [supplied, own]
  | cons field legacy ih =>
      obtain ⟨name, value⟩ := field
      obtain ⟨nonNull, present⟩ := List.forall_mem_cons.mp present
      have step : supplied ice ((name, value) :: legacy) = supplied (supply ice name value) legacy :=
        rfl
      rw [step, ih _ present, Fields.get?_cons]
      unfold supply
      by_cases same : key = name
      · subst same
        cases own : ice.get? key with
        | none => cases value <;> simp_all
        | some given => cases given <;> cases value <;> simp_all
      · cases ice.get? name with
        | none => simp [same]
        | some given => cases given <;> simp [same]

/-- The forms that older modifiers take. -/
inductive Restated : String → Json → Prop
  | wait (seconds : UInt64) : Restated "wait" (.natural seconds)
  | lucid : Restated "lucid" (.bool true)
  | lightMode : Restated "light_mode" (.bool true)
  | condition {key : String} {value : Json} (conditional : key ∈ ["if", "has", "on"])
    (counts : value.isBlank = false)
    : Restated key value

theorem Restated.ne_null {key : String} {value : Json} (h : Restated key value) : value ≠ .null := by
  cases h with
  | wait | lucid | lightMode => exact Json.noConfusion
  | condition _ counts =>
      rintro rfl
      cases counts

theorem restated_of_mem_modifiers (plugin : Fields)
    : ∀ field ∈ modifiers plugin, Restated field.1 field.2 := by
  have condition {conditions : Fields} {key : String} {value : Json}
      (conditional : key ∈ ["if", "has", "on"]) (found : condition? conditions key = some value)
      : Restated key value :=
    .condition conditional (by simpa using (Option.filter_eq_some_iff.mp found).2)
  rintro ⟨key, value⟩ member
  obtain ⟨⟨name, source⟩, listed, found⟩ := List.mem_filterMap.mp member
  obtain ⟨given, eq, same⟩ := Option.map_eq_some_iff.mp found
  obtain ⟨rfl, rfl⟩ := Prod.mk.inj same
  simp only [List.mem_cons, Prod.mk.injEq, List.not_mem_nil, or_false] at listed
  rcases listed with
    ⟨rfl, rfl⟩ | ⟨rfl, rfl⟩ | ⟨rfl, rfl⟩ | ⟨rfl, rfl⟩ | ⟨rfl, rfl⟩ | ⟨rfl, rfl⟩
  · split at eq
    · cases eq; exact .wait _
    · obtain ⟨seconds, -, rfl⟩ := Option.map_eq_some_iff.mp eq
      exact .wait _
  · split at eq <;> cases eq
    exact .lucid
  · split at eq <;> cases eq
    exact .lightMode
  · exact condition (by simp) eq
  · exact condition (by simp) eq
  · exact condition (by simp) eq

/-- Migration leaves all of a plugin alone but its modifiers and the older fields. -/
theorem get?_migratePlugin (plugin : Fields) {key : String} (other : key ≠ "ice")
    (current : key ∉ ["loadType", "waitTime", "conditions"])
    : (migratePlugin plugin).get? key = plugin.get? key := by
  simp only [List.mem_cons, List.not_mem_nil, or_false, not_or] at current
  obtain ⟨loadType, waitTime, conditions⟩ := current
  simp only [migratePlugin]
  split <;> simp [other, loadType, waitTime, conditions]

theorem record?_migratePlugin (plugin : Fields)
    : (migratePlugin plugin).record? "ice" = ice? plugin := by
  have kept : (((plugin.erase "loadType").erase "waitTime").erase "conditions").record? "ice"
      = plugin.record? "ice" := by
    simp [Fields.record?]
  simp only [migratePlugin, ice?]
  split
  · exact kept
  · rw [kept]
    simp [Json.record?, supplied]

/-- A migrated plugin differs from the plugin in nothing but its modifiers. -/
theorem ofFields_migratePlugin (plugin : Fields)
    : Plugin.ofFields (migratePlugin plugin)
      = { Plugin.ofFields plugin with ice := (ice? plugin).map Ice.ofFields } := by
  have kept {key : String} (other : key ≠ "ice")
      (current : key ∉ ["loadType", "waitTime", "conditions"]) :=
    get?_migratePlugin plugin other current
  simp [Plugin.ofFields, Fields.text, Fields.string?, record?_migratePlugin,
    @kept "id" (by simp) (by simp), @kept "name" (by simp) (by simp),
    @kept "description" (by simp) (by simp)]

/-- A plugin without older fields has the modifiers that it gives. -/
theorem ice?_of_modifiers_eq_nil {plugin : Fields} (h : modifiers plugin = [])
    : ice? plugin = plugin.record? "ice" := by
  simp [ice?, h]

/-- Only the older fields have a part in what they amount to. -/
theorem modifiers_congr {plugin other : Fields}
    (same : ∀ key ∈ ["loadType", "waitTime", "conditions"], plugin.get? key = other.get? key)
    : modifiers plugin = modifiers other := by
  simp only [List.forall_mem_cons] at same
  obtain ⟨loadType, waitTime, conditions, -⟩ := same
  unfold modifiers Fields.string? Fields.record?
  rw [loadType, waitTime, conditions]

end ZshStartup.Legacy
