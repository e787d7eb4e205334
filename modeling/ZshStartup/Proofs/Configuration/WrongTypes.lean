import ZshStartup.Proofs.Configuration.Document
import ZshStartup.Proofs.Configuration.Schema

/-! Fields of the wrong type. Normalization treats such a field as missing wherever it stands, with one
exception: a modifier of the wrong type, unless it is null, keeps out the one that the older fields of
its plugin amount to.
-/

namespace ZshStartup

open Json (Fields)

-----------------------------------------------------------------------------------------
-- Parts of a document
-----------------------------------------------------------------------------------------

/-- Of the records in an array, a changed one shows exactly if it decodes differently, by induction on
the elements up to its place.
-/
theorem Json.map_records_modify_iff {α : Type} (decode : Fields → α) {items : List Json}
    {position : Nat} {item changed : Fields} {change : Json → Json}
    (here : items[position]? = some (.object item))
    (becomes : change (.object item) = .object changed)
    : (Json.array (items.modify position change)).records.map decode
          = (Json.array items).records.map decode
      ↔ decode changed = decode item := by
  induction items generalizing position with
  | nil => simp at here
  | cons head items ih =>
      cases position with
      | zero =>
          obtain rfl : head = .object item := by simpa using here
          simp [Json.records, Json.record?, becomes]
      | succ position =>
          have later := @ih position (by simpa using here)
          simp only [Json.records, List.modify_succ_cons, List.filterMap_cons] at later ⊢
          cases head <;> simpa [Json.record?] using later

namespace Configuration

variable {fields : Fields}

theorem ofDocument_congr {others : Fields} (h : Schema.document.Agree fields others)
    : ofDocument (.object fields) = ofDocument (.object others) := by
  have plugins : fields.records "plugins" = others.records "plugins" := by
    simp only [Fields.records_eq_typed?, h "plugins" .array rfl]
  have version : Legacy.version fields = Legacy.version others := by
    simp only [Legacy.version, Fields.natural?_eq_typed?, h "version" .integer rfl]
  simp only [ofDocument_eq, Json.fields, ofFields_congr h, plugins, version]

theorem ofDocument_insert_bootstrap {bootstrap changed : Fields}
    (stored : fields.get? "zinitInit" = some (.object bootstrap))
    (same : Bootstrap.ofFields changed = Bootstrap.ofFields bootstrap)
    : ofDocument (.object (fields.insert "zinitInit" (.object changed)))
      = ofDocument (.object fields) := by
  have given : fields.record? "zinitInit" = some bootstrap := by
    simp [Fields.record?, stored, Json.record?]
  simp [ofDocument_eq, Json.fields, ofFields, Legacy.version, given, Json.record?, same]

theorem ofDocument_insert_plugins {plugins changed : Json}
    (stored : fields.get? "plugins" = some plugins)
    (same : changed.records.map (Plugin.ofVersion (Legacy.version fields))
      = plugins.records.map (Plugin.ofVersion (Legacy.version fields)))
    : ofDocument (.object (fields.insert "plugins" changed)) = ofDocument (.object fields) := by
  have listed : fields.records "plugins" = plugins.records := by
    simp [Fields.records, stored]
  unfold Legacy.version at same
  simp [ofDocument_eq, Json.fields, ofFields, Legacy.version, listed, same]

end Configuration

-----------------------------------------------------------------------------------------
-- Modifiers
-----------------------------------------------------------------------------------------

namespace Legacy

variable {ice : Fields} {name : String} {kind : Kind} {value : Json}

/-- What a plugin of version 1 says of a modifier in its older fields, in a form that decoding takes. -/
def Restates (plugin : Fields) (name : String) : Prop :=
  ∃ given kind,
    (modifiers plugin).get? name = some given ∧ Schema.ice.lookup name = some kind
    ∧ kind.admits given = true

theorem modifiers_ne_null (plugin : Fields) : ∀ field ∈ modifiers plugin, field.2 ≠ .null :=
  fun field member => (restated_of_mem_modifiers plugin field member).ne_null

/-- Decoding tells an older modifier of the right type from anything of another type. -/
theorem Restated.ofFields_ne {given : Json} {other : Fields} (restated : Restated name given)
    (known : Schema.ice.lookup name = some kind) (admitted : kind.admits given = true)
    (present : ice.get? name = some given) (missing : other.typed? name kind = none)
    : Ice.ofFields ice ≠ Ice.ofFields other := by
  intro same
  cases restated with
  | wait seconds =>
      obtain rfl : Kind.integer = kind := Option.some.inj known
      have wait : ice.natural? "wait" = other.natural? "wait" := congrArg Ice.wait same
      rw [Fields.natural?_eq_typed? other, missing] at wait
      rw [Fields.natural?, present] at wait
      cases wait
  | lucid =>
      obtain rfl : Kind.boolean = kind := Option.some.inj known
      have lucid : ice.flag "lucid" = other.flag "lucid" := congrArg Ice.lucid same
      rw [Fields.flag_eq_typed? other, missing] at lucid
      simp [Fields.flag, present, Json.isTrue] at lucid
  | lightMode =>
      obtain rfl : Kind.boolean = kind := Option.some.inj known
      have lightMode : ice.flag "light_mode" = other.flag "light_mode" :=
        congrArg Ice.lightMode same
      rw [Fields.flag_eq_typed? other, missing] at lightMode
      simp [Fields.flag, present, Json.isTrue] at lightMode
  | condition conditional _ =>
      have text : ice.string? name = other.string? name := by
        simp only [List.mem_cons, List.not_mem_nil, or_false] at conditional
        rcases conditional with rfl | rfl | rfl
        · exact congrArg Ice.ifCondition same
        · exact congrArg Ice.hasCommand same
        · exact congrArg Ice.onCommand same
      obtain rfl : Kind.string = kind := by
        simp only [List.mem_cons, List.not_mem_nil, or_false] at conditional
        rcases conditional with rfl | rfl | rfl <;> exact Option.some.inj known
      rw [Fields.string?_eq_typed? other, missing] at text
      cases given <;> simp_all [Fields.string?, Json.string?, Kind.admits]

/-- A modifier of the wrong type keeps out the older one unless it is null, so the older one shows
without it if decoding takes that one.
-/
theorem ofFields_supplied_erase_iff (plugin : Fields) (known : Schema.ice.lookup name = some kind)
    (found : ice.get? name = some value) (wrong : kind.admits value = false)
    : Ice.ofFields (supplied (ice.erase name) (modifiers plugin))
          = Ice.ofFields (supplied ice (modifiers plugin))
      ↔ ¬(value ≠ .null ∧ Restates plugin name) := by
  have present := modifiers_ne_null plugin
  have without : (supplied (ice.erase name) (modifiers plugin)).get? name
      = (modifiers plugin).get? name := by
    rw [get?_supplied _ present, Fields.get?_erase, if_pos rfl]
  constructor
  · rintro same ⟨nonNull, given, _, older, again, admitted⟩
    obtain rfl := Option.some.inj (known.symm.trans again)
    obtain ⟨before, after, listed, -⟩ := List.lookup_eq_some_iff.mp older
    have restated : Restated name given :=
      restated_of_mem_modifiers plugin (name, given) (by simp [listed])
    have masked : (supplied ice (modifiers plugin)).get? name = some value := by
      rw [get?_supplied _ present, found]
      cases value <;> first | rfl | contradiction
    refine restated.ofFields_ne known admitted (without.trans older) ?_ same
    simp [Fields.typed?, masked, Option.filter, wrong]
  · intro unmasked
    refine Ice.ofFields_congr fun other otherKind otherKnown => ?_
    unfold Fields.typed?
    by_cases here : other = name
    · subst here
      obtain rfl := Option.some.inj (known.symm.trans otherKnown)
      have untaken (nonNull : value ≠ .null)
          : ((modifiers plugin).get? other).filter kind.admits = none := by
        refine Option.filter_eq_none_iff.mpr fun given older admitted => ?_
        exact unmasked ⟨nonNull, given, kind, older, known, admitted⟩
      rw [without, get?_supplied _ present, found]
      cases value with
      | null => cases (modifiers plugin).get? other <;> simp [Option.filter, wrong]
      | _ =>
          rw [untaken Json.noConfusion]
          simp [Option.filter, wrong]
    · rw [get?_supplied _ present, get?_supplied _ present, Fields.get?_erase, if_neg here]

/-- A plugin that gives modifiers has those, with the older ones supplied. -/
theorem ice?_eq_supplied {plugin : Fields} (gives : plugin.record? "ice" = some ice)
    : ice? plugin = some (supplied ice (modifiers plugin)) := by
  unfold ice?
  split
  · next none =>
      rw [List.isEmpty_iff.mp none]
      exact gives
  · rw [gives]
    rfl

end Legacy

/-- A plugin of any version is read without a field of the wrong type as it is with it. -/
theorem Plugin.ofVersion_erase {fields : Fields} {key : String} {kind : Kind} {value : Json}
    (version : UInt64) (known : Schema.plugin.lookup key = some kind)
    (found : fields.get? key = some value) (wrong : kind.admits value = false)
    : ofVersion version (fields.erase key) = ofVersion version fields := by
  have agree := Schema.agree_erase known found wrong
  have current : key ∉ ["loadType", "waitTime", "conditions"] := by
    intro older
    simp only [List.mem_cons, List.not_mem_nil, or_false] at older
    rcases older with rfl | rfl | rfl <;> cases known
  have legacy : Legacy.modifiers (fields.erase key) = Legacy.modifiers fields := by
    refine Legacy.modifiers_congr fun older member => ?_
    have different : older ≠ key := fun same => current (same ▸ member)
    rw [Fields.get?_erase, if_neg different]
  have ice : (fields.erase key).record? "ice" = fields.record? "ice" := by
    simp only [Fields.record?_eq_typed?, agree "ice" .object rfl]
  unfold ofVersion Legacy.ice?
  rw [ofFields_congr agree, legacy, ice]

/-- Nothing but the modifiers of a plugin is read from them. -/
theorem Plugin.ofVersion_insert_ice (version : UInt64) (plugin : Fields) (value : Json)
    : ofVersion version (plugin.insert "ice" value)
      = { ofVersion version plugin with
          ice := (ofVersion version (plugin.insert "ice" value)).ice } := by
  unfold ofVersion
  split <;> simp [ofFields]

/-- Of a plugin's modifiers, the only field of the wrong type that is not read as a missing one is a
value that keeps out what the older fields of a plugin of version 1 say of the same modifier.
-/
theorem Plugin.ice_ofVersion_erase_iff {plugin ice : Fields} {name : String} {kind : Kind}
    {value : Json} (version : UInt64) (gives : plugin.get? "ice" = some (.object ice))
    (known : Schema.ice.lookup name = some kind) (found : ice.get? name = some value)
    (wrong : kind.admits value = false)
    : (ofVersion version (plugin.insert "ice" (.object (ice.erase name)))).ice
          = (ofVersion version plugin).ice
      ↔ ¬(version < 2 ∧ value ≠ .null ∧ Legacy.Restates plugin name) := by
  have record : plugin.record? "ice" = some ice := by
    simp [Fields.record?, gives, Json.record?]
  have recordErased
      : (plugin.insert "ice" (.object (ice.erase name))).record? "ice" = some (ice.erase name) := by
    simp [Json.record?]
  have legacy : Legacy.modifiers (plugin.insert "ice" (.object (ice.erase name)))
      = Legacy.modifiers plugin := by
    refine Legacy.modifiers_congr fun older member => ?_
    have different : older ≠ "ice" := by
      rintro rfl
      simp at member
    rw [Fields.get?_insert, if_neg different]
  unfold ofVersion
  by_cases old : version < 2
  · have masks := Legacy.ofFields_supplied_erase_iff plugin known found wrong
    simpa [old, Legacy.ice?_eq_supplied record, Legacy.ice?_eq_supplied recordErased, legacy]
      using masks
  · have same := Ice.ofFields_congr (Schema.agree_erase known found wrong)
    simp [old, ofFields, record, recordErased, same]

/-- A document is read without a field of the wrong type in one of its entries as it is with it. -/
theorem Configuration.ofDocument_erase_entry {fields item : Fields} {list key : String} {kind : Kind}
    {value : Json} {items : List Json} {position : Nat}
    (known : (Schema.entry list).lookup key = some kind)
    (stored : fields.get? list = some (.array items))
    (here : items[position]? = some (.object item)) (found : item.get? key = some value)
    (wrong : kind.admits value = false)
    : ofDocument
          (.object
            (fields.insert list
              (.array (items.modify position fun item => item.eraseAt [.key key]))))
      = ofDocument (.object fields) := by
  have same {α : Type} (decode : Fields → α) (h : decode (item.erase key) = decode item)
      : (Json.array (items.modify position fun item => item.eraseAt [.key key])).records.map decode
        = (Json.array items).records.map decode :=
    (Json.map_records_modify_iff decode here rfl).mpr h
  have listed : fields.records list = (Json.array items).records := by
    simp [Fields.records, stored]
  unfold Schema.entry at known
  split at known
  · have entries := same _ (Alias.ofFields_congr (Schema.agree_erase known found wrong))
    simp [ofDocument_eq, Json.fields, ofFields, Legacy.version, listed, entries]
  · have entries := same _ (PathEntry.ofFields_congr (Schema.agree_erase known found wrong))
    simp [ofDocument_eq, Json.fields, ofFields, Legacy.version, listed, entries]
  · have entries := same _ (EnvVar.ofFields_congr (Schema.agree_erase known found wrong))
    simp [ofDocument_eq, Json.fields, ofFields, Legacy.version, listed, entries]
  · have entries := same _ (Plugin.ofVersion_erase (Legacy.version fields) known found wrong)
    exact ofDocument_insert_plugins stored entries
  · have entries := same _ (ShellOption.ofFields_congr (Schema.agree_erase known found wrong))
    simp [ofDocument_eq, Json.fields, ofFields, Legacy.version, listed, entries]
  · cases known

-----------------------------------------------------------------------------------------
-- Normalization
-----------------------------------------------------------------------------------------

/-- At a place stands a modifier of a plugin of version 1 that is not null, so that it keeps out what the
older fields of the plugin say of it.
-/
inductive Legacy.Masks (raw : Json) : Json.Path → Prop
  | modifier {position : Nat} {name : String} {plugin : Fields} {value : Json}
    (old : version raw.fields < 2)
    (entry : raw.at? [.key "plugins", .index position] = some (.object plugin))
    (given : raw.at? [.key "plugins", .index position, .key "ice", .key name] = some value)
    (nonNull : value ≠ .null) (restates : Restates plugin name)
    : Masks raw [.key "plugins", .index position, .key "ice", .key name]

theorem Legacy.Masks.length_path {raw : Json} {path : Json.Path} (masks : Masks raw path)
    : path.length = 4 := by
  cases masks
  rfl

theorem Legacy.masks_modifier_iff {raw value : Json} {position : Nat} {name : String} {plugin : Fields}
    (entry : raw.at? [.key "plugins", .index position] = some (.object plugin))
    (given : raw.at? [.key "plugins", .index position, .key "ice", .key name] = some value)
    : Masks raw [.key "plugins", .index position, .key "ice", .key name]
      ↔ version raw.fields < 2 ∧ value ≠ .null ∧ Restates plugin name := by
  constructor
  · rintro ⟨old, another, again, nonNull, restates⟩
    obtain rfl := Json.object.inj (Option.some.inj (entry.symm.trans another))
    obtain rfl := Option.some.inj (given.symm.trans again)
    exact ⟨old, nonNull, restates⟩
  · rintro ⟨old, nonNull, restates⟩
    exact .modifier old entry given nonNull restates

namespace Configuration

/-- The modifiers in a normalized configuration are those of the plugins that the document lists. -/
theorem map_ice_normalize (raw : Json)
    : (normalize raw).plugins.map Plugin.ice
      = (raw.fields.records "plugins").map fun plugin =>
          (Plugin.ofVersion (Legacy.version raw.fields) plugin).ice := by
  have identified : (normalize raw).plugins = Plugin.assignIds (ofDocument raw).plugins := rfl
  rw [identified, Plugin.map_assignIds Plugin.ice (fun _ _ => rfl), ofDocument_eq, List.map_map]
  rfl

theorem normalize_erase_modifier_iff {fields plugin ice : Fields} {items : List Json}
    {position : Nat} {name : String} {kind : Kind} {value : Json}
    (stored : fields.get? "plugins" = some (.array items))
    (here : items[position]? = some (.object plugin))
    (gives : plugin.get? "ice" = some (.object ice))
    (known : Schema.ice.lookup name = some kind) (found : ice.get? name = some value)
    (wrong : kind.admits value = false)
    : normalize
            (.object
              (fields.insert "plugins"
                (.array
                  (items.modify position fun item => item.eraseAt [.key "ice", .key name]))))
          = normalize (.object fields)
      ↔ ¬(Legacy.version fields < 2 ∧ value ≠ .null ∧ Legacy.Restates plugin name) := by
  have becomes : Json.eraseAt (.object plugin) [.key "ice", .key name]
      = .object (plugin.insert "ice" (.object (ice.erase name))) := by
    simp [Json.eraseAt, gives]
  have shows {α : Type} (decode : Fields → α)
      : (Json.array (items.modify position fun item => item.eraseAt [.key "ice", .key name])).records.map
              decode
            = (Json.array items).records.map decode
        ↔ decode (plugin.insert "ice" (.object (ice.erase name))) = decode plugin :=
    Json.map_records_modify_iff decode here becomes
  rw [← Plugin.ice_ofVersion_erase_iff _ gives known found wrong]
  constructor
  · intro same
    have modifiers := congrArg (fun config => config.plugins.map Plugin.ice) same
    refine (shows fun plugin => (Plugin.ofVersion (Legacy.version fields) plugin).ice).mp ?_
    have listed : fields.records "plugins" = (Json.array items).records := by
      simp [Fields.records, stored]
    simpa [map_ice_normalize, Json.fields, Legacy.version, listed] using modifiers
  · intro same
    have plugins := (shows (Plugin.ofVersion (Legacy.version fields))).mpr
      (by rw [Plugin.ofVersion_insert_ice, same])
    have document := ofDocument_insert_plugins stored plugins
    rw [normalize, document, normalize]

/-- A field of the wrong type is as good as missing wherever it stands, unless it masks an older field of
its plugin.
-/
theorem normalize_eraseAt_eq_iff {raw value : Json} {path : Json.Path} {kind : Kind}
    (field : Schema.kind? path = some kind) (found : raw.at? path = some value)
    (wrong : kind.admits value = false)
    : normalize (raw.eraseAt path) = normalize raw ↔ ¬Legacy.Masks raw path := by
  unfold Schema.kind? at field
  split at field
  · next name =>
      obtain ⟨fields, held, rfl, stored, rest⟩ := Json.at?_key_cons found
      obtain rfl : held = value := Option.some.inj rest
      have same := ofDocument_congr (Schema.agree_erase field stored wrong)
      have unmasked : ¬Legacy.Masks (.object fields) [.key name] :=
        fun masks => absurd masks.length_path (by simp)
      simpa [normalize, Json.eraseAt, same] using unmasked
  · next name =>
      obtain ⟨fields, entry, rfl, stored, rest⟩ := Json.at?_key_cons found
      obtain ⟨bootstrap, held, rfl, inner, rest⟩ := Json.at?_key_cons rest
      obtain rfl : held = value := Option.some.inj rest
      have same := ofDocument_insert_bootstrap stored
        (Bootstrap.ofFields_congr (Schema.agree_erase field inner wrong))
      have unmasked : ¬Legacy.Masks (.object fields) [.key "zinitInit", .key name] :=
        fun masks => absurd masks.length_path (by simp)
      simpa [normalize, Json.eraseAt, stored, same] using unmasked
  · next list position name =>
      obtain ⟨fields, entry, rfl, stored, rest⟩ := Json.at?_key_cons found
      obtain ⟨items, entry, rfl, here, rest⟩ := Json.at?_index_cons rest
      obtain ⟨item, held, rfl, inner, rest⟩ := Json.at?_key_cons rest
      obtain rfl : held = value := Option.some.inj rest
      have same := ofDocument_erase_entry field stored here inner wrong
      have unmasked : ¬Legacy.Masks (.object fields) [.key list, .index position, .key name] :=
        fun masks => absurd masks.length_path (by simp)
      simpa [normalize, Json.eraseAt, stored, same] using unmasked
  · next position name =>
      obtain ⟨fields, entry, rfl, stored, rest⟩ := Json.at?_key_cons found
      obtain ⟨items, entry, rfl, here, rest⟩ := Json.at?_index_cons rest
      obtain ⟨plugin, entry, rfl, gives, rest⟩ := Json.at?_key_cons rest
      obtain ⟨ice, held, rfl, inner, rest⟩ := Json.at?_key_cons rest
      obtain rfl : held = value := Option.some.inj rest
      have entry
          : Json.at? (.object fields) [.key "plugins", .index position] = some (.object plugin) := by
        simp [Json.at?, stored, here]
      rw [Legacy.masks_modifier_iff entry found]
      have erased := normalize_erase_modifier_iff stored here gives field inner wrong
      simpa only [Json.eraseAt, stored, Json.fields] using erased
  · cases field

/-- A document of version 1 whose plugin has a wait time and gives the wait of its modifiers as well. -/
def delayedDocument (wait : Json) : Json :=
  .object
    [
      ("plugins",
        .array
          [
            .object
              [("name", .string "a/b"), ("loadType", .string "wait"), ("waitTime", .string "3"),
                ("ice", .object [("wait", wait)])]
          ])
    ]

/-- The place of that wait. -/
def delayedPath : Json.Path :=
  [.key "plugins", .index 0, .key "ice", .key "wait"]

/-- A null is of the wrong type, but it masks nothing. -/
theorem normalize_eraseAt_delayedDocument_null
    : Schema.kind? delayedPath = some .integer
      ∧ (delayedDocument .null).at? delayedPath = some .null
      ∧ Kind.integer.admits .null = false
      ∧ normalize ((delayedDocument .null).eraseAt delayedPath)
        = normalize (delayedDocument .null) := by
  have unmasked : ¬Legacy.Masks (delayedDocument .null) delayedPath := by
    rintro ⟨old, entry, given, nonNull, restates⟩
    exact nonNull (Option.some.inj given).symm
  exact ⟨rfl, rfl, rfl, (normalize_eraseAt_eq_iff rfl rfl rfl).mpr unmasked⟩

theorem normalize_eraseAt_delayedDocument_bool
    : Schema.kind? delayedPath = some .integer
      ∧ (delayedDocument (.bool false)).at? delayedPath = some (.bool false)
      ∧ Kind.integer.admits (.bool false) = false
      ∧ normalize ((delayedDocument (.bool false)).eraseAt delayedPath)
        ≠ normalize (delayedDocument (.bool false)) := by
  exact ⟨rfl, rfl, rfl, by decide⟩

end Configuration

end ZshStartup
