import ZshStartup.Proofs.Configuration.WrongTypes
import ZshStartup.Proofs.Edit.Identity

/-! Two ways to patch a configuration. An editor replaces parts of the value that it holds; a loader
overlays the fields of the patch on those that the value is stored as, and normalizes the result. Both
come to the same unless a variable names the empty owner under the name of a plugin, which no decoded
variable does.
-/

namespace ZshStartup

open Json (Fields)

-----------------------------------------------------------------------------------------
-- Patches as fields
-----------------------------------------------------------------------------------------

/-- The parts that a patch carries as the fields of a document. -/
def Patch.toFields (change : Patch) : Fields :=
  .ofOptional
    [
      ("zinitInit", change.bootstrap.map fun bootstrap => .object bootstrap.toFields),
      ("aliases", change.aliases.map (.ofRecords Alias.toFields)),
      ("pathVars", change.pathEntries.map (.ofRecords PathEntry.toFields)),
      ("envVars", change.envVars.map (.ofRecords EnvVar.toFields)),
      ("plugins", change.plugins.map (.ofRecords Plugin.toFields)),
      ("zshOptions", change.options.map (.ofRecords ShellOption.toFields)),
      ("initScript", change.initScript.map .string)
    ]

namespace Configuration

/-- A configuration with the parts that a patch carries in the place of its own, and nothing settled. -/
def replace (config : Configuration) (change : Patch) : Configuration where
  version := config.version
  bootstrap := change.bootstrap.getD config.bootstrap
  aliases := change.aliases.getD config.aliases
  pathEntries := change.pathEntries.getD config.pathEntries
  envVars := change.envVars.getD config.envVars
  plugins := change.plugins.getD config.plugins
  options := change.options.getD config.options
  initScript := change.initScript.getD config.initScript

/-- The fields of a patch overlay those of a configuration just as its parts replace the parts. -/
theorem agree_overlay_toFields (config : Configuration) (change : Patch)
    : Schema.document.Agree (config.toFields.overlay change.toFields)
        (config.replace change).toFields := by
  have part {α : Type} (encode : α → Json) (given : Option α) (own : α)
      : (some (given.map encode)).join.or (some (encode own)) = some (encode (given.getD own)) := by
    cases given <;> rfl
  intro key kind known
  have listed : (key, kind) ∈ Schema.document := by
    obtain ⟨before, after, split, -⟩ := List.lookup_eq_some_iff.mp known
    simp [split]
  refine congrArg (Option.filter kind.admits) ?_
  rw [Fields.get?_overlay, Patch.toFields, Fields.get?_ofOptional (by simp)]
  simp only [Schema.document, List.mem_cons, Prod.mk.injEq, List.not_mem_nil, or_false] at listed
  rcases listed with ⟨rfl, -⟩ | ⟨rfl, -⟩ | ⟨rfl, -⟩ | ⟨rfl, -⟩ | ⟨rfl, -⟩ | ⟨rfl, -⟩ | ⟨rfl, -⟩ |
    ⟨rfl, -⟩
  · rfl
  · exact part _ change.bootstrap config.bootstrap
  · exact part _ change.aliases config.aliases
  · exact part _ change.pathEntries config.pathEntries
  · exact part _ change.envVars config.envVars
  · exact part _ change.plugins config.plugins
  · exact part _ change.options config.options
  · exact part _ change.initScript config.initScript

theorem normalize_overlay_toFields (config : Configuration) (change : Patch)
    : normalize (.object (config.toFields.overlay change.toFields))
      = (config.replace change).reloaded := by
  rw [normalize, ofDocument_congr (agree_overlay_toFields config change)]
  exact normalize_toJson_eq_reloaded _

end Configuration

-----------------------------------------------------------------------------------------
-- Empty owners
-----------------------------------------------------------------------------------------

/-- What a document drops from a variable does not show in the link that the variable gets, unless the
variable names the empty owner under the name of a plugin: then only the document lets the plugin have
it.
-/
theorem EnvVar.link_reread_eq_iff {plugins : List Plugin} (identified : Plugin.Identified plugins)
    (entry : EnvVar)
    : entry.reread.link plugins = entry.link plugins
      ↔ (entry.owner = some "" → ∀ plugin ∈ plugins, entry.group ≠ some plugin.name) := by
  by_cases empty : entry.owner = some ""
  · have missing : plugins.find? (·.id == "") = none := by
      simpa using identified.assigned
    have dropped : entry.link plugins = entry.reread := by
      simp [link, reread, empty, missing, Option.filter]
    have unowned : entry.reread.owner = none := by simp [reread, empty, Option.filter]
    rw [dropped, link_eq_self_iff identified.distinct, imp_iff_right empty]
    exact ⟨fun linked => linked.unowned unowned,
      fun apart => ⟨by simp [unowned], fun _ => apart⟩⟩
  · rw [(reread_eq_self_iff entry).mpr empty]
    exact iff_of_true rfl fun named => absurd named empty

namespace Configuration

/-- Replacing parts and overlaying fields come to the same exactly if no variable names the empty owner
under the name of a plugin.
-/
theorem patch_eq_normalize_overlay_iff {config : Configuration} (sound : config.Sound)
    (change : Patch)
    : config.patch change = normalize (.object (config.toFields.overlay change.toFields))
      ↔ ∀ entry ∈ (config.replace change).envVars, entry.owner = some "" →
          ∀ plugin ∈ (config.replace change).plugins, entry.group ≠ some plugin.name := by
  have bootstrap
      : (change.bootstrap.map Bootstrap.orDefaults).getD config.bootstrap
        = (change.bootstrap.getD config.bootstrap).orDefaults := by
    cases change.bootstrap with
    | none => exact (config.bootstrap.orDefaults_eq_self_iff.mpr ⟨sound.brewPath, sound.zinitHome⟩).symm
    | some bootstrap => rfl
  have names (group : Option String)
      : (∀ plugin ∈ Plugin.assignIds (config.replace change).plugins, group ≠ some plugin.name)
        ↔ ∀ plugin ∈ (config.replace change).plugins, group ≠ some plugin.name := by
    have same := Plugin.map_assignIds Plugin.name (fun _ _ => rfl) (config.replace change).plugins
    rw [← List.forall_mem_map (f := Plugin.name) (P := fun name => group ≠ some name), same,
      List.forall_mem_map]
  have settled
      : config.patch change = (config.replace change).reloaded
        ↔ (config.replace change).envVars.map
              (EnvVar.link (Plugin.assignIds (config.replace change).plugins))
            = (config.replace change).reloaded.envVars := by
    refine ⟨congrArg Configuration.envVars, fun same => ?_⟩
    simp only [patch, assignIds, linkOwners, bootstrap, sound.current]
    exact congrArg (fun envVars => { (config.replace change).reloaded with envVars }) same
  rw [normalize_overlay_toFields, settled, reloaded, List.map_inj_left]
  refine forall₂_congr fun entry _ => eq_comm.trans ?_
  rw [← names entry.group]
  exact entry.link_reread_eq_iff (Plugin.identified_assignIds _)

end Configuration

-----------------------------------------------------------------------------------------
-- Decoded variables
-----------------------------------------------------------------------------------------

/-- A variable that decoding yields. -/
def EnvVar.Decoded (entry : EnvVar) : Prop :=
  ∃ fields, EnvVar.ofFields fields = entry

/-- Decoding yields every variable but those that name the empty owner. -/
theorem EnvVar.decoded_iff (entry : EnvVar) : entry.Decoded ↔ entry.owner ≠ some "" := by
  constructor
  · rintro ⟨fields, rfl⟩ empty
    obtain ⟨-, nonempty⟩ := Option.filter_eq_some_iff.mp empty
    simp at nonempty
  · intro nonempty
    exact ⟨entry.toFields, by rw [ofFields_toFields, (reread_eq_self_iff entry).mpr nonempty]⟩

/-- A patch whose variables are decoded. Entries of other kinds always are, as decoding gives back what
they are encoded as.
-/
def Patch.Decoded (change : Patch) : Prop :=
  ∀ entries ∈ change.envVars, ∀ entry ∈ entries, entry.Decoded

theorem Patch.decoded_ofFields (fields : Fields) : (Patch.ofFields fields).Decoded := by
  intro entries given entry member
  obtain ⟨items, -, rfl⟩ := Option.map_eq_some_iff.mp given
  obtain ⟨source, -, rfl⟩ := List.mem_map.mp member
  exact ⟨source, rfl⟩

/-- Only the variables that a configuration keeps can make a difference to a patch of decoded parts. -/
theorem Configuration.patch_eq_normalize_overlay_iff_of_decoded {config : Configuration}
    (sound : config.Sound) {change : Patch} (items : change.Decoded)
    : config.patch change = normalize (.object (config.toFields.overlay change.toFields))
      ↔ (change.envVars = none →
          ∀ entry ∈ config.envVars, entry.owner = some "" →
            ∀ plugin ∈ change.plugins.getD config.plugins, entry.group ≠ some plugin.name) := by
  refine (patch_eq_normalize_overlay_iff sound change).trans ?_
  cases given : change.envVars with
  | none => simp [replace, given]
  | some entries =>
      refine iff_of_true (fun entry member empty => ?_) nofun
      have decoded : entry.Decoded := items entries given entry (by simpa [replace, given] using member)
      exact absurd empty (entry.decoded_iff.mp decoded)

/-- A step that puts in decoded variables only. -/
def Edit.Decoded : Edit → Prop
  | .insert (.ofEnvVar entry) => entry.Decoded
  | _ => True

theorem KeyedList.mem_insert {α : Type} [Keyed α] {entries : List α} {entry other : α}
    (member : other ∈ insert entries entry)
    : other = entry ∨ other ∈ entries := by
  induction entries with
  | nil => simpa [insert] using member
  | cons first rest ih =>
      unfold insert at member
      split at member
      · rcases List.mem_cons.mp member with same | later
        · exact .inl same
        · exact .inr (List.mem_cons_of_mem first later)
      · rcases List.mem_cons.mp member with same | later
        · exact .inr (by simp [same])
        · exact (ih later).imp_right (List.mem_cons_of_mem first)

/-- Where every plugin has an id, a linked variable might have been decoded. -/
theorem EnvVar.decoded_link {plugins : List Plugin} (identified : Plugin.Identified plugins)
    (entry : EnvVar)
    : (entry.link plugins).Decoded :=
  (decoded_iff _).mpr (owner_link_ne_empty identified entry)

-----------------------------------------------------------------------------------------
-- Sessions
-----------------------------------------------------------------------------------------

namespace Edit

/-- A sound configuration of decoded variables. -/
structure Loaded (config : Configuration) : Prop where
  sound : config.Sound
  decoded : ∀ entry ∈ config.envVars, entry.Decoded

theorem loaded_normalize (raw : Json) : Loaded (.normalize raw) where
  sound := Configuration.sound_normalize raw
  decoded :=
    List.forall_mem_map.mpr fun entry _ => entry.decoded_link (Plugin.identified_assignIds _)

theorem loaded_perform {config : Configuration} (loaded : Loaded config) {step : Edit}
    (decoded : step.Decoded)
    : Loaded (step.perform config).1 := by
  have sound := sound_perform loaded.sound step
  refine ⟨sound, ?_⟩
  have steps := stepsTo_perform config step
  generalize step.perform config = result at steps sound ⊢
  cases steps with
  | patched | renamed | reloaded =>
      exact List.forall_mem_map.mpr fun _ _ => EnvVar.decoded_link sound.identified _
  | unknown => exact loaded.decoded
  | inserted entry =>
      intro other member
      rcases KeyedList.mem_insert member with rfl | old
      · exact decoded
      · exact loaded.decoded other old
  | arranged _ _ _ _ envVars => exact fun entry member => loaded.decoded entry (envVars member)

theorem loaded_run (raw : Json) {steps : List Edit} (decoded : ∀ step ∈ steps, step.Decoded)
    : Loaded (run (.normalize raw) steps) :=
  run_induction (fun _ loaded step member => loaded_perform loaded (decoded step member))
    (loaded_normalize raw)

/-- When a patch does to the value what it does to the document. In any configuration that steps lead to
from a document, a patch of decoded parts yields what one gets by storing the configuration, overlaying
the fields of the patch, and normalizing the result, exactly if the patch brings variables or no variable
that names the empty owner is grouped under a plugin. Steps may leave variables whose owners are gone, and
a patch may repeat ids or leave them out; only a variable that was put in without decoding it names the
empty owner, which a document has no way to hold.
-/
theorem patch_run_eq_normalize_overlay_iff (raw : Json) (steps : List Edit) {change : Patch}
    (items : change.Decoded)
    : let config := run (.normalize raw) steps
      let overlaid := Configuration.normalize (.object (config.toFields.overlay change.toFields))
      (config.patch change = overlaid
        ↔ (change.envVars = none →
            ∀ entry ∈ config.envVars, entry.owner = some "" →
              ∀ plugin ∈ change.plugins.getD config.plugins, entry.group ≠ some plugin.name))
      ∧ ((∀ step ∈ steps, step.Decoded) → config.patch change = overlaid) := by
  intro config overlaid
  have same := Configuration.patch_eq_normalize_overlay_iff_of_decoded
    (sound_run (Configuration.sound_normalize raw) steps) items
  refine ⟨same, fun decoded => same.mpr fun _ entry member empty => ?_⟩
  exact absurd empty (entry.decoded_iff.mp ((loaded_run raw decoded).decoded entry member))

/-- A document with a plugin and a variable of its. -/
def ownedDocument : Json :=
  .object
    [
      ("plugins", .array [.object [("id", .string "p"), ("name", .string "a")]]),
      ("envVars", .array [.object [("key", .string "K"), ("group", .string "a")]])
    ]

/-- Steps that rename the plugin and leave a variable under its new name whose owner is gone. -/
def strayingSteps : List Edit :=
  [.rename "p" "b", .insert (.ofEnvVar { key := "L", group := some "b", owner := some "gone" })]

/-- A patch in which a path is empty, an id repeats, and a plugin has none. -/
def repeatingPatch : Patch where
  bootstrap := some { brewPath := "", zinitHome := "/zinit" }
  plugins := some [{ id := "p", name := "c" }, { id := "p", name := "d" }, { name := "c" }]

theorem patch_run_eq_normalize_overlay_ownedDocument
    : repeatingPatch.Decoded
      ∧ (∀ step ∈ strayingSteps, step.Decoded)
      ∧ (run (.normalize ownedDocument) strayingSteps).patch repeatingPatch
        = .normalize
            (.object
              ((run (.normalize ownedDocument) strayingSteps).toFields.overlay
                repeatingPatch.toFields)) := by
  have items : repeatingPatch.Decoded := by simp [Patch.Decoded, repeatingPatch]
  have decoded : ∀ step ∈ strayingSteps, step.Decoded := by
    simp [strayingSteps, Edit.Decoded, EnvVar.decoded_iff]
  exact ⟨items, decoded, (patch_run_eq_normalize_overlay_iff ownedDocument _ items).2 decoded⟩

/-- A step that puts the variable of the plugin in again, under the empty owner. -/
def disowningSteps : List Edit :=
  [.insert (.ofEnvVar { key := "K", group := some "a", owner := some "" })]

/-- A patch that carries nothing drops the empty owner of the variable. In the document the variable has no
owner, so that the plugin of its group takes it over.
-/
theorem patch_run_ne_normalize_overlay_ownedDocument
    : ({} : Patch).Decoded
      ∧ (run (.normalize ownedDocument) disowningSteps).patch {}
        ≠ .normalize
            (.object
              ((run (.normalize ownedDocument) disowningSteps).toFields.overlay
                (Patch.toFields {}))) :=
  ⟨nofun, by decide⟩

end Edit

end ZshStartup
