import ZshStartup.Proofs.Edit.Identity

/-! The ownership of variables over whole editing sessions. A variable that has an owner is grouped under
the owner's name in every configuration that a session passes through, as long as no variable was put in
since owners were last settled.
-/

namespace ZshStartup

-----------------------------------------------------------------------------------------
-- Sorting by key
-----------------------------------------------------------------------------------------

/-- Entries sorted into lists by distinct keys are the entries with one of the keys, by induction on the
keys.
-/
theorem flatMap_filter_perm {α κ : Type} [BEq κ] [LawfulBEq κ] (key : α → κ) {keys : List κ}
    (distinct : keys.Nodup) (entries : List α)
    : (keys.flatMap fun k => entries.filter (key · == k)).Perm
        (entries.filter fun entry => key entry ∈ keys) := by
  induction keys with
  | nil => simp
  | cons k keys ih =>
      obtain ⟨new, distinct⟩ := List.nodup_cons.mp distinct
      have split := List.filter_append_perm (key · == k)
        (entries.filter fun entry => key entry ∈ k :: keys)
      rw [List.filter_filter, List.filter_filter] at split
      refine .trans (.trans ((ih distinct).append_left _) (.of_eq ?_)) split
      congr 1
      · refine List.filter_congr fun entry _ => ?_
        by_cases same : key entry = k <;> simp [same]
      · refine List.filter_congr fun entry _ => ?_
        by_cases same : key entry = k
        · simp [same, new]
        · simp [same]

-----------------------------------------------------------------------------------------
-- Coherence
-----------------------------------------------------------------------------------------

/-- A variable that, if it has an owner, is grouped under the owner's name. -/
def EnvVar.Coherent (plugins : List Plugin) (entry : EnvVar) : Prop :=
  ∀ id, entry.owner = some id →
    ∃ plugin ∈ plugins, plugin.id = id ∧ entry.group = some plugin.name

/-- Every variable is coherent once it was linked, whatever it was before. -/
theorem EnvVar.coherent_link (plugins : List Plugin) (entry : EnvVar)
    : (entry.link plugins).Coherent plugins := by
  have step := linksTo_link plugins entry
  generalize entry.link plugins = linked at step ⊢
  intro id owned
  cases step with
  | @refreshed plugin member owner => exact ⟨plugin, member, by simp_all, rfl⟩
  | dropped => cases owned
  | @adopted plugin member _ group => exact ⟨plugin, member, Option.some.inj owned, group⟩
  | kept owner => simp [owner] at owned

/-- The plugin with an id stands alone where ids are distinct. -/
theorem Plugin.filter_id_eq_singleton {plugins : List Plugin}
    (distinct : (plugins.map Plugin.id).Nodup) {plugin : Plugin} (member : plugin ∈ plugins)
    : plugins.filter (·.id == plugin.id) = [plugin] := by
  induction plugins with
  | nil => cases member
  | cons head plugins ih =>
      obtain ⟨new, distinct⟩ := List.nodup_cons.mp distinct
      rcases List.mem_cons.mp member with rfl | later
      · have others : plugins.filter (·.id == plugin.id) = [] := by
          refine List.filter_eq_nil_iff.mpr fun other known same => new ?_
          exact List.mem_map.mpr ⟨other, known, by simpa using same⟩
        simp [others]
      · have different : head.id ≠ plugin.id := fun same =>
          new (same ▸ List.mem_map_of_mem later)
        simp [different, ih distinct later]

namespace Configuration

/-- A configuration in which every variable with an owner is grouped under its owner's name. -/
def Coherent (config : Configuration) : Prop :=
  ∀ entry ∈ config.envVars, entry.Coherent config.plugins

theorem coherent_linkOwners (config : Configuration) : config.linkOwners.Coherent := by
  intro entry member
  obtain ⟨source, -, rfl⟩ := List.mem_map.mp member
  exact source.coherent_link config.plugins

theorem coherent_reloaded (config : Configuration) : config.reloaded.Coherent := by
  intro entry member
  obtain ⟨source, -, rfl⟩ := List.mem_map.mp member
  exact source.reread.coherent_link _

variable {config : Configuration}

/-- The owner of a coherent variable is the only plugin with its id. -/
theorem Coherent.exists_filter_eq (coherent : config.Coherent) (sound : config.Sound)
    : ∀ entry ∈ config.envVars, ∀ id, entry.owner = some id →
        ∃ plugin, config.plugins.filter (·.id == id) = [plugin]
          ∧ entry.group = some plugin.name := by
  intro entry member id owned
  obtain ⟨plugin, known, rfl, grouped⟩ := coherent entry member id owned
  exact ⟨plugin, Plugin.filter_id_eq_singleton sound.identified.distinct known, grouped⟩

/-- A coherent variable is listed under the group that it has. -/
theorem Coherent.groupLabel_eq (coherent : config.Coherent) (sound : config.Sound)
    : ∀ entry ∈ config.envVars, config.groupLabel entry = entry.group := by
  intro entry member
  unfold groupLabel
  cases owner : entry.owner with
  | none => rfl
  | some id =>
      obtain ⟨plugin, alone, grouped⟩ := coherent.exists_filter_eq sound entry member id owner
      have found : config.plugin? id = some plugin := by
        rw [plugin?, ← List.head?_filter, alone]
        rfl
      rw [Option.bind_some, found, grouped]
      rfl

/-- The variables of each plugin and those without an owner are all variables. -/
theorem Coherent.envVarsOf_perm (coherent : config.Coherent) (sound : config.Sound)
    : (config.plugins.flatMap (fun plugin => config.envVarsOf plugin.id)
        ++ config.envVars.filter (·.owner == none)).Perm config.envVars := by
  have distinct : (none :: (config.plugins.map Plugin.id).map some).Nodup :=
    List.nodup_cons.mpr ⟨by simp, sound.identified.distinct.map fun _ _ => Option.some.inj⟩
  have all
      : config.envVars.filter (·.owner ∈ none :: (config.plugins.map Plugin.id).map some)
        = config.envVars := by
    refine List.filter_eq_self.mpr fun entry member => ?_
    cases owner : entry.owner with
    | none => simp
    | some id =>
        obtain ⟨plugin, known, rfl, -⟩ := coherent entry member id owner
        simpa using ⟨plugin, known, rfl⟩
  have sorted := flatMap_filter_perm EnvVar.owner distinct config.envVars
  rw [all, List.flatMap_cons, List.flatMap_map, List.flatMap_map] at sorted
  exact List.perm_append_comm.trans sorted

/-- A configuration in which owners and groups agree. -/
structure OwnersAgree (config : Configuration) : Prop where
  /-- A variable with an owner names exactly one plugin, and is grouped under that one's name. -/
  owned
    : ∀ entry ∈ config.envVars, ∀ id, entry.owner = some id →
        ∃ plugin, config.plugins.filter (·.id == id) = [plugin] ∧ entry.group = some plugin.name
  /-- Every variable is listed under the group that it has. -/
  labelled : ∀ entry ∈ config.envVars, config.groupLabel entry = entry.group
  /-- Sorted by their owners, and with those that have none, these are all variables, each once. -/
  sorted
    : (config.plugins.flatMap (fun plugin => config.envVarsOf plugin.id)
        ++ config.envVars.filter (·.owner == none)).Perm config.envVars
  /-- Sorting keeps the order of the variables of each owner, and of those that have none. -/
  ordered
    : (∀ plugin ∈ config.plugins, (config.envVarsOf plugin.id).Sublist config.envVars)
      ∧ (config.envVars.filter (·.owner == none)).Sublist config.envVars

theorem Coherent.ownersAgree (coherent : config.Coherent) (sound : config.Sound)
    : config.OwnersAgree where
  owned := coherent.exists_filter_eq sound
  labelled := coherent.groupLabel_eq sound
  sorted := coherent.envVarsOf_perm sound
  ordered := ⟨fun _ _ => List.filter_sublist, List.filter_sublist⟩

end Configuration

-----------------------------------------------------------------------------------------
-- Steps
-----------------------------------------------------------------------------------------

namespace Edit

variable {config : Configuration} {step : Edit}

/-- A step that settles the owners of all variables: a patch, a rename that finds its plugin, and a
document that is read back.
-/
def Relinks (config : Configuration) : Edit → Prop
  | .patch _ => True
  | .rename id name => ((rename id name).perform config).2 = .flag true
  | .renormalize => True
  | _ => False

/-- After a step that settles owners, every variable is coherent, whatever it was before. -/
theorem coherent_perform_of_relinks (relinks : step.Relinks config)
    : (step.perform config).1.Coherent := by
  have steps := stepsTo_perform config step
  cases step with
  | patch change => exact Configuration.coherent_linkOwners _
  | rename id name =>
      have found : ((rename id name).perform config).2 = .flag true := relinks
      generalize (rename id name).perform config = result at steps found ⊢
      cases steps with
      | renamed => exact Configuration.coherent_linkOwners _
      | unknown => cases found
      | arranged _ within => cases within
  | renormalize => exact Configuration.coherent_linkOwners _
  | insert | erase | move => exact relinks.elim

/-- Coherent variables stay so, save for a variable that is put in. -/
theorem coherent_perform (coherent : config.Coherent)
    (other : ∀ entry, step ≠ .insert (.ofEnvVar entry))
    : (step.perform config).1.Coherent := by
  have steps := stepsTo_perform config step
  generalize step.perform config = result at steps ⊢
  cases steps with
  | patched | renamed => exact Configuration.coherent_linkOwners _
  | unknown => exact coherent
  | reloaded => exact Configuration.coherent_reloaded config
  | inserted entry => exact absurd rfl (other entry)
  | arranged _ _ _ plugins envVars =>
      intro entry member id owned
      obtain ⟨plugin, known, same, grouped⟩ := coherent entry (envVars member) id owned
      exact ⟨plugin, plugins.mem_iff.mpr known, same, grouped⟩

-----------------------------------------------------------------------------------------
-- Sessions
-----------------------------------------------------------------------------------------

/-- The sessions in which no variable was put in since owners were last settled: at the start, or by a
step that does so.
-/
inductive Quiet (start : Configuration) : List Edit → Prop
  | start : Quiet start []
  | settled {steps : List Edit} {step : Edit} (relinks : step.Relinks (run start steps))
    : Quiet start (steps ++ [step])
  | kept {steps : List Edit} {step : Edit} (quiet : Quiet start steps)
    (other : ∀ entry, step ≠ .insert (.ofEnvVar entry))
    : Quiet start (steps ++ [step])

theorem Quiet.coherent {start : Configuration} (coherent : start.Coherent) {steps : List Edit}
    (quiet : Quiet start steps)
    : (run start steps).Coherent := by
  induction quiet with
  | start => exact coherent
  | settled relinks =>
      rw [run_append_singleton]
      exact coherent_perform_of_relinks relinks
  | kept quiet other ih =>
      rw [run_append_singleton]
      exact coherent_perform ih other

/-- Owners and groups agree throughout a session. Whatever document it started from and whatever steps
led there, they agree in every configuration that is reached, unless a variable was put in since owners
were last settled.
-/
theorem ownersAgree_run_normalize (raw : Json) {steps : List Edit}
    (quiet : Quiet (.normalize raw) steps)
    : (run (.normalize raw) steps).OwnersAgree :=
  (quiet.coherent (Configuration.coherent_linkOwners _)).ownersAgree
    (sound_run (Configuration.sound_normalize raw) steps)

/-- A document with two plugins, one of which owns a variable. -/
def pairedDocument : Json :=
  .object
    [
      ("plugins",
        .array
          [
            .object [("id", .string "p"), ("name", .string "a")],
            .object [("name", .string "b")]
          ]),
      ("envVars", .array [.object [("key", .string "K"), ("group", .string "a")]])
    ]

/-- Steps that put in a variable whose owner is gone, settle owners by a rename, and go on without
putting in another one.
-/
def settlingSteps : List Edit :=
  [.insert (.ofEnvVar { key := "L", group := some "b", owner := some "gone" }),
    .rename "p" "c", .move .plugins 0 1, .erase .envVars "K"]

theorem ownersAgree_run_normalize_pairedDocument
    : Quiet (.normalize pairedDocument) settlingSteps
      ∧ (run (.normalize pairedDocument) settlingSteps).OwnersAgree := by
  have settled
      : Quiet (.normalize pairedDocument) (settlingSteps.take 1 ++ [.rename "p" "c"]) :=
    .settled rfl
  have quiet : Quiet (.normalize pairedDocument) settlingSteps :=
    (settled.kept fun _ same => by cases same).kept fun _ same => by cases same
  exact ⟨quiet, ownersAgree_run_normalize pairedDocument quiet⟩

end Edit

end ZshStartup
