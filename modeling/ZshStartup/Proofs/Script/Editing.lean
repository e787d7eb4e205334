import ZshStartup.Proofs.Edit.Steps
import ZshStartup.Proofs.Script.Layout
import ZshStartup.Proofs.Script.Reloading

/-! What a step of an editing session changes in the script: only sections that the step names, and for
a renamed plugin only the line that loads it. The ids, owners and groups that are settled on the way show
nowhere.
-/

namespace ZshStartup

open Script (Section)

/-- The section that shows a list. -/
def ListName.part : ListName → Section
  | .keyed .aliases => .aliases
  | .keyed .pathEntries => .path
  | .keyed .envVars => .envVars
  | .keyed .options => .options
  | .plugins => .plugins

/-- A patch names the sections that show the parts it carries. -/
def Patch.Names (change : Patch) : Section → Prop
  | .boot => change.bootstrap ≠ none
  | .envVars => change.envVars ≠ none
  | .path => change.pathEntries ≠ none
  | .aliases => change.aliases ≠ none
  | .options => change.options ≠ none
  | .plugins => change.plugins ≠ none
  | .initScript => change.initScript ≠ none

/-- A step names the sections that it is about. A document that is read back gives empty paths their
defaults, so this step is about the first section.
-/
def Edit.Names (step : Edit) (part : Section) : Prop :=
  match step with
  | .patch change => change.Names part
  | .rename _ _ => part = .plugins
  | .renormalize => part = .boot
  | .insert _ | .erase _ _ | .move _ _ _ => step.list?.map ListName.part = some part

-----------------------------------------------------------------------------------------
-- Sections
-----------------------------------------------------------------------------------------

namespace Script

variable {config next : Configuration}

namespace Section

variable {part : Section}

theorem entries_patch {change : Patch} (unnamed : ¬change.Names part)
    : part.entries (config.patch change) = part.entries config := by
  rw [Configuration.patch, entries_linkOwners, entries_assignIds]
  cases part <;> rw [Patch.Names, not_not] at unnamed <;> simp [entries, unnamed]

theorem entries_reloaded (other : part ≠ .boot)
    : part.entries config.reloaded = part.entries config := by
  cases part with
  | boot => exact absurd rfl other
  | envVars =>
      simp only [entries, Configuration.reloaded, List.map_map]
      refine List.map_congr_left fun entry _ => ?_
      exact (entry.reread.line_link _).trans entry.line_reread
  | plugins => exact Plugin.map_directive_assignIds config.plugins
  | path | aliases | options | initScript => rfl

/-- A list shows in its own section only. -/
theorem entries_congr_of_without {list : ListName} (other : list.part ≠ part)
    (others : next.without list = config.without list)
    : part.entries next = part.entries config := by
  have hidden (config : Configuration)
      : part.entries (config.without list) = part.entries config := by
    unfold Configuration.without
    split <;> cases part <;> first | rfl | exact absurd rfl other
  rw [← hidden next, others, hidden config]

/-- Sections that a step does not name show what they showed before. -/
theorem entries_perform {step : Edit} (unnamed : ¬step.Names part)
    : part.entries (step.perform config).1 = part.entries config := by
  have taken := Edit.stepsTo_perform config step
  generalize step.perform config = result at taken ⊢
  cases taken with
  | patched change => exact entries_patch unnamed
  | @renamed id name known =>
      have other : ListName.part .plugins ≠ part := Ne.symm unnamed
      exact (part.entries_linkOwners _).trans (entries_congr_of_without other rfl)
  | unknown => rfl
  | reloaded => exact entries_reloaded unnamed
  | inserted entry outcome =>
      have other : ListName.part (.keyed .envVars) ≠ part := fun same => unnamed (congrArg some same)
      exact entries_congr_of_without other rfl
  | @arranged step list next outcome within others =>
      have other : list.part ≠ part := by
        intro same
        refine unnamed ?_
        cases step <;> simp_all [Edit.Names, Edit.list?]
      exact entries_congr_of_without other others

/-- Sections that no step of a session names are the same at its end. -/
theorem render_run {steps : List Edit} (unnamed : ∀ step ∈ steps, ¬step.Names part)
    : part.render (Edit.run config steps) = part.render config := by
  have entries : part.entries (Edit.run config steps) = part.entries config := by
    let holds (next : Configuration) := part.entries next = part.entries config
    have keep (next : Configuration) (same : holds next) (step : Edit) (member : step ∈ steps)
        : holds (step.perform next).1 :=
      (entries_perform (unnamed step member)).trans same
    exact Edit.run_induction keep rfl
  simp only [render, lines, entries]

end Section

/-- Configurations with the same entries in every section have scripts with the same lines. -/
theorem lines_congr (same : ∀ part : Section, part.entries next = part.entries config)
    : lines next = lines config := by
  simp only [lines, Section.lines, same]

/-- The entry at an index of the plugins shows on one line. -/
theorem getElem?_lines_plugins {index : Nat} {plugin : Plugin}
    (listed : config.plugins[index]? = some plugin)
    : (lines config)[Section.plugins.offset (Section.count config) + index]?
      = some plugin.directive := by
  have entry : (Section.plugins.entries config)[index]? = some plugin.directive := by
    simp [Section.entries, listed]
  rw [Section.lines_eq_append config .plugins, ← Section.length_above]
  exact getElem?_append_append _ _ entry

theorem lines_set_plugins {index : Nat} (within : index < config.plugins.length) (plugin : Plugin)
    : lines { config with plugins := config.plugins.set index plugin }
      = (lines config).set (Section.plugins.offset (Section.count config) + index)
          plugin.directive := by
  have entries : Section.plugins.entries { config with plugins := config.plugins.set index plugin }
      = (Section.plugins.entries config).set index plugin.directive := by
    simp [Section.entries]
  rw [Section.lines_eq_append _ .plugins, entries, Section.lines_eq_append config .plugins,
    ← Section.length_above, List.append_assoc, List.append_assoc,
    List.set_append_right _ _ (Nat.le_add_right _ _), Nat.add_sub_cancel_left,
    List.set_append_left _ _ (by simpa [Section.entries] using within)]
  rfl

end Script

-----------------------------------------------------------------------------------------
-- Renamed plugins
-----------------------------------------------------------------------------------------

namespace Configuration

open Script

/-- A rename replaces the first plugin with the id. -/
theorem exists_renameIn_eq_set {plugins : List Plugin} {id : String} (name : String)
    (known : id ∈ plugins.map Plugin.id)
    : ∃ index plugin,
        plugins.findIdx? (·.id == id) = some index
        ∧ plugins[index]? = some plugin
        ∧ renameIn plugins id name = plugins.set index { plugin with name } := by
  induction plugins with
  | nil => simp at known
  | cons first rest ih =>
      by_cases same : first.id = id
      · exact ⟨0, first, by simp [List.findIdx?_cons, same], rfl, by simp [renameIn, same]⟩
      · have later : id ∈ rest.map Plugin.id := by simpa [Ne.symm same] using known
        obtain ⟨index, plugin, found, listed, renamed⟩ := ih later
        refine ⟨index + 1, plugin, ?_, listed, ?_⟩
        · simp [List.findIdx?_cons, same, found]
        · simp [renameIn, same, renamed]

/-- A step changes no section that it does not name, and a rename that finds its plugin changes no line
but the one that loads it.
-/
theorem render_perform (config : Configuration)
    : (∀ (step : Edit) (part : Section), ¬step.Names part →
          part.render (step.perform config).1 = part.render config)
      ∧ ∀ id name renamed, Edit.perform config (.rename id name) = (renamed, .flag true) →
          ∃ index plugin,
            config.plugins.findIdx? (·.id == id) = some index
            ∧ config.plugins[index]? = some plugin
            ∧ config.render = unlines (lines config)
            ∧ (lines config)[Section.plugins.offset (Section.count config) + index]?
              = some plugin.directive
            ∧ renamed.render
              = unlines
                  ((lines config).set (Section.plugins.offset (Section.count config) + index)
                    { plugin with name }.directive) := by
  refine ⟨fun step part unnamed => ?_, fun id name renamed performed => ?_⟩
  · simp only [Section.render, Section.lines, Section.entries_perform unnamed]
  · have taken := Edit.stepsTo_perform config (.rename id name)
    rw [performed] at taken
    cases taken with
    | renamed _ known =>
        obtain ⟨index, plugin, found, listed, replaced⟩ := exists_renameIn_eq_set name known
        obtain ⟨within, -⟩ := List.getElem?_eq_some_iff.mp listed
        refine ⟨index, plugin, found, listed, render_eq_unlines config,
          getElem?_lines_plugins listed, ?_⟩
        rw [render_eq_unlines, lines_congr fun part => part.entries_linkOwners _, replaced,
          lines_set_plugins within]
    | arranged _ within => cases within

theorem render_perform_looseSample
    : ¬(Edit.rename "p" "a").Names .envVars
      ∧ (Edit.perform looseSample (.rename "p" "a")).1.envVars ≠ looseSample.envVars
      ∧ Section.envVars.render (Edit.perform looseSample (.rename "p" "a")).1
        = Section.envVars.render looseSample
      ∧ (Edit.perform looseSample (.rename "p" "a")).2 = .flag true
      ∧ (lines looseSample)[42]? = some "zinit for c"
      ∧ (Edit.perform looseSample (.rename "p" "a")).1.render
        = unlines ((lines looseSample).set 42 "zinit for a") := by
  have unnamed : ¬(Edit.rename "p" "a").Names .envVars := nofun
  have changed : (Edit.perform looseSample (.rename "p" "a")).1.envVars ≠ looseSample.envVars := by
    decide
  obtain ⟨others, renames⟩ := render_perform looseSample
  obtain ⟨index, plugin, found, listed, -, line, text⟩ := renames "p" "a" _ rfl
  obtain rfl : 1 = index := Option.some.inj found
  obtain rfl : { id := "p", name := "c" } = plugin := Option.some.inj listed
  exact ⟨unnamed, changed, others _ _ unnamed, rfl, line, text⟩

end Configuration

end ZshStartup
