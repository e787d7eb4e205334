import ZshStartup.Proofs.Edit.Ownership

/-! Ownership under renaming. Names come and go, collide and become empty, but a variable that a plugin
owns stays with that plugin and is listed under whatever name the plugin has, until a step brings other
plugins or variables along.
-/

namespace ZshStartup

-----------------------------------------------------------------------------------------
-- Moves
-----------------------------------------------------------------------------------------

/-- Where a move takes the item at an index. The items behind the source close the gap that it leaves,
and those from the target on make room.
-/
def movedIndex (source target index : Nat) : Nat :=
  if index = source then
    target
  else
    let closed := if source < index then index - 1 else index
    if closed < target then closed else closed + 1

theorem getElem?_moveItem? {α : Type} {items moved : List α} {source target : Nat}
    (found : moveItem? items source target = some moved) (index : Nat)
    : moved[movedIndex source target index]? = items[index]? := by
  unfold moveItem? at found
  split at found
  case isFalse => cases found
  case isTrue bounds =>
    cases found
    have shorter := List.length_eraseIdx_of_lt bounds.1
    unfold movedIndex
    rw [List.getElem?_insertIdx]
    by_cases same : index = source
    · have room : target ≤ (items.eraseIdx source).length := by omega
      subst same
      simp [room]
    · grind

-----------------------------------------------------------------------------------------
-- Single variables
-----------------------------------------------------------------------------------------

/-- Linking changes nothing but the group of a variable whose owner is there. -/
theorem EnvVar.exists_link_eq {plugins : List Plugin} {entry : EnvVar} {id : String}
    (owned : entry.owner = some id) (known : id ∈ plugins.map Plugin.id)
    : ∃ group, entry.link plugins = { entry with group } := by
  have step := linksTo_link plugins entry
  generalize entry.link plugins = linked at step ⊢
  cases step with
  | refreshed => exact ⟨_, rfl⟩
  | @dropped other owner missing =>
      obtain ⟨plugin, member, rfl⟩ := List.mem_map.mp known
      obtain rfl : plugin.id = other := Option.some.inj (owned.symm.trans owner)
      exact absurd rfl (missing plugin member)
  | adopted _ owner => simp [owner] at owned
  | kept => exact ⟨entry.group, rfl⟩

namespace Configuration

variable {config : Configuration} {id : String}

theorem exists_plugin?_eq (known : id ∈ config.plugins.map Plugin.id)
    : ∃ plugin, config.plugin? id = some plugin := by
  obtain ⟨plugin, member, same⟩ := List.mem_map.mp known
  exact Option.isSome_iff_exists.mp (List.find?_isSome.mpr ⟨plugin, member, by simp [same]⟩)

/-- A variable is listed under the name of its owner, if that is there. -/
theorem groupLabel_of_owner {entry : EnvVar} {plugin : Plugin} (owned : entry.owner = some id)
    (found : config.plugin? id = some plugin)
    : config.groupLabel entry = some plugin.name := by
  rw [groupLabel, owned, Option.bind_some, found]
  rfl

end Configuration

namespace Edit

/-- The steps that neither bring plugins or variables along nor take variables away. -/
def SparesOwners : Edit → Prop
  | .patch change => change.plugins = none ∧ change.envVars = none
  | .insert (.ofEnvVar _) => False
  | .erase .envVars _ => False
  | _ => True

/-- Where a step takes the variable at an index, if it neither puts in nor takes away any. -/
def indexAfter (config : Configuration) (index : Nat) : Edit → Nat
  | .move (.keyed .envVars) source target =>
      if (moveItem? config.envVars source target).isSome then
        movedIndex source target index
      else
        index
  | _ => index

/-- Where a sequence of steps takes the variable at an index. -/
def track (config : Configuration) (index : Nat) : List Edit → Nat
  | [] => index
  | step :: steps => track (step.perform config).1 (step.indexAfter config index) steps

-----------------------------------------------------------------------------------------
-- Steps
-----------------------------------------------------------------------------------------

variable {config : Configuration} {step : Edit}

theorem SparesOwners.plugins? (spares : step.SparesOwners) : step.plugins? = none := by
  cases step with
  | patch change => exact spares.1
  | rename | insert | erase | move | renormalize => rfl

theorem SparesOwners.ne_insert (spares : step.SparesOwners) (entry : EnvVar)
    : step ≠ .insert (.ofEnvVar entry) := by
  rintro rfl
  exact spares

/-- The ids of plugins outlast a step that spares owners. -/
theorem mem_ids_perform (sound : config.Sound) (spares : step.SparesOwners) {id : String}
    (known : id ∈ config.plugins.map Plugin.id)
    : id ∈ (step.perform config).1.plugins.map Plugin.id :=
  (preserves_perform sound spares.plugins?).perm_ids.mem_iff.mpr known

/-- Only a move of variables moves variables. -/
theorem envVars_perform_move {list : ListName} {source target : Nat}
    (other : list ≠ .keyed .envVars)
    : ((move list source target).perform config).1.envVars = config.envVars := by
  cases moved : moveIn config source target list with
  | none => simp only [perform, moved]
  | some next =>
      obtain ⟨others, -, -⟩ := moveIn_eq_some moved
      have same := congrArg Configuration.envVars others
      rw [Configuration.envVars_without next other, Configuration.envVars_without config other] at same
      simpa only [perform, moved] using same

/-- A variable that a plugin owns goes where a step takes it, and nothing but its group changes. -/
theorem exists_getElem?_perform (sound : config.Sound) (spares : step.SparesOwners) {index : Nat}
    {entry : EnvVar} {id : String} (found : config.envVars[index]? = some entry)
    (owned : entry.owner = some id) (known : id ∈ config.plugins.map Plugin.id)
    : ∃ group,
        (step.perform config).1.envVars[step.indexAfter config index]?
        = some { entry with group } := by
  have remains := mem_ids_perform sound spares known
  -- Steps that settle owners link every variable, and the owner's id is there still.
  have linked (same : (step.perform config).1.envVars
        = config.envVars.map (EnvVar.link (step.perform config).1.plugins))
      (still : step.indexAfter config index = index)
      : ∃ group,
          (step.perform config).1.envVars[step.indexAfter config index]?
          = some { entry with group } := by
    obtain ⟨group, link⟩ := EnvVar.exists_link_eq owned remains
    exact ⟨group, by rw [same, still, List.getElem?_map, found, Option.map_some, link]⟩
  have unmoved (same : (step.perform config).1.envVars = config.envVars)
      (still : step.indexAfter config index = index)
      : ∃ group,
          (step.perform config).1.envVars[step.indexAfter config index]?
          = some { entry with group } :=
    ⟨entry.group, by rw [same, still, found]⟩
  have steps := stepsTo_perform config step
  cases step with
  | patch change =>
      have plain : change.envVars = none := spares.2
      exact linked (by simp only [perform, Configuration.envVars_patch, plain, Option.getD_none]) rfl
  | rename id name =>
      generalize (rename id name).perform config = result at steps unmoved linked ⊢
      cases steps with
      | renamed => exact linked rfl rfl
      | unknown => exact unmoved rfl rfl
      | arranged _ within => cases within
  | renormalize =>
      have assigned : id ≠ "" := by
        obtain ⟨plugin, member, rfl⟩ := List.mem_map.mp known
        exact sound.identified.assigned plugin member
      have reread : entry.reread = entry := entry.reread_eq_self_iff.mpr (by simp [owned, assigned])
      obtain ⟨group, link⟩ := EnvVar.exists_link_eq owned remains
      refine ⟨group, ?_⟩
      rw [perform, Configuration.normalize_toJson_eq_reloaded] at link ⊢
      simp only [Configuration.reloaded, indexAfter, List.getElem?_map, found, Option.map_some, reread]
      exact congrArg some link
  | insert entry =>
      cases entry with
      | ofEnvVar => exact spares.elim
      | ofAlias | ofPathEntry | ofOption => exact unmoved rfl rfl
  | erase list key =>
      cases list with
      | envVars => exact spares.elim
      | aliases | pathEntries | options => exact unmoved rfl rfl
  | move list source target =>
      by_cases own : list = .keyed .envVars
      · subst own
        cases moved : moveItem? config.envVars source target with
        | none => exact unmoved (by simp [perform, moveIn, moved]) (by simp [indexAfter, moved])
        | some items =>
            have followed := getElem?_moveItem? moved index
            exact ⟨entry.group, by simp [perform, moveIn, moved, indexAfter, followed, found]⟩
      · refine unmoved (envVars_perform_move own) ?_
        unfold indexAfter
        split <;> simp_all

-----------------------------------------------------------------------------------------
-- Sessions
-----------------------------------------------------------------------------------------

variable {steps : List Edit}

/-- What holds of one step holds of a whole session that spares owners, by induction on its steps. -/
theorem exists_getElem?_run (sound : config.Sound) (spare : ∀ step ∈ steps, step.SparesOwners)
    {index : Nat} {entry : EnvVar} {id : String} (found : config.envVars[index]? = some entry)
    (owned : entry.owner = some id) (known : id ∈ config.plugins.map Plugin.id)
    : id ∈ (run config steps).plugins.map Plugin.id
      ∧ ∃ group,
          (run config steps).envVars[track config index steps]? = some { entry with group } := by
  induction steps generalizing config index entry with
  | nil => exact ⟨known, entry.group, found⟩
  | cons step steps ih =>
      obtain ⟨first, spare⟩ := List.forall_mem_cons.mp spare
      obtain ⟨group, moved⟩ := exists_getElem?_perform sound first found owned known
      have rest := ih (sound_perform sound step) spare moved
      exact rest owned (mem_ids_perform sound first known)

/-- Once owners were settled, a session that spares owners leaves every variable coherent. -/
theorem coherent_run_of_relinks {before after : List Edit} {step : Edit}
    (relinks : step.Relinks (run config before)) (spare : ∀ step ∈ after, step.SparesOwners)
    : (run config (before ++ step :: after)).Coherent := by
  have settled := coherent_perform_of_relinks relinks
  rw [run, List.foldl_append, List.foldl_cons]
  exact run_induction
    (fun config coherent step member => coherent_perform coherent (spare step member).ne_insert)
    settled

/-- A variable never loses its owner to a new name. From any configuration that a session reaches, let
steps follow that rename plugins, move entries, read the configuration back, put in or take away entries
of other lists, or patch other parts. Then a variable whose owner is there stays with it: it can be
followed to a variable with the same key and value that the same plugin owns, and that is listed under
that plugin's current name. From the first of these steps that settles owners on, it is grouped under
that name as well.
-/
theorem owned_run_normalize (raw : Json) (session : List Edit)
    {index : Nat} {entry : EnvVar} {id : String}
    (found : (run (.normalize raw) session).envVars[index]? = some entry)
    (owned : entry.owner = some id)
    (known : id ∈ (run (.normalize raw) session).plugins.map Plugin.id)
    (spare : ∀ step ∈ steps, step.SparesOwners)
    : let start := run (.normalize raw) session
      let config := run start steps
      ∃ current plugin,
        config.envVars[track start index steps]? = some current
        ∧ current.key = entry.key
        ∧ current.value = entry.value
        ∧ current.owner = some id
        ∧ config.plugin? id = some plugin
        ∧ config.groupLabel current = some plugin.name
        ∧ ∀ before step after,
            steps = before ++ step :: after →
            step.Relinks (run start before) →
            current.group = some plugin.name := by
  have sound := sound_run (Configuration.sound_normalize raw) session
  obtain ⟨remains, group, followed⟩ := exists_getElem?_run sound spare found owned known
  obtain ⟨plugin, first⟩ := Configuration.exists_plugin?_eq remains
  have still : ({ entry with group } : EnvVar).owner = some id := owned
  have labelled := Configuration.groupLabel_of_owner still first
  refine ⟨_, plugin, followed, rfl, rfl, owned, first, labelled, ?_⟩
  rintro before step after rfl relinks
  have later : ∀ step ∈ after, step.SparesOwners := fun step member => spare step (by simp [member])
  have coherent := coherent_run_of_relinks relinks later
  rw [← labelled]
  exact (coherent.groupLabel_eq (sound_run sound _) _ (List.mem_of_getElem? followed)).symm

/-- A variable of the plugin `b` of the paired document, not yet grouped under it. -/
def ungrouped : EnvVar where
  key := "L"
  owner := some "b"

/-- Steps that give the plugin `b` the name of the other plugin, which then loses its own, and that
move both the variables and the plugins.
-/
def collidingSteps : List Edit :=
  [.move (.keyed .envVars) 1 0, .rename "b" "a", .rename "p" "", .move .plugins 0 1, .renormalize,
    .patch { initScript := some "x" }]

theorem owned_run_normalize_ungrouped
    : let start := run (.normalize pairedDocument) [.insert (.ofEnvVar ungrouped)]
      start.envVars[1]? = some ungrouped
      ∧ ungrouped.owner = some "b"
      ∧ "b" ∈ start.plugins.map Plugin.id
      ∧ (∀ step ∈ collidingSteps, step.SparesOwners)
      ∧ track start 1 collidingSteps = 0
      ∧ ∃ current plugin,
          (run start collidingSteps).envVars[track start 1 collidingSteps]? = some current
          ∧ current.owner = some "b"
          ∧ (run start collidingSteps).plugin? "b" = some plugin
          ∧ (run start collidingSteps).groupLabel current = some plugin.name
          ∧ current.group = some plugin.name := by
  intro start
  have found : start.envVars[1]? = some ungrouped := by decide
  have owned : ungrouped.owner = some "b" := rfl
  have known : "b" ∈ start.plugins.map Plugin.id := by decide
  have spare : ∀ step ∈ collidingSteps, step.SparesOwners := by
    simp [collidingSteps, SparesOwners]
  obtain ⟨current, plugin, followed, -, -, still, first, labelled, grouped⟩ :=
    owned_run_normalize pairedDocument [.insert (.ofEnvVar ungrouped)] found owned known spare
  have settled := grouped (collidingSteps.take 5) (.patch { initScript := some "x" }) [] rfl trivial
  exact ⟨found, owned, known, spare, by decide, current, plugin, followed, still, first, labelled,
    settled⟩

end Edit

end ZshStartup
