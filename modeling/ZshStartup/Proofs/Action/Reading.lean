import ZshStartup.Proofs.Files.Tasks

/-! What actions read. The configuration that an action works on is what the text of a file says: of the
file that it was given, which has to hold JSON, or of the stored document. In the place of a stored
document that is missing or damaged stands the default.
-/

namespace ZshStartup

open Files (Machine)
open Files.Machine

-----------------------------------------------------------------------------------------
-- Texts
-----------------------------------------------------------------------------------------

namespace Files

theorem fromUTF8?_eq_some_iff {content : ByteArray} {text : String}
    : String.fromUTF8? content = some text ↔ content = text.toUTF8 := by
  unfold String.fromUTF8?
  constructor
  · intro decoded
    split at decoded
    · cases decoded
      rfl
    · cases decoded
  · rintro rfl
    exact dif_pos text.isValidUTF8

/-- A path under which a machine holds a text. -/
def Machine.Holds (machine : Machine) (path text : String) : Prop :=
  machine.disk.read machine.current path = .ok text.toUTF8

variable {machine : Machine} {path text : String}

theorem readText_apply (machine : Machine) (path : String)
    : ((readText path : StateM Machine _) machine).1
      = (machine.disk.read machine.current path).bind fun content =>
          match String.fromUTF8? content with
          | some text => .ok text
          | none => .error .notUtf8 := by
  have read : (MonadSystem.read path : StateM Machine _) machine
      = (machine.disk.read machine.current path, machine) := rfl
  unfold readText
  rw [bind_apply, read]
  cases machine.disk.read machine.current path with
  | error cause => rfl
  | ok content =>
      dsimp only [Except.bind]
      cases String.fromUTF8? content <;> rfl

/-- The text of a file is the one that its bytes encode. -/
theorem readText_eq_ok_iff
    : ((readText path : StateM Machine _) machine).1 = .ok text ↔ machine.Holds path text := by
  rw [readText_apply, Machine.Holds]
  cases machine.disk.read machine.current path with
  | error cause => simp [Except.bind]
  | ok content =>
      rw [Except.ok.injEq, ← fromUTF8?_eq_some_iff]
      cases decoded : String.fromUTF8? content <;> simp [Except.bind, decoded]

/-- Only where a path leads nowhere, no file is found. -/
theorem readText_eq_notFound_iff
    : ((readText path : StateM Machine _) machine).1 = .error .notFound
      ↔ machine.disk.read machine.current path = .error .notFound := by
  rw [readText_apply]
  cases machine.disk.read machine.current path with
  | error cause => simp [Except.bind]
  | ok content => cases decoded : String.fromUTF8? content <;> simp [Except.bind, decoded]

end Files

-----------------------------------------------------------------------------------------
-- Configurations
-----------------------------------------------------------------------------------------

variable {machine : Machine} {store : Store} {input : Option String} {config : Configuration}

/-- The configuration that an action works on. It is what the JSON in the file says that the action was
given. An action that was given none takes the stored document, and the default where there is no
document or where its text is no JSON.
-/
inductive Action.Chosen (machine : Machine) (store : Store)
    : Option String → Configuration → Prop where
  | given {path text : String} {raw : Json} (held : machine.Holds path text)
      (read : Json.read text = .ok raw)
      : Chosen machine store (some path) (.normalize raw)
  | stored {text : String} {raw : Json} (held : machine.Holds store.configPath text)
      (read : Json.read text = .ok raw)
      : Chosen machine store none (.normalize raw)
  | damaged {text : String} {error : Json.ReadError} (held : machine.Holds store.configPath text)
      (read : Json.read text = .error error)
      : Chosen machine store none {}
  | missing (absent : machine.disk.read machine.current store.configPath = .error .notFound)
      : Chosen machine store none {}

/-- A text describes a configuration if it is JSON, and then the one that the JSON is normalized to. -/
theorem Configuration.parse_eq_ok_iff {text : String}
    : parse text = .ok config ↔ ∃ raw, Json.read text = .ok raw ∧ normalize raw = config := by
  unfold parse
  cases Json.read text <;> simp [Except.map]

namespace Action

/-- The configuration in a file is what the JSON in it says. -/
theorem readConfig_eq_ok_iff {path : String}
    : (machine.run (readConfig path)).1 = .ok config
      ↔ ∃ text raw,
          machine.Holds path text ∧ Json.read text = .ok raw ∧ .normalize raw = config := by
  refine (Reads.access (looks_readText path)).result_bind_eq_ok_iff.trans ?_
  refine exists_congr fun text => ?_
  rw [result_access_eq_ok_iff, Files.readText_eq_ok_iff, exists_and_left,
    ← Configuration.parse_eq_ok_iff]
  refine and_congr_right fun _ => ?_
  cases Configuration.parse text with
  | ok other => simp
  | error error => exact iff_of_false nofun nofun

/-- A stored document is found where its path leads to the text of one. -/
theorem load?_eq_some_iff {text : String}
    : (machine.run store.load?).1 = .ok (some text) ↔ machine.Holds store.configPath text := by
  rw [← Files.readText_eq_ok_iff, Store.load?, run_bind, run_ask]
  dsimp only
  split <;> simp_all

/-- No stored document is found where its path leads nowhere. -/
theorem load?_eq_none_iff
    : (machine.run store.load?).1 = .ok none
      ↔ machine.disk.read machine.current store.configPath = .error .notFound := by
  rw [← Files.readText_eq_notFound_iff, Store.load?, run_bind, run_ask]
  dsimp only
  split <;> simp_all

/-- The stored configuration is what the stored document says, or the default in its place. -/
theorem loadConfig_eq_ok_iff
    : (machine.run store.loadConfig).1 = .ok config ↔ Chosen machine store none config := by
  refine (reads_load? store).result_bind_eq_ok_iff.trans ?_
  constructor
  · intro loaded
    obtain ⟨found, loaded, chosen⟩ := loaded
    cases found with
    | none =>
        cases chosen
        exact .missing (load?_eq_none_iff.mp loaded)
    | some text =>
        have held := load?_eq_some_iff.mp loaded
        cases read : Json.read text with
        | ok raw =>
            simp only [Configuration.parse, read, Except.map] at chosen
            cases chosen
            exact .stored held read
        | error error =>
            simp only [Configuration.parse, read, Except.map] at chosen
            cases chosen
            exact .damaged held read
  · intro chosen
    cases chosen with
    | stored held read | damaged held read =>
        exact ⟨_, load?_eq_some_iff.mpr held, by simp [Configuration.parse, read, Except.map]⟩
    | missing absent => exact ⟨none, load?_eq_none_iff.mpr absent, rfl⟩

/-- The configuration that is chosen is the one that there is for an action, and it is found whenever there
is one.
-/
theorem chosenConfig_eq_ok_iff
    : (machine.run (chosenConfig store input)).1 = .ok config
      ↔ Chosen machine store input config := by
  cases input with
  | none => exact loadConfig_eq_ok_iff
  | some path =>
      refine readConfig_eq_ok_iff.trans ?_
      constructor
      · intro described
        obtain ⟨text, raw, held, read, rfl⟩ := described
        exact .given held read
      · intro chosen
        cases chosen with
        | given held read => exact ⟨_, _, held, read, rfl⟩

end Action

end ZshStartup
