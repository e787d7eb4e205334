import ZshStartup.Configuration.Basic
import ZshStartup.Text.Blank

/-! The actions of the tool, and what they report when they succeed. -/

namespace ZshStartup

inductive Action where
  /-- Renders the stored configuration, or that of a file, to a script. -/
  | render (input output : Option String)
  /-- Renders a configuration, and stores both the script and the configuration. -/
  | apply (input : Option String)
  /-- Stores the configuration of a file. -/
  | importFile (file : String)
  /-- Writes the stored configuration as a document. -/
  | exportStored (output : Option String)
  /-- Writes the default configuration as a document. -/
  | generate (output : Option String)
  | reset
  /-- Counts the entries of the stored configuration. -/
  | summarize
  /-- Writes a template for the tool's settings file. -/
  | settingsTemplate
deriving DecidableEq, Repr

/-- The files that were written when a configuration was applied. -/
structure Applied where
  script : Option String := none
  config : Option String := none
deriving DecidableEq, Repr, Inhabited

inductive Report where
  | script (text : String)
  | document (text : String)
  | written (path : String)
  | applied (files : Applied)
  | imported (path : String) (plugins : Nat)
  | reset (path : String)
  | listing (entries : List (String × String))
  | template (text : String)
deriving DecidableEq, Repr

def Report.text : Report → String
  | .script text => text
  | .document text => text
  | .template text => text
  | .written path => "Written to " ++ path
  | .applied files =>
      let lines :=
        [
          files.script.map ("Script written to " ++ ·),
          files.config.map ("Configuration written to " ++ ·)
        ].filterMap id
      if lines.isEmpty then "Nothing to write" else "\n".intercalate lines
  | .imported path plugins =>
      "Imported configuration (" ++ toString plugins ++ " plugins) into " ++ path
  | .reset path => "Reset configuration at " ++ path
  | .listing entries => "\n".intercalate (entries.map fun entry => entry.1 ++ " = " ++ entry.2)

/-- What is printed for a report: its text, which gets a line feed at its end unless it has one. -/
def Report.output (report : Report) : String :=
  if report.text.toList.getLast? = some '\n' then report.text else report.text ++ "\n"

/-- The bootstrap paths of a configuration, and how many entries each of its lists has. -/
def Configuration.summary (config : Configuration) : List (String × String) :=
  [
    ("brew_path", config.bootstrap.brewPath),
    ("zinit_home", config.bootstrap.zinitHome),
    ("env_vars", toString config.envVars.length),
    ("path_vars", toString config.pathEntries.length),
    ("aliases", toString config.aliases.length),
    ("zsh_options", toString config.options.length),
    ("plugins", toString config.plugins.length),
    ("init_script", toString (Text.lineCount config.initScript) ++ " lines")
  ]

end ZshStartup
