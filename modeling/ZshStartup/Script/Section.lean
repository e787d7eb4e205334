import ZshStartup.Script.Directive

/-! The generated script: seven sections in a fixed order, with an empty line between them. All but
the first open with a banner and hold a line for each entry of one list of the configuration.
-/

namespace ZshStartup

namespace Script

/-- The parts of a script. -/
inductive Section where
  | boot
  | envVars
  | path
  | aliases
  | options
  | plugins
  | initScript
deriving DecidableEq, Repr

/-- The sections in the order of the script. -/
def Section.order : List Section :=
  [.boot, .envVars, .path, .aliases, .options, .plugins, .initScript]

/-- What the banner of a section says. -/
def Section.title : Section → Option String
  | .boot => none
  | .envVars => some "ENV VARIABLES"
  | .path => some "PATH VARIABLES"
  | .aliases => some "ALIASES"
  | .options => some "ZSH OPTIONS"
  | .plugins => some "PLUGINS"
  | .initScript => some "INIT SCRIPT"

/-- The line above and below a title. -/
def rule : String :=
  "#####################"

/-- The three lines that open a section, in which the title fills eighteen columns. -/
def banner (title : String) : List String :=
  [rule, "# " ++ String.ofList (title.toList.rightpad 18 ' ') ++ "#", rule]

/-- The lines that install and start the plugin manager. -/
def bootLines (bootstrap : Bootstrap) : List String :=
  [
    "#!/bin/zsh",
    "",
    "if [[ -f \"" ++ bootstrap.brewPath ++ "\" ]] then",
    "  # If you're using macOS, you'll want this enabled",
    "  eval \"$(/" ++ bootstrap.brewPath ++ " shellenv)\"",
    "fi",
    "",
    "ZINIT_HOME=\"" ++ bootstrap.zinitHome ++ "\"",
    "[ ! -d $ZINIT_HOME ] && mkdir -p \"$(dirname $ZINIT_HOME)\"",
    "[ ! -d $ZINIT_HOME/.git ] && git clone https://github.com/zdharma-continuum/zinit.git "
      ++ "\"$ZINIT_HOME\"",
    "source \"$ZINIT_HOME/zinit.zsh\"",
    "",
    "autoload -Uz _zinit",
    "(( $\x7b+_comps\x7d )) && _comps[zinit]=_zinit",
    "",
    "zinit ice from\"gh-r\" as\"command\" atload'eval \"$(starship init zsh)\"'",
    "zinit load starship/starship",
    "### End of Zinit's installer chunk"
  ]

end Script

/-- The line that exports a variable. -/
def EnvVar.line (entry : EnvVar) : String :=
  "export " ++ entry.key ++ "=\"" ++ entry.value ++ "\""

/-- The line that adds a directory to the search path. -/
def PathEntry.line (entry : PathEntry) : String :=
  "export PATH=\"$PATH:" ++ entry.path ++ "\"  # " ++ entry.name

/-- The line that defines an alias. -/
def Alias.line (entry : Alias) : String :=
  Script.withComment ("alias " ++ entry.name ++ "=\"" ++ entry.command ++ "\"") entry.description

/-- The line that sets an option. -/
def ShellOption.line (entry : ShellOption) : String :=
  Script.withComment entry.option entry.description

namespace Script

/-- What a section holds below its banner. Entries are taken as they are, whatever they contain. -/
def Section.entries (config : Configuration) : Section → List String
  | .boot => bootLines config.bootstrap
  | .envVars => config.envVars.map EnvVar.line
  | .path => config.pathEntries.map PathEntry.line
  | .aliases => config.aliases.map Alias.line
  | .options => config.options.map ShellOption.line
  | .plugins => config.plugins.map Plugin.directive
  | .initScript => [config.initScript]

/-- The banner of a section and its entries. -/
def Section.lines (part : Section) (config : Configuration) : List String :=
  (part.title.map banner).getD [] ++ part.entries config

/-- Ends every line with a line feed. -/
def unlines (lines : List String) : String :=
  String.join (lines.map (· ++ "\n"))

/-- The text of a section. -/
def Section.render (part : Section) (config : Configuration) : String :=
  unlines (part.lines config)

end Script

/-- The startup script that a configuration describes. -/
def Configuration.render (config : Configuration) : String :=
  "\n".intercalate (Script.Section.order.map fun part => part.render config)

end ZshStartup
