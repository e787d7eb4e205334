import ZshStartup.Proofs.Configuration.WrongTypes
import ZshStartup.Proofs.Configuration.Normalization
import ZshStartup.Proofs.Shell.Words
import ZshStartup.Proofs.Shell.Evaluation
import ZshStartup.Main
import ZshStartup.Edit.Session
import ZshStartup.Files.Machine
import ZshStartup.Proofs.Script.Directive
import ZshStartup.Proofs.Edit.Steps
import ZshStartup.Proofs.Edit.Moving
import ZshStartup.Proofs.Edit.OrderedMap
import ZshStartup.Proofs.Edit.Identity
import ZshStartup.Proofs.Edit.Ownership
import ZshStartup.Proofs.Edit.Patching
import ZshStartup.Proofs.Edit.Renaming
import ZshStartup.Proofs.Script.Reloading
import ZshStartup.Proofs.Files.Places
import ZshStartup.Proofs.Files.Tasks
import ZshStartup.Proofs.Files.Writing
import ZshStartup.Proofs.Action.Plan
import ZshStartup.Proofs.Action.Applying
import ZshStartup.Proofs.Action.Changes
import ZshStartup.Proofs.Configuration.Assignment
import ZshStartup.Proofs.Configuration.OlderPlugins
import ZshStartup.Proofs.Edit.Relabelling
import ZshStartup.Proofs.Edit.Replacing
import ZshStartup.Proofs.Script.Modifiers
import ZshStartup.Proofs.Script.Layout
import ZshStartup.Proofs.Script.Editing
import ZshStartup.Proofs.Configuration.Entries
import ZshStartup.Proofs.Text.Numbers
import ZshStartup.Proofs.Configuration.WaitTimes
import ZshStartup.Proofs.CommandLine.Arguments
import ZshStartup.Proofs.Action.Reading
