import Syndication.CommandLine.Arguments
import Syndication.CommandLine.Example
import Syndication.CommandLine.Inspection
import Syndication.CommandLine.Publishing
import Syndication.CommandLine.Readiness

/-!
# Running a command line

Main statements:

* `runArguments`: what arguments do with files, and what is printed.
* `runArguments_usage`: arguments that ask for no command end with code 2.
-/

namespace Syndication

/-- The version of the program. -/
def programVersion : String := "0.1.0"

/-- What a command does. -/
def Command.run (config : Option String) (around : Surroundings) : Command → FileProgram Output
  | .sync request => request.run config around
  | .list directory json => Inspection.list config directory json around
  | .validate directory => Inspection.validate config directory around
  | .check id directory json => Inspection.check config id directory json around
  | .writeExample path force => Settings.writeExample path force
  | .diagnose directory json => Diagnosis.command config directory json around

/-- What is printed where no command is carried out. -/
def Refusal.output : Refusal → Output
  | .usage => ⟨[], ["error: the arguments ask for no command"], 2⟩
  | .help => ⟨[], [], 0⟩
  | .version => ⟨[s!"crosspost {programVersion}"], [], 0⟩

/-- **What arguments do.** -/
def runArguments (around : Surroundings) (arguments : List String) : FileProgram Output :=
  match Arguments.read arguments with
  | .ok a => a.command.run a.config around
  | .error refusal => pure refusal.output

/-- Arguments that ask for no command touch no file and end with code 2. -/
theorem runArguments_usage {around : Surroundings} {arguments : List String}
    (h : Arguments.read arguments = .error .usage) :
    runArguments around arguments = pure Refusal.usage.output := by
  simp [runArguments, h]

end Syndication
