import EntityGen.Files.Fault
import EntityGen.Files.Path
import EntityGen.Number.Text

/-!
The formatter: a command that is run on the directory of the generated files. What running it gives
is asked of the surroundings; here it is only known how it can end.
-/

namespace EntityGen

open Files (FileFault Path)

/-- A program and the arguments that it is given before the directory. -/
structure Command where
  program : String
  arguments : List String
deriving DecidableEq, Repr

/-- The command in a list of words; none if the list is empty. -/
def Command.ofWords? : List String → Option Command
  | [] => none
  | program :: arguments => some ⟨program, arguments⟩

/-- How a program that was started ends. -/
inductive ExitStatus where
  | code (n : Nat)
  | signal (n : Nat) (name : String)
deriving DecidableEq, Repr

namespace ExitStatus

def text : ExitStatus → String
  | .code n => "exit status: " ++ Number.intText n
  | .signal n name => "signal: " ++ Number.intText n ++ " (" ++ name ++ ")"

def success : ExitStatus := .code 0

end ExitStatus

/-- Why formatting failed. -/
inductive FormatFault where
  | notStarted (program : String) (cause : FileFault)
  | exited (program : String) (status : ExitStatus)
deriving DecidableEq, Repr

def FormatFault.message : FormatFault → String
  | .notStarted program cause => "failed to start " ++ program ++ ": " ++ cause.message
  | .exited program status => program ++ " exited with " ++ status.text

/-- What running commands gives: a status, or why the program could not be started. -/
abbrev Shell := Command → Path → Except FileFault ExitStatus

/-- Why running a command on a directory fails, if it does. -/
def Shell.fault? (shell : Shell) (command : Command) (directory : Path) : Option FormatFault :=
  match shell command directory with
  | .error cause => some (.notStarted command.program cause)
  | .ok status => if status = .success then none else some (.exited command.program status)

end EntityGen
