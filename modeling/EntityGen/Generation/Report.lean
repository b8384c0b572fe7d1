import EntityGen.Fault
import EntityGen.Artifact

/-! What is asked of a generation, and what it reports. -/

namespace EntityGen

/-- What is asked of a generation. -/
structure Options where
  /-- whether the formatter is run at the end -/
  format : Bool := false
  /-- the only models to be generated, if they are restricted -/
  names : Option (List String) := none
deriving DecidableEq, Repr

def Options.includes (options : Options) (name : String) : Bool :=
  match options.names with
  | some names => names.contains name
  | none => true

/-- The names asked for that are not among those that exist. -/
def Options.unknown (options : Options) (isKnown : String → Bool) : List String :=
  (options.names.getD []).filter fun name => !isKnown name

/-- What a generation did. -/
structure Report where
  /-- the models that were generated, in document order -/
  models : List String := []
  written : List Artifact := []
  /-- files that had the right content -/
  unchanged : List Artifact := []
  failures : List (Artifact × Fault) := []
  /-- directories that were removed or lost a file, sorted -/
  removed : List String := []

namespace Report

/-- Whether every file was generated. -/
def isSuccess (report : Report) : Bool := report.failures.isEmpty

def add (report : Report) (artifact : Artifact) : Except Fault Bool → Report
  | .ok true => { report with written := report.written ++ [artifact] }
  | .ok false => { report with unchanged := report.unchanged ++ [artifact] }
  | .error fault => { report with failures := report.failures ++ [(artifact, fault)] }

end Report

end EntityGen
