import EntityGen.Job
import EntityGen.Watch.Registry

/-! How a command ends, and what it leaves running. -/

namespace EntityGen.CommandLine

/-- How a command ends: it has done its work, it failed with a message, it goes on watching documents
with a pause in milliseconds, or it serves the editor at an address. -/
inductive Ending where
  | done
  | failed (message : String)
  | watching (registry : Registry) (snapshots : Snapshots) (pause : Nat)
  | serving (address : String)

/-- How a job ends; a fault becomes a message. -/
def ending (job : Job Ending) : Job Ending := do
  match ← Job.outcome job with
  | .ok ending => return ending
  | .error fault => return .failed fault.message

end EntityGen.CommandLine
