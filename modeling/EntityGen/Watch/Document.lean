import EntityGen.Changes
import EntityGen.Generation.Run
import EntityGen.Watch.Snapshot

/-!
Watching one document. When it changes, its entries are compared with its snapshot, and those that
are new or different are generated, or handed to a receiver. A document that is missing or cannot be
parsed leaves the snapshot as it is, and so does a generation that fails.
-/

namespace EntityGen

open Files (Path)
open Yaml (Value)

/-- A watched document, and what to do when it changes. -/
structure Watch where
  kind : DocumentKind
  directory : Path
  /-- the document -/
  path : Path
  options : Options := {}
  generator : Generator
  /-- whether changed names are handed to a receiver instead of generated -/
  hasReceiver : Bool := false

/-- What handling a change gives: the changed names, what the receiver was given, and the
snapshots. -/
structure Handled where
  changes : List String := []
  received : Option (List String) := none
  snapshots : Snapshots

namespace Watch

/-- The tree of the document as it is now; none if it does not exist. -/
def current (watch : Watch) : Job (Option Value) := do
  match (← Job.tree).readText watch.path with
  | .error .notFound =>
    Job.tell (.notYetThere watch.path)
    return none
  | .error cause => throw (.inaccessible watch.path cause)
  | .ok text =>
    match parseDocument watch.path text with
    | .ok value => return some value
    | .error fault => throw fault

/-- Takes the document as it is for its snapshot, if it can be parsed. -/
def seed (watch : Watch) (snapshots : Snapshots) : Job Snapshots := do
  match ← Job.outcome watch.current with
  | .ok (some value) => return snapshots.put watch.path value
  | _ => return snapshots

def regenerate (watch : Watch) (names : List String) : Job Report :=
  watch.generator.generate watch.kind watch.directory watch.path
    { watch.options with names := some names }

/-- Handles a state of the document in which entries changed. -/
def handleChanges (watch : Watch) (snapshots : Snapshots) (value : Value) (changes : List String) :
    Job Handled := do
  Job.tell (.regenerating watch.kind changes)
  if watch.hasReceiver then return ⟨changes, some changes, snapshots.put watch.path value⟩
  match ← Job.outcome (watch.regenerate changes) with
  | .ok _ => return ⟨changes, none, snapshots.put watch.path value⟩
  | .error (.missing _) => return { snapshots }
  | .error fault => throw fault

/-- Handles a change of the document. -/
def handle (watch : Watch) (snapshots : Snapshots) : Job Handled := do
  match ← Job.outcome watch.current with
  | .error fault =>
    Job.tell (.failed fault)
    return { snapshots }
  | .ok none => return { snapshots }
  | .ok (some value) =>
    match changedKeys (snapshots.find? watch.path) value with
    | [] =>
      Job.tell (.unchanged watch.path)
      return { snapshots := snapshots.put watch.path value }
    | changes => watch.handleChanges snapshots value changes

end Watch

end EntityGen
