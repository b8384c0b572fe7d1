import EntityGen.Watch.Document

/-!
The registry of watches. A watch gets a number that is never given again, and runs from the time it
is started until it is stopped. Starting visits the watches in some order and ends at the first one
that cannot be started; those started before it keep running.
-/

namespace EntityGen

open Files (Path)

structure Registration where
  id : Nat
  watch : Watch
  running : Bool := false

/-- The registered watches in the order in which they are visited, and the next number. -/
structure Registry where
  nextId : Nat := 1
  registrations : List Registration := []

/-- What starting watches gives: how far they were started, the snapshots, and the fault that ended
it. -/
structure Started where
  registrations : List Registration
  snapshots : Snapshots
  fault? : Option Fault := none

/-- What is tried to start a watch: it gives the snapshots, and a fault if the watch does not start. -/
abbrev Attempt := Registration → Snapshots → Job (Snapshots × Option Fault)

namespace Watch

/-- The directory in which a document is watched. -/
def surroundings (watch : Watch) : Path :=
  match watch.path.parent? with
  | some parent => if parent.isEmpty then "." else parent
  | none => "."

def start (watch : Watch) (snapshots : Snapshots) : Job (Snapshots × Option Fault) := do
  match watch.path.fileName? with
  | none => return (snapshots, some (.watch (.noFileName watch.path)))
  | some _ =>
    let snapshots ← watch.seed snapshots
    if (← Job.tree).hasNode watch.surroundings then
      Job.tell (.watching watch.kind watch.path)
      return (snapshots, none)
    else return (snapshots, some (.watch (.noDirectory watch.surroundings)))

end Watch

namespace Registry

/-- Registers a watch and gives its number. -/
def register (registry : Registry) (watch : Watch) : Nat × Registry :=
  (registry.nextId,
    ⟨registry.nextId + 1, registry.registrations ++ [⟨registry.nextId, watch, false⟩]⟩)

/-- Starts those of some watches that are not running, in order, each by an attempt. -/
def startAll (attempt : Attempt) (snapshots : Snapshots) : List Registration → Job Started
  | [] => return ⟨[], snapshots, none⟩
  | first :: rest => do
    if first.running then
      let started ← startAll attempt snapshots rest
      return { started with registrations := first :: started.registrations }
    else
      match ← attempt first snapshots with
      | (snapshots, some fault) => return ⟨first :: rest, snapshots, some fault⟩
      | (snapshots, none) =>
        let started ← startAll attempt snapshots rest
        return { started with
          registrations := { first with running := true } :: started.registrations }

/-- Starts the watches that are not running by attempts of some kind. -/
def startBy (attempt : Attempt) (registry : Registry) (snapshots : Snapshots) :
    Job (Registry × Snapshots × Option Fault) := do
  let started ← startAll attempt snapshots registry.registrations
  return ({ registry with registrations := started.registrations }, started.snapshots,
    started.fault?)

def start (registry : Registry) (snapshots : Snapshots) :
    Job (Registry × Snapshots × Option Fault) :=
  registry.startBy (fun registration => registration.watch.start) snapshots

/-- Lets the running ones of some watches handle changes of their documents, in order. A fault is
told and leaves the snapshot as it is. -/
def handleAll (snapshots : Snapshots) : List Registration → Job Snapshots
  | [] => return snapshots
  | first :: rest => do
    if !first.running then handleAll snapshots rest
    else
      match ← Job.outcome (first.watch.handle snapshots) with
      | .ok handled => handleAll handled.snapshots rest
      | .error cause =>
        Job.tell (.regenerationFailed first.watch.path cause)
        handleAll snapshots rest

def find? (registry : Registry) (id : Nat) : Option Registration :=
  registry.registrations.find? (·.id == id)

/-- Stops a watch and forgets it; whether there was one. -/
def stop (registry : Registry) (id : Nat) : Job (Bool × Registry) := do
  match registry.find? id with
  | none => return (false, registry)
  | some registration =>
    if registration.running then Job.tell (.stoppedWatching registration.watch.path)
    return (true,
      { registry with registrations := registry.registrations.filter (·.id != id) })

def stopAll (registry : Registry) : Job Registry := do
  Job.tellAll ((registry.registrations.filter (·.running)).map
    fun registration => .stoppedWatching registration.watch.path)
  return { registry with registrations := [] }

def isRunning (registry : Registry) (id : Nat) : Bool :=
  match registry.find? id with
  | some registration => registration.running
  | none => false

def size (registry : Registry) : Nat := registry.registrations.length

def isEmpty (registry : Registry) : Bool := registry.registrations.isEmpty

end Registry

end EntityGen
