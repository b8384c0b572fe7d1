import EntityGen.Proofs.Watch.History
import EntityGen.Watch.Registry

/-! Watches of one registry. They share their snapshots, and there is one for each document, so that
a watch compares the document with what any of the watches of that document took last. Which changes
a watch misses follows from the calls of all: those that another one has taken in between. -/

namespace EntityGen

open Files (FileTree Path)
open Yaml (Value)

theorem Snapshots.find?_put (snapshots : Snapshots) (other path : Path) (value : Value) :
    (snapshots.put other value).find? path =
      if other.steps == path.steps then some value else snapshots.find? path := by
  by_cases hSteps : other.steps = path.steps
  · have hSelf := snapshots.find?_put_self other value
    rw [find?, hSteps] at hSelf
    rw [if_pos (beq_iff_eq.mpr hSteps), find?, hSelf]
  · rw [if_neg (by simpa using hSteps), find?_put_of_ne hSteps]

namespace Watch

/-- A seeding puts the document that it takes, and nothing else. -/
theorem snapshots_seed (watch : Watch) (state : State) :
    (watch.next state .seed).snapshots =
      (watch.taken? state .seed).elim state.snapshots (state.snapshots.put watch.path) := by
  obtain ⟨after, hRun, -⟩ := @seed_run watch state.snapshots state.workspace
  rw [next, hRun, taken?]

/-- Handling a change puts the document that it takes, and nothing else. -/
theorem snapshots_handle (watch : Watch) (state : State) :
    (watch.next state .handle).snapshots =
      (watch.taken? state .handle).elim state.snapshots (state.snapshots.put watch.path) := by
  have hHandling := watch.handle_run state.snapshots state.workspace
  rw [next, taken?]
  generalize watch.handle state.snapshots state.workspace = run at hHandling ⊢
  cases hHandling with
  | unparsed hDocument _ => simp only [hDocument, Option.elim_none]
  | unchanged hDocument _ _ => simp only [hDocument, Option.elim_some]
  | received hDocument _ _ _ => simp only [hDocument, Option.elim_some]
  | generated hDocument _ _ _ _ => simp only [hDocument, Option.elim_some]
  | failed _ _ _ _ _ => rfl

end Watch

namespace Registry

open Watch (State Handling)

/-- What happens to the watches of a registry: files change, or one of them is called. -/
inductive Event where
  | edit (tree : FileTree)
  | seed (id : Nat)
  | handle (id : Nat)

/-- A document that a watch took. -/
structure Taking where
  id : Nat
  path : Path
  value : Value

/-- Whether what was taken is the document at a path. -/
def Taking.isOf (path : Path) (taking : Taking) : Bool := taking.path.steps == path.steps

variable (registry : Registry)

def watch? (id : Nat) : Option Watch := (registry.find? id).map (·.watch)

def next (state : State) : Event → State
  | .edit tree => { state with workspace := { state.workspace with tree } }
  | .seed id => (registry.watch? id).elim state fun watch => watch.next state .seed
  | .handle id => (registry.watch? id).elim state fun watch => watch.next state .handle

def after (state : State) (events : List Event) : State := events.foldl registry.next state

/-- What a call of a watch takes. -/
def taking? (state : State) : Event → Option Taking
  | .edit _ => none
  | .seed id => (registry.watch? id).bind fun watch =>
      (watch.taken? state .seed).map (⟨id, watch.path, ·⟩)
  | .handle id => (registry.watch? id).bind fun watch =>
      (watch.taken? state .handle).map (⟨id, watch.path, ·⟩)

/-- What is taken in a history, in order. -/
def takings (state : State) : List Event → List Taking
  | [] => []
  | event :: rest => (registry.taking? state event).toList ++ takings (registry.next state event) rest

/-- What is taken last of the document at a path. -/
def lastOf? (path : Path) (takings : List Taking) : Option Taking :=
  (takings.filter (·.isOf path)).getLast?

/-- The document that a watch takes last. -/
def lastBy? (id : Nat) (takings : List Taking) : Option Value :=
  (takings.filter (·.id == id)).getLast?.map (·.value)

variable {registry} {state : State} {event : Event} {events : List Event} {id : Nat} {watch : Watch}
  {path : Path}

theorem lastOf?_append (first second : List Taking) :
    lastOf? path (first ++ second) = (lastOf? path second).or (lastOf? path first) := by
  rw [lastOf?, List.filter_append, List.getLast?_append]
  rfl

/-! ### One event -/

/-- An event moves the snapshots of the document that is taken, and no others. -/
theorem snapshots_next :
    (registry.next state event).snapshots =
      (registry.taking? state event).elim state.snapshots fun taking =>
        state.snapshots.put taking.path taking.value := by
  cases event with
  | edit tree => rfl
  | seed id =>
    rw [next, taking?]
    cases registry.watch? id with
    | none => rfl
    | some watch =>
      simp only [Option.elim_some, Option.bind_some, watch.snapshots_seed]
      cases watch.taken? state .seed <;> rfl
  | handle id =>
    rw [next, taking?]
    cases registry.watch? id with
    | none => rfl
    | some watch =>
      simp only [Option.elim_some, Option.bind_some, watch.snapshots_handle]
      cases watch.taken? state .handle <;> rfl

theorem find?_next :
    (registry.next state event).snapshots.find? path =
      ((lastOf? path (registry.taking? state event).toList).map (·.value)).or
        (state.snapshots.find? path) := by
  rw [snapshots_next]
  cases registry.taking? state event with
  | none => rfl
  | some taking =>
    simp only [Option.elim_some, Snapshots.find?_put, Option.toList_some, lastOf?]
    rw [show (taking.path.steps == path.steps) = taking.isOf path from rfl]
    cases hPath : taking.isOf path with
    | true => simp [hPath]
    | false => simp [hPath]

/-- What the call of a watch takes is the document of that watch. -/
theorem path_of_taking? {taking : Taking} (h : registry.taking? state event = some taking)
    (hWatch : registry.watch? taking.id = some watch) : taking.path = watch.path := by
  cases event with
  | edit tree => cases h
  | seed id =>
    obtain ⟨other, hOther, hTaken⟩ := Option.bind_eq_some_iff.mp h
    obtain ⟨value, -, rfl⟩ := Option.map_eq_some_iff.mp hTaken
    rw [show registry.watch? id = some watch from hWatch] at hOther
    rw [Option.some.inj hOther]
  | handle id =>
    obtain ⟨other, hOther, hTaken⟩ := Option.bind_eq_some_iff.mp h
    obtain ⟨value, -, rfl⟩ := Option.map_eq_some_iff.mp hTaken
    rw [show registry.watch? id = some watch from hWatch] at hOther
    rw [Option.some.inj hOther]

/-! ### Histories -/

/-- The snapshot of a document is what was taken of it last, by whichever watch. -/
theorem find?_after :
    (registry.after state events).snapshots.find? path =
      ((lastOf? path (registry.takings state events)).map (·.value)).or
        (state.snapshots.find? path) := by
  induction events generalizing state with
  | nil => rfl
  | cons event rest ih =>
    have hNext := @ih (registry.next state event)
    rw [find?_next, ← Option.or_assoc] at hNext
    rw [after, List.foldl_cons, takings, lastOf?_append, Option.map_or]
    exact hNext

theorem path_of_mem_takings (hWatch : registry.watch? id = some watch) {taking : Taking}
    (h : taking ∈ registry.takings state events) (hId : taking.id = id) :
    taking.path = watch.path := by
  induction events generalizing state with
  | nil => cases h
  | cons event rest ih =>
    rw [takings, List.mem_append, Option.mem_toList] at h
    rcases h with hHere | hRest
    · exact path_of_taking? hHere (hId ▸ hWatch)
    · exact ih hRest

/-- If a watch was the last to take its document, then what it took last is what was taken last. -/
theorem lastBy?_eq (hWatch : registry.watch? id = some watch)
    (hOwn : ∀ taking, lastOf? watch.path (registry.takings state events) = some taking →
      taking.id = id) :
    lastBy? id (registry.takings state events) =
      (lastOf? watch.path (registry.takings state events)).map (·.value) := by
  have hPaths := fun taking => @path_of_mem_takings registry state events id watch hWatch taking
  generalize registry.takings state events = takings at hOwn hPaths ⊢
  -- What the watch took is its document, so that both are found in what was taken of the document.
  have hFilter : takings.filter (·.id == id) =
      (takings.filter (·.isOf watch.path)).filter (·.id == id) := by
    rw [List.filter_filter]
    refine List.filter_congr fun taking hTaking => ?_
    by_cases hId : taking.id = id
    · simp [hId, Taking.isOf, hPaths taking hTaking hId]
    · simp [hId]
  rw [lastBy?, hFilter]
  rw [lastOf?] at hOwn ⊢
  rcases List.eq_nil_or_concat (takings.filter (·.isOf watch.path)) with hNil | ⟨earlier, last, hLast⟩
  · rw [hNil]
    rfl
  · rw [hLast, List.concat_eq_append] at hOwn ⊢
    have hId : last.id = id := hOwn last List.getLast?_concat
    simp [List.filter_append, hId]

/-- Whatever the watches of a new registry are called for and in whatever order, a watch handles its
document against what any watch took of it last. Of the names whose values are new or different since
the watch took its document itself, it misses exactly those that another watch has taken: the last
one to take the document was another one, and found that entry as it is now. -/
theorem missed_iff (registry : Registry) (id : Nat) (watch : Watch)
    (hWatch : registry.watch? id = some watch) (workspace : Workspace) (events : List Event) :
    let state := registry.after { workspace } events
    let takings := registry.takings { workspace } events
    Handling watch ((lastOf? watch.path takings).map (·.value)) state.snapshots state.workspace
      (watch.handle state.snapshots state.workspace) ∧
    ∀ value, watch.taken? state .handle = some value →
      ∀ name ∈ changedKeys (lastBy? id takings) value,
        (name ∉ watch.reports state .handle ↔ ∃ taking, lastOf? watch.path takings = some taking ∧
          taking.id ≠ id ∧ name ∉ changedKeys (some taking.value) value) := by
  intro state takings
  have hSnapshot : state.snapshots.find? watch.path =
      (lastOf? watch.path takings).map (·.value) := by
    rw [find?_after, Snapshots.find?, List.lookup_nil, Option.or_none]
  refine ⟨hSnapshot ▸ watch.handle_run _ _, fun value hTaken name hChanged => ?_⟩
  rw [Watch.reports_of_taken hTaken, hSnapshot]
  constructor
  · intro hMissed
    by_contra hNone
    push Not at hNone
    -- Then the watch was the last to take the document, and has missed nothing.
    refine hMissed ?_
    rw [← lastBy?_eq hWatch fun taking hLast => ?_]
    · exact hChanged
    · by_contra hOther
      have hReported := hNone taking hLast hOther
      rw [show lastOf? watch.path takings = some taking from hLast] at hMissed
      exact hMissed hReported
  · rintro ⟨taking, hLast, -, hSeen⟩
    rwa [hLast]

/-- A registry of two watches of one document, for two mappers directories. -/
def pair : Registry :=
  ((({} : Registry).register Watch.receiving).2.register
    { Watch.receiving with directory := "n" }).2

/-- Both watches are seeded, an entry is added, and the first one handles the change. -/
def pairEvents : List Event :=
  [.seed 1, .seed 2, .edit (Watch.treeWith "A: 1\nB: 2\n"), .handle 1]

/-- The second watch handles the change after the first one, and does not report it. -/
theorem missed_by_second : ∃ watch, pair.watch? 2 = some watch ∧
    let start : State := { workspace := { tree := Watch.treeWith "A: 1\n" } }
    let takings := pair.takings start pairEvents
    ∃ value, watch.taken? (pair.after start pairEvents) .handle = some value ∧
      "B" ∈ changedKeys (lastBy? 2 takings) value ∧
      "B" ∉ watch.reports (pair.after start pairEvents) .handle ∧
      ∃ taking, lastOf? watch.path takings = some taking ∧ taking.id = 1 := by
  refine ⟨{ Watch.receiving with directory := "n" }, rfl, ?_⟩
  intro start takings
  have hEvaluated :
      ((Watch.taken? { Watch.receiving with directory := "n" }
          (pair.after start pairEvents) .handle).any fun value =>
        (changedKeys (lastBy? 2 takings) value).contains "B" &&
          (lastOf? "schema.tw" takings).any fun taking => taking.id == 1 &&
            !(changedKeys (some taking.value) value).contains "B") = true := by decide +kernel
  obtain ⟨value, hTaken, hEvaluated⟩ := (Option.any_eq_true _ _).mp hEvaluated
  simp only [Bool.and_eq_true, List.contains_iff_mem] at hEvaluated
  obtain ⟨hChanged, hLast⟩ := hEvaluated
  obtain ⟨taking, hTaking, hFirst⟩ := (Option.any_eq_true _ _).mp hLast
  simp only [Bool.and_eq_true, beq_iff_eq, Bool.not_eq_true', ← Bool.not_eq_true,
    List.contains_iff_mem] at hFirst
  refine ⟨value, hTaken, hChanged, ?_, taking, hTaking, hFirst.1⟩
  exact ((missed_iff pair 2 _ rfl start.workspace pairEvents).2 value hTaken "B" hChanged).mpr
    ⟨taking, hTaking, by omega, hFirst.2⟩

end Registry

end EntityGen
