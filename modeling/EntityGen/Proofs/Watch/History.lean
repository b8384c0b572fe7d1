import EntityGen.Proofs.Watch.Change
import EntityGen.Proofs.Watch.Handle

/-! Histories of a watch. Between its calls the files change in any way, and others put snapshots of
other documents. The snapshot is then always the document that a call took last, and whatever
changes between two documents that were taken is reported on the way. -/

namespace EntityGen

open Files (FileTree Path)
open Yaml (Value)

namespace Snapshots

theorem find?_put_self (snapshots : Snapshots) (path : Path) (value : Value) :
    (snapshots.put path value).find? path = some value := by
  simp [find?, put]

theorem find?_put_of_ne {snapshots : Snapshots} {path other : Path} (h : other.steps ≠ path.steps)
    (value : Value) : (snapshots.put other value).find? path = snapshots.find? path := by
  have hOther : (path.steps == other.steps) = false := beq_eq_false_iff_ne.mpr (Ne.symm h)
  have hRest (entries : List (List String × Value)) :
      (entries.filter fun entry => entry.1 != other.steps).lookup path.steps =
        entries.lookup path.steps := by
    induction entries with
    | nil => rfl
    | cons entry rest ih =>
      obtain ⟨steps, kept⟩ := entry
      by_cases hSteps : steps = other.steps
      · rw [List.filter_cons_of_neg (by simp [hSteps]), ih, List.lookup_cons, hSteps]
        simp only [hOther]
      · rw [List.filter_cons_of_pos (by simpa using hSteps), List.lookup_cons, List.lookup_cons, ih]
  rw [find?, put, List.lookup_cons]
  simp only [hOther]
  exact hRest snapshots.entries

end Snapshots

namespace Watch

/-- Where a watch stands. -/
structure State where
  workspace : Workspace := {}
  snapshots : Snapshots := {}

/-- What happens: files change, a snapshot is put by another, or the watch is called. -/
inductive Event where
  | edit (tree : FileTree)
  | put (path : Path) (value : Value)
  | seed
  | handle

variable (watch : Watch)

/-- A call that fails leaves the snapshots as they are. -/
def next (state : State) : Event → State
  | .edit tree => { state with workspace := { state.workspace with tree } }
  | .put path value => { state with snapshots := state.snapshots.put path value }
  | .seed =>
    match watch.seed state.snapshots state.workspace with
    | (.ok snapshots, workspace) => { workspace, snapshots }
    | (.error _, workspace) => { state with workspace }
  | .handle =>
    match watch.handle state.snapshots state.workspace with
    | (.ok handled, workspace) => { workspace, snapshots := handled.snapshots }
    | (.error _, workspace) => { state with workspace }

def after (state : State) (events : List Event) : State := events.foldl watch.next state

/-- The document that a call takes: one that can be parsed, unless handling it fails. -/
def taken? (state : State) : Event → Option Value
  | .seed => documentAt? state.workspace.tree watch.path
  | .handle =>
    match (watch.handle state.snapshots state.workspace).1 with
    | .ok _ => documentAt? state.workspace.tree watch.path
    | .error _ => none
  | _ => none

/-- The documents that are taken in a history, in order. -/
def taken (state : State) : List Event → List Value
  | [] => []
  | event :: rest => (watch.taken? state event).toList ++ taken (watch.next state event) rest

/-- The names that a call reports. -/
def reports (state : State) : Event → List String
  | .handle =>
    match (watch.handle state.snapshots state.workspace).1 with
    | .ok handled => handled.changes
    | .error _ => []
  | _ => []

/-- The names that are reported in a history, in order. -/
def reported (state : State) : List Event → List String
  | [] => []
  | event :: rest => watch.reports state event ++ reported (watch.next state event) rest

/-- Nobody else puts snapshots of the watched document. -/
def Alone (events : List Event) : Prop :=
  ∀ path value, Event.put path value ∈ events → path.steps ≠ watch.path.steps

variable {watch} {state : State} {event : Event} {events : List Event}

theorem alone_cons : watch.Alone (event :: events) ↔ watch.Alone [event] ∧ watch.Alone events := by
  simp only [Alone, List.mem_cons, List.not_mem_nil, or_false]
  exact ⟨fun h => ⟨fun path value hEvent => h path value (.inl hEvent),
      fun path value hEvent => h path value (.inr hEvent)⟩,
    fun h path value hEvent => hEvent.elim (h.1 path value) (h.2 path value)⟩

/-! ### One event -/

/-- An event moves the snapshot to the document that it takes, and does not move it otherwise. -/
theorem find?_next (hAlone : watch.Alone [event]) :
    (watch.next state event).snapshots.find? watch.path =
      (watch.taken? state event).or (state.snapshots.find? watch.path) := by
  cases event with
  | edit tree => rfl
  | put path value =>
    exact Snapshots.find?_put_of_ne (hAlone path value List.mem_cons_self) value
  | seed =>
    obtain ⟨after, hRun, -⟩ := @seed_run watch state.snapshots state.workspace
    rw [next, hRun, taken?]
    cases documentAt? state.workspace.tree watch.path with
    | none => rfl
    | some value => exact Snapshots.find?_put_self state.snapshots watch.path value
  | handle =>
    have hHandling := watch.handle_run state.snapshots state.workspace
    rw [next, taken?]
    generalize watch.handle state.snapshots state.workspace = run at hHandling ⊢
    cases hHandling with
    | unparsed hDocument _ => simp only [hDocument, Option.none_or]
    | unchanged hDocument _ _ =>
      simp only [hDocument, Option.some_or, Snapshots.find?_put_self]
    | received hDocument _ _ _ =>
      simp only [hDocument, Option.some_or, Snapshots.find?_put_self]
    | generated hDocument _ _ _ _ =>
      simp only [hDocument, Option.some_or, Snapshots.find?_put_self]
    | failed _ _ _ _ _ => rfl

/-- Handling reports the names that changed from the snapshot to the document that it takes. -/
theorem reports_of_taken {value : Value} (h : watch.taken? state .handle = some value) :
    watch.reports state .handle = changedKeys (state.snapshots.find? watch.path) value := by
  have hHandling := watch.handle_run state.snapshots state.workspace
  rw [taken?] at h
  rw [reports]
  generalize watch.handle state.snapshots state.workspace = run at hHandling h ⊢
  cases hHandling with
  | unparsed hDocument _ => simp [hDocument] at h
  | unchanged hDocument hNone _ =>
    rw [hDocument] at h
    rw [← Option.some.inj h, hNone]
  | received hDocument _ _ _ =>
    rw [hDocument] at h
    rw [← Option.some.inj h]
  | generated hDocument _ _ _ _ =>
    rw [hDocument] at h
    rw [← Option.some.inj h]
  | failed _ _ _ _ _ => cases h

/-! ### Histories -/

/-- The snapshot is the document that was taken last. -/
theorem find?_after (hAlone : watch.Alone events) :
    (watch.after state events).snapshots.find? watch.path =
      (watch.taken state events).getLast?.or (state.snapshots.find? watch.path) := by
  induction events generalizing state with
  | nil => rfl
  | cons event rest ih =>
    obtain ⟨hEvent, hRest⟩ := alone_cons.mp hAlone
    have hNext := @ih (watch.next state event) hRest
    rw [find?_next hEvent] at hNext
    rw [taken, List.getLast?_append, Option.or_assoc, after, List.foldl_cons]
    cases hTaken : watch.taken? state event with
    | none => simpa [hTaken, after] using hNext
    | some value => simpa [hTaken, after] using hNext

/-- An entry of the document that is taken at the end, which the snapshot at the start does not have,
is reported if nothing is seeded: it changes at the call after which the snapshot has it. -/
theorem mem_reported {key value later : Value} {name : String} (hAlone : watch.Alone events)
    (hSeed : Event.seed ∉ events)
    (hTaken : watch.taken? (watch.after state events) .handle = some later)
    (hEntry : (key, value) ∈ later.entries) (hText : key.text? = some name)
    (hChanged : isKept (earlierEntries (state.snapshots.find? watch.path)) (key, value) = false) :
    name ∈ watch.reported state (events ++ [.handle]) := by
  induction events generalizing state with
  | nil =>
    have hReports := reports_of_taken hTaken
    rw [List.nil_append, reported, List.mem_append]
    refine Or.inl ?_
    rw [show watch.reports state .handle = _ from hReports]
    exact mem_changedKeys.mpr ⟨key, value, hEntry, hText, hChanged⟩
  | cons event rest ih =>
    obtain ⟨hEvent, hRest⟩ := alone_cons.mp hAlone
    rw [List.mem_cons, not_or] at hSeed
    rw [List.cons_append, reported, List.mem_append]
    cases hKept : isKept (earlierEntries ((watch.next state event).snapshots.find? watch.path))
      (key, value) with
    | false => exact Or.inr (ih hRest hSeed.2 hTaken hKept)
    | true =>
      -- The snapshot has the entry only now, so this event took a document that has it.
      rw [find?_next hEvent] at hKept
      cases hTaken : watch.taken? state event with
      | none =>
        rw [hTaken, Option.none_or, hChanged] at hKept
        cases hKept
      | some between =>
        rw [hTaken, Option.some_or] at hKept
        refine Or.inl ?_
        cases event with
        | edit tree => cases hTaken
        | put path value => cases hTaken
        | seed => exact absurd rfl hSeed.1
        | handle =>
          rw [reports_of_taken hTaken]
          exact mem_changedKeys_of_kept hText hChanged hKept

/-- Whatever happens to a document whose snapshots one watch keeps alone, the snapshot is the
document that was taken last; a call handles the document that it finds against it; and between two
documents that calls take, without a seeding, every name whose value is new or different is reported
after the first call and no later than at the second. -/
theorem history_reported (watch : Watch) (start : State) (events : List Event)
    (hAlone : watch.Alone events) :
    let state := watch.after start events
    let baseline := (watch.taken start events).getLast?.or (start.snapshots.find? watch.path)
    state.snapshots.find? watch.path = baseline ∧
    Handling watch baseline state.snapshots state.workspace
      (watch.handle state.snapshots state.workspace) ∧
    (∀ value, (changedKeys baseline value).Nodup ∧
      (changedKeys baseline value).Sublist (Yaml.Value.texts value.entries)) ∧
    ∀ between earlier later, watch.Alone between → Event.seed ∉ between →
      watch.taken? state .handle = some earlier →
      watch.taken? (watch.after (watch.next state .handle) between) .handle = some later →
      ∀ key value name, (key, value) ∈ later.entries → key.text? = some name →
        (∀ old, Yaml.Value.find? key earlier.entries = some old → old.same value = false) →
        name ∈ watch.reported (watch.next state .handle) (between ++ [.handle]) := by
  intro state baseline
  have hBaseline : state.snapshots.find? watch.path = baseline := find?_after hAlone
  refine ⟨hBaseline, ?_, fun value => ⟨changedKeys_nodup _ value, changedKeys_sublist _ value⟩, ?_⟩
  · rw [← hBaseline]
    exact watch.handle_run _ _
  · intro between earlier later hBetween hSeed hEarlier hLater key value name hEntry hText hDiffers
    have hHandle : watch.Alone [.handle] := fun path value h => by simp at h
    refine mem_reported hBetween hSeed hLater hEntry hText ?_
    rw [find?_next hHandle, hEarlier, Option.some_or, Bool.eq_false_iff]
    intro hKept
    obtain ⟨old, hOld, hSame⟩ := isKept_iff.mp hKept
    rw [hDiffers old hOld] at hSame
    cases hSame

/-- A tree with one document of this text. -/
def treeWith (text : String) : FileTree := { entries := [(["schema.tw"], .file text.toUTF8)] }

/-- A watch that hands changed names to a receiver. -/
def receiving : Watch where
  kind := .schema
  directory := "m"
  path := "schema.tw"
  generator := { shell := fun _ _ => .ok .success }
  hasReceiver := true

/-- A document is seeded and handled, broken and handled, and handled again with an entry that is
new: the entry is reported. -/
theorem history_reports_new :
    let start : State := { workspace := { tree := treeWith "A: 1\n" } }
    let between := [.edit (treeWith "A: [\n"), .handle, .edit (treeWith "A: 1\nB: 2\n")]
    receiving.Alone [.seed] ∧ receiving.Alone between ∧
      "B" ∈ receiving.reported (receiving.next (receiving.after start [.seed]) .handle)
        (between ++ [.handle]) := by
  intro start between
  have hSeed : receiving.Alone [.seed] := fun path value h => by simp at h
  have hBetween : receiving.Alone between := fun path value h => by simp [between] at h
  refine ⟨hSeed, hBetween, ?_⟩
  have hDocuments :
      ((receiving.taken? (receiving.after start [.seed]) .handle).any fun earlier =>
        (receiving.taken? (receiving.after (receiving.next (receiving.after start [.seed]) .handle)
            between) .handle).any fun later =>
          later.entries.any fun entry => entry.1.text? == some "B" &&
            (Yaml.Value.find? entry.1 earlier.entries).isNone) = true := by decide +kernel
  obtain ⟨earlier, hEarlier, hDocuments⟩ := (Option.any_eq_true _ _).mp hDocuments
  obtain ⟨later, hLater, hDocuments⟩ := (Option.any_eq_true _ _).mp hDocuments
  obtain ⟨⟨key, value⟩, hEntry, hNew⟩ := List.any_eq_true.mp hDocuments
  rw [Bool.and_eq_true, beq_iff_eq, Option.isNone_iff_eq_none] at hNew
  refine (history_reported receiving start [.seed] hSeed).2.2.2 between earlier later hBetween
    (by simp [between]) hEarlier hLater key value "B" hEntry hNew.1 fun old hOld => ?_
  rw [hNew.2] at hOld
  cases hOld

end Watch

end EntityGen
