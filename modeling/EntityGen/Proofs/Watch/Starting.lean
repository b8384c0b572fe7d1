import EntityGen.Proofs.Files.Rewriting
import EntityGen.Proofs.Files.Steps
import EntityGen.Proofs.Watch.Sharing
import Mathlib.Data.List.Perm.Basic

/-! Starting the watches of a registry. They are visited in some order, up to the first one that does
not start. What is started and which snapshots are taken therefore depends on the order, unless all
the watches that do not run yet can be started, or none of them. -/

namespace EntityGen

open Files (FileTree Path)
open Yaml (Value)

/-- An attempt that always comes to an end: the watch is started, or there is a fault. -/
def Attempt.Settles (attempt : Attempt) : Prop :=
  ∀ registration snapshots workspace, ∃ given after,
    attempt registration snapshots workspace = (.ok given, after)

/-! ### Starting one watch -/

namespace Watch

variable (watch : Watch) (snapshots : Snapshots) (workspace : Workspace)

/-- Whether a watch can be started: its path ends in a name, and what is around it is there. -/
def canStart (tree : FileTree) : Bool :=
  watch.path.fileName?.isSome && tree.hasNode watch.surroundings

/-- The snapshots after the document was taken, if there is one. -/
def withDocument (tree : FileTree) : Snapshots :=
  (documentAt? tree watch.path).elim snapshots (snapshots.put watch.path)

/-- Starting keeps the file tree, and fails just if the watch cannot be started. A document is taken
before that is known. -/
theorem start_run : ∃ fault? after,
    watch.start snapshots workspace =
      (.ok (if watch.path.fileName?.isSome then watch.withDocument snapshots workspace.tree else snapshots,
        fault?), after) ∧
      after.tree = workspace.tree ∧ (fault? = none ↔ watch.canStart workspace.tree = true) := by
  rw [start, canStart]
  cases hName : watch.path.fileName? with
  | none => exact ⟨_, workspace, rfl, rfl, by simp⟩
  | some name =>
    obtain ⟨after, hSeed, hTree⟩ := @seed_run watch snapshots workspace
    simp only [Job.bind_run_ok hSeed, Job.bind_run, Job.tree_run, hTree]
    cases workspace.tree.hasNode watch.surroundings with
    | true => exact ⟨none, _, rfl, hTree, by simp⟩
    | false => exact ⟨_, after, rfl, hTree, by simp⟩

theorem start_settles : Attempt.Settles fun registration => registration.watch.start := by
  intro registration snapshots workspace
  obtain ⟨fault?, after, hRun, -⟩ := registration.watch.start_run snapshots workspace
  exact ⟨_, after, hRun⟩

variable {watch} {tree : FileTree} {path : Path} {value : Value}

/-- Where a document can be read, there is something around it. -/
theorem hasNode_surroundings (h : tree.Grounded)
    (hDocument : documentAt? tree watch.path = some value) :
    tree.hasNode watch.surroundings = true := by
  have hThere {path : Path} {directory : Files.Location} (hLeads : tree.Leads path directory) :
      tree.hasNode path = true := by
    rw [FileTree.hasNode, FileTree.nodeAt?, hLeads.locate]
    simp [hLeads.directory]
  -- A path without others around it is seen from the directory in which relative paths start.
  have hPoint : tree.Leads "." tree.workingDir := by
    refine .of_walks (by decide) ?_ h.start
    rw [show Path.components "." = ["."] by decide]
    exact .point .here
  obtain ⟨text, hText, -⟩ := documentAt?_eq_some_iff.mp hDocument
  obtain ⟨content, hRead, -⟩ := Files.FileTree.readText_eq_ok_iff.mp hText
  obtain ⟨place, hPlace, -⟩ := Files.FileTree.read_eq_ok_iff.mp hRead
  rw [surroundings]
  cases hParent : watch.path.parent? with
  | none => exact hThere hPoint
  | some parent =>
    by_cases hEmpty : parent = ""
    · simpa [hEmpty] using hThere hPoint
    · obtain ⟨directory, hLeads⟩ := h.leads_around hPlace hParent hEmpty
      simpa [hEmpty] using hThere hLeads

/-- A watch that cannot be started takes nothing, since its document cannot be read. -/
theorem start_eq (h : workspace.tree.Grounded) : ∃ fault? after,
    watch.start snapshots workspace =
      (.ok (if watch.canStart workspace.tree then watch.withDocument snapshots workspace.tree
        else snapshots, fault?), after) ∧
      after.tree = workspace.tree ∧ (fault? = none ↔ watch.canStart workspace.tree = true) := by
  obtain ⟨fault?, after, hRun, hTree, hFault⟩ := watch.start_run snapshots workspace
  refine ⟨fault?, after, ?_, hTree, hFault⟩
  rw [hRun, canStart]
  cases hName : watch.path.fileName?.isSome with
  | false => rfl
  | true =>
    cases hNode : workspace.tree.hasNode watch.surroundings with
    | true => rfl
    | false =>
      have hNone : documentAt? workspace.tree watch.path = none := by
        by_contra hSome
        obtain ⟨value, hValue⟩ := Option.ne_none_iff_exists'.mp hSome
        rw [hasNode_surroundings h hValue] at hNode
        cases hNode
      rw [withDocument, hNone]
      rfl

end Watch

namespace Registry

/-! ### The watches of a registry -/

/-- An order in which watches are visited. -/
structure Arrangement where
  arrange : List Registration → List Registration
  perm (registrations : List Registration) : (arrange registrations).Perm registrations

def arranged (registry : Registry) (order : Arrangement) : Registry :=
  { registry with registrations := order.arrange registry.registrations }

/-- The order in which those watches come first that are chosen. -/
def Arrangement.first (chosen : Registration → Bool) : Arrangement where
  arrange registrations :=
    registrations.filter chosen ++ registrations.filter fun registration => !chosen registration
  perm _ := List.filter_append_perm ..

/-- The numbers of the watches that a registry holds. -/
def held (registry : Registry) : List Nat := registry.registrations.map (·.id)

variable {registry : Registry} {id : Nat} {attempt : Attempt}

/-- A number is that of a running watch just if a watch with that number runs. -/
theorem isRunning_iff (hNodup : registry.held.Nodup) :
    registry.isRunning id = true ↔ ∃ registration ∈ registry.registrations,
      registration.id = id ∧ registration.running = true := by
  rw [isRunning, find?]
  constructor
  · intro h
    cases hFound : registry.registrations.find? (·.id == id) with
    | none => simp [hFound] at h
    | some registration =>
      rw [hFound] at h
      exact ⟨registration, List.mem_of_find?_eq_some hFound,
        by simpa using List.find?_some hFound, h⟩
  · rintro ⟨registration, hMem, rfl, hRunning⟩
    cases hFound : registry.registrations.find? (·.id == registration.id) with
    | none => simpa using List.find?_eq_none.mp hFound registration hMem
    | some found =>
      have hId : found.id = registration.id := by simpa using List.find?_some hFound
      rw [List.inj_on_of_nodup_map hNodup (List.mem_of_find?_eq_some hFound) hMem hId]
      exact hRunning

/-- A watch as it is when it was started. -/
def started (registration : Registration) : Registration := { registration with running := true }

theorem started_of_running {registration : Registration} (h : registration.running = true) :
    started registration = registration := by
  rw [started, ← h]

/-! ### Starting all -/

/-- Starting visits the watches up to the first one that does not start, all if there is no fault,
and those run. -/
theorem startAll_run (hSettles : attempt.Settles) (registrations : List Registration)
    (snapshots : Snapshots) (workspace : Workspace) :
    ∃ visited left later fault? after, registrations = visited ++ left ∧
      startAll attempt snapshots registrations workspace =
        (.ok ⟨visited.map started ++ left, later, fault?⟩, after) ∧ (fault? = none → left = []) := by
  induction registrations generalizing snapshots workspace with
  | nil => exact ⟨[], [], snapshots, none, workspace, rfl, rfl, fun _ => rfl⟩
  | cons first rest ih =>
    rw [startAll]
    cases hRunning : first.running with
    | true =>
      obtain ⟨visited, left, later, fault?, after, rfl, hRun, hAll⟩ := ih snapshots workspace
      refine ⟨first :: visited, left, later, fault?, after, rfl, ?_, hAll⟩
      rw [if_pos rfl, Job.bind_run_ok hRun, List.map_cons, started_of_running hRunning]
      rfl
    | false =>
      obtain ⟨⟨given, failure?⟩, between, hAttempt⟩ := hSettles first snapshots workspace
      rw [if_neg Bool.false_ne_true, Job.bind_run_ok hAttempt]
      cases failure? with
      | some fault => exact ⟨[], first :: rest, given, some fault, between, rfl, rfl, nofun⟩
      | none =>
        obtain ⟨visited, left, later, fault?, after, rfl, hRun, hAll⟩ := ih given between
        refine ⟨first :: visited, left, later, fault?, after, rfl, ?_, hAll⟩
        simp only [Job.bind_run_ok hRun]
        rfl

/-- Whether starting goes on past a watch: it runs already, or it can be started. -/
def passes (tree : FileTree) (registration : Registration) : Bool :=
  registration.running || registration.watch.canStart tree

/-- The watches that starting visits before it ends. -/
def visited (tree : FileTree) (registrations : List Registration) : List Registration :=
  registrations.takeWhile (passes tree)

/-- The snapshots after those of some watches took their documents that did not run. -/
def withDocuments (tree : FileTree) (snapshots : Snapshots) (registrations : List Registration) :
    Snapshots :=
  (registrations.filter (!·.running)).foldl
    (fun snapshots registration => registration.watch.withDocument snapshots tree) snapshots

/-- Starting goes on up to the first watch that neither runs nor can be started. -/
theorem startAll_visits (registrations : List Registration) (snapshots : Snapshots)
    {workspace : Workspace} (h : workspace.tree.Grounded) :
    ∃ fault? after, startAll (fun registration => registration.watch.start) snapshots registrations
        workspace =
      (.ok ⟨(visited workspace.tree registrations).map started ++
          registrations.dropWhile (passes workspace.tree),
        withDocuments workspace.tree snapshots (visited workspace.tree registrations), fault?⟩,
        after) := by
  induction registrations generalizing snapshots workspace with
  | nil => exact ⟨none, workspace, rfl⟩
  | cons first rest ih =>
    rw [startAll, visited, List.takeWhile_cons, List.dropWhile_cons, passes]
    cases hRunning : first.running with
    | true =>
      obtain ⟨fault?, after, hRun⟩ := ih snapshots h
      refine ⟨fault?, after, ?_⟩
      rw [if_pos rfl, Job.bind_run_ok hRun]
      simp [started_of_running hRunning, withDocuments, hRunning, visited]
    | false =>
      obtain ⟨failure?, between, hStart, hTree, hFault⟩ := first.watch.start_eq snapshots workspace h
      rw [if_neg Bool.false_ne_true, Job.bind_run_ok hStart]
      cases hCan : first.watch.canStart workspace.tree with
      | true =>
        obtain ⟨fault?, after, hRun⟩ := ih (first.watch.withDocument snapshots workspace.tree) (hTree ▸ h)
        obtain rfl := hFault.mpr hCan
        rw [hTree] at hRun
        refine ⟨fault?, after, ?_⟩
        simp only [if_true, Job.bind_run_ok hRun]
        simp [started, withDocuments, hRunning, visited]
      | false =>
        cases failure? with
        | none => simp [hCan] at hFault
        | some fault => exact ⟨some fault, between, rfl⟩

/-! ### What is taken -/

/-- The document at a path that a watch takes when it is started, unless it runs already. -/
def brought (tree : FileTree) (path : Path) (registration : Registration) : Option Value :=
  if !registration.running && registration.watch.path.steps == path.steps then
    documentAt? tree registration.watch.path
  else none

variable {tree : FileTree} {path : Path} {snapshots : Snapshots}
  {registrations others : List Registration}

/-- Whichever watch takes the document at a path, it is the same. -/
theorem brought_unique {first second : Registration} {value other : Value}
    (h : brought tree path first = some value) (hOther : brought tree path second = some other) :
    value = other := by
  have hRead {registration : Registration} {value : Value}
      (h : brought tree path registration = some value) :
      registration.watch.path.steps = path.steps ∧
        ∃ place content text, tree.locate registration.watch.path = .ok (.taken place) ∧
          tree.node? place = some (.file content) ∧ String.fromUTF8? content = some text ∧
          Yaml.parse? text = some value := by
    simp only [brought, Option.ite_none_right_eq_some, Bool.and_eq_true, beq_iff_eq] at h
    obtain ⟨text, hText, hValue⟩ := documentAt?_eq_some_iff.mp h.2
    obtain ⟨content, hContent, hDecoded⟩ := Files.FileTree.readText_eq_ok_iff.mp hText
    obtain ⟨place, hPlace, hNode⟩ := Files.FileTree.read_eq_ok_iff.mp hContent
    exact ⟨h.1.2, place, content, text, hPlace, hNode, hDecoded, hValue⟩
  obtain ⟨hSteps, place, content, text, hPlace, hNode, hText, hValue⟩ := hRead h
  obtain ⟨hOtherSteps, found, held, read, hFound, hHeld, hReadText, hOtherValue⟩ := hRead hOther
  obtain rfl : place = found := Files.Place.taken.inj
    (Files.FileTree.locate_of_sameWay (Files.Path.sameWay_of_steps (hSteps.trans hOtherSteps.symm))
      hPlace hFound)
  obtain rfl : content = held := by simpa [hNode] using hHeld
  obtain rfl : text = read := by simpa [hText] using hReadText
  exact Option.some.inj (hValue.symm.trans hOtherValue)

theorem findSome?_brought_eq_some_iff {value : Value} :
    registrations.findSome? (brought tree path) = some value ↔
      ∃ registration ∈ registrations, brought tree path registration = some value := by
  constructor
  · intro h
    exact List.exists_of_findSome?_eq_some h
  · rintro ⟨registration, hMem, hBrought⟩
    cases hFound : registrations.findSome? (brought tree path) with
    | none =>
      rw [List.findSome?_eq_none_iff.mp hFound registration hMem] at hBrought
      cases hBrought
    | some other =>
      obtain ⟨first, -, hFirst⟩ := List.exists_of_findSome?_eq_some hFound
      rw [brought_unique hFirst hBrought]

/-- Which document is taken depends on which watches there are, and not on their order. -/
theorem findSome?_brought_congr
    (h : ∀ registration, registration ∈ registrations ↔ registration ∈ others) :
    registrations.findSome? (brought tree path) = others.findSome? (brought tree path) := by
  refine Option.ext fun value => ?_
  rw [findSome?_brought_eq_some_iff, findSome?_brought_eq_some_iff]
  exact exists_congr fun registration => and_congr_left' (h registration)

theorem find?_withDocument (watch : Watch) :
    (watch.withDocument snapshots tree).find? path =
      (if watch.path.steps == path.steps then documentAt? tree watch.path else none).or
        (snapshots.find? path) := by
  rw [Watch.withDocument]
  cases documentAt? tree watch.path with
  | none => simp
  | some value =>
    rw [Option.elim_some, Snapshots.find?_put]
    cases watch.path.steps == path.steps <;> rfl

theorem find?_withDocuments (registrations : List Registration) (snapshots : Snapshots) :
    (withDocuments tree snapshots registrations).find? path =
      (registrations.findSome? (brought tree path)).or (snapshots.find? path) := by
  induction registrations generalizing snapshots with
  | nil => rfl
  | cons first rest ih =>
    cases hRunning : first.running with
    | true =>
      have hNone : brought tree path first = none := by simp [brought, hRunning]
      have hRest : withDocuments tree snapshots (first :: rest) = withDocuments tree snapshots rest := by
        simp [withDocuments, hRunning]
      rw [hRest, ih, List.findSome?_cons, hNone]
    | false =>
      have hRest : withDocuments tree snapshots (first :: rest) =
          withDocuments tree (first.watch.withDocument snapshots tree) rest := by
        simp [withDocuments, hRunning]
      have hFirst : (first.watch.withDocument snapshots tree).find? path =
          (brought tree path first).or (snapshots.find? path) := by
        simp [find?_withDocument, brought, hRunning]
      rw [hRest, ih, hFirst, List.findSome?_cons, ← Option.or_assoc]
      cases hBrought : brought tree path first with
      | none => rw [Option.or_none]
      | some value =>
        cases hLater : rest.findSome? (brought tree path) with
        | none => rfl
        | some other =>
          obtain ⟨later, -, hSome⟩ := List.exists_of_findSome?_eq_some hLater
          rw [brought_unique hSome hBrought]
          rfl

/-! ### Orders -/

/-- Starting the watches of a registry in an order leaves a registry and snapshots. -/
def Starts (registry : Registry) (snapshots : Snapshots) (workspace : Workspace)
    (order : Arrangement) (left : Registry) (later : Snapshots) : Prop :=
  ∃ fault? after, (registry.arranged order).start snapshots workspace =
    (.ok (left, later, fault?), after)

/-- All the watches that do not run can be started, or none of them. -/
def AllOrNone (tree : FileTree) (registry : Registry) : Prop :=
  (∀ registration ∈ registry.registrations, registration.running = false →
    registration.watch.canStart tree = true) ∨
  ∀ registration ∈ registry.registrations, registration.running = false →
    registration.watch.canStart tree = false

theorem started_held (first rest : List Registration) :
    (first.map started ++ rest).map (·.id) = (first ++ rest).map (·.id) := by
  rw [List.map_append, List.map_append, List.map_map]
  rfl

theorem held_started_perm {first rest : List Registration}
    (hPerm : (first ++ rest).Perm registry.registrations) {left : Registry}
    (hLeft : left.registrations = first.map started ++ rest) : left.held.Perm registry.held := by
  rw [held, hLeft, started_held]
  exact hPerm.map Registration.id

/-- Those run that ran before, and those that are started. -/
theorem isRunning_started_iff (hIds : registry.held.Nodup) {first rest : List Registration}
    (hPerm : (first ++ rest).Perm registry.registrations) {left : Registry}
    (hLeft : left.registrations = first.map started ++ rest) (id : Nat) :
    left.isRunning id = true ↔
      registry.isRunning id = true ∨ ∃ registration ∈ first, registration.id = id := by
  have hNodup : left.held.Nodup := (held_started_perm hPerm hLeft).nodup_iff.mpr hIds
  have hMem (registration : Registration) :
      registration ∈ registry.registrations ↔ registration ∈ first ∨ registration ∈ rest := by
    rw [← hPerm.mem_iff, List.mem_append]
  rw [isRunning_iff hNodup, isRunning_iff hIds, hLeft]
  constructor
  · rintro ⟨registration, hAfter, rfl, hRunning⟩
    rcases List.mem_append.mp hAfter with hFirst | hRest
    · obtain ⟨before, hBefore, rfl⟩ := List.mem_map.mp hFirst
      exact .inr ⟨before, hBefore, rfl⟩
    · exact .inl ⟨registration, (hMem _).mpr (.inr hRest), rfl, hRunning⟩
  · rintro (⟨registration, hBefore, rfl, hRunning⟩ | ⟨registration, hFirst, rfl⟩)
    · refine ⟨registration, List.mem_append.mpr ?_, rfl, hRunning⟩
      rcases (hMem _).mp hBefore with hFirst | hRest
      · exact .inl (List.mem_map.mpr ⟨registration, hFirst, started_of_running hRunning⟩)
      · exact .inr hRest
    · exact ⟨started registration, List.mem_append_left _ (List.mem_map_of_mem hFirst), rfl, rfl⟩

/-- Starting in an order runs the watches that it visits, and takes the documents of those. -/
theorem starts_visited (hIds : registry.held.Nodup) (snapshots : Snapshots) {workspace : Workspace}
    (hTree : workspace.tree.Grounded) (order : Arrangement) :
    ∃ left later, Starts registry snapshots workspace order left later ∧
      (∀ id, left.isRunning id = true ↔ registry.isRunning id = true ∨
        ∃ registration ∈ visited workspace.tree (order.arrange registry.registrations),
          registration.id = id) ∧
      ∀ path, later.find? path =
        ((visited workspace.tree (order.arrange registry.registrations)).findSome?
          (brought workspace.tree path)).or (snapshots.find? path) := by
  obtain ⟨fault?, after, hRun⟩ :=
    startAll_visits (order.arrange registry.registrations) snapshots hTree
  have hPerm := order.perm registry.registrations
  have hSplit : visited workspace.tree (order.arrange registry.registrations) ++
      (order.arrange registry.registrations).dropWhile (passes workspace.tree) =
        order.arrange registry.registrations := List.takeWhile_append_dropWhile
  generalize visited workspace.tree (order.arrange registry.registrations) = first at hRun hSplit ⊢
  generalize (order.arrange registry.registrations).dropWhile (passes workspace.tree) = rest
    at hRun hSplit
  refine ⟨{ registry with registrations := first.map started ++ rest },
    withDocuments workspace.tree snapshots first, ⟨fault?, after, ?_⟩,
    isRunning_started_iff hIds (hSplit ▸ hPerm) rfl,
    fun path => find?_withDocuments first snapshots⟩
  rw [start, startBy, arranged, Job.bind_run_ok hRun]
  rfl

theorem Starts.unique {workspace : Workspace} {order : Arrangement} {left other : Registry}
    {later found : Snapshots} (h : Starts registry snapshots workspace order left later)
    (hOther : Starts registry snapshots workspace order other found) :
    left = other ∧ later = found := by
  obtain ⟨fault?, after, hRun⟩ := h
  obtain ⟨otherFault?, otherAfter, hOtherRun⟩ := hOther
  obtain ⟨hOk, -⟩ := Prod.mk.inj (hRun.symm.trans hOtherRun)
  obtain ⟨hLeft, hRest⟩ := Prod.mk.inj (Except.ok.inj hOk)
  exact ⟨hLeft, (Prod.mk.inj hRest).1⟩

/-- If the watches come first at which starting does not end, it visits just those. -/
theorem visited_first :
    visited tree ((Arrangement.first (passes tree)).arrange registrations) =
      registrations.filter (passes tree) := by
  rw [visited, Arrangement.first, List.takeWhile_append_of_pos (by simp)]
  cases hRest : registrations.filter (fun registration => !passes tree registration) with
  | nil => simp
  | cons first rest =>
    have hFirst : first ∈ registrations.filter (fun registration => !passes tree registration) :=
      hRest ▸ List.mem_cons_self
    simp only [List.mem_filter, Bool.not_eq_true'] at hFirst
    rw [List.takeWhile_cons, hFirst.2]
    simp

/-- If the others come first and there are any, it visits none. -/
theorem visited_last {registration : Registration} (hMem : registration ∈ registrations)
    (hStops : passes tree registration = false) :
    visited tree ((Arrangement.first fun registration => !passes tree registration).arrange
      registrations) = [] := by
  obtain ⟨first, rest, hFilter⟩ := List.exists_cons_of_ne_nil
    (List.ne_nil_of_mem (List.mem_filter.mpr ⟨hMem, by simpa using hStops⟩) :
      registrations.filter (fun registration => !passes tree registration) ≠ [])
  have hFirst : first ∈ registrations.filter (fun registration => !passes tree registration) :=
    hFilter ▸ List.mem_cons_self
  simp only [List.mem_filter, Bool.not_eq_true'] at hFirst
  rw [visited, Arrangement.first]
  simp only [hFilter, List.cons_append, List.takeWhile_cons, hFirst.2]
  rfl

/-- If all can be started, an order visits all. -/
theorem visited_all (order : Arrangement) (hAll : ∀ registration ∈ registry.registrations,
      registration.running = false → registration.watch.canStart tree = true) :
    visited tree (order.arrange registry.registrations) = order.arrange registry.registrations := by
  refine List.takeWhile_eq_self_iff.mpr fun registration hMem => ?_
  rw [passes]
  cases hRunning : registration.running with
  | true => rfl
  | false => rw [hAll registration ((order.perm _).mem_iff.mp hMem) hRunning]; rfl

/-- If none can be started, only those are visited that run. -/
theorem running_of_visited (order : Arrangement) (hNone : ∀ registration ∈ registry.registrations,
      registration.running = false → registration.watch.canStart tree = false)
    {registration : Registration}
    (h : registration ∈ visited tree (order.arrange registry.registrations)) :
    registration ∈ registry.registrations ∧ registration.running = true := by
  have hMem : registration ∈ registry.registrations :=
    (order.perm _).mem_iff.mp ((List.takeWhile_sublist _).mem h)
  refine ⟨hMem, ?_⟩
  by_contra hIdle
  rw [Bool.not_eq_true] at hIdle
  have hPasses : passes tree registration = true :=
    List.all_eq_true.mp List.all_takeWhile registration h
  rw [passes, hIdle, hNone registration hMem hIdle] at hPasses
  cases hPasses

section Orders

variable (hIds : registry.held.Nodup) {workspace : Workspace} (hTree : workspace.tree.Grounded)
include hIds hTree

theorem Starts.visits {order : Arrangement} {left : Registry} {later : Snapshots}
    (h : Starts registry snapshots workspace order left later) :
    (∀ id, left.isRunning id = true ↔ registry.isRunning id = true ∨
      ∃ registration ∈ visited workspace.tree (order.arrange registry.registrations),
        registration.id = id) ∧
    ∀ path, later.find? path =
      ((visited workspace.tree (order.arrange registry.registrations)).findSome?
        (brought workspace.tree path)).or (snapshots.find? path) := by
  obtain ⟨_, _, hStarts, hRuns, hTaken⟩ := starts_visited hIds snapshots hTree order
  obtain ⟨rfl, rfl⟩ := h.unique hStarts
  exact ⟨hRuns, hTaken⟩

/-- Where all can be started or none, every order leaves the same. -/
theorem starts_alike (hAll : AllOrNone workspace.tree registry) {first second : Arrangement}
    {left other : Registry} {later found : Snapshots}
    (h : Starts registry snapshots workspace first left later)
    (hOther : Starts registry snapshots workspace second other found) :
    (∀ id, left.isRunning id = other.isRunning id) ∧ ∀ path, later.find? path = found.find? path := by
  obtain ⟨hRuns, hTaken⟩ := h.visits hIds hTree
  obtain ⟨hOtherRuns, hOtherTaken⟩ := hOther.visits hIds hTree
  rcases hAll with hAll | hNone
  · rw [visited_all first hAll] at hRuns hTaken
    rw [visited_all second hAll] at hOtherRuns hOtherTaken
    have hMem (registration : Registration) :
        registration ∈ first.arrange registry.registrations ↔
          registration ∈ second.arrange registry.registrations := by
      rw [(first.perm _).mem_iff, (second.perm _).mem_iff]
    refine ⟨fun id => ?_, fun path => ?_⟩
    · rw [Bool.eq_iff_iff, hRuns, hOtherRuns]
      simp only [hMem]
    · rw [hTaken, hOtherTaken, findSome?_brought_congr hMem]
  · have hKept (order : Arrangement) :
        (∀ id, (∃ registration ∈ visited workspace.tree (order.arrange registry.registrations),
          registration.id = id) → registry.isRunning id = true) ∧
        ∀ path, (visited workspace.tree (order.arrange registry.registrations)).findSome?
          (brought workspace.tree path) = none := by
      refine ⟨?_, fun path => List.findSome?_eq_none_iff.mpr fun registration hVisited => ?_⟩
      · rintro id ⟨registration, hVisited, hId⟩
        obtain ⟨hMem, hRunning⟩ := running_of_visited order hNone hVisited
        exact (isRunning_iff hIds).mpr ⟨registration, hMem, hId, hRunning⟩
      · simp [brought, (running_of_visited order hNone hVisited).2]
    refine ⟨fun id => ?_, fun path => ?_⟩
    · rw [Bool.eq_iff_iff, hRuns, hOtherRuns, or_iff_left_of_imp ((hKept first).1 id),
        or_iff_left_of_imp ((hKept second).1 id)]
    · rw [hTaken, hOtherTaken, (hKept first).2, (hKept second).2]

/-- Otherwise there is a watch that runs after one order and not after another one. -/
theorem starts_apart (snapshots : Snapshots) (hMixed : ¬ AllOrNone workspace.tree registry) :
    ∃ registration ∈ registry.registrations, registration.watch.canStart workspace.tree = true ∧
      ∃ first second left later other found,
        Starts registry snapshots workspace first left later ∧
        Starts registry snapshots workspace second other found ∧
        left.isRunning registration.id = true ∧ other.isRunning registration.id = false := by
  rw [AllOrNone, not_or] at hMixed
  push Not at hMixed
  obtain ⟨⟨failing, hFailing, hFailingIdle, hCannot⟩, ⟨good, hGood, hIdle, hCan⟩⟩ := hMixed
  rw [ne_eq, Bool.not_eq_true] at hCannot
  rw [ne_eq, Bool.not_eq_false] at hCan
  obtain ⟨left, later, hStarts, hRuns, -⟩ :=
    starts_visited hIds snapshots hTree (Arrangement.first (passes workspace.tree))
  obtain ⟨other, found, hOther, hOtherRuns, -⟩ := starts_visited hIds snapshots hTree
    (Arrangement.first fun registration => !passes workspace.tree registration)
  refine ⟨good, hGood, hCan, _, _, left, later, other, found, hStarts, hOther, ?_, ?_⟩
  · refine (hRuns good.id).mpr (.inr ⟨good, ?_, rfl⟩)
    rw [visited_first]
    exact List.mem_filter.mpr ⟨hGood, by simp [passes, hCan]⟩
  · rw [← Bool.not_eq_true, hOtherRuns,
      visited_last hFailing (by simp [passes, hFailingIdle, hCannot])]
    rintro (hRunning | ⟨registration, hNone, -⟩)
    · -- There is one watch of that number, and it did not run.
      obtain ⟨registration, hMem, hId, hRuns⟩ := (isRunning_iff hIds).mp hRunning
      obtain rfl := List.inj_on_of_nodup_map hIds hMem hGood hId
      rw [hIdle] at hRuns
      cases hRuns
    · cases hNone

end Orders

/-- Starting the watches of a registry depends on the order in which they are visited. An order runs
those watches that come before the first one that cannot be started, and takes their documents. All
orders leave the same running and the same snapshots just if all the watches that do not run yet can
be started, or none; and only then does every watch run afterwards that can be started. -/
theorem start_orders (registry : Registry) (snapshots : Snapshots) (workspace : Workspace)
    (hIds : registry.held.Nodup) (hTree : workspace.tree.Grounded) :
    (∀ order, ∃ left later, Starts registry snapshots workspace order left later ∧
      (∀ id, left.isRunning id = true ↔ registry.isRunning id = true ∨
        ∃ registration ∈ visited workspace.tree (order.arrange registry.registrations),
          registration.id = id) ∧
      ∀ path, later.find? path =
        ((visited workspace.tree (order.arrange registry.registrations)).findSome?
          (brought workspace.tree path)).or (snapshots.find? path)) ∧
    ((∀ first second left later other found,
        Starts registry snapshots workspace first left later →
        Starts registry snapshots workspace second other found →
        (∀ id, left.isRunning id = other.isRunning id) ∧
          ∀ path, later.find? path = found.find? path) ↔
      AllOrNone workspace.tree registry) ∧
    ((∀ order left later, Starts registry snapshots workspace order left later →
        ∀ registration ∈ registry.registrations,
          registration.watch.canStart workspace.tree = true →
          left.isRunning registration.id = true) ↔
      AllOrNone workspace.tree registry) := by
  refine ⟨fun order => starts_visited hIds snapshots hTree order, ⟨fun hSame => ?_, ?_⟩,
    ⟨fun hRuns => ?_, ?_⟩⟩
  · by_contra hMixed
    obtain ⟨registration, -, -, _, _, left, later, other, found, hStarts, hOther, hLeft, hNot⟩ :=
      starts_apart hIds hTree snapshots hMixed
    have hRunning := (hSame _ _ left later other found hStarts hOther).1 registration.id
    rw [hLeft, hNot] at hRunning
    cases hRunning
  · intro hAll first second left later other found hStarts hOther
    exact starts_alike hIds hTree hAll hStarts hOther
  · by_contra hMixed
    obtain ⟨registration, hMem, hCan, _, _, -, -, other, found, -, hOther, -, hNot⟩ :=
      starts_apart hIds hTree snapshots hMixed
    have hRunning := hRuns _ other found hOther registration hMem hCan
    rw [hNot] at hRunning
    cases hRunning
  · intro hAll order left later hStarts registration hMem hCan
    -- An order in which those come first that can be started leaves the same.
    obtain ⟨first, found, hFirst, hRuns, -⟩ :=
      starts_visited hIds snapshots hTree (Arrangement.first (passes workspace.tree))
    rw [(starts_alike hIds hTree hAll hStarts hFirst).1, hRuns, visited_first]
    exact .inr ⟨registration, List.mem_filter.mpr ⟨hMem, by simp [passes, hCan]⟩, rfl⟩

/-- A registry of a watch that can be started and of one whose path ends in no name. -/
def mixed : Registry :=
  ((({} : Registry).register Watch.receiving).2.register { Watch.receiving with path := ".." }).2

/-- In some order the first watch is not started, though it can be. -/
theorem start_orders_mixed :
    mixed.held.Nodup ∧ (Watch.treeWith "A: 1\n").Grounded ∧
      Watch.receiving.canStart (Watch.treeWith "A: 1\n") = true ∧
      ∃ order left later, Starts mixed {} { tree := Watch.treeWith "A: 1\n" } order left later ∧
        left.isRunning 1 = false := by
  have hTree : (Watch.treeWith "A: 1\n").Grounded := ⟨by decide +kernel, by decide +kernel, rfl⟩
  have hIds : mixed.held.Nodup := by decide
  have hCan : Watch.receiving.canStart (Watch.treeWith "A: 1\n") = true := by decide +kernel
  have hCannot : ({ Watch.receiving with path := ".." } : Watch).canStart
      (Watch.treeWith "A: 1\n") = false := by decide +kernel
  refine ⟨hIds, hTree, hCan, ?_⟩
  have hMixed : ¬ AllOrNone (Watch.treeWith "A: 1\n") mixed := by
    rintro (hAll | hNone)
    · have hSecond := hAll ⟨2, { Watch.receiving with path := ".." }, false⟩
        (by simp [mixed, register]) rfl
      rw [hCannot] at hSecond
      cases hSecond
    · have hFirst := hNone ⟨1, Watch.receiving, false⟩ (by simp [mixed, register]) rfl
      rw [hCan] at hFirst
      cases hFirst
  rw [← (start_orders mixed {} { tree := Watch.treeWith "A: 1\n" } hIds hTree).2.2] at hMixed
  push Not at hMixed
  obtain ⟨order, left, later, hStarts, registration, hMem, hStartable, hIdle⟩ := hMixed
  refine ⟨order, left, later, hStarts, ?_⟩
  have hBoth : registration = ⟨1, Watch.receiving, false⟩ ∨
      registration = ⟨2, { Watch.receiving with path := ".." }, false⟩ := by
    simpa [mixed, register] using hMem
  rcases hBoth with rfl | rfl
  · simpa using hIdle
  · rw [hCannot] at hStartable
    cases hStartable

end Registry

end EntityGen
