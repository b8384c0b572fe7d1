import EntityGen.Proofs.Watch.Starting

/-! How a registry keeps its books over a run of calls. What is live is read off the calls and their
answers: a number that was given, and whose watch was not stopped since. The books agree with that
after every run, whatever comes of the attempts to start watches and in whatever order these are
visited. -/

namespace EntityGen

namespace Registry

/-! ### Calls and answers -/

/-- A call of a registry. Watches are started in some order, by attempts that may come to anything. -/
inductive Call where
  | register (watch : Watch)
  | start (order : Arrangement) (attempt : Attempt) (settles : attempt.Settles)
  | stop (id : Nat)
  | stopAll

inductive Answer where
  | registered (id : Nat)
  | started (fault? : Option Fault)
  | stopped (existed : Bool)
  | stoppedAll

/-- The number that an answer gives. -/
def Answer.id? : Answer → Option Nat
  | .registered id => some id
  | _ => none

/-- Whether a call stops the watch of a number, or all. -/
def Call.Stops (id : Nat) : Call → Prop
  | .stop other => other = id
  | .stopAll => True
  | _ => False

def Call.perform (registry : Registry) (snapshots : Snapshots) :
    Call → Job (Answer × Registry × Snapshots)
  | .register watch =>
    let (id, registry) := registry.register watch
    return (.registered id, registry, snapshots)
  | .start order attempt _ => do
    let (registry, snapshots, fault?) ← (registry.arranged order).startBy attempt snapshots
    return (.started fault?, registry, snapshots)
  | .stop id => do
    let (existed, registry) ← registry.stop id
    return (.stopped existed, registry, snapshots)
  | .stopAll => return (.stoppedAll, ← registry.stopAll, snapshots)

/-- A call and its answer. -/
structure Exchange where
  call : Call
  answer : Answer

/-- Performs calls in order. -/
def performAll (registry : Registry) (snapshots : Snapshots) :
    List Call → Job (List Exchange × Registry × Snapshots)
  | [] => return ([], registry, snapshots)
  | call :: rest => do
    let (answer, registry, snapshots) ← call.perform registry snapshots
    let (history, registry, snapshots) ← performAll registry snapshots rest
    return (⟨call, answer⟩ :: history, registry, snapshots)

/-- The numbers given in a history, in order. -/
def numbers (history : List Exchange) : List Nat := history.filterMap (·.answer.id?)

/-- Whether a number was given in a history, and its watch not stopped since. -/
def IsLive (history : List Exchange) (id : Nat) : Prop :=
  ∃ before exchange later, history = before ++ exchange :: later ∧
    exchange.answer.id? = some id ∧ ∀ other ∈ later, ¬ other.call.Stops id

variable {registry : Registry} {history : List Exchange} {exchange : Exchange} {id : Nat}
  {workspace : Workspace} {attempt : Attempt}

/-! ### What is live -/

theorem isLive_nil : ¬ IsLive [] id := by
  rintro ⟨before, exchange, later, hSplit, -⟩
  simp at hSplit

/-- One more exchange makes live the number that it gives, and nothing else; it ends what it stops. -/
theorem isLive_concat :
    IsLive (history ++ [exchange]) id ↔
      exchange.answer.id? = some id ∨ IsLive history id ∧ ¬ exchange.call.Stops id := by
  constructor
  · rintro ⟨before, given, later, hSplit, hGiven, hLater⟩
    rcases List.eq_nil_or_concat later with rfl | ⟨earlier, last, rfl⟩
    · obtain ⟨rfl, hLast⟩ := List.append_inj' hSplit rfl
      exact .inl (List.head_eq_of_cons_eq hLast ▸ hGiven)
    · rw [List.concat_eq_append, ← List.cons_append, ← List.append_assoc] at hSplit
      obtain ⟨rfl, hLast⟩ := List.append_inj' hSplit rfl
      obtain rfl := List.head_eq_of_cons_eq hLast
      rw [List.concat_eq_append] at hLater
      exact .inr ⟨⟨before, given, earlier, rfl, hGiven,
        fun other hOther => hLater other (List.mem_append_left _ hOther)⟩,
        hLater exchange List.mem_concat_self⟩
  · rintro (hGiven | ⟨⟨before, given, later, rfl, hGiven, hLater⟩, hKept⟩)
    · exact ⟨history, exchange, [], rfl, hGiven, by simp⟩
    · refine ⟨before, given, later ++ [exchange], by simp, hGiven, fun other hOther => ?_⟩
      rcases List.mem_append.mp hOther with hOther | hOther
      · exact hLater other hOther
      · exact List.mem_singleton.mp hOther ▸ hKept

theorem IsLive.mem_numbers (h : IsLive history id) : id ∈ numbers history := by
  obtain ⟨before, exchange, later, rfl, hGiven, -⟩ := h
  exact List.mem_filterMap.mpr ⟨exchange, by simp, hGiven⟩

/-! ### The books -/

/-- The books of a registry agree with its history. -/
structure Accounts (history : List Exchange) (registry : Registry) : Prop where
  nodup : registry.held.Nodup
  live : ∀ id, id ∈ registry.held ↔ IsLive history id
  numbers : numbers history = List.range' 1 (numbers history).length
  next : registry.nextId = (Registry.numbers history).length + 1

theorem accounts_new : Accounts [] {} where
  nodup := List.nodup_nil
  live _ := ⟨fun h => (List.not_mem_nil h).elim, fun h => (isLive_nil h).elim⟩
  numbers := rfl
  next := rfl

theorem Accounts.isLive_of_isRunning (h : Accounts history registry)
    (hRunning : registry.isRunning id = true) : IsLive history id := by
  obtain ⟨registration, hMem, rfl, -⟩ := (isRunning_iff h.nodup).mp hRunning
  exact (h.live _).mp (List.mem_map_of_mem hMem)

/-! ### One call -/

/-- What a call of a registry is answered, and what it leaves, after a history. -/
structure Answered (history : List Exchange) (registry : Registry) (call : Call) (answer : Answer)
    (left : Registry) : Prop where
  registers : ∀ watch, call = .register watch → answer = .registered ((numbers history).length + 1)
  stops : ∀ id, call = .stop id →
    ∃ existed, answer = .stopped existed ∧ (existed = true ↔ IsLive history id)
  runsOn : ∀ id, registry.isRunning id = true → ¬ call.Stops id → left.isRunning id = true
  runsAll : answer = .started none →
    ∀ id, left.isRunning id = true ↔ IsLive (history ++ [⟨call, answer⟩]) id
  others : ∀ id, call = .stop id → ∀ other, other ≠ id →
    left.isRunning other = registry.isRunning other ∧
      (IsLive (history ++ [⟨call, answer⟩]) other ↔ IsLive history other)

/-- The books go on agreeing if the registry holds what is live then, and counts what it gave. -/
theorem Accounts.concat (h : Accounts history registry) {left : Registry}
    (hNodup : left.held.Nodup)
    (hHeld : ∀ id, id ∈ left.held ↔
      exchange.answer.id? = some id ∨ id ∈ registry.held ∧ ¬ exchange.call.Stops id)
    (hNext : exchange.answer.id? = none ∧ left.nextId = registry.nextId ∨
      exchange.answer.id? = some registry.nextId ∧ left.nextId = registry.nextId + 1) :
    Accounts (history ++ [exchange]) left := by
  have hNumbers : Registry.numbers (history ++ [exchange]) =
      Registry.numbers history ++ exchange.answer.id?.toList := by
    rw [Registry.numbers, List.filterMap_append]
    cases hGiven : exchange.answer.id? <;> simp [hGiven, Registry.numbers]
  refine ⟨hNodup, fun id => ?_, ?_, ?_⟩
  · rw [hHeld, isLive_concat, h.live]
  · rw [hNumbers]
    rcases hNext with ⟨hGiven, -⟩ | ⟨hGiven, -⟩
    · rw [hGiven, Option.toList_none, List.append_nil]
      exact h.numbers
    · rw [hGiven, Option.toList_some, List.length_append, List.length_singleton,
        List.range'_1_concat, ← h.numbers, h.next, Nat.add_comm]
  · rw [hNumbers]
    rcases hNext with ⟨hGiven, hLeft⟩ | ⟨hGiven, hLeft⟩
    · rw [hGiven, hLeft, h.next]
      simp
    · rw [hGiven, hLeft, h.next]
      simp

/-- The next number is not among those held. -/
theorem Accounts.nextId_notMem (h : Accounts history registry) : registry.nextId ∉ registry.held := by
  intro hHeld
  have hGiven := ((h.live _).mp hHeld).mem_numbers
  rw [h.numbers, List.mem_range'_1, h.next] at hGiven
  omega

theorem register_answered (h : Accounts history registry) (watch : Watch) :
    Accounts (history ++ [⟨.register watch, .registered registry.nextId⟩])
        (registry.register watch).2 ∧
      Answered history registry (.register watch) (.registered registry.nextId)
        (registry.register watch).2 := by
  have hHeld : (registry.register watch).2.held = registry.held ++ [registry.nextId] := by
    simp [held, register]
  have hAfter : Accounts (history ++ [⟨.register watch, .registered registry.nextId⟩])
      (registry.register watch).2 := by
    refine h.concat ?_ (fun id => ?_) (.inr ⟨rfl, rfl⟩)
    · rw [hHeld, ← List.concat_eq_append]
      exact h.nodup.concat h.nextId_notMem
    · rw [hHeld, List.mem_append, List.mem_singleton, Answer.id?, Option.some.injEq, or_comm, eq_comm]
      simp [Call.Stops]
  refine ⟨hAfter, fun _ _ => by rw [h.next], ?_, fun id hRunning _ => ?_, ?_, ?_⟩
  · rintro _ ⟨⟩
  · obtain ⟨registration, hMem, hId, hRuns⟩ := (isRunning_iff h.nodup).mp hRunning
    exact (isRunning_iff hAfter.nodup).mpr
      ⟨registration, List.mem_append_left _ hMem, hId, hRuns⟩
  · rintro ⟨⟩
  · rintro _ ⟨⟩

/-- Starting leaves the numbers, whatever the order and whatever comes of it. -/
theorem start_answered (h : Accounts history registry) (order : Arrangement)
    (hSettles : attempt.Settles) (snapshots : Snapshots) (workspace : Workspace) :
    ∃ left later fault? after,
      (registry.arranged order).startBy attempt snapshots workspace =
        (.ok (left, later, fault?), after) ∧
      Accounts (history ++ [⟨.start order attempt hSettles, .started fault?⟩]) left ∧
      Answered history registry (.start order attempt hSettles) (.started fault?) left := by
  obtain ⟨visited, idle, later, fault?, after, hSplit, hRun, hAll⟩ :=
    startAll_run hSettles (order.arrange registry.registrations) snapshots workspace
  have hPerm : (visited ++ idle).Perm registry.registrations := hSplit ▸ order.perm _
  generalize hLeft : ({ registry with registrations := visited.map started ++ idle } : Registry) =
    left
  have hRegistrations : left.registrations = visited.map started ++ idle := by rw [← hLeft]
  have hHeld : left.held.Perm registry.held := held_started_perm hPerm hRegistrations
  have hRuns := isRunning_started_iff h.nodup hPerm hRegistrations
  have hAfter : Accounts (history ++ [⟨.start order attempt hSettles, .started fault?⟩]) left := by
    refine h.concat (hHeld.nodup_iff.mpr h.nodup) (fun id => ?_) (.inl ⟨rfl, by rw [← hLeft]⟩)
    rw [hHeld.mem_iff]
    simp [Answer.id?, Call.Stops]
  refine ⟨left, later, fault?, after, ?_, hAfter, ?_, ?_, fun id hRunning _ => ?_,
    fun hStarted id => ⟨hAfter.isLive_of_isRunning, fun hLive => ?_⟩, ?_⟩
  · rw [startBy, arranged, Job.bind_run_ok hRun, ← hLeft]
    rfl
  · rintro _ ⟨⟩
  · rintro _ ⟨⟩
  · exact (hRuns id).mpr (.inl hRunning)
  · obtain rfl : fault? = none := by simpa using hStarted
    obtain rfl := hAll rfl
    rw [List.append_nil] at hPerm
    obtain ⟨registration, hMem, hId⟩ :=
      List.mem_map.mp (hHeld.mem_iff.mp ((hAfter.live id).mpr hLive))
    exact (hRuns id).mpr (.inr ⟨registration, hPerm.mem_iff.mpr hMem, hId⟩)
  · rintro _ ⟨⟩

/-- Stopping a watch forgets it, and leaves the others as they are. -/
theorem stop_run (registry : Registry) (id : Nat) (workspace : Workspace) :
    ∃ existed after, registry.stop id workspace =
        (.ok (existed, { registry with
          registrations := registry.registrations.filter (·.id != id) }), after) ∧
      (existed = true ↔ id ∈ registry.held) := by
  rw [stop]
  cases hFound : registry.find? id with
  | none =>
    have hNone : ∀ registration ∈ registry.registrations, (registration.id != id) = true := by
      intro registration hMem
      simpa using List.find?_eq_none.mp hFound registration hMem
    refine ⟨false, workspace, ?_, ?_⟩
    · rw [List.filter_eq_self.mpr hNone]
      rfl
    · simp only [Bool.false_eq_true, false_iff, held, List.mem_map, not_exists, not_and]
      intro registration hMem
      simpa using hNone registration hMem
  | some registration =>
    have hHeld : id ∈ registry.held := by
      have hId : registration.id = id := by simpa using List.find?_some hFound
      exact hId ▸ List.mem_map_of_mem (List.mem_of_find?_eq_some hFound)
    dsimp only
    cases registration.running with
    | false => exact ⟨true, workspace, rfl, iff_of_true rfl hHeld⟩
    | true => exact ⟨true, _, rfl, iff_of_true rfl hHeld⟩

theorem stop_answered (h : Accounts history registry) (id : Nat) (workspace : Workspace) :
    ∃ existed left after, registry.stop id workspace = (.ok (existed, left), after) ∧
      Accounts (history ++ [⟨.stop id, .stopped existed⟩]) left ∧
      Answered history registry (.stop id) (.stopped existed) left := by
  obtain ⟨existed, after, hRun, hExisted⟩ := stop_run registry id workspace
  generalize hLeft : ({ registry with
    registrations := registry.registrations.filter (·.id != id) } : Registry) = left at hRun
  have hRegistrations : left.registrations = registry.registrations.filter (·.id != id) := by
    rw [← hLeft]
  have hHeld : left.held = registry.held.filter (· != id) := by
    rw [held, hRegistrations, held, List.filter_map]
    rfl
  have hAfter : Accounts (history ++ [⟨.stop id, .stopped existed⟩]) left := by
    refine h.concat (hHeld ▸ h.nodup.filter _) (fun other => ?_) (.inl ⟨rfl, by rw [← hLeft]⟩)
    rw [hHeld, List.mem_filter]
    simp [Answer.id?, Call.Stops, eq_comm (a := id)]
  have hRunning : ∀ other, other ≠ id → (left.isRunning other = true ↔
      registry.isRunning other = true) := by
    intro other hOther
    rw [isRunning_iff hAfter.nodup, isRunning_iff h.nodup, hRegistrations]
    refine exists_congr fun registration => ?_
    rw [List.mem_filter, bne_iff_ne, and_assoc]
    refine and_congr_right fun _ => ⟨fun hRest => hRest.2, fun hRest => ⟨?_, hRest⟩⟩
    rw [hRest.1]
    exact hOther
  refine ⟨existed, left, after, hRun, hAfter, ?_, ?_, ?_, ?_, ?_⟩
  · rintro _ ⟨⟩
  · rintro other hSame
    obtain rfl : id = other := by simpa using hSame
    exact ⟨existed, rfl, hExisted.trans (h.live id)⟩
  · intro other hBefore hKept
    exact (hRunning other (Ne.symm hKept)).mpr hBefore
  · rintro ⟨⟩
  · rintro stopped hSame other hOther
    obtain rfl : id = stopped := by simpa using hSame
    refine ⟨Bool.eq_iff_iff.mpr (hRunning other hOther), ?_⟩
    rw [isLive_concat]
    simp [Answer.id?, Call.Stops, Ne.symm hOther]

theorem stopAll_answered (h : Accounts history registry) (workspace : Workspace) :
    ∃ left after, registry.stopAll workspace = (.ok left, after) ∧
      Accounts (history ++ [⟨.stopAll, .stoppedAll⟩]) left ∧
      Answered history registry .stopAll .stoppedAll left := by
  refine ⟨{ registry with registrations := [] }, _, rfl,
    h.concat List.nodup_nil (fun id => ?_) (.inl ⟨rfl, rfl⟩), ?_, ?_, ?_, ?_, ?_⟩
  · simp [held, Answer.id?, Call.Stops]
  · rintro _ ⟨⟩
  · rintro _ ⟨⟩
  · intro id _ hKept
    exact absurd trivial hKept
  · rintro ⟨⟩
  · rintro _ ⟨⟩

/-- A call is answered, and the books agree with the history after it. -/
theorem perform_run (h : Accounts history registry) (call : Call) (snapshots : Snapshots)
    (workspace : Workspace) :
    ∃ answer left later after,
      call.perform registry snapshots workspace = (.ok (answer, left, later), after) ∧
      Accounts (history ++ [⟨call, answer⟩]) left ∧ Answered history registry call answer left := by
  cases call with
  | register watch =>
    exact ⟨_, _, snapshots, workspace, rfl, register_answered h watch⟩
  | start order attempt settles =>
    obtain ⟨left, later, fault?, after, hRun, hAnswered⟩ :=
      start_answered h order settles snapshots workspace
    exact ⟨.started fault?, left, later, after, by rw [Call.perform, Job.bind_run_ok hRun]; rfl,
      hAnswered⟩
  | stop id =>
    obtain ⟨existed, left, after, hRun, hAnswered⟩ := stop_answered h id workspace
    exact ⟨.stopped existed, left, snapshots, after,
      by rw [Call.perform, Job.bind_run_ok hRun]; rfl, hAnswered⟩
  | stopAll =>
    obtain ⟨left, after, hRun, hAnswered⟩ := stopAll_answered h workspace
    exact ⟨.stoppedAll, left, snapshots, after,
      by rw [Call.perform, Job.bind_run_ok hRun]; rfl, hAnswered⟩

/-! ### Runs -/

theorem performAll_run (h : Accounts history registry) (calls : List Call) (snapshots : Snapshots)
    (workspace : Workspace) :
    ∃ exchanges left later after,
      performAll registry snapshots calls workspace = (.ok (exchanges, left, later), after) ∧
      exchanges.map (·.call) = calls ∧ Accounts (history ++ exchanges) left := by
  induction calls generalizing history registry snapshots workspace with
  | nil => exact ⟨[], registry, snapshots, workspace, rfl, rfl, by rwa [List.append_nil]⟩
  | cons call rest ih =>
    obtain ⟨answer, between, seeded, middle, hCall, hBetween, -⟩ :=
      perform_run h call snapshots workspace
    obtain ⟨exchanges, left, later, after, hRest, hCalls, hLeft⟩ := ih hBetween seeded middle
    refine ⟨⟨call, answer⟩ :: exchanges, left, later, after, ?_, by rw [List.map_cons, hCalls],
      by rwa [List.append_assoc] at hLeft⟩
    rw [performAll, Job.bind_run_ok hCall]
    simp only [Job.bind_run_ok hRest]
    rfl

/-- The books of a new registry, over every run of calls, whatever comes of the attempts to start
watches and in whatever order these are visited. The numbers that are given are 1, 2, 3 and so on.
As many watches are held as are live, and only those run. A call stops what is live and says so, and
nothing but that ends a watch that runs; after a start without fault all that is live runs; and what
is stopped leaves the others as they are. -/
theorem performAll_accounts (calls : List Call) (snapshots : Snapshots) (workspace : Workspace) :
    (Attempt.Settles fun registration => registration.watch.start) ∧
    ∃ history registry later after,
      performAll {} snapshots calls workspace = (.ok (history, registry, later), after) ∧
      history.map (·.call) = calls ∧
      numbers history = List.range' 1 (numbers history).length ∧
      (∃ live : List Nat, live.Nodup ∧ (∀ id, id ∈ live ↔ IsLive history id) ∧
        registry.size = live.length) ∧
      (∀ id, registry.isRunning id = true → IsLive history id) ∧
      ∀ call, ∃ answer left given last,
        call.perform registry later after = (.ok (answer, left, given), last) ∧
        Answered history registry call answer left := by
  obtain ⟨history, registry, later, after, hRun, hCalls, hBooks⟩ :=
    performAll_run accounts_new calls snapshots workspace
  rw [List.nil_append] at hBooks
  refine ⟨Watch.start_settles, history, registry, later, after, hRun, hCalls, hBooks.numbers,
    ⟨registry.held, hBooks.nodup, hBooks.live, ?_⟩, fun id => hBooks.isLive_of_isRunning,
    fun call => ?_⟩
  · rw [size, held, List.length_map]
  · obtain ⟨answer, left, given, last, hCall, -, hAnswered⟩ := perform_run hBooks call later after
    exact ⟨answer, left, given, last, hCall, hAnswered⟩

end Registry

end EntityGen
