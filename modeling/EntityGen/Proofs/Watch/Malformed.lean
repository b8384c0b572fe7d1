import EntityGen.Proofs.Watch.Mirror

/-! Documents of the wrong shape. Their shape is looked at when they are generated, which a watch
does only if an entry under a text is new or different. Then the generation fails and the snapshot
stays. A document without such an entry is taken for the snapshot unseen, and later edits are
compared with it. -/

namespace EntityGen

open Files (Path)
open Yaml (Value)

/-- The tree of a document has not the shape that its kind asks for. -/
def DocumentKind.Refuses (value : Value) (cause : Malformation) : DocumentKind → Prop
  | .schema => Schema.ofValue value = .error cause
  | .forms => Forms.ofValue value = .error cause

variable {workspace : Workspace} {value : Value} {cause : Malformation}

/-! ### Generating from a document of the wrong shape -/

/-- A document that can be parsed fails to load with the fault of its shape. -/
theorem loadDocument_bind_refused {α : Type} {load : Path → Value → Job α} {path : Path}
    (hDocument : DocumentAt workspace.tree path value)
    (hRefused : ∀ workspace, (load path value workspace).1 = .error (.malformed path cause)) :
    ((loadDocument path >>= load path) workspace).1 = .error (.malformed path cause) := by
  have hOk := loadDocument_ok_iff.mpr hDocument
  rcases hRun : loadDocument path workspace with ⟨result, after⟩
  rw [hRun] at hOk
  obtain rfl : result = .ok value := hOk
  rw [Job.bind_run_ok hRun]
  exact hRefused after

theorem loadSchema_refused {path : Path} (hDocument : DocumentAt workspace.tree path value)
    (hRefused : Schema.ofValue value = .error cause) :
    (loadSchema path workspace).1 = .error (.malformed path cause) :=
  loadDocument_bind_refused hDocument fun _ => by
    simp [Schema.load, Job.bind_run, Job.tellAll_run, hRefused]

theorem loadForms_refused {path : Path} (hDocument : DocumentAt workspace.tree path value)
    (hRefused : Forms.ofValue value = .error cause) :
    (loadForms path workspace).1 = .error (.malformed path cause) :=
  loadDocument_bind_refused hDocument fun _ => by simp [Forms.load, hRefused]

/-- A generation fails with the fault of the shape and leaves the file tree as it is. -/
theorem Generator.generate_refused (generator : Generator) {kind : DocumentKind}
    (directory : Path) {path : Path} (options : Options)
    (hDocument : DocumentAt workspace.tree path value) (hRefused : kind.Refuses value cause) :
    ∃ after, after.tree = workspace.tree ∧
      generator.generate kind directory path options workspace =
        (.error (.malformed path cause), after) := by
  cases kind with
  | schema =>
    have hFault := loadSchema_refused hDocument hRefused
    have hWay := generator.schemaRun directory path options workspace
    rw [generate]
    generalize generator.generateSchema directory path options workspace = run at hWay ⊢
    cases hWay with
    | unloaded load kept =>
      rw [hFault] at load
      exact ⟨_, kept, by rw [Except.error.inj load]⟩
    | empty load => simp [hFault] at load
    | dangling load => simp [hFault] at load
    | unselected load => simp [hFault] at load
    | emitted load => simp [hFault] at load
  | forms =>
    have hFault := loadForms_refused hDocument hRefused
    have hWay := generator.formsRun directory path options workspace
    rw [generate]
    generalize generator.generateForms directory path options workspace = run at hWay ⊢
    cases hWay with
    | unloaded load kept =>
      rw [hFault] at load
      exact ⟨_, kept, by rw [Except.error.inj load]⟩
    | unselected load => simp [hFault] at load
    | emitted load => simp [hFault] at load

/-! ### Handling a document of the wrong shape -/

/-- An entry under a text is new or different. -/
def HasNews (previous : Option Value) (current : Value) : Prop :=
  ∃ entry ∈ current.entries, entry.1.text?.isSome ∧ isKept (earlierEntries previous) entry = false

theorem hasNews_iff {previous : Option Value} {current : Value} :
    HasNews previous current ↔ changedKeys previous current ≠ [] := by
  constructor
  · rintro ⟨⟨key, content⟩, hEntry, hText, hChanged⟩
    obtain ⟨name, hName⟩ := Option.isSome_iff_exists.mp hText
    exact List.ne_nil_of_mem (mem_changedKeys.mpr ⟨key, content, hEntry, hName, hChanged⟩)
  · intro hSome
    obtain ⟨name, hMem⟩ := List.exists_mem_of_ne_nil _ hSome
    obtain ⟨key, content, hEntry, hName, hChanged⟩ := mem_changedKeys.mp hMem
    exact ⟨(key, content), hEntry, by rw [hName]; rfl, hChanged⟩

namespace Watch

variable {watch : Watch} {snapshots : Snapshots}

/-- A call reports a problem with the document, by its fault or by a notice of an error, and keeps
the snapshot. -/
structure Withstands (watch : Watch) (state : State) (fault : Fault) : Prop where
  reported : (watch.handle state.snapshots state.workspace).1 = .error fault ∨
    ∃ notice ∈ (watch.handle state.snapshots state.workspace).2.notices.drop
      state.workspace.notices.length, notice.level = .error
  kept : (watch.next state .handle).snapshots.find? watch.path = state.snapshots.find? watch.path

/-- A document that has nothing new is taken for the snapshot, whatever its shape. -/
theorem handle_unchanged (hDocument : DocumentAt workspace.tree watch.path value)
    (hSame : changedKeys (snapshots.find? watch.path) value = []) :
    watch.handle snapshots workspace = (.ok { snapshots := snapshots.put watch.path value },
      { workspace with notices := workspace.notices ++ [.unchanged watch.path] }) := by
  have hFound := documentAt?_eq_some_iff.mpr hDocument
  simp only [handle, Job.bind_run, Job.outcome_run, watch.current_of_document hFound, hSame,
    Job.tell_run, Job.pure_run]

/-- A document of the wrong shape that has news fails to generate. -/
theorem handle_refused (hReceiver : watch.hasReceiver = false)
    (hDocument : DocumentAt workspace.tree watch.path value)
    (hRefused : watch.kind.Refuses value cause)
    (hNews : changedKeys (snapshots.find? watch.path) value ≠ []) :
    ∃ after, after.tree = workspace.tree ∧
      watch.handle snapshots workspace = (.error (.malformed watch.path cause), after) := by
  have hFound := documentAt?_eq_some_iff.mpr hDocument
  have hHandling := watch.handle_run snapshots workspace
  generalize watch.handle snapshots workspace = run at hHandling ⊢
  cases hHandling with
  | unparsed document => simp [hFound] at document
  | unchanged document unchanged =>
    obtain rfl := Option.some.inj (hFound.symm.trans document)
    exact absurd unchanged hNews
  | received _ _ receiver => simp [hReceiver] at receiver
  | generated _ _ _ kept run =>
    obtain ⟨_, -, hFails⟩ := watch.generator.generate_refused watch.directory _
      (kept ▸ hDocument) hRefused
    cases hFails.symm.trans run
  | failed _ _ _ kept run =>
    obtain ⟨after, hTree, hFails⟩ := watch.generator.generate_refused watch.directory _
      (kept ▸ hDocument) hRefused
    obtain ⟨hFault, rfl⟩ := Prod.mk.inj (hFails.symm.trans run)
    exact ⟨after, hTree.trans kept, by rw [Except.error.inj hFault]⟩

/-- A watch without a receiver reports that its document has the wrong shape, and keeps the snapshot,
just if an entry of it under a text is new or different. Any other document of the wrong shape becomes
the snapshot, and nothing but a notice that it is unchanged is told. The next document that is handled
is compared with the earlier snapshot in the first case, and with the document of the wrong shape in
the second. -/
theorem handle_malformed_iff (watch : Watch) (snapshots : Snapshots) (workspace : Workspace)
    (value : Value) (cause : Malformation) (hReceiver : watch.hasReceiver = false)
    (hDocument : DocumentAt workspace.tree watch.path value)
    (hRefused : watch.kind.Refuses value cause) :
    let baseline := snapshots.find? watch.path
    let state := watch.next ⟨workspace, snapshots⟩ .handle
    state.workspace.tree = workspace.tree ∧
    (watch.Withstands ⟨workspace, snapshots⟩ (.malformed watch.path cause) ↔
      HasNews baseline value) ∧
    (HasNews baseline value → state.snapshots = snapshots ∧
      (watch.handle snapshots workspace).1 = .error (.malformed watch.path cause) ∧
      ∀ later next, watch.taken? ⟨later, state.snapshots⟩ .handle = some next →
        watch.reports ⟨later, state.snapshots⟩ .handle = changedKeys baseline next) ∧
    (¬ HasNews baseline value → state.snapshots = snapshots.put watch.path value ∧
      state.workspace.notices = workspace.notices ++ [.unchanged watch.path] ∧
      ∀ later next, watch.taken? ⟨later, state.snapshots⟩ .handle = some next →
        watch.reports ⟨later, state.snapshots⟩ .handle = changedKeys (some value) next) := by
  intro baseline state
  have hState : state = watch.next ⟨workspace, snapshots⟩ .handle := rfl
  by_cases hNews : HasNews baseline value
  · obtain ⟨after, hTree, hRun⟩ := handle_refused hReceiver hDocument hRefused (hasNews_iff.mp hNews)
    have hNext : state = ⟨after, snapshots⟩ := by rw [hState, next, hRun]
    have hKept : state.snapshots = snapshots := by rw [hNext]
    refine ⟨by rw [hNext]; exact hTree, iff_of_true ⟨.inl (by rw [hRun]), ?_⟩ hNews,
      fun _ => ⟨hKept, by rw [hRun], fun later next hTaken => ?_⟩, fun hNone => absurd hNews hNone⟩
    · rw [← hState, hKept]
    · rw [reports_of_taken hTaken, hKept]
  · have hSame : changedKeys baseline value = [] := by
      by_contra hChanged
      exact hNews (hasNews_iff.mpr hChanged)
    have hRun := handle_unchanged hDocument hSame
    have hNext : state = ⟨{ workspace with
        notices := workspace.notices ++ [.unchanged watch.path] }, snapshots.put watch.path value⟩ := by
      rw [hState, next, hRun]
    have hMoved : state.snapshots = snapshots.put watch.path value := by rw [hNext]
    refine ⟨by rw [hNext], iff_of_false (fun hWithstands => ?_) hNews,
      fun hSome => absurd hSome hNews,
      fun _ => ⟨hMoved, by rw [hNext], fun later next hTaken => ?_⟩⟩
    · have hReported := hWithstands.reported
      rw [hRun, List.drop_left] at hReported
      simp [Notice.level] at hReported
    · rw [reports_of_taken hTaken, hMoved, Snapshots.find?_put_self]

/-- The schema of two models was seeded, and then its text became a sequence. No problem is reported,
and the sequence is the snapshot afterwards. -/
theorem malformed_taken : ∃ value cause, DocumentAt (treeWith "- A\n") "schema.tw" value ∧
    DocumentKind.schema.Refuses value cause ∧ ¬ HasNews (seeded.snapshots.find? "schema.tw") value ∧
    ¬ generating.Withstands ⟨{ tree := treeWith "- A\n" }, seeded.snapshots⟩
      (.malformed "schema.tw" cause) ∧
    (generating.next ⟨{ tree := treeWith "- A\n" }, seeded.snapshots⟩ .handle).snapshots =
      seeded.snapshots.put "schema.tw" value := by
  have hEvaluated : ((documentAt? (treeWith "- A\n") "schema.tw").any fun value =>
      !(Schema.ofValue value).isOk && value.entries.isEmpty) = true := by
    decide +kernel
  obtain ⟨value, hValue, hEvaluated⟩ := (Option.any_eq_true _ _).mp hEvaluated
  rw [Bool.and_eq_true, Bool.not_eq_true', List.isEmpty_iff] at hEvaluated
  obtain ⟨hShape, hEntries⟩ := hEvaluated
  have hDocument := documentAt?_eq_some_iff.mp hValue
  rcases hRead : Schema.ofValue value with cause | schema
  · have hNoNews : ¬ HasNews (seeded.snapshots.find? "schema.tw") value := by
      rintro ⟨entry, hEntry, -⟩
      simp [hEntries] at hEntry
    obtain ⟨-, hIff, -, hTaken⟩ := handle_malformed_iff generating seeded.snapshots
      { tree := treeWith "- A\n" } value cause rfl hDocument hRead
    exact ⟨value, cause, hDocument, hRead, hNoNews, fun h => hNoNews (hIff.mp h),
      (hTaken hNoNews).1⟩
  · simp [hRead, Except.isOk, Except.toBool] at hShape

end Watch

end EntityGen
