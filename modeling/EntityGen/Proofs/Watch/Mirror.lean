import EntityGen.Proofs.Generation.Mirror
import EntityGen.Proofs.Watch.History

/-! A watch and the directories of models that are gone. Handling a change removes them only if a
model of the document is among what changed. A document from which models were taken away, and
nothing else, has no changed entry, and then what lingers in the mappers directory stays. -/

namespace EntityGen.Watch

open Files (FileTree Location Path)
open Yaml (Value)

/-- The document at a path was written or removed. -/
inductive Edits (path : Path) (before after : FileTree) : Prop
  | written {content : ByteArray} (write : before.write path content = .ok after)
  | removed (remove : before.removeFile path = .ok after)

/-- The states to which a watch comes when its document is edited and handled over and over. -/
inductive Reaches (watch : Watch) (start : State) : State → Prop
  | start : Reaches watch start start
  | round {state : State} {tree : FileTree} (before : Reaches watch start state)
      (edit : Edits watch.path state.workspace.tree tree) :
      Reaches watch start (watch.after state [.edit tree, .handle])

variable {watch : Watch} {location : Location} {snapshots : Snapshots}
  {workspace after : Workspace} {handled : Handled} {names : List String}

theorem Edits.straight {path directory : Path} {before after : FileTree}
    (h : Edits path before after) (hStraight : before.Straight directory location) :
    after.Straight directory location := by
  cases h with
  | written write => exact hStraight.write write
  | removed remove => exact hStraight.removeFile remove

/-- Handling a change keeps the path of the mappers directory straight, also when it fails. -/
theorem handle_straight (hFormatter : watch.generator.OnlyRewrites)
    (hStraight : workspace.tree.Straight watch.directory location) :
    (watch.handle snapshots workspace).2.tree.Straight watch.directory location := by
  have hHandling := watch.handle_run snapshots workspace
  generalize watch.handle snapshots workspace = run at hHandling ⊢
  cases hHandling with
  | unparsed _ kept => exact kept ▸ hStraight
  | unchanged _ _ kept => exact kept ▸ hStraight
  | received _ _ _ kept => exact kept ▸ hStraight
  | generated _ _ _ kept run =>
    exact (Generator.generate_mirrors (kept ▸ hStraight) hFormatter run).1
  | failed _ _ _ kept run =>
    exact (Generator.generate_mirrors (kept ▸ hStraight) hFormatter run).1

theorem Reaches.straight {start state : State} (hFormatter : watch.generator.OnlyRewrites)
    (hStart : start.workspace.tree.Straight watch.directory location)
    (h : watch.Reaches start state) : state.workspace.tree.Straight watch.directory location := by
  induction h with
  | start => exact hStart
  | @round state tree _ edit ih =>
    have hEdited := edit.straight ih
    have hHandled : (watch.handle state.snapshots
        { state.workspace with tree }).2.tree.Straight watch.directory location :=
      handle_straight hFormatter hEdited
    rw [Watch.after, List.foldl_cons, List.foldl_cons, List.foldl_nil, Watch.next, Watch.next]
    rcases hRun : watch.handle state.snapshots { state.workspace with tree } with
      ⟨fault | handled, last⟩
    all_goals
      rw [hRun] at hHandled
      exact hHandled

/-- What lingers after a change was handled: what lingered before, and if a model of the document is
among what changed, of that only what is out of reach. -/
theorem handle_lingers_iff {value : Value} (hReceiver : watch.hasReceiver = false)
    (hFormatter : watch.generator.OnlyRewrites)
    (hStraight : workspace.tree.Straight watch.directory location)
    (hDocument : DocumentAt workspace.tree watch.path value)
    (hModels : watch.kind.Models value names)
    (hRun : watch.handle snapshots workspace = (.ok handled, after)) (name : String) :
    watch.kind.Lingers location (canonicalDirs names) after.tree name ↔
      watch.kind.Lingers location (canonicalDirs names) workspace.tree name ∧
        ((∀ model ∈ names, model ∉ changedKeys (snapshots.find? watch.path) value) ∨
          watch.kind.OutOfReach watch.directory name) := by
  have hFound := documentAt?_eq_some_iff.mpr hDocument
  have hHandling := watch.handle_run snapshots workspace
  rw [hRun] at hHandling
  generalize hEnd : (Except.ok handled, after) = run at hHandling
  cases hHandling with
  | unparsed document _ => simp [hFound] at document
  | received _ _ receiver _ => simp [hReceiver] at receiver
  | failed => cases hEnd
  | @unchanged read _ document unchanged kept =>
    obtain ⟨-, rfl⟩ := Prod.mk.inj hEnd
    obtain rfl : value = read := by simpa [hFound] using document
    rw [kept, unchanged]
    simp
  | @generated read report told _ document changed _ kept run =>
    obtain ⟨-, rfl⟩ := Prod.mk.inj hEnd
    obtain rfl : value = read := by simpa [hFound] using document
    have hOutcome := (Generator.generate_mirrors (kept ▸ hStraight) hFormatter run).2 value names
      report (kept ▸ hDocument) hModels rfl
    rw [kept] at hOutcome
    cases hOutcome with
    | idle unasked same =>
      -- Only entries that are no models have changed, and the run ends before it clears anything.
      rw [same]
      have hNone : ∀ model ∈ names, model ∉ changedKeys (snapshots.find? watch.path) value := by
        simpa [Options.includes] using unasked
      exact ⟨fun hLingers => ⟨hLingers, .inl hNone⟩, And.left⟩
    | cleared asked lingering =>
      obtain ⟨model, hModel, hAsked⟩ := asked
      have hChanged : model ∈ changedKeys (snapshots.find? watch.path) value := by
        simpa [Options.includes] using hAsked
      rw [lingering name]
      exact and_congr_right fun _ => (or_iff_right fun hNone => hNone model hModel hChanged).symm

/-- A watch without a receiver, to whose mappers directory a path leads straight at the start, has
handled edits of its document one after the other. When the next edit leaves a document that can be
generated and is handled without a fault, a directory that no model of the document has, or for
forms a ruleset in it, is left just if it was there before and no model of the document is new or
different, or the ruleset is out of reach. -/
theorem reached_lingers_iff (watch : Watch) (start state : State) (location : Location)
    (hReceiver : watch.hasReceiver = false) (hFormatter : watch.generator.OnlyRewrites)
    (hStart : start.workspace.tree.Straight watch.directory location)
    (hReaches : watch.Reaches start state) (tree : FileTree)
    (hEdit : Edits watch.path state.workspace.tree tree) (value : Value) (names : List String)
    (hDocument : DocumentAt tree watch.path value) (hModels : watch.kind.Models value names)
    (handled : Handled) (after : Workspace)
    (hRun : watch.handle state.snapshots { state.workspace with tree } = (.ok handled, after)) :
    ∀ name, watch.kind.Lingers location (canonicalDirs names) after.tree name ↔
      watch.kind.Lingers location (canonicalDirs names) tree name ∧
        ((∀ model ∈ names, model ∉ changedKeys (state.snapshots.find? watch.path) value) ∨
          watch.kind.OutOfReach watch.directory name) :=
  handle_lingers_iff hReceiver hFormatter (hEdit.straight (hReaches.straight hFormatter hStart))
    hDocument hModels hRun

/-- A schema of two models, and the directories of both. -/
def twoModels : FileTree where
  entries := [(["m"], .directory), (["m", "a"], .directory), (["m", "b"], .directory),
    (["schema.tw"], .file (String.toUTF8 "A:\n  type: model\nB:\n  type: model\n"))]

/-- A watch that generates. -/
def generating : Watch where
  kind := .schema
  directory := "m"
  path := "schema.tw"
  generator := plainGenerator

theorem components_m : Path.components "m" = ["m"] := by rfl

theorem twoModels_straight : twoModels.Straight "m" ["m"] where
  proper := by decide
  noFault := by decide
  noBack := by rw [components_m]; decide
  way := by rw [components_m]; decide
  around := by
    intro location hPrefix
    rcases List.prefix_cons_iff.mp hPrefix with rfl | ⟨rest, rfl, hRest⟩
    · rfl
    · obtain rfl := List.prefix_nil.mp hRest
      rfl
  noLink := by
    intro below target _ hNode
    rw [FileTree.node?_of_ne (by simp)] at hNode
    obtain ⟨before, after, hEntries, -⟩ := List.lookup_eq_some_iff.mp hNode
    have hMember : (["m"] ++ below, Files.Node.link target) ∈ twoModels.entries :=
      hEntries ▸ List.mem_append_right _ List.mem_cons_self
    simp [twoModels] at hMember

/-- The state after the schema of both models was seeded. -/
def seeded : State where
  workspace := { tree := twoModels }
  snapshots := ⟨[(Path.steps "schema.tw", .map [(.str "A", .map [(.str "type", .str "model")]),
    (.str "B", .map [(.str "type", .str "model")])])]⟩

/-- The schema without the second model. -/
def oneModel : FileTree :=
  twoModels.put ["schema.tw"] (.file (String.toUTF8 "A:\n  type: model\n"))

/-- Handling the removal of the second model leaves the directory of that model. -/
theorem lingers_after_removal : ∃ value handled after, twoModels.Straight "m" ["m"] ∧
    Edits "schema.tw" twoModels oneModel ∧ DocumentAt oneModel "schema.tw" value ∧
    DocumentKind.schema.Models value ["A"] ∧
    generating.handle seeded.snapshots { tree := oneModel } = (.ok handled, after) ∧
    DocumentKind.schema.Lingers ["m"] (canonicalDirs ["A"]) after.tree "b" := by
  have hPlace : twoModels.locate "schema.tw" = .ok (.taken ["schema.tw"]) := by rfl
  have hWrite : twoModels.write "schema.tw" (String.toUTF8 "A:\n  type: model\n") =
      .ok oneModel := by
    rw [FileTree.write, if_neg (by decide), hPlace]
    rfl
  have hEvaluated : ((documentAt? oneModel "schema.tw").any fun value =>
      ((Schema.ofValue value).toOption.any fun schema =>
        schema.dangling?.isNone && schema.models.map (·.1) == ["A"]) &&
      !(changedKeys (seeded.snapshots.find? "schema.tw") value).contains "A" &&
      (generating.handle seeded.snapshots { tree := oneModel }).1.isOk) = true := by
    decide +kernel
  obtain ⟨value, hValue, hEvaluated⟩ := (Option.any_eq_true _ _).mp hEvaluated
  rw [Bool.and_eq_true, Bool.and_eq_true, Bool.not_eq_true', List.contains_eq_mem,
    decide_eq_false_iff_not] at hEvaluated
  obtain ⟨⟨hModels, hUnchanged⟩, hHandled⟩ := hEvaluated
  rcases hRead : Schema.ofValue value with cause | schema
  · simp [hRead, Except.toOption] at hModels
  simp only [hRead, Except.toOption, Option.any_some, Bool.and_eq_true, Option.isNone_iff_eq_none,
    beq_iff_eq] at hModels
  rcases hRun : generating.handle seeded.snapshots { tree := oneModel } with
    ⟨fault | handled, after⟩
  · simp [hRun, Except.isOk, Except.toBool] at hHandled
  have hDocument : DocumentAt oneModel "schema.tw" value := documentAt?_eq_some_iff.mp hValue
  have hNames : DocumentKind.schema.Models value ["A"] :=
    ⟨schema, hRead, (Schema.dangling?_eq_none_iff hRead).mp hModels.1, hModels.2.symm⟩
  have hFormatter : generating.generator.OnlyRewrites := fun _ _ tree =>
    ⟨.refl tree, .refl tree, id⟩
  have hDirs : canonicalDirs ["A"] = ["a"] := by rfl
  have hOther : "b" ∉ canonicalDirs ["A"] := by rw [hDirs]; decide
  have hLingers : DocumentKind.schema.Lingers ["m"] (canonicalDirs ["A"]) oneModel "b" :=
    ⟨⟨rfl, rfl, hOther⟩, by simp⟩
  refine ⟨value, handled, after, twoModels_straight, .written hWrite, hDocument, hNames, rfl, ?_⟩
  exact (reached_lingers_iff generating seeded seeded ["m"] rfl hFormatter twoModels_straight .start
    oneModel (.written hWrite) value ["A"] hDocument hNames handled after hRun "b").mpr
    ⟨hLingers, .inl (List.forall_mem_singleton.mpr hUnchanged)⟩

end EntityGen.Watch
