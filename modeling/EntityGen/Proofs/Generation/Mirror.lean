import EntityGen.Proofs.Form.Entries
import EntityGen.Proofs.Generation.Lingering

/-! A run that gets to the files and succeeds leaves nothing in the mappers directory that no model
of its document has, but for rulesets that are out of its reach. This is shown for a mappers directory
to which a path leads straight, and it does so after every run. -/

namespace EntityGen

open Files (FileTree IsSegment Location Path)

variable {kind : DocumentKind} {directory : Path} {location : Location} {canonical : List String}
  {name : String}

/-! ### Runs -/

/-- A formatter changes contents of files at most. -/
def Generator.OnlyRewrites (generator : Generator) : Prop :=
  ∀ command directory tree, FileTree.Rewrites tree (generator.effect command directory tree)

variable {generator : Generator} {options : Options} {workspace last : Workspace}
  {result : Except Fault Report}

theorem Generator.formatted_rewrites (h : generator.OnlyRewrites) (directory : Path)
    (options : Options) (tree : FileTree) :
    FileTree.Rewrites tree (generator.formatted directory options tree) := by
  rw [formatted]
  split
  · exact h _ _ _
  · exact ⟨.refl tree, .refl tree, id⟩

/-- Writing the files and running the formatter changes nothing that lingers. -/
theorem DocumentKind.Mirrors.finish {α : Type} {a : α} {before : FileTree} {made : Workspace}
    (steps : List Step) (initial : Report)
    (h : kind.Mirrors directory location canonical (.ok a) before made.tree)
    (hFormatter : generator.OnlyRewrites)
    (hSteps : ∀ write ∈ Step.writes steps, ∃ artifact model, isModelName model = true ∧
      Naming.stem model ∈ canonical ∧ write.1 = .ofModel directory artifact model)
    (hRun : (do
      let report ← Job.take steps initial
      generator.format directory options
      return report : Job Report) made = (result, last)) :
    kind.Mirrors directory location canonical result before last.tree := by
  obtain ⟨report, emitted, hTake, rfl, hTree⟩ := Generator.finish_run hRun
  have hEmitted : kind.Mirrors directory location canonical (.ok report) before emitted.tree :=
    h.fills (Job.take_fills hSteps hTake) fun _ _ => ⟨a, rfl⟩
  have hRewrites := Generator.formatted_rewrites hFormatter directory options emitted.tree
  rw [hTree]
  refine ⟨hEmitted.straight.rewrites hRewrites, fun report hOk name => ?_⟩
  rw [← hEmitted.lingering report hOk name]
  exact ⟨.of_within hRewrites.back, .of_within hRewrites.within⟩

/-- A directory that is there is not created anew. -/
theorem Files.FileTree.Straight.createDirAll {blame : Files.FileFault → Fault} {made : Except Fault Unit}
    (h : workspace.tree.Straight directory location)
    (hCreate : Job.createDirAll blame directory workspace = (made, last)) :
    last.tree = workspace.tree := by
  rw [Job.createDirAll_cases hCreate, h.createDirAll_eq_self]

theorem mem_canonicalDirs {names : List String} :
    name ∈ canonicalDirs names ↔ ∃ model ∈ names, Naming.stem model = name := by
  rw [canonicalDirs, Text.mem_sorted, List.mem_map]

/-- A schema run that gets to the files and succeeds leaves no directory that no model has. -/
theorem Generator.emitModels_mirrors {schema : Schema} {selected : List (String × Model)}
    (hStraight : workspace.tree.Straight directory location) (hFormatter : generator.OnlyRewrites)
    (hNames : ∀ model ∈ schema.models, isModelName model.1 = true)
    (hSelected : ∀ model ∈ selected, model ∈ schema.models)
    (h : generator.emitModels directory options schema selected workspace = (result, last)) :
    DocumentKind.schema.Mirrors directory location (canonicalDirs (schema.models.map (·.1))) result
      workspace.tree last.tree := by
  have hSegments : ∀ name ∈ canonicalDirs (schema.models.map (·.1)), IsSegment name := by
    intro name hName
    obtain ⟨_, hModel, rfl⟩ := mem_canonicalDirs.mp hName
    obtain ⟨model, hMember, rfl⟩ := List.mem_map.mp hModel
    exact Naming.isSegment_stem (hNames model hMember)
  rcases Job.bind_cases h with ⟨fault, hCreate, rfl⟩ | ⟨_, start, hCreate, hNext⟩
  all_goals
    have hStart := hStraight.createDirAll hCreate
    rw [← hStart] at hStraight ⊢
  · exact ⟨hStraight, nofun⟩
  rcases Job.bind_cases hNext with ⟨fault, hClear, rfl⟩ | ⟨changed, made, hClear, hTake⟩
  · exact ⟨(Job.reconcile_mirrors hStraight hSegments hClear).straight, nofun⟩
  · refine (Job.reconcile_mirrors hStraight hSegments hClear).finish
      (selected.flatMap fun model => Step.ofModel directory model.1 model.2)
      { models := selected.map (·.1), removed := changed.removed } hFormatter ?_ hTake
    intro write hWrite
    rw [Step.writes_ofModels] at hWrite
    obtain ⟨name, model, artifact, hModel, hArtifact⟩ := mem_modelFiles hWrite
    have hMember := hSelected (name, model) hModel
    have hName : name ∈ schema.models.map (·.1) := List.mem_map.mpr ⟨_, hMember, rfl⟩
    exact ⟨artifact, name, hNames (name, model) hMember,
      mem_canonicalDirs.mpr ⟨name, hName, rfl⟩, hArtifact⟩

/-- Likewise for a forms run and the rulesets in such directories. -/
theorem Generator.emitRulesets_mirrors {forms : Forms} {selected : List (String × FormModel)}
    (hStraight : workspace.tree.Straight directory location) (hFormatter : generator.OnlyRewrites)
    (hNames : ∀ model ∈ forms.models, isModelName model.1 = true)
    (hSelected : ∀ model ∈ selected, model ∈ forms.models)
    (h : generator.emitRulesets directory options forms selected workspace = (result, last)) :
    DocumentKind.forms.Mirrors directory location (canonicalDirs (forms.models.map (·.1))) result
      workspace.tree last.tree := by
  rcases Job.bind_cases h with ⟨fault, hCreate, rfl⟩ | ⟨_, start, hCreate, hNext⟩
  all_goals
    have hStart := hStraight.createDirAll hCreate
    rw [← hStart] at hStraight ⊢
  · exact ⟨hStraight, nofun⟩
  rcases Job.bind_cases hNext with ⟨fault, hClear, rfl⟩ | ⟨removed, made, hClear, hTake⟩
  · exact ⟨(Job.removeStale_mirrors hStraight hClear).straight, nofun⟩
  · refine (Job.removeStale_mirrors hStraight hClear).finish
      (selected.flatMap fun model => Step.ofForm generator.imports directory model.1 model.2)
      { models := selected.map (·.1), removed } hFormatter ?_ hTake
    intro write hWrite
    rw [Step.writes_ofForms] at hWrite
    obtain ⟨⟨name, model⟩, hModel, rfl⟩ := List.mem_map.mp hWrite
    have hMember := hSelected (name, model) hModel
    have hName : name ∈ forms.models.map (·.1) := List.mem_map.mpr ⟨_, hMember, rfl⟩
    exact ⟨.ruleset, name, hNames (name, model) hMember,
      mem_canonicalDirs.mpr ⟨name, hName, rfl⟩, rfl⟩

/-! ### Generations -/

/-- A document can be generated, and its models have these names. -/
def DocumentKind.Models (kind : DocumentKind) (value : Yaml.Value) (names : List String) : Prop :=
  match kind with
  | .schema => ∃ schema, Schema.ofValue value = .ok schema ∧ schema.Resolves value ∧
      names = schema.models.map (·.1)
  | .forms => ∃ forms, Forms.ofValue value = .ok forms ∧ names = forms.models.map (·.1)

variable {path : Path}

/-- What a successful run of a document comes to: if it is asked for none of the models it does
nothing, and otherwise nothing lingers afterwards but what did before and is out of reach. -/
inductive DocumentKind.Outcome (kind : DocumentKind) (directory : Path) (location : Location)
    (options : Options) (names : List String) (before after : FileTree) : Prop
  | idle (unasked : ∀ name ∈ names, options.includes name = false) (kept : after = before)
  | cleared (asked : ∃ name ∈ names, options.includes name = true)
      (lingering : ∀ name, kind.Lingers location (canonicalDirs names) after name ↔
        kind.Lingers location (canonicalDirs names) before name ∧ kind.OutOfReach directory name)

theorem unasked_of_filter {α : Type} {models : List (String × α)}
    (h : models.filter (fun model => options.includes model.1) = []) :
    ∀ name ∈ models.map (·.1), options.includes name = false := by
  intro name hName
  obtain ⟨model, hModel, rfl⟩ := List.mem_map.mp hName
  simpa using List.filter_eq_nil_iff.mp h model hModel

theorem asked_of_filter {α : Type} {models : List (String × α)}
    (h : models.filter (fun model => options.includes model.1) ≠ []) :
    ∃ name ∈ models.map (·.1), options.includes name = true := by
  obtain ⟨model, hModel⟩ := List.exists_mem_of_ne_nil _ h
  obtain ⟨hMember, hAsked⟩ := List.mem_filter.mp hModel
  exact ⟨model.1, List.mem_map_of_mem hMember, hAsked⟩

theorem loadSchema_unique {value : Yaml.Value} {schema read : Schema}
    (hLoad : (loadSchema path workspace).1 = .ok schema)
    (hDocument : DocumentAt workspace.tree path value) (hRead : Schema.ofValue value = .ok read) :
    schema = read :=
  Except.ok.inj (hLoad.symm.trans (loadSchema_ok_iff.mpr ⟨value, hDocument, hRead⟩))

theorem loadForms_unique {value : Yaml.Value} {forms read : Forms}
    (hLoad : (loadForms path workspace).1 = .ok forms)
    (hDocument : DocumentAt workspace.tree path value) (hRead : Forms.ofValue value = .ok read) :
    forms = read :=
  Except.ok.inj (hLoad.symm.trans (loadForms_ok_iff.mpr ⟨value, hDocument, hRead⟩))

theorem Generator.generateSchema_mirrors
    (hStraight : workspace.tree.Straight directory location) (hFormatter : generator.OnlyRewrites)
    (h : generator.generateSchema directory path options workspace = (result, last)) :
    last.tree.Straight directory location ∧ ∀ value names report,
      DocumentAt workspace.tree path value → DocumentKind.schema.Models value names →
        result = .ok report → DocumentKind.schema.Outcome directory location options names
          workspace.tree last.tree := by
  have hWay := generator.schemaRun directory path options workspace
  rw [h] at hWay
  generalize hEnd : (result, last) = run at hWay
  cases hWay with
  | unloaded load kept =>
    obtain ⟨rfl, rfl⟩ := Prod.mk.inj hEnd
    exact ⟨kept ▸ hStraight, nofun⟩
  | dangling load dangling kept =>
    obtain ⟨rfl, rfl⟩ := Prod.mk.inj hEnd
    exact ⟨kept ▸ hStraight, nofun⟩
  | @empty schema _ load empty kept =>
    obtain ⟨rfl, rfl⟩ := Prod.mk.inj hEnd
    refine ⟨kept ▸ hStraight, fun value names report hDocument hModels _ => .idle ?_ kept⟩
    obtain ⟨read, hRead, -, rfl⟩ := hModels
    obtain rfl := loadSchema_unique load hDocument hRead
    simp [Schema.models, empty]
  | @unselected schema _ load resolved unselected kept =>
    obtain ⟨rfl, rfl⟩ := Prod.mk.inj hEnd
    refine ⟨kept ▸ hStraight, fun value names report hDocument hModels _ => .idle ?_ kept⟩
    obtain ⟨read, hRead, -, rfl⟩ := hModels
    obtain rfl := loadSchema_unique load hDocument hRead
    exact unasked_of_filter unselected
  | @emitted schema passed load resolved selected kept =>
    have hMirrors := emitModels_mirrors (kept ▸ hStraight) hFormatter
      (options.selectModels_names load).2
      (fun model hModel => (Options.mem_selectModels.mp hModel).1) hEnd.symm
    refine ⟨hMirrors.straight, fun value names report hDocument hModels hOk => .cleared ?_ ?_⟩
    all_goals
      obtain ⟨read, hRead, -, rfl⟩ := hModels
      obtain rfl := loadSchema_unique load hDocument hRead
    · exact asked_of_filter selected
    · exact kept ▸ hMirrors.lingering report hOk

theorem Generator.generateForms_mirrors
    (hStraight : workspace.tree.Straight directory location) (hFormatter : generator.OnlyRewrites)
    (h : generator.generateForms directory path options workspace = (result, last)) :
    last.tree.Straight directory location ∧ ∀ value names report,
      DocumentAt workspace.tree path value → DocumentKind.forms.Models value names →
        result = .ok report → DocumentKind.forms.Outcome directory location options names
          workspace.tree last.tree := by
  have hWay := generator.formsRun directory path options workspace
  rw [h] at hWay
  generalize hEnd : (result, last) = run at hWay
  cases hWay with
  | unloaded load kept =>
    obtain ⟨rfl, rfl⟩ := Prod.mk.inj hEnd
    exact ⟨kept ▸ hStraight, nofun⟩
  | @unselected forms _ load unselected kept =>
    obtain ⟨rfl, rfl⟩ := Prod.mk.inj hEnd
    refine ⟨kept ▸ hStraight, fun value names report hDocument hModels _ => .idle ?_ kept⟩
    obtain ⟨read, hRead, rfl⟩ := hModels
    obtain rfl := loadForms_unique load hDocument hRead
    exact unasked_of_filter unselected
  | @emitted forms passed load selected kept =>
    obtain ⟨found, -, hFound⟩ := loadForms_ok_iff.mp load
    have hMirrors := emitRulesets_mirrors (kept ▸ hStraight) hFormatter
      (Forms.isModelName_of_mem_models hFound)
      (fun model hModel => List.mem_of_mem_filter hModel) hEnd.symm
    refine ⟨hMirrors.straight, fun value names report hDocument hModels hOk => .cleared ?_ ?_⟩
    all_goals
      obtain ⟨read, hRead, rfl⟩ := hModels
      obtain rfl := loadForms_unique load hDocument hRead
    · exact asked_of_filter selected
    · exact kept ▸ hMirrors.lingering report hOk

/-- A path that leads straight to the mappers directory does so after every run, and a successful
run that is asked for a model of its document leaves nothing that lingers and is in its reach. -/
theorem Generator.generate_mirrors (hStraight : workspace.tree.Straight directory location)
    (hFormatter : generator.OnlyRewrites)
    (h : generator.generate kind directory path options workspace = (result, last)) :
    last.tree.Straight directory location ∧ ∀ value names report,
      DocumentAt workspace.tree path value → kind.Models value names → result = .ok report →
        kind.Outcome directory location options names workspace.tree last.tree := by
  cases kind with
  | schema => exact generateSchema_mirrors hStraight hFormatter h
  | forms => exact generateForms_mirrors hStraight hFormatter h

end EntityGen
