import EntityGen.Proofs.Files.Lacking
import EntityGen.Proofs.Generation.Again
import EntityGen.Proofs.Generation.Laying

/-! What the report of a generation says of the files. What it says to be written or unchanged is
there; and where there are no links below the mappers directory and models have different stems, a
file has its text just if the report knows of no failure to write it. -/

namespace EntityGen

open Files (FileTree Location Path)
open Yaml (Value)

/-- What was written or found unchanged is a file in the end. -/
theorem Job.take_reported {steps : List Step} {report result : Report} {workspace after : Workspace}
    {artifact : Artifact} (h : take steps report workspace = (.ok result, after))
    (hReported : artifact ∈ result.written ++ result.unchanged)
    (hNew : artifact ∉ report.written ++ report.unchanged) :
    (∃ write ∈ Step.writes steps, write.1 = artifact) ∧ after.tree.hasFile artifact.path = true := by
  induction steps generalizing report workspace with
  | nil =>
    obtain ⟨rfl, -⟩ := take_nil h
    exact absurd hReported hNew
  | cons step rest ih =>
    cases step with
    | tell notice =>
      obtain ⟨mid, -, hRest⟩ := take_tell h
      exact ih hRest hNew
    | write other text =>
      simp only [Step.writes, List.exists_mem_cons_iff]
      obtain ⟨outcome, mid, hWriting, hRest⟩ := take_write h
      by_cases hHere : artifact ∈ (report.add other outcome).written ++
          (report.add other outcome).unchanged
      · cases hWriting with
        | failed => exact absurd hHere hNew
        | @settled written _ location _ leads holds =>
          obtain rfl : artifact = other := by
            cases written <;> simp [Report.add] at hHere hNew <;> tauto
          have hFile : mid.tree.hasFile artifact.path = true :=
            Files.FileTree.hasFile_eq_true_iff.mpr ⟨location, _, leads, holds⟩
          exact ⟨.inl rfl, (take_grows hRest).within.hasFile hFile⟩
      · exact (ih hRest hHere).imp .inr id

/-- The files of a model of a document, with their texts. -/
def Generator.filesOf (generator : Generator) (kind : DocumentKind) (directory : Path)
    (value : Value) (name : String) : List (Artifact × String) :=
  match kind with
  | .schema =>
    match Schema.ofValue value with
    | .ok schema => modelFiles directory (schema.models.filter (·.1 == name))
    | .error _ => []
  | .forms =>
    match Forms.ofValue value with
    | .ok forms => formFiles generator.imports directory (forms.models.filter (·.1 == name))
    | .error _ => []

/-- What a run does before it writes files: it creates the mappers directory, and takes away what no
model of the document has; for a schema it also creates the directories of models. The names of what
was taken away are given. -/
def DocumentKind.prepare (kind : DocumentKind) (directory : Path) (names : List String) :
    Job (List String) :=
  match kind with
  | .schema => do return (← Job.align directory (canonicalDirs names)).removed
  | .forms => do
    Job.createDirAll (.unwritten directory) directory
    Job.removeStale directory (canonicalDirs names) ArtifactKind.ruleset.fileName

theorem Job.removeFiles_blind (directory : Path) (fileName : String → String)
    (names : List String) : Blind (removeFiles directory fileName names) := by
  induction names with
  | nil => exact .pure []
  | cons name rest ih =>
    refine .bind .tree fun tree => ?_
    split
    · exact .bind .tree fun _ => .bind (.replaceTree _ _) fun _ => .bind (.tell _) fun _ =>
        .bind ih fun _ => .pure _
    · exact ih

theorem DocumentKind.prepare_blind (kind : DocumentKind) (directory : Path) (names : List String) :
    Job.Blind (kind.prepare directory names) := by
  cases kind with
  | schema => exact .bind (Job.align_blind directory _) fun _ => .pure _
  | forms =>
    exact .bind (.createDirAll _ _) fun _ => .bind (Job.existingModelDirs_blind directory) fun _ =>
      Job.removeFiles_blind directory _ _

/-- What prepares a workspace is decided by its file tree. -/
theorem DocumentKind.prepare_of_tree {kind : DocumentKind} {directory : Path}
    {names removed : List String} {workspace passed made : Workspace}
    (hTree : passed.tree = workspace.tree)
    (h : kind.prepare directory names passed = (.ok removed, made)) :
    (kind.prepare directory names workspace).1 = .ok removed ∧
      (kind.prepare directory names workspace).2.tree = made.tree := by
  have hSame := kind.prepare_blind directory names workspace passed hTree.symm
  rw [h] at hSame
  exact hSame

/-- How a successful generation without the formatter went: the mappers directory was prepared and
found, with no links below it, and then the files of the models asked for were written. -/
structure Generator.Taken (generator : Generator) (kind : DocumentKind) (directory : Path)
    (location : Location) (options : Options) (value : Value) (names : List String)
    (steps : List Step) (report : Report) (workspace made last : Workspace) : Prop where
  prepared : (kind.prepare directory names workspace).1 = .ok report.removed ∧
    (kind.prepare directory names workspace).2.tree = made.tree
  anchored : made.tree.Anchored directory location
  belongs : ∀ write ∈ Step.writes steps, write.1.BelongsTo directory (canonicalDirs names)
  nodup : ((Step.writes steps).map (·.1)).Nodup
  /-- files with one place have one text -/
  one : ∀ first ∈ Step.writes steps, ∀ second ∈ Step.writes steps,
    first.1.place location = second.1.place location → first = second
  /-- a file is at its place only if the directory of its model is there -/
  around : workspace.tree.Grounded → ∀ write ∈ Step.writes steps,
    made.tree.node? (write.1.place location) ≠ none →
      made.tree.node? (location ++ [Naming.stem write.1.model]) = some .directory
  /-- files share a directory only if it is there -/
  shared : ∀ first ∈ Step.writes steps, ∀ second ∈ Step.writes steps,
    Naming.stem first.1.model = Naming.stem second.1.model → first ≠ second →
      made.tree.node? (location ++ [Naming.stem first.1.model]) = some .directory
  writes : Step.writes steps =
    (names.filter options.includes).flatMap (generator.filesOf kind directory value)
  models : (Step.writes steps).map (·.1) =
    kind.outputs directory (names.filter options.includes)
  taken : ∃ removed, Job.take steps { models := names.filter options.includes, removed } made =
    (.ok report, last)

variable {generator : Generator} {kind : DocumentKind} {directory path : Path} {options : Options}
  {value : Value} {names : List String} {workspace last : Workspace} {report : Report}

theorem formFiles_stem {imports : TypeScript.ImportPaths} {models : List (String × FormModel)}
    (hStems : (models.map fun model => Naming.stem model.1).Nodup) :
    ∀ first ∈ formFiles imports directory models, ∀ second ∈ formFiles imports directory models,
      Naming.stem first.1.model = Naming.stem second.1.model → first = second := by
  intro first hFirst second hSecond hStem
  obtain ⟨model, hModel, rfl⟩ := List.mem_map.mp hFirst
  obtain ⟨other, hOther, rfl⟩ := List.mem_map.mp hSecond
  obtain rfl := List.inj_on_of_nodup_map hStems hModel hOther hStem
  rfl

theorem formFiles_place {imports : TypeScript.ImportPaths} {models : List (String × FormModel)}
    {location : Location} (hStems : (models.map fun model => Naming.stem model.1).Nodup) :
    ∀ first ∈ formFiles imports directory models, ∀ second ∈ formFiles imports directory models,
      first.1.place location = second.1.place location → first = second :=
  fun first hFirst second hSecond hPlace =>
    formFiles_stem hStems first hFirst second hSecond (Artifact.of_place_eq hPlace).1

/-! ### Files by the names of their models -/

section

variable {α β : Type} {models : List (String × α)}

theorem filter_name_eq (hNodup : (models.map (·.1)).Nodup) {model : String × α}
    (hModel : model ∈ models) : models.filter (·.1 == model.1) = [model] := by
  induction models with
  | nil => cases hModel
  | cons first rest ih =>
    obtain ⟨hFirst, hRest⟩ := List.nodup_cons.mp hNodup
    rcases List.mem_cons.mp hModel with rfl | hLater
    · rw [List.filter_cons_of_pos (by simp), List.filter_eq_nil_iff.mpr]
      intro other hOther hSame
      exact hFirst (List.mem_map.mpr ⟨other, hOther, by simpa using hSame⟩)
    · rw [List.filter_cons_of_neg, ih hRest hLater]
      intro hSame
      exact hFirst (List.mem_map.mpr ⟨model, hLater, by simpa using (beq_iff_eq.mp hSame).symm⟩)

/-- What is put together by the names of models is what is put together by the models. -/
theorem flatMap_names (hNodup : (models.map (·.1)).Nodup) (asked : String → Bool)
    (files : List (String × α) → List β) :
    ((models.map (·.1)).filter asked).flatMap (fun name => files (models.filter (·.1 == name))) =
      (models.filter fun model => asked model.1).flatMap fun model => files [model] := by
  rw [List.filter_map, List.flatMap_map]
  exact List.flatMap_congr fun model hModel => by
    rw [filter_name_eq hNodup (List.mem_of_mem_filter hModel)]

end

theorem Generator.flatMap_filesOf_schema (generator : Generator) (directory : Path)
    (options : Options) {schema : Schema} (hRead : Schema.ofValue value = .ok schema)
    (hNodup : (schema.models.map (·.1)).Nodup) :
    ((schema.models.map (·.1)).filter options.includes).flatMap
        (generator.filesOf .schema directory value) =
      modelFiles directory (options.selectModels schema) := by
  have hFiles : generator.filesOf .schema directory value =
      fun name => modelFiles directory (schema.models.filter (·.1 == name)) := by
    funext name
    rw [filesOf, hRead]
  rw [hFiles, flatMap_names hNodup options.includes (modelFiles directory)]
  simp [modelFiles, Options.selectModels]

theorem Generator.flatMap_filesOf_forms (generator : Generator) (directory : Path)
    (options : Options) {forms : Forms} (hRead : Forms.ofValue value = .ok forms) :
    ((forms.models.map (·.1)).filter options.includes).flatMap
        (generator.filesOf .forms directory value) =
      formFiles generator.imports directory (options.selectForms forms) := by
  have hFiles : generator.filesOf .forms directory value =
      fun name => formFiles generator.imports directory (forms.models.filter (·.1 == name)) := by
    funext name
    rw [filesOf, hRead]
  rw [hFiles, flatMap_names (Forms.ofValue_nodup hRead) options.includes
    (formFiles generator.imports directory)]
  simp only [formFiles, List.map_cons, List.map_nil, Options.selectForms]
  exact List.map_eq_flatMap.symm

/-! ### Runs that are asked for a model -/

theorem Generator.generateSchema_taken (hProper : workspace.tree.Proper)
    (hDocument : DocumentAt workspace.tree path value)
    (hNames : DocumentKind.schema.Accepts value names) (hStems : (names.map Naming.stem).Nodup)
    (hLinks : ∀ location, (workspace.tree.createDirAll directory).1.Leads directory location →
      workspace.tree.NoLinkBelow location)
    (hFormat : options.format = false) (hSome : ∃ name ∈ names, options.includes name = true)
    (h : generator.generateSchema directory path options workspace = (.ok report, last)) :
    ∃ location steps made emitted, last.tree = emitted.tree ∧
      generator.Taken .schema directory location options value names steps report workspace made
        emitted := by
  obtain ⟨schema, hRead, rfl⟩ := hNames
  have hDistinct : (schema.models.map (·.1)).Nodup := hStems.of_map
  have hLoad := loadSchema_ok_iff.mpr ⟨value, hDocument, hRead⟩
  have hNames := (@Options.selectModels_names options path workspace schema hLoad).2
  have hWay := generator.schemaRun directory path options workspace
  have hResolved := hWay.resolved_of_ok hLoad (congrArg Prod.fst h)
  obtain ⟨passed, changed, made, emitted, location, hTree, hAlign, -, -, hLaid, hTake, hLast⟩ :=
    generateSchema_aligned hProper hLoad hResolved hLinks (Options.selectModels_ne_nil hSome) h
  rw [formatted_of_not hFormat] at hLast
  have hPrepared : DocumentKind.schema.prepare directory (schema.models.map (·.1)) passed =
      (.ok changed.removed, made) := by
    rw [DocumentKind.prepare, Job.bind_run_ok hAlign]
    rfl
  have hStems : (schema.models.map fun model => Naming.stem model.1).Nodup := by
    simpa only [List.map_map, Function.comp_def] using hStems
  have hRemoved : report.removed = changed.removed := Job.take_removed hTake
  have hBelongs := options.steps_belong directory hNames
  have hWrites := options.writes_steps directory schema
  have hDirs (write : Artifact × String) (hWrite : write ∈ Step.writes (options.steps directory schema)) :
      made.tree.node? (location ++ [Naming.stem write.1.model]) = some .directory :=
    (hLaid.dirs _ (hBelongs write hWrite).2.1).directory
  refine ⟨location, options.steps directory schema, made, emitted, hLast,
    hRemoved ▸ DocumentKind.prepare_of_tree hTree hPrepared, hLaid.anchored,
    hBelongs, options.steps_nodup directory hLoad, options.steps_place directory location hStems,
    fun _ write hWrite _ => hDirs write hWrite, fun first hFirst _ _ _ _ => hDirs first hFirst,
    ?_, ?_, ?_⟩
  · rw [hWrites, generator.flatMap_filesOf_schema directory options hRead hDistinct]
  · rw [hWrites, modelFiles_outputs, Options.selectModels_fst]
  · rw [← Options.selectModels_fst]
    exact ⟨_, hTake⟩

theorem Generator.generateForms_taken (hProper : workspace.tree.Proper)
    (hDocument : DocumentAt workspace.tree path value)
    (hNames : DocumentKind.forms.Accepts value names) (hStems : (names.map Naming.stem).Nodup)
    (hLinks : ∀ location, (workspace.tree.createDirAll directory).1.Leads directory location →
      workspace.tree.NoLinkBelow location)
    (hFormat : options.format = false) (hSome : ∃ name ∈ names, options.includes name = true)
    (h : generator.generateForms directory path options workspace = (.ok report, last)) :
    ∃ location steps made emitted, last.tree = emitted.tree ∧
      generator.Taken .forms directory location options value names steps report workspace made
        emitted := by
  obtain ⟨forms, hRead, rfl⟩ := hNames
  have hLoad := loadForms_ok_iff.mpr ⟨value, hDocument, hRead⟩
  have hSelected : options.selectForms forms ≠ [] := by
    obtain ⟨name, hName, hAsked⟩ := hSome
    obtain ⟨model, hModel, rfl⟩ := List.mem_map.mp hName
    exact List.ne_nil_of_mem (List.mem_filter.mpr ⟨hModel, hAsked⟩)
  obtain ⟨passed, start, removed, cleared, emitted, location, hTree, hCreate, hAnchored, hClear,
    hTake, hLast⟩ := generateForms_prepared hProper hLoad hLinks hSelected h
  rw [formatted_of_not hFormat] at hLast
  have hPrepared : DocumentKind.forms.prepare directory (forms.models.map (·.1)) passed =
      (.ok removed, cleared) := by
    rw [DocumentKind.prepare, Job.bind_run_ok hCreate, hClear]
  have hStems : ((options.selectForms forms).map fun model => Naming.stem model.1).Nodup := by
    rw [List.map_map] at hStems
    exact hStems.sublist (List.filter_sublist.map _)
  have hRemoved : report.removed = removed := Job.take_removed hTake
  have hWrites := options.writes_formSteps generator.imports directory forms
  have hNodup := Forms.files_nodup hRead generator.imports directory options
  obtain ⟨hCleared, hSheds, -⟩ := Job.removeStale_clears hAnchored hClear
  refine ⟨location, options.formSteps generator.imports directory forms, cleared, emitted, hLast,
    hRemoved ▸ DocumentKind.prepare_of_tree hTree hPrepared, hCleared, Forms.belongsTo hRead _ _ _,
    hWrites ▸ hNodup, hWrites ▸ formFiles_place hStems, fun hGrounded write _ hFound => ?_,
    ?_, ?_, ?_, ?_⟩
  · -- Removing rulesets leaves directories, and nothing new.
    obtain ⟨node, hNode⟩ := Option.ne_none_iff_exists'.mp hFound
    have hStart : start.tree.Grounded := by
      rw [Job.createDirAll_cases hCreate, hTree]
      exact hGrounded.createDirAll directory
    have hBefore : start.tree.node? (location ++ [Naming.stem write.1.model] ++
        [write.1.kind.fileName (Naming.stem write.1.model)]) = some node := by
      rw [List.append_assoc, ← hNode]
      exact ((hSheds.loses.node _).resolve_right hFound).symm
    exact hSheds.keptDirectory (hStart.proper.node?_around hStart.nested hBefore)
  · intro first hFirst second hSecond hStem hOther
    rw [hWrites] at hFirst hSecond
    exact absurd (formFiles_stem hStems first hFirst second hSecond hStem) hOther
  · rw [hWrites, generator.flatMap_filesOf_forms directory options hRead]
  · rw [hWrites, formFiles_outputs, Options.selectForms_fst]
  · rw [← Options.selectForms_fst]
    exact ⟨_, hTake⟩

theorem Generator.generate_taken (hProper : workspace.tree.Proper)
    (hDocument : DocumentAt workspace.tree path value) (hNames : kind.Accepts value names)
    (hStems : (names.map Naming.stem).Nodup)
    (hLinks : ∀ location, (workspace.tree.createDirAll directory).1.Leads directory location →
      workspace.tree.NoLinkBelow location)
    (hFormat : options.format = false) (hSome : ∃ name ∈ names, options.includes name = true)
    (h : generator.generate kind directory path options workspace = (.ok report, last)) :
    ∃ location steps made emitted, last.tree = emitted.tree ∧
      generator.Taken kind directory location options value names steps report workspace made
        emitted := by
  cases kind with
  | schema => exact generateSchema_taken hProper hDocument hNames hStems hLinks hFormat hSome h
  | forms => exact generateForms_taken hProper hDocument hNames hStems hLinks hFormat hSome h

/-- After a generation without the formatter, a file of a model that it was asked for has its text just
if the report knows of no failure to write it. -/
theorem Generator.generate_reads_iff (hProper : workspace.tree.Proper)
    (hDocument : DocumentAt workspace.tree path value) (hNames : kind.Accepts value names)
    (hStems : (names.map Naming.stem).Nodup)
    (hLinks : ∀ location, (workspace.tree.createDirAll directory).1.Leads directory location →
      workspace.tree.NoLinkBelow location)
    (h : generator.generate kind directory path options workspace = (.ok report, last))
    (hFormat : options.format = false)
    {name : String} (hName : name ∈ names) (hAsked : options.includes name = true) :
    ∀ file ∈ generator.filesOf kind directory value name,
      last.tree.read file.1.path = .ok file.2.toUTF8 ↔ report.Settles file.1 := by
  intro file hFile
  obtain ⟨location, steps, made, emitted, hLast, hTaken⟩ :=
    generate_taken hProper hDocument hNames hStems hLinks hFormat ⟨name, hName, hAsked⟩ h
  obtain ⟨_, hTake⟩ := hTaken.taken
  have hWrite : file ∈ Step.writes steps := by
    rw [hTaken.writes]
    exact List.mem_flatMap.mpr ⟨name, List.mem_filter.mpr ⟨hName, hAsked⟩, hFile⟩
  rw [hLast]
  exact Job.take_reads_iff hTaken.anchored hTaken.belongs hTaken.nodup
    (fun first hFirst second hSecond hPlace =>
      congrArg Prod.snd (hTaken.one first hFirst second hSecond hPlace))
    rfl hTake hWrite

end EntityGen
