import EntityGen.Proofs.Form.Entries
import EntityGen.Proofs.Generation.Artifacts

/-! What a run leaves of the files that were there, its own documents among them. A run that gets to
the files takes away what stale directories have and writes its own files; a file that is below no
stale directory, and that no file of the run leads to with another text, is as it was. -/

namespace EntityGen

open Files (FileTree Location Path)

/-- What a run is going to do when it gets to the files: the names of the directories that are not
stale, and the files with their texts. -/
structure Plan where
  canonical : List String
  files : List (Artifact × String)

/-- What a run of a kind is going to do; none if it ends before it gets to the files. -/
def Generator.plan? (generator : Generator) (kind : DocumentKind) (directory path : Path)
    (options : Options) (workspace : Workspace) : Option Plan :=
  match kind with
  | .schema =>
    match (loadSchema path workspace).1 with
    | .error _ => none
    | .ok schema =>
      if schema.dangling?.isNone && !(options.selectModels schema).isEmpty then
        some ⟨canonicalDirs (schema.models.map (·.1)),
          modelFiles directory (options.selectModels schema)⟩
      else none
  | .forms =>
    match (loadForms path workspace).1 with
    | .error _ => none
    | .ok forms =>
      if (options.selectForms forms).isEmpty then none
      else some ⟨canonicalDirs (forms.models.map (·.1)),
        formFiles generator.imports directory (options.selectForms forms)⟩

variable {generator : Generator} {kind : DocumentKind} {directory path : Path} {options : Options}
  {workspace after : Workspace} {result : Except Fault Report} {plan : Plan}

/-- A run leaves the file tree as it is, or gets to the files as planned. -/
theorem Generator.generate_cases (hProper : workspace.tree.Proper)
    (h : generator.generate kind directory path options workspace = (result, after)) :
    (generator.plan? kind directory path options workspace = none ∧
        after.tree = workspace.tree) ∨
      ∃ plan, generator.plan? kind directory path options workspace = some plan ∧
        Emission generator kind directory options plan.canonical plan.files workspace.tree result
          after.tree := by
  cases kind with
  | schema =>
    have hWay := generator.schemaRun directory path options workspace
    rw [show generator.generateSchema directory path options workspace = _ from h] at hWay
    generalize hEnd : (result, after) = run at hWay
    cases hWay with
    | unloaded load kept =>
      obtain ⟨-, rfl⟩ := Prod.mk.inj hEnd
      exact .inl ⟨by simp [plan?, load], kept⟩
    | empty load empty kept =>
      obtain ⟨-, rfl⟩ := Prod.mk.inj hEnd
      exact .inl ⟨by simp [plan?, load, Options.selectModels, Schema.models, empty], kept⟩
    | dangling load dangling kept =>
      obtain ⟨-, rfl⟩ := Prod.mk.inj hEnd
      exact .inl ⟨by simp [plan?, load, dangling], kept⟩
    | unselected load resolved unselected kept =>
      obtain ⟨-, rfl⟩ := Prod.mk.inj hEnd
      exact .inl ⟨by simp [plan?, load, resolved, unselected], kept⟩
    | @emitted schema passed load resolved selected kept =>
      refine .inr ⟨⟨canonicalDirs (schema.models.map (·.1)),
        modelFiles directory (options.selectModels schema)⟩,
        by simp [plan?, load, resolved, selected], ?_⟩
      rw [← kept] at hProper ⊢
      exact emitModels_run hProper hEnd.symm
  | forms =>
    have hWay := generator.formsRun directory path options workspace
    rw [show generator.generateForms directory path options workspace = _ from h] at hWay
    generalize hEnd : (result, after) = run at hWay
    cases hWay with
    | unloaded load kept =>
      obtain ⟨-, rfl⟩ := Prod.mk.inj hEnd
      exact .inl ⟨by simp [plan?, load], kept⟩
    | unselected load unselected kept =>
      obtain ⟨-, rfl⟩ := Prod.mk.inj hEnd
      exact .inl ⟨by simp [plan?, load, unselected], kept⟩
    | @emitted forms passed load selected kept =>
      refine .inr ⟨⟨canonicalDirs (forms.models.map (·.1)),
        formFiles generator.imports directory (options.selectForms forms)⟩,
        by simp [plan?, load, selected], ?_⟩
      rw [← kept] at hProper ⊢
      exact emitRulesets_run hProper hEnd.symm

theorem formFiles_nodup {imports : TypeScript.ImportPaths} {models : List (String × FormModel)}
    (h : (models.map (·.1)).Nodup) :
    ((formFiles imports directory models).map (·.1)).Nodup := by
  have hArtifacts : (formFiles imports directory models).map (·.1) =
      (models.map (·.1)).map (Artifact.ofModel directory .ruleset) := by
    simp [formFiles, Function.comp_def]
  rw [hArtifacts]
  exact h.map fun first second hSame => congrArg Artifact.model hSame

/-- No file is written twice by a run. -/
theorem Generator.plan?_nodup
    (h : generator.plan? kind directory path options workspace = some plan) :
    (plan.files.map (·.1)).Nodup := by
  cases kind with
  | schema =>
    simp only [plan?] at h
    split at h
    · cases h
    · rename_i schema hLoad
      split at h
      · obtain rfl := Option.some.inj h
        exact modelFiles_nodup (options.selectModels_names hLoad).1
      · cases h
  | forms =>
    simp only [plan?] at h
    split at h
    · cases h
    · rename_i forms hLoad
      split at h
      · cases h
      · obtain rfl := Option.some.inj h
        obtain ⟨value, -, hRead⟩ := loadForms_ok_iff.mp hLoad
        exact formFiles_nodup ((Forms.ofValue_nodup hRead).sublist (List.filter_sublist.map _))

theorem Generator.formatted_of_not (h : options.format = false) (tree : FileTree) :
    generator.formatted directory options tree = tree := by
  simp [formatted, h]

namespace Emission

variable {canonical : List String} {files : List (Artifact × String)} {before after : FileTree}
  {document : Path} {place : Location} {content : ByteArray}

/-- A file can be read as before after every run, if it can be read without what is stale and no
file with another text is found in its place. -/
theorem read_eq (h : Emission generator kind directory options canonical files before result after)
    (hFormat : options.format = false) (hNodup : (files.map (·.1)).Nodup)
    (hPlace : before.locate document = .ok (.taken place))
    (hContent : before.node? place = some (.file content))
    (hStale : ∀ location names, (before.createDirAll directory).1.Leads directory location →
      (∀ name ∈ names, (before.createDirAll directory).1.IsStale location canonical name) →
      ((before.createDirAll directory).1.without (kind.loses location names)).read document =
        .ok content)
    (hFiles : ∀ file ∈ files, after.locate file.1.path = .ok (.taken place) →
      file.2.toUTF8 = content) :
    after.read document = .ok content := by
  have hStart := (before.createDirAll_gains directory).grows.within.locate hPlace
  -- What is left when stale directories were cleared still has the file in its place.
  have hCleared {location : Location} {names : List String} {made : FileTree}
      (hLeads : (before.createDirAll directory).1.Leads directory location)
      (hNames : ∀ name ∈ names, (before.createDirAll directory).1.IsStale location canonical name)
      (hGains : ((before.createDirAll directory).1.without
        (kind.loses location names)).Gains made) :
      made.locate document = .ok (.taken place) ∧ made.node? place = some (.file content) := by
    obtain ⟨other, hOther, hNode⟩ := FileTree.read_eq_ok_iff.mp (hStale location names hLeads hNames)
    have hSame := (FileTree.Loses.without _ _).within.locate hOther
    obtain rfl : place = other := by simpa [hStart] using hSame
    exact ⟨hGains.grows.within.locate hOther, hGains.kept hNode⟩
  cases h with
  | unlisted gains =>
    exact FileTree.read_eq_ok_iff.mpr
      ⟨place, gains.grows.within.locate hPlace, gains.kept hContent⟩
  | uncleared leads stale gains =>
    exact FileTree.read_eq_ok_iff.mpr ⟨place, hCleared leads stale gains⟩
  | @emitted initial report location steps made emitted leads stale all gains writes unfailed taken =>
    rw [Generator.formatted_of_not hFormat] at hFiles ⊢
    obtain ⟨hMade, hNode⟩ := hCleared leads stale gains
    have hFile := Job.take_file_iff taken (writes ▸ hNodup) (by simp [Report.Settles, unfailed])
      place content
    rw [writes] at hFile
    refine FileTree.read_eq_ok_iff.mpr ⟨place, (Job.take_grows taken).within.locate hMade,
      hFile.mpr ?_⟩
    by_cases hPlaced : ∃ file ∈ files, report.Places emitted.tree place file.1
    · obtain ⟨text, hText⟩ := Report.exists_lastText hPlaced
      obtain ⟨artifact, hFile, hPlaces⟩ := hText.places
      exact .inl ⟨text, hText, hFiles _ hFile hPlaces.2⟩
    · exact .inr ⟨fun file hFile hPlaces => hPlaced ⟨file, hFile, hPlaces⟩, hNode⟩

/-- After a successful run a file is as it was, just if the last file that the run put in its place
has its content, or if none was put there and it is not among what was taken away. -/
theorem node?_iff {report : Report}
    (h : Emission generator kind directory options canonical files before (.ok report) after)
    (hFormat : options.format = false) (hNodup : (files.map (·.1)).Nodup)
    (hContent : before.node? place = some (.file content)) :
    ∃ location, (before.createDirAll directory).1.Leads directory location ∧
      (∀ name ∈ report.removed,
        (before.createDirAll directory).1.IsStale location canonical name) ∧
      (kind = .schema → ∀ name,
        (before.createDirAll directory).1.IsStale location canonical name →
          name ∈ report.removed) ∧
      (after.node? place = some (.file content) ↔
        (∃ text, report.LastText after place files text ∧ text.toUTF8 = content) ∨
        (∀ file ∈ files, ¬ report.Places after place file.1) ∧
          kind.loses location report.removed place = false) := by
  cases h with
  | @emitted initial _ location steps made emitted leads stale all gains writes unfailed taken =>
    refine ⟨location, leads, stale, all, ?_⟩
    have hFile := Job.take_file_iff taken (writes ▸ hNodup) (by simp [Report.Settles, unfailed])
      place content
    rw [writes, gains.file_iff, FileTree.node?_without (DocumentKind.loses_root _),
      (before.createDirAll_gains directory).kept hContent] at hFile
    rw [Generator.formatted_of_not hFormat, hFile]
    by_cases hLost : kind.loses location report.removed place <;> simp [hLost]

end Emission

/-- What a run without the formatter leaves of a file, such as a document, that is found at a path.
A run that does not get to the files leaves the file tree as it is. After a successful run that does,
the file is as it was, just if the last file that was put in its place has its content, or if none
was put there and it is not in what stale directories lost. And whatever the outcome, the path leads
to the same content, if it does so without what stale directories have and no file with another text
is found in the place. -/
theorem Generator.generate_keeps_iff (generator : Generator) (kind : DocumentKind)
    (directory path document : Path) (options : Options) (workspace after : Workspace)
    (result : Except Fault Report) (place : Location) (content : ByteArray)
    (hProper : workspace.tree.Proper) (hFormat : options.format = false)
    (hPlace : workspace.tree.locate document = .ok (.taken place))
    (hContent : workspace.tree.node? place = some (.file content))
    (hRun : generator.generate kind directory path options workspace = (result, after)) :
    let start := (workspace.tree.createDirAll directory).1
    let plan? := generator.plan? kind directory path options workspace
    (plan? = none → after.tree = workspace.tree) ∧
    ∀ plan, plan? = some plan →
      (∀ report, result = .ok report → ∃ location,
        start.Leads directory location ∧
        (∀ name ∈ report.removed, start.IsStale location plan.canonical name) ∧
        (kind = .schema → ∀ name, start.IsStale location plan.canonical name →
          name ∈ report.removed) ∧
        (after.tree.node? place = some (.file content) ↔
          (∃ text, report.LastText after.tree place plan.files text ∧ text.toUTF8 = content) ∨
          (∀ file ∈ plan.files, ¬ report.Places after.tree place file.1) ∧
            kind.loses location report.removed place = false)) ∧
      ((∀ location names, start.Leads directory location →
          (∀ name ∈ names, start.IsStale location plan.canonical name) →
          (start.without (kind.loses location names)).read document = .ok content) →
        (∀ file ∈ plan.files, after.tree.locate file.1.path = .ok (.taken place) →
          file.2.toUTF8 = content) →
        after.tree.read document = .ok content) := by
  intro start plan?
  rcases generate_cases hProper hRun with ⟨hNone, hTree⟩ | ⟨plan, hPlan, hEmission⟩
  · exact ⟨fun _ => hTree, fun plan hPlan => by simp [plan?, hNone] at hPlan⟩
  refine ⟨fun hNone => by simp [plan?, hPlan] at hNone, fun other hOther => ?_⟩
  obtain rfl : plan = other := by simpa [plan?, hPlan] using hOther
  have hNodup := plan?_nodup hPlan
  refine ⟨fun report hReport => ?_, fun hStale hFiles => ?_⟩
  · subst hReport
    exact hEmission.node?_iff hFormat hNodup hContent
  · exact hEmission.read_eq hFormat hNodup hPlace hContent hStale hFiles

/-- A workspace with a schema in a directory of the mappers directory. -/
def nested : Workspace where
  tree :=
    { entries := [(["m"], .directory), (["m", "docs"], .directory),
        (["m", "docs", "schema.tw"], .file (String.toUTF8
          "User:\n  type: model\n  mappings:\n    id:\n      type: string\n"))] }

/-- The run succeeds, and its own document is gone with a stale directory. -/
theorem generate_nested : ∃ content report after plan location,
    nested.tree.Proper ∧
    nested.tree.locate "m/docs/schema.tw" = .ok (.taken ["m", "docs", "schema.tw"]) ∧
    nested.tree.node? ["m", "docs", "schema.tw"] = some (.file content) ∧
    plainGenerator.generate .schema "m" "m/docs/schema.tw" {} nested = (.ok report, after) ∧
    plainGenerator.plan? .schema "m" "m/docs/schema.tw" {} nested = some plan ∧
    (nested.tree.createDirAll "m").1.Leads "m" location ∧
    after.tree.node? ["m", "docs", "schema.tw"] = none ∧
    ¬ ((∀ file ∈ plan.files, ¬ report.Places after.tree ["m", "docs", "schema.tw"] file.1) ∧
      DocumentKind.schema.loses location report.removed ["m", "docs", "schema.tw"] = false) := by
  have hGone : (let run := plainGenerator.generate .schema "m" "m/docs/schema.tw" {} nested
      run.1.isOk && (run.2.tree.node? ["m", "docs", "schema.tw"]).isNone) = true := by
    decide +kernel
  have hProper : nested.tree.Proper := by decide +kernel
  have hPlace : nested.tree.locate "m/docs/schema.tw" =
      .ok (.taken ["m", "docs", "schema.tw"]) := by rfl
  rcases hRun : plainGenerator.generate .schema "m" "m/docs/schema.tw" {} nested with
    ⟨fault | report, after⟩
  · simp [hRun, Except.isOk, Except.toBool] at hGone
  simp only [hRun, Bool.and_eq_true, Option.isNone_iff_eq_none] at hGone
  replace hGone := hGone.2
  obtain ⟨hNone, hSome⟩ := Generator.generate_keeps_iff plainGenerator .schema "m" "m/docs/schema.tw"
    "m/docs/schema.tw" {} nested after (.ok report) _ _ hProper rfl hPlace rfl hRun
  rcases hPlan : plainGenerator.plan? .schema "m" "m/docs/schema.tw" {} nested with _ | plan
  · rw [hNone hPlan] at hGone
    cases hGone
  obtain ⟨⟨location, hLeads, -, -, hKept⟩, -⟩ := (hSome plan hPlan).imp (· report rfl) id
  refine ⟨_, report, after, plan, location, hProper, hPlace, rfl, rfl, rfl, hLeads, hGone, ?_⟩
  intro hCleared
  have hNode := hKept.mpr (.inr hCleared)
  rw [hGone] at hNode
  cases hNode

end EntityGen
