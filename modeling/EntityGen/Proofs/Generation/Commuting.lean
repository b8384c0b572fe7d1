import EntityGen.Proofs.Generation.Rounds

/-! A run of a schema and a run of forms in one mappers directory, in both orders. The runs have
different notions of what is stale: one takes away directories with all that is in them, the other one
rulesets. Still they leave the same file tree in either order, if the forms have models of the schema
only. At a location where one of the runs puts something this is what both orders leave, and
everywhere else the runs find the same to take away.

The trees are `before`, `made`, `entities`, `cleared`, `first` where the schema comes first, and `before`,
`trimmed`, `supplied`, `remade`, `second` where the forms do. -/

namespace EntityGen

open Files (FileTree IsSegment Location Node Path)

variable {path : Path} {location place : Location} {dirs stems removed others lapsed missing : List String}
  {name : String} {models rulesets : List (Artifact × String)} {node : Node}
  {before made entities cleared first trimmed supplied remade second : FileTree}

/-! ### Files of both runs -/

/-- Files of models with some directories, and rulesets in these directories. -/
structure Paired (dirs : List String) (models rulesets : List (Artifact × String)) : Prop where
  covers : ∀ name ∈ dirs, ∃ file ∈ models, Naming.stem file.1.model = name
  noRuleset : ∀ file ∈ models, file.1.kind ≠ .ruleset
  ruleset : ∀ file ∈ rulesets, file.1.kind = .ruleset
  inDirs : ∀ file ∈ rulesets, Naming.stem file.1.model ∈ dirs

theorem Artifact.place_ne_ruleset {artifact : Artifact} (h : artifact.kind ≠ .ruleset) :
    artifact.place location ≠ location ++ [name, ArtifactKind.ruleset.fileName name] := by
  intro hPlace
  obtain ⟨hStem, hRest⟩ := List.cons.inj (List.append_cancel_left hPlace)
  exact h (ArtifactKind.fileName_injective (hStem ▸ (List.cons.inj hRest).1))

theorem Paired.of_models {schema : Schema} {forms : Forms} (directory : Path)
    (imports : TypeScript.ImportPaths)
    (h : ∀ model ∈ forms.models, Naming.stem model.1 ∈ schema.dirs) :
    Paired schema.dirs (modelFiles directory schema.models)
      (formFiles imports directory forms.models) where
  covers := by
    intro name hName
    obtain ⟨_, hMember, rfl⟩ := mem_canonicalDirs.mp hName
    obtain ⟨model, hModel, rfl⟩ := List.mem_map.mp hMember
    exact ⟨_, mem_modelFiles_iff.mpr ⟨model, hModel, .inl rfl⟩, rfl⟩
  noRuleset := by
    intro file hFile hKind
    obtain ⟨model, -, rfl | rfl⟩ := mem_modelFiles_iff.mp hFile <;> cases hKind
  ruleset := by
    intro file hFile
    obtain ⟨model, -, rfl⟩ := List.mem_map.mp hFile
    rfl
  inDirs := by
    intro file hFile
    obtain ⟨model, hModel, rfl⟩ := List.mem_map.mp hFile
    exact h model hModel

section

variable (hPaired : Paired dirs models rulesets)
include hPaired

/-- Nothing is put at the directory of a model that the schema does not have. -/
theorem Paired.layout_rulesets (hName : name ∉ dirs) :
    layout location rulesets (location ++ [name]) = none := by
  refine layout_eq_none_iff.mpr fun file hFile => ⟨file.1.stem_ne_place name, fun hSame => ?_⟩
  exact hName ((List.cons.inj (List.append_cancel_left hSame)).1 ▸ hPaired.inDirs file hFile)

/-- The directory of every model of the schema is put there. -/
theorem Paired.ne_dir (hLayout : layout location models place = none) (hName : name ∈ dirs) :
    place ≠ location ++ [name] := by
  obtain ⟨file, hFile, rfl⟩ := hPaired.covers name hName
  exact (layout_eq_none_iff.mp hLayout file hFile).2

end

/-! ### What is put somewhere -/

section

variable (hPaired : Paired dirs models rulesets)
  (hSchema : Realigned path location dirs removed models before made entities)
  (hForms : Resupplied path location stems lapsed rulesets entities cleared first)
  (hFormsFirst : Resupplied path location stems missing rulesets before trimmed supplied)
  (hSchemaNext : Realigned path location dirs others models supplied remade second)

include hPaired hSchema hForms in
/-- What a run of a schema has put somewhere stays when forms follow. -/
theorem Realigned.kept_by_forms (hLayout : layout location models place = some node) :
    first.node? place = some node := by
  have hEntities : entities.node? place = some node := by
    rw [hSchema.overlaid.node, hLayout, Option.some_or]
  obtain ⟨file, hFile, ⟨rfl, rfl⟩ | ⟨rfl, rfl⟩⟩ := layout_cases hLayout
  · have hKind := hPaired.noRuleset file hFile
    have hCleared : cleared.node? (file.1.place location) = some (.file file.2.toUTF8) := by
      rw [hForms.cleared.node?, if_neg, hEntities]
      intro hLost
      obtain ⟨name, -, hPlace⟩ := DocumentKind.loses_forms.mp hLost
      exact Artifact.place_ne_ruleset hKind hPlace
    refine hForms.overlaid.file_kept hCleared fun other hOther hPlace => hKind ?_
    rw [(Artifact.of_place_eq hPlace).2, hPaired.ruleset other hOther]
  · exact hForms.overlaid.grows.within.directory (hForms.cleared.sheds.keptDirectory hEntities)

include hPaired hFormsFirst hSchemaNext in
/-- What a run of forms has put somewhere stays when a schema follows. -/
theorem Resupplied.kept_by_schema (hLayout : layout location models place = none)
    (hRuleset : layout location rulesets place = some node) : second.node? place = some node := by
  have hSupplied : supplied.node? place = some node := by
    rw [hFormsFirst.overlaid.node, hRuleset, Option.some_or]
  rw [hSchemaNext.overlaid.node, hLayout, Option.none_or]
  refine hSchemaNext.aligned.kept hSupplied ?_
  obtain ⟨file, hFile, ⟨rfl, -⟩ | ⟨rfl, -⟩⟩ := layout_cases hRuleset <;>
    exact hSchemaNext.aligned.keeps_dir (hPaired.inDirs file hFile)

/-! ### What is taken away -/

include hPaired hSchema hFormsFirst hSchemaNext in
/-- The schema finds the same directories stale before and after a run of forms. -/
theorem Resupplied.same_stale : DocumentKind.schema.loses location others place =
    DocumentKind.schema.loses location removed place := by
  refine DocumentKind.loses_congr fun name => ?_
  have hSame (hName : name ∉ dirs) :
      supplied.node? (location ++ [name]) = before.node? (location ++ [name]) := by
    rw [hFormsFirst.overlaid.node, hPaired.layout_rulesets hName, Option.none_or,
      hFormsFirst.cleared.node?, DocumentKind.loses_forms_dir]
    rfl
  rw [hSchemaNext.aligned.stale, hSchema.aligned.stale]
  exact ⟨fun h => ⟨(hSame h.gone).symm.trans h.found, h.ofModel, h.gone⟩,
    fun h => ⟨(hSame h.gone).trans h.found, h.ofModel, h.gone⟩⟩

include hSchema in
/-- A ruleset that is where it was lingers after a run of a schema just if it did before. -/
theorem Realigned.same_lingers
    (hAround : ∀ name file content, before.node? (location ++ [name, file]) = some (.file content) →
      before.node? (location ++ [name]) = some .directory)
    (hName : name ∉ removed)
    (hSame : entities.node? (location ++ [name, ArtifactKind.ruleset.fileName name]) =
      before.node? (location ++ [name, ArtifactKind.ruleset.fileName name])) :
    DocumentKind.forms.Lingers location stems entities name ↔
      DocumentKind.forms.Lingers location stems before name := by
  constructor
  · rintro ⟨hStale, hRuleset⟩
    rw [hSame] at hRuleset
    obtain ⟨content, hFile⟩ := hRuleset rfl
    exact ⟨⟨hAround _ _ _ hFile, hStale.ofModel, hStale.gone⟩, hRuleset⟩
  · rintro ⟨hStale, hRuleset⟩
    rw [← hSame] at hRuleset
    have hMade : made.node? (location ++ [name]) = some .directory :=
      hSchema.aligned.kept hStale.found (Bool.eq_false_iff.mpr fun hLost =>
        hName (DocumentKind.loses_schema_below.mp hLost))
    exact ⟨⟨hSchema.overlaid.grows.within.directory hMade, hStale.ofModel, hStale.gone⟩, hRuleset⟩

/-! ### Both orders -/

variable (hBefore : before.Anchored path location)
include hPaired hSchema hForms hFormsFirst hSchemaNext hBefore

/-- What was taken away with a stale directory is gone or created again in both orders. -/
theorem Realigned.same_lost
    (hLost : DocumentKind.schema.loses location removed place = true)
    (hLayout : layout location models place = none)
    (hRuleset : layout location rulesets place = none) :
    second.node? place = first.node? place := by
  have hNext := hFormsFirst.leaves hBefore
  have hLostNext : DocumentKind.schema.loses location others place = true := by
    rw [hFormsFirst.same_stale hPaired hSchema hSchemaNext, hLost]
  have hLinks : made.SameLinks remade :=
    ((hSchema.aligned.sameLinks hBefore.noLink).symm.trans hNext.sameLinks).trans
      (hSchemaNext.aligned.sameLinks hNext.anchored.noLink)
  have hStart : remade.workingDir = made.workingDir :=
    hSchemaNext.aligned.workingDir.trans
      (hNext.workingDir.trans hSchema.aligned.workingDir.symm)
  have hCleared : cleared.node? place = made.node? place := by
    have hEntities : entities.node? place = made.node? place := by
      rw [hSchema.overlaid.node, hLayout, Option.none_or]
    rw [← hEntities]
    rcases hForms.cleared.sheds.node place with hSame | ⟨-, content, hFile⟩
    · exact hSame
    · -- No file is left in a stale directory.
      rw [hEntities] at hFile
      rcases hSchema.aligned.lost_cases hLost with hNone | hNew
      · rw [hNone] at hFile
        cases hFile
      · rw [hNew] at hFile
        cases hFile
  rw [hSchemaNext.overlaid.node, hLayout, Option.none_or, hForms.overlaid.node, hRuleset,
    Option.none_or, hCleared]
  exact hSchema.aligned.same_lost hSchemaNext.aligned hLinks hStart hLost hLostNext

variable
  (hAround : ∀ name file content, before.node? (location ++ [name, file]) = some (.file content) →
    before.node? (location ++ [name]) = some .directory)
  (hSegments : ∀ name ∈ dirs, IsSegment name) (hSome : dirs ≠ [])
include hAround hSegments hSome

/-- Elsewhere the same rulesets were taken away in both orders. -/
theorem Realigned.same_kept
    (hKept : DocumentKind.schema.loses location removed place = false)
    (hLayout : layout location models place = none)
    (hRuleset : layout location rulesets place = none) :
    second.node? place = first.node? place := by
  have hNext := hFormsFirst.leaves hBefore
  have hEntities := hSchema.leaves hBefore.noLink hSegments hSome
  have hKeptNext : DocumentKind.schema.loses location others place = false := by
    rw [hFormsFirst.same_stale hPaired hSchema hSchemaNext, hKept]
  have hNotDir : ∀ name ∈ dirs, place ≠ location ++ [name] := fun name => hPaired.ne_dir hLayout
  have hSame : entities.node? place = before.node? place := by
    rw [hSchema.overlaid.node, hLayout, Option.none_or]
    exact hSchema.aligned.node_eq hBefore.noLink hSegments hKept hNotDir
  have hSecond : second.node? place = trimmed.node? place := by
    rw [hSchemaNext.overlaid.node, hLayout, Option.none_or,
      hSchemaNext.aligned.node_eq hNext.anchored.noLink hSegments hKeptNext hNotDir,
      hFormsFirst.overlaid.node, hRuleset, Option.none_or]
  rw [hSecond, hForms.overlaid.node, hRuleset, Option.none_or, hForms.cleared.node?,
    hFormsFirst.cleared.node?, hSame]
  have hLapses : DocumentKind.forms.loses location missing place =
      DocumentKind.forms.loses location lapsed place := by
    rw [Bool.eq_iff_iff, DocumentKind.loses_forms, DocumentKind.loses_forms]
    refine exists_congr fun name => and_congr_left fun hPlace => ?_
    subst hPlace
    have hName : name ∉ removed := fun hName => by
      rw [DocumentKind.loses_schema_below.mpr hName] at hKept
      cases hKept
    rw [hFormsFirst.cleared.lingering, hForms.cleared.lingering,
      hSchema.same_lingers hAround hName hSame]
  rw [hLapses]

/-- In both orders there is the same at each location. -/
theorem Realigned.commutes : first.Same second where
  workingDir := by
    have hEntities := hSchema.leaves hBefore.noLink hSegments hSome
    have hNext := hFormsFirst.leaves hBefore
    rw [((hForms.leaves hEntities.anchored).workingDir.trans hEntities.workingDir),
      (hSchemaNext.leaves hNext.anchored.noLink hSegments hSome).workingDir, hNext.workingDir]
  node := by
    intro place
    rcases hLayout : layout location models place with _ | node
    · rcases hRuleset : layout location rulesets place with _ | node
      · by_cases hLost : DocumentKind.schema.loses location removed place = true
        · exact hSchema.same_lost hPaired hForms hFormsFirst hSchemaNext hBefore hLost
            hLayout hRuleset
        · exact hSchema.same_kept hPaired hForms hFormsFirst hSchemaNext hBefore hAround hSegments hSome
            (Bool.eq_false_iff.mpr hLost) hLayout hRuleset
      · rw [hForms.overlaid.node, hRuleset, Option.some_or,
          hFormsFirst.kept_by_schema hPaired hSchemaNext hLayout hRuleset]
    · rw [hSchemaNext.overlaid.node, hLayout, Option.some_or,
        hSchema.kept_by_forms hPaired hForms hLayout]

end

/-- A run of a schema and a run of forms, each of all models and without the formatter, leave the same
file tree in both orders, if the forms have only models whose stems the schema has too, the documents
are outside the directories of models, and there are no links below the mappers directory. -/
theorem Generator.generate_commute (generator : Generator) (directory schemaPath formsPath : Path)
    (start schemaMade schemaFirst formsMade formsFirst : Workspace)
    (schemaValue formsValue : Yaml.Value) (modelNames formNames : List String)
    (hProper : start.tree.Proper) (hNested : start.tree.Nested)
    (hLinks : ∀ location, (start.tree.createDirAll directory).1.Leads directory location →
      start.tree.NoLinkBelow location)
    (hSchema : DocumentKind.schema.Beside directory schemaPath schemaValue modelNames start.tree)
    (hForms : DocumentKind.forms.Beside directory formsPath formsValue formNames start.tree)
    (hSome : formNames ≠ []) (hStems : formNames.map Naming.stem ⊆ modelNames.map Naming.stem)
    (hSchemaFirst : generator.Completes .schema directory schemaPath start schemaMade)
    (hFormsNext : generator.Completes .forms directory formsPath schemaMade schemaFirst)
    (hFormsFirst : generator.Completes .forms directory formsPath start formsMade)
    (hSchemaNext : generator.Completes .schema directory schemaPath formsMade formsFirst) :
    schemaFirst.tree.Same formsFirst.tree := by
  obtain ⟨schema, hSchemaRead, hResolves, rfl⟩ := hSchema.models
  obtain ⟨forms, hFormsRead, rfl⟩ := hForms.models
  have hNames : ∀ model ∈ schema.models, isModelName model.1 = true :=
    (@Options.selectModels_names {} schemaPath start schema
      (loadSchema_ok_iff.mpr ⟨_, hSchema.document, hSchemaRead⟩)).2
  have hInDirs : ∀ model ∈ forms.models, Naming.stem model.1 ∈ schema.dirs := fun model hModel =>
    mem_canonicalDirs.mpr (List.mem_map.mp
      (hStems (List.mem_map_of_mem (List.mem_map_of_mem hModel))))
  have hFormModels : forms.models ≠ [] := fun hNone => hSome (by simp [hNone])
  obtain ⟨form, hForm⟩ := List.exists_mem_of_ne_nil _ hFormModels
  have hDirs : schema.dirs ≠ [] := List.ne_nil_of_mem (hInDirs form hForm)
  have hModels : schema.models ≠ [] := fun hNone => hDirs (by simp [Schema.dirs, hNone]; rfl)
  have hSegments := Schema.isSegment_dirs hNames
  have hPaired : Paired schema.dirs (modelFiles directory schema.models)
      (formFiles generator.imports directory forms.models) :=
    .of_models directory generator.imports hInDirs
  obtain ⟨location, removed, made, hBefore, hRealigned⟩ :=
    hSchemaFirst.realigned hProper hLinks hSchema.document hSchemaRead hResolves hModels
  have hEntities := hRealigned.leaves hBefore.noLink hSegments hDirs
  have hFormsThere := hForms.document_after hBefore.leads hEntities hFormsNext.document
  obtain ⟨other, lapsed, cleared, hAnchored, hResupplied⟩ := hFormsNext.resupplied
    hEntities.anchored.proper hEntities.noLinkBelow hFormsThere hFormsRead hFormModels
  rw [hEntities.createDirAll_eq_self] at hAnchored hResupplied
  obtain rfl := hEntities.anchored.leads.unique hAnchored.leads
  obtain ⟨here, missing, trimmed, hHere, hSupplied⟩ :=
    hFormsFirst.resupplied hProper hLinks hForms.document hFormsRead hFormModels
  obtain rfl := hBefore.leads.unique hHere.leads
  have hRulesets := hSupplied.leaves hBefore
  have hSchemaThere := hSchema.document_after hBefore.leads hRulesets hSchemaNext.document
  obtain ⟨there, others, remade, hThere, hNext⟩ := hSchemaNext.realigned
    hRulesets.anchored.proper hRulesets.noLinkBelow hSchemaThere hSchemaRead hResolves hModels
  rw [hRulesets.createDirAll_eq_self] at hThere hNext
  obtain rfl := hRulesets.anchored.leads.unique hThere.leads
  refine hRealigned.commutes hPaired hResupplied hSupplied hNext hBefore ?_ hSegments hDirs
  intro name file content hNode
  have hGains := start.tree.createDirAll_gains directory
  have hSplit : location ++ [name, file] = location ++ [name] ++ [file] := by simp
  rw [hGains.file_iff, hSplit] at hNode
  exact hGains.kept (hProper.node?_around hNested hNode)

/-- A workspace with a schema of two models and forms of one of them, and with rulesets of the other
model and of one that is gone. -/
def shared : Workspace where
  tree :=
    { entries := [(["schema.tw"], .file (String.toUTF8 "A:\n  type: model\nB:\n  type: model\n")),
        (["form.tw"], .file (String.toUTF8 "A: {}\n")),
        (["m"], .directory), (["m", "b"], .directory),
        (["m", "b", "b.form.ts"], .file (String.toUTF8 "export")),
        (["m", "old"], .directory),
        (["m", "old", "old.form.ts"], .file (String.toUTF8 "export"))] }

/-- The runs take different things away, each in its turn, and leave the same. -/
theorem generate_commute_shared : ∃ schemaValue formsValue schemaMade schemaFirst formsMade formsFirst,
    DocumentKind.schema.Beside "m" "schema.tw" schemaValue ["A", "B"] shared.tree ∧
    DocumentKind.forms.Beside "m" "form.tw" formsValue ["A"] shared.tree ∧
    plainGenerator.Completes .schema "m" "schema.tw" shared schemaMade ∧
    plainGenerator.Completes .forms "m" "form.tw" schemaMade schemaFirst ∧
    plainGenerator.Completes .forms "m" "form.tw" shared formsMade ∧
    plainGenerator.Completes .schema "m" "schema.tw" formsMade formsFirst ∧
    schemaMade.tree.hasFile "m/b/b.form.ts" = true ∧
    formsMade.tree.hasDirectory "m/old" = true ∧
    schemaFirst.tree.hasFile "m/b/b.form.ts" = false ∧
    schemaFirst.tree.hasDirectory "m/old" = false ∧
    schemaFirst.tree.Same formsFirst.tree := by
  have hEvaluated :
      (let schemaMade := plainGenerator.generate .schema "m" "schema.tw" {} shared
      let schemaFirst := plainGenerator.generate .forms "m" "form.tw" {} schemaMade.2
      let formsMade := plainGenerator.generate .forms "m" "form.tw" {} shared
      let formsFirst := plainGenerator.generate .schema "m" "schema.tw" {} formsMade.2
      ([schemaMade, schemaFirst, formsMade, formsFirst].all (·.1.toOption.any (·.isSuccess))) &&
        schemaMade.2.tree.hasFile "m/b/b.form.ts" && formsMade.2.tree.hasDirectory "m/old" &&
        !schemaFirst.2.tree.hasFile "m/b/b.form.ts" &&
        !schemaFirst.2.tree.hasDirectory "m/old") = true := by
    decide +kernel
  simp only [List.all_cons, List.all_nil, Bool.and_true, Bool.and_eq_true, Bool.not_eq_true']
    at hEvaluated
  obtain ⟨⟨⟨⟨⟨hFirst, hNext, hOther, hLast⟩, hRuleset⟩, hOld⟩, hNoRuleset⟩, hNotOld⟩ := hEvaluated
  have hProper : shared.tree.Proper := by decide +kernel
  have hPlain : ∀ entry ∈ shared.tree.entries, ∀ target, entry.2 ≠ .link target := by
    simp [shared]
  have hLeads : (shared.tree.createDirAll "m").1.Leads "m" ["m"] := ⟨by rfl, by rfl⟩
  obtain ⟨schemaValue, hSchemaAt, hModels⟩ :=
    @DocumentKind.schema_models_of_load "schema.tw" shared ["A", "B"] (by decide +kernel)
  obtain ⟨formsValue, hFormsAt, hForms⟩ :=
    @DocumentKind.forms_models_of_load "form.tw" shared ["A"] (by decide +kernel)
  have hSchemaStored : DocumentKind.schema.Stored "m" "schema.tw" schemaValue ["A", "B"] shared.tree :=
    .of_plain hProper hPlain hSchemaAt hModels (by decide +kernel) hLeads (by rfl) (by decide)
  have hFormsStored : DocumentKind.forms.Stored "m" "form.tw" formsValue ["A"] shared.tree :=
    .of_plain hProper hPlain hFormsAt hForms (by decide +kernel) hLeads (by rfl) (by decide)
  have hSame := Generator.generate_commute plainGenerator "m" "schema.tw" "form.tw" shared _ _ _ _
    schemaValue formsValue ["A", "B"] ["A"] hProper (by decide +kernel)
    (fun location _ => hProper.noLinkBelow hPlain location) hSchemaStored.beside hFormsStored.beside
    (by simp) (by decide +kernel) (.of_isSuccess hFirst) (.of_isSuccess hNext)
    (.of_isSuccess hOther) (.of_isSuccess hLast)
  exact ⟨schemaValue, formsValue, _, _, _, _, hSchemaStored.beside, hFormsStored.beside,
    .of_isSuccess hFirst, .of_isSuccess hNext, .of_isSuccess hOther, .of_isSuccess hLast, hRuleset,
    hOld, hNoRuleset, hNotOld, hSame⟩

end EntityGen
