import EntityGen.Proofs.Generation.Reported
import EntityGen.Proofs.Generation.Scoped

/-! Rulesets and runs of a schema. The directories in the mappers directory mirror the schema, and a
run takes away those of models that it does not have, with the rulesets that a run of forms has left
there. All other rulesets stay as they are. -/

namespace EntityGen

open Files (FileTree Location Path)

variable {generator : Generator} {directory path : Path} {options : Options} {location : Location}
  {workspace mid last : Workspace} {report : Report} {artifact : Artifact} {schema : Schema}
  {tree before after : FileTree}

namespace Files.FileTree

theorem Rewrites.grows (h : before.Rewrites after) : before.Grows after where
  within := h.within
  links := fun _ _ => h.back.link

end Files.FileTree

/-- A ruleset in a mappers directory without links, where its path leads. -/
structure Artifact.StandsAt (artifact : Artifact) (directory : Path) (location : Location)
    (content : ByteArray) (tree : FileTree) : Prop where
  ruleset : artifact.kind = .ruleset
  belongs : artifact.BelongsTo directory [Naming.stem artifact.model]
  anchored : tree.Anchored directory location
  leads : tree.locate artifact.path = .ok (.taken (artifact.place location))
  node : tree.node? (artifact.place location) = some (.file content)

/-- A run of forms that succeeds gets to the files if its report has one. -/
theorem Generator.generateForms_reported
    (h : generator.generateForms directory path options workspace = (.ok report, last))
    (hReported : artifact ∈ report.written ++ report.unchanged) :
    ∃ forms, (loadForms path workspace).1 = .ok forms ∧ options.selectForms forms ≠ [] := by
  have hWay := generator.formsRun directory path options workspace
  generalize hRun : generator.generateForms directory path options workspace = run at hWay
  cases hWay with
  | unloaded =>
    rw [h] at hRun
    cases hRun
  | unselected =>
    rw [h] at hRun
    obtain rfl : report = {} := Except.ok.inj (Prod.mk.inj hRun).1
    simp at hReported
  | emitted load selected => exact ⟨_, load, selected⟩

/-- After a run of forms each ruleset in its report is there. -/
theorem Generator.generateForms_stands (hProper : workspace.tree.Proper)
    (hFormatter : generator.OnlyRewrites)
    (hLinks : ∀ location, (workspace.tree.createDirAll directory).1.Leads directory location →
      workspace.tree.NoLinkBelow location)
    (h : generator.generateForms directory path options workspace = (.ok report, last))
    (hReported : artifact ∈ report.written ++ report.unchanged) :
    ∃ location content, artifact.StandsAt directory location content last.tree := by
  obtain ⟨forms, hLoad, hSelected⟩ := generateForms_reported h hReported
  obtain ⟨value, -, hRead⟩ := loadForms_ok_iff.mp hLoad
  obtain ⟨start, removed, cleared, emitted, location, -, hStart, hClear, hTake, hLast⟩ :=
    generateForms_cleared hProper hLoad hLinks hSelected h
  obtain ⟨⟨write, hWrite, rfl⟩, hFile⟩ := Job.take_reported hTake hReported (by simp)
  have hBelongs := Forms.belongsTo hRead generator.imports directory options
  have hFills : FileTree.Fills directory location (canonicalDirs (forms.models.map (·.1)))
      cleared.tree emitted.tree :=
    Job.take_fills (fun other hOther => (hBelongs other hOther).eq_ofModel) hTake
  have hOwn := hBelongs write hWrite
  rw [Options.writes_formSteps] at hWrite
  obtain ⟨model, -, rfl⟩ := List.mem_map.mp hWrite
  have hRewrites := formatted_rewrites hFormatter directory options emitted.tree
  rw [← hLast] at hRewrites
  have hEmitted := hFills.anchored (Job.removeStale_clears hStart hClear).1
  have hAnchored := hEmitted.grows hRewrites.grows (hRewrites.proper hEmitted.proper)
  obtain ⟨place, content, hPlace, hNode⟩ :=
    Files.FileTree.hasFile_eq_true_iff.mp (hRewrites.within.hasFile hFile)
  obtain rfl := hOwn.place_of_locate hAnchored hPlace
  exact ⟨location, content, rfl, ⟨hOwn.1, by simp, hOwn.2.2⟩, hAnchored, hPlace, hNode⟩

namespace Artifact.StandsAt

variable {content : ByteArray}

section

variable (h : artifact.StandsAt directory location content tree)
include h

theorem isStale_iff {canonical : List String} :
    tree.IsStale location canonical (Naming.stem artifact.model) ↔
      Naming.stem artifact.model ∉ canonical ∧ isSetAside (Naming.stem artifact.model) = false :=
  ⟨fun hStale => ⟨hStale.gone, hStale.ofModel⟩,
    fun hGone => ⟨(h.belongs.found h.anchored h.leads).2.2.2, hGone.2, hGone.1⟩⟩

/-- A ruleset stays when other directories are taken away and directories are added. -/
theorem node_of_gains {names canonical : List String}
    (hStale : ∀ name ∈ names, tree.IsStale location canonical name)
    (hGains : (tree.without (DocumentKind.schema.loses location names)).Gains after)
    (hKept : Naming.stem artifact.model ∈ canonical ∨
      isSetAside (Naming.stem artifact.model) = true) :
    after.node? (artifact.place location) = some (.file content) := by
  have hLost : DocumentKind.schema.loses location names (artifact.place location) = false := by
    refine Bool.eq_false_iff.mpr fun hLost => ?_
    obtain ⟨hGone, hOfModel⟩ := h.isStale_iff.mp (hStale _ (DocumentKind.loses_schema_below.mp hLost))
    rcases hKept with hStem | hAside
    · exact hGone hStem
    · rw [hAside] at hOfModel
      cases hOfModel
  refine hGains.kept ?_
  rw [FileTree.node?_without (DocumentKind.loses_root _), hLost]
  exact h.node

end

variable (h : artifact.StandsAt directory location content workspace.tree)
  (hLoad : (loadSchema path workspace).1 = .ok schema) (hResolved : schema.dangling? = none)
include h hLoad hResolved

/-- A run of a schema that fails keeps the rulesets of models that the schema has. -/
theorem node_of_failed {fault : Fault}
    (hRun : generator.generateSchema directory path options workspace = (.error fault, last))
    (hKept : Naming.stem artifact.model ∈ schema.dirs ∨
      isSetAside (Naming.stem artifact.model) = true) :
    last.tree.node? (artifact.place location) = some (.file content) := by
  have hWay := generator.schemaRun directory path options workspace
  rw [hRun] at hWay
  generalize hEnd : ((.error fault, last) : Except Fault Report × Workspace) = run at hWay
  cases hWay with
  | unloaded load => simp [hLoad] at load
  | empty => cases hEnd
  | @dangling read _ _ load dangling =>
    obtain rfl : schema = read := by simpa [hLoad] using load
    simp [hResolved] at dangling
  | unselected => cases hEnd
  | @emitted read passed load _ _ kept =>
    obtain rfl : schema = read := by simpa [hLoad] using load
    have hEmission := Generator.emitModels_run (kept ▸ h.anchored.proper) hEnd.symm
    rw [kept] at hEmission
    have hStart := h.anchored.leads.createDirAll_eq_self
    cases hEmission with
    | unlisted gains => exact gains.kept h.node
    | uncleared leads stale gains =>
      rw [hStart] at leads stale gains
      obtain rfl := h.anchored.leads.unique leads
      exact h.node_of_gains stale gains hKept

/-- After a run of a schema that gets to the files and succeeds, a ruleset is as it was just if the
schema has its model or its directory is set aside. -/
theorem kept_iff (hSelected : options.selectModels schema ≠ [])
    (hRun : generator.generateSchema directory path options workspace = (.ok report, last)) :
    ∃ emitted : FileTree, last.tree = generator.formatted directory options emitted ∧
      (emitted.node? (artifact.place location) = some (.file content) ↔
        Naming.stem artifact.model ∈ schema.dirs ∨
          isSetAside (Naming.stem artifact.model) = true) ∧
      (emitted.node? (artifact.place location) = some (.file content) →
        emitted.locate artifact.path = .ok (.taken (artifact.place location))) := by
  have hNames := @Options.selectModels_names options path workspace schema hLoad
  have hStart := h.anchored.leads.createDirAll_eq_self
  obtain ⟨_, changed, made, emitted, other, -, -, hAligned, -, hLaid, hTake, hLast⟩ :=
    Generator.generateSchema_aligned h.anchored.proper hLoad hResolved
      (fun other hLeads => by
        rw [hStart] at hLeads
        exact h.anchored.leads.unique hLeads ▸ h.anchored.noLink) hSelected hRun
  rw [hStart] at hAligned
  obtain rfl := h.anchored.leads.unique hAligned.leads
  have hBelongs := options.steps_belong directory hNames.2
  have hEmitted : emitted.tree.Anchored directory location :=
    (Job.take_fills (fun write hWrite => (hBelongs write hWrite).eq_ofModel) hTake).anchored
      hLaid.anchored
  -- A run of a schema puts no file in the place of a ruleset.
  have hNotPlaced : ∀ write ∈ Step.writes (options.steps directory schema),
      emitted.tree.locate write.1.path ≠ .ok (.taken (artifact.place location)) := by
    intro write hWrite hPlace
    have hKind := (of_place_eq ((hBelongs write hWrite).place_of_locate hEmitted hPlace)).2
    rw [h.ruleset] at hKind
    obtain ⟨model, -, rfl | rfl⟩ := mem_modelFiles_iff.mp
      (options.steps_subset directory schema write hWrite) <;> cases hKind
  have hNode : emitted.tree.node? (artifact.place location) = some (.file content) ↔
      made.tree.node? (artifact.place location) = some (.file content) := by
    rw [Job.take_file_iff hTake (options.steps_nodup directory hLoad) (by simp [Report.Settles])]
    constructor
    · rintro (⟨text, hText, -⟩ | ⟨-, hMade⟩)
      · obtain ⟨other, hWrite, hPlaces⟩ := hText.places
        exact absurd hPlaces.2 (hNotPlaced _ hWrite)
      · exact hMade
    · exact fun hMade => .inr ⟨fun write hWrite hPlaces => hNotPlaced write hWrite hPlaces.2, hMade⟩
  have hRemoved : Naming.stem artifact.model ∉ changed.removed ↔
      Naming.stem artifact.model ∈ schema.dirs ∨
        isSetAside (Naming.stem artifact.model) = true := by
    rw [hAligned.stale, h.isStale_iff, not_and_or, not_not, Bool.not_eq_false]
  have hMade : made.tree.node? (artifact.place location) = some (.file content) ↔
      Naming.stem artifact.model ∉ changed.removed := by
    rw [hAligned.file_iff h.node, ← Bool.not_eq_true, place, DocumentKind.loses_schema_below]
  refine ⟨emitted.tree, hLast, hNode.trans (hMade.trans hRemoved), fun hFound => ?_⟩
  have hStem : made.tree.node? (location ++ [Naming.stem artifact.model]) = some .directory :=
    hAligned.kept (h.belongs.found h.anchored h.leads).2.2.2 (Bool.eq_false_iff.mpr fun hLost =>
      hMade.mp (hNode.mp hFound) (DocumentKind.loses_schema_below.mp hLost))
  exact h.belongs.locate_of_node hEmitted ((Job.take_grows hTake).within.directory hStem)
    (Files.FileTree.locate_eq_ok_iff.mp h.leads).1 hFound

end Artifact.StandsAt

/-- What a run of a schema leaves of the rulesets that a run of forms has written or found unchanged,
in a mappers directory without links, before the formatter is run. Whatever the outcome, a ruleset
stays as it is if the schema has a model of its stem or its directory is set aside. And after a
success it is as it was just if this is so, or if the schema was asked for none of its models. -/
theorem Generator.generateSchema_keeps_rulesets (generator : Generator)
    (directory formsPath path : Path) (formsOptions options : Options) (start mid last : Workspace)
    (report : Report) (result : Except Fault Report) (schema : Schema)
    (hProper : start.tree.Proper) (hFormatter : generator.OnlyRewrites)
    (hLinks : ∀ location, (start.tree.createDirAll directory).1.Leads directory location →
      start.tree.NoLinkBelow location)
    (hForms : generator.generateForms directory formsPath formsOptions start = (.ok report, mid))
    (hLoad : (loadSchema path mid).1 = .ok schema) (hResolved : schema.dangling? = none)
    (hRun : generator.generateSchema directory path options mid = (result, last)) :
    ∀ artifact ∈ report.written ++ report.unchanged, ∃ location content,
      artifact.StandsAt directory location content mid.tree ∧ ∃ emitted : FileTree,
        (last.tree = emitted ∨ last.tree = generator.formatted directory options emitted) ∧
        let place := artifact.place location
        let Kept := Naming.stem artifact.model ∈ schema.dirs ∨
          isSetAside (Naming.stem artifact.model) = true
        (Kept → emitted.node? place = some (.file content)) ∧
        ∀ after, result = .ok after →
          (emitted.locate artifact.path = .ok (.taken place) ∧
              emitted.node? place = some (.file content) ↔
            options.selectModels schema = [] ∨ Kept) := by
  intro artifact hReported
  obtain ⟨location, content, hStands⟩ :=
    generateForms_stands hProper hFormatter hLinks hForms hReported
  refine ⟨location, content, hStands, ?_⟩
  rcases result with fault | after
  · exact ⟨last.tree, .inl rfl, hStands.node_of_failed hLoad hResolved hRun, nofun⟩
  by_cases hSelected : options.selectModels schema = []
  · obtain ⟨idle, hIdle, hSame⟩ : ∃ idle, generator.generateSchema directory path options mid =
        (.ok {}, idle) ∧ idle.tree = mid.tree :=
      generator.generateSchema_unasked hLoad hResolved hSelected
    obtain rfl : idle = last := (Prod.mk.inj (hIdle.symm.trans hRun)).2
    exact ⟨mid.tree, .inl hSame, fun _ => hStands.node, fun _ _ =>
      ⟨fun _ => .inl hSelected, fun _ => ⟨hStands.leads, hStands.node⟩⟩⟩
  · obtain ⟨emitted, hLast, hIff, hLeads⟩ := hStands.kept_iff hLoad hResolved hSelected hRun
    refine ⟨emitted, .inr hLast, hIff.mpr, fun _ _ => ?_⟩
    simp only [hSelected, false_or]
    exact ⟨fun hKept => hIff.mp hKept.2, fun hKept => ⟨hLeads (hIff.mpr hKept), hIff.mpr hKept⟩⟩

/-- A schema of one model, forms of that model and of another one, and what else is in the tree. -/
def withForms (entries : List (Location × Files.Node)) : Workspace where
  tree :=
    { entries := [(["schema.tw"], .file (String.toUTF8 "A:\n  type: model\n")),
        (["form.tw"], .file (String.toUTF8 "A: {}\nB: {}\n"))] ++ entries }

/-- Of the rulesets of two models, that of the model that the schema has is kept, and the other one is
not. -/
theorem generateSchema_keeps_own : ∃ report mid after last,
    plainGenerator.generateForms "m" "form.tw" {} (withForms []) = (.ok report, mid) ∧
    plainGenerator.generateSchema "m" "schema.tw" {} mid = (.ok after, last) ∧
    report.written.map (·.model) = ["A", "B"] ∧
    ∀ artifact ∈ report.written, ∃ location content,
      artifact.StandsAt "m" location content mid.tree ∧
        (last.tree.locate artifact.path = .ok (.taken (artifact.place location)) ∧
            last.tree.node? (artifact.place location) = some (.file content) ↔
          artifact.model = "A") := by
  have hEvaluated : (match plainGenerator.generateForms "m" "form.tw" {} (withForms []) with
      | (.ok report, mid) =>
        (plainGenerator.generateSchema "m" "schema.tw" {} mid).1.isOk &&
          report.written.map (·.model) == ["A", "B"] &&
          (loadSchema "schema.tw" mid).1.toOption.any fun schema =>
            schema.dangling?.isNone && schema.models.map (·.1) == ["A"]
      | (.error _, _) => false) = true := by
    decide +kernel
  rcases hForms : plainGenerator.generateForms "m" "form.tw" {} (withForms []) with
    ⟨fault | report, mid⟩
  · simp [hForms] at hEvaluated
  simp only [hForms, Bool.and_eq_true, beq_iff_eq] at hEvaluated
  obtain ⟨⟨hOk, hModels⟩, hSchema⟩ := hEvaluated
  rcases hRun : plainGenerator.generateSchema "m" "schema.tw" {} mid with ⟨fault | after, last⟩
  · simp [hRun, Except.isOk, Except.toBool] at hOk
  rcases hLoad : (loadSchema "schema.tw" mid).1 with cause | schema
  · simp [hLoad, Except.toOption] at hSchema
  simp only [hLoad, Except.toOption, Option.any_some, Bool.and_eq_true, Option.isNone_iff_eq_none,
    beq_iff_eq] at hSchema
  obtain ⟨hResolved, hNames⟩ := hSchema
  have hDirs : schema.dirs = ["a"] := by rw [Schema.dirs, hNames]; decide +kernel
  have hSelected : Options.selectModels {} schema ≠ [] :=
    Options.selectModels_ne_nil ⟨"A", by simp [hNames], rfl⟩
  have hProper : (withForms []).tree.Proper := by decide
  have hPlain : ∀ entry ∈ (withForms []).tree.entries, ∀ target, entry.2 ≠ .link target := by
    simp [withForms]
  refine ⟨report, mid, after, last, rfl, hRun, hModels, fun artifact hWritten => ?_⟩
  obtain ⟨location, content, hStands, emitted, hLast, -, hKept⟩ :=
    Generator.generateSchema_keeps_rulesets plainGenerator "m" "form.tw" "schema.tw" {} {}
      (withForms []) mid last report (.ok after) schema hProper
      (fun _ _ tree => ⟨.refl tree, .refl tree, id⟩)
      (fun location _ => hProper.noLinkBelow hPlain location) hForms hLoad hResolved hRun artifact
      (List.mem_append_left _ hWritten)
  obtain rfl : last.tree = emitted := by simpa [Generator.formatted] using hLast
  have hModel : artifact.model = "A" ∨ artifact.model = "B" := by
    simpa [hModels] using List.mem_map_of_mem (f := (·.model)) hWritten
  refine ⟨location, content, hStands, (hKept after rfl).trans ?_⟩
  rw [hDirs]
  rcases hModel with hModel | hModel <;> rw [hModel]
  · simp [show Naming.stem "A" = "a" by decide +kernel]
  · simp [hSelected, show Naming.stem "B" = "b" by decide +kernel,
      show isSetAside "b" = false by decide +kernel]

/-- A run of a schema after one of forms leaves every ruleset as it is that the latter reports. -/
def Generator.KeepsRulesets (generator : Generator) (directory formsPath path : Path)
    (start : Workspace) : Prop :=
  ∀ report mid after last, generator.generateForms directory formsPath {} start = (.ok report, mid) →
    generator.generateSchema directory path {} mid = (.ok after, last) →
      ∀ artifact ∈ report.written ++ report.unchanged, ∀ content,
        mid.tree.read artifact.path = .ok content → last.tree.read artifact.path = .ok content

/-- A link in the mappers directory that leads from the file of a model to its ruleset. -/
def linkedRuleset : List (Location × Files.Node) :=
  [(["m"], .directory), (["m", "a"], .directory), (["m", "a", "a.model.ts"], .link "a.form.ts")]

/-- The ruleset of a model that the schema does not have is lost, and so is one that a link leads to. -/
theorem rulesets_lost : ¬ plainGenerator.KeepsRulesets "m" "form.tw" "schema.tw" (withForms []) ∧
    ¬ plainGenerator.KeepsRulesets "m" "form.tw" "schema.tw" (withForms linkedRuleset) := by
  have hLost (start : Workspace) (path : Path)
      (h : (match plainGenerator.generateForms "m" "form.tw" {} start with
        | (.ok report, mid) =>
          match plainGenerator.generateSchema "m" "schema.tw" {} mid with
          | (.ok _, last) => report.written.any fun artifact => artifact.path == path &&
              (mid.tree.read path).toOption.any fun content => !last.tree.holds path content
          | (.error _, _) => false
        | (.error _, _) => false) = true) :
      ¬ plainGenerator.KeepsRulesets "m" "form.tw" "schema.tw" start := by
    intro hKeeps
    rcases hForms : plainGenerator.generateForms "m" "form.tw" {} start with ⟨fault | report, mid⟩
    · simp [hForms] at h
    rcases hSchema : plainGenerator.generateSchema "m" "schema.tw" {} mid with ⟨fault | after, last⟩
    · simp [hForms, hSchema] at h
    simp only [hForms, hSchema, List.any_eq_true, Bool.and_eq_true, beq_iff_eq] at h
    obtain ⟨artifact, hWritten, rfl, hOther⟩ := h
    rcases hRead : mid.tree.read artifact.path with cause | content
    · simp [hRead, Except.toOption] at hOther
    · have hKept := hKeeps report mid after last hForms hSchema artifact
        (List.mem_append_left _ hWritten) content hRead
      simp [hRead, Except.toOption, Files.FileTree.holds_eq_true_iff.mpr hKept] at hOther
  exact ⟨hLost _ "m/b/b.form.ts" (by decide +kernel), hLost _ "m/a/a.form.ts" (by decide +kernel)⟩

end EntityGen
