import EntityGen.Proofs.Generation.Again
import EntityGen.Proofs.Generation.Laying
import EntityGen.Proofs.Generation.Scoped

/-! What one run without a failure makes of the file tree, also where models share a stem. A run of a
schema brings the directories into line and puts its files there; a run of forms takes away the
rulesets that linger and puts its own there. Both leave documents outside the directories of models
for the next run. -/

namespace EntityGen

open Files (FileTree IsSegment Location Path)

variable {path : Path} {location place : Location} {canonical removed : List String} {name : String}
  {files : List (Artifact × String)} {before made after last : FileTree} {content : ByteArray}

/-! ### What a run leaves for the next one -/

theorem Files.FileTree.Sheds.sameLinks (h : before.Sheds after) : before.SameLinks after :=
  fun _ _ => ⟨fun hLink => h.kept hLink (by simp), h.loses.links _ _⟩

/-- The path of the mappers directory leads where it led, the links are the same, and files are as they
were that are not in the directories of models. -/
structure Leaves (path : Path) (location : Location) (before after : FileTree) : Prop where
  anchored : after.Anchored path location
  sameLinks : before.SameLinks after
  workingDir : after.workingDir = before.workingDir
  files : ∀ place content, before.node? place = some (.file content) →
    (∀ name below, below ≠ [] → place ≠ location ++ name :: below) →
      after.node? place = some (.file content)

namespace Leaves

variable (h : Leaves path location before after)
include h

theorem createDirAll_eq_self : after.createDirAll path = (after, none) :=
  h.anchored.leads.createDirAll_eq_self

theorem noLinkBelow : ∀ other, (after.createDirAll path).1.Leads path other →
    after.NoLinkBelow other := by
  intro other hLeads
  rw [h.createDirAll_eq_self] at hLeads
  exact h.anchored.leads.unique hLeads ▸ h.anchored.noLink

end Leaves

/-- Directories of models were brought into line, and then files were put there. -/
structure Realigned (path : Path) (location : Location) (canonical removed : List String)
    (files : List (Artifact × String)) (before made after : FileTree) : Prop where
  aligned : Aligned path location canonical removed before made
  overlaid : made.Overlaid after location files

theorem Realigned.leaves (h : Realigned path location canonical removed files before made after)
    (hLink : before.NoLinkBelow location) (hSegments : ∀ name ∈ canonical, IsSegment name)
    (hSome : canonical ≠ []) : Leaves path location before after where
  anchored := (h.aligned.laidOut hLink hSegments hSome).anchored.grows h.overlaid.grows
    h.overlaid.proper
  sameLinks := (h.aligned.sameLinks hLink).trans h.overlaid.grows.sameLinks
  workingDir := h.overlaid.grows.within.workingDir.trans h.aligned.workingDir
  files := by
    intro place content hNode hOutside
    refine h.overlaid.file_kept (h.aligned.kept hNode (Bool.eq_false_iff.mpr fun hLost => ?_))
      fun file _ => hOutside _ _ (by simp)
    obtain ⟨name, hName, below, rfl⟩ := DocumentKind.loses_schema.mp hLost
    rcases below with _ | ⟨next, below⟩
    · -- A stale directory is a directory.
      rw [((h.aligned.stale name).mp hName).found] at hNode
      cases hNode
    · exact hOutside name (next :: below) (by simp) rfl

/-- Rulesets were taken away, and then files were put into directories of models. -/
structure Resupplied (path : Path) (location : Location) (canonical removed : List String)
    (files : List (Artifact × String)) (before made after : FileTree) : Prop where
  cleared : Cleared path location canonical removed before made
  overlaid : made.Overlaid after location files

theorem Resupplied.leaves (h : Resupplied path location canonical removed files before made after)
    (hAnchored : before.Anchored path location) : Leaves path location before after where
  anchored := by
    have hCleared := hAnchored.sheds h.cleared.sheds (h.cleared.tree ▸ hAnchored.proper.without _)
    exact hCleared.grows h.overlaid.grows h.overlaid.proper
  sameLinks := h.cleared.sheds.sameLinks.trans h.overlaid.grows.sameLinks
  workingDir := h.overlaid.grows.within.workingDir.trans h.cleared.sheds.workingDir
  files := by
    intro place content hNode hOutside
    refine h.overlaid.file_kept ?_ fun file _ => hOutside _ _ (by simp)
    rw [h.cleared.node?, if_neg, hNode]
    intro hLost
    obtain ⟨name, -, hPlace⟩ := DocumentKind.loses_forms.mp hLost
    exact hOutside name _ (by simp) hPlace

/-- A document that can be generated is in a file tree, outside the directories in the mappers
directory. -/
structure DocumentKind.Beside (kind : DocumentKind) (directory path : Path) (value : Yaml.Value)
    (names : List String) (tree : FileTree) : Prop where
  document : DocumentAt tree path value
  models : kind.Models value names
  outside : ∀ location place, (tree.createDirAll directory).1.Leads directory location →
    tree.locate path = .ok (.taken place) → ∀ name below, below ≠ [] →
      place ≠ location ++ name :: below

theorem DocumentKind.Stored.beside {kind : DocumentKind} {directory : Path} {value : Yaml.Value}
    {names : List String} (h : kind.Stored directory path value names before) :
    kind.Beside directory path value names before :=
  ⟨h.document, h.models, h.outside⟩

theorem DocumentKind.forms_models_of_load {workspace : Workspace} {names : List String}
    (h : ((loadForms path workspace).1.toOption.any fun forms =>
      forms.models.map (·.1) == names) = true) :
    ∃ value, DocumentAt workspace.tree path value ∧ DocumentKind.forms.Models value names := by
  rcases hLoad : (loadForms path workspace).1 with fault | forms
  · simp [hLoad, Except.toOption] at h
  simp only [hLoad, Except.toOption, Option.any_some, beq_iff_eq] at h
  obtain ⟨value, hDocument, hRead⟩ := loadForms_ok_iff.mp hLoad
  exact ⟨value, hDocument, forms, hRead, h.symm⟩

/-- Where the next run finds a document, it finds the one that was there. -/
theorem DocumentKind.Beside.document_after {kind : DocumentKind} {directory : Path}
    {value : Yaml.Value} {names : List String}
    (h : kind.Beside directory path value names before)
    (hLeads : (before.createDirAll directory).1.Leads directory location)
    (hLeaves : Leaves directory location (before.createDirAll directory).1 after)
    (hFound : ∃ other, DocumentAt after path other) : DocumentAt after path value := by
  obtain ⟨other, hOther⟩ := hFound
  obtain ⟨found, hAfter⟩ := hOther.locate
  have hGains := before.createDirAll_gains directory
  refine h.document.transfer fun place content hPlace hNode => ?_
  obtain rfl := Files.FileTree.locate_same_place (hGains.grows.sameLinks.trans hLeaves.sameLinks)
    (hLeaves.workingDir.trans hGains.workingDir) hPlace hAfter
  exact ⟨hAfter, hLeaves.files place content (hGains.kept hNode) (h.outside location place hLeads hPlace)⟩

/-! ### Runs -/

theorem Generator.generateForms_document {generator : Generator} {directory : Path}
    {options : Options} {workspace last : Workspace} {report : Report}
    (h : generator.generateForms directory path options workspace = (.ok report, last)) :
    ∃ value, DocumentAt workspace.tree path value := by
  have hWay := generator.formsRun directory path options workspace
  rw [h] at hWay
  have hLoaded : ∃ forms, (loadForms path workspace).1 = .ok forms := by
    generalize hEnd : (Except.ok report, last) = run at hWay
    cases hWay with
    | unloaded => cases hEnd
    | unselected load => exact ⟨_, load⟩
    | emitted load => exact ⟨_, load⟩
  obtain ⟨forms, hLoad⟩ := hLoaded
  obtain ⟨value, hDocument, -⟩ := loadForms_ok_iff.mp hLoad
  exact ⟨value, hDocument⟩

/-- A run of all models without the formatter succeeds and has no failure. -/
def Generator.Completes (generator : Generator) (kind : DocumentKind) (directory path : Path)
    (before after : Workspace) : Prop :=
  ∃ report, generator.generate kind directory path {} before = (.ok report, after) ∧
    report.failures = []

namespace Generator.Completes

variable {generator : Generator} {directory : Path} {workspace last : Workspace} {schema : Schema}
  {forms : Forms} {value : Yaml.Value}

theorem of_isSuccess {kind : DocumentKind}
    (h : (generator.generate kind directory path {} workspace).1.toOption.any (·.isSuccess) = true) :
    generator.Completes kind directory path workspace
      (generator.generate kind directory path {} workspace).2 := by
  rcases hRun : generator.generate kind directory path {} workspace with ⟨fault | report, after⟩
  · simp [hRun, Except.toOption] at h
  · exact ⟨report, hRun, by simpa [hRun, Except.toOption, Report.isSuccess] using h⟩

/-- A run that completes has found a document. -/
theorem document {kind : DocumentKind}
    (h : generator.Completes kind directory path workspace last) :
    ∃ value, DocumentAt workspace.tree path value := by
  obtain ⟨report, hRun, -⟩ := h
  cases kind with
  | schema => exact generateSchema_document hRun
  | forms => exact generateForms_document hRun

variable (hProper : workspace.tree.Proper)
  (hLinks : ∀ location, (workspace.tree.createDirAll directory).1.Leads directory location →
    workspace.tree.NoLinkBelow location)
  (hDocument : DocumentAt workspace.tree path value)
include hProper hLinks hDocument

theorem realigned (h : generator.Completes .schema directory path workspace last)
    (hRead : Schema.ofValue value = .ok schema) (hResolves : schema.Resolves value)
    (hSome : schema.models ≠ []) :
    ∃ location removed made,
      (workspace.tree.createDirAll directory).1.Anchored directory location ∧
      Realigned directory location schema.dirs removed (modelFiles directory schema.models)
        (workspace.tree.createDirAll directory).1 made last.tree := by
  obtain ⟨report, hRun, hFailures⟩ := h
  have hLoad := loadSchema_ok_iff.mpr ⟨value, hDocument, hRead⟩
  have hAll : Options.selectModels {} schema = schema.models := by
    simp [Options.selectModels, Options.includes]
  obtain ⟨_, changed, made, emitted, location, -, -, hAligned, hNoLink, hLaid, hTake, hLast⟩ :=
    generateSchema_aligned hProper hLoad ((Schema.dangling?_eq_none_iff hRead).mpr hResolves) hLinks
      (hAll ▸ hSome) hRun
  have hWrites := Options.writes_steps {} directory schema
  rw [hAll] at hWrites
  have hNames := (@Options.selectModels_names {} path workspace schema hLoad).2
  have hOverlaid := Job.take_overlays hLaid.anchored
    (by
      rw [hWrites]
      exact Schema.belongsTo hNames) hTake hFailures
  rw [hWrites] at hOverlaid
  have hFormatted : last.tree = emitted.tree := hLast.trans (formatted_of_not rfl _)
  exact ⟨location, changed.removed, made.tree,
    ⟨FileTree.createDirAll_proper hProper directory, hAligned.leads, hNoLink⟩, hAligned,
    hFormatted ▸ hOverlaid⟩

theorem resupplied (h : generator.Completes .forms directory path workspace last)
    (hRead : Forms.ofValue value = .ok forms) (hSome : forms.models ≠ []) :
    ∃ location removed made,
      (workspace.tree.createDirAll directory).1.Anchored directory location ∧
      Resupplied directory location (canonicalDirs (forms.models.map (·.1))) removed
        (formFiles generator.imports directory forms.models)
        (workspace.tree.createDirAll directory).1 made last.tree := by
  obtain ⟨report, hRun, hFailures⟩ := h
  have hLoad := loadForms_ok_iff.mpr ⟨value, hDocument, hRead⟩
  have hAll : Options.selectForms {} forms = forms.models := by
    simp [Options.selectForms, Options.includes]
  obtain ⟨start, removed, made, emitted, location, hStart, hAnchored, hClear, hTake, hLast⟩ :=
    generateForms_cleared hProper hLoad hLinks (hAll ▸ hSome) hRun
  have hWrites := Options.writes_formSteps {} generator.imports directory forms
  rw [hAll] at hWrites
  have hOverlaid := Job.take_overlays (Job.removeStale_clears hAnchored hClear).1
    (Forms.belongsTo hRead generator.imports directory {}) hTake hFailures
  rw [hWrites] at hOverlaid
  have hFormatted : last.tree = emitted.tree := hLast.trans (formatted_of_not rfl _)
  refine ⟨location, removed, made.tree, hStart ▸ hAnchored, ?_, hFormatted ▸ hOverlaid⟩
  exact hStart ▸ (Job.removeStale_clears hAnchored hClear).2.2 removed rfl

end Generator.Completes

end EntityGen
