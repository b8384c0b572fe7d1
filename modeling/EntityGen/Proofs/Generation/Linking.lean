import EntityGen.Proofs.Generation.SchemaRuns
import EntityGen.Proofs.TypeScript.Class
import EntityGen.Proofs.TypeScript.TopLevel

/-! Imports between the files of a schema. If its models have different stems and different classes,
and its references lead to models, a file declares or imports each class that is the type of one of
its members, and each import leads to a file that a run has left on disk, and that declares what is
imported. -/

namespace EntityGen

open Files (FileTree Path)
open TypeScript

/-- The files that a model has: of its entity, and of its transfer object. -/
inductive FileForm where
  | model
  | transfer

namespace FileForm

def kind : FileForm → ArtifactKind
  | model => .model
  | transfer => .transfer

/-- What the names of classes end in. -/
def suffix : FileForm → String
  | model => "Model"
  | transfer => "DTO"

def lines : FileForm → String → Model → List String
  | model, name, definition => modelLines (.ofModel name definition)
  | transfer, name, definition => transferLines (.ofModel name definition)

/-- The statements about the model itself. -/
def own : FileForm → String → List Statement
  | model, name => [.exportClass (modelClass (Naming.names name)), plainType (Naming.names name)]
  | transfer, name =>
    [ownImport (Naming.names name), .exportClass (transferClass (Naming.names name))]

/-- The import of a related model's class. -/
def importOf (form : FileForm) (target : String) : Statement :=
  relatedImport form.suffix form.kind.suffix (Naming.names target)

/-- The imports of related classes, in the order of first use. -/
def imports (form : FileForm) (name : String) (model : Model) : List Statement :=
  (model.related name).eraseDups.map form.importOf

def statements (form : FileForm) (name : String) (model : Model) : List Statement :=
  form.imports name model ++ form.own name

end FileForm

/-! ### Where specifiers lead -/

/-- Where the parts of a specifier lead, by their names alone. -/
def follow (place : List String) (parts : List String) : List String :=
  parts.foldl (fun place part =>
    if part = "." then place else if part = ".." then place.dropLast else place ++ [part]) place

/-- In the file at a path, a specifier means the file at another path. -/
def Means (path : Path) (specifier : String) (target : Path) : Prop :=
  ∃ around, path.parent? = some around ∧
    follow around.steps (Text.parts '/' (specifier ++ ".ts")) = target.steps

section Specifiers

variable {name target : String} (hName : isModelName name = true)
  (hTarget : isModelName target = true) (directory : Path) (kind : ArtifactKind)

include hName in
theorem steps_modelDirectory :
    (Path.join directory (Naming.stem name)).steps = directory.steps ++ [Naming.stem name] :=
  Path.steps_join directory (Naming.stem_noSlash hName) (isIdle_stem hName)

include hName in
theorem steps_artifactPath : (artifactPath directory kind name).steps =
    directory.steps ++ [Naming.stem name, kind.fileName (Naming.stem name)] := by
  rw [artifactPath, Path.steps_join _ (ArtifactKind.fileName_noSlash kind (Naming.stem_noSlash hName))
    (isIdle_fileName kind), steps_modelDirectory hName, List.append_assoc]
  rfl

include hName hTarget in
/-- The specifier of a sibling means the sibling's file. -/
theorem means_sibling (other : ArtifactKind) :
    Means (artifactPath directory other name) (siblingSpecifier kind.suffix (Naming.names target))
      (artifactPath directory kind target) := by
  refine ⟨_, parent?_artifactPath directory other hName, ?_⟩
  have hStem := Naming.stem_noSlash hTarget
  have hText : siblingSpecifier kind.suffix (Naming.names target) ++ ".ts" =
      ".." ++ String.singleton '/' ++ Naming.stem target ++ String.singleton '/' ++
        kind.fileName (Naming.stem target) := by
    simp [siblingSpecifier, ArtifactKind.fileName, Naming.names, ← String.toList_inj]
  have hParts : Text.parts '/' ".." = [".."] := by decide
  rw [hText, Text.parts_append, Text.parts_append, hParts, Text.parts_of_notMem hStem,
    Text.parts_of_notMem (ArtifactKind.fileName_noSlash kind hStem), steps_modelDirectory hName,
    steps_artifactPath hTarget]
  have hHere : kind.fileName (Naming.stem target) ≠ "." := ArtifactKind.fileName_ne (by decide)
  have hUp : kind.fileName (Naming.stem target) ≠ ".." := ArtifactKind.fileName_ne (by decide)
  simp [follow, Naming.stem_ne_point hTarget, hHere, hUp]

include hName in
theorem means_own (other : ArtifactKind) :
    Means (artifactPath directory other name) (ownSpecifier (Naming.names name))
      (artifactPath directory .model name) := by
  refine ⟨_, parent?_artifactPath directory other hName, ?_⟩
  have hStem := Naming.stem_noSlash hName
  have hText : ownSpecifier (Naming.names name) ++ ".ts" =
      "." ++ String.singleton '/' ++ ArtifactKind.model.fileName (Naming.stem name) := by
    simp [ownSpecifier, ArtifactKind.fileName, ArtifactKind.suffix, Naming.names,
      ← String.toList_inj]
  have hParts : Text.parts '/' "." = ["."] := by decide
  rw [hText, Text.parts_append, hParts,
    Text.parts_of_notMem (ArtifactKind.fileName_noSlash .model hStem), steps_modelDirectory hName,
    steps_artifactPath hName]
  have hHere : ArtifactKind.model.fileName (Naming.stem name) ≠ "." :=
    ArtifactKind.fileName_ne (by decide)
  have hUp : ArtifactKind.model.fileName (Naming.stem name) ≠ ".." :=
    ArtifactKind.fileName_ne (by decide)
  simp [follow, hHere, hUp]

end Specifiers

/-! ### Statements of the files of a schema -/

/-- The models of a schema have different stems and different classes, and its references lead to
models. -/
structure Schema.Linkable (schema : Schema) : Prop where
  stems : (schema.models.map fun model => Naming.stem model.1).Nodup
  classes : (schema.models.map fun model => Naming.capitalized model.1).Nodup
  targets : ∀ reference ∈ schema.references, schema.hasModel reference.target = true

theorem Schema.linkable_iff (schema : Schema) : schema.Linkable ↔
    (schema.models.map fun model => Naming.stem model.1).Nodup ∧
      (schema.models.map fun model => Naming.capitalized model.1).Nodup ∧
      ∀ reference ∈ schema.references, schema.hasModel reference.target = true := by
  constructor
  · exact fun h => ⟨h.stems, h.classes, h.targets⟩
  · rintro ⟨hStems, hClasses, hTargets⟩
    exact ⟨hStems, hClasses, hTargets⟩

instance (schema : Schema) : Decidable schema.Linkable :=
  decidable_of_iff _ schema.linkable_iff.symm

namespace Schema.Linkable

variable {schema : Schema} (h : schema.Linkable)
include h

theorem resolved : schema.dangling? = none := by
  refine List.find?_eq_none.mpr fun reference hReference => ?_
  obtain ⟨model, hModel, hName⟩ := List.any_eq_true.mp (h.targets reference hReference)
  have hEntry := (models_sublist schema).subset (List.mem_map_of_mem hModel)
  obtain ⟨entry, hEntry, hSame⟩ := List.mem_map.mp hEntry
  have hContains : schema.contains reference.target = true :=
    List.any_eq_true.mpr ⟨entry, hEntry, by rw [hSame, hName]⟩
  simp [hContains]

theorem name_eq {first second : String × Model} (hFirst : first ∈ schema.models)
    (hSecond : second ∈ schema.models)
    (hClass : Naming.capitalized first.1 = Naming.capitalized second.1) : first = second :=
  List.inj_on_of_nodup_map h.classes hFirst hSecond hClass

variable {name : String} {model : Model} (hModel : (name, model) ∈ schema.models)
include hModel

/-- The targets of relationships are models of the schema. -/
theorem exists_target {relationship : String × Relationship}
    (hRelationship : relationship ∈ model.relationships) :
    ∃ definition, (relationship.2.target, definition) ∈ schema.models := by
  have hReference : ⟨name, relationship.1, relationship.2.target⟩ ∈ schema.references :=
    mem_references.mpr ⟨model, relationship.2, mem_models.mp hModel, hRelationship, rfl⟩
  obtain ⟨⟨found, definition⟩, hFound, hName⟩ := List.any_eq_true.mp (h.targets _ hReference)
  obtain rfl : found = relationship.2.target := by simpa using hName
  exact ⟨definition, hFound⟩

theorem exists_related {target : String} (hTarget : target ∈ model.related name) :
    ∃ definition, (target, definition) ∈ schema.models := by
  obtain ⟨relationship, hRelationship, rfl⟩ := List.mem_map.mp (List.mem_of_mem_filter hTarget)
  exact h.exists_target hModel hRelationship

/-- Models are imported once, as their classes are different. -/
theorem relatedImports_eq (suffix file : String) :
    relatedImports (Naming.names name) suffix file model.relations =
      (model.related name).eraseDups.map fun target =>
        relatedImport suffix file (Naming.names target) := by
  rw [relatedImports_relations]
  refine eraseDups_map fun first hFirst second hSecond hSame => ?_
  obtain ⟨_, hFirst⟩ := h.exists_related hModel hFirst
  obtain ⟨_, hSecond⟩ := h.exists_related hModel hSecond
  exact congrArg Prod.fst (h.name_eq hFirst hSecond (relatedImport_inj.mp hSame).1)

theorem opens {value : Yaml.Value} (hRead : ofValue value = .ok schema) (form : FileForm) :
    Opens (form.lines name model) (form.statements name model) := by
  have hImports := h.relatedImports_eq hModel form.suffix form.kind.suffix
  cases form with
  | model =>
    rw [FileForm.statements, show FileForm.imports .model name model = _ from hImports.symm]
    exact modelLines_opens hRead h.resolved hModel
  | transfer =>
    rw [FileForm.statements, show FileForm.imports .transfer name model = _ from hImports.symm]
    exact transferLines_opens hRead h.resolved hModel

end Schema.Linkable

namespace FileForm

variable (form : FileForm) (name : String) (model : Model)

theorem imports_importOf (target : String) :
    (form.importOf target).imports = [Naming.capitalized target ++ form.suffix] := rfl

/-- A file declares the class of its model. -/
theorem declares_own :
    Statement.exportClass (Naming.capitalized name ++ form.suffix) ∈ form.own name := by
  cases form with
  | model => exact List.mem_cons_self
  | transfer => exact List.mem_cons_of_mem _ List.mem_cons_self

/-- Of related models, classes are imported as types alone. -/
theorem exists_of_importType_mem {imported specifier : String}
    (h : Statement.importType imported specifier ∈ form.statements name model) :
    ∃ target ∈ model.related name, form.importOf target = .importType imported specifier := by
  rcases List.mem_append.mp h with hRelated | hOwn
  · obtain ⟨target, hTarget, hSame⟩ := List.mem_map.mp hRelated
    exact ⟨target, List.mem_eraseDups.mp hTarget, hSame⟩
  · cases form <;> simp [own, plainType, ownImport] at hOwn

/-- A file imports both of its own model, and from one file only. -/
theorem eq_of_importOwn_mem {imported plain specifier : String}
    (h : Statement.importOwn imported plain specifier ∈ form.statements name model) :
    Statement.importOwn imported plain specifier = ownImport (Naming.names name) := by
  rcases List.mem_append.mp h with hRelated | hOwn
  · obtain ⟨target, -, hSame⟩ := List.mem_map.mp hRelated
    cases hSame
  · cases form with
    | model => simp [own, plainType] at hOwn
    | transfer => simpa [own, ownImport] using hOwn

/-- A run writes the files of its models. -/
theorem file_mem (directory : Path) {models : List (String × Model)} {entry : String × Model}
    (h : entry ∈ models) :
    (Artifact.ofModel directory form.kind entry.1, fileText (form.lines entry.1 entry.2)) ∈
      modelFiles directory models := by
  refine mem_modelFiles_iff.mpr ⟨entry, h, ?_⟩
  cases form with
  | model =>
    rw [modelText]
    exact .inl rfl
  | transfer =>
    rw [transferText]
    exact .inr rfl

/-- What a file imports of its own model is not called like a related class. -/
theorem notMem_imports_own (target : String) :
    ∀ statement ∈ form.own name, Naming.capitalized target ++ form.suffix ∉ statement.imports := by
  cases form with
  | model => simp [own, plainType, Statement.imports]
  | transfer =>
    have hModel := (@append_ne_transfer "Model" (by simp) (Naming.capitalized name)
      (Naming.capitalized target)).symm
    have hPlain := (@append_ne_transfer "PlainModel" (by simp) (Naming.capitalized name)
      (Naming.capitalized target)).symm
    simp [own, ownImport, Statement.imports, modelClass, plainClass, Naming.names, suffix, hModel,
      hPlain]

end FileForm

/-! ### Types of members -/

/-- The types of values that are no models: those of primitive values, and of groups of them. -/
def IsValueType (type : String) : Prop :=
  type ∈ ["string", "number", "Date", "boolean", "any"] ∨ ∃ inner, type = braced inner

theorem isValueType_primitive (primitive : Primitive) : IsValueType primitive.typeScript := by
  refine .inl ?_
  cases primitive <;> simp [Primitive.typeScript]

theorem isValueType_wireType (wire : WireMember) : IsValueType (wireType wire) := by
  cases wire with
  | flat name type required => exact isValueType_primitive type
  | group key required properties => exact .inr ⟨_, rfl⟩

namespace FileForm

variable {form : FileForm} {name member type : String} {model : Model}

/-- The member of a relationship has the class of its target as its type, or a list of it. -/
theorem typedIn_relation {relation : Relation} (h : relation ∈ model.relations) :
    TypedIn memberIndent (form.lines name model) relation.name
      (relationType form.suffix relation) := by
  cases form with
  | model => exact (typedIn_modelLines_iff _).mpr (.inr ⟨relation, h, rfl, rfl⟩)
  | transfer => exact (typedIn_transferLines_iff _).mpr (.inr ⟨relation, h, rfl, rfl⟩)

/-- The other members have values that are no models. -/
theorem typedIn_cases (h : TypedIn memberIndent (form.lines name model) member type) :
    IsValueType type ∨ ∃ relation ∈ model.relations, relationType form.suffix relation = type := by
  cases form with
  | model =>
    rcases (typedIn_modelLines_iff _).mp h with ⟨field, -, -, rfl⟩ | ⟨relation, hRelation, -, hType⟩
    · exact .inl (isValueType_primitive field.type)
    · exact .inr ⟨relation, hRelation, hType⟩
  | transfer =>
    rcases (typedIn_transferLines_iff _).mp h with ⟨wire, -, -, rfl⟩ | ⟨relation, hRelation, -, hType⟩
    · exact .inl (isValueType_wireType wire)
    · exact .inr ⟨relation, hRelation, hType⟩

end FileForm

namespace Schema.Linkable

variable {schema : Schema} (h : schema.Linkable) {name : String} {model : Model}
variable (hModel : (name, model) ∈ schema.models) (form : FileForm)
include h hModel

/-- The class of a related model is imported once. -/
theorem countP_imports {target : String} (hTarget : target ∈ model.related name) :
    (form.statements name model).countP (fun statement =>
      statement.imports.contains (Naming.capitalized target ++ form.suffix)) = 1 := by
  have hOwn : (form.own name).countP (fun statement =>
      statement.imports.contains (Naming.capitalized target ++ form.suffix)) = 0 := by
    rw [List.countP_eq_zero]
    simpa using form.notMem_imports_own name target
  have hSame : ∀ other ∈ (model.related name).eraseDups,
      (form.importOf other).imports.contains (Naming.capitalized target ++ form.suffix) = true ↔
        (other == target) = true := by
    intro other hOther
    rw [FileForm.imports_importOf, List.contains_iff_mem, List.mem_singleton,
      String.append_left_inj, beq_iff_eq]
    refine ⟨fun hClass => ?_, fun hName => by rw [hName]⟩
    obtain ⟨_, hOther⟩ := h.exists_related hModel (List.mem_eraseDups.mp hOther)
    obtain ⟨_, hTarget⟩ := h.exists_related hModel hTarget
    exact congrArg Prod.fst (h.name_eq hOther hTarget hClass.symm)
  rw [FileForm.statements, List.countP_append, hOwn, FileForm.imports, List.countP_map, Nat.add_zero]
  exact (List.countP_congr hSame).trans
    (List.count_eq_one_of_mem (eraseDups_nodup _) (List.mem_eraseDups.mpr hTarget))

/-- The class of a relationship's target is the one that a file declares, or is imported once. -/
theorem declared_or_imported {relation : Relation} (hRelation : relation ∈ model.relations) :
    (relation.target.canonical = name ∧
      Statement.exportClass (relation.target.className ++ form.suffix) ∈ form.own name) ∨
    (form.statements name model).countP (fun statement =>
      statement.imports.contains (relation.target.className ++ form.suffix)) = 1 := by
  obtain ⟨relationship, hRelationship, rfl⟩ := List.mem_map.mp hRelation
  by_cases hSelf : relationship.2.target = name
  · exact .inl ⟨hSelf, hSelf ▸ form.declares_own _⟩
  · refine .inr (h.countP_imports hModel form ?_)
    exact List.mem_filter.mpr ⟨List.mem_map_of_mem hRelationship, by simpa using hSelf⟩

/-- A file does not import the class of its model as that of a related one. -/
theorem notMem_imports :
    ∀ statement ∈ form.imports name model,
      Naming.capitalized name ++ form.suffix ∉ statement.imports := by
  intro statement hStatement hMem
  obtain ⟨target, hTarget, rfl⟩ := List.mem_map.mp hStatement
  rw [FileForm.imports_importOf, List.mem_singleton, String.append_left_inj] at hMem
  have hRelated := List.mem_eraseDups.mp hTarget
  obtain ⟨_, hFound⟩ := h.exists_related hModel hRelated
  have hName : name = target := congrArg Prod.fst (h.name_eq hModel hFound hMem)
  exact absurd hName.symm (by simpa using List.of_mem_filter hRelated)

/-- The lines that import related classes are different. -/
theorem lines_nodup {value : Yaml.Value} (hRead : ofValue value = .ok schema) :
    ((form.imports name model).map Statement.line).Nodup := by
  have hImports := h.relatedImports_eq hModel form.suffix form.kind.suffix
  rw [show form.imports name model = _ from hImports.symm, ← relationImports_eq_map
    (relations_noSlash hRead h.resolved hModel (by cases form <;> decide)), relationImports_eq]
  exact eraseDups_nodup _

end Schema.Linkable

/-! ### Files on disk -/

/-- In the file at a path, a specifier means a file that is on disk and holds a declaration. -/
def Supplies (tree : FileTree) (path : Path) (specifier : String) (target : Path)
    (declaration : String) : Prop :=
  Means path specifier target ∧
    ∃ text : String, tree.read target = .ok text.toUTF8 ∧ declaration.toList <:+: text.toList

/-- What holds of a file of a model with its imports, in a file tree with the files of a schema. -/
structure FileForm.Linked (form : FileForm) (tree : FileTree) (directory : Path) (schema : Schema)
    (name : String) (model : Model) : Prop where
  /-- the file is on disk -/
  file : tree.read (artifactPath directory form.kind name) =
    .ok (fileText (form.lines name model)).toUTF8
  /-- its statements import the related classes, each once and in the order of first use, and then
  say what is said of the model itself -/
  opens : Opens (form.lines name model) (form.imports name model ++ form.own name)
  once : ((form.imports name model).map Statement.line).Nodup
  foreign : ∀ statement ∈ form.imports name model,
    Naming.capitalized name ++ form.suffix ∉ statement.imports
  /-- in the lines of the file, the member of a relationship has the class of the target as its type,
  or a list of it -/
  typed : ∀ relation ∈ model.relations, TypedIn memberIndent (form.lines name model) relation.name
    (relation.target.className ++ form.suffix ++ if relation.collection then "[]" else "")
  /-- a class that the type of a member names is the one that the file declares, or is imported
  once -/
  used : ∀ member type, TypedIn memberIndent (form.lines name model) member type →
    IsValueType type ∨ ∃ named, (type = named ∨ type = named ++ "[]") ∧
      (Statement.exportClass named ∈ form.own name ∨
        (form.statements name model).countP (fun statement => statement.imports.contains named) = 1)
  /-- the class of a relationship's target is the one that the file declares, or is imported once -/
  members : ∀ relation ∈ model.relations,
    (relation.target.canonical = name ∧
      Statement.exportClass (relation.target.className ++ form.suffix) ∈ form.own name) ∨
    (form.statements name model).countP (fun statement =>
      statement.imports.contains (relation.target.className ++ form.suffix)) = 1
  /-- imports of related classes lead to files that declare them -/
  related : ∀ imported specifier,
    Statement.importType imported specifier ∈ form.statements name model →
      ∃ target definition, (target, definition) ∈ schema.models ∧
        imported = Naming.capitalized target ++ form.suffix ∧
        Supplies tree (artifactPath directory form.kind name) specifier
          (artifactPath directory form.kind target)
          ("export class " ++ imported ++ " " ++ openBrace)
  /-- imports of the model's own class and plain type lead to the file of its entity -/
  entity : ∀ imported plain specifier,
    Statement.importOwn imported plain specifier ∈ form.statements name model →
      ∀ declaration ∈
          ["export class " ++ imported ++ " " ++ openBrace, "export type " ++ plain ++ " = "],
        Supplies tree (artifactPath directory form.kind name) specifier
          (artifactPath directory .model name) declaration

/-- A line that opens a statement stands in the text of the file. -/
theorem line_infix {lines : List String} {statements : List Statement} (h : Opens lines statements)
    {statement : Statement} (hStatement : statement ∈ statements) :
    statement.line.toList <:+: (fileText lines).toList := by
  have hLine : statement.line ∈ lines.filter opensStatement := by
    rw [h]
    exact List.mem_map_of_mem hStatement
  obtain ⟨before, after, rfl⟩ := List.append_of_mem (List.mem_of_mem_filter hLine)
  rw [fileText_toList, List.flatMap_append, List.flatMap_cons, lineChars]
  refine ⟨before.flatMap lineChars, ['\n'] ++ after.flatMap lineChars, ?_⟩
  simp

namespace Schema.Linkable

variable {schema : Schema} (h : schema.Linkable) {value : Yaml.Value}
  (hRead : ofValue value = .ok schema) {tree : FileTree} {directory : Path}
  (hFiles : ∀ model ∈ schema.models, ∀ form : FileForm,
    tree.read (artifactPath directory form.kind model.1) =
      .ok (fileText (form.lines model.1 model.2)).toUTF8)
  {name : String} {model : Model} (hModel : (name, model) ∈ schema.models) (form : FileForm)
include h hRead hFiles hModel

theorem supplies_related {imported specifier : String}
    (hMem : Statement.importType imported specifier ∈ form.statements name model) :
    ∃ target definition, (target, definition) ∈ schema.models ∧
      imported = Naming.capitalized target ++ form.suffix ∧
      Supplies tree (artifactPath directory form.kind name) specifier
        (artifactPath directory form.kind target)
        ("export class " ++ imported ++ " " ++ openBrace) := by
  obtain ⟨target, hTarget, hSame⟩ := form.exists_of_importType_mem name model hMem
  obtain ⟨hImported, rfl⟩ := Statement.importType.inj hSame
  obtain rfl : Naming.capitalized target ++ form.suffix = imported := hImported
  obtain ⟨definition, hFound⟩ := h.exists_related hModel hTarget
  have hMeans := means_sibling (isModelName_of_mem_models hRead hModel)
    (isModelName_of_mem_models hRead hFound) directory form.kind form.kind
  have hLine := line_infix (h.opens hFound hRead form)
    (List.mem_append_right _ (form.declares_own target))
  rw [Statement.line_exportClass] at hLine
  exact ⟨target, definition, hFound, rfl, hMeans, _, hFiles _ hFound form, hLine⟩

theorem supplies_entity {imported plain specifier : String}
    (hMem : Statement.importOwn imported plain specifier ∈ form.statements name model)
    {declaration : String}
    (hDeclaration : declaration ∈
      ["export class " ++ imported ++ " " ++ openBrace, "export type " ++ plain ++ " = "]) :
    Supplies tree (artifactPath directory form.kind name) specifier
      (artifactPath directory .model name) declaration := by
  obtain ⟨rfl, rfl, rfl⟩ := Statement.importOwn.inj (form.eq_of_importOwn_mem name model hMem)
  have hMeans := means_own (isModelName_of_mem_models hRead hModel) directory form.kind
  have hOwn {statement : Statement} (hStatement : statement ∈ FileForm.own .model name) :=
    line_infix (h.opens hModel hRead .model) (List.mem_append_right _ hStatement)
  refine ⟨hMeans, _, hFiles _ hModel .model, ?_⟩
  simp only [List.mem_cons, List.not_mem_nil, or_false] at hDeclaration
  rcases hDeclaration with rfl | rfl
  · have hLine := hOwn List.mem_cons_self
    rw [Statement.line_exportClass] at hLine
    exact hLine
  · have hLine := hOwn (List.mem_cons_of_mem _ (List.mem_singleton_self _))
    rw [plainType, Statement.line_exportType, String.toList_append] at hLine
    exact (List.prefix_append _ _).isInfix.trans hLine

/-- The files of a schema are linked where they are on disk. -/
theorem linked : form.Linked tree directory schema name model where
  file := hFiles _ hModel form
  opens := h.opens hModel hRead form
  once := h.lines_nodup hModel form hRead
  foreign := h.notMem_imports hModel form
  typed := fun _ => FileForm.typedIn_relation
  used := by
    intro member type hTyped
    refine (FileForm.typedIn_cases hTyped).imp_right ?_
    rintro ⟨relation, hRelation, rfl⟩
    refine ⟨relation.target.className ++ form.suffix, ?_,
      (h.declared_or_imported hModel form hRelation).imp_left And.right⟩
    rw [relationType]
    cases relation.collection with
    | false => exact .inl String.append_empty
    | true => exact .inr rfl
  members := fun _ => h.declared_or_imported hModel form
  related := fun _ _ => h.supplies_related hRead hFiles hModel form
  entity := fun _ _ _ hMem _ => h.supplies_entity hRead hFiles hModel form hMem

end Schema.Linkable

/-- A run of a whole schema, without the formatter and without a failure, leaves the files of its
models linked, if the schema is linkable and there are no links below the mappers directory. -/
theorem Generator.generateSchema_linked (generator : Generator) (directory path : Path)
    (schema : Schema) (workspace last : Workspace) (report : Report)
    (hProper : workspace.tree.Proper) (hLoad : (loadSchema path workspace).1 = .ok schema)
    (hLinkable : schema.Linkable)
    (hLinks : ∀ location, (workspace.tree.createDirAll directory).1.Leads directory location →
      workspace.tree.NoLinkBelow location)
    (hRun : generator.generateSchema directory path {} workspace = (.ok report, last))
    (hFailures : report.failures = []) :
    ∀ name model, (name, model) ∈ schema.models →
      ∀ form : FileForm, form.Linked last.tree directory schema name model := by
  intro name model hModel form
  obtain ⟨value, -, hRead⟩ := loadSchema_ok_iff.mp hLoad
  have hSelected : Options.selectModels {} schema ≠ [] :=
    Options.selectModels_ne_nil ⟨name, List.mem_map_of_mem hModel, rfl⟩
  obtain ⟨passed, changed, made, location, -, -, -, hSettled⟩ := generateSchema_settles hProper hLoad
    hLinkable.resolved hLinkable.stems hLinks hSelected rfl hRun hFailures
  refine hLinkable.linked hRead (fun other hOther form => ?_) hModel form
  have hAsked : other ∈ Options.selectModels {} schema := Options.mem_selectModels.mpr ⟨hOther, rfl⟩
  have hFile := form.file_mem directory hAsked
  obtain ⟨hNode, hPlace⟩ := hSettled.placed.holds _ hFile
  rw [Artifact.ofModel_path] at hPlace
  exact FileTree.read_eq_ok_iff.mpr ⟨_, hPlace, hNode⟩

/-- A workspace with a schema of two models, one of which is related to itself and twice to the
other. -/
def relatedSchema : Workspace where
  tree :=
    { entries := [(["schema.tw"], .file (String.toUTF8 ("Post:\n type: model\n relationships:\n" ++
        "  author:\n   type: User\n  editor:\n   type: User\n  reply:\n   type: Post[]\n" ++
        "User:\n type: model\n")))] }

/-- A run of that schema leaves its files linked. -/
theorem relatedSchema_linked : ∃ schema report last,
    (loadSchema "schema.tw" relatedSchema).1 = .ok schema ∧
    schema.models.map (·.1) = ["Post", "User"] ∧
    plainGenerator.generateSchema "m" "schema.tw" {} relatedSchema = (.ok report, last) ∧
    report.failures = [] ∧
    ∀ name model, (name, model) ∈ schema.models →
      ∀ form : FileForm, form.Linked last.tree "m" schema name model := by
  have hEvaluated : ((loadSchema "schema.tw" relatedSchema).1.toOption.any fun schema =>
        decide schema.Linkable && schema.models.map (·.1) == ["Post", "User"]) = true ∧
      ((plainGenerator.generateSchema "m" "schema.tw" {} relatedSchema).1.toOption.any
        Report.isSuccess) = true := by
    decide +kernel
  obtain ⟨hSchema, hReport⟩ := hEvaluated
  rcases hLoad : (loadSchema "schema.tw" relatedSchema).1 with fault | schema
  · simp [hLoad, Except.toOption] at hSchema
  rcases hRun : plainGenerator.generateSchema "m" "schema.tw" {} relatedSchema with
    ⟨fault | report, last⟩
  · simp [hRun, Except.toOption] at hReport
  simp only [hLoad, hRun, Except.toOption, Option.any_some, Bool.and_eq_true, decide_eq_true_eq,
    beq_iff_eq, Report.isSuccess, List.isEmpty_iff] at hSchema hReport
  obtain ⟨hLinkable, hNames⟩ := hSchema
  have hProper : relatedSchema.tree.Proper := by decide +kernel
  have hPlain : ∀ entry ∈ relatedSchema.tree.entries, ∀ target, entry.2 ≠ .link target := by
    simp [relatedSchema]
  have hLinked := Generator.generateSchema_linked plainGenerator "m" "schema.tw" schema relatedSchema
    last report hProper hLoad hLinkable (fun location _ => hProper.noLinkBelow hPlain location) hRun
    hReport
  exact ⟨schema, report, last, rfl, hNames, rfl, hReport, hLinked⟩

end EntityGen
