import EntityGen.Proofs.Form.Entries
import EntityGen.Proofs.Schema.References
import EntityGen.Proofs.TypeScript.Statement
import Mathlib.Data.List.Nodup
import Mathlib.Data.List.Pairwise

/-! The names at the top level of generated files, and when one file has a name twice. Imports are
told apart by their whole lines and a model by its name, while what a file declares and imports are
classes; and the actions of a form are told apart by their names, but written in capital words. -/

namespace EntityGen

namespace Model

/-- The models that the relationships of a model lead to, itself not among them. -/
def related (name : String) (model : Model) : List String :=
  (model.relationships.map (·.2.target)).filter (· != name)

/-- A relationship leads to another model whose class is called like the model's own. -/
def RelatesToNamesake (name : String) (model : Model) : Prop :=
  ∃ target ∈ model.related name, Naming.capitalized target = Naming.capitalized name

/-- Relationships lead to two other models whose classes are called alike, and their files not. -/
def RelatesToTwins (name : String) (model : Model) : Prop :=
  ∃ first ∈ model.related name, ∃ second ∈ model.related name,
    Naming.capitalized first = Naming.capitalized second ∧ Naming.stem first ≠ Naming.stem second

/-- A relationship leads to another model whose class is called like the type of the model's plain
data. -/
def RelatesToPlain (name : String) (model : Model) : Prop :=
  ∃ target ∈ model.related name, Naming.capitalized target = Naming.capitalized name ++ "Plain"

end Model

namespace TypeScript

theorem append_ne_append {suffix other : String}
    (h : suffix.toList.getLast? ≠ other.toList.getLast?) (hSuffix : suffix ≠ "")
    (hOther : other ≠ "") (first second : String) : first ++ suffix ≠ second ++ other := by
  intro hSame
  have hLast (text : String) {suffix : String} (hSuffix : suffix ≠ "") :
      (text ++ suffix).toList.getLast? = suffix.toList.getLast? := by
    rw [String.toList_append, List.getLast?_append_of_ne_nil _ (by simpa using hSuffix)]
  exact h (by rw [← hLast first hSuffix, hSame, hLast second hOther])

/-! ### Imports of related classes -/

theorem siblingSpecifier_inj {file : String} {target other : ModelNames} :
    siblingSpecifier file target = siblingSpecifier file other ↔ target.stem = other.stem := by
  refine ⟨fun h => ?_, fun h => by rw [siblingSpecifier, siblingSpecifier, h]⟩
  have hChars := congrArg String.toList h
  simp only [siblingSpecifier, String.toList_append, List.append_assoc,
    List.append_cancel_left_eq] at hChars
  have hLength := congrArg List.length hChars
  simp only [List.length_append] at hLength
  exact String.toList_inj.mp (List.append_inj hChars (by omega)).1

theorem relatedImport_inj {suffix file : String} {target other : ModelNames} :
    relatedImport suffix file target = relatedImport suffix file other ↔
      target.className = other.className ∧ target.stem = other.stem := by
  rw [relatedImport, relatedImport, Statement.importType.injEq, siblingSpecifier_inj,
    ← String.toList_inj, String.toList_append, String.toList_append, List.append_cancel_right_eq,
    String.toList_inj]

/-- The imports of a model are those of the models it is related to. -/
theorem relatedImports_relations (name suffix file : String) (model : Model) :
    relatedImports (Naming.names name) suffix file model.relations =
      ((model.related name).map fun target =>
        relatedImport suffix file (Naming.names target)).eraseDups := by
  rw [relatedImports, Model.relations, Model.related, List.filter_map, List.filter_map, List.map_map,
    List.map_map]
  rfl

/-- The names that the imports of related classes give a meaning. -/
def relatedNames (name suffix file : String) (model : Model) : List String :=
  (relatedImports (Naming.names name) suffix file model.relations).flatMap Statement.names

section RelatedNames

variable {name suffix file : String} {model : Model}

theorem relatedImports_nodup :
    (relatedImports (Naming.names name) suffix file model.relations).Nodup :=
  eraseDups_nodup _

theorem mem_relatedImports {statement : Statement} :
    statement ∈ relatedImports (Naming.names name) suffix file model.relations ↔
      ∃ target ∈ model.related name,
        relatedImport suffix file (Naming.names target) = statement := by
  rw [relatedImports_relations, List.mem_eraseDups, List.mem_map]

theorem mem_relatedNames {text : String} :
    text ∈ relatedNames name suffix file model ↔
      ∃ target ∈ model.related name, Naming.capitalized target ++ suffix = text := by
  simp only [relatedNames, List.mem_flatMap, mem_relatedImports]
  constructor
  · rintro ⟨_, ⟨target, hTarget, rfl⟩, hText⟩
    exact ⟨target, hTarget, (List.mem_singleton.mp hText).symm⟩
  · rintro ⟨target, hTarget, rfl⟩
    exact ⟨_, ⟨target, hTarget, rfl⟩, List.mem_singleton_self _⟩

/-- No class is imported twice just if models with one class name have one file. -/
theorem relatedNames_nodup_iff :
    (relatedNames name suffix file model).Nodup ↔
      ∀ first ∈ model.related name, ∀ second ∈ model.related name,
        Naming.capitalized first = Naming.capitalized second →
          Naming.stem first = Naming.stem second := by
  rw [relatedNames, List.nodup_flatMap]
  constructor
  · rintro ⟨-, hApart⟩ first hFirst second hSecond hClass
    by_contra hStem
    have hSymm : Std.Symm (Function.onFun List.Disjoint Statement.names) :=
      ⟨fun _ _ => List.disjoint_symm⟩
    refine hApart.forall (mem_relatedImports.mpr ⟨first, hFirst, rfl⟩)
      (mem_relatedImports.mpr ⟨second, hSecond, rfl⟩)
      (fun hSame => hStem (relatedImport_inj.mp hSame).2)
      (List.mem_singleton_self (Naming.capitalized first ++ suffix)) ?_
    rw [hClass]
    exact List.mem_singleton_self _
  · intro hFiles
    refine ⟨fun statement hStatement => ?_,
      relatedImports_nodup.pairwise_of_forall_ne fun statement hStatement other hOther hApart => ?_⟩
    · obtain ⟨target, -, rfl⟩ := mem_relatedImports.mp hStatement
      exact List.nodup_singleton _
    · obtain ⟨first, hFirst, rfl⟩ := mem_relatedImports.mp hStatement
      obtain ⟨second, hSecond, rfl⟩ := mem_relatedImports.mp hOther
      rintro text hText hSame
      have hText := (List.mem_singleton.mp hText).symm.trans (List.mem_singleton.mp hSame)
      have hClass : Naming.capitalized first = Naming.capitalized second :=
        (String.append_left_inj suffix).mp hText
      exact hApart (relatedImport_inj.mpr ⟨hClass, hFiles first hFirst second hSecond hClass⟩)

end RelatedNames

/-! ### Names of a model's files -/

section Files

variable (name : String) (model : Model)

theorem mem_relatedNames_class {suffix file : String} :
    Naming.capitalized name ++ suffix ∈ relatedNames name suffix file model ↔
      model.RelatesToNamesake name := by
  simp only [mem_relatedNames, Model.RelatesToNamesake, String.append_left_inj]

theorem relatedNames_append_nodup_iff {suffix file : String} {declared : List String}
    (h : declared.Nodup) :
    (relatedNames name suffix file model ++ declared).Nodup ↔
      ¬model.RelatesToTwins name ∧
        ∀ text ∈ declared, text ∉ relatedNames name suffix file model := by
  rw [List.nodup_append, relatedNames_nodup_iff, and_iff_right h]
  refine and_congr ?_ ?_
  · simp only [Model.RelatesToTwins, not_exists, not_and, not_not]
  · exact ⟨fun hApart text hText hMem => hApart text hMem text hText rfl,
      fun hApart text hMem other hOther hSame => hApart other hOther (hSame ▸ hMem)⟩

theorem modelClass_ne_plainClass (names : ModelNames) : modelClass names ≠ plainClass names := by
  rw [modelClass, plainClass, Ne, String.append_right_inj]
  decide

/-- Transfer objects are never called like an entity or its plain data. -/
theorem append_ne_transfer {suffix : String} (h : suffix ∈ ["Model", "PlainModel"])
    (first second : String) : first ++ suffix ≠ second ++ "DTO" := by
  have hEnds : ∀ suffix ∈ ["Model", "PlainModel"],
      suffix ≠ "" ∧ suffix.toList.getLast? ≠ "DTO".toList.getLast? := by decide
  obtain ⟨hEmpty, hLast⟩ := hEnds suffix h
  exact append_ne_append hLast hEmpty (by decide) first second

theorem modelNames_nodup_iff :
    ((modelStatements (.ofModel name model)).flatMap Statement.names).Nodup ↔
      ¬model.RelatesToTwins name ∧ ¬model.RelatesToNamesake name ∧ ¬model.RelatesToPlain name := by
  have hNames : (modelStatements (.ofModel name model)).flatMap Statement.names =
      relatedNames name "Model" "model" model ++
        [modelClass (Naming.names name), plainClass (Naming.names name)] := by
    rw [modelStatements, List.flatMap_append]
    rfl
  have hPlain : plainClass (Naming.names name) ∈ relatedNames name "Model" "model" model ↔
      model.RelatesToPlain name := by
    have hSuffix : "PlainModel" = "Plain" ++ "Model" := by decide
    simp only [mem_relatedNames, Model.RelatesToPlain, plainClass, Naming.names, hSuffix,
      ← String.append_assoc, String.append_left_inj]
  rw [hNames, relatedNames_append_nodup_iff _ _ (by simp [modelClass_ne_plainClass])]
  rw [List.forall_mem_cons, List.forall_mem_singleton, hPlain, modelClass, Naming.names,
    mem_relatedNames_class]

theorem transferNames_nodup_iff :
    ((transferStatements (.ofModel name model)).flatMap Statement.names).Nodup ↔
      ¬model.RelatesToTwins name ∧ ¬model.RelatesToNamesake name := by
  have hNames : (transferStatements (.ofModel name model)).flatMap Statement.names =
      relatedNames name "DTO" "dto" model ++
        [modelClass (Naming.names name), plainClass (Naming.names name),
          transferClass (Naming.names name)] := by
    rw [transferStatements, List.flatMap_append]
    rfl
  have hOther {suffix : String} (hSuffix : suffix ∈ ["Model", "PlainModel"]) :
      Naming.capitalized name ++ suffix ∉ relatedNames name "DTO" "dto" model := by
    rw [mem_relatedNames]
    rintro ⟨target, -, hSame⟩
    exact append_ne_transfer hSuffix _ _ hSame.symm
  have hDeclared : [modelClass (Naming.names name), plainClass (Naming.names name),
      transferClass (Naming.names name)].Nodup := by
    simp only [List.nodup_cons, List.mem_cons, List.not_mem_nil, or_false, not_or, not_false_iff,
      List.nodup_nil, and_true]
    exact ⟨⟨modelClass_ne_plainClass _, append_ne_transfer (by simp) _ _⟩,
      append_ne_transfer (by simp) _ _⟩
  rw [hNames, relatedNames_append_nodup_iff _ _ hDeclared, List.forall_mem_cons,
    List.forall_mem_cons, List.forall_mem_singleton, modelClass, plainClass, transferClass,
    Naming.names, and_iff_right (hOther (by simp)), and_iff_right (hOther (by simp)),
    mem_relatedNames_class]

end Files

/-! ### Names of a ruleset's file -/

/-- Two lists of names that go on alike with a key, and are told apart by how they end, have no name
twice just if no key is there twice. -/
theorem pairs_nodup_iff {α : Type} {key first second : α → String}
    (hFirst : ∀ a b, first a = first b ↔ key a = key b)
    (hSecond : ∀ a b, second a = second b ↔ key a = key b) (hApart : ∀ a b, first a ≠ second b)
    (items : List α) :
    (items.flatMap fun item => [first item, second item]).Nodup ↔ (items.map key).Nodup := by
  induction items with
  | nil => simp
  | cons item rest ih =>
    have hMemFirst : first item ∈ (rest.flatMap fun item => [first item, second item]) ↔
        key item ∈ rest.map key := by
      simp [List.mem_flatMap, hApart, hFirst, eq_comm]
    have hMemSecond : second item ∈ (rest.flatMap fun item => [first item, second item]) ↔
        key item ∈ rest.map key := by
      simp [List.mem_flatMap, fun a b => (hApart a b).symm, hSecond, eq_comm]
    rw [List.flatMap_cons, List.cons_append, List.cons_append, List.nil_append, List.nodup_cons,
      List.nodup_cons, List.mem_cons, hMemFirst, hMemSecond, ih, List.map_cons, List.nodup_cons]
    simp only [hApart, false_or, and_self_left]

theorem rulesetExports_eq (paths : ImportPaths) (ruleset : Form.Ruleset) :
    (rulesetStatements paths ruleset).flatMap Statement.exports =
      ruleset.actions.flatMap fun action =>
        [schemaName ruleset.names action, formName ruleset.names action] := by
  have hImports : (rulesetImports paths ruleset).flatMap Statement.exports = [] := by
    rw [rulesetImports]
    cases ruleset.usesLocalized <;> cases ruleset.usesCustom <;> rfl
  rw [rulesetStatements, List.flatMap_append, hImports, List.nil_append, List.flatMap_assoc]
  rfl

theorem rulesetExports_nodup_iff (paths : ImportPaths) (ruleset : Form.Ruleset) :
    ((rulesetStatements paths ruleset).flatMap Statement.exports).Nodup ↔
      (ruleset.actions.map (·.pascal)).Nodup := by
  rw [rulesetExports_eq]
  refine pairs_nodup_iff (fun a b => ?_) (fun a b => ?_) (fun a b => ?_) ruleset.actions
  · rw [schemaName, schemaName, String.append_left_inj, String.append_right_inj]
  · rw [formName, formName, String.append_left_inj, String.append_right_inj]
  · exact append_ne_append (by decide) (by decide) (by decide) _ _

end TypeScript

open TypeScript

namespace Schema

section

variable {value : Yaml.Value} {schema : Schema} (hRead : ofValue value = .ok schema)
variable (hResolved : schema.dangling? = none) {name : String} {model : Model}
variable (hModel : (name, model) ∈ schema.models)
include hRead hResolved hModel

/-- No related class has a slash in its name, so that its import can be read off its line. -/
theorem relations_noSlash {suffix : String} (hSuffix : '/' ∉ suffix.toList) :
    ∀ relation ∈ model.relations, '/' ∉ (relation.target.className ++ suffix).toList := by
  intro relation hRelation
  obtain ⟨relationship, hRelationship, rfl⟩ := List.mem_map.mp hRelation
  have hName := isModelName_target hRead hResolved hModel hRelationship
  rw [String.toList_append]
  exact List.not_mem_append (Naming.capitalized_noSlash (Naming.isModelName_noSlash hName)) hSuffix

theorem modelLines_opens :
    Opens (modelLines (.ofModel name model)) (modelStatements (.ofModel name model)) :=
  TypeScript.modelLines_opens (relations_noSlash hRead hResolved hModel (by decide))

theorem transferLines_opens :
    Opens (transferLines (.ofModel name model)) (transferStatements (.ofModel name model)) :=
  TypeScript.transferLines_opens (relations_noSlash hRead hResolved hModel (by decide))

/-- In a schema that is read and whose references lead to entries, the file of a model has a name
twice at its top level just if the model is related to two others that are called alike in different
files, or to another one that is called like itself or like its plain data; and the file of its
transfer object just if one of the first two is so. -/
theorem topLevelNames_nodup_iff :
    Opens (modelLines (.ofModel name model)) (modelStatements (.ofModel name model)) ∧
    (((modelStatements (.ofModel name model)).flatMap Statement.names).Nodup ↔
      ¬model.RelatesToTwins name ∧ ¬model.RelatesToNamesake name ∧ ¬model.RelatesToPlain name) ∧
    Opens (transferLines (.ofModel name model)) (transferStatements (.ofModel name model)) ∧
    (((transferStatements (.ofModel name model)).flatMap Statement.names).Nodup ↔
      ¬model.RelatesToTwins name ∧ ¬model.RelatesToNamesake name) :=
  ⟨modelLines_opens hRead hResolved hModel, modelNames_nodup_iff name model,
    transferLines_opens hRead hResolved hModel, transferNames_nodup_iff name model⟩

end

/-- A document with a model that is related to two models of one class name, and to one that is
called like its plain data. -/
def sharedClasses : Yaml.Value :=
  .map [(.str "Post", .map [(.str "type", .str "model"),
      (.str "relationships", .map [
        (.str "first", .map [(.str "type", .str "aB")]),
        (.str "second", .map [(.str "type", .str "AB")]),
        (.str "plain", .map [(.str "type", .str "PostPlain")])])]),
    (.str "aB", .map [(.str "type", .str "model")]),
    (.str "AB", .map [(.str "type", .str "model")]),
    (.str "PostPlain", .map [(.str "type", .str "model")])]

/-- The first model of that document. -/
def relatedModel : Model where
  relationships := [("first", { type := "aB" }), ("second", { type := "AB" }),
    ("plain", { type := "PostPlain" })]

/-- The document is read and its references lead to models, but both files of its first model import
a class twice, and one of them declares a type that it imports. -/
theorem topLevelNames_repeat :
    ∃ schema, ofValue sharedClasses = .ok schema ∧ schema.dangling? = none ∧
      ("Post", relatedModel) ∈ schema.models ∧
      relatedModel.RelatesToTwins "Post" ∧ relatedModel.RelatesToPlain "Post" ∧
      ¬((modelStatements (.ofModel "Post" relatedModel)).flatMap Statement.names).Nodup ∧
      ¬((transferStatements (.ofModel "Post" relatedModel)).flatMap Statement.names).Nodup := by
  have hRead : ofValue sharedClasses = .ok ⟨[("Post", .model relatedModel), ("aB", .model {}),
      ("AB", .model {}), ("PostPlain", .model {})]⟩ := rfl
  have hTwins : relatedModel.RelatesToTwins "Post" :=
    ⟨"aB", by decide +kernel, "AB", by decide +kernel, by decide +kernel, by decide +kernel⟩
  have hPlain : relatedModel.RelatesToPlain "Post" :=
    ⟨"PostPlain", by decide +kernel, by decide +kernel⟩
  obtain ⟨-, hModel, -, hTransfer⟩ :=
    @topLevelNames_nodup_iff _ _ hRead (by decide +kernel) "Post" relatedModel List.mem_cons_self
  refine ⟨_, rfl, by decide +kernel, List.mem_cons_self, hTwins, hPlain, ?_, ?_⟩
  · rw [hModel]
    exact fun h => h.1 hTwins
  · rw [hTransfer]
    exact fun h => h.1 hTwins

end Schema

namespace Forms

/-- In forms that are read, the file of a model exports a schema and a form for each action, in
order, and no name twice just if different actions have different names in capital words. -/
theorem exports_nodup_iff {value : Yaml.Value} {forms : Forms} (hRead : ofValue value = .ok forms)
    {name : String} {model : FormModel} (hModel : (name, model) ∈ forms.models)
    (paths : ImportPaths) :
    Opens (rulesetLines paths (.ofModel name model))
      (rulesetStatements paths (.ofModel name model)) ∧
    (rulesetStatements paths (.ofModel name model)).flatMap Statement.exports =
      (model.flatMap fun action =>
        [Naming.uncapitalized name ++ Naming.pascal action.1 ++ "Schema",
          Naming.capitalized name ++ Naming.pascal action.1 ++ "Form"]) ∧
    (((rulesetStatements paths (.ofModel name model)).flatMap Statement.exports).Nodup ↔
      ∀ first ∈ model.map (·.1), ∀ second ∈ model.map (·.1),
        Naming.pascal first = Naming.pascal second → first = second) := by
  refine ⟨rulesetLines_opens _ _, ?_, ?_⟩
  · rw [rulesetExports_eq, Form.Ruleset.ofModel, List.flatMap_map]
    rfl
  · have hPascal : (Form.Ruleset.ofModel name model).actions.map (·.pascal) =
        (model.map (·.1)).map Naming.pascal := by
      rw [Form.Ruleset.ofModel, List.map_map, List.map_map]
      rfl
    rw [rulesetExports_nodup_iff, hPascal, List.nodup_map_iff_inj_on (actions_nodup hRead hModel)]

/-- Two actions whose names differ in an underscore and a capital letter. -/
def sharingActions : FormModel := [("reset_password", []), ("resetPassword", [])]

/-- A document with a model that has these actions. -/
def sharedActions : Yaml.Value :=
  .map [(.str "User", .map [
    (.str "reset_password", .map []),
    (.str "resetPassword", .map [])])]

/-- The document is read, and the file of its model exports the schema and the form of one action
again for the other. -/
theorem exports_repeat :
    ∃ forms, ofValue sharedActions = .ok forms ∧
      ("User", sharingActions) ∈ forms.models ∧
      ¬((rulesetStatements {} (.ofModel "User" sharingActions)).flatMap
        Statement.exports).Nodup := by
  have hRead : ofValue sharedActions = .ok ⟨[("User", sharingActions)]⟩ := rfl
  have hPascal : Naming.pascal "reset_password" = Naming.pascal "resetPassword" := by decide +kernel
  refine ⟨_, hRead, List.mem_cons_self, fun hNodup => ?_⟩
  have hApart := (exports_nodup_iff hRead List.mem_cons_self {}).2.2.mp hNodup "reset_password"
    (by decide) "resetPassword" (by decide) hPascal
  exact absurd hApart (by decide)

end Forms

end EntityGen
