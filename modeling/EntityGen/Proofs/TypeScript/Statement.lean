import EntityGen.Proofs.FirstUse
import EntityGen.Proofs.Naming
import EntityGen.Proofs.Text.Split
import EntityGen.TypeScript.Ruleset
import EntityGen.TypeScript.Transfer

/-! The statements of generated files: what a file imports, and what it exports. A statement is
opened by a line at the margin; every other line is empty, indented, or closes what a statement
opened. -/

namespace EntityGen.TypeScript

/-- A statement of a generated file, by what is written in the line that opens it. -/
inductive Statement where
  /-- the import of a class of another model -/
  | importType (name specifier : String)
  /-- the import of the model's own class, and of the type of its plain data -/
  | importOwn (name plain specifier : String)
  /-- the import of a value, from a module that is given as it is written -/
  | importValue (name source : String)
  /-- the import of a whole module -/
  | importAll (name source : String)
  | exportClass (name : String)
  | exportType (name definition : String)
  | exportConst (name value : String)
deriving DecidableEq

namespace Statement

/-- The line that opens a statement. -/
def line : Statement → String
  | importType name specifier => "import type " ++ braced name ++ " from '" ++ specifier ++ "'"
  | importOwn name plain specifier =>
    "import " ++ braced (name ++ ", type " ++ plain) ++ " from '" ++ specifier ++ "'"
  | importValue name source => "import " ++ braced name ++ " from " ++ source
  | importAll name source => "import * as " ++ name ++ " from " ++ source
  | exportClass name => "export class " ++ name ++ " " ++ openBrace
  | exportType name definition => "export type " ++ name ++ " = " ++ definition
  | exportConst name value => "export const " ++ name ++ " = " ++ value

@[simp]
theorem line_importType (name specifier : String) : (importType name specifier).line =
    "import type " ++ braced name ++ " from '" ++ specifier ++ "'" := rfl

@[simp]
theorem line_importOwn (name plain specifier : String) : (importOwn name plain specifier).line =
    "import " ++ braced (name ++ ", type " ++ plain) ++ " from '" ++ specifier ++ "'" := rfl

@[simp]
theorem line_importValue (name source : String) :
    (importValue name source).line = "import " ++ braced name ++ " from " ++ source := rfl

@[simp]
theorem line_importAll (name source : String) :
    (importAll name source).line = "import * as " ++ name ++ " from " ++ source := rfl

@[simp]
theorem line_exportClass (name : String) :
    (exportClass name).line = "export class " ++ name ++ " " ++ openBrace := rfl

@[simp]
theorem line_exportType (name definition : String) :
    (exportType name definition).line = "export type " ++ name ++ " = " ++ definition := rfl

@[simp]
theorem line_exportConst (name value : String) :
    (exportConst name value).line = "export const " ++ name ++ " = " ++ value := rfl

/-- The names that a statement imports into its file. -/
def imports : Statement → List String
  | importType name _ => [name]
  | importOwn name plain _ => [name, plain]
  | importValue name _ => [name]
  | importAll name _ => [name]
  | _ => []

/-- The names that a statement declares, all of which a file exports. -/
def exports : Statement → List String
  | exportClass name => [name]
  | exportType name _ => [name]
  | exportConst name _ => [name]
  | _ => []

/-- The names that a statement gives a meaning at the top level of its file. -/
def names (statement : Statement) : List String := statement.imports ++ statement.exports

/-- The file of another model, or of the same, that a statement imports from. -/
def specifier? : Statement → Option String
  | importType _ specifier => some specifier
  | importOwn _ _ specifier => some specifier
  | _ => none

end Statement

/-- Whether a line starts with a keyword. -/
def opens (keyword line : String) : Bool := keyword.toList.isPrefixOf line.toList

/-- Whether a line opens a statement. -/
def opensStatement (line : String) : Bool := opens "import " line || opens "export " line

/-- The module with the file of a kind, as the files of other models name it. -/
def siblingSpecifier (file : String) (target : ModelNames) : String :=
  "../" ++ target.stem ++ "/" ++ target.stem ++ "." ++ file

/-- The module with the model's own class, as the file beside it names it. -/
def ownSpecifier (names : ModelNames) : String := "./" ++ names.stem ++ ".model"

def relatedImport (suffix file : String) (target : ModelNames) : Statement :=
  .importType (target.className ++ suffix) (siblingSpecifier file target)

/-- The imports of related classes, in the order of first use. -/
def relatedImports (owner : ModelNames) (suffix file : String) (relations : List Relation) :
    List Statement :=
  ((relations.filter (·.target.canonical != owner.canonical)).map fun relation =>
    relatedImport suffix file relation.target).eraseDups

/-- The import of the model's own class and plain type, from the file beside. -/
def ownImport (names : ModelNames) : Statement :=
  .importOwn (modelClass names) (plainClass names) (ownSpecifier names)

def plainType (names : ModelNames) : Statement :=
  .exportType (plainClass names) ("Omit<" ++ modelClass names ++ ", 'constructor'>")

def modelStatements (entity : Entity) : List Statement :=
  relatedImports entity.names "Model" "model" entity.relations ++
    [.exportClass (modelClass entity.names), plainType entity.names]

def transferStatements (transfer : Transfer) : List Statement :=
  relatedImports transfer.names "DTO" "dto" transfer.relations ++
    [ownImport transfer.names, .exportClass (transferClass transfer.names)]

def actionSchema (names : ModelNames) (action : Form.Action) : Statement :=
  .exportConst (schemaName names action) ("z.object(" ++ openBrace)

def actionForm (names : ModelNames) (action : Form.Action) : Statement :=
  .exportType (formName names action) ("z.infer<typeof " ++ schemaName names action ++ ">")

/-- What a ruleset needs of the validation library and of the application. -/
def rulesetImports (paths : ImportPaths) (ruleset : Form.Ruleset) : List Statement :=
  [.importValue "z" "'zod'"] ++
    (if ruleset.usesLocalized then [.importValue "t" (literal paths.i18n)] else []) ++
    (if ruleset.usesCustom then [.importAll "validators" (literal paths.validators)] else [])

def rulesetStatements (paths : ImportPaths) (ruleset : Form.Ruleset) : List Statement :=
  rulesetImports paths ruleset ++
    ruleset.actions.flatMap fun action =>
      [actionSchema ruleset.names action, actionForm ruleset.names action]

/-! ### Lines that open a statement, and others -/

theorem opens_append {keyword start : String} (h : opens keyword start = true) (more : String) :
    opens keyword (start ++ more) = true := by
  rw [opens, List.isPrefixOf_iff_prefix] at h ⊢
  rw [String.toList_append]
  exact h.trans (List.prefix_append _ _)

theorem not_opens_of_head {keyword line : String}
    (h : keyword.toList.head? ≠ line.toList.head?) (hKeyword : keyword ≠ "") :
    opens keyword line = false := by
  rw [Bool.eq_false_iff]
  intro hOpens
  obtain ⟨rest, hLine⟩ := List.isPrefixOf_iff_prefix.mp hOpens
  cases hChars : keyword.toList with
  | nil => exact hKeyword (String.toList_inj.mp hChars)
  | cons c more =>
    rw [hChars] at h hLine
    rw [← hLine] at h
    exact h rfl

theorem Statement.opensStatement_line (statement : Statement) :
    opensStatement statement.line = true := by
  have hKeyword {start : String} (more : String)
      (h : opens "import " start = true ∨ opens "export " start = true) :
      opensStatement (start ++ more) = true := by
    rw [opensStatement, Bool.or_eq_true]
    exact h.imp (opens_append · more) (opens_append · more)
  cases statement <;>
  · simp only [line_importType, line_importOwn, line_importValue, line_importAll, line_exportClass,
      line_exportType, line_exportConst, String.append_assoc]
    exact hKeyword _ (by decide)

/-- How lines start that open no statement: they are empty, indented, or close a brace. -/
def IsInner (line : String) : Prop :=
  line.toList.head? = none ∨ line.toList.head? = some ' ' ∨
    line.toList.head? = closeBrace.toList.head?

namespace IsInner

theorem not_opens {keyword line : String} (h : IsInner line)
    (hKeyword : keyword ∈ ["import ", "export "]) : opens keyword line = false := by
  have hHeads : ∀ keyword ∈ ["import ", "export "], keyword ≠ "" ∧ keyword.toList.head? ≠ none ∧
      keyword.toList.head? ≠ some ' ' ∧ keyword.toList.head? ≠ closeBrace.toList.head? := by
    decide
  obtain ⟨hSome, hNone, hSpace, hBrace⟩ := hHeads keyword hKeyword
  refine not_opens_of_head (fun hHead => ?_) hSome
  rcases h with h | h | h <;> rw [h] at hHead
  · exact hNone hHead
  · exact hSpace hHead
  · exact hBrace hHead

theorem indented {indent : String} (h : indent.toList.head? = some ' ') (more : String) :
    IsInner (indent ++ more) := by
  refine .inr (.inl ?_)
  rw [String.toList_append, List.head?_append, h]
  rfl

theorem blank : IsInner "" := .inl rfl

theorem closing (more : String) : IsInner (closeBrace ++ more) := by
  refine .inr (.inr ?_)
  rw [String.toList_append, List.head?_append]
  rfl

theorem spacing {needed : Bool} : ∀ line ∈ spacing needed, IsInner line := by
  cases needed <;> simp [TypeScript.spacing, IsInner]

end IsInner

/-- Lines open some statements, in order, and no others. -/
def Opens (lines : List String) (statements : List Statement) : Prop :=
  lines.filter opensStatement = statements.map Statement.line

namespace Opens

variable {lines more : List String} {statements others : List Statement}

theorem append (h : Opens lines statements) (hMore : Opens more others) :
    Opens (lines ++ more) (statements ++ others) := by
  rw [Opens, List.filter_append, List.map_append, h, hMore]

theorem inner (h : ∀ line ∈ lines, IsInner line) : Opens lines [] := by
  refine List.filter_eq_nil_iff.mpr fun line hLine => ?_
  simp [opensStatement, (h line hLine).not_opens]

theorem append_inner (h : Opens lines statements) (hMore : Opens more []) :
    Opens (lines ++ more) statements := by
  simpa using h.append hMore

theorem map_inner {α : Type} {line : α → String} (h : ∀ item, IsInner (line item))
    (items : List α) : Opens (items.map line) [] := by
  refine inner fun text hText => ?_
  obtain ⟨item, -, rfl⟩ := List.mem_map.mp hText
  exact h item

theorem ofStatements (statements : List Statement) :
    Opens (statements.map Statement.line) statements := by
  refine List.filter_eq_self.mpr fun line hLine => ?_
  obtain ⟨statement, -, rfl⟩ := List.mem_map.mp hLine
  exact statement.opensStatement_line

theorem statement (statement : Statement) (h : Opens lines statements) :
    Opens (statement.line :: lines) (statement :: statements) :=
  (ofStatements [statement]).append h

theorem skip {line : String} (hLine : IsInner line) (h : Opens lines statements) :
    Opens (line :: lines) statements :=
  (inner (List.forall_mem_singleton.mpr hLine)).append h

theorem nil : Opens [] [] := rfl

end Opens

/-! ### Imports of related classes -/

theorem line_relatedImport (suffix file : String) (target : ModelNames) :
    (relatedImport suffix file target).line = relationImport suffix file target := by
  have hFrom : " from '../" = " from '" ++ "../" := by decide
  delta relationImport
  rw [relatedImport, Statement.line_importType, siblingSpecifier, hFrom]
  simp only [String.append_assoc]

/-- An import of a sibling is known from its line, if the name has no slash. -/
theorem relatedImport_eq_of_line {suffix file : String} {target other : ModelNames}
    (hTarget : '/' ∉ (target.className ++ suffix).toList)
    (hOther : '/' ∉ (other.className ++ suffix).toList)
    (h : (relatedImport suffix file target).line = (relatedImport suffix file other).line) :
    relatedImport suffix file target = relatedImport suffix file other := by
  have hChars (target : ModelNames) : (relatedImport suffix file target).line.toList =
      ("import type " ++ openBrace ++ " ").toList ++
        (((target.className ++ suffix).toList ++ (" " ++ closeBrace ++ " from '..").toList) ++
          '/' :: ((target.stem ++ "/" ++ target.stem ++ "." ++ file).toList ++ ['\''])) := by
    simp [relatedImport, siblingSpecifier, braced]
  have hNoSlash : '/' ∉ (" " ++ closeBrace ++ " from '..").toList := by decide
  have hText := congrArg String.toList h
  rw [hChars, hChars, List.append_cancel_left_eq] at hText
  -- the first slash of what remains is the one in the module
  have hParts := congrArg (Text.split '/') hText
  rw [Text.split_append, Text.split_append,
    Text.split_of_notMem (List.not_mem_append hTarget hNoSlash),
    Text.split_of_notMem (List.not_mem_append hOther hNoSlash)] at hParts
  have hHead := (List.cons.inj hParts).1
  have hName : target.className ++ suffix = other.className ++ suffix :=
    String.toList_inj.mp (List.append_cancel_right hHead)
  rw [hHead, List.append_cancel_left_eq, List.cons.injEq, List.append_cancel_right_eq,
    String.toList_inj] at hText
  have hModule (target : ModelNames) : siblingSpecifier file target =
      "../" ++ (target.stem ++ "/" ++ target.stem ++ "." ++ file) := by
    simp only [siblingSpecifier, String.append_assoc]
  rw [relatedImport, relatedImport, hName, hModule, hModule, hText.2]

/-- The lines that import related classes are those of imports, each of which is there once. -/
theorem relationImports_eq_map {owner : ModelNames} {suffix file : String}
    {relations : List Relation}
    (h : ∀ relation ∈ relations, '/' ∉ (relation.target.className ++ suffix).toList) :
    relationImports owner suffix file relations =
      (relatedImports owner suffix file relations).map Statement.line := by
  rw [relationImports_eq, relatedImports, ← eraseDups_map, List.map_map]
  · refine congrArg List.eraseDups (List.map_congr_left fun relation _ => ?_)
    exact (line_relatedImport suffix file relation.target).symm
  · intro first hFirst second hSecond hLine
    obtain ⟨relation, hRelation, rfl⟩ := List.mem_map.mp hFirst
    obtain ⟨other, hOther, rfl⟩ := List.mem_map.mp hSecond
    exact relatedImport_eq_of_line (h relation (List.mem_of_mem_filter hRelation))
      (h other (List.mem_of_mem_filter hOther)) hLine

/-! ### The statements of the files of a model -/

theorem relationImports_opens {owner : ModelNames} {suffix file : String}
    {relations : List Relation}
    (h : ∀ relation ∈ relations, '/' ∉ (relation.target.className ++ suffix).toList) :
    Opens (relationImports owner suffix file relations)
      (relatedImports owner suffix file relations) := by
  rw [relationImports_eq_map h]
  exact .ofStatements _

theorem isInner_relationLine (suffix : String) (relation : Relation) :
    IsInner (relationLine suffix relation) := by
  simp only [relationLine, String.append_assoc]
  exact .indented (by decide) _

theorem constructorLines_opens (name : String) : Opens (constructorLines name) [] := by
  refine .inner fun line hLine => ?_
  simp only [constructorLines, List.mem_cons, List.not_mem_nil, or_false] at hLine
  rcases hLine with rfl | rfl | rfl
  · simp only [String.append_assoc]
    exact .indented (by decide) _
  · exact .inr (.inl (by decide))
  · exact .indented (by decide) _

theorem isInner_fieldLine (field : EntityField) : IsInner (fieldLine field) := by
  simp only [fieldLine, String.append_assoc]
  exact .indented (by decide) _

theorem modelLines_opens {entity : Entity}
    (h : ∀ relation ∈ entity.relations, '/' ∉ (relation.target.className ++ "Model").toList) :
    Opens (modelLines entity) (modelStatements entity) := by
  have hClass : "export class " ++ modelClass entity.names ++ " " ++ openBrace =
    (Statement.exportClass (modelClass entity.names)).line := rfl
  have hPlain : "export type " ++ plainClass entity.names ++ " = Omit<" ++ modelClass entity.names ++
      ", 'constructor'>" = (plainType entity.names).line := by
    simp [plainType, ← String.toList_inj]
  have hStatements : modelStatements entity =
      relatedImports entity.names "Model" "model" entity.relations ++
        [.exportClass (modelClass entity.names)] ++ [plainType entity.names] := by
    simp [modelStatements]
  rw [modelLines, hStatements, hClass, hPlain]
  exact (relationImports_opens h).append_inner (.inner .spacing)
    |>.append (.statement (.exportClass _) .nil)
    |>.append_inner (.map_inner isInner_fieldLine _)
    |>.append_inner (.map_inner (isInner_relationLine "Model") _)
    |>.append_inner (.inner .spacing)
    |>.append_inner (constructorLines_opens _)
    |>.append (.skip (.closing "") (.skip .blank (.statement (plainType _) .nil)))

theorem isInner_wireLine (member : WireMember) : IsInner (wireLine member) := by
  cases member <;>
  · simp only [wireLine, String.append_assoc]
    exact .indented (by decide) _

theorem isInner_projectionLine (projection : Projection) : IsInner (projectionLine projection) := by
  simp only [projectionLine, String.append_assoc]
  exact .indented (by decide) _

theorem isInner_relationProjectionLine (method : String) (relation : Relation) :
    IsInner (relationProjectionLine method relation) := by
  simp only [relationProjectionLine, String.append_assoc]
  exact .indented (by decide) _

theorem projectionLines_opens (method : String) (transfer : Transfer) :
    Opens (projectionLines method transfer) [] :=
  (Opens.map_inner isInner_projectionLine _).append_inner
    (.map_inner (isInner_relationProjectionLine method) _)

theorem transferLines_opens {transfer : Transfer}
    (h : ∀ relation ∈ transfer.relations, '/' ∉ (relation.target.className ++ "DTO").toList) :
    Opens (transferLines transfer) (transferStatements transfer) := by
  have hOwn : "import " ++
      braced (modelClass transfer.names ++ ", type " ++ plainClass transfer.names) ++ " from './" ++
        transfer.names.stem ++ ".model'" = (ownImport transfer.names).line := by
    simp [ownImport, ownSpecifier, ← String.toList_inj]
  have hClass : "export class " ++ transferClass transfer.names ++ " " ++ openBrace =
    (Statement.exportClass (transferClass transfer.names)).line := rfl
  have hEntity : IsInner
      ("  " ++ entityMethod ++ "(): " ++ modelClass transfer.names ++ " " ++ openBrace) := by
    simp only [String.append_assoc]
    exact .indented rfl _
  have hReturn : IsInner ("    return new " ++ modelClass transfer.names ++ "(" ++ openBrace) := by
    simp only [String.append_assoc]
    exact .indented rfl _
  have hPlain : IsInner
      ("  " ++ plainMethod ++ "(): " ++ plainClass transfer.names ++ " " ++ openBrace) := by
    simp only [String.append_assoc]
    exact .indented rfl _
  rw [transferLines, transferStatements, hOwn, hClass]
  exact (relationImports_opens h).append
      (.statement (ownImport _) (.skip .blank (.statement (.exportClass _) .nil)))
    |>.append_inner (.map_inner isInner_wireLine _)
    |>.append_inner (.map_inner (isInner_relationLine "DTO") _)
    |>.append_inner (.inner .spacing)
    |>.append_inner (constructorLines_opens _)
    |>.append_inner (.skip .blank (.skip hEntity (.skip hReturn .nil)))
    |>.append_inner (projectionLines_opens _ transfer)
    |>.append_inner (.skip (.indented rfl _) (.skip (.indented rfl _)
      (.skip .blank (.skip hPlain (.skip (.indented rfl _) .nil)))))
    |>.append_inner (projectionLines_opens _ transfer)
    |>.append_inner
      (.skip (.indented rfl _) (.skip (.indented rfl _) (.skip (.closing "") .nil)))

theorem isInner_formFieldLine (field : String × Form.Chain) : IsInner (formFieldLine field) := by
  simp only [formFieldLine, String.append_assoc]
  exact .indented (by decide) _

theorem actionLines_opens (names : ModelNames) (action : Form.Action) :
    Opens (actionLines names action) [actionSchema names action, actionForm names action] := by
  have hSchema : "export const " ++ schemaName names action ++ " = z.object(" ++ openBrace =
      (actionSchema names action).line := by
    simp [actionSchema, ← String.toList_inj]
  have hForm : "export type " ++ formName names action ++ " = z.infer<typeof " ++
      schemaName names action ++ ">" = (actionForm names action).line := by
    simp [actionForm, ← String.toList_inj]
  rw [actionLines, hSchema, hForm]
  exact Opens.skip .blank (.statement (actionSchema _ _) .nil)
    |>.append_inner (.map_inner isInner_formFieldLine _)
    |>.append (.skip (.closing ")") (.skip .blank (.statement (actionForm _ _) .nil)))

theorem rulesetLines_eq (paths : ImportPaths) (ruleset : Form.Ruleset) :
    rulesetLines paths ruleset = (rulesetImports paths ruleset).map Statement.line ++
      ruleset.actions.flatMap (actionLines ruleset.names) := by
  have hLocalized : "import " ++ braced "t" ++ " from " ++ literal paths.i18n =
    (Statement.importValue "t" (literal paths.i18n)).line := rfl
  rw [rulesetLines, rulesetImports, hLocalized]
  cases ruleset.usesLocalized <;> cases ruleset.usesCustom <;> rfl

theorem rulesetLines_opens (paths : ImportPaths) (ruleset : Form.Ruleset) :
    Opens (rulesetLines paths ruleset) (rulesetStatements paths ruleset) := by
  have hActions : Opens (ruleset.actions.flatMap (actionLines ruleset.names))
      (ruleset.actions.flatMap fun action =>
        [actionSchema ruleset.names action, actionForm ruleset.names action]) := by
    induction ruleset.actions with
    | nil => exact .nil
    | cons action rest ih => exact (actionLines_opens ruleset.names action).append ih
  rw [rulesetLines_eq]
  exact (Opens.ofStatements _).append hActions

end EntityGen.TypeScript
