import EntityGen.Proofs.TypeScript.Scanner
import EntityGen.Proofs.TypeScript.TopLevel

/-! Names of models in generated code. They are written as they are, into the names of classes and
types and, as stems, between the quotes of imports; so the code is well-formed just if they could
stand there. -/

namespace EntityGen

namespace TypeScript

/-! ### Identifiers -/

/-- The characters of identifiers. Those that are not ASCII are a matter of the language's version of
Unicode. -/
structure Alphabet where
  start : Char → Bool
  part : Char → Bool
  start_ascii : ∀ c, c.toNat < 0x80 → start c = (c.isAlpha || c == '_' || c == '$')
  part_ascii : ∀ c, c.toNat < 0x80 → part c = (c.isAlphanum || c == '_' || c == '$')

namespace Alphabet

/-- The characters of identifiers that are ASCII, and no others. -/
def ascii : Alphabet where
  start c := c.isAlpha || c == '_' || c == '$'
  part c := c.isAlphanum || c == '_' || c == '$'
  start_ascii _ _ := rfl
  part_ascii _ _ := rfl

/-- Whether a text is an identifier. -/
def allows (alphabet : Alphabet) (text : String) : Bool :=
  match text.toList with
  | [] => false
  | first :: rest => alphabet.start first && rest.all alphabet.part

variable (alphabet : Alphabet)

theorem allows_append {text suffix : String} (hText : text ≠ "")
    (hSuffix : ∀ c ∈ suffix.toList, c.toNat < 0x80 ∧ c.isAlphanum = true) :
    alphabet.allows (text ++ suffix) = alphabet.allows text := by
  have hPart : suffix.toList.all alphabet.part = true := by
    rw [List.all_eq_true]
    intro c hc
    rw [alphabet.part_ascii c (hSuffix c hc).1, (hSuffix c hc).2]
    rfl
  rw [allows, allows, String.toList_append]
  cases hChars : text.toList with
  | nil => exact absurd (String.toList_inj.mp hChars) hText
  | cons first rest => simp only [List.cons_append, List.all_append, hPart, Bool.and_true]

/-- The suffixes of the names of classes and types. -/
theorem allows_suffixed {suffix name : String} (hName : name ≠ "")
    (hSuffix : suffix ∈ ["Model", "PlainModel", "DTO"]) :
    alphabet.allows (Naming.capitalized name ++ suffix) =
      alphabet.allows (Naming.capitalized name) := by
  have hAll : ∀ suffix ∈ ["Model", "PlainModel", "DTO"],
      ∀ c ∈ suffix.toList, c.toNat < 0x80 ∧ c.isAlphanum = true := by simp
  exact alphabet.allows_append (Naming.capitalized_ne_empty hName) (hAll suffix hSuffix)

/-- A capital initial makes no difference to an ASCII name, which is an identifier just if it could
be the key of a property as it is. -/
theorem allows_capitalized_of_ascii {name : String} (h : ∀ c ∈ name.toList, c.toNat < 0x80) :
    alphabet.allows (Naming.capitalized name) = isIdentifier name := by
  have hUpper : ∀ n < 0x80, (Char.ofNat n).toUpper.toNat < 0x80 ∧
      ascii.start (Char.ofNat n).toUpper = ascii.start (Char.ofNat n) := by decide
  cases hChars : name.toList with
  | nil => simp [allows, isIdentifier, Naming.capitalized, Naming.mapInitial, hChars]
  | cons first rest =>
    rw [hChars, List.forall_mem_cons] at h
    obtain ⟨hSmall, hSame⟩ := hUpper first.toNat h.1
    rw [Char.ofNat_toNat] at hSmall hSame
    have hRest : rest.all alphabet.part = rest.all ascii.part := by
      rw [Bool.eq_iff_iff, List.all_eq_true, List.all_eq_true]
      exact forall₂_congr fun c hc => by rw [alphabet.part_ascii c (h.2 c hc), ascii]
    rw [allows, Naming.capitalized, String.toList_ofList, hChars, Naming.mapInitial, Text.upperChar,
      if_pos h.1, List.singleton_append]
    show (alphabet.start first.toUpper && rest.all alphabet.part) = _
    rw [alphabet.start_ascii _ hSmall, hRest, isIdentifier, hChars]
    exact congrArg (· && rest.all ascii.part) hSame

end Alphabet

/-! ### Specifiers -/

theorem mem_siblingSpecifier {file : String} {names : ModelNames} {c : Char} :
    c ∈ (siblingSpecifier file names).toList ↔
      c ∈ names.stem.toList ∨ c ∈ ['.', '/'] ∨ c ∈ file.toList := by
  simp [siblingSpecifier]
  tauto

theorem mem_ownSpecifier {names : ModelNames} {c : Char} :
    c ∈ (ownSpecifier names).toList ↔
      c ∈ names.stem.toList ∨ c ∈ ['.', '/'] ∨ c ∈ "model".toList := by
  simp [ownSpecifier]
  tauto

theorem low_of_breaksLiteral {c : Char} (h : breaksLiteral c = true) : c.toNat < 0x41 ∧ c ≠ '-' := by
  simp only [breaksLiteral, Bool.or_eq_true, beq_iff_eq] at h
  rcases h with (rfl | rfl) | rfl <;> decide

/-- A specifier that is made of a stem and harmless characters can be quoted just if the name that
the stem comes from could be. -/
theorem quotable_of_stem_iff {name file specifier : String} (hName : isModelName name = true)
    (hFile : file ∈ ["model", "dto"])
    (hSpecifier : ∀ {c}, c ∈ specifier.toList ↔
      c ∈ (Naming.stem name).toList ∨ c ∈ ['.', '/'] ∨ c ∈ file.toList) :
    Quotable specifier ↔ ∀ c ∈ name.toList, breaksLiteral c = false := by
  have hHarmless {c : Char} (h : c ∈ ['.', '/'] ∨ c ∈ file.toList) :
      breaksLiteral c = false ∧ c ≠ '\\' := by
    have hAll : ∀ file ∈ ["model", "dto"], ∀ c ∈ ['.', '/'] ++ file.toList,
        breaksLiteral c = false ∧ c ≠ '\\' := by simp [breaksLiteral]
    exact hAll file hFile c (List.mem_append.mpr h)
  have hBackslash : '\\' ∉ specifier.toList := by
    intro hMem
    rcases hSpecifier.mp hMem with hStem | hRest
    · have hLow : Text.IsLow '\\' := by unfold Text.IsLow; decide
      exact Naming.isModelName_noBackslash hName (Naming.of_mem_stem hStem hLow (by decide))
    · exact (hHarmless hRest).2 rfl
  rw [quotable_iff hBackslash]
  constructor
  · intro h c hc
    by_contra hBreaks
    rw [Bool.not_eq_false] at hBreaks
    obtain ⟨hLow, hHyphen⟩ := low_of_breaksLiteral hBreaks
    have hStem := (Naming.mem_stem_iff hLow hHyphen).mpr hc
    rw [h c (hSpecifier.mpr (.inl hStem))] at hBreaks
    cases hBreaks
  · intro h c hc
    rcases hSpecifier.mp hc with hStem | hRest
    · by_contra hBreaks
      rw [Bool.not_eq_false] at hBreaks
      obtain ⟨hLow, hHyphen⟩ := low_of_breaksLiteral hBreaks
      rw [h c ((Naming.mem_stem_iff hLow hHyphen).mp hStem)] at hBreaks
      cases hBreaks
    · exact (hHarmless hRest).1

theorem quotable_siblingSpecifier_iff {name file : String} (hName : isModelName name = true)
    (hFile : file ∈ ["model", "dto"]) :
    Quotable (siblingSpecifier file (Naming.names name)) ↔
      ∀ c ∈ name.toList, breaksLiteral c = false :=
  quotable_of_stem_iff hName hFile mem_siblingSpecifier

theorem quotable_ownSpecifier_iff {name : String} (hName : isModelName name = true) :
    Quotable (ownSpecifier (Naming.names name)) ↔ ∀ c ∈ name.toList, breaksLiteral c = false :=
  quotable_of_stem_iff hName (List.mem_cons_self) mem_ownSpecifier

/-! ### Statements of a model's files -/

/-- The statements of both files of a model. -/
def fileStatements (name : String) (model : Model) : List Statement :=
  modelStatements (.ofModel name model) ++ transferStatements (.ofModel name model)

/-- The names that statements give a meaning are identifiers. -/
def NamesAllowed (alphabet : Alphabet) (statements : List Statement) : Prop :=
  ∀ statement ∈ statements, ∀ text ∈ statement.names, alphabet.allows text = true

/-- The specifiers of statements denote themselves where they are written, between quotes. -/
def SpecifiersQuotable (statements : List Statement) : Prop :=
  ∀ statement ∈ statements, ∀ specifier ∈ statement.specifier?, Quotable specifier

section Files

variable {name : String} {model : Model}

theorem forall_relatedImports {suffix file : String} {P : Statement → Prop} :
    (∀ statement ∈ relatedImports (Naming.names name) suffix file model.relations, P statement) ↔
      ∀ target ∈ model.related name, P (relatedImport suffix file (Naming.names target)) := by
  simp only [mem_relatedImports, forall_exists_index, and_imp, forall_apply_eq_imp_iff₂]

theorem forall_fileStatements {P : Statement → Prop} :
    (∀ statement ∈ fileStatements name model, P statement) ↔
      (∀ target ∈ model.related name, P (relatedImport "Model" "model" (Naming.names target)) ∧
        P (relatedImport "DTO" "dto" (Naming.names target))) ∧
      P (.exportClass (modelClass (Naming.names name))) ∧ P (plainType (Naming.names name)) ∧
      P (ownImport (Naming.names name)) ∧ P (.exportClass (transferClass (Naming.names name))) := by
  rw [fileStatements, modelStatements, transferStatements]
  simp only [List.forall_mem_append, List.forall_mem_cons]
  rw [Entity.ofModel, Transfer.ofModel, forall_relatedImports, forall_relatedImports]
  simp only [forall_and]
  tauto

theorem mem_relatedSpecifiers {suffix file specifier : String} :
    specifier ∈ (relatedImports (Naming.names name) suffix file model.relations).filterMap
        Statement.specifier? ↔
      ∃ target ∈ model.related name, siblingSpecifier file (Naming.names target) = specifier := by
  simp only [List.mem_filterMap, mem_relatedImports, exists_exists_and_eq_and, relatedImport,
    Statement.specifier?, Option.some.injEq]

theorem mem_modelSpecifiers {specifier : String} :
    specifier ∈ (modelStatements (.ofModel name model)).filterMap Statement.specifier? ↔
      ∃ target ∈ model.related name, siblingSpecifier "model" (Naming.names target) = specifier := by
  rw [modelStatements, List.filterMap_append, List.mem_append, Entity.ofModel,
    mem_relatedSpecifiers]
  simp [plainType, Statement.specifier?]

theorem mem_transferSpecifiers {specifier : String} :
    specifier ∈ (transferStatements (.ofModel name model)).filterMap Statement.specifier? ↔
      (∃ target ∈ model.related name, siblingSpecifier "dto" (Naming.names target) = specifier) ∨
        specifier = ownSpecifier (Naming.names name) := by
  rw [transferStatements, List.filterMap_append, List.mem_append, Transfer.ofModel,
    mem_relatedSpecifiers]
  simp [ownImport, Statement.specifier?]

end Files

end TypeScript

open TypeScript

namespace Schema

section

variable {value : Yaml.Value} {schema : Schema} (hRead : ofValue value = .ok schema)
variable (hResolved : schema.dangling? = none) {name : String} {model : Model}
variable (hModel : (name, model) ∈ schema.models)
include hRead hResolved hModel

/-- The model and those that it is related to have model names. -/
theorem isModelName_named : ∀ each ∈ name :: model.related name, isModelName each = true := by
  intro each hEach
  rcases List.mem_cons.mp hEach with rfl | hRelated
  · exact isModelName_of_mem_models hRead hModel
  · obtain ⟨relationship, hRelationship, rfl⟩ := List.mem_map.mp (List.mem_of_mem_filter hRelated)
    exact isModelName_target hRead hResolved hModel hRelationship

theorem allows_names_iff (alphabet : Alphabet) :
    NamesAllowed alphabet (fileStatements name model) ↔
      ∀ each ∈ name :: model.related name, alphabet.allows (Naming.capitalized each) = true := by
  have hNonempty : ∀ each ∈ name :: model.related name, each ≠ "" := fun each hEach =>
    Naming.isModelName_ne_empty (isModelName_named hRead hResolved hModel each hEach)
  rw [List.forall_mem_cons] at hNonempty
  have hRelated : ∀ target ∈ model.related name,
      ((∀ text ∈ (relatedImport "Model" "model" (Naming.names target)).names,
          alphabet.allows text = true) ∧
        ∀ text ∈ (relatedImport "DTO" "dto" (Naming.names target)).names,
          alphabet.allows text = true) ↔ alphabet.allows (Naming.capitalized target) = true := by
    intro target hTarget
    have hSuffixed {suffix : String} :=
      @alphabet.allows_suffixed suffix _ (hNonempty.2 target hTarget)
    simp [relatedImport, Statement.names, Statement.imports, Statement.exports, Naming.names,
      hSuffixed]
  have hSuffixed {suffix : String} := @alphabet.allows_suffixed suffix _ hNonempty.1
  rw [NamesAllowed, forall_fileStatements, forall₂_congr hRelated, List.forall_mem_cons]
  simp [plainType, ownImport, Statement.names, Statement.imports, Statement.exports, modelClass,
    plainClass, transferClass, Naming.names, hSuffixed, and_comm]

theorem quotable_specifiers_iff :
    SpecifiersQuotable (fileStatements name model) ↔
      ∀ each ∈ name :: model.related name, ∀ c ∈ each.toList, breaksLiteral c = false := by
  have hNames := isModelName_named hRead hResolved hModel
  rw [List.forall_mem_cons] at hNames
  have hRelated : ∀ target ∈ model.related name,
      ((∀ specifier ∈ (relatedImport "Model" "model" (Naming.names target)).specifier?,
          Quotable specifier) ∧
        ∀ specifier ∈ (relatedImport "DTO" "dto" (Naming.names target)).specifier?,
          Quotable specifier) ↔ ∀ c ∈ target.toList, breaksLiteral c = false := by
    intro target hTarget
    have hQuotable {file : String} := @quotable_siblingSpecifier_iff _ file (hNames.2 target hTarget)
    simp only [relatedImport, Statement.specifier?, Option.mem_some_iff, forall_eq']
    rw [hQuotable (by simp), hQuotable (by simp), and_self]
  rw [SpecifiersQuotable, forall_fileStatements, forall₂_congr hRelated, List.forall_mem_cons,
    ← quotable_ownSpecifier_iff hNames.1]
  simp [plainType, ownImport, Statement.specifier?, and_comm]

/-- In a schema that is read and whose references lead to entries, the files of a model import and
declare identifiers just if the names of the model and of those that it is related to are
identifiers, with a capital initial. Of names in ASCII these are the names that could be keys of
properties without quotes. The specifiers are the paths to the files of the models that are meant,
and denote them just if no name has a quote or a line break. -/
theorem files_wellFormed_iff (alphabet : Alphabet) :
    Opens (modelLines (.ofModel name model)) (modelStatements (.ofModel name model)) ∧
    Opens (transferLines (.ofModel name model)) (transferStatements (.ofModel name model)) ∧
    (NamesAllowed alphabet (fileStatements name model) ↔
      ∀ each ∈ name :: model.related name, alphabet.allows (Naming.capitalized each) = true) ∧
    ((∀ each ∈ name :: model.related name, ∀ c ∈ each.toList, c.toNat < 0x80) →
      (NamesAllowed alphabet (fileStatements name model) ↔
        ∀ each ∈ name :: model.related name, isIdentifier each = true)) ∧
    (∀ specifier,
      specifier ∈ (modelStatements (.ofModel name model)).filterMap Statement.specifier? ↔
        ∃ target ∈ model.related name, siblingSpecifier "model" (Naming.names target) = specifier) ∧
    (∀ specifier,
      specifier ∈ (transferStatements (.ofModel name model)).filterMap Statement.specifier? ↔
        (∃ target ∈ model.related name, siblingSpecifier "dto" (Naming.names target) = specifier) ∨
          specifier = ownSpecifier (Naming.names name)) ∧
    (SpecifiersQuotable (fileStatements name model) ↔
      ∀ each ∈ name :: model.related name, ∀ c ∈ each.toList, breaksLiteral c = false) := by
  have hNames := allows_names_iff hRead hResolved hModel alphabet
  refine ⟨modelLines_opens hRead hResolved hModel, transferLines_opens hRead hResolved hModel,
    hNames, fun hAscii => ?_, fun _ => mem_modelSpecifiers, fun _ => mem_transferSpecifiers,
    quotable_specifiers_iff hRead hResolved hModel⟩
  rw [hNames]
  exact forall₂_congr fun each hEach => by
    rw [alphabet.allows_capitalized_of_ascii (hAscii each hEach)]

end

/-- A document with a model that has a quote in its name. -/
def quotedName : Yaml.Value := .map [(.str "it's", .map [(.str "type", .str "model")])]

/-- The document is read, but neither are the names of its model's classes identifiers, nor does the
specifier of an import between its files end at the closing quote. -/
theorem files_illFormed :
    ∃ schema, ofValue quotedName = .ok schema ∧ schema.dangling? = none ∧
      ("it's", {}) ∈ schema.models ∧ ¬NamesAllowed .ascii (fileStatements "it's" {}) ∧
      ¬SpecifiersQuotable (fileStatements "it's" {}) := by
  have hRead : ofValue quotedName = .ok ⟨[("it's", .model {})]⟩ := rfl
  have hResolved : Schema.dangling? ⟨[("it's", .model {})]⟩ = none := rfl
  obtain ⟨-, -, -, hNames, -, -, hQuotable⟩ :=
    @files_wellFormed_iff _ _ hRead hResolved "it's" {} List.mem_cons_self .ascii
  refine ⟨_, hRead, hResolved, List.mem_cons_self, ?_, ?_⟩
  · rw [hNames (by simp [Model.related])]
    exact fun h => absurd (h "it's" List.mem_cons_self) (by decide)
  · rw [hQuotable]
    exact fun h => absurd (h "it's" List.mem_cons_self '\'' (by decide)) (by decide)

end Schema

end EntityGen
