import EntityGen.Proofs.TypeScript.Chain
import EntityGen.Proofs.TypeScript.Tree

/-! Chains as expressions of the validation library: a base type and calls of methods on it. The
code of a chain is read as its expression, at every depth of nesting and wherever it stands. -/

namespace EntityGen.TypeScript

open Form

/-! ### Expressions -/

/-- A call of a method. -/
structure Call where
  method : String
  arguments : List Tree

/-- A call on the library, for the base type, and the calls on what it gives. -/
structure Expression where
  base : Call
  calls : List Call

def Call.trees (call : Call) : List Tree :=
  [markTree '.', wordTree call.method, .group .round call.arguments]

def Expression.trees (e : Expression) : List Tree :=
  wordTree "z" :: (e.base.trees ++ e.calls.flatMap Call.trees)

/-- Trees read as calls one after another. -/
def calls? : List Tree → Option (List Call)
  | [] => some []
  | .atom (.mark '.') :: .atom (.word method) :: .group .round arguments :: rest =>
    (calls? rest).map (⟨method, arguments⟩ :: ·)
  | _ => none

/-- Trees read as an expression. -/
def expression? : List Tree → Option Expression
  | .atom (.word "z") :: rest =>
    match calls? rest with
    | some (base :: calls) => some ⟨base, calls⟩
    | _ => none
  | _ => none

theorem calls?_flatMap (calls : List Call) : calls? (calls.flatMap Call.trees) = some calls := by
  induction calls with
  | nil => rfl
  | cons call rest ih =>
    show (calls? (rest.flatMap Call.trees)).map _ = _
    rw [ih, Option.map_some]

theorem expression?_trees (e : Expression) : expression? e.trees = some e := by
  have hCalls := calls?_flatMap (e.base :: e.calls)
  rw [List.flatMap_cons] at hCalls
  show (match calls? (e.base.trees ++ e.calls.flatMap Call.trees) with
    | some (base :: calls) => some (Expression.mk base calls)
    | _ => none) = _
  rw [hCalls]

/-! ### Messages -/

def paramTrees : Param → List Tree
  | .number x => numberTrees x
  | .text s => [literalTree s]

def paramRowTrees (row : String × Param) : List Tree :=
  keyTree row.1 :: markTree ':' :: paramTrees row.2

/-- Parameters that follow another. -/
def paramRowsTrees (params : Params) : List Tree :=
  params.flatMap fun row => markTree ',' :: paramRowTrees row

def paramsTrees : Params → List Tree
  | [] => []
  | row :: rest => [markTree ',', .group .curly (paramRowTrees row ++ paramRowsTrees rest)]

def messageTrees : Message → List Tree
  | .literal text => [literalTree text]
  | .localized key params => [wordTree "t", .group .round (literalTree key :: paramsTrees params)]

/-- The object that carries a message. -/
def messageTree (message : Message) : Tree :=
  .group .curly (wordTree "message" :: markTree ':' :: messageTrees message)

/-- The message as the only argument of a call. -/
def messageArgumentTrees (message : Option Message) : List Tree :=
  (message.map messageTree).toList

/-- The message as the argument behind another. -/
def remarkTrees : Option Message → List Tree
  | none => []
  | some message => [markTree ',', messageTree message]

/-! ### Calls -/

def patternTrees (s : String) : Pattern → List Tree
  | .custom => wordTree "validators" :: memberTrees s
  | .regex => [wordTree "new", wordTree "RegExp", .group .round [literalTree s]]
  | _ => [literalTree s]

/-- The predicate that tests a text for its least length. -/
def lengthTestTrees : List Tree :=
  [wordTree "v", markTree '=', markTree '>', wordTree "v", markTree '=', markTree '=',
    wordTree "null", markTree '|', markTree '|', wordTree "v", markTree '.', wordTree "length",
    markTree '>', markTree '=', wordTree "1"]

/-- The arguments of the call of a check in a chain without the methods of its type. -/
def checkTrees (message : Option Message) : Check → List Tree
  | .flag .nullable => []
  | .flag _ => messageArgumentTrees message
  | .bound _ x => numberTrees x ++ remarkTrees message
  | .pattern p s => patternTrees s p ++ remarkTrees message
  | .optional => []
  | .requiredMin => lengthTestTrees ++ remarkTrees message

/-- The call of a constraint. -/
def shownCall (wrapped : Bool) (c : Constraint) : Call where
  method := (checkMethod (shownCheck wrapped c.check)).name
  arguments := checkTrees c.message (shownCheck wrapped c.check)

def shownCalls : Bool → List Constraint → List Call
  | _, [] => []
  | wrapped, c :: rest => shownCall wrapped c :: shownCalls (wrapped || wrapsChain c.check) rest

mutual

/-- The expression that a chain is written as. -/
def chainExpression : Chain → Expression
  | .mk base message constraints =>
    ⟨⟨baseMethod base, baseTrees message base⟩, shownCalls false constraints⟩

/-- The arguments of the call for a base type. -/
def baseTrees (message : Option Message) : Base → List Tree
  | .array item => (chainExpression item).trees ++ remarkTrees message
  | .object properties => .group .curly (propertyTrees properties) :: remarkTrees message
  | .any => []
  | _ => messageArgumentTrees message

/-- The properties of an object, each with a comma behind it. -/
def propertyTrees : List (String × Chain) → List Tree
  | [] => []
  | (name, chain) :: rest =>
    keyTree name :: markTree ':' :: ((chainExpression chain).trees ++
      markTree ',' :: propertyTrees rest)

end

/-! ### The code of a chain is read as its expression -/

theorem isNameChar_of_isAlpha {c : Char} (h : c.isAlpha = true) : isNameChar c = true := by
  rw [isNameChar, Char.isAlphanum, h, Bool.true_or, Bool.true_or, Bool.true_or]

theorem ends_member (name : String) (rest : List Char) :
    Ends isNameChar ((member name).toList ++ rest) := by
  have hStarts : isNameChar '.' = false ∧ isNameChar '[' = false := by decide
  rw [member]
  split <;> simp only [String.toList_append, List.append_assoc]
  · exact ends_cons.mpr hStarts.1
  · exact ends_cons.mpr hStarts.2

/-- A word ends before the comma of the next parameter and before what ends the last. -/
theorem word_ends_paramRows (params : Params) {p : List Char} (hp : Ends isWordChar p) :
    Ends isWordChar (paramRows params ++ p) := by
  cases params with
  | nil => exact hp
  | cons _ _ => exact ends_cons.mpr (by decide)

theorem Method.name_ne_nil (method : Method) : method.name.toList ≠ [] := by
  cases method with
  | of known =>
    cases known with
    | flag f => cases f <;> decide
    | bound b => cases b <;> decide
    | pattern p => cases p <;> decide
    | _ => decide
  | _ => decide

namespace Spells

variable {kind other : Char → Bool} {trees : List Tree}

theorem braced {inner : String} (h : Spells isWordChar inner.toList trees) :
    Spells kind (TypeScript.braced inner).toList [.group .curly trees] := by
  have hSpace : Spells (fun _ => false) [' '] [] := .whole (by decide)
  have hEnd : Spells isWordChar [' '] [] := .whole (by decide)
  have hInside : Spells isWordChar ([' '] ++ (inner.toList ++ [' '])) trees := by
    have hAll := hSpace.andThen (h.before hEnd (by decide))
    rwa [List.append_nil, List.nil_append] at hAll
  have hText : (TypeScript.braced inner).toList =
      Bracket.curly.first :: ([' '] ++ (inner.toList ++ [' ']) ++ [Bracket.curly.last]) := by
    simp [TypeScript.braced, openBrace, closeBrace, Bracket.first, Bracket.last]
  rw [hText]
  exact hInside.group .curly (by decide)

/-! ### Messages -/

theorem param (param : Param) : Spells isWordChar (paramText param).toList (paramTrees param) := by
  cases param with
  | number x => exact number x
  | text s => exact literal s

theorem paramRow (row : String × Param) :
    Spells isWordChar (TypeScript.paramRow row).toList (paramRowTrees row) := by
  have hColon : Spells (fun _ => false) ": ".toList [markTree ':'] := .whole (by decide)
  have hRow := (key row.1).before (hColon.andThen (param row.2)) rfl
  simp only [TypeScript.paramRow, String.toList_append, List.append_assoc]
  exact hRow

theorem paramRows (params : Params) :
    Spells isWordChar (TypeScript.paramRows params) (paramRowsTrees params) := by
  induction params with
  | nil => exact .blanks (List.forall_mem_nil _)
  | cons row rest ih =>
    have hComma : Spells (fun _ => false) ", ".toList [markTree ','] := .whole (by decide)
    rw [paramRows_cons]
    exact hComma.andThen ((paramRow row).append ih fun _ => word_ends_paramRows rest)

theorem params (params : Params) :
    Spells kind (paramsText params).toList (paramsTrees params) := by
  cases params with
  | nil => exact .blanks (List.forall_mem_nil _)
  | cons row rest =>
    have hComma : Spells (fun _ => false) ", ".toList [markTree ','] := .whole (by decide)
    have hRows : Spells isWordChar
        (String.intercalate ", " ((row :: rest).map TypeScript.paramRow)).toList
        (paramRowTrees row ++ paramRowsTrees rest) := by
      rw [intercalate_toList]
      exact (paramRow row).append (paramRows rest) fun _ => word_ends_paramRows rest
    rw [paramsText, String.toList_append]
    exact hComma.andThen hRows.braced

theorem message (message : Message) :
    Spells kind (messageText message).toList (messageTrees message) := by
  cases message with
  | literal text => exact literal text
  | localized key rows =>
    have hName : Spells isNameChar ['t'] [wordTree "t"] :=
      word (by decide) (by decide) (List.forall_mem_nil _)
    have hKey : Spells (fun _ => false) (TypeScript.literal key).toList [literalTree key] :=
      literal key
    have hArguments : Spells (fun _ => false) _ _ := hKey.andThen (params rows)
    have hCall : Spells kind _ _ := hName.before (hArguments.group .round rfl) rfl
    simpa [messageText, messageTrees, Bracket.first, Bracket.last] using hCall

theorem messageArgument (message : Option Message) :
    Spells kind (TypeScript.messageArgument message).toList (messageArgumentTrees message) := by
  cases message with
  | none => exact .blanks (List.forall_mem_nil _)
  | some content =>
    have hLabel : Spells (fun _ => false) "message: ".toList [wordTree "message", markTree ':'] :=
      .whole (by decide)
    have hInside : Spells isWordChar ("message: " ++ messageText content).toList
        (wordTree "message" :: markTree ':' :: messageTrees content) := by
      rw [String.toList_append]
      exact hLabel.andThen (message content)
    have hText : TypeScript.messageArgument (some content) =
        TypeScript.braced ("message: " ++ messageText content) := by
      rw [← String.toList_inj, messageArgument_some]
      simp [TypeScript.braced]
    rw [hText]
    exact hInside.braced

/-! ### Calls -/

theorem remark (message : Option Message) :
    Spells kind (TypeScript.remark message) (remarkTrees message) := by
  cases message with
  | none => exact .blanks (List.forall_mem_nil _)
  | some content =>
    have hComma : Spells (fun _ => false) ", ".toList [markTree ','] := .whole (by decide)
    exact hComma.andThen (messageArgument (some content))

theorem arguments {text : String} (h : Spells kind text.toList trees) (hComma : kind ',' = false)
    (message : Option Message) :
    Spells kind (TypeScript.arguments text (TypeScript.messageArgument message)).toList
      (trees ++ remarkTrees message) := by
  rw [arguments_toList]
  refine h.append (remark message) fun p hp => ?_
  cases message with
  | none => exact hp
  | some _ => exact ends_cons.mpr hComma

theorem call {method argument : String} (hNil : method.toList ≠ [])
    (hMethod : ∀ c ∈ method.toList, c.isAlpha = true) (h : Spells kind argument.toList trees)
    (hClose : kind ')' = false) :
    Spells other (TypeScript.call method argument).toList (Call.trees ⟨method, trees⟩) := by
  have hPoint : Spells (fun _ => false) ['.'] [markTree '.'] := .whole (by decide)
  have hName : Spells isNameChar method.toList [wordTree method] := by
    cases hChars : method.toList with
    | nil => exact absurd hChars hNil
    | cons start more =>
      rw [hChars, List.forall_mem_cons] at hMethod
      have hWord := word (isNameChar_of_isAlpha hMethod.1) (isDigit_eq_false_of_isAlpha hMethod.1)
        fun c hc => isNameChar_of_isAlpha (hMethod.2 c hc)
      rwa [← hChars, String.ofList_toList, hChars] at hWord
  rw [call_toList]
  exact hPoint.andThen (hName.before (h.group .round hClose) rfl)

theorem pattern (s : String) (p : Pattern) :
    Spells isWordChar (patternArgument s p).toList (patternTrees s p) := by
  cases p with
  | custom =>
    have hName : Spells isNameChar "validators".toList [wordTree "validators"] :=
      identifier (by decide)
    have hMember := hName.append (member s) fun p _ => ends_member s p
    simp only [patternArgument, patternTrees, String.toList_append]
    exact hMember.mono fun c hc => by rw [isWordChar, hc, Bool.true_or]
  | regex =>
    have hNew : Spells (fun _ => false) "new ".toList [wordTree "new"] := .whole (by decide)
    have hName : Spells isNameChar "RegExp".toList [wordTree "RegExp"] := identifier (by decide)
    have hLiteral : Spells (fun _ => false) (TypeScript.literal s).toList [literalTree s] :=
      literal s
    have hCall : Spells isWordChar _ _ :=
      hNew.andThen (hName.before (hLiteral.group .round rfl) rfl)
    simpa [patternArgument, patternTrees, Bracket.first, Bracket.last] using hCall
  | _ => exact literal s

theorem lengthTest :
    Spells isWordChar "v => v == null || v.length >= 1".toList lengthTestTrees := by
  have hTest : Spells (fun _ => false) "v => v == null || v.length >= ".toList
      [wordTree "v", markTree '=', markTree '>', wordTree "v", markTree '=', markTree '=',
        wordTree "null", markTree '|', markTree '|', wordTree "v", markTree '.', wordTree "length",
        markTree '>', markTree '='] := .whole (by decide)
  exact hTest.andThen (magnitude (Number.isMagnitude_natDigits 1))

theorem check (message : Option Message) (check : Check) :
    Spells isWordChar (checkArgument (TypeScript.messageArgument message) check).toList
      (checkTrees message check) := by
  have hNothing : Spells isWordChar "".toList [] := .whole (by decide)
  have hComma : isWordChar ',' = false := by decide
  cases check with
  | flag f =>
    cases f with
    | nullable => exact hNothing
    | _ => exact messageArgument message
  | bound b x => exact (number x).arguments hComma message
  | pattern p s => exact (pattern s p).arguments hComma message
  | optional => exact hNothing
  | requiredMin => exact lengthTest.arguments hComma message

theorem constraintCalls (wrapped : Bool) (constraints : List Constraint) :
    Spells kind (TypeScript.constraintCalls wrapped constraints).toList
      ((shownCalls wrapped constraints).flatMap Call.trees) := by
  induction constraints generalizing wrapped with
  | nil => exact .blanks (List.forall_mem_nil _)
  | cons c rest ih =>
    have hCall : Spells (fun _ => false) _ _ :=
      call (checkMethod (shownCheck wrapped c.check)).name_ne_nil (isAlpha_checkMethod _)
        (check c.message (shownCheck wrapped c.check)) (by decide)
    rw [TypeScript.constraintCalls, String.toList_append, checkCall_shown, checkCall_wrapped,
      shownCalls, List.flatMap_cons]
    exact hCall.andThen (ih _)

end Spells

/-! ### Chains -/

theorem baseMethod_ne_nil (base : Base) : (baseMethod base).toList ≠ [] := by
  cases base <;> simp only [baseMethod] <;> decide

/-- A chain is read as its expression, if what its base type contains is. -/
theorem chainText_spells_of_base {depth : Nat} {base : Base} {message : Option Message}
    (hBase : Spells isWordChar (baseArgument depth (messageArgument message) base).toList
      (baseTrees message base)) (constraints : List Constraint) {kind : Char → Bool} :
    Spells kind (chainText depth (.mk base message constraints)).toList
      (chainExpression (.mk base message constraints)).trees := by
  have hName : Spells isNameChar "z".toList [wordTree "z"] := .identifier (by decide)
  have hCall : Spells (fun _ => false) _ _ :=
    .call (baseMethod_ne_nil base) (isAlpha_baseMethod base) hBase (by decide)
  have hCalls : Spells kind _ _ := hCall.andThen (.constraintCalls false constraints)
  rw [chainText, baseText_eq, chainExpression, Expression.trees]
  simp only [String.toList_append, List.append_assoc]
  refine hName.before hCalls ?_
  rw [call_toList]
  rfl

theorem objectText_spells {depth : Nat} {properties : List (String × Chain)} {kind : Char → Bool}
    (h : Spells (fun _ => false) (propertiesText depth properties).toList
      (propertyTrees properties)) :
    Spells kind (objectText depth properties).toList
      [.group .curly (propertyTrees properties)] := by
  have hStart : Spells (fun _ => false) ['\n'] [] := .whole (by decide)
  have hEnd : Spells (fun _ => false) (indentation depth).toList [] := by
    refine .blanks fun c hc => .inl ?_
    rw [indentation, String.toList_ofList] at hc
    exact (List.mem_replicate.mp hc).2
  have hInside : Spells (fun _ => false)
      (['\n'] ++ ((propertiesText depth properties).toList ++ (indentation depth).toList))
      (propertyTrees properties) := by
    have hAll := hStart.andThen (h.andThen hEnd)
    rwa [List.append_nil, List.nil_append] at hAll
  have hText : (objectText depth properties).toList = Bracket.curly.first :: (['\n'] ++
      ((propertiesText depth properties).toList ++ (indentation depth).toList) ++
        [Bracket.curly.last]) := by
    simp [objectText, openBrace, closeBrace, Bracket.first, Bracket.last]
  rw [hText]
  exact hInside.group .curly rfl

theorem propertyLine_spells {depth : Nat} {row : String × Chain} {kind : Char → Bool}
    (h : Spells (fun _ => false) (chainText (depth + 1) row.2).toList
      (chainExpression row.2).trees) :
    Spells kind (propertyLine depth row)
      (keyTree row.1 :: markTree ':' :: ((chainExpression row.2).trees ++ [markTree ','])) := by
  have hColon : Spells (fun _ => false) [':', ' '] [markTree ':'] := .whole (by decide)
  have hComma : Spells kind [',', '\n'] [markTree ','] := .whole (by decide)
  exact (Spells.key row.1).before (hColon.andThen (h.andThen hComma)) rfl

mutual

theorem chainText_spells (depth : Nat) : ∀ chain : Chain,
    Spells (fun _ => false) (chainText depth chain).toList (chainExpression chain).trees
  | .mk base message constraints =>
    chainText_spells_of_base (baseArgument_spells depth message base) constraints

theorem baseArgument_spells (depth : Nat) (message : Option Message) : ∀ base : Base,
    Spells isWordChar (baseArgument depth (messageArgument message) base).toList
      (baseTrees message base)
  | .string => .messageArgument message
  | .number => .messageArgument message
  | .boolean => .messageArgument message
  | .date => .messageArgument message
  | .any => .blanks (List.forall_mem_nil _)
  | .array item =>
    ((chainText_spells depth item).anywhere).arguments (by decide) message
  | .object properties =>
    (objectText_spells (propertiesText_spells depth properties)).arguments (by decide) message

theorem propertiesText_spells (depth : Nat) : ∀ properties : List (String × Chain),
    Spells (fun _ => false) (propertiesText depth properties).toList (propertyTrees properties)
  | [] => .blanks (List.forall_mem_nil _)
  | (name, chain) :: rest => by
    have hBlanks : Spells (fun _ => false) ((indentation depth).toList ++ [' ', ' ']) [] := by
      refine .blanks fun c hc => .inl ?_
      rw [indentation, String.toList_ofList, List.mem_append, List.mem_replicate] at hc
      simpa using hc.imp_left And.right
    have hLine : Spells (fun _ => false) (propertyLine depth (name, chain)) _ :=
      propertyLine_spells (chainText_spells (depth + 1) chain)
    have hAll := hBlanks.andThen (hLine.andThen (propertiesText_spells depth rest))
    rw [propertiesText_cons]
    simpa [propertyTrees] using hAll

end

/-- The code of a chain is read as its expression. -/
theorem trees?_chainText (depth : Nat) (chain : Chain) :
    trees? (chainText depth chain).toList = some (chainExpression chain).trees :=
  (chainText_spells depth chain).trees?_eq

end EntityGen.TypeScript
