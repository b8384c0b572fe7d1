import EntityGen.Form.Chain
import EntityGen.TypeScript.Text

/-!
The file of a validation ruleset: for each action a schema in the notation of the validation library
and the type of the form it describes.
-/

namespace EntityGen.TypeScript

open Form

/-- The modules that a ruleset may import from. -/
structure ImportPaths where
  /-- the module of the function that localizes messages -/
  i18n : String := "@/i18n"
  /-- the module of the application's predicates -/
  validators : String := "@/validators"
deriving DecidableEq, Repr

/-- The arguments of a call, of which the second may be left out. -/
def arguments (first second : String) : String :=
  if second.isEmpty then first else first ++ ", " ++ second

/-- A parameter of a localized message. -/
def paramText : Param → String
  | .number x => x.sourceText
  | .text s => literal s

/-- The object that carries a message. -/
def messageArgument : Option Message → String
  | none => ""
  | some (.literal text) => braced ("message: " ++ literal text)
  | some (.localized key []) => braced ("message: t(" ++ literal key ++ ")")
  | some (.localized key params) =>
    let values := params.map fun (name, value) => propertyKey name ++ ": " ++ paramText value
    braced ("message: t(" ++ literal key ++ ", " ++ braced (String.intercalate ", " values) ++ ")")

def boundMethod : Bound → String
  | .minItems => "min"
  | .maxItems => "max"
  | bound => bound.name

def call (method argument : String) : String := "." ++ method ++ "(" ++ argument ++ ")"

/-- The call of a check, given its message argument. After a predicate or a null check (`wrapped`)
the chain has no methods of strings, and the least length is checked by a predicate. -/
def checkCall (wrapped : Bool) (message : String) : Check → String
  | .flag .nullable => call "nullable" ""
  | .flag f => call f.name message
  | .bound b x => call (boundMethod b) (arguments x.sourceText message)
  | .pattern .custom predicate =>
    call "refine" (arguments ("validators" ++ member predicate) message)
  | .pattern .regex pattern =>
    call "regex" (arguments ("new RegExp(" ++ literal pattern ++ ")") message)
  | .pattern p text => call p.name (arguments (literal text) message)
  | .optional => call "optional" ""
  | .requiredMin =>
    if wrapped then call "refine" (arguments "v => v == null || v.length >= 1" message)
    else call "min" (arguments (Number.sourceText (.ofInt 1)) message)

/-- Whether a check leaves a chain without the methods of its type. -/
def wrapsChain : Check → Bool
  | .flag .nullable => true
  | .pattern .custom _ => true
  | _ => false

def constraintCalls (wrapped : Bool) : List Constraint → String
  | [] => ""
  | constraint :: rest =>
    checkCall wrapped (messageArgument constraint.message) constraint.check ++
      constraintCalls (wrapped || wrapsChain constraint.check) rest

def indentation (depth : Nat) : String := String.ofList (List.replicate (2 * depth) ' ')

mutual

/-- A chain as an expression, at a depth of nesting. -/
def chainText (depth : Nat) : Chain → String
  | .mk base message constraints =>
    baseText depth (messageArgument message) base ++ constraintCalls false constraints

def baseText (depth : Nat) (message : String) : Base → String
  | .string => "z" ++ call "string" message
  | .number => "z" ++ call "number" message
  | .boolean => "z" ++ call "boolean" message
  | .date => "z" ++ call "date" message
  | .any => "z" ++ call "any" ""
  | .array item => "z" ++ call "array" (arguments (chainText depth item) message)
  | .object properties =>
    "z" ++ call "object" (arguments
      (openBrace ++ "\n" ++ propertiesText depth properties ++ indentation depth ++ closeBrace)
      message)

def propertiesText (depth : Nat) : List (String × Chain) → String
  | [] => ""
  | (name, chain) :: rest =>
    indentation (depth + 1) ++ propertyKey name ++ ": " ++ chainText (depth + 1) chain ++ ",\n" ++
      propertiesText depth rest

end

def formFieldLine (field : String × Chain) : String :=
  "  " ++ propertyKey field.1 ++ ": " ++ chainText 1 field.2 ++ ","

def schemaName (names : ModelNames) (action : Action) : String :=
  names.valueName ++ action.pascal ++ "Schema"

def formName (names : ModelNames) (action : Action) : String :=
  names.className ++ action.pascal ++ "Form"

def actionLines (names : ModelNames) (action : Action) : List String :=
  let schema := schemaName names action
  ["", "export const " ++ schema ++ " = z.object(" ++ openBrace] ++
    action.fields.map formFieldLine ++
    [closeBrace ++ ")", "",
      "export type " ++ formName names action ++ " = z.infer<typeof " ++ schema ++ ">"]

def rulesetLines (paths : ImportPaths) (ruleset : Ruleset) : List String :=
  ["import " ++ braced "z" ++ " from 'zod'"] ++
    (if ruleset.usesLocalized then ["import " ++ braced "t" ++ " from " ++ literal paths.i18n]
      else []) ++
    (if ruleset.usesCustom then ["import * as validators from " ++ literal paths.validators]
      else []) ++
    ruleset.actions.flatMap (actionLines ruleset.names)

def rulesetText (paths : ImportPaths) (ruleset : Ruleset) : String :=
  fileText (rulesetLines paths ruleset)

end EntityGen.TypeScript
