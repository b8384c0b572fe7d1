import EntityGen.Text.Split

/-!
Arguments of a command. A command has options, with long names and letters, and it may have
subcommands. Arguments are read from left to right, and the first fault ends the reading.
-/

namespace EntityGen.CommandLine

/-- What an option takes. Only a list may be given more than once. -/
inductive OptionKind where
  | flag
  | path
  | text
  | port
  | list
  | help
  | version
deriving DecidableEq, Repr

structure OptionSpec where
  name : String
  letter : Option Char := none
  kind : OptionKind
deriving DecidableEq, Repr

/-- Why arguments are not read to their end: they are refused, or they ask for a text. -/
inductive Interruption where
  | usage
  | help
  | version
deriving DecidableEq, Repr

/-- Options that were given, by name, each with its value. -/
abbrev Given := List (String × String)

def maxPort : Nat := 65535

/-- The port that a text denotes: decimal digits, with or without a plus sign. -/
def port? (text : String) : Option Nat :=
  let digits := match text.toList with
    | '+' :: digits => digits
    | digits => digits
  if digits.isEmpty || !digits.all Char.isDigit then none
  else some (digits.foldl (fun n c => 10 * n + (c.toNat - '0'.toNat)) 0) |>.filter (· ≤ maxPort)

/-- Whether an argument is an option or the mark after which there are none. -/
def isOptionLike (argument : String) : Bool :=
  match argument.toList with
  | '-' :: _ :: _ => true
  | _ => false

def accept (spec : OptionSpec) (value : String) (given : Given) : Except Interruption Given :=
  if spec.kind != .list && given.any (·.1 == spec.name) then .error .usage
  else if spec.kind == .path && value.isEmpty then .error .usage
  else if spec.kind == .port && (port? value).isNone then .error .usage
  else .ok (given ++ [(spec.name, value)])

/-- What an argument gives: the options so far, and whether the argument after it was its value. -/
abbrev Progress := Except Interruption (Given × Bool)

/-- Takes the value of an option: the one attached to it, or else the next argument. -/
def takeValue (spec : OptionSpec) (attached next : Option String) (given : Given) : Progress :=
  match attached, next with
  | some value, _ => (accept spec value given).map (·, false)
  | none, some value =>
    if isOptionLike value then .error .usage else (accept spec value given).map (·, true)
  | none, none => .error .usage

def takeLong (options : List OptionSpec) (name : String) (attached next : Option String)
    (given : Given) : Progress :=
  match options.find? (·.name == name) with
  | none => .error .usage
  | some spec =>
    match spec.kind with
    | .flag => if attached.isSome then .error .usage else (accept spec "" given).map (·, false)
    | .help => .error (if attached.isSome then .usage else .help)
    | .version => .error (if attached.isSome then .usage else .version)
    | _ => takeValue spec attached next given

def attachedValue? : List Char → Option String
  | [] => none
  | '=' :: value => some (String.ofList value)
  | value => some (String.ofList value)

/-- Takes options by their letters; after one with a value the rest of the letters is the value. -/
def takeLetters (options : List OptionSpec) (next : Option String) :
    List Char → Given → Progress
  | [], given => .ok (given, false)
  | c :: rest, given =>
    match options.find? (·.letter == some c) with
    | none => .error .usage
    | some spec =>
      match spec.kind with
      | .flag => do takeLetters options next rest (← accept spec "" given)
      | .help => .error .help
      | .version => .error .version
      | _ => takeValue spec (attachedValue? rest) next given

/-- A long option: its name, and the value after an equals sign. -/
def splitLong (text : List Char) : String × Option String :=
  let name := String.ofList (text.takeWhile (· != '='))
  match text.dropWhile (· != '=') with
  | [] => (name, none)
  | _ :: value => (name, some (String.ofList value))

def takeOption (options : List OptionSpec) (argument : String) (next : Option String)
    (given : Given) : Progress :=
  match argument.toList with
  | '-' :: '-' :: text =>
    let (name, attached) := splitLong text
    takeLong options name attached next given
  | _ :: letters => takeLetters options next letters given
  | [] => .error .usage

/-- Reads the options of a command, up to the first argument that is none. Nothing may follow the
mark after which there are no options. -/
def readOptions (options : List OptionSpec) (given : Given) :
    List String → Except Interruption (Given × List String)
  | [] => .ok (given, [])
  | argument :: rest =>
    if argument == "--" then (if rest.isEmpty then .ok (given, []) else .error .usage)
    else if !isOptionLike argument then .ok (given, argument :: rest)
    else
      match takeOption options argument rest.head? given with
      | .error interruption => .error interruption
      | .ok (given, false) => readOptions options given rest
      | .ok (given, true) =>
        match rest with
        | _ :: rest => readOptions options given rest
        | [] => .ok (given, [])

def readAll (options : List OptionSpec) (arguments : List String) : Except Interruption Given :=
  match readOptions options [] arguments with
  | .error interruption => .error interruption
  | .ok (given, []) => .ok given
  | .ok (_, _ :: _) => .error .usage

namespace Given

def value? (given : Given) (name : String) : Option String := given.lookup name

def has (given : Given) (name : String) : Bool := given.any (·.1 == name)

/-- The values of a list, which commas separate. -/
def values (given : Given) (name : String) : List String :=
  (given.filter (·.1 == name)).flatMap fun (_, value) => Text.parts ',' value

end Given

end EntityGen.CommandLine
