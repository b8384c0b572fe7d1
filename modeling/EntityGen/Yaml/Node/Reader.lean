import EntityGen.Yaml.Node
import EntityGen.Yaml.Token.Lexer

/-!
From tokens to the one document of a stream. Readers take the tokens and give the node with the
tokens after it; `none` means that the tokens form no document. Each reader takes a bound on the
number of steps, which the length of the token list provides.
-/

namespace EntityGen.Yaml

/-- A node as it is written, with aliases that name an anchor. -/
abbrev Written := Node String

/-- The tag prefixes in force: those of the document's directives, then the two defaults. -/
abbrev TagPrefixes := List (String × String)

def defaultTagPrefixes : TagPrefixes := [("!", "!"), ("!!", "tag:yaml.org,2002:")]

/-- A tag in its full form; `none` if its handle is not declared. -/
def fullTag? (prefixes : TagPrefixes) (handle text : String) : Option String :=
  if handle.isEmpty then some text else (prefixes.lookup handle).map (· ++ text)

/-- Reads an anchor and a tag, in either order. -/
def properties? (prefixes : TagPrefixes) : List Token → Option (Properties × List Token)
  | .anchor name :: .tag handle text :: rest => do
    return (⟨some name, some (← fullTag? prefixes handle text)⟩, rest)
  | .tag handle text :: .anchor name :: rest => do
    return (⟨some name, some (← fullTag? prefixes handle text)⟩, rest)
  | .anchor name :: rest => some (⟨some name, none⟩, rest)
  | .tag handle text :: rest => do return (⟨none, some (← fullTag? prefixes handle text)⟩, rest)
  | rest => some ({}, rest)

/-- Whether a node is left out where a token of a block mapping follows. -/
def endsBlockPart : List Token → Bool
  | .key :: _ | .value :: _ | .blockEnd :: _ => true
  | _ => false

mutual

/-- Reads a node. In a block context (`block`) block collections may follow, and in the value of a
block mapping (`flat`) also a sequence that is not indented. -/
def node? (prefixes : TagPrefixes) (block flat : Bool) :
    Nat → List Token → Option (Written × List Token)
  | 0, _ => none
  | n + 1, tokens =>
    match tokens with
    | .alias name :: rest => some (.alias name, rest)
    | tokens => do
      let (properties, tokens) ← properties? prefixes tokens
      let collection (items : List Written × List Token) : Written × List Token :=
        (.sequence properties items.1, items.2)
      let table (entries : List (Written × Written) × List Token) : Written × List Token :=
        (.mapping properties entries.1, entries.2)
      match tokens with
      | .scalar text style :: rest =>
        let properties :=
          if properties.tag == some "!" then { properties with tag := none } else properties
        some (.scalar properties text style, rest)
      | .openSequence :: rest => (flowItems? prefixes n true rest).map collection
      | .openMapping :: rest => (flowEntries? prefixes n true rest).map table
      | .entry :: _ =>
        if flat then (flatItems? prefixes n tokens).map collection
        else if properties == {} then none
        else some (.empty properties, tokens)
      | .blockSequence :: rest =>
        if block then (blockItems? prefixes n rest).map collection
        else if properties == {} then none
        else some (.empty properties, tokens)
      | .blockMapping :: rest =>
        if block then (blockEntries? prefixes n rest).map table
        else if properties == {} then none
        else some (.empty properties, tokens)
      | tokens => if properties == {} then none else some (.empty properties, tokens)

def blockItems? (prefixes : TagPrefixes) : Nat → List Token → Option (List Written × List Token)
  | 0, _ => none
  | n + 1, tokens =>
    match tokens with
    | .blockEnd :: rest => some ([], rest)
    | .entry :: rest => do
      let (item, rest) ← match rest with
        | .entry :: _ | .blockEnd :: _ => some (.empty, rest)
        | _ => node? prefixes true false n rest
      let (items, rest) ← blockItems? prefixes n rest
      return (item :: items, rest)
    | _ => none

/-- Reads the items of a block sequence that stands at the column of the mapping around it. -/
def flatItems? (prefixes : TagPrefixes) : Nat → List Token → Option (List Written × List Token)
  | 0, _ => none
  | n + 1, tokens =>
    match tokens with
    | .entry :: rest => do
      let (item, rest) ←
        if endsBlockPart rest || rest.head? == some .entry then some (.empty, rest)
        else node? prefixes true false n rest
      let (items, rest) ← flatItems? prefixes n rest
      return (item :: items, rest)
    | rest => some ([], rest)

def blockEntries? (prefixes : TagPrefixes) :
    Nat → List Token → Option (List (Written × Written) × List Token)
  | 0, _ => none
  | n + 1, tokens =>
    match tokens with
    | .blockEnd :: rest => some ([], rest)
    | .key :: rest => do
      let part (rest : List Token) : Option (Written × List Token) :=
        if endsBlockPart rest then some (.empty, rest) else node? prefixes true true n rest
      let (key, rest) ← part rest
      let (value, rest) ← match rest with
        | .value :: rest => part rest
        | rest => some (.empty, rest)
      let (entries, rest) ← blockEntries? prefixes n rest
      return ((key, value) :: entries, rest)
    | _ => none

def flowItems? (prefixes : TagPrefixes) :
    Nat → Bool → List Token → Option (List Written × List Token)
  | 0, _, _ => none
  | n + 1, first, tokens =>
    match tokens with
    | .closeSequence :: rest => some ([], rest)
    | tokens => do
      let tokens ← match first, tokens with
        | true, tokens => some tokens
        | false, .comma :: rest => some rest
        | false, _ => none
      match tokens with
      | .closeSequence :: rest => some ([], rest)
      | .key :: rest => do
        let (entry, rest) ← flowPair? prefixes n rest
        let (items, rest) ← flowItems? prefixes n false rest
        return (.mapping {} [entry] :: items, rest)
      | tokens => do
        let (item, rest) ← node? prefixes false false n tokens
        let (items, rest) ← flowItems? prefixes n false rest
        return (item :: items, rest)

/-- Reads the single entry of a mapping that is an item of a flow sequence. Where its key is left
out, the token after the question mark is passed over. -/
def flowPair? (prefixes : TagPrefixes) : Nat → List Token → Option ((Written × Written) × List Token)
  | 0, _ => none
  | n + 1, tokens => do
    let (key, rest) ← match tokens with
      | .value :: rest | .comma :: rest | .closeSequence :: rest => some (.empty, rest)
      | tokens => node? prefixes false false n tokens
    match rest with
    | .value :: rest =>
      match rest with
      | .comma :: _ | .closeSequence :: _ => return ((key, .empty), rest)
      | _ => do
        let (value, rest) ← node? prefixes false false n rest
        return ((key, value), rest)
    | rest => return ((key, .empty), rest)

def flowEntries? (prefixes : TagPrefixes) :
    Nat → Bool → List Token → Option (List (Written × Written) × List Token)
  | 0, _, _ => none
  | n + 1, first, tokens =>
    match tokens with
    | .closeMapping :: rest => some ([], rest)
    | tokens => do
      let tokens ← match first, tokens with
        | true, tokens => some tokens
        | false, .comma :: rest => some rest
        | false, _ => none
      let (pair?, rest) ← match tokens with
        | .closeMapping :: rest => some (none, rest)
        | .key :: rest => do
          let (key, rest) ← match rest with
            | .value :: _ | .comma :: _ | .closeMapping :: _ => some (.empty, rest)
            | _ => node? prefixes false false n rest
          let (value, rest) ← match rest with
            | .value :: rest => match rest with
              | .comma :: _ | .closeMapping :: _ => some (.empty, rest)
              | _ => node? prefixes false false n rest
            | rest => some (.empty, rest)
          pure (some (key, value), rest)
        | tokens => do
          let (key, rest) ← node? prefixes false false n tokens
          pure (some (key, .empty), rest)
      match pair? with
      | none => return ([], rest)
      | some entry => do
        let (entries, rest) ← flowEntries? prefixes n false rest
        return (entry :: entries, rest)

end

/-- Reads the directives before a document: at most one version, 1.1 or 1.2, and no handle twice. -/
def directives? (version : Bool) (declared : TagPrefixes) :
    List Token → Option (TagPrefixes × List Token)
  | .version major minor :: rest =>
    if version || major != 1 || (minor != 1 && minor != 2) then none
    else directives? true declared rest
  | .tagPrefix handle text :: rest =>
    if (declared.lookup handle).isSome then none
    else directives? version ((handle, text) :: declared) rest
  | rest => some (declared ++ defaultTagPrefixes, rest)

/-- What the tokens of a stream hold. -/
inductive Stream where
  | empty
  | document (root : Written)
deriving Inhabited

/-- Reads the content of a document that a marker has begun; it may be left out. -/
def content? (prefixes : TagPrefixes) (tokens : List Token) : Option (Written × List Token) :=
  match tokens with
  | [] | .version .. :: _ | .tagPrefix .. :: _ | .documentStart :: _ | .documentEnd :: _ =>
    some (.empty, tokens)
  | _ => node? prefixes true false (4 * tokens.length + 4) tokens

/-- The tokens of a stream that holds at most one document. -/
def Stream.ofTokens? (tokens : List Token) : Option Stream := do
  match tokens with
  | [] => return .empty
  | .version .. :: _ | .tagPrefix .. :: _ | .documentStart :: _ =>
    let (prefixes, rest) ← directives? false [] tokens
    match rest with
    | .documentStart :: rest => finish (← content? prefixes rest)
    | _ => none
  | _ => finish (← node? defaultTagPrefixes true false (4 * tokens.length + 4) tokens)
where
  /-- After the document only end markers may follow. -/
  finish (result : Written × List Token) : Option Stream :=
    if result.2.all (· == .documentEnd) then some (.document result.1) else none

def Stream.ofText? (text : String) : Option Stream :=
  tokens? text.toList >>= Stream.ofTokens?

end EntityGen.Yaml
