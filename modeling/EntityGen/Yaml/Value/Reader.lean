import EntityGen.Yaml.Node.Reader
import EntityGen.Yaml.Scalar

/-!
From the nodes of a document to its value. Aliases are resolved against the anchors of the whole
document. Three limits guard against documents that grow when they are read: the depth of nesting,
the number of aliases followed, and one value for each key.
-/

namespace EntityGen.Yaml

/-- A node whose aliases are numbers. -/
abbrev Linked := Node Nat

/-- What linking a node gives: the node, the numbers of the anchors known after it, and the anchored
nodes in it, in document order. -/
structure Linking (α : Type) where
  result : α
  numbers : List (String × Nat)
  anchored : List (Nat × Linked)

/-- Gives an anchor its number: the count of names known before it. -/
def assign (numbers : List (String × Nat)) (properties : Properties) :
    Option Nat × List (String × Nat) :=
  match properties.anchor with
  | none => (none, numbers)
  | some name =>
    (some numbers.length, (name, numbers.length) :: numbers.filter (·.1 != name))

def anchorEntry (number? : Option Nat) (node : Linked) : List (Nat × Linked) :=
  match number? with
  | some number => [(number, node)]
  | none => []

mutual

/-- Replaces the names of aliases by the numbers their anchors have at that place; `none` if an
alias has no anchor before it. -/
def link? (numbers : List (String × Nat)) : Written → Option (Linking Linked)
  | .alias name => do return ⟨.alias (← numbers.lookup name), numbers, []⟩
  | .scalar properties text style =>
    let (number?, numbers) := assign numbers properties
    let node : Linked := .scalar properties text style
    some ⟨node, numbers, anchorEntry number? node⟩
  | .sequence properties items => do
    let (number?, numbers) := assign numbers properties
    let items ← linkItems? numbers items
    let node : Linked := .sequence properties items.result
    return ⟨node, items.numbers, anchorEntry number? node ++ items.anchored⟩
  | .mapping properties entries => do
    let (number?, numbers) := assign numbers properties
    let entries ← linkEntries? numbers entries
    let node : Linked := .mapping properties entries.result
    return ⟨node, entries.numbers, anchorEntry number? node ++ entries.anchored⟩

def linkItems? (numbers : List (String × Nat)) : List Written → Option (Linking (List Linked))
  | [] => some ⟨[], numbers, []⟩
  | item :: items => do
    let first ← link? numbers item
    let more ← linkItems? first.numbers items
    return ⟨first.result :: more.result, more.numbers, first.anchored ++ more.anchored⟩

def linkEntries? (numbers : List (String × Nat)) :
    List (Written × Written) → Option (Linking (List (Linked × Linked)))
  | [] => some ⟨[], numbers, []⟩
  | (key, value) :: entries => do
    let key ← link? numbers key
    let value ← link? key.numbers value
    let more ← linkEntries? value.numbers entries
    return ⟨(key.result, value.result) :: more.result, more.numbers,
      key.anchored ++ value.anchored ++ more.anchored⟩

end

/-- A document with its aliases linked. Of two nodes with one number the later one counts. -/
structure Document where
  root : Linked
  anchored : List (Nat × Linked)

namespace Document

def ofWritten? (root : Written) : Option Document :=
  (link? [] root).map fun linking => ⟨linking.result, linking.anchored.reverse⟩

/-- How many aliases may be followed: a hundred for each node, where a collection counts twice. -/
def aliasLimit (document : Document) : Nat := 100 * document.root.size

def depthLimit : Nat := 128

/-- A reader of a document: it knows how many aliases may still be followed. -/
abbrev Reading := StateT Nat Option

/-- The node that an alias stands for; other nodes stand for themselves. -/
def resolve (document : Document) (node : Linked) : Reading Linked :=
  match node with
  | .alias number => do
    match (← get), document.anchored.lookup number with
    | limit + 1, some target => set limit; return target
    | _, _ => failure
  | node => return node

end Document

/-- The local name of a tag, for a tag that begins with an exclamation mark. -/
def localTag? (tag : Option String) : Option String :=
  tag.bind fun tag =>
    match tag.toList with
    | ['!'] => some "!"
    | '!' :: name => some (String.ofList (match name with | '!' :: x :: rest => x :: rest | n => n))
    | _ => none

/-- The value of a scalar with a standard tag or none. A standard tag for a type decides the type,
and any other makes the scalar a text. -/
def scalarValue? (tag : Option String) (text : String) (style : Style) : Option Value :=
  match tag with
  | none => if style == .plain then plainValue? text else some (.str text)
  | some "tag:yaml.org,2002:bool" => (bool? text).map .bool
  | some "tag:yaml.org,2002:int" => ((integer? text.toList).filter fitsWord).map .int
  | some "tag:yaml.org,2002:float" => (float? text.toList).map .float
  | some "tag:yaml.org,2002:null" => if isNullName text then some .null else none
  | some _ => some (.str text)

def hasKey (key : Value) (entries : List (Value × Value)) : Bool :=
  entries.any fun entry => Value.same entry.1 key

/-- Entries in document order, `none` if a key occurs twice. -/
def distinctEntries? (entries : List (Value × Value)) : Option (List (Value × Value)) :=
  (entries.foldlM (fun done entry =>
    if hasKey entry.1 done then none else some (entry :: done)) []).map List.reverse

def withTag (tag : Option String) (value : Value) : Value :=
  match tag with
  | some tag => .tagged tag value
  | none => value

/-- The value of a scalar with a local tag, a standard tag or none. -/
def scalarOf? (properties : Properties) (text : String) (style : Style) : Option Value :=
  let tag := localTag? properties.tag
  let standard := if tag.isSome then none else properties.tag
  (scalarValue? standard text style).map (withTag tag)

/-- The value of a node, with a bound on the depth of nesting below it. -/
def valueOf (document : Document) : Nat → Linked → Document.Reading Value
  | 0, node => do
    match ← document.resolve node with
    | .scalar properties text style => scalarOf? properties text style
    | _ => failure
  | depth + 1, node => do
    match ← document.resolve node with
    | .alias _ => failure
    | .scalar properties text style => scalarOf? properties text style
    | .sequence properties items => do
      let items ← items.mapM (valueOf document depth)
      return withTag (localTag? properties.tag) (.seq items)
    | .mapping properties entries => do
      let entries ← entries.mapM fun (key, value) => do
        return (← valueOf document depth key, ← valueOf document depth value)
      let entries ← distinctEntries? entries
      return withTag (localTag? properties.tag) (.map entries)

def Document.value? (document : Document) : Option Value :=
  ((valueOf document Document.depthLimit document.root).run document.aliasLimit).map (·.1)

/-- The value that a text holds, null for a text without a document; `none` if the text is not one
document. -/
def parse? (text : String) : Option Value := do
  match ← Stream.ofText? text with
  | .empty => return .null
  | .document root => (← Document.ofWritten? root).value?

end EntityGen.Yaml
