import EntityGen.Number.Basic

/-!
The tree of a document: what its nodes mean once scalars have their types and aliases are replaced
by what they stand for. Mappings keep the order of the document.
-/

namespace EntityGen.Yaml

/-- A value of a document. A tag is kept without its exclamation mark. -/
inductive Value where
  | null
  | bool (b : Bool)
  | int (i : Int)
  | float (x : Number)
  | str (s : String)
  | seq (items : List Value)
  | map (entries : List (Value × Value))
  | tagged (tag : String) (value : Value)
deriving Inhabited, Repr

namespace Value

mutual

/-- Equality of values. The order of the entries of a mapping does not matter, an integer is
different from a float, and all floats that are not a number are equal. -/
def same : Value → Value → Bool
  | .null, .null => true
  | .bool a, .bool b => a == b
  | .int a, .int b => a == b
  | .float a, .float b => a.sameValue b
  | .str a, .str b => a == b
  | .seq a, .seq b => sameItems a b
  | .map a, .map b => a.length == b.length && sameEntries a b
  | .tagged t a, .tagged u b => t == u && same a b
  | _, _ => false

def sameItems : List Value → List Value → Bool
  | [], [] => true
  | a :: as, b :: bs => same a b && sameItems as bs
  | _, _ => false

/-- Whether every entry of one mapping is an entry of another. -/
def sameEntries : List (Value × Value) → List (Value × Value) → Bool
  | [], _ => true
  | (key, value) :: entries, others =>
    (others.any fun other => same key other.1 && same value other.2) && sameEntries entries others

end

def lookup? (key : String) : List (Value × Value) → Option Value
  | [] => none
  | (.str k, value) :: entries => if k == key then some value else lookup? key entries
  | _ :: entries => lookup? key entries

def untagged : Value → Value
  | .tagged _ value => untagged value
  | value => value

/-- What kind of value it is, in the words of messages about a document's shape. -/
def kind : Value → String
  | .null => "null"
  | .bool _ => "a boolean"
  | .int _ => "a number"
  | .float _ => "a number"
  | .str _ => "a string"
  | .seq _ => "a sequence"
  | .map _ => "a mapping"
  | .tagged .. => "a tagged value"

end Value

end EntityGen.Yaml
