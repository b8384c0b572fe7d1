import EntityGen.Yaml.Token

/-!
The nodes of a YAML document: scalars and collections as written, with anchors, aliases and tags,
before any scalar is given a type.
-/

namespace EntityGen.Yaml

/-- What stands before a node: an anchor and a tag in its full form. -/
structure Properties where
  anchor : Option String := none
  tag : Option String := none
deriving DecidableEq, Repr, Inhabited

/-- A node of a document. An alias refers to another node, by its anchor or by a number. -/
inductive Node (ref : Type) where
  | alias (target : ref)
  | scalar (properties : Properties) (text : String) (style : Style)
  | sequence (properties : Properties) (items : List (Node ref))
  | mapping (properties : Properties) (entries : List (Node ref × Node ref))
deriving Inhabited

namespace Node

variable {ref : Type}

/-- The node where nothing is written. -/
def empty (properties : Properties := {}) : Node ref := .scalar properties "" .plain

mutual

/-- The size of a node: scalars and aliases count once, a collection has a start and an end. -/
def size : Node ref → Nat
  | .alias _ => 1
  | .scalar .. => 1
  | .sequence _ items => 2 + sizeItems items
  | .mapping _ entries => 2 + sizeEntries entries

def sizeItems : List (Node ref) → Nat
  | [] => 0
  | item :: items => size item + sizeItems items

def sizeEntries : List (Node ref × Node ref) → Nat
  | [] => 0
  | (key, value) :: entries => size key + size value + sizeEntries entries

end

end Node

end EntityGen.Yaml
