import EntityGen.Yaml.Value

/-!
Changes between two states of a document: the entries of the later one that are new or different.
Entries that are gone are no changes; the directories of models show which ones remain.
-/

namespace EntityGen

open Yaml (Value)

namespace Yaml.Value

/-- The entries of a mapping, tagged or not; none of another value. -/
def entries (value : Value) : List (Value × Value) :=
  match value.untagged with
  | .map entries => entries
  | _ => []

/-- The text of a string, tagged or not. -/
def text? (value : Value) : Option String :=
  match value.untagged with
  | .str s => some s
  | _ => none

def find? (key : Value) (entries : List (Value × Value)) : Option Value :=
  (entries.find? fun entry => entry.1.same key).map (·.2)

end Yaml.Value

/-- Whether an entry has the same value in an earlier state. -/
def isKept (previous : List (Value × Value)) (entry : Value × Value) : Bool :=
  match Value.find? entry.1 previous with
  | some value => value.same entry.2
  | none => false

/-- The entries of a document that are not as in an earlier state, in document order. -/
def changedEntries (previous : Option Value) (current : Value) : List (Value × Value) :=
  current.entries.filter fun entry => !isKept ((previous.map Value.entries).getD []) entry

/-- The names of the changed entries of a document, each once, in document order. Entries whose keys
are not texts have no names. -/
def changedKeys (previous : Option Value) (current : Value) : List String :=
  ((changedEntries previous current).filterMap fun entry => entry.1.text?).eraseDups

end EntityGen
