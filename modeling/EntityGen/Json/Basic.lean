import EntityGen.Yaml.Value

/-! JSON values, and the document tree that a JSON value stands for. -/

namespace EntityGen

/-- A JSON value. The keys of an object are kept in the order given. -/
inductive Json where
  | null
  | bool (b : Bool)
  | int (i : Int)
  | float (x : Number)
  | str (s : String)
  | arr (items : List Json)
  | obj (entries : List (String × Json))
deriving Inhabited

namespace Json

mutual

def toValue : Json → Yaml.Value
  | .null => .null
  | .bool b => .bool b
  | .int i => .int i
  | .float x => .float x
  | .str s => .str s
  | .arr items => .seq (itemsToValues items)
  | .obj entries => .map (entriesToValues entries)

def itemsToValues : List Json → List Yaml.Value
  | [] => []
  | item :: items => toValue item :: itemsToValues items

def entriesToValues : List (String × Json) → List (Yaml.Value × Yaml.Value)
  | [] => []
  | (key, value) :: entries => (.str key, toValue value) :: entriesToValues entries

end

/-- Puts an entry among entries sorted by key; it replaces one of the same key. -/
def putSorted (key : String) (value : Json) : List (String × Json) → List (String × Json)
  | [] => [(key, value)]
  | (k, v) :: rest =>
    if key < k then (key, value) :: (k, v) :: rest
    else if key == k then (key, value) :: rest
    else (k, v) :: putSorted key value rest

/-- The object of some entries: sorted by key, and of two entries with one key the later. -/
def sortedObj (entries : List (String × Json)) : Json :=
  .obj (entries.foldl (fun done (key, value) => putSorted key value done) [])

end Json

end EntityGen
