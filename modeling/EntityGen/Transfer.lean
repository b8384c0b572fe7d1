import EntityGen.Entity

/-!
Transfer objects: the shape that a model has on the wire, and where each field of the entity is
found in it. A path renames a field and may nest it in a group, one level deep; of a longer path the
first and the last segment count.
-/

namespace EntityGen

/-- A place on the wire object. -/
inductive WirePath where
  | direct (name : String)
  | nested (outer inner : String)
deriving DecidableEq, Repr

/-- A member of the wire object: a value, or a group of values. -/
inductive WireMember where
  | flat (name : String) (type : Primitive) (required : Bool)
  | group (key : String) (required : Bool) (properties : List (String × Primitive))
deriving DecidableEq, Repr

/-- Where a field of the entity is found on the wire. -/
structure Projection where
  field : String
  source : WirePath
deriving DecidableEq, Repr

structure Transfer where
  names : ModelNames
  members : List WireMember
  projections : List Projection
  relations : List Relation
deriving DecidableEq, Repr

/-- The place that a path names. -/
def WirePath.ofPath (path : String) : WirePath :=
  match pathSegments path with
  | outer :: inner :: more => .nested outer ((inner :: more).getLast (by simp))
  | _ => .direct path

namespace Transfer

/-- Adds a value to the members. Fields of one wire name share a member, which is required if one of
them is. -/
def addFlat (name : String) (type : Primitive) (required : Bool) :
    List WireMember → List WireMember
  | [] => [.flat name type required]
  | .flat n t r :: rest =>
    if n == name then .flat n t (r || required) :: rest
    else .flat n t r :: addFlat name type required rest
  | .group k r properties :: rest => .group k r properties :: addFlat name type required rest

/-- Adds a property to a group, unless the group has it. -/
def addProperty (name : String) (type : Primitive) (properties : List (String × Primitive)) :
    List (String × Primitive) :=
  if properties.any (·.1 == name) then properties else properties ++ [(name, type)]

/-- Adds a value to the group of a key. -/
def addNested (outer inner : String) (type : Primitive) (required : Bool) :
    List WireMember → List WireMember
  | [] => [.group outer required [(inner, type)]]
  | .group k r properties :: rest =>
    if k == outer then .group k (r || required) (addProperty inner type properties) :: rest
    else .group k r properties :: addNested outer inner type required rest
  | .flat n t r :: rest => .flat n t r :: addNested outer inner type required rest

def addField (members : List WireMember) (name : String) (field : Field) : List WireMember :=
  match WirePath.ofPath (field.sourcePath name) with
  | .direct wire => addFlat wire field.primitive field.required members
  | .nested outer inner => addNested outer inner field.primitive field.required members

def ofModel (name : String) (model : Model) : Transfer where
  names := Naming.names name
  members := model.mappings.foldl (fun members (name, field) => addField members name field) []
  projections := model.mappings.map fun (name, field) => ⟨name, .ofPath (field.sourcePath name)⟩
  relations := model.relations

end Transfer

end EntityGen
