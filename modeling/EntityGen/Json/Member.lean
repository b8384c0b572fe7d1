import EntityGen.Json.Reader

/-!
Reading one member out of a record in a JSON text. The record is an object that has the member once,
or an array whose only item is the member. What follows the record is not looked at.
-/

namespace EntityGen.Json

/-- Why a text is no such record: it is no JSON text, or it has another shape. -/
inductive RecordFault where
  | notJson
  | badShape
deriving DecidableEq, Repr

/-- The value of the member, if it was found. -/
def found : Option Json → Except RecordFault Json
  | some value => .ok value
  | none => .error .badShape

/-- Reads the entries of a record up to its end, in at most the given number of steps; `value?` is
the member if it was found before. -/
def memberOfEntries (name : String) (member? : Option Json) :
    Nat → List Char → Except RecordFault Json
  | 0, _ => .error .notJson
  | n + 1, text =>
    match skipSpace text with
    | '"' :: rest =>
      match string? true rest with
      | none => .error .notJson
      | some (key, rest) =>
        if key == name && member?.isSome then .error .badShape
        else
          match skipSpace rest with
          | ':' :: rest =>
            let read? : Option (Option Json × List Char) :=
              if key == name then (keptValue? rest).map fun (value, rest) => (some value, rest)
              else (passedValue? rest).map (member?, ·)
            match read? with
            | none => .error .notJson
            | some (member?, rest) =>
              match skipSpace rest with
              | '\x7d' :: _ => found member?
              | ',' :: rest => memberOfEntries name member? n rest
              | _ => .error .notJson
          | _ => .error .notJson
    | _ => .error .notJson

/-- The only item of an array, of which the opening bracket has been read. -/
def onlyItem (text : List Char) : Except RecordFault Json :=
  match skipSpace text with
  | ']' :: _ => .error .badShape
  | text =>
    match keptValue? text with
    | none => .error .notJson
    | some (value, rest) =>
      match skipSpace rest with
      | ']' :: _ => .ok value
      | _ => .error .notJson

def member (name : String) (text : String) : Except RecordFault Json :=
  match skipSpace text.toList with
  | '\x7b' :: rest =>
    match skipSpace rest with
    | '\x7d' :: _ => .error .badShape
    | rest => memberOfEntries name none (rest.length + 1) rest
  | '[' :: rest => onlyItem rest
  | text => if (value? true maxDepth 1 text).isSome then .error .badShape else .error .notJson

end EntityGen.Json
