/-! Splitting a text, or another list, at a separator. -/

namespace EntityGen.Text

/-- The parts of a list between separators; there is always at least one. -/
def split {α : Type} [BEq α] (separator : α) : List α → List (List α)
  | [] => [[]]
  | c :: rest =>
    if c == separator then [] :: split separator rest
    else match split separator rest with
      | [] => [[c]]
      | first :: others => (c :: first) :: others

def parts (separator : Char) (text : String) : List String :=
  (split separator text.toList).map String.ofList

end EntityGen.Text
