/-! Sorting texts by the code points of their characters. -/

namespace EntityGen.Text

/-- Puts a text into a list in ascending order, unless it is there. -/
def insertSorted (text : String) : List String → List String
  | [] => [text]
  | first :: rest =>
    if text < first then text :: first :: rest
    else if text == first then first :: rest
    else first :: insertSorted text rest

/-- Texts in ascending order, each once. -/
def sorted (texts : List String) : List String := texts.foldr insertSorted []

end EntityGen.Text
