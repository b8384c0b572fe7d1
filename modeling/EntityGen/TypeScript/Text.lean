import EntityGen.TypeScript.Literal

/-! Pieces of generated code: braces, lines, imports. -/

namespace EntityGen.TypeScript

def openBrace : String := "\x7b"

def closeBrace : String := "\x7d"

/-- A text between braces, with a space on either side. -/
def braced (inner : String) : String := openBrace ++ " " ++ inner ++ " " ++ closeBrace

def fileText (lines : List String) : String := String.join (lines.map (· ++ "\n"))

/-- Whether a class member must be there. -/
def presence (required : Bool) : String := if required then "!" else "?"

/-- The constructor that every generated class has. -/
def constructorLines (className : String) : List String :=
  ["  constructor(data: Partial<" ++ className ++ "> = " ++ openBrace ++ closeBrace ++ ") " ++
      openBrace,
    "    Object.assign(this, data)",
    "  " ++ closeBrace]

/-- An empty line, if there is something to set apart. -/
def spacing (needed : Bool) : List String := if needed then [""] else []

end EntityGen.TypeScript
