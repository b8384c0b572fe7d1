/-! The two kinds of documents. -/

namespace EntityGen

/-- A document describes models or the forms of models. -/
inductive DocumentKind where
  | schema
  | forms
deriving DecidableEq, Repr

namespace DocumentKind

def name : DocumentKind → String
  | .schema => "schema"
  | .forms => "forms"

/-- What the entries of a document of a kind are called. -/
def entryLabel : DocumentKind → String
  | .schema => "models"
  | .forms => "forms"

end DocumentKind

end EntityGen
