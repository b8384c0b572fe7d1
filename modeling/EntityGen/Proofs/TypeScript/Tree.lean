import EntityGen.Proofs.TypeScript.Token

/-! Generated code as trees: what stands between two brackets that belong together is one tree. A
piece of code spells some trees if it is read as them wherever it stands. -/

namespace EntityGen.TypeScript

inductive Tree where
  | atom (a : Atom)
  | group (b : Bracket) (inside : List Tree)

mutual

def flatten : Tree → List Token
  | .atom a => [.atom a]
  | .group b inside => .opening b :: (flattenAll inside ++ [.closing b])

/-- The tokens of trees one after another. -/
def flattenAll : List Tree → List Token
  | [] => []
  | tree :: rest => flatten tree ++ flattenAll rest

end

/-- Tokens as trees, behind some trees in some groups that are not closed yet: the innermost group
comes first, each with the trees before it. -/
def gather : List Token → List (Bracket × List Tree) → List Tree → Option (List Tree)
  | [], [], trees => some trees
  | [], _ :: _, _ => none
  | .atom a :: rest, groups, trees => gather rest groups (trees ++ [.atom a])
  | .opening b :: rest, groups, trees => gather rest ((b, trees) :: groups) []
  | .closing _ :: _, [], _ => none
  | .closing b :: rest, (other, before) :: groups, trees =>
    if b = other then gather rest groups (before ++ [.group b trees]) else none

/-- The trees of a text. -/
def trees? (text : List Char) : Option (List Tree) :=
  (tokens? text).bind fun tokens => gather tokens [] []

theorem flattenAll_append (first second : List Tree) :
    flattenAll (first ++ second) = flattenAll first ++ flattenAll second := by
  induction first with
  | nil => rfl
  | cons tree rest ih => rw [List.cons_append, flattenAll, ih, flattenAll, List.append_assoc]

mutual

theorem gather_flatten : ∀ (tree : Tree) (rest : List Token) (groups : List (Bracket × List Tree))
    (before : List Tree),
    gather (flatten tree ++ rest) groups before = gather rest groups (before ++ [tree])
  | .atom a, rest, groups, before => by rw [flatten, List.singleton_append, gather]
  | .group b inside, rest, groups, before => by
    rw [flatten, List.cons_append, gather, List.append_assoc, gather_flattenAll inside,
      List.singleton_append, List.nil_append, gather, if_pos rfl]

theorem gather_flattenAll : ∀ (trees : List Tree) (rest : List Token)
    (groups : List (Bracket × List Tree)) (before : List Tree),
    gather (flattenAll trees ++ rest) groups before = gather rest groups (before ++ trees)
  | [], rest, groups, before => by rw [flattenAll, List.nil_append, List.append_nil]
  | tree :: more, rest, groups, before => by
    rw [flattenAll, List.append_assoc, gather_flatten tree, gather_flattenAll more,
      List.append_assoc, List.singleton_append]

end

/-! ### Pieces of code -/

/-- The characters of a bracket. -/
def Bracket.first : Bracket → Char
  | .round => '('
  | .square => '['
  | .curly => '\x7b'

def Bracket.last : Bracket → Char
  | .round => ')'
  | .square => ']'
  | .curly => '\x7d'

/-- A piece of code is read as some trees, if it is followed by no character of a kind. -/
def Spells (kind : Char → Bool) (piece : List Char) (trees : List Tree) : Prop :=
  Reads kind piece (flattenAll trees)

variable {kind other : Char → Bool} {c : Char} {s u : List Char} {first second : List Tree}

namespace Spells

theorem trees?_eq (h : Spells kind s first) : trees? s = some first := by
  have hGather := gather_flattenAll first [] [] []
  rw [List.append_nil, List.nil_append] at hGather
  rw [trees?, Reads.tokens?_eq h, Option.bind_some, hGather, gather]

theorem mono (h : Spells kind s first) (hKind : ∀ c, kind c = true → other c = true) :
    Spells other s first :=
  Reads.mono h hKind

/-- A piece that needs no end is read wherever it stands. -/
theorem anywhere (h : Spells (fun _ => false) s first) : Spells kind s first :=
  h.mono fun _ hNever => absurd hNever Bool.false_ne_true

theorem append (h : Spells kind s first) (hMore : Spells other u second)
    (hu : ∀ p, Ends other p → Ends kind (u ++ p)) : Spells other (s ++ u) (first ++ second) := by
  rw [Spells, flattenAll_append]
  exact Reads.append h hMore hu

theorem andThen (h : Spells (fun _ => false) s first) (hMore : Spells other u second) :
    Spells other (s ++ u) (first ++ second) :=
  h.append hMore fun _ _ _ _ => rfl

/-- A piece before another that starts with a character that ends it. -/
theorem before (h : Spells kind s first) (hMore : Spells other u second)
    (hu : (u.head?.any fun c => !kind c) = true) : Spells other (s ++ u) (first ++ second) := by
  cases u with
  | nil => cases hu
  | cons c u => exact h.append hMore fun _ _ => ends_cons.mpr (by simpa using hu)

/-- A piece that ends no token in the middle. -/
theorem whole (h : readAll? .between s = some (flattenAll first, .between)) :
    Spells kind s first :=
  Reads.whole h

theorem blanks (h : ∀ c ∈ s, c = ' ' ∨ c = '\n') : Spells kind s [] := Reads.blanks h

/-- A piece between brackets. -/
theorem group (b : Bracket) (h : Spells kind s first) (hLast : kind b.last = false) :
    Spells other (b.first :: (s ++ [b.last])) [.group b first] := by
  have hOpening : Reads (fun _ => false) [b.first] [.opening b] :=
    .whole (by cases b <;> decide)
  have hClosing : Reads other [b.last] [.closing b] := .whole (by cases b <;> decide)
  have hGroup := hOpening.andThen (Reads.before h hClosing hLast)
  rw [Spells, flattenAll, flattenAll, List.append_nil, flatten]
  exact hGroup

end Spells

/-! ### Words, literals and numbers -/

def wordTree (text : String) : Tree := .atom (.word text)

def markTree (c : Char) : Tree := .atom (.mark c)

def literalTree (text : String) : Tree := .atom (.literal (unitsOfText text.toList))

/-- A property key as a tree. -/
def keyTree (name : String) : Tree :=
  if isIdentifier name then wordTree name else literalTree name

/-- The access to a property as trees. -/
def memberTrees (name : String) : List Tree :=
  if isIdentifier name then [markTree '.', wordTree name] else [.group .square [literalTree name]]

/-- The text of a number as trees: a word, behind its sign. -/
def signedTrees : List Char → List Tree
  | '-' :: magnitude => [markTree '-', wordTree (String.ofList magnitude)]
  | magnitude => [wordTree (String.ofList magnitude)]

def numberTrees (x : Number) : List Tree := signedTrees x.sourceText.toList

/-- A character that may stand in a word. -/
def isWordChar (c : Char) : Bool := isNameChar c || c == '.'

theorem isDigit_eq_false_of_isAlpha {c : Char} (h : c.isAlpha = true) : c.isDigit = false := by
  delta Char.isAlpha Char.isUpper Char.isLower at h
  simp only [Char.isDigit, Bool.or_eq_true, Bool.and_eq_true, decide_eq_true_eq,
    Bool.and_eq_false_iff, decide_eq_false_iff_not, ge_iff_le, UInt32.le_iff_toNat_le] at h ⊢
  have hNine : '9'.val.toNat < 'A'.val.toNat ∧ '9'.val.toNat < 'a'.val.toNat := by decide
  omega

theorem isNameChar_or_eq_point {c : Char} (h : Number.isMagnitudeChar c = true) :
    isNameChar c = true ∨ c = '.' := by
  simp only [Number.isMagnitudeChar, Bool.or_eq_true, List.contains_iff_mem, List.mem_cons,
    List.not_mem_nil, or_false] at h
  rcases h with hDigit | rfl | rfl | rfl | rfl | rfl | rfl
  · left
    simp [isNameChar, Char.isAlphanum, hDigit]
  · exact .inr rfl
  all_goals exact .inl (by decide)

namespace Spells

theorem literal (text : String) :
    Spells kind (TypeScript.literal text).toList [literalTree text] :=
  Reads.literal text

theorem word {start : Char} {more : List Char} (hStart : isNameChar start = true)
    (hDigit : start.isDigit = false) (hMore : ∀ c ∈ more, isNameChar c = true) :
    Spells isNameChar (start :: more) [wordTree (String.ofList (start :: more))] := by
  have hNames (c : Char) : goesOn start c = isNameChar c := by
    rw [goesOn, hDigit, Bool.and_false, Bool.or_false]
  have hWord : Reads (goesOn start) (start :: more) [wordToken (start :: more)] :=
    .wordOf hStart fun c hc => (hNames c).trans (hMore c hc)
  exact Reads.mono hWord fun c hc => (hNames c).symm.trans hc

theorem identifier {name : String} (h : isIdentifier name = true) :
    Spells isNameChar name.toList [wordTree name] := by
  have hChars := isNameChar_of_mem h
  rw [isIdentifier] at h
  split at h
  · cases h
  · rename_i start more hName
    rw [hName, List.forall_mem_cons] at hChars
    have hDigit : start.isDigit = false := by
      simp only [Bool.and_eq_true, Bool.or_eq_true, beq_iff_eq] at h
      rcases h.1 with (hAlpha | rfl) | rfl
      · exact isDigit_eq_false_of_isAlpha hAlpha
      · decide
      · decide
    have hWord := word hChars.1 hDigit hChars.2
    rw [← hName, String.ofList_toList] at hWord
    exact hWord

theorem key (name : String) : Spells isNameChar (propertyKey name).toList [keyTree name] := by
  rw [propertyKey, keyTree]
  split
  · exact identifier ‹_›
  · exact literal name

theorem member (name : String) :
    Spells isNameChar (TypeScript.member name).toList (memberTrees name) := by
  rw [TypeScript.member, memberTrees]
  split
  · rw [String.toList_append]
    have hPoint : Spells (fun _ => false) ".".toList [markTree '.'] := .whole (by decide)
    exact hPoint.andThen (identifier ‹_›)
  · have hLiteral : Spells (fun _ => false) (TypeScript.literal name).toList [literalTree name] :=
      literal name
    simp only [String.toList_append]
    exact hLiteral.group .square rfl

theorem magnitude {text : List Char} (h : Number.IsMagnitude text) :
    Spells isWordChar text [wordTree (String.ofList text)] := by
  obtain ⟨⟨start, more, rfl, hStart⟩, hChars⟩ := h
  -- a point goes on with a number only behind a digit
  have hGoOn : ∀ c ∈ start :: more, goesOn start c = true := fun c hc => by
    rw [goesOn, Bool.or_eq_true, Bool.and_eq_true, beq_iff_eq]
    refine (isNameChar_or_eq_point (hChars c hc)).imp_right fun hPoint => ⟨hPoint, ?_⟩
    exact hStart.resolve_right fun hNone => hNone (hPoint ▸ hc)
  have hFirst : isNameChar start = true := by
    refine (isNameChar_or_eq_point (hChars start List.mem_cons_self)).resolve_right ?_
    rintro rfl
    rcases hStart with hDigit | hNone
    · exact absurd hDigit (by decide)
    · exact hNone List.mem_cons_self
  have hWord : Reads (goesOn start) (start :: more) [wordToken (start :: more)] :=
    .wordOf hFirst (List.forall_mem_cons.mp hGoOn).2
  refine Reads.mono hWord fun c hc => ?_
  rw [goesOn, Bool.or_eq_true, Bool.and_eq_true] at hc
  rw [isWordChar, Bool.or_eq_true]
  exact hc.imp_right And.left

theorem number (x : Number) : Spells isWordChar x.sourceText.toList (numberTrees x) := by
  obtain ⟨negative, text, hText, hMagnitude⟩ := x.sourceText_eq_signed
  rw [numberTrees, hText, Number.signed, String.toList_ofList]
  cases negative with
  | false =>
    have hTrees : signedTrees text = [wordTree (String.ofList text)] := by
      rw [signedTrees.eq_def]
      split
      · exact absurd (hMagnitude.chars '-' List.mem_cons_self) (by decide)
      · rfl
    rw [if_neg Bool.false_ne_true, hTrees]
    exact magnitude hMagnitude
  | true =>
    have hSign : Spells (fun _ => false) ['-'] [markTree '-'] := .whole (by decide)
    exact hSign.andThen (magnitude hMagnitude)

end Spells

end EntityGen.TypeScript
