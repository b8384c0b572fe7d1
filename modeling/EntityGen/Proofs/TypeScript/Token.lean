import EntityGen.Proofs.TypeScript.Decoding
import EntityGen.Proofs.TypeScript.Reveals

/-! Generated code as tokens: words, literals, brackets and other marks. What stands between quotes
is one token, whatever its characters, so that a name inside a text is not taken for code. -/

namespace EntityGen.TypeScript

inductive Bracket where
  | round
  | square
  | curly
deriving DecidableEq

/-- A token that is no bracket. -/
inductive Atom where
  /-- a name, a keyword or a number without its sign -/
  | word (text : String)
  /-- a literal, by the code units of its value -/
  | literal (units : List Nat)
  | mark (c : Char)
deriving DecidableEq

inductive Token where
  | atom (a : Atom)
  | opening (b : Bracket)
  | closing (b : Bracket)
deriving DecidableEq

/-- Where the reader of tokens is. -/
inductive Place where
  | between
  | word (first : Char) (rest : List Char)
  | quoted (mode : Mode) (units : List Nat)
deriving DecidableEq

def wordToken (chars : List Char) : Token := .atom (.word (String.ofList chars))

def markToken : Char → Token
  | '(' => .opening .round
  | ')' => .closing .round
  | '[' => .opening .square
  | ']' => .closing .square
  | '\x7b' => .opening .curly
  | '\x7d' => .closing .curly
  | c => .atom (.mark c)

/-- Whether a character goes on with a word. A point belongs to numbers only. -/
def goesOn (first c : Char) : Bool := isNameChar c || (c == '.' && first.isDigit)

/-- How a character between two tokens is read. -/
def startToken (c : Char) : List Token × Place :=
  if isNameChar c then ([], .word c [])
  else if c = '\'' then ([], .quoted .plain [])
  else if c = ' ' ∨ c = '\n' then ([], .between)
  else ([markToken c], .between)

/-- The tokens that end at a character, and the place behind it. -/
def readChar? : Place → Char → Option (List Token × Place)
  | .between, c => some (startToken c)
  | .word first rest, c =>
    if goesOn first c then some ([], .word first (rest ++ [c]))
    else some (wordToken (first :: rest) :: (startToken c).1, (startToken c).2)
  | .quoted mode units, c =>
    (step? mode c).map fun
      | (more, some next) => ([], .quoted next (units ++ more))
      | (more, none) => ([.atom (.literal (units ++ more))], .between)

/-- The tokens that end in a text, from a place on, and the place behind it. -/
def readAll? : Place → List Char → Option (List Token × Place)
  | place, [] => some ([], place)
  | place, c :: rest =>
    (readChar? place c).bind fun step =>
      (readAll? step.2 rest).map fun more => (step.1 ++ more.1, more.2)

/-- The token that ends where the text does. A literal that is not closed is none. -/
def lastTokens? : Place → Option (List Token)
  | .between => some []
  | .word first rest => some [wordToken (first :: rest)]
  | .quoted _ _ => none

/-- The tokens of a text from a place on. -/
def tokensFrom? (place : Place) (text : List Char) : Option (List Token) :=
  (readAll? place text).bind fun all => (lastTokens? all.2).map (all.1 ++ ·)

def tokens? (text : List Char) : Option (List Token) := tokensFrom? .between text

variable {place next : Place} {first second : List Token} {s u : List Char}

theorem readAll?_append (h : readAll? place s = some (first, next)) (u : List Char) :
    readAll? place (s ++ u) = (readAll? next u).map fun more => (first ++ more.1, more.2) := by
  induction s generalizing place first with
  | nil =>
    obtain ⟨rfl, rfl⟩ := Prod.mk.inj (Option.some.inj h)
    exact Option.map_id'.symm
  | cons c s ih =>
    obtain ⟨step, hStep, h⟩ := Option.bind_eq_some_iff.mp h
    obtain ⟨more, hMore, h⟩ := Option.map_eq_some_iff.mp h
    obtain ⟨rfl, rfl⟩ := Prod.mk.inj h
    rw [List.cons_append, readAll?, hStep, Option.bind_some, ih hMore, Option.map_map]
    simp only [Function.comp_def, List.append_assoc]

theorem tokensFrom?_append (h : readAll? place s = some (first, next)) (u : List Char) :
    tokensFrom? place (s ++ u) = (tokensFrom? next u).map (first ++ ·) := by
  rw [tokensFrom?, readAll?_append h, tokensFrom?]
  cases readAll? next u with
  | none => rfl
  | some more => cases hLast : lastTokens? more.2 <;> simp [hLast]

theorem readAll?_cons {c : Char} (h : readChar? place c = some (first, next)) (u : List Char) :
    readAll? place (c :: u) = (readAll? next u).map fun more => (first ++ more.1, more.2) := by
  rw [readAll?, h, Option.bind_some]

theorem tokensFrom?_cons {c : Char} (h : readChar? place c = some (first, next)) (u : List Char) :
    tokensFrom? place (c :: u) = (tokensFrom? next u).map (first ++ ·) := by
  have hAll : readAll? place [c] = some (first, next) := by
    rw [readAll?_cons h, readAll?, Option.map_some, List.append_nil]
  exact tokensFrom?_append hAll u

/-! ### Pieces of code

A piece is read as the same tokens wherever it stands, if no character of a kind follows that would
go on with its last token. -/

/-- A piece of code is read as some tokens, if it is followed by no character of a kind. -/
def Reads (kind : Char → Bool) (piece : List Char) (tokens : List Token) : Prop :=
  ∀ ⦃rest⦄, Ends kind rest → tokens? (piece ++ rest) = (tokens? rest).map (tokens ++ ·)

variable {kind other : Char → Bool} {c : Char}

namespace Reads

theorem tokens?_eq (h : Reads kind s first) : tokens? s = some first := by
  have hText := h ends_nil
  rw [List.append_nil] at hText
  rw [hText]
  show some (first ++ []) = some first
  rw [List.append_nil]

theorem mono (h : Reads kind s first) (hKind : ∀ c, kind c = true → other c = true) :
    Reads other s first :=
  fun _ hRest => h fun c hc => Bool.eq_false_iff.mpr fun hc' =>
    absurd ((hRest c hc).symm.trans (hKind c hc')) Bool.false_ne_true

/-- One piece after another. -/
theorem append (h : Reads kind s first) (hMore : Reads other u second)
    (hu : ∀ p, Ends other p → Ends kind (u ++ p)) : Reads other (s ++ u) (first ++ second) := by
  intro rest hRest
  rw [List.append_assoc, h (hu rest hRest), hMore hRest, Option.map_map]
  congr 1
  exact funext fun tokens => (List.append_assoc first second tokens).symm

/-- One piece after another that needs no end. -/
theorem andThen (h : Reads (fun _ => false) s first) (hMore : Reads other u second) :
    Reads other (s ++ u) (first ++ second) :=
  h.append hMore fun _ _ _ _ => rfl

/-- A piece before another that starts with a character that ends it. -/
theorem before (h : Reads kind s first) (hMore : Reads other (c :: u) second)
    (hc : kind c = false) : Reads other (s ++ c :: u) (first ++ second) :=
  h.append hMore fun _ _ => ends_cons.mpr hc

/-- A piece that ends no token in the middle. -/
theorem whole (h : readAll? .between s = some (first, .between)) : Reads kind s first :=
  fun rest _ => tokensFrom?_append h rest

/-- A piece that ends with a word needs a character behind it that does not go on with it. -/
theorem ofWord {start : Char} {chars : List Char}
    (h : readAll? .between s = some (first, .word start chars)) :
    Reads (goesOn start) s (first ++ [wordToken (start :: chars)]) := by
  intro rest hRest
  have hEnd : tokensFrom? (.word start chars) rest =
      (tokens? rest).map ([wordToken (start :: chars)] ++ ·) := by
    cases rest with
    | nil => rfl
    | cons c rest =>
      have hc : goesOn start c = false := ends_cons.mp hRest
      have hWord : readChar? (.word start chars) c =
          some (wordToken (start :: chars) :: (startToken c).1, (startToken c).2) := by
        rw [readChar?, hc, if_neg Bool.false_ne_true]
      have hStart : readChar? .between c = some (startToken c) := rfl
      rw [tokens?, tokensFrom?_cons hWord, tokensFrom?_cons hStart, Option.map_map]
      rfl
  rw [tokens?, tokensFrom?_append h, hEnd, Option.map_map]
  congr 1
  exact funext fun tokens => (List.append_assoc first _ tokens).symm

theorem blanks (h : ∀ c ∈ s, c = ' ' ∨ c = '\n') : Reads kind s [] := by
  refine whole ?_
  induction s with
  | nil => rfl
  | cons c s ih =>
    rw [List.forall_mem_cons] at h
    have hStart : readChar? .between c = some ([], .between) := by
      rcases h.1 with rfl | rfl <;> decide
    rw [readAll?_cons hStart, ih h.2]
    rfl

theorem wordOf {start : Char} {more : List Char} (hStart : isNameChar start = true)
    (hMore : ∀ c ∈ more, goesOn start c = true) :
    Reads (goesOn start) (start :: more) [wordToken (start :: more)] := by
  have hGoOn (chars : List Char) :
      readAll? (.word start chars) more = some ([], .word start (chars ++ more)) := by
    induction more generalizing chars with
    | nil => rw [List.append_nil]; rfl
    | cons c more ih =>
      rw [List.forall_mem_cons] at hMore
      have hStep : readChar? (.word start chars) c = some ([], .word start (chars ++ [c])) :=
        if_pos hMore.1
      rw [readAll?_cons hStep, ih hMore.2, List.append_assoc]
      rfl
  have hFirst : readChar? .between start = some ([], .word start []) :=
    congrArg some (if_pos hStart)
  have hAll : readAll? .between (start :: more) = some ([], .word start more) := by
    rw [readAll?_cons hFirst, hGoOn []]
    rfl
  exact ofWord hAll

/-- What a character of a text is written as between quotes is read as its code units. -/
theorem readAll?_literalChar (units : List Nat) (c : Char) :
    readAll? (.quoted .plain units) (literalChar c) =
      some ([], .quoted .plain (units ++ unitsOf c.toNat)) := by
  have hStep (mode : Mode) {next : Mode} {c : Char} (units : List Nat) {more : List Nat}
      (h : step? mode c = some (more, some next)) :
      readChar? (.quoted mode units) c = some ([], .quoted next (units ++ more)) := by
    rw [readChar?, h, Option.map_some]
  rcases literalChar_steps c with ⟨hText, hPlain⟩ | ⟨d, hText, hEscape⟩
  · rw [hText, readAll?_cons (hStep .plain units hPlain)]
    rfl
  · -- an escape takes two steps, the first of which adds nothing
    rw [hText, readAll?_cons (hStep .plain units rfl), readAll?_cons (hStep .escape _ hEscape),
      List.append_nil]
    rfl

theorem literal (text : String) :
    Reads kind (TypeScript.literal text).toList [.atom (.literal (unitsOfText text.toList))] := by
  have hInside (units : List Nat) (chars : List Char) :
      readAll? (.quoted .plain units) (chars.flatMap literalChar ++ ['\'']) =
        some ([.atom (.literal (units ++ unitsOfText chars))], .between) := by
    induction chars generalizing units with
    | nil => rfl
    | cons c chars ih =>
      rw [List.flatMap_cons, List.append_assoc, readAll?_append (readAll?_literalChar units c), ih,
        List.append_assoc]
      rfl
  refine whole ?_
  have hQuote : readChar? .between '\'' = some ([], .quoted .plain []) := by decide
  rw [literal_toList, readAll?_cons hQuote]
  exact congrArg (Option.map _) (hInside [] text.toList)

end Reads

end EntityGen.TypeScript
