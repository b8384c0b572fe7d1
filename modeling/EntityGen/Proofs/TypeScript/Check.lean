import EntityGen.Proofs.Form.Alike
import EntityGen.Proofs.Form.Tidy
import EntityGen.Proofs.TypeScript.Message

/-! Constraints in generated code. A call shows its check, except that bounds on the number of items
have the methods of other bounds, and a least length of one the method of a bound where the chain
has its methods still. In a chain that a rule compiles to these can be told apart: the former by the
base type, the latter by its place. -/

namespace EntityGen.TypeScript

open Form

variable {kind : Char → Bool}

/-! ### Methods -/

/-- The methods of checks. -/
inductive Method where
  | of (known : Attribute)
  | refine
  | optional

def Method.name : Method → String
  | .of known => known.name
  | .refine => "refine"
  | .optional => "optional"

theorem Method.name_inj {a b : Method} (h : a.name = b.name) : a = b := by
  have hNamed (known : Attribute) : known.name ≠ "refine" ∧ known.name ≠ "optional" := by
    cases known with
    | flag f => cases f <;> decide
    | bound b => cases b <;> decide
    | pattern p => cases p <;> decide
    | _ => decide
  cases a with
  | of known =>
    cases b with
    | of other =>
      have hKnown := ofName?_name known
      rw [show known.name = other.name from h, ofName?_name] at hKnown
      rw [Option.some.inj hKnown]
    | refine => exact absurd h (hNamed known).1
    | optional => exact absurd h (hNamed known).2
  | refine =>
    cases b with
    | of other => exact absurd h.symm (hNamed other).1
    | refine => rfl
    | optional => exact absurd h (by decide)
  | optional =>
    cases b with
    | of other => exact absurd h.symm (hNamed other).2
    | refine => exact absurd h (by decide)
    | optional => rfl

/-- The bound whose method a bound is written with. -/
def shownBound : Bound → Bound
  | .minItems => .min
  | .maxItems => .max
  | b => b

/-- The check whose call is that of a check. -/
def shownCheck (wrapped : Bool) : Check → Check
  | .bound b x => .bound (shownBound b) x
  | .requiredMin => if wrapped then .requiredMin else .bound .min (.ofInt 1)
  | check => check

def checkMethod : Check → Method
  | .flag f => .of (.flag f)
  | .bound b _ => .of (.bound (shownBound b))
  | .pattern .custom _ => .refine
  | .pattern p _ => .of (.pattern p)
  | .optional => .optional
  | .requiredMin => .refine

theorem isAlpha_checkMethod (check : Check) :
    ∀ c ∈ (checkMethod check).name.toList, c.isAlpha = true := by
  have hFlag (f : Flag) : f.name.toList.all Char.isAlpha = true := by cases f <;> decide
  have hBound (b : Bound) : (shownBound b).name.toList.all Char.isAlpha = true := by
    cases b <;> decide
  have hPattern (p : Pattern) : p.name.toList.all Char.isAlpha = true := by cases p <;> decide
  have hRefine : "refine".toList.all Char.isAlpha = true := by decide
  rw [← List.all_eq_true]
  cases check with
  | flag f => exact hFlag f
  | bound b x => exact hBound b
  | pattern p s =>
    cases p with
    | custom => exact hRefine
    | includes => exact hPattern .includes
    | startsWith => exact hPattern .startsWith
    | endsWith => exact hPattern .endsWith
    | regex => exact hPattern .regex
  | optional => decide
  | requiredMin => exact hRefine

/-- Two checks that have one method. -/
inductive SameMethod : Check → Check → Prop
  | flag {f : Flag} : SameMethod (.flag f) (.flag f)
  | bound {b c : Bound} {x y : Number} (shown : shownBound b = shownBound c) :
      SameMethod (.bound b x) (.bound c y)
  | pattern {p : Pattern} {s t : String} : SameMethod (.pattern p s) (.pattern p t)
  | custom {s : String} : SameMethod (.pattern .custom s) .requiredMin
  | presence {s : String} : SameMethod .requiredMin (.pattern .custom s)
  | optional : SameMethod .optional .optional
  | requiredMin : SameMethod .requiredMin .requiredMin

theorem sameMethod {c d : Check} (h : checkMethod c = checkMethod d) :
    SameMethod c d := by
  have hPattern {p : Pattern} {s : String} : checkMethod (.pattern p s) = .of (.pattern p) ∨
      (p = .custom ∧ checkMethod (.pattern p s) = .refine) := by
    cases p <;> simp [checkMethod]
  cases c <;> cases d <;> grind [SameMethod, checkMethod]

/-! ### Arguments -/

/-- The argument of a call that a text is written as. -/
def patternArgument (s : String) : Pattern → String
  | .custom => "validators" ++ member s
  | .regex => "new RegExp(" ++ literal s ++ ")"
  | _ => literal s

/-- The arguments of the call of a check in a chain without the methods of its type. -/
def checkArgument (message : String) : Check → String
  | .flag .nullable => ""
  | .flag _ => message
  | .bound _ x => arguments x.sourceText message
  | .pattern p s => arguments (patternArgument s p) message
  | .optional => ""
  | .requiredMin => arguments "v => v == null || v.length >= 1" message

theorem checkCall_wrapped (message : String) (check : Check) :
    checkCall true message check = call (checkMethod check).name (checkArgument message check) := by
  cases check with
  | flag f => cases f <;> rfl
  | bound b x => cases b <;> rfl
  | pattern p s => cases p <;> rfl
  | optional => rfl
  | requiredMin => rfl

theorem checkCall_shown (wrapped : Bool) (message : String) (check : Check) :
    checkCall wrapped message check = checkCall true message (shownCheck wrapped check) := by
  cases check with
  | flag f => cases f <;> rfl
  | bound b x => cases b <;> rfl
  | pattern p s => cases p <;> rfl
  | optional => rfl
  | requiredMin => cases wrapped <;> rfl

theorem shownCheck_shownCheck (wrapped : Bool) (check : Check) :
    shownCheck true (shownCheck wrapped check) = shownCheck wrapped check := by
  cases check with
  | bound b x => cases b <;> rfl
  | requiredMin => cases wrapped <;> rfl
  | _ => rfl

theorem patternArgument_reveals (s t : String) (p : Pattern) :
    Reveals isNameChar (patternArgument s p).toList (patternArgument t p).toList (s = t) := by
  cases p with
  | custom =>
    simp only [patternArgument, String.toList_append]
    exact (member_reveals s t).after _
  | regex =>
    have hLiteral : Reveals (fun _ => false) (literal s).toList (literal t).toList (s = t) :=
      literal_reveals s t
    simp only [patternArgument, String.toList_append]
    exact (hLiteral.after "new RegExp(".toList).before ")".toList rfl
  | _ => exact literal_reveals s t

/-! ### Calls of checks -/

variable {m n : Option Message}

/-- A call of a flag has its message for argument, and the null check has none. -/
theorem flagArgument_reveals (f : Flag) (m n : Option Message) :
    Reveals kind ((checkArgument (messageArgument m) (.flag f)).toList ++ [')'])
      ((checkArgument (messageArgument n) (.flag f)).toList ++ [')'])
      ((Check.flag f).silent = true ∨ Option.Rel Message.Matches m n) := by
  cases f with
  | nullable => exact .same (.inl rfl)
  | _ => exact ((messageArgument_reveals m n).before [')'] (by decide)).imp .inr

theorem checkArgument_reveals {c d : Check} (h : SameMethod c d) (m n : Option Message) :
    Reveals kind ((checkArgument (messageArgument m) c).toList ++ [')'])
      ((checkArgument (messageArgument n) d).toList ++ [')'])
      ((shownCheck true c).Matches (shownCheck true d) ∧
        (c.silent = true ∨ Option.Rel Message.Matches m n)) := by
  have hComma : Number.isNumberChar ',' = false := by decide
  have hApart (s : String) : Reveals (fun _ => false) (patternArgument s .custom).toList
      "v => v == null || v.length >= 1".toList False := by
    simp only [patternArgument, String.toList_append]
    exact .after ['v'] (.of_head_ne (by decide))
  cases h with
  | @flag f => exact (flagArgument_reveals f m n).imp fun hMessage => ⟨.flag, hMessage⟩
  | @bound b c x y hShown =>
    refine (arguments_reveal (sourceText_reveals x y) hComma rfl m n).imp ?_
    rintro ⟨hText, hMessage⟩
    rw [shownCheck, shownCheck, hShown]
    exact ⟨.bound hText, .inr hMessage⟩
  | @pattern p s t =>
    refine (arguments_reveal (patternArgument_reveals s t p) (by decide) (by decide) m n).imp ?_
    rintro ⟨rfl, hMessage⟩
    exact ⟨.pattern, .inr hMessage⟩
  | @custom s =>
    exact (arguments_reveal (hApart s) rfl rfl m n).imp fun hBoth => hBoth.1.elim
  | @presence s =>
    exact (arguments_reveal (hApart s).symm rfl rfl m n).imp fun hBoth => hBoth.1.elim
  | optional => exact .same ⟨.optional, .inl rfl⟩
  | requiredMin =>
    have hText : Reveals (fun _ => false) "v => v == null || v.length >= 1".toList
        "v => v == null || v.length >= 1".toList True := .same trivial
    exact (arguments_reveal hText rfl rfl m n).imp fun hBoth => ⟨.requiredMin, .inr hBoth.2⟩

theorem silent_shownCheck (wrapped : Bool) (check : Check) :
    (shownCheck wrapped check).silent = check.silent := by
  cases check with
  | requiredMin => cases wrapped <;> rfl
  | _ => rfl

/-- The call of a check reveals the check that is shown, and its message. -/
theorem checkCall_reveals (wrapped : Bool) (c d : Constraint) :
    Reveals kind (checkCall wrapped (messageArgument c.message) c.check).toList
      (checkCall wrapped (messageArgument d.message) d.check).toList
      ((shownCheck wrapped c.check).Matches (shownCheck wrapped d.check) ∧
        (c.check.silent = true ∨ Option.Rel Message.Matches c.message d.message)) := by
  have hCall : Reveals kind _ _ _ := call_reveals (isAlpha_checkMethod (shownCheck wrapped c.check))
    (isAlpha_checkMethod (shownCheck wrapped d.check)) fun hName =>
      checkArgument_reveals (sameMethod (Method.name_inj hName)) c.message d.message
  rw [shownCheck_shownCheck, shownCheck_shownCheck, silent_shownCheck] at hCall
  rw [checkCall_shown wrapped _ c.check, checkCall_shown wrapped _ d.check, checkCall_wrapped,
    checkCall_wrapped]
  exact hCall.imp And.right

/-! ### Constraints of a chain -/

/-- Constraints that are written as the same calls, in a chain of which it is known whether it has
the methods of its type. -/
inductive ShownAlike : Bool → List Constraint → List Constraint → Prop
  | nil {wrapped : Bool} : ShownAlike wrapped [] []
  | cons {wrapped : Bool} {c d : Constraint} {cs ds : List Constraint}
      (check : (shownCheck wrapped c.check).Matches (shownCheck wrapped d.check))
      (message : c.check.silent = true ∨ Option.Rel Message.Matches c.message d.message)
      (rest : ShownAlike (wrapped || wrapsChain c.check) cs ds) :
      ShownAlike wrapped (c :: cs) (d :: ds)

theorem wrapsChain_eq {wrapped : Bool} {c d : Check}
    (h : (shownCheck wrapped c).Matches (shownCheck wrapped d)) : wrapsChain c = wrapsChain d := by
  have hShown (check : Check) : wrapsChain (shownCheck wrapped check) = wrapsChain check := by
    cases check with
    | requiredMin => cases wrapped <;> rfl
    | _ => rfl
  rw [← hShown c, ← hShown d]
  generalize shownCheck wrapped c = first at h
  generalize shownCheck wrapped d = second at h
  cases h <;> rfl

theorem constraintCalls_reveal (wrapped : Bool) (cs ds : List Constraint) :
    Reveals (· == '.') (constraintCalls wrapped cs).toList (constraintCalls wrapped ds).toList
      (ShownAlike wrapped cs ds) := by
  have hStart (wrapped : Bool) (c : Constraint) (cs : List Constraint) : ∃ rest,
      (constraintCalls wrapped (c :: cs)).toList = '.' :: rest := by
    rw [constraintCalls, checkCall_shown, checkCall_wrapped, String.toList_append, call_toList]
    exact ⟨_, rfl⟩
  induction cs generalizing wrapped ds with
  | nil =>
    cases ds with
    | nil => exact .same .nil
    | cons d ds =>
      obtain ⟨rest, hRest⟩ := hStart wrapped d ds
      rw [hRest]
      exact .of_nil_cons rfl
  | cons c cs ih =>
    cases ds with
    | nil =>
      obtain ⟨rest, hRest⟩ := hStart wrapped c cs
      rw [hRest]
      exact .symm (.of_nil_cons rfl)
    | cons d ds =>
      have hRest (hCheck : (shownCheck wrapped c.check).Matches (shownCheck wrapped d.check)) :
          Reveals (· == '.') (constraintCalls (wrapped || wrapsChain c.check) cs).toList
            (constraintCalls (wrapped || wrapsChain d.check) ds).toList
            (ShownAlike (wrapped || wrapsChain c.check) cs ds) := by
        rw [← wrapsChain_eq hCheck]
        exact ih _ ds
      simp only [constraintCalls, String.toList_append]
      refine ((checkCall_reveals wrapped c d).andThen fun hFirst => hRest hFirst.1).imp ?_
      rintro ⟨⟨hCheck, hMessage⟩, hAlike⟩
      exact .cons hCheck hMessage hAlike

/-! ### Constraints of a rule -/

theorem shownBound_inj {b c : Bound} (h : shownBound b = shownBound c)
    (hItems : b.countsItems = c.countsItems) : b = c := by
  revert h hItems
  cases b <;> cases c <;> decide

/-- A check before the last is known from its call and the base type. -/
theorem matches_of_ordinary {items wrapped : Bool} {c d : Check} (hc : c.Ordinary items)
    (hd : d.Ordinary items) (h : (shownCheck wrapped c).Matches (shownCheck wrapped d)) :
    c.Matches d := by
  cases c with
  | flag f =>
    cases d with
    | flag g => exact h
    | pattern q t => exact h
    | bound b y => cases h
    | _ => exact hd.elim
  | bound b x =>
    cases d with
    | bound b' y =>
      rw [shownCheck, shownCheck] at h
      generalize hShown : shownBound b = shown at h
      generalize hOther : shownBound b' = other at h
      cases h with
      | bound hText =>
        obtain rfl := shownBound_inj (hShown.trans hOther.symm) (hc.trans hd.symm)
        exact .bound hText
    | flag g => cases h
    | pattern q t => cases h
    | _ => exact hd.elim
  | pattern p s =>
    cases d with
    | flag g => exact h
    | pattern q t => exact h
    | bound b y => cases h
    | _ => exact hd.elim
  | _ => exact hc.elim

theorem optional_iff {wrapped : Bool} {c d : Check}
    (h : (shownCheck wrapped c).Matches (shownCheck wrapped d)) :
    c = .optional ↔ d = .optional := by
  have hShown (check : Check) : shownCheck wrapped check = .optional ↔ check = .optional := by
    cases check with
    | requiredMin => cases wrapped <;> simp [shownCheck]
    | _ => simp [shownCheck]
  rw [← hShown c, ← hShown d]
  generalize shownCheck wrapped c = first at h
  generalize shownCheck wrapped d = second at h
  cases h <;> simp

theorem matches_of_quiet {c d : Constraint} (hCheck : c.check.Matches d.check)
    (hMessage : c.check.silent = true ∨ Option.Rel Message.Matches c.message d.message)
    (hFirst : c.Quiet) (hSecond : d.Quiet) : c.Matches d := by
  refine ⟨hCheck, hMessage.elim (fun hSilent => ?_) id⟩
  have hSame : c.check.silent = d.check.silent := by
    generalize c.check = first at hCheck
    generalize d.check = second at hCheck
    cases hCheck <;> rfl
  rw [hFirst hSilent, hSecond (hSame ▸ hSilent)]
  exact .none

/-- Constraints that are written alike are the same, if they are allowed with one base type. -/
theorem ShownAlike.matches {text items wrapped : Bool} {cs ds : List Constraint}
    (h : ShownAlike wrapped cs ds) (hFirst : Allowed text items cs)
    (hSecond : Allowed text items ds) : List.Forall₂ Constraint.Matches cs ds := by
  induction h with
  | nil => exact .nil
  | @cons wrapped c d cs ds hCheck hMessage hRest ih =>
    have hOptional := optional_iff hCheck
    cases hFirst with
    | last hLast hQuiet =>
      cases hRest
      cases hSecond with
      | last hOther hOtherQuiet =>
        refine .cons (matches_of_quiet ?_ hMessage hQuiet hOtherQuiet) .nil
        rcases hLast with hc | ⟨-, hc⟩
        · rw [hc, hOptional.mp hc]
          exact .optional
        · rcases hOther with hd | ⟨-, hd⟩
          · rw [hOptional.mpr hd, hd]
            exact .optional
          · rw [hc, hd]
            exact .requiredMin
      | cons hOther _ hNone =>
        -- a text has a last constraint, so this one belongs to another value and is optional
        obtain ⟨hText⟩ := hNone
        have hc : c.check = .optional := by
          rcases hLast with hc | ⟨hTrue, -⟩
          · exact hc
          · exact absurd (hText ▸ hTrue) (by decide)
        rw [hOptional.mp hc] at hOther
        exact hOther.elim
    | cons hOrdinary hQuiet hFirst =>
      cases hSecond with
      | last hLast hOtherQuiet =>
        cases hRest
        obtain ⟨hText⟩ := hFirst
        have hd : d.check = .optional := by
          rcases hLast with hd | ⟨hTrue, -⟩
          · exact hd
          · exact absurd (hText ▸ hTrue) (by decide)
        rw [hOptional.mpr hd] at hOrdinary
        exact hOrdinary.elim
      | cons hOther hOtherQuiet hSecond =>
        have hMatches := matches_of_ordinary hOrdinary hOther hCheck
        exact .cons (matches_of_quiet hMatches hMessage hQuiet hOtherQuiet)
          (ih hFirst hSecond)

end EntityGen.TypeScript
