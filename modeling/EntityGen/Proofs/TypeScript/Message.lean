import EntityGen.Proofs.Form.Matches
import EntityGen.Proofs.TypeScript.Reveals

/-! Messages and calls in generated code reveal what they are written for. Whatever characters a
message, a key or a parameter has, they end neither its literal nor the call. -/

namespace EntityGen.TypeScript

open Form

variable {kind other : Char → Bool} {P : Prop}

/-! ### Parameters -/

theorem paramText_reveals (a b : Param) :
    Reveals Number.isNumberChar (paramText a).toList (paramText b).toList (a.Matches b) := by
  cases a with
  | number x =>
    cases b with
    | number y => exact (sourceText_reveals x y).imp .number
    | text t => exact sourceText_reveals_literal x t
  | text s =>
    cases b with
    | number y => exact (sourceText_reveals_literal y s).symm
    | text t =>
      refine (literal_reveals s t).imp ?_
      rintro rfl
      exact .text

/-- A parameter as a property. -/
def paramRow (row : String × Param) : String := propertyKey row.1 ++ ": " ++ paramText row.2

theorem paramRow_reveals (a b : String × Param) :
    Reveals Number.isNumberChar (paramRow a).toList (paramRow b).toList
      (a.1 = b.1 ∧ a.2.Matches b.2) := by
  have hKeys : Reveals (fun _ => false) _ _ _ :=
    (propertyKey_reveals a.1 b.1).before ": ".toList (by decide)
  simp only [paramRow, String.toList_append]
  exact hKeys.andThen fun _ => paramText_reveals a.2 b.2

/-- The characters of parameters that follow another. -/
def paramRows (params : Params) : List Char :=
  params.flatMap fun row => ", ".toList ++ (paramRow row).toList

theorem paramRows_cons (row : String × Param) (rest : Params) :
    paramRows (row :: rest) = ", ".toList ++ ((paramRow row).toList ++ paramRows rest) := by
  rw [paramRows, List.flatMap_cons, List.append_assoc, paramRows]

/-- A number ends before the comma of the next parameter and before what ends the last. -/
theorem ends_paramRows (params : Params) {p : List Char}
    (hp : Ends (fun c => Number.isNumberChar c || c == ',') p) :
    Ends Number.isNumberChar (paramRows params ++ p) := by
  cases params with
  | nil => exact fun c hc => (Bool.or_eq_false_iff.mp (hp c hc)).1
  | cons _ _ => exact ends_cons.mpr (by decide)

/-- Parameters one after another, given what the rows after the first reveal. -/
theorem paramRow_append_reveals (a b : String × Param) {first second : Params}
    (h : Reveals (fun c => Number.isNumberChar c || c == ',') (paramRows first) (paramRows second)
      (Params.Matches first second)) :
    Reveals (fun c => Number.isNumberChar c || c == ',')
      ((paramRow a).toList ++ paramRows first) ((paramRow b).toList ++ paramRows second)
      (Params.Matches (a :: first) (b :: second)) := by
  refine ((paramRow_reveals a b).append (fun _ => h) (fun _ => ends_paramRows first)
    (fun _ => ends_paramRows second)).imp ?_
  rintro ⟨hRow, hRest⟩
  exact .cons hRow hRest

theorem paramRows_reveal (first second : Params) :
    Reveals (fun c => Number.isNumberChar c || c == ',') (paramRows first) (paramRows second)
      (Params.Matches first second) := by
  induction first generalizing second with
  | nil =>
    cases second with
    | nil => exact .same .nil
    | cons b second => exact .of_nil_cons (by decide)
  | cons a first ih =>
    cases second with
    | nil => exact .symm (.of_nil_cons (by decide))
    | cons b second =>
      rw [paramRows_cons, paramRows_cons]
      exact (paramRow_append_reveals a b (ih second)).after ", ".toList

/-- The parameters of a localized message, as the second argument of the call that localizes it. -/
def paramsText : Params → String
  | [] => ""
  | row :: rest => ", " ++ braced (String.intercalate ", " ((row :: rest).map paramRow))

theorem intercalate_toList (row : String × Param) (rest : Params) :
    (String.intercalate ", " ((row :: rest).map paramRow)).toList =
      (paramRow row).toList ++ paramRows rest := by
  rw [String.toList_intercalate, List.map_map]
  induction rest generalizing row with
  | nil => simp [paramRows]
  | cons next rest ih =>
    rw [List.map_cons, List.map_cons, List.intercalate_cons_cons, ← List.map_cons, ih]
    simp [paramRows]

theorem paramsText_cons (row : String × Param) (rest : Params) :
    (paramsText (row :: rest)).toList =
      (", " ++ openBrace ++ " ").toList ++
        ((paramRow row).toList ++ paramRows rest ++ (" " ++ closeBrace).toList) := by
  simp [paramsText, braced, ← intercalate_toList, -List.map_cons]

theorem paramsText_reveals (first second : Params) :
    Reveals (· == ',') (paramsText first).toList (paramsText second).toList
      (Params.Matches first second) := by
  cases first with
  | nil =>
    cases second with
    | nil => exact .same .nil
    | cons b second =>
      rw [paramsText_cons]
      exact .of_nil_cons (by decide)
  | cons a first =>
    cases second with
    | nil =>
      rw [paramsText_cons]
      exact .symm (.of_nil_cons (by decide))
    | cons b second =>
      have hRows := paramRow_append_reveals a b (paramRows_reveal first second)
      rw [paramsText_cons, paramsText_cons]
      exact (hRows.before _ (by decide)).after _

/-! ### Messages -/

/-- A message as an expression. -/
def messageText : Message → String
  | .literal text => literal text
  | .localized key params => "t(" ++ literal key ++ paramsText params ++ ")"

theorem messageArgument_some (message : Message) :
    (messageArgument (some message)).toList = (openBrace ++ " message: ").toList ++
      ((messageText message).toList ++ (" " ++ closeBrace).toList) := by
  cases message with
  | literal text => simp [messageArgument, messageText, braced]
  | localized key params =>
    cases params with
    | nil => simp [messageArgument, messageText, paramsText, braced]
    | cons row rest =>
      have hArgument : messageArgument (some (.localized key (row :: rest))) =
          braced ("message: t(" ++ literal key ++ ", " ++
            braced (String.intercalate ", " ((row :: rest).map paramRow)) ++ ")") := rfl
      simp [hArgument, messageText, paramsText, braced, -List.map_cons]

theorem messageText_reveals (m n : Message) :
    Reveals kind (messageText m).toList (messageText n).toList (m.Matches n) := by
  have hStart (text key : String) (params : Params) : Reveals kind (literal text).toList
      (messageText (.localized key params)).toList False := by
    rw [literal_toList, messageText]
    simp only [String.toList_append, List.append_assoc]
    exact .of_head_ne (by decide)
  cases m with
  | literal text =>
    cases n with
    | literal other =>
      refine (literal_reveals text other).imp ?_
      rintro rfl
      exact .literal
    | localized key params => exact (hStart text key params).imp False.elim
  | localized key params =>
    cases n with
    | literal other => exact (hStart other key params).symm.imp False.elim
    | localized other others =>
      have hKeys : Reveals (fun _ => false) (literal key).toList (literal other).toList
        (key = other) := literal_reveals key other
      have hParams : Reveals kind _ _ _ :=
        (paramsText_reveals params others).before ")".toList (by decide)
      have hBoth := (hKeys.andThen fun _ => hParams).after "t(".toList
      simp only [messageText, String.toList_append, List.append_assoc]
      refine hBoth.imp ?_
      rintro ⟨rfl, hMatches⟩
      exact .localized hMatches

theorem messageArgument_some_reveals (m n : Message) :
    Reveals kind (messageArgument (some m)).toList (messageArgument (some n)).toList
      (m.Matches n) := by
  have hText : Reveals (fun _ => false) (messageText m).toList (messageText n).toList
    (m.Matches n) := messageText_reveals m n
  rw [messageArgument_some, messageArgument_some]
  exact (hText.before _ rfl).after _

theorem messageArgument_reveals (m n : Option Message) :
    Reveals (· == '\x7b') (messageArgument m).toList (messageArgument n).toList
      (Option.Rel Message.Matches m n) := by
  refine Reveals.option (fun m => (messageArgument m).toList) rfl (fun a => ?_)
    messageArgument_some_reveals m n
  exact ⟨_, messageArgument_some a⟩

/-! ### Calls -/

/-- The message of a call that has another argument before it. -/
def remark : Option Message → List Char
  | none => []
  | some message => ", ".toList ++ (messageArgument (some message)).toList

theorem arguments_toList (first : String) (message : Option Message) :
    (arguments first (messageArgument message)).toList = first.toList ++ remark message := by
  cases message with
  | none => simp [arguments, messageArgument, remark]
  | some message =>
    have hText : messageArgument (some message) ≠ "" := by
      rw [← String.toList_inj.ne, messageArgument_some]
      simp
    simp [arguments, remark, hText]

theorem remark_reveals (m n : Option Message) :
    Reveals (· == ',') (remark m) (remark n) (Option.Rel Message.Matches m n) :=
  Reveals.option remark rfl (fun _ => ⟨_, rfl⟩)
    (fun a b => (messageArgument_some_reveals a b).after ", ".toList) m n

/-- The arguments of a call, up to its closing parenthesis. -/
theorem arguments_reveal {first second : String}
    (h : Reveals kind first.toList second.toList P) (hComma : kind ',' = false)
    (hClose : kind ')' = false) (m n : Option Message) :
    Reveals other ((arguments first (messageArgument m)).toList ++ [')'])
      ((arguments second (messageArgument n)).toList ++ [')'])
      (P ∧ Option.Rel Message.Matches m n) := by
  have hEnds (message : Option Message) (p : List Char) :
      Ends kind (remark message ++ [')'] ++ p) := by
    cases message with
    | none => exact ends_cons.mpr hClose
    | some _ => exact ends_cons.mpr hComma
  rw [arguments_toList, arguments_toList, List.append_assoc, List.append_assoc]
  exact h.append (fun _ => (remark_reveals m n).before [')'] (by decide)) (fun p _ => hEnds m p)
    (fun p _ => hEnds n p)

theorem call_toList (method argument : String) :
    (call method argument).toList =
      '.' :: (method.toList ++ '(' :: (argument.toList ++ [')'])) := by
  simp [call]

/-- A call is read by its method first, which has letters only. -/
theorem call_reveals {method name first second : String}
    (hMethod : ∀ c ∈ method.toList, c.isAlpha = true) (hName : ∀ c ∈ name.toList, c.isAlpha = true)
    (h : method = name →
      Reveals other (first.toList ++ [')']) (second.toList ++ [')']) P) :
    Reveals other (call method first).toList (call name second).toList (method = name ∧ P) := by
  have hOpen : Char.isAlpha '(' = false := by decide
  have hWords := (Reveals.word hMethod hName).imp String.toList_inj.mp
  have hArguments (hSame : method = name) := (h hSame).after ['(']
  rw [call_toList, call_toList]
  exact (hWords.append hArguments (fun _ _ => ends_cons.mpr hOpen)
    (fun _ _ => ends_cons.mpr hOpen)).after ['.']

end EntityGen.TypeScript
