import EntityGen.Proofs.TypeScript.Text

/-! The members that lines of code declare. A line declares a name if the name is its key: it stands
after the indentation and before a character that no name has. What stands behind the key may be the
type of the member. -/

namespace EntityGen.TypeScript

/-- A line has a name as its key, behind the indentation. -/
def Keyed (indent : List Char) (name line : String) : Prop :=
  ∃ c rest, isNameChar c = false ∧
    lineChars line = indent ++ ((propertyKey name).toList ++ c :: rest)

theorem Keyed.name_eq {indent : List Char} {name other line : String}
    (h : Keyed indent name line) (hOther : Keyed indent other line) : name = other := by
  obtain ⟨c, rest, hc, hLine⟩ := h
  obtain ⟨d, more, hd, hSame⟩ := hOther
  rw [hLine, List.append_cancel_left_eq] at hSame
  exact propertyKey_append_inj hc hd hSame

/-- Whether a line that starts in a certain way may still have a key behind the indentation. -/
def mayHaveKey : List Char → List Char → Bool
  | [], c :: _ => isNameChar c || c == '\''
  | a :: indent, c :: start => a == c && mayHaveKey indent start
  | _, [] => true

theorem propertyKey_head (name : String) :
    ∃ c rest, (propertyKey name).toList = c :: rest ∧ (isNameChar c || c == '\'') = true := by
  rw [propertyKey]
  split
  · rename_i hName
    cases hChars : name.toList with
    | nil => simp [isIdentifier, hChars] at hName
    | cons first rest =>
      refine ⟨first, rest, rfl, ?_⟩
      rw [isNameChar_of_mem hName first (hChars ▸ List.mem_cons_self), Bool.true_or]
  · exact ⟨'\'', _, literal_toList name, rfl⟩

/-- A line that starts in a way in which no key can follow has none. -/
theorem not_keyed {indent start more : List Char} (h : mayHaveKey indent start = false)
    {line : String} (hLine : lineChars line = start ++ more) (name : String) :
    ¬Keyed indent name line := by
  rintro ⟨c, rest, -, hKey⟩
  rw [hLine] at hKey
  obtain ⟨first, others, hFirst, hMay⟩ := propertyKey_head name
  rw [hFirst] at hKey
  clear hLine hFirst
  induction indent generalizing start with
  | nil =>
    cases start with
    | nil => cases h
    | cons d start =>
      rw [List.nil_append, List.cons_append, List.cons_append] at hKey
      rw [mayHaveKey, (List.cons.inj hKey).1, hMay] at h
      cases h
  | cons a indent ih =>
    cases start with
    | nil => cases h
    | cons d start =>
      rw [List.cons_append, List.cons_append] at hKey
      obtain ⟨rfl, hRest⟩ := List.cons.inj hKey
      rw [mayHaveKey, beq_self_eq_true, Bool.true_and] at h
      exact ih h hRest

theorem lineChars_append (start more : String) :
    lineChars (start ++ more) = start.toList ++ lineChars more := by
  rw [lineChars, String.toList_append, List.append_assoc, lineChars]

theorem not_keyed_append {indent : List Char} {start : String}
    (h : mayHaveKey indent start.toList = false) (more name : String) :
    ¬Keyed indent name (start ++ more) :=
  not_keyed h (lineChars_append start more) name

theorem keyed_append {indent mark : String}
    (h : (mark.toList.head?.any fun c => !isNameChar c) = true) (name more : String) :
    Keyed indent.toList name (indent ++ (propertyKey name ++ (mark ++ more))) := by
  cases hMark : mark.toList with
  | nil => simp [hMark] at h
  | cons c rest =>
    rw [hMark, List.head?_cons, Option.any_some, Bool.not_eq_true'] at h
    refine ⟨c, rest ++ lineChars more, h, ?_⟩
    rw [lineChars_append, lineChars_append, lineChars_append, hMark, List.cons_append]

/-- The names that lines declare at an indentation, in order. -/
inductive Declares (indent : List Char) : List String → List String → Prop
  | nil : Declares indent [] []
  | member {line name : String} {lines names : List String} (keyed : Keyed indent name line)
      (rest : Declares indent lines names) : Declares indent (line :: lines) (name :: names)
  | other {line : String} {lines names : List String} (unkeyed : ∀ name, ¬Keyed indent name line)
      (rest : Declares indent lines names) : Declares indent (line :: lines) names

namespace Declares

variable {indent : List Char} {lines more names others : List String}

theorem append (h : Declares indent lines names) (hMore : Declares indent more others) :
    Declares indent (lines ++ more) (names ++ others) := by
  induction h with
  | nil => exact hMore
  | member hKeyed _ ih => exact .member hKeyed ih
  | other hUnkeyed _ ih => exact .other hUnkeyed ih

/-- What lines declare is determined by the lines. -/
theorem unique (h : Declares indent lines names) (hOther : Declares indent lines others) :
    names = others := by
  induction h generalizing others with
  | nil =>
    cases hOther with
    | nil => rfl
  | member hKeyed _ ih =>
    cases hOther with
    | member hSame hRest => rw [hKeyed.name_eq hSame, ih hRest]
    | other hUnkeyed _ => exact absurd hKeyed (hUnkeyed _)
  | other hUnkeyed _ ih =>
    cases hOther with
    | member hKeyed _ => exact absurd hKeyed (hUnkeyed _)
    | other _ hRest => exact ih hRest

theorem map {α : Type} {line name : α → String} (h : ∀ item, Keyed indent (name item) (line item))
    (items : List α) : Declares indent (items.map line) (items.map name) := by
  induction items with
  | nil => exact .nil
  | cons item rest ih => exact .member (h item) ih

theorem none (h : ∀ line ∈ lines, ∀ name, ¬Keyed indent name line) : Declares indent lines [] := by
  induction lines with
  | nil => exact .nil
  | cons line rest ih =>
    rw [List.forall_mem_cons] at h
    exact .other h.1 (ih h.2)

end Declares

/-- The lines declare each of their names once. -/
def DeclaresOnce (indent : List Char) (lines : List String) : Prop :=
  ∃ names, Declares indent lines names ∧ names.Nodup

theorem Declares.once_iff {indent : List Char} {lines names : List String}
    (h : Declares indent lines names) : DeclaresOnce indent lines ↔ names.Nodup := by
  constructor
  · rintro ⟨others, hOthers, hNodup⟩
    rw [h.unique hOthers]
    exact hNodup
  · exact fun hNodup => ⟨names, h, hNodup⟩

/-! ### Types of members -/

/-- A line gives a member a type: behind the indentation stands the key, then whether the member must
be there, and then the type. -/
def Typed (indent member type line : String) : Prop :=
  ∃ mark ∈ ["!", "?"], line = indent ++ (propertyKey member ++ (mark ++ (": " ++ type)))

/-- One of the lines gives a member a type. -/
def TypedIn (indent : String) (lines : List String) (member type : String) : Prop :=
  ∃ line ∈ lines, Typed indent member type line

theorem Typed.keyed {indent member type line : String} (h : Typed indent member type line) :
    Keyed indent.toList member line := by
  obtain ⟨mark, hMark, rfl⟩ := h
  have hMarks : ∀ mark ∈ ["!", "?"], (mark.toList.head?.any fun c => !isNameChar c) = true := by
    simp [isNameChar]
  exact keyed_append (hMarks mark hMark) member _

/-- A line that gives a member a type determines both. -/
theorem Typed.unique {indent member type other otherType line : String}
    (h : Typed indent member type line) (hOther : Typed indent other otherType line) :
    member = other ∧ type = otherType := by
  obtain rfl := h.keyed.name_eq hOther.keyed
  obtain ⟨mark, hMark, hLine⟩ := h
  obtain ⟨otherMark, hOtherMark, hSame⟩ := hOther
  rw [hLine, String.append_right_inj, String.append_right_inj] at hSame
  -- the marks have one character each
  have hSizes : ∀ mark ∈ ["!", "?"], mark.toList.length = 1 := by decide
  have hChars := congrArg String.toList hSame
  simp only [String.toList_append] at hChars
  obtain ⟨-, hTypes⟩ := List.append_inj hChars
    ((hSizes mark hMark).trans (hSizes otherMark hOtherMark).symm)
  rw [List.append_cancel_left_eq, String.toList_inj] at hTypes
  exact ⟨rfl, hTypes⟩

namespace TypedIn

variable {indent member type : String} {lines more : List String}

theorem append_iff : TypedIn indent (lines ++ more) member type ↔
    TypedIn indent lines member type ∨ TypedIn indent more member type := by
  simp only [TypedIn, List.mem_append, or_and_right, exists_or]

theorem map_iff {α : Type} {line name typeOf : α → String}
    (h : ∀ item, Typed indent (name item) (typeOf item) (line item)) (items : List α) :
    TypedIn indent (items.map line) member type ↔
      ∃ item ∈ items, name item = member ∧ typeOf item = type := by
  simp only [TypedIn, List.mem_map, exists_exists_and_eq_and]
  refine exists_congr fun item => and_congr_right fun _ => ⟨(h item).unique, ?_⟩
  rintro ⟨rfl, rfl⟩
  exact h item

/-- Lines that declare nothing give no member a type. -/
theorem none (h : Declares indent.toList lines []) : ¬TypedIn indent lines member type := by
  rintro ⟨line, hLine, hTyped⟩
  induction lines with
  | nil => cases hLine
  | cons first rest ih =>
    cases h with
    | other hUnkeyed hRest =>
      rcases List.mem_cons.mp hLine with rfl | hLine
      · exact hUnkeyed member hTyped.keyed
      · exact ih hRest hLine

end TypedIn

end EntityGen.TypeScript
