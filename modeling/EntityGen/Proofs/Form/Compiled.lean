import EntityGen.Proofs.Form.Chain
import EntityGen.Proofs.Form.Tidy
import Mathlib.Data.List.Sort

/-! What a rule compiles to, said without the compiler: which checks a chain has, in which order
they stand, and which message each of them shows. At every depth one chain is as a rule says, and
it is the one that the rule compiles to. -/

namespace EntityGen.Form

/-! ### Types -/

/-- The types that are known, by their names. -/
def typeNames : List (String × RuleType) :=
  [("string", .string), ("number", .number), ("boolean", .boolean), ("date", .date),
    ("array", .array), ("object", .object)]

/-- The values of a rule have a type: they are texts if the rule names no type, and otherwise the
name says the type, in any case of its letters. -/
inductive Rule.HasType (rule : Rule) : RuleType → Prop
  | text (missing : rule.type = none) : HasType rule .string
  | known {name : String} {type : RuleType} (named : rule.type = some name)
      (listed : (String.ofList (Text.lower name.toList), type) ∈ typeNames) : HasType rule type
  | unknown {name : String} (named : rule.type = some name)
      (unlisted : ∀ type, (String.ofList (Text.lower name.toList), type) ∉ typeNames) :
      HasType rule (.unknown (String.ofList (Text.lower name.toList)))

/-- A name is listed with the type that it denotes, or with none. -/
theorem ofName_cases (name : String) :
    (String.ofList (Text.lower name.toList), RuleType.ofName name) ∈ typeNames ∨
      (∀ type, (String.ofList (Text.lower name.toList), type) ∉ typeNames) ∧
        RuleType.ofName name = .unknown (String.ofList (Text.lower name.toList)) := by
  rw [RuleType.ofName]
  generalize String.ofList (Text.lower name.toList) = lowered
  split <;> simp_all [typeNames]

theorem hasType_iff {rule : Rule} {type : RuleType} :
    rule.HasType type ↔ rule.resolvedType = type := by
  have hOne : ∀ first ∈ typeNames, ∀ second ∈ typeNames, first.1 = second.1 →
      first.2 = second.2 := by
    decide
  rw [Rule.resolvedType]
  constructor
  · intro h
    cases h with
    | text hMissing => rw [hMissing]
    | @known name _ hNamed hListed =>
      rw [hNamed]
      rcases ofName_cases name with hDenoted | ⟨hNone, -⟩
      · exact hOne _ hDenoted _ hListed rfl
      · exact absurd hListed (hNone type)
    | @unknown name hNamed hUnlisted =>
      rw [hNamed]
      rcases ofName_cases name with hDenoted | ⟨-, hUnknown⟩
      · exact absurd hDenoted (hUnlisted _)
      · exact hUnknown
  · rintro rfl
    rcases hNamed : rule.type with _ | name
    · exact .text hNamed
    · rcases ofName_cases name with hDenoted | ⟨hNone, hUnknown⟩
      · exact .known hNamed hDenoted
      · show rule.HasType (RuleType.ofName name)
        rw [hUnknown]
        exact .unknown hNamed hNone

theorem Rule.hasType_resolvedType (rule : Rule) : rule.HasType rule.resolvedType :=
  hasType_iff.mpr rfl

/-! ### Checks -/

/-- The order of the checks in a chain: those of texts, of numbers and of arrays, then the predicate
of the application and the null check. -/
def checkOrder : List Attribute :=
  [.bound .min, .bound .max, .bound .length, .flag .email, .flag .url, .flag .uuid, .flag .cuid,
    .pattern .includes, .pattern .startsWith, .pattern .endsWith, .pattern .regex,
    .bound .gt, .bound .gte, .bound .lt, .bound .lte, .flag .int, .flag .positive, .flag .negative,
    .bound .multipleOf, .flag .finite, .flag .safe,
    .flag .nonempty, .bound .minItems, .bound .maxItems,
    .pattern .custom, .flag .nullable]

/-- The place of a check in a chain. Whether the value may be missing is said last. -/
def Check.place : Check → Nat
  | .flag f => checkOrder.idxOf (.flag f)
  | .bound b _ => checkOrder.idxOf (.bound b)
  | .pattern p _ => checkOrder.idxOf (.pattern p)
  | .optional => checkOrder.length
  | .requiredMin => checkOrder.length

/-- The type of the values that a flag is about, if it is about those of one type. -/
def Flag.type? : Flag → Option RuleType
  | .required => none
  | .nullable => none
  | .email => some .string
  | .url => some .string
  | .uuid => some .string
  | .cuid => some .string
  | .int => some .number
  | .positive => some .number
  | .negative => some .number
  | .finite => some .number
  | .safe => some .number
  | .nonempty => some .array

/-- The type of the values that a bound is about. -/
def Bound.type : Bound → RuleType
  | .min => .string
  | .max => .string
  | .length => .string
  | .gt => .number
  | .gte => .number
  | .lt => .number
  | .lte => .number
  | .multipleOf => .number
  | .minItems => .array
  | .maxItems => .array

/-- The type of the values that a text attribute is about; a predicate may be about any. -/
def Pattern.type? : Pattern → Option RuleType
  | .custom => none
  | _ => some .string

/-- A rule asks for a check: the attribute is set, and is one of the rule's type or of all types. -/
inductive Rule.Asks (rule : Rule) : Check → Prop
  | flag {f : Flag} {type : RuleType} (set : rule.flag f = true) (about : f.type? = some type)
      (hasType : rule.HasType type) : Asks rule (.flag f)
  | bound {b : Bound} {x : Number} (set : rule.bound b = some x) (hasType : rule.HasType b.type) :
      Asks rule (.bound b x)
  | pattern {p : Pattern} {s : String} {type : RuleType} (set : rule.pattern p = some s)
      (about : p.type? = some type) (hasType : rule.HasType type) : Asks rule (.pattern p s)
  | custom {s : String} (set : rule.pattern .custom = some s) : Asks rule (.pattern .custom s)
  | nullable (set : rule.flag .nullable = true) : Asks rule (.flag .nullable)
  | optional (set : rule.flag .required = false) : Asks rule .optional
  | requiredMin (set : rule.flag .required = true) (hasType : rule.HasType .string) :
      Asks rule .requiredMin

/-! ### Messages -/

/-- The name under which a rule has the message of a check. -/
def Check.key : Check → String
  | .flag f => f.name
  | .bound b _ => b.name
  | .pattern p _ => p.name
  | .optional => "optional"
  | .requiredMin => "required"

/-- The parameters of a check. -/
def Check.params : Check → Params
  | .bound b x => [(b.name, .number x)]
  | .pattern p s => [(p.name, .text s)]
  | .requiredMin => [("min", .number (.ofInt 1))]
  | _ => []

/-- A rule has a message under a name: a localized one, or else one from a template. -/
inductive Rule.Shows (rule : Rule) (key : String) (params : Params) : Option Message → Prop
  | localized {text : String} (there : rule.i18n.lookup key = some text) :
      Shows rule key params (some (.localized text params))
  | literal {template : String} (missing : rule.i18n.lookup key = none)
      (there : rule.messages.lookup key = some template) :
      Shows rule key params (some (.literal (substitute params template)))
  | nothing (missing : rule.i18n.lookup key = none) (silent : rule.messages.lookup key = none) :
      Shows rule key params none

theorem shows_iff {rule : Rule} {key : String} {params : Params} {message : Option Message} :
    rule.Shows key params message ↔ rule.message? key params = message := by
  rw [Rule.message?]
  constructor
  · intro h
    cases h with
    | localized hThere => rw [hThere]
    | literal hMissing hThere => rw [hMissing, hThere, Option.map_some]
    | nothing hMissing hNone => rw [hMissing, hNone, Option.map_none]
  · rintro rfl
    cases hLocalized : rule.i18n.lookup key with
    | some text => exact .localized hLocalized
    | none =>
      cases hTemplate : rule.messages.lookup key with
      | some template => exact .literal hLocalized hTemplate
      | none => exact .nothing hLocalized hTemplate

/-- A constraint has the message that a rule has for its check; whether a value may be null or
missing is said without one. -/
structure Constraint.Annotated (rule : Rule) (c : Constraint) : Prop where
  silent : c.check.silent = true → c.message = none
  shows : c.check.silent = false → rule.Shows c.check.key c.check.params c.message

theorem Constraint.Annotated.unique {rule : Rule} {c d : Constraint} (hc : c.Annotated rule)
    (hd : d.Annotated rule) (h : c.check = d.check) : c = d := by
  obtain ⟨check, message⟩ := c
  obtain ⟨other, otherMessage⟩ := d
  obtain rfl : check = other := h
  refine congrArg (Constraint.mk check) ?_
  cases hSilent : check.silent with
  | true => exact (hc.silent hSilent).trans (hd.silent hSilent).symm
  | false => exact (shows_iff.mp (hc.shows hSilent)).symm.trans (shows_iff.mp (hd.shows hSilent))

/-! ### Constraints -/

/-- Constraints are as a rule says: each check that it asks for and no other, in order, with its
message. -/
structure Rule.Constrains (rule : Rule) (constraints : List Constraint) : Prop where
  order : constraints.Pairwise fun c d => c.check.place < d.check.place
  checks : ∀ check, (∃ c ∈ constraints, c.check = check) ↔ rule.Asks check
  messages : ∀ c ∈ constraints, c.Annotated rule

/-- What a rule says of its constraints determines them. -/
theorem Rule.Constrains.unique {rule : Rule} {first second : List Constraint}
    (h : rule.Constrains first) (hSecond : rule.Constrains second) : first = second := by
  have : Std.Antisymm fun c d : Constraint => c.check.place < d.check.place :=
    ⟨fun _ _ h hBack => absurd (h.trans hBack) (Nat.lt_irrefl _)⟩
  have : Std.Irrefl fun c d : Constraint => c.check.place < d.check.place :=
    ⟨fun _ => Nat.lt_irrefl _⟩
  have hSubset {cs ds : List Constraint} (hcs : rule.Constrains cs) (hds : rule.Constrains ds)
      {c : Constraint} (hc : c ∈ cs) : c ∈ ds := by
    obtain ⟨d, hd, hCheck⟩ := (hds.checks c.check).mpr ((hcs.checks _).mp ⟨c, hc, rfl⟩)
    rwa [← (hds.messages d hd).unique (hcs.messages c hc) hCheck]
  exact h.order.eq_of_mem_iff hSecond.order fun _ => ⟨hSubset h hSecond, hSubset hSecond h⟩

/-- An attribute that is set gives a constraint: its check, with the message for it. -/
inductive Rule.Gives (rule : Rule) : Attribute → Constraint → Prop
  | flag {f : Flag} (set : rule.flag f = true) : Gives rule (.flag f)
      ⟨.flag f, rule.message? (Check.flag f).key (Check.flag f).params⟩
  | bound {b : Bound} {x : Number} (set : rule.bound b = some x) : Gives rule (.bound b)
      ⟨.bound b x, rule.message? (Check.bound b x).key (Check.bound b x).params⟩
  | pattern {p : Pattern} {s : String} (set : rule.pattern p = some s) : Gives rule (.pattern p)
      ⟨.pattern p s, rule.message? (Check.pattern p s).key (Check.pattern p s).params⟩

theorem gives_of_constraint? {rule : Rule} {known : Attribute} {c : Constraint}
    (h : rule.constraint? known = some c) : rule.Gives known c := by
  cases known with
  | flag f =>
    obtain ⟨hSet, h⟩ := Option.ite_none_right_eq_some.mp h
    rw [← Option.some.inj h]
    exact .flag hSet
  | bound b =>
    obtain ⟨x, hSet, rfl⟩ := Option.map_eq_some_iff.mp h
    exact .bound hSet
  | pattern p =>
    obtain ⟨s, hSet, rfl⟩ := Option.map_eq_some_iff.mp h
    exact .pattern hSet
  | _ => cases h

theorem Rule.Gives.annotated {rule : Rule} {known : Attribute} {c : Constraint}
    (h : rule.Gives known c) (hKnown : known ≠ .flag .nullable) : c.Annotated rule := by
  cases h with
  | @flag f =>
    refine ⟨fun hSilent => ?_, fun _ => shows_iff.mpr rfl⟩
    cases f with
    | nullable => exact absurd rfl hKnown
    | _ => cases hSilent
  | bound => exact ⟨(nomatch ·), fun _ => shows_iff.mpr rfl⟩
  | pattern => exact ⟨(nomatch ·), fun _ => shows_iff.mpr rfl⟩

theorem constraint?_place {rule : Rule} {known : Attribute} {c : Constraint}
    (h : rule.constraint? known = some c) : c.check.place = checkOrder.idxOf known := by
  cases gives_of_constraint? h <;> rfl

/-- The attributes that may give constraints of a type before the null check. -/
def RuleType.checked (type : RuleType) : List Attribute :=
  type.attributes ++ [Attribute.pattern .custom]

/-- They stand in order, and the null check behind them. -/
theorem checked_ordered (type : RuleType) :
    type.checked.Pairwise (fun a b => checkOrder.idxOf a < checkOrder.idxOf b) ∧
      ∀ known ∈ type.checked, checkOrder.idxOf known < checkOrder.idxOf (.flag .nullable) := by
  cases type <;> simp only [RuleType.checked, RuleType.attributes] <;> decide

/-- An attribute is about values of a type: of that type alone or, as the predicate, of all. -/
def Attribute.Concerns (type : RuleType) : Attribute → Prop
  | .flag f => f.type? = some type
  | .bound b => b.type = type
  | .pattern p => p = .custom ∨ p.type? = some type
  | _ => False

theorem mem_checked_iff {type : RuleType} {known : Attribute} :
    known ∈ type.checked ↔ known.Concerns type := by
  cases known with
  | flag f =>
    cases f <;> cases type <;> simp [RuleType.checked, RuleType.attributes, stringAttributes,
      numberAttributes, arrayAttributes, Attribute.Concerns, Flag.type?]
  | bound b =>
    cases b <;> cases type <;> simp [RuleType.checked, RuleType.attributes, stringAttributes,
      numberAttributes, arrayAttributes, Attribute.Concerns, Bound.type]
  | pattern p =>
    cases p <;> cases type <;> simp [RuleType.checked, RuleType.attributes, stringAttributes,
      numberAttributes, arrayAttributes, Attribute.Concerns, Pattern.type?]
  | _ =>
    cases type <;> simp [RuleType.checked, RuleType.attributes, stringAttributes,
      numberAttributes, arrayAttributes, Attribute.Concerns]

theorem constraints_eq (rule : Rule) : rule.constraints =
    rule.resolvedType.checked.filterMap rule.constraint? ++
      (rule.nullable?.toList ++ rule.presence?.toList) := by
  have hCustom : (rule.constraint? (.pattern .custom)).toList =
      [Attribute.pattern .custom].filterMap rule.constraint? := by
    cases h : rule.constraint? (.pattern .custom) <;> simp [h]
  rw [Rule.constraints, RuleType.checked, List.filterMap_append, List.append_assoc, hCustom]

theorem mem_constraints_iff {rule : Rule} {c : Constraint} : c ∈ rule.constraints ↔
    (∃ known : Attribute, known.Concerns rule.resolvedType ∧ rule.constraint? known = some c) ∨
      rule.nullable? = some c ∨ rule.presence? = some c := by
  simp only [constraints_eq, List.mem_append, List.mem_filterMap, Option.mem_toList,
    mem_checked_iff]

theorem nullable?_eq_some_iff {rule : Rule} {c : Constraint} :
    rule.nullable? = some c ↔ rule.flag .nullable = true ∧ ⟨.flag .nullable, none⟩ = c := by
  rw [Rule.nullable?, Option.ite_none_right_eq_some, Option.some.injEq]

theorem presence?_cases {rule : Rule} {c : Constraint} (h : rule.presence? = some c) :
    (rule.flag .required = false ∧ c = ⟨.optional, none⟩) ∨
      (rule.flag .required = true ∧ rule.resolvedType = .string ∧
        c = ⟨.requiredMin, rule.message? "required" [("min", .number (.ofInt 1))]⟩) := by
  rw [Rule.presence?] at h
  cases hRequired : rule.flag .required with
  | false =>
    rw [hRequired, Bool.not_false, if_pos rfl] at h
    exact .inl ⟨rfl, (Option.some.inj h).symm⟩
  | true =>
    rw [hRequired, Bool.not_true, if_neg Bool.false_ne_true, Option.ite_none_right_eq_some] at h
    exact .inr ⟨rfl, h.1, (Option.some.inj h.2).symm⟩

theorem Rule.constraints_ordered (rule : Rule) :
    rule.constraints.Pairwise fun c d => c.check.place < d.check.place := by
  obtain ⟨hOrder, hBefore⟩ := checked_ordered rule.resolvedType
  have hLast : checkOrder.idxOf (.flag .nullable) < checkOrder.length := by decide
  have hPresence {c : Constraint} (h : rule.presence? = some c) :
      c.check.place = checkOrder.length := by
    rcases presence?_cases h with ⟨-, rfl⟩ | ⟨-, -, rfl⟩ <;> rfl
  rw [constraints_eq, List.pairwise_append, List.pairwise_append, List.pairwise_filterMap]
  refine ⟨hOrder.imp fun h c hc d hd => ?_, ⟨?_, ?_, fun c hc d hd => ?_⟩, fun c hc d hd => ?_⟩
  · rwa [constraint?_place hc, constraint?_place hd]
  · cases rule.nullable? <;> simp
  · cases rule.presence? <;> simp
  · obtain ⟨-, rfl⟩ := nullable?_eq_some_iff.mp (Option.mem_toList.mp hc)
    rw [hPresence (Option.mem_toList.mp hd)]
    exact hLast
  · obtain ⟨known, hKnown, hc⟩ := List.mem_filterMap.mp hc
    rw [constraint?_place hc]
    rcases List.mem_append.mp hd with hd | hd
    · obtain ⟨-, rfl⟩ := nullable?_eq_some_iff.mp (Option.mem_toList.mp hd)
      exact hBefore known hKnown
    · rw [hPresence (Option.mem_toList.mp hd)]
      exact (hBefore known hKnown).trans hLast

/-- The constraint of an attribute of the rule's type is one that the rule asks for. -/
theorem asks_of_constraint? {rule : Rule} {known : Attribute} {c : Constraint}
    (hKnown : known.Concerns rule.resolvedType) (h : rule.constraint? known = some c) :
    rule.Asks c.check := by
  have hType := rule.hasType_resolvedType
  cases gives_of_constraint? h with
  | flag hSet => exact .flag hSet hKnown hType
  | bound hSet => exact .bound hSet (hKnown ▸ hType)
  | pattern hSet =>
    rcases hKnown with rfl | hAbout
    · exact .custom hSet
    · exact .pattern hSet hAbout hType

theorem Rule.constraints_checks (rule : Rule) (check : Check) :
    (∃ c ∈ rule.constraints, c.check = check) ↔ rule.Asks check := by
  constructor
  · rintro ⟨c, hc, rfl⟩
    rcases mem_constraints_iff.mp hc with ⟨known, hKnown, hc⟩ | hc | hc
    · exact asks_of_constraint? hKnown hc
    · obtain ⟨hSet, rfl⟩ := nullable?_eq_some_iff.mp hc
      exact .nullable hSet
    · rcases presence?_cases hc with ⟨hSet, rfl⟩ | ⟨hSet, hType, rfl⟩
      · exact .optional hSet
      · exact .requiredMin hSet (hasType_iff.mpr hType)
  · intro hAsks
    have there {c : Constraint} (known : Attribute) (hKnown : known.Concerns rule.resolvedType)
        (h : rule.constraint? known = some c) : ∃ d ∈ rule.constraints, d.check = c.check :=
      ⟨c, mem_constraints_iff.mpr (.inl ⟨known, hKnown, h⟩), rfl⟩
    have last {c : Constraint} (h : rule.presence? = some c) :
        ∃ d ∈ rule.constraints, d.check = c.check :=
      ⟨c, mem_constraints_iff.mpr (.inr (.inr h)), rfl⟩
    cases hAsks with
    | @flag f type hSet hAbout hType =>
      rw [← hasType_iff.mp hType] at hAbout
      exact there (.flag f) hAbout (if_pos hSet)
    | @bound b x hSet hType =>
      exact there (.bound b) (hasType_iff.mp hType).symm
        (by rw [Rule.constraint?, hSet, Option.map_some])
    | @pattern p s type hSet hAbout hType =>
      rw [← hasType_iff.mp hType] at hAbout
      exact there (.pattern p) (.inr hAbout) (by rw [Rule.constraint?, hSet, Option.map_some])
    | @custom s hSet =>
      exact there (.pattern .custom) (.inl rfl) (by rw [Rule.constraint?, hSet, Option.map_some])
    | nullable hSet =>
      exact ⟨_, mem_constraints_iff.mpr (.inr (.inl (nullable?_eq_some_iff.mpr ⟨hSet, rfl⟩))), rfl⟩
    | optional hSet => exact last (by rw [Rule.presence?, hSet]; rfl)
    | requiredMin hSet hType => exact last (by rw [Rule.presence?, hSet, hasType_iff.mp hType]; rfl)

/-- The constraints that a rule compiles to are as it says. -/
theorem Rule.constraints_constrain (rule : Rule) : rule.Constrains rule.constraints where
  order := rule.constraints_ordered
  checks := rule.constraints_checks
  messages := fun c hc => by
    rcases mem_constraints_iff.mp hc with ⟨known, hKnown, hc⟩ | hc | hc
    · refine (gives_of_constraint? hc).annotated fun hNull => ?_
      rw [hNull] at hKnown
      cases hKnown
    · obtain ⟨-, rfl⟩ := nullable?_eq_some_iff.mp hc
      exact ⟨fun _ => rfl, (nomatch ·)⟩
    · rcases presence?_cases hc with ⟨-, rfl⟩ | ⟨-, -, rfl⟩
      · exact ⟨fun _ => rfl, (nomatch ·)⟩
      · exact ⟨(nomatch ·), fun _ => shows_iff.mpr rfl⟩

/-! ### Chains -/

mutual

/-- A chain is as a rule says, and so are those inside it as the rules inside the rule say. -/
inductive Rule.Describes : Rule → Chain → Prop
  | mk {rule : Rule} {base : Base} {message : Option Message} {constraints : List Constraint}
      (hasBase : rule.HasBase base) (shows : rule.Shows "type" [] message)
      (constrains : rule.Constrains constraints) : rule.Describes (.mk base message constraints)

/-- A base type is that of a rule's values. The items of an array may be anything if there is no
rule for them, and so may a value of a type that is not known. -/
inductive Rule.HasBase : Rule → Base → Prop
  | string {rule : Rule} (hasType : rule.HasType .string) : rule.HasBase .string
  | number {rule : Rule} (hasType : rule.HasType .number) : rule.HasBase .number
  | boolean {rule : Rule} (hasType : rule.HasType .boolean) : rule.HasBase .boolean
  | date {rule : Rule} (hasType : rule.HasType .date) : rule.HasBase .date
  | array {rule item : Rule} {chain : Chain} (hasType : rule.HasType .array)
      (there : rule.item = some item) (describes : item.Describes chain) :
      rule.HasBase (.array chain)
  | anyItems {rule : Rule} (hasType : rule.HasType .array) (missing : rule.item = none) :
      rule.HasBase (.array .any)
  | object {rule : Rule} {rows : List (String × Chain)} (hasType : rule.HasType .object)
      (describe : RulesDescribe rule.properties rows) : rule.HasBase (.object rows)
  | any {rule : Rule} {name : String} (hasType : rule.HasType (.unknown name)) :
      rule.HasBase .any

/-- Properties have the names of rules, in order, and chains that are as the rules say. -/
inductive RulesDescribe : List (String × Rule) → List (String × Chain) → Prop
  | nil : RulesDescribe [] []
  | cons {name : String} {rule : Rule} {chain : Chain} {rules : List (String × Rule)}
      {rows : List (String × Chain)} (describes : rule.Describes chain)
      (rest : RulesDescribe rules rows) :
      RulesDescribe ((name, rule) :: rules) ((name, chain) :: rows)

end

mutual

theorem describes_compile : ∀ rule : Rule, rule.Describes (compile rule)
  | ⟨type, flag, bound, pattern, messages, i18n, item, properties⟩ => by
    have hItem := describes_compileItem item
    have hProperties := describe_compileProperties properties
    rw [compile_eq]
    refine .mk ?_ (shows_iff.mpr rfl) (Rule.constraints_constrain _)
    rw [Rule.base]
    split
    case h_1 hType => exact .string (hasType_iff.mpr hType)
    case h_2 hType => exact .number (hasType_iff.mpr hType)
    case h_3 hType => exact .boolean (hasType_iff.mpr hType)
    case h_4 hType => exact .date (hasType_iff.mpr hType)
    case h_5 hType =>
      cases item with
      | none => exact .anyItems (hasType_iff.mpr hType) rfl
      | some rule => exact .array (hasType_iff.mpr hType) rfl (hItem rule rfl)
    case h_6 hType => exact .object (hasType_iff.mpr hType) hProperties
    case h_7 hType => exact .any (hasType_iff.mpr hType)

theorem describes_compileItem : ∀ item : Option Rule, ∀ rule, item = some rule →
    rule.Describes (compileItem item)
  | none => fun _ hNone => nomatch hNone
  | some rule => fun _ hSome => Option.some.inj hSome ▸ describes_compile rule

theorem describe_compileProperties :
    ∀ properties : List (String × Rule), RulesDescribe properties (compileProperties properties)
  | [] => .nil
  | (_, rule) :: rest => .cons (describes_compile rule) (describe_compileProperties rest)

end

mutual

theorem compile_of_describes : ∀ {rule : Rule} {chain : Chain}, rule.Describes chain →
    compile rule = chain
  | rule, _, .mk hBase hMessage hConstraints => by
    rw [compile_eq, base_of_hasBase hBase, shows_iff.mp hMessage,
      hConstraints.unique rule.constraints_constrain]

theorem base_of_hasBase : ∀ {rule : Rule} {base : Base}, rule.HasBase base → rule.base = base
  | _, _, .string hType => by rw [Rule.base, hasType_iff.mp hType]
  | _, _, .number hType => by rw [Rule.base, hasType_iff.mp hType]
  | _, _, .boolean hType => by rw [Rule.base, hasType_iff.mp hType]
  | _, _, .date hType => by rw [Rule.base, hasType_iff.mp hType]
  | _, _, .array hType hThere hItem => by
    rw [Rule.base, hasType_iff.mp hType, hThere, compileItem, compile_of_describes hItem]
  | _, _, .anyItems hType hMissing => by rw [Rule.base, hasType_iff.mp hType, hMissing, compileItem]
  | _, _, .object hType hProperties => by
    rw [Rule.base, hasType_iff.mp hType, compileProperties_of_describe hProperties]
  | _, _, .any hType => by rw [Rule.base, hasType_iff.mp hType]

theorem compileProperties_of_describe : ∀ {properties : List (String × Rule)}
    {rows : List (String × Chain)}, RulesDescribe properties rows →
      compileProperties properties = rows
  | _, _, .nil => rfl
  | _, _, .cons hChain hRest => by
    rw [compileProperties, compile_of_describes hChain, compileProperties_of_describe hRest]

end

/-- A rule compiles to the one chain that is as it says, at every depth: its checks are those that
the rule asks for, in order, each once and with its message. -/
theorem compile_eq_iff {rule : Rule} {chain : Chain} :
    compile rule = chain ↔ rule.Describes chain :=
  ⟨fun h => h ▸ describes_compile rule, compile_of_describes⟩

end EntityGen.Form
