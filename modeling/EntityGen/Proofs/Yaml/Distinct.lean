import EntityGen.Yaml.Value.Reader

/-! Values whose mappings have no key twice, at any depth. Every value that is parsed is one. -/

namespace EntityGen.Yaml

/-- A condition on entries holds of every mapping in a value. -/
inductive Value.Everywhere (good : List (Value × Value) → Prop) : Value → Prop
  | null : Everywhere good .null
  | bool (b : Bool) : Everywhere good (.bool b)
  | int (i : Int) : Everywhere good (.int i)
  | float (x : Number) : Everywhere good (.float x)
  | str (s : String) : Everywhere good (.str s)
  | seq {list : List Value} (items : ∀ item ∈ list, Everywhere good item) :
      Everywhere good (.seq list)
  | map {entries : List (Value × Value)} (keys : ∀ entry ∈ entries, Everywhere good entry.1)
      (values : ∀ entry ∈ entries, Everywhere good entry.2) (here : good entries) :
      Everywhere good (.map entries)
  | tagged {tag : String} {inner : Value} (value : Everywhere good inner) :
      Everywhere good (.tagged tag inner)

@[simp] theorem Value.everywhere_str {good : List (Value × Value) → Prop} (s : String) :
    Everywhere good (.str s) :=
  .str s

@[simp] theorem Value.everywhere_map_iff {good : List (Value × Value) → Prop}
    {entries : List (Value × Value)} :
    Everywhere good (.map entries) ↔
      (∀ entry ∈ entries, Everywhere good entry.1 ∧ Everywhere good entry.2) ∧ good entries := by
  constructor
  · rintro ⟨⟩
    rename_i keys values here
    exact ⟨fun entry h => ⟨keys entry h, values entry h⟩, here⟩
  · rintro ⟨hParts, hHere⟩
    exact .map (fun entry h => (hParts entry h).1) (fun entry h => (hParts entry h).2) hHere

/-- No mapping in a value has two keys that are the same. -/
abbrev Value.Distinct : Value → Prop :=
  Everywhere fun entries => entries.Pairwise fun first second => first.1.same second.1 = false

theorem distinctEntries?_pairwise {entries distinct : List (Value × Value)}
    (h : distinctEntries? entries = some distinct) :
    distinct = entries ∧
      entries.Pairwise fun first second => first.1.same second.1 = false := by
  have hFold (entries done found : List (Value × Value))
      (hDone : done.reverse.Pairwise fun first second => first.1.same second.1 = false)
      (h : entries.foldlM (fun done entry =>
        if hasKey entry.1 done then none else some (entry :: done)) done = some found) :
      found.reverse = done.reverse ++ entries ∧
        found.reverse.Pairwise fun first second => first.1.same second.1 = false := by
    induction entries generalizing done with
    | nil =>
      obtain rfl : done = found := by simpa using h
      exact ⟨by simp, hDone⟩
    | cons entry rest ih =>
      rw [List.foldlM_cons] at h
      by_cases hKey : hasKey entry.1 done
      · simp [hKey] at h
      · simp only [hKey, Bool.false_eq_true, if_false, Option.bind_eq_bind, Option.bind_some] at h
        have hNew : ∀ other ∈ done, other.1.same entry.1 = false := by
          simpa [hasKey] using hKey
        obtain ⟨hFound, hPairwise⟩ := ih (entry :: done) (by
          rw [List.reverse_cons, List.pairwise_append]
          exact ⟨hDone, List.pairwise_singleton _ _, by simpa using fun a b h => hNew (a, b) h⟩) h
        exact ⟨by simpa using hFound, hPairwise⟩
  rw [distinctEntries?, Option.map_eq_some_iff] at h
  obtain ⟨found, hFound, rfl⟩ := h
  obtain ⟨hSame, hPairwise⟩ := hFold entries [] found .nil hFound
  rw [List.reverse_nil, List.nil_append] at hSame
  exact ⟨hSame, hSame ▸ hPairwise⟩

section Reading

variable {α β : Type}

theorem reading_bind {first : Document.Reading α} {next : α → Document.Reading β}
    {limit left : Nat} {b : β} (h : (first >>= next) limit = some (b, left)) :
    ∃ a mid, first limit = some (a, mid) ∧ next a mid = some (b, left) := by
  simpa [bind, StateT.bind, Option.bind_eq_some_iff] using h

theorem reading_pure {a b : α} {limit left : Nat}
    (h : (pure a : Document.Reading α) limit = some (b, left)) : b = a :=
  (Prod.mk.inj (Option.some.inj h)).1.symm

/-- What a reading gives for a list, it gives for the elements. -/
theorem of_mem_mapM {read : α → Document.Reading β} {good : β → Prop}
    (hRead : ∀ a limit b left, read a limit = some (b, left) → good b) {items : List α}
    {results : List β} {limit left : Nat} (h : items.mapM read limit = some (results, left)) :
    ∀ b ∈ results, good b := by
  induction items generalizing results limit left with
  | nil =>
    rw [reading_pure h]
    simp
  | cons a rest ih =>
    rw [List.mapM_cons] at h
    obtain ⟨b, mid, hFirst, hNext⟩ := reading_bind h
    obtain ⟨others, last, hRest, hResults⟩ := reading_bind hNext
    rw [reading_pure hResults, List.forall_mem_cons]
    exact ⟨hRead a limit b mid hFirst, ih hRest⟩

end Reading

/-! ### Values that are parsed -/

/-- A value that a scalar can have; a float is what its text denotes. -/
inductive IsScalar (text : String) : Value → Prop
  | null : IsScalar text .null
  | bool (b : Bool) : IsScalar text (.bool b)
  | int (i : Int) : IsScalar text (.int i)
  | float {x : Number} (denoted : float? text.toList = some x) : IsScalar text (.float x)
  | str (s : String) : IsScalar text (.str s)

theorem plainValue?_isScalar {text : String} {value : Value} (h : plainValue? text = some value) :
    IsScalar text value := by
  rw [plainValue?] at h
  split at h
  · exact Option.some.inj h ▸ .null
  split at h
  · exact Option.some.inj h ▸ .bool _
  simp only at h
  split at h
  · split at h
    · exact Option.some.inj h ▸ .int _
    · cases h
  split at h
  · exact Option.some.inj h ▸ .str _
  split at h
  · rename_i x hFloat
    exact Option.some.inj h ▸ .float hFloat
  · exact Option.some.inj h ▸ .str _

theorem scalarValue?_isScalar {tag : Option String} {text : String} {style : Style} {value : Value}
    (h : scalarValue? tag text style = some value) : IsScalar text value := by
  rw [scalarValue?.eq_def] at h
  split at h
  · split at h
    · exact plainValue?_isScalar h
    · exact Option.some.inj h ▸ .str _
  · obtain ⟨b, -, rfl⟩ := Option.map_eq_some_iff.mp h
    exact .bool b
  · obtain ⟨i, -, rfl⟩ := Option.map_eq_some_iff.mp h
    exact .int i
  · obtain ⟨x, hFloat, rfl⟩ := Option.map_eq_some_iff.mp h
    exact .float hFloat
  · split at h
    · exact Option.some.inj h ▸ .null
    · cases h
  · exact Option.some.inj h ▸ .str _

theorem reading_lift {α : Type} {result : Option α} {a : α} {limit left : Nat}
    (h : (liftM result : Document.Reading α) limit = some (a, left)) : result = some a := by
  rcases result with _ | b
  · cases h
  · rw [reading_pure h]

/-- A condition is inherited by values: scalars satisfy it, and whatever is made of values that do. -/
structure Inherited (good : Value → Prop) : Prop where
  scalar : ∀ {text value}, IsScalar text value → good value
  seq : ∀ {items}, (∀ item ∈ items, good item) → good (.seq items)
  map : ∀ {entries}, (∀ entry ∈ entries, good entry.1 ∧ good entry.2) →
    (entries.Pairwise fun first second => first.1.same second.1 = false) → good (.map entries)
  tagged : ∀ {tag value}, good value → good (.tagged tag value)

namespace Inherited

variable {good : Value → Prop} (h : Inherited good)
include h

theorem withTag {value : Value} (tag : Option String) (hValue : good value) :
    good (withTag tag value) := by
  cases tag with
  | none => exact hValue
  | some tag => exact h.tagged hValue

theorem scalarOf? {properties : Properties} {text : String} {style : Style} {value : Value}
    (hValue : scalarOf? properties text style = some value) : good value := by
  obtain ⟨scalar, hScalar, rfl⟩ := Option.map_eq_some_iff.mp hValue
  exact h.withTag _ (h.scalar (scalarValue?_isScalar hScalar))

/-- What values inherit, the value of a node has. -/
theorem valueOf (document : Document) (depth : Nat) :
    ∀ node limit value left, valueOf document depth node limit = some (value, left) → good value := by
  induction depth with
  | zero =>
    intro node limit value left hValue
    obtain ⟨resolved, mid, -, hNode⟩ := reading_bind hValue
    cases resolved with
    | scalar properties text style => exact h.scalarOf? (reading_lift hNode)
    | _ => cases hNode
  | succ depth ih =>
    intro node limit value left hValue
    obtain ⟨resolved, mid, -, hNode⟩ := reading_bind hValue
    cases resolved with
    | scalar properties text style => exact h.scalarOf? (reading_lift hNode)
    | sequence properties items =>
      obtain ⟨values, _, hValues, hResult⟩ := reading_bind hNode
      rw [reading_pure hResult]
      exact h.withTag _ (h.seq (of_mem_mapM ih hValues))
    | mapping properties entries =>
      obtain ⟨values, _, hValues, hRest⟩ := reading_bind hNode
      obtain ⟨distinct, _, hDistinct, hResult⟩ := reading_bind hRest
      obtain ⟨rfl, hPairwise⟩ := distinctEntries?_pairwise (reading_lift hDistinct)
      rw [reading_pure hResult]
      refine h.withTag _ (h.map (of_mem_mapM (fun entry limit result left hEntry => ?_) hValues)
        hPairwise)
      obtain ⟨key, mid, hKey, hNext⟩ := reading_bind hEntry
      obtain ⟨content, last, hContent, hPair⟩ := reading_bind hNext
      rw [reading_pure hPair]
      exact ⟨ih _ _ _ _ hKey, ih _ _ _ _ hContent⟩
    | _ => cases hNode

/-- What values inherit, a value that is parsed has. -/
theorem parse? {text : String} {value : Value} (hParse : parse? text = some value) : good value := by
  simp only [Yaml.parse?, Option.bind_eq_bind, Option.bind_eq_some_iff] at hParse
  obtain ⟨stream, -, hStream⟩ := hParse
  rcases stream with _ | root
  · exact Option.some.inj hStream ▸ h.scalar (.null : IsScalar "" .null)
  · simp only [Option.bind_eq_some_iff, Document.value?, Option.map_eq_some_iff] at hStream
    obtain ⟨document, -, ⟨_, left⟩, hValue, rfl⟩ := hStream
    exact h.valueOf document _ _ _ _ _ hValue

end Inherited

theorem inherited_distinct : Inherited Value.Distinct where
  scalar := by
    rintro text value ⟨⟩
    · exact .null
    · exact .bool _
    · exact .int _
    · exact .float _
    · exact .str _
  seq := .seq
  map := fun hParts hPairwise =>
    .map (fun entry h => (hParts entry h).1) (fun entry h => (hParts entry h).2) hPairwise
  tagged := .tagged

/-- A value that is parsed has no key twice, at any depth. -/
theorem parse?_distinct {text : String} {value : Value} (h : parse? text = some value) :
    value.Distinct :=
  inherited_distinct.parse? h

end EntityGen.Yaml
