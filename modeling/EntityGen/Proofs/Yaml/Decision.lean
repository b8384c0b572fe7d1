import EntityGen.Yaml.Value

/-! Deciding whether two values are equal, down to the order of the entries of their mappings. -/

namespace EntityGen.Yaml.Value

mutual

/-- Whether two values are equal. -/
def identical : Value → Value → Bool
  | .null, .null => true
  | .bool a, .bool b => a == b
  | .int a, .int b => a == b
  | .float a, .float b => decide (a = b)
  | .str a, .str b => a == b
  | .seq a, .seq b => identicalItems a b
  | .map a, .map b => identicalEntries a b
  | .tagged t a, .tagged u b => t == u && identical a b
  | _, _ => false

def identicalItems : List Value → List Value → Bool
  | [], [] => true
  | a :: as, b :: bs => identical a b && identicalItems as bs
  | _, _ => false

def identicalEntries : List (Value × Value) → List (Value × Value) → Bool
  | [], [] => true
  | (key, value) :: entries, (other, content) :: others =>
    identical key other && identical value content && identicalEntries entries others
  | _, _ => false

end

mutual

theorem identical_iff : ∀ a b : Value, identical a b = true ↔ a = b
  | .null, b => by cases b <;> simp [identical]
  | .bool _, b => by cases b <;> simp [identical]
  | .int _, b => by cases b <;> simp [identical]
  | .float _, b => by cases b <;> simp [identical]
  | .str _, b => by cases b <;> simp [identical]
  | .seq items, b => by cases b <;> simp [identical, identicalItems_iff items]
  | .map entries, b => by cases b <;> simp [identical, identicalEntries_iff entries]
  | .tagged _ a, b => by cases b <;> simp [identical, identical_iff a]

theorem identicalItems_iff : ∀ as bs : List Value, identicalItems as bs = true ↔ as = bs
  | [], bs => by cases bs <;> simp [identicalItems]
  | a :: as, bs => by cases bs <;> simp [identicalItems, identical_iff a, identicalItems_iff as]

theorem identicalEntries_iff :
    ∀ entries others : List (Value × Value), identicalEntries entries others = true ↔ entries = others
  | [], others => by cases others <;> simp [identicalEntries]
  | (key, value) :: entries, others => by
    rcases others with _ | ⟨⟨other, content⟩, others⟩
    · simp [identicalEntries]
    · simp [identicalEntries, identical_iff key, identical_iff value, identicalEntries_iff entries]

end

instance : DecidableEq Value := fun a b => decidable_of_iff _ (identical_iff a b)

end EntityGen.Yaml.Value
