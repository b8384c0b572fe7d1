import EntityGen.Proofs.Number
import EntityGen.Proofs.Yaml.Alike

/-! Equality of values is reflexive and transitive, and keys with a text are the same only if they are
equal. -/

namespace EntityGen

theorem Number.sameValue_trans {x y z : Number} (h : x.sameValue y) (hNext : y.sameValue z) :
    x.sameValue z := by
  rcases Number.eq_or_isZero h with rfl | ⟨⟨_, _, rfl⟩, ⟨_, _, rfl⟩⟩
  · exact hNext
  · rcases Number.eq_or_isZero hNext with rfl | ⟨-, ⟨_, _, rfl⟩⟩ <;> rfl

namespace Yaml.Value

mutual

theorem same_trans : ∀ {a b c : Value}, a.same b = true → b.same c = true → a.same c = true
  | .null, b, c, h, hNext => by
    rw [same_null_iff] at h
    rwa [h] at hNext
  | .bool x, b, c, h, hNext => by
    cases b <;> simp [same] at h
    rwa [h]
  | .int i, b, c, h, hNext => by
    cases b <;> simp [same] at h
    rwa [h]
  | .float x, b, c, h, hNext => by
    cases b <;> simp [same] at h
    cases c <;> simp [same] at hNext ⊢
    exact Number.sameValue_trans h hNext
  | .str s, b, c, h, hNext => by
    rw [same_str_iff] at h
    rwa [h] at hNext
  | .seq items, b, c, h, hNext => by
    cases b <;> simp [same] at h
    cases c <;> simp [same] at hNext ⊢
    exact sameItems_trans h hNext
  | .map entries, b, c, h, hNext => by
    cases b <;> simp [same] at h
    cases c <;> simp [same] at hNext ⊢
    exact ⟨h.1.trans hNext.1, sameEntries_trans h.2 hNext.2⟩
  | .tagged tag inner, b, c, h, hNext => by
    obtain ⟨other, rfl, hInner⟩ := same_tagged_iff.mp h
    obtain ⟨third, rfl, hOther⟩ := same_tagged_iff.mp hNext
    exact same_tagged_iff.mpr ⟨third, rfl, same_trans hInner hOther⟩

theorem sameItems_trans : ∀ {as bs cs : List Value}, sameItems as bs = true →
    sameItems bs cs = true → sameItems as cs = true
  | [], bs, cs, h, hNext => by
    cases bs <;> simp [sameItems] at h
    exact hNext
  | a :: as, bs, cs, h, hNext => by
    cases bs <;> simp [sameItems] at h
    cases cs <;> simp [sameItems] at hNext ⊢
    exact ⟨same_trans h.1 hNext.1, sameItems_trans h.2 hNext.2⟩

theorem sameEntries_trans : ∀ {as bs cs : List (Value × Value)}, sameEntries as bs = true →
    sameEntries bs cs = true → sameEntries as cs = true
  | [], bs, cs, h, hNext => rfl
  | (key, value) :: rest, bs, cs, h, hNext => by
    simp only [sameEntries, Bool.and_eq_true, List.any_eq_true] at h ⊢
    obtain ⟨⟨other, hOther, hKey, hValue⟩, hRest⟩ := h
    obtain ⟨third, hThird, hOtherKey, hOtherValue⟩ := sameEntries_iff.mp hNext other hOther
    exact ⟨⟨third, hThird, same_trans hKey hOtherKey, same_trans hValue hOtherValue⟩,
      sameEntries_trans hRest hNext⟩

end

mutual

theorem same_refl : ∀ a : Value, a.same a = true
  | .null => rfl
  | .bool _ => by simp [same]
  | .int _ => by simp [same]
  | .float x => Number.sameValue_refl x
  | .str _ => by simp [same]
  | .seq items => sameItems_refl items
  | .map entries => same_map_iff.mpr ⟨entries, rfl, rfl, fun entry hEntry =>
      ⟨entry, hEntry, sameEntries_refl entries entry hEntry⟩⟩
  | .tagged _ a => by simp [same, same_refl a]

theorem sameItems_refl : ∀ items : List Value, sameItems items items = true
  | [] => rfl
  | item :: rest => by rw [sameItems, same_refl item, sameItems_refl rest]; rfl

theorem sameEntries_refl : ∀ entries : List (Value × Value), ∀ entry ∈ entries,
    entry.1.same entry.1 = true ∧ entry.2.same entry.2 = true
  | [], _, h => nomatch h
  | (key, value) :: rest, entry, h => by
    rcases List.mem_cons.mp h with rfl | hRest
    · exact ⟨same_refl key, same_refl value⟩
    · exact sameEntries_refl rest entry hRest

end

/-- A value with a text is the same as itself only. -/
theorem eq_of_same_of_text {a b : Value} {name : String} (hText : a.text? = some name)
    (h : a.same b = true) : a = b := by
  induction a using untagged.induct generalizing b with
  | case1 tag value ih =>
    obtain ⟨inner, rfl, hInner⟩ := same_tagged_iff.mp h
    rw [text?_eq_some_iff, untagged, ← text?_eq_some_iff] at hText
    rw [ih hText hInner]
  | case2 value hValue =>
    rw [text?_eq_some_iff, untagged.eq_2 value hValue] at hText
    subst hText
    exact (same_str_iff.mp h).symm

theorem same_iff_eq_of_text {a b : Value} {name : String} (hText : b.text? = some name) :
    a.same b = true ↔ a = b := by
  constructor
  · exact fun h => eq_of_same_of_text ((text?_eq_iff_of_same h).mpr hText) h
  · rintro rfl
    induction a using untagged.induct with
    | case1 tag value ih =>
      rw [text?_eq_some_iff, untagged, ← text?_eq_some_iff] at hText
      exact same_tagged_iff.mpr ⟨value, rfl, ih hText⟩
    | case2 value hValue =>
      rw [text?_eq_some_iff, untagged.eq_2 value hValue] at hText
      subst hText
      exact same_str_iff.mpr rfl

end Yaml.Value

end EntityGen
