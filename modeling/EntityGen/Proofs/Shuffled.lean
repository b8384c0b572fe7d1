import EntityGen.Proofs.Result
import Mathlib.Data.List.Flatten
import Mathlib.Data.List.Nodup

/-! Tables with the same names in another order, and what is left of the order in the texts that are
written from them row by row. -/

namespace EntityGen

variable {α β : Type}

theorem map_fst_eq {P : String × α → String × α → Prop} {rows others : List (String × α)}
    (h : List.Forall₂ (fun a b => a.1 = b.1 ∧ P a b) rows others) :
    rows.map (·.1) = others.map (·.1) := by
  induction h with
  | nil => rfl
  | cons hRow _ ih => rw [List.map_cons, List.map_cons, hRow.1, ih]

/-- Two tables have the same names, each once, and related values under each name. -/
structure Shuffled (R : α → α → Prop) (rows others : List (String × α)) : Prop where
  names : (rows.map (·.1)).Perm (others.map (·.1))
  nodup : (rows.map (·.1)).Nodup
  related : ∀ name x y, (name, x) ∈ rows → (name, y) ∈ others → R x y

namespace Shuffled

variable {R : α → α → Prop} {rows others : List (String × α)}

theorem nil : Shuffled R [] [] := ⟨.nil, .nil, fun _ _ _ h => by cases h⟩

theorem isEmpty_eq (h : Shuffled R rows others) : rows.isEmpty = others.isEmpty := by
  rw [← List.isEmpty_map (f := (·.1)), h.names.isEmpty_eq, List.isEmpty_map]

theorem tail {a b : String × α} (h : Shuffled R (a :: rows) (b :: others)) (hName : a.1 = b.1) :
    Shuffled R rows others where
  names := by
    have hNames := h.names
    rw [List.map_cons, List.map_cons, hName] at hNames
    exact hNames.cons_inv
  nodup := (List.nodup_cons.mp h.nodup).2
  related := fun name x y hx hy =>
    h.related name x y (List.mem_cons_of_mem _ hx) (List.mem_cons_of_mem _ hy)

theorem head {name : String} {x y : α} (h : Shuffled R ((name, x) :: rows) ((name, y) :: others)) :
    R x y :=
  h.related name x y List.mem_cons_self List.mem_cons_self

/-- Rows can be brought in the order of the other table. -/
theorem pairing (h : Shuffled R rows others) :
    ∃ paired, paired.Perm others ∧
      List.Forall₂ (fun a b => a.1 = b.1 ∧ R a.2 b.2) rows paired := by
  induction rows generalizing others with
  | nil =>
    have hNil : others = [] := by simpa using h.names
    exact ⟨[], by rw [hNil], .nil⟩
  | cons row rest ih =>
    obtain ⟨name, x⟩ := row
    have hMem : name ∈ others.map (·.1) := h.names.subset List.mem_cons_self
    obtain ⟨⟨name, y⟩, hOther, rfl⟩ := List.mem_map.mp hMem
    obtain ⟨before, after, rfl⟩ := List.append_of_mem hOther
    have hMiddle : (before ++ (name, y) :: after).Perm ((name, y) :: (before ++ after)) :=
      List.perm_middle
    have hRest : Shuffled R ((name, x) :: rest) ((name, y) :: (before ++ after)) :=
      ⟨h.names.trans (hMiddle.map _), h.nodup,
        fun m a b ha hb => h.related m a b ha (hMiddle.mem_iff.mpr hb)⟩
    obtain ⟨paired, hPerm, hPaired⟩ := ih (hRest.tail rfl)
    exact ⟨(name, y) :: paired, (hPerm.cons _).trans hMiddle.symm,
      .cons ⟨rfl, hRest.head⟩ hPaired⟩

/-- In the same order the tables are related row by row. -/
theorem inOrder (h : Shuffled R rows others) (hNames : rows.map (·.1) = others.map (·.1)) :
    List.Forall₂ (fun a b => a.1 = b.1 ∧ R a.2 b.2) rows others := by
  induction rows generalizing others with
  | nil =>
    obtain rfl : others = [] := List.map_eq_nil_iff.mp hNames.symm
    exact .nil
  | cons row rest ih =>
    obtain ⟨name, x⟩ := row
    obtain ⟨⟨_, y⟩, others, rfl, rfl, hRest⟩ := List.map_eq_cons_iff.mp hNames.symm
    exact .cons ⟨rfl, h.head⟩ (ih (h.tail rfl) hRest.symm)

/-- Tables with equal values under each name are equal if they have the same order. -/
theorem eq_of_names {rows others : List (String × α)} (h : Shuffled Eq rows others)
    (hNames : rows.map (·.1) = others.map (·.1)) : rows = others := by
  rw [← List.forall₂_eq_eq_eq]
  exact (h.inOrder hNames).imp fun _ _ hRow => Prod.ext hRow.1 hRow.2

theorem lookup_eq {rows others : List (String × α)} (h : Shuffled Eq rows others) (name : String) :
    rows.lookup name = others.lookup name := by
  have hMem {rows : List (String × α)} {x : α} (h : rows.lookup name = some x) :
      (name, x) ∈ rows := by
    obtain ⟨before, after, rfl, -⟩ := List.lookup_eq_some_iff.mp h
    simp
  have hNone {rows others : List (String × α)} (hNames : others.map (·.1) ⊆ rows.map (·.1))
      (h : rows.lookup name = none) : others.lookup name = none := by
    rw [List.lookup_eq_none_iff] at h ⊢
    intro row hRow
    obtain ⟨same, hSame, hName⟩ := List.mem_map.mp (hNames (List.mem_map_of_mem hRow))
    exact hName ▸ h same hSame
  cases hRow : rows.lookup name with
  | none => exact (hNone h.names.symm.subset hRow).symm
  | some x =>
    cases hOther : others.lookup name with
    | none => simp [hNone h.names.subset hOther] at hRow
    | some y => rw [h.related name x y (hMem hRow) (hMem hOther)]

section Text

variable {line : String × α → List β}

/-- What is written row by row has the same length in every order. -/
theorem length_flatMap (h : Shuffled R rows others)
    (hLength : ∀ name x y, R x y → (line (name, x)).length = (line (name, y)).length) :
    (rows.flatMap line).length = (others.flatMap line).length := by
  obtain ⟨paired, hPerm, hPaired⟩ := h.pairing
  rw [← (hPerm.flatMap_right line).length_eq]
  clear h hPerm
  induction hPaired with
  | nil => rfl
  | @cons a b _ _ hRow _ ih =>
    obtain ⟨name, x⟩ := a
    obtain ⟨_, y⟩ := b
    obtain ⟨rfl, hRelated⟩ := hRow
    rw [List.flatMap_cons, List.flatMap_cons, List.length_append, List.length_append, ih,
      hLength _ x y hRelated]

/-- If a row's name can be told from what is written, equal texts have their rows in the same
order. -/
theorem inOrder_of_flatMap_eq (h : Shuffled R rows others)
    (hName : ∀ a ∈ rows, ∀ b ∈ others, ∀ p q, line a ++ p = line b ++ q → a.1 = b.1)
    (hLength : ∀ name x y, R x y → (line (name, x)).length = (line (name, y)).length)
    (hText : rows.flatMap line = others.flatMap line) :
    List.Forall₂ (fun a b => a.1 = b.1 ∧ line a = line b) rows others := by
  induction rows generalizing others with
  | nil =>
    have hNil : others = [] := by simpa using h.names
    rw [hNil]
    exact .nil
  | cons a rest ih =>
    cases others with
    | nil => simpa using h.names
    | cons b others =>
      rw [List.flatMap_cons, List.flatMap_cons] at hText
      have hSame := hName a List.mem_cons_self b List.mem_cons_self _ _ hText
      obtain ⟨name, x⟩ := a
      obtain ⟨_, y⟩ := b
      obtain rfl : name = _ := hSame
      obtain ⟨hLine, hRest⟩ := List.append_inj hText (hLength _ _ _ h.head)
      refine .cons ⟨rfl, hLine⟩ (ih (h.tail rfl) (fun a ha b hb => ?_) hRest)
      exact hName a (List.mem_cons_of_mem _ ha) b (List.mem_cons_of_mem _ hb)

theorem flatMap_congr {rows others : List (String × α)}
    (hNames : rows.map (·.1) = others.map (·.1))
    (hLines : ∀ name x y, (name, x) ∈ rows → (name, y) ∈ others →
      line (name, x) = line (name, y)) : rows.flatMap line = others.flatMap line := by
  induction rows generalizing others with
  | nil => rw [List.map_eq_nil_iff.mp hNames.symm]
  | cons row rest ih =>
    obtain ⟨name, x⟩ := row
    obtain ⟨⟨_, y⟩, others, rfl, rfl, hRest⟩ := List.map_eq_cons_iff.mp hNames.symm
    rw [List.flatMap_cons, List.flatMap_cons, ih hRest.symm fun name x y hx hy =>
      hLines name x y (List.mem_cons_of_mem _ hx) (List.mem_cons_of_mem _ hy),
      hLines _ x y List.mem_cons_self List.mem_cons_self]

/-- If a row's name can be told from what is written, two tables are written alike if and only if
they have the same order and their rows are written alike. -/
theorem flatMap_eq_iff (h : Shuffled R rows others)
    (hName : ∀ a ∈ rows, ∀ b ∈ others, ∀ p q, line a ++ p = line b ++ q → a.1 = b.1)
    (hLength : ∀ name x y, R x y → (line (name, x)).length = (line (name, y)).length) :
    rows.flatMap line = others.flatMap line ↔
      rows.map (·.1) = others.map (·.1) ∧
        ∀ name x y, (name, x) ∈ rows → (name, y) ∈ others → line (name, x) = line (name, y) := by
  constructor
  · intro hText
    have hRows := h.inOrder_of_flatMap_eq hName hLength hText
    refine ⟨map_fst_eq hRows, fun name x y hx hy => ?_⟩
    obtain ⟨⟨_, z⟩, hz, rfl, hLine⟩ := Result.exists_right hRows hx
    have hNodup := h.names.nodup_iff.mp h.nodup
    rw [hLine, List.inj_on_of_nodup_map hNodup hy hz rfl]
  · exact fun h => flatMap_congr h.1 h.2

end Text

end Shuffled

end EntityGen
