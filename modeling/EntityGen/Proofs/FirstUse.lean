import EntityGen.TypeScript.Model
import Mathlib.Data.List.Basic
import Mathlib.Data.List.Induction

/-! Lists without repetition, in the order of first use. The lines that import related classes are
such a list. -/

namespace EntityGen

variable {α β : Type} [BEq α] [LawfulBEq α] [BEq β] [LawfulBEq β]

omit [LawfulBEq α] in
theorem eraseDups_sublist : ∀ items : List α, items.eraseDups.Sublist items
  | [] => .slnil
  | first :: rest => by
    rw [List.eraseDups_cons]
    exact ((eraseDups_sublist _).trans List.filter_sublist).cons_cons first
termination_by items => items.length
decreasing_by exact Nat.lt_succ_of_le (List.length_filter_le _ rest)

theorem eraseDups_nodup : ∀ items : List α, items.eraseDups.Nodup
  | [] => .nil
  | first :: rest => by
    rw [List.eraseDups_cons, List.nodup_cons]
    refine ⟨fun hMem => ?_, eraseDups_nodup _⟩
    simpa using List.of_mem_filter (List.mem_eraseDups.mp hMem)
termination_by items => items.length
decreasing_by exact Nat.lt_succ_of_le (List.length_filter_le _ rest)

/-- What comes last is left out if it came before. -/
theorem eraseDups_concat (items : List α) (last : α) :
    (items ++ [last]).eraseDups =
      if items.contains last then items.eraseDups else items.eraseDups ++ [last] := by
  have hLast : [last].removeAll items = if items.contains last then [] else [last] := by
    by_cases h : items.contains last <;> simp_all [List.removeAll]
  rw [List.eraseDups_append, hLast]
  split
  · exact List.append_nil _
  · rfl

/-- Items that are told apart by what they are written as are written in their order. -/
theorem eraseDups_map {f : α → β} : ∀ {items : List α},
    (∀ first ∈ items, ∀ second ∈ items, f first = f second → first = second) →
      (items.map f).eraseDups = items.eraseDups.map f
  | [], _ => rfl
  | first :: rest, hInj => by
    have hOthers : (rest.map f).filter (fun b => !b == f first) =
        (rest.filter fun a => !a == first).map f := by
      rw [List.filter_map]
      refine congrArg (List.map f) (List.filter_congr fun a hMem => ?_)
      have hSame : f a = f first ↔ a = first :=
        ⟨hInj a (List.mem_cons_of_mem _ hMem) first List.mem_cons_self, congrArg f⟩
      rw [Function.comp_apply, Bool.eq_iff_iff]
      simp [hSame]
    rw [List.map_cons, List.eraseDups_cons, List.eraseDups_cons, List.map_cons, hOthers,
      eraseDups_map fun a ha b hb => hInj a (List.mem_cons_of_mem _ (List.mem_of_mem_filter ha)) b
        (List.mem_cons_of_mem _ (List.mem_of_mem_filter hb))]
termination_by items => items.length
decreasing_by exact Nat.lt_succ_of_le (List.length_filter_le _ rest)

namespace TypeScript

theorem foldl_addNew (lines : List String) : lines.foldl addNew [] = lines.eraseDups := by
  induction lines using List.reverseRecOn with
  | nil => rfl
  | append_singleton lines line ih =>
    rw [List.foldl_append, ih, eraseDups_concat]
    simp only [List.foldl_cons, List.foldl_nil, addNew, List.contains_iff_mem, List.mem_eraseDups]

/-- The imports of related classes are those of the targets that are not the owner, each line once,
in the order of first use. -/
theorem relationImports_eq (owner : ModelNames) (suffix file : String) (relations : List Relation) :
    relationImports owner suffix file relations =
      ((relations.filter (·.target.canonical != owner.canonical)).map fun relation =>
        relationImport suffix file relation.target).eraseDups := by
  rw [← foldl_addNew, List.foldl_map, relationImports]

end TypeScript

end EntityGen
