import EntityGen.Files.Walk
import Mathlib.Data.List.Nodup

/-! File trees by location: what is found at each location after a node was put or removed, and the
trees that a file system can hold. -/

namespace EntityGen.Files

/-- A look-up among the entries with allowed keys. -/
theorem lookup_filter {α β : Type} [BEq α] [LawfulBEq α] (allowed : α → Bool) (key : α)
    (entries : List (α × β)) :
    (entries.filter fun entry => allowed entry.1).lookup key =
      if allowed key then entries.lookup key else none := by
  induction entries with
  | nil => simp
  | cons entry rest ih =>
    obtain ⟨k, value⟩ := entry
    rw [List.filter_cons, List.lookup_cons]
    by_cases hKey : key = k
    · subst hKey
      by_cases hAllowed : allowed key
      · simp [hAllowed]
      · simpa [hAllowed] using ih
    · have hBEq : (key == k) = false := beq_eq_false_iff_ne.mpr hKey
      by_cases hAllowed : allowed k
      · simpa [hAllowed, List.lookup_cons, hBEq] using ih
      · simpa [hAllowed, hBEq] using ih

/-- A text that can name a node: not empty, without slashes, of a size that fits, and different from
the points that lead nowhere or back. -/
structure IsName (name : String) : Prop where
  notEmpty : name ≠ ""
  noSlash : '/' ∉ name.toList
  notHere : name ≠ "."
  notBack : name ≠ ".."
  fits : name.utf8ByteSize ≤ maxNameSize

instance (name : String) : Decidable (IsName name) :=
  decidable_of_iff (name ≠ "" ∧ '/' ∉ name.toList ∧ name ≠ "." ∧ name ≠ ".." ∧
      name.utf8ByteSize ≤ maxNameSize)
    ⟨fun ⟨hEmpty, hSlash, hHere, hBack, hFits⟩ => ⟨hEmpty, hSlash, hHere, hBack, hFits⟩,
      fun h => ⟨h.notEmpty, h.noSlash, h.notHere, h.notBack, h.fits⟩⟩

namespace FileTree

variable {tree : FileTree} {location other : Location} {node : Node}

@[simp] theorem node?_root (tree : FileTree) : tree.node? [] = some .directory := rfl

theorem node?_of_ne (h : location ≠ []) : tree.node? location = tree.entries.lookup location := by
  simp [node?, h]

theorem node?_put_self (h : location ≠ []) :
    (tree.put location node).node? location = some node := by
  simp [node?_of_ne h, put]

theorem node?_put_ne (h : other ≠ location) :
    (tree.put location node).node? other = tree.node? other := by
  by_cases hRoot : other = []
  · simp [hRoot]
  · have hBEq : (other == location) = false := beq_eq_false_iff_ne.mpr h
    simp only [node?_of_ne hRoot, put, List.lookup_cons, hBEq]
    rw [lookup_filter (fun key => key != location)]
    simp [h]

/-- Putting a node changes what is found at its location, and nothing else. -/
theorem node?_put (h : location ≠ []) (other : Location) :
    (tree.put location node).node? other =
      if other = location then some node else tree.node? other := by
  split
  · subst other
    exact node?_put_self h
  · exact node?_put_ne ‹_›

/-- A tree without the nodes at some locations. -/
def without (tree : FileTree) (lost : Location → Bool) : FileTree :=
  { tree with entries := tree.entries.filter fun entry => !lost entry.1 }

theorem remove_eq_without (tree : FileTree) (location : Location) :
    tree.remove location = tree.without fun other => other == location := rfl

theorem removeAll_eq_without (tree : FileTree) (location : Location) :
    tree.removeAll location = tree.without fun other => location.isPrefixOf other := rfl

theorem without_none (tree : FileTree) : tree.without (fun _ => false) = tree := by
  simp [without]

theorem without_without (tree : FileTree) (first second : Location → Bool) :
    (tree.without first).without second = tree.without fun location =>
      first location || second location := by
  simp only [without, List.filter_filter, Bool.not_or]
  congr 2
  funext entry
  exact Bool.and_comm _ _

/-- The root is never lost, and what is left is as it was. -/
theorem node?_without {lost : Location → Bool} (hRoot : lost [] = false) (location : Location) :
    (tree.without lost).node? location = if lost location then none else tree.node? location := by
  by_cases hEmpty : location = []
  · simp [hEmpty, hRoot]
  · rw [node?_of_ne hEmpty, node?_of_ne hEmpty, without,
      lookup_filter (fun location => !lost location)]
    by_cases hLost : lost location <;> simp [hLost]

/-- A tree as a file system holds it: no location is taken twice, and locations consist of names, as
does the one from which relative paths start. -/
structure Proper (tree : FileTree) : Prop where
  nodup : (tree.entries.map (·.1)).Nodup
  names : ∀ entry ∈ tree.entries, entry.1 ≠ [] ∧ ∀ name ∈ entry.1, IsName name
  start : ∀ name ∈ tree.workingDir, IsName name

instance (tree : FileTree) : Decidable tree.Proper :=
  decidable_of_iff ((tree.entries.map (·.1)).Nodup ∧
      (∀ entry ∈ tree.entries, entry.1 ≠ [] ∧ ∀ name ∈ entry.1, IsName name) ∧
      ∀ name ∈ tree.workingDir, IsName name)
    ⟨fun ⟨hNodup, hNames, hStart⟩ => ⟨hNodup, hNames, hStart⟩,
      fun h => ⟨h.nodup, h.names, h.start⟩⟩

/-- What is in a tree is in a directory, as in every file system. -/
def Nested (tree : FileTree) : Prop :=
  ∀ entry ∈ tree.entries, (tree.node? entry.1.dropLast).any Node.isDirectory = true

instance (tree : FileTree) : Decidable tree.Nested :=
  inferInstanceAs (Decidable (∀ entry ∈ tree.entries, _ = true))

namespace Proper

theorem node?_eq_some_iff (h : tree.Proper) (hRoot : location ≠ []) :
    tree.node? location = some node ↔ (location, node) ∈ tree.entries := by
  rw [node?_of_ne hRoot]
  constructor
  · intro hLookup
    obtain ⟨before, after, hSplit, -⟩ := List.lookup_eq_some_iff.mp hLookup
    rw [hSplit]
    exact List.mem_append_right _ List.mem_cons_self
  · intro hMem
    obtain ⟨before, after, hSplit⟩ := List.append_of_mem hMem
    refine List.lookup_eq_some_iff.mpr ⟨before, after, hSplit, fun entry hEntry => ?_⟩
    have hNodup := h.nodup
    rw [hSplit, List.map_append, List.map_cons, List.nodup_append] at hNodup
    simpa [beq_eq_false_iff_ne] using Ne.symm
      (hNodup.2.2 entry.1 (List.mem_map_of_mem hEntry) location List.mem_cons_self)

theorem names_of_node? (h : tree.Proper) (hNode : tree.node? location = some node) :
    ∀ name ∈ location, IsName name := by
  by_cases hRoot : location = []
  · simp [hRoot]
  · exact (h.names _ ((h.node?_eq_some_iff hRoot).mp hNode)).2

/-- The children of a directory are the nodes one name below it. -/
theorem mem_children (h : tree.Proper) {directory : Location} {name : String} :
    (name, node) ∈ tree.children directory ↔ tree.node? (directory ++ [name]) = some node := by
  rw [h.node?_eq_some_iff (by simp), children, List.mem_filterMap]
  constructor
  · rintro ⟨⟨location, found⟩, hMem, hChild⟩
    simp only [childName?, Option.map_eq_some_iff, Prod.mk.injEq] at hChild
    obtain ⟨child, hChild, rfl, rfl⟩ := hChild
    rcases hLast : location.getLast? with _ | last
    · simp [hLast] at hChild
    · simp only [hLast, Option.ite_none_right_eq_some, beq_iff_eq, Option.some.injEq] at hChild
      obtain ⟨hDir, rfl⟩ := hChild
      obtain ⟨start, rfl⟩ := List.getLast?_eq_some_iff.mp hLast
      rw [List.dropLast_concat] at hDir
      exact hDir ▸ hMem
  · intro hMem
    exact ⟨_, hMem, by simp [childName?]⟩

theorem node?_around (h : tree.Proper) (hNested : tree.Nested) {name : String}
    (hNode : tree.node? (location ++ [name]) = some node) :
    tree.node? location = some .directory := by
  have hAround := hNested _ ((h.node?_eq_some_iff (by simp)).mp hNode)
  rw [List.dropLast_concat] at hAround
  rcases hFound : tree.node? location with _ | _ | content | target <;>
    simp [hFound, Node.isDirectory] at hAround
  rfl

theorem put (h : tree.Proper) (hRoot : location ≠ []) (hNames : ∀ name ∈ location, IsName name) :
    (tree.put location node).Proper where
  nodup := by
    simp only [FileTree.put, List.map_cons, List.nodup_cons, List.mem_map, List.mem_filter,
      bne_iff_ne, not_exists, not_and]
    exact ⟨fun entry hEntry => hEntry.2, h.nodup.sublist (List.filter_sublist.map _)⟩
  names := by
    intro entry hEntry
    simp only [FileTree.put, List.mem_cons, List.mem_filter] at hEntry
    rcases hEntry with rfl | ⟨hEntry, -⟩
    · exact ⟨hRoot, hNames⟩
    · exact h.names entry hEntry
  start := h.start

theorem without (h : tree.Proper) (lost : Location → Bool) : (tree.without lost).Proper where
  nodup := h.nodup.sublist (List.filter_sublist.map _)
  names := fun entry hEntry => h.names entry (List.mem_of_mem_filter hEntry)
  start := h.start

end Proper

end FileTree

end EntityGen.Files
