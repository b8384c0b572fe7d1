import EntityGen.Proofs.Files.Anchored

/-! Writing a file again. Where a path leads to a file, the path around it leads to a directory, so
that nothing is created and the write does not fail; afterwards the path leads to the new content. -/

namespace EntityGen.Files.FileTree

variable {tree : FileTree} {links : Nat} {here place : Location} {names rest : List String}
  {path : Path} {content : ByteArray}

/-- What a walk to a node comes to before the last names is a directory. -/
theorem Walks.directory_before (hProper : tree.Proper) (hNested : tree.Nested)
    (hHere : tree.node? here = some .directory)
    (h : Walks tree true links here (names ++ rest) (.taken place)) (hRest : rest ≠ []) :
    ∃ directory, Walks tree true links here names (.taken directory) ∧
      tree.node? directory = some .directory := by
  generalize hAll : names ++ rest = all at h
  generalize hPlace : Place.taken place = found at h
  induction h generalizing names with
  | here =>
    obtain ⟨-, hNil⟩ := List.append_eq_nil_iff.mp hAll
    exact absurd hNil hRest
  | point _ ih =>
    rcases names with _ | ⟨first, names⟩
    · exact ⟨_, .here, hHere⟩
    · obtain ⟨rfl, hOnward⟩ := List.cons.inj hAll
      obtain ⟨directory, hWalk, hNode⟩ := ih hHere hOnward hPlace
      exact ⟨directory, .point hWalk, hNode⟩
  | @back _ here _ _ _ ih =>
    rcases names with _ | ⟨first, names⟩
    · exact ⟨_, .here, hHere⟩
    · obtain ⟨rfl, hOnward⟩ := List.cons.inj hAll
      have hBack : tree.node? here.dropLast = some .directory := by
        rcases List.eq_nil_or_concat here with rfl | ⟨start, last, rfl⟩
        · exact hHere
        · rw [List.concat_eq_append] at hHere ⊢
          rw [List.dropLast_concat]
          exact hProper.node?_around hNested hHere
      obtain ⟨directory, hWalk, hNode⟩ := ih hBack hOnward hPlace
      exact ⟨directory, .back hWalk, hNode⟩
  | directory step node _ ih =>
    rcases names with _ | ⟨first, names⟩
    · exact ⟨_, .here, hHere⟩
    · obtain ⟨rfl, hOnward⟩ := List.cons.inj hAll
      obtain ⟨directory, hWalk, hNode⟩ := ih node hOnward hPlace
      exact ⟨directory, .directory step node hWalk, hNode⟩
  | file =>
    rcases names with _ | ⟨first, names⟩
    · exact ⟨_, .here, hHere⟩
    · obtain ⟨-, hNil⟩ := List.append_eq_nil_iff.mp (List.cons.inj hAll).2
      exact absurd hNil hRest
  | vacant => cases hPlace
  | linkEnd _ _ unfollowed => cases unfollowed
  | @link _ here _ target _ _ step node followed _ ih =>
    rcases names with _ | ⟨first, names⟩
    · exact ⟨_, .here, hHere⟩
    · obtain ⟨rfl, hOnward⟩ := List.cons.inj hAll
      have hStart : tree.node? (startOf here target) = some .directory := by
        rw [startOf]
        split
        · rfl
        · exact hHere
      obtain ⟨directory, hWalk, hNode⟩ := @ih (Path.components target ++ names) hStart
        (by rw [List.append_assoc, ← hOnward]; rfl) hPlace
      exact ⟨directory, .link step node (.inl rfl) hWalk, hNode⟩

/-- A tree in which relative paths start at a directory, as in every file system. -/
structure Grounded (tree : FileTree) : Prop where
  proper : tree.Proper
  nested : tree.Nested
  start : tree.node? tree.workingDir = some .directory

namespace Grounded

variable (h : tree.Grounded)
include h

theorem startOf_directory (path : Path) :
    tree.node? (startOf tree.workingDir path) = some .directory := by
  rw [startOf]
  split
  · rfl
  · exact h.start

variable (hPlace : tree.locate path = .ok (.taken place))
  (hNode : tree.node? place = some (.file content))
include hPlace hNode

/-- After a slash at its end a path leads to a directory at most. -/
theorem endsWithSlash_of_file : path.endsWithSlash = false := by
  by_contra hSlash
  obtain ⟨hFault, hWalk⟩ := locate_eq_ok_iff.mp hPlace
  rw [if_pos (by simpa using hSlash)] at hWalk
  obtain ⟨directory, hBefore, hDirectory⟩ :=
    hWalk.directory_before h.proper h.nested (h.startOf_directory path) (List.cons_ne_nil _ _)
  have hLeads : tree.Leads path directory := .of_walks hFault hBefore hDirectory
  obtain rfl : directory = place := by simpa [hPlace] using hLeads.locate.symm
  rw [hNode] at hDirectory
  cases hDirectory

omit hNode in
/-- The path around a path that leads to something leads to a directory. -/
theorem leads_around {around : Path} (hAround : path.parent? = some around) (hEmpty : around ≠ "") :
    ∃ directory, tree.Leads around directory := by
  obtain ⟨hFault, hWalk⟩ := locate_eq_ok_iff.mp hPlace
  obtain ⟨rest, hRest, hSome⟩ := Path.components_of_parent? hAround hEmpty
  obtain ⟨more, rfl⟩ := Path.eq_append_of_parent? hAround hEmpty
  have hStart := (Path.around_of_parent? hAround hEmpty).start
  rw [hRest, List.append_assoc] at hWalk
  obtain ⟨directory, hBefore, hDirectory⟩ :=
    hWalk.directory_before h.proper h.nested (h.startOf_directory _) (by simp [hSome])
  rw [startOf, ← hStart] at hBefore
  exact ⟨directory, .of_walks (Path.pathFault?_of_append hEmpty hFault) hBefore hDirectory⟩

omit hPlace hNode in
/-- A file that can be read can be written. -/
theorem write_of_read (hRead : tree.read path = .ok content) (written : ByteArray) :
    ∃ after, tree.write path written = .ok after := by
  obtain ⟨place, hPlace, hNode⟩ := read_eq_ok_iff.mp hRead
  refine ⟨tree.put place (.file written), ?_⟩
  rw [write, h.endsWithSlash_of_file hPlace hNode, if_neg (by simp), hPlace]
  simp only [hNode]

end Grounded

end EntityGen.Files.FileTree
