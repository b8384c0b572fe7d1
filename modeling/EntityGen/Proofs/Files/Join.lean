import EntityGen.Proofs.Files.Operation

/-! Names joined to a path that leads to a directory: they are found in that directory. -/

namespace EntityGen.Files.FileTree

variable {tree inner outer : FileTree} {follow : Bool} {links : Nat} {here directory : Location}
  {names rest : List String} {name : String} {place : Place} {path : Path}

/-- A walk that goes on after names that lead to a directory goes on from there. -/
theorem Walks.append (hWalk : Walks tree true links here names (.taken directory))
    (hDirectory : tree.node? directory = some .directory) (hRest : rest ≠ []) :
    ∃ left, tree.walk follow links here (names ++ rest) = tree.walk follow left directory rest := by
  generalize hPlace : Place.taken directory = place at hWalk
  induction hWalk with
  | @here links here =>
    obtain rfl := Place.taken.inj hPlace
    exact ⟨links, rfl⟩
  | point _ ih =>
    rw [List.cons_append, walk_point]
    exact ih hPlace
  | back _ ih =>
    rw [List.cons_append, walk_back]
    exact ih hPlace
  | directory step node _ ih =>
    rw [List.cons_append, walk_directory step node]
    exact ih hPlace
  | file step node =>
    obtain rfl := Place.taken.inj hPlace
    simp [hDirectory] at node
  | vacant => cases hPlace
  | linkEnd step node unfollowed => cases unfollowed
  | link step node followed _ ih =>
    rw [List.cons_append, walk_link step node (.inr (by simp [hRest])), ← List.append_assoc]
    exact ih hPlace

/-- A point at the end of a walk changes nothing. -/
theorem Walks.of_point_end (hWalk : Walks tree true links here (names ++ ["."]) place) :
    Walks tree true links here names place := by
  generalize hAll : names ++ ["."] = all at hWalk
  induction hWalk generalizing names with
  | here => simp at hAll
  | point onward ih =>
    rcases names with _ | ⟨name, rest⟩
    · obtain ⟨-, rfl⟩ := List.cons.inj hAll
      exact onward
    · obtain ⟨rfl, hRest⟩ := List.cons.inj hAll
      exact .point (ih hRest)
  | back _ ih =>
    rcases names with _ | ⟨name, rest⟩
    · simp at hAll
    · obtain ⟨rfl, hRest⟩ := List.cons.inj hAll
      exact .back (ih hRest)
  | directory step node _ ih =>
    rcases names with _ | ⟨name, rest⟩
    · exact absurd (List.cons.inj hAll).1.symm step.notHere
    · obtain ⟨rfl, hRest⟩ := List.cons.inj hAll
      exact .directory step node (ih hRest)
  | file step node =>
    rcases names with _ | ⟨name, rest⟩
    · exact absurd (List.cons.inj hAll).1.symm step.notHere
    · simp at hAll
  | vacant step node =>
    rcases names with _ | ⟨name, rest⟩
    · exact absurd (List.cons.inj hAll).1.symm step.notHere
    · simp at hAll
  | linkEnd _ _ unfollowed => cases unfollowed
  | link step node _ _ ih =>
    rcases names with _ | ⟨name, rest⟩
    · exact absurd (List.cons.inj hAll).1.symm step.notHere
    · obtain ⟨rfl, rfl⟩ := List.cons.inj hAll
      exact .link step node (.inl rfl) (ih (List.append_assoc _ _ _))

/-- A walk along more names has been where the first of them lead. -/
theorem Walks.before (hWalk : Walks tree true links here (names ++ rest) place) (hRest : rest ≠ []) :
    ∃ directory left, Walks tree true links here (names ++ ["."]) (.taken directory) ∧
      Walks tree true left directory rest place := by
  generalize hAll : names ++ rest = all at hWalk
  induction hWalk generalizing names with
  | here => simp [hRest] at hAll
  | @point links here _ _ onward ih =>
    rcases names with _ | ⟨name, names⟩
    · obtain rfl : rest = _ := hAll
      exact ⟨here, links, .point .here, .point onward⟩
    · obtain ⟨rfl, hNames⟩ := List.cons.inj hAll
      obtain ⟨directory, left, hBefore, hAfter⟩ := ih hNames
      exact ⟨directory, left, .point hBefore, hAfter⟩
  | @back links here _ _ onward ih =>
    rcases names with _ | ⟨name, names⟩
    · obtain rfl : rest = _ := hAll
      exact ⟨here, links, .point .here, .back onward⟩
    · obtain ⟨rfl, hNames⟩ := List.cons.inj hAll
      obtain ⟨directory, left, hBefore, hAfter⟩ := ih hNames
      exact ⟨directory, left, .back hBefore, hAfter⟩
  | @directory links here _ _ _ step node onward ih =>
    rcases names with _ | ⟨name, names⟩
    · obtain rfl : rest = _ := hAll
      exact ⟨here, links, .point .here, .directory step node onward⟩
    · obtain ⟨rfl, hNames⟩ := List.cons.inj hAll
      obtain ⟨directory, left, hBefore, hAfter⟩ := ih hNames
      exact ⟨directory, left, .directory step node hBefore, hAfter⟩
  | @file links here _ _ step node =>
    rcases names with _ | ⟨name, names⟩
    · obtain rfl : rest = _ := hAll
      exact ⟨here, links, .point .here, .file step node⟩
    · simp [hRest] at hAll
  | @vacant links here _ step node =>
    rcases names with _ | ⟨name, names⟩
    · obtain rfl : rest = _ := hAll
      exact ⟨here, links, .point .here, .vacant step node⟩
    · simp [hRest] at hAll
  | linkEnd _ _ unfollowed => cases unfollowed
  | @link links here _ _ _ _ step node followed onward ih =>
    rcases names with _ | ⟨name, names⟩
    · obtain rfl : rest = _ := hAll
      exact ⟨here, links + 1, .point .here, .link step node followed onward⟩
    · obtain ⟨rfl, rfl⟩ := List.cons.inj hAll
      obtain ⟨directory, left, hBefore, hAfter⟩ := ih (List.append_assoc _ _ _)
      rw [List.append_assoc] at hBefore
      exact ⟨directory, left, .link step node (.inl rfl) hBefore, hAfter⟩

/-- A walk that meets no link and no point goes straight down. -/
theorem Walks.straight (hWalk : Walks tree follow links here names place)
    (hNames : ∀ name ∈ names, name ≠ "." ∧ name ≠ "..")
    (hLinks : ∀ below target, below ≠ [] → tree.node? (here ++ below) ≠ some (.link target)) :
    place.location = here ++ names := by
  induction hWalk with
  | here => simp [Place.location]
  | point => exact absurd rfl (hNames _ List.mem_cons_self).1
  | back => exact absurd rfl (hNames _ List.mem_cons_self).2
  | directory _ _ _ ih =>
    rw [ih (fun name hName => hNames name (List.mem_cons_of_mem _ hName)) ?_]
    · simp
    · intro below target hBelow
      rw [List.append_assoc]
      exact hLinks _ target (by simp)
  | file => rfl
  | vacant => rfl
  | linkEnd => rfl
  | link _ node => exact absurd node (hLinks _ _ (by simp))

/-- A path leads to a directory. -/
structure Leads (tree : FileTree) (path : Path) (directory : Location) : Prop where
  locate : tree.locate path = .ok (.taken directory)
  directory : tree.node? directory = some .directory

namespace Leads

theorem walks (h : tree.Leads path directory) :
    Walks tree true maxLinks (startOf tree.workingDir path) path.components (.taken directory) := by
  have hWalk := (locate_eq_ok_iff.mp h.locate).2
  split at hWalk
  · exact hWalk.of_point_end
  · rwa [List.append_nil] at hWalk

theorem notEmpty (h : tree.Leads path directory) : path ≠ "" :=
  (Path.pathFault?_eq_none_iff.mp (locate_eq_ok_iff.mp h.locate).1).2.1

theorem unique (h : tree.Leads path directory) {other : Location} (hOther : tree.Leads path other) :
    directory = other := by
  simpa [h.locate] using hOther.locate

theorem within (h : inner.Leads path directory) (hWithin : inner.Within outer) :
    outer.Leads path directory :=
  ⟨hWithin.locate h.locate, hWithin.directory h.directory⟩

/-- Names joined to a path that leads to a directory are looked for in that directory. -/
theorem walk_join (h : tree.Leads path directory) (follow : Bool) (hSlash : '/' ∉ name.toList)
    (hEmpty : name ≠ "") :
    ∃ left, tree.walk follow maxLinks (startOf tree.workingDir (Path.join path name))
        (Path.join path name).components = tree.walk follow left directory [name] := by
  have hRelative := Path.isAbsolute_of_noSlash hSlash
  rw [startOf, Path.isAbsolute_join hRelative, Path.components_join hRelative,
    Path.components_of_noSlash hSlash hEmpty]
  exact h.walks.append h.directory (by simp)

/-- A text without slashes that is no point names something, if a walk along it leads anywhere from
where the path that it is joined to leads. -/
theorem isName_of_walk (h : tree.Leads path directory) (hSlash : '/' ∉ name.toList)
    (hEmpty : name ≠ "") (hHere : name ≠ ".") (hBack : name ≠ "..")
    (hPlace : tree.walk follow maxLinks (startOf tree.workingDir (Path.join path name))
      (Path.join path name).components = .ok place) : IsName name := by
  obtain ⟨left, hWalk⟩ := h.walk_join follow hSlash hEmpty
  rw [hWalk] at hPlace
  obtain ⟨-, -, hFits⟩ := (Walks.of_walk_eq hPlace).isStep hHere hBack
  exact ⟨hEmpty, hSlash, hHere, hBack, hFits⟩

theorem isName (h : tree.Leads path directory) (hSlash : '/' ∉ name.toList) (hEmpty : name ≠ "")
    (hHere : name ≠ ".") (hBack : name ≠ "..")
    (hPlace : tree.locateEntry (Path.join path name) = .ok place) : IsName name :=
  h.isName_of_walk hSlash hEmpty hHere hBack (locateEntry_eq_ok_iff.mp hPlace).2.walk_eq

theorem locateEntry_join (h : tree.Leads path directory) (hName : IsName name)
    (hFault : pathFault? (Path.join path name) = none) :
    tree.locateEntry (Path.join path name) =
      .ok (if (tree.node? (directory ++ [name])).isSome then .taken (directory ++ [name])
        else .vacant (directory ++ [name])) := by
  obtain ⟨left, hWalk⟩ := h.walk_join false hName.noSlash hName.notEmpty
  rw [locateEntry, locateNames, hFault]
  simp only [hWalk]
  have hStep := hName.isStep
  rcases hNode : tree.node? (directory ++ [name]) with _ | _ | content | target
  · rw [walk_vacant hStep hNode]
    rfl
  · rw [walk_directory hStep hNode, walk_nil]
    rfl
  · rw [walk_file hStep hNode]
    rfl
  · rw [walk_link_end hStep hNode]
    rfl

/-- A joined name leads to the node of that name in the directory, unless it is a link. -/
theorem locate_join (h : tree.Leads path directory) (hName : IsName name)
    (hFault : pathFault? (Path.join path name) = none)
    (hLink : ∀ target, tree.node? (directory ++ [name]) ≠ some (.link target)) :
    tree.locate (Path.join path name) =
      .ok (if (tree.node? (directory ++ [name])).isSome then .taken (directory ++ [name])
        else .vacant (directory ++ [name])) := by
  obtain ⟨left, hWalk⟩ := h.walk_join true hName.noSlash hName.notEmpty
  have hSlash : (Path.join path name).endsWithSlash = false := by
    rw [Path.endsWithSlash_join (Path.isAbsolute_of_noSlash hName.noSlash) hName.notEmpty]
    exact Path.endsWithSlash_of_noSlash hName.noSlash
  rw [FileTree.locate, locateNames, hFault, hSlash, if_neg (by simp), List.append_nil]
  simp only [hWalk]
  have hStep := hName.isStep
  rcases hNode : tree.node? (directory ++ [name]) with _ | _ | content | target
  · rw [walk_vacant hStep hNode]
    rfl
  · rw [walk_directory hStep hNode, walk_nil]
    rfl
  · rw [walk_file hStep hNode]
    rfl
  · exact absurd hNode (hLink target)

theorem join (h : tree.Leads path directory) (hName : IsName name)
    (hFault : pathFault? (Path.join path name) = none)
    (hNode : tree.node? (directory ++ [name]) = some .directory) :
    tree.Leads (Path.join path name) (directory ++ [name]) where
  locate := by
    rw [h.locate_join hName hFault (by simp [hNode]), hNode]
    rfl
  directory := hNode

end Leads

end EntityGen.Files.FileTree
