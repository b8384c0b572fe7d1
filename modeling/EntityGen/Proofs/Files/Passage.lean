import EntityGen.Proofs.Files.Join
import EntityGen.Proofs.Files.Parent

/-! The directories that a walk passes. Creating a directory with those around it adds directories
only where the path of that directory passes; and in trees with the same links, names pass the same
directories and lead to the same place, if they lead to a directory in both. -/

namespace EntityGen.Files.FileTree

variable {tree before after third : FileTree} {follow : Bool} {links left : Nat}
  {here location directory : Location} {names rest : List String} {name : String}
  {place other : Location} {path : Path}

/-- The links of two trees are the same. -/
def SameLinks (first second : FileTree) : Prop :=
  ∀ location target, first.node? location = some (.link target) ↔
    second.node? location = some (.link target)

theorem SameLinks.symm (h : before.SameLinks after) : after.SameLinks before :=
  fun location target => (h location target).symm

theorem SameLinks.trans (h : before.SameLinks after) (hNext : after.SameLinks third) :
    before.SameLinks third :=
  fun location target => (h location target).trans (hNext location target)

theorem Grows.sameLinks (h : before.Grows after) : before.SameLinks after :=
  fun _ _ => ⟨h.within.link, h.links _ _⟩

/-! ### One place -/

/-- In trees with the same links, names that lead to something in both lead to one place. -/
theorem Walks.same_place (hLinks : before.SameLinks after)
    (h : Walks before true links here names (.taken place))
    (hOther : after.walk true left here names = .ok (.taken other)) : place = other := by
  generalize hPlace : Place.taken place = found at h
  induction h generalizing left with
  | here =>
    rw [walk_nil] at hOther
    cases hPlace
    exact Place.taken.inj (Except.ok.inj hOther)
  | point _ ih => exact ih (walk_point ▸ hOther) hPlace
  | back _ ih => exact ih (walk_back ▸ hOther) hPlace
  | @directory _ here name rest _ step node _ ih =>
    rcases hNode : after.node? (here ++ [name]) with _ | _ | content | target
    · rw [walk_vacant step hNode] at hOther
      split at hOther <;> cases hOther
    · exact ih (walk_directory step hNode ▸ hOther) hPlace
    · rw [walk_file step hNode] at hOther
      rcases rest with _ | _
      · obtain rfl : here ++ [name] = other := Place.taken.inj (Except.ok.inj hOther)
        exact @ih left walk_nil hPlace
      · cases hOther
    · simp [(hLinks _ _).mpr hNode] at node
  | @file _ here name content step node =>
    cases hPlace
    rcases hNode : after.node? (here ++ [name]) with _ | _ | content | target
    · rw [walk_vacant step hNode] at hOther
      cases hOther
    · rw [walk_directory step hNode, walk_nil] at hOther
      exact Place.taken.inj (Except.ok.inj hOther)
    · rw [walk_file step hNode] at hOther
      exact Place.taken.inj (Except.ok.inj hOther)
    · simp [(hLinks _ _).mpr hNode] at node
  | vacant => cases hPlace
  | linkEnd _ _ unfollowed => cases unfollowed
  | link step node followed _ ih =>
    rcases left with _ | left
    · rw [walk, stage_step step, (hLinks _ _).mp node] at hOther
      simp at hOther
    · exact ih (walk_link step ((hLinks _ _).mp node) followed ▸ hOther) hPlace

/-- A directory of one tree is one of another tree with the same links, if a walk there goes on from
it or ends there, and comes to a directory. -/
theorem SameLinks.directory_of_walk (hLinks : before.SameLinks after) (step : IsStep name)
    (node : before.node? (here ++ [name]) = some .directory)
    (hWalk : after.walk true left here (name :: rest) = .ok (.taken place))
    (hDirectory : after.node? place = some .directory) :
    after.node? (here ++ [name]) = some .directory := by
  rcases hNode : after.node? (here ++ [name]) with _ | _ | content | target
  · rw [walk_vacant step hNode] at hWalk
    split at hWalk <;> cases hWalk
  · rfl
  · rw [walk_file step hNode] at hWalk
    split at hWalk
    · obtain rfl : here ++ [name] = place := Place.taken.inj (Except.ok.inj hWalk)
      simp [hNode] at hDirectory
    · cases hWalk
  · simp [(hLinks _ _).mpr hNode] at node

/-! ### Directories on the way -/

/-- A walk along names comes to a directory. -/
inductive Passes (tree : FileTree) : Location → List String → Location → Prop
  | point {here location : Location} {rest : List String}
      (onward : Passes tree here rest location) : Passes tree here ("." :: rest) location
  | back {here location : Location} {rest : List String}
      (onward : Passes tree here.dropLast rest location) : Passes tree here (".." :: rest) location
  | here {here : Location} {name : String} {rest : List String} (step : IsStep name)
      (node : tree.node? (here ++ [name]) = some .directory) :
      Passes tree here (name :: rest) (here ++ [name])
  | directory {here location : Location} {name : String} {rest : List String} (step : IsStep name)
      (node : tree.node? (here ++ [name]) = some .directory)
      (onward : Passes tree (here ++ [name]) rest location) :
      Passes tree here (name :: rest) location
  | link {here location : Location} {name target : String} {rest : List String} (step : IsStep name)
      (node : tree.node? (here ++ [name]) = some (.link target))
      (onward : Passes tree (startOf here target) (Path.components target ++ rest) location) :
      Passes tree here (name :: rest) location

namespace Passes

theorem isDirectory (h : Passes tree here names location) :
    tree.node? location = some .directory := by
  induction h with
  | point _ ih => exact ih
  | back _ ih => exact ih
  | here _ node => exact node
  | directory _ _ _ ih => exact ih
  | link _ _ _ ih => exact ih

/-- In trees with the same links, names that lead to a directory pass all the directories that they
pass in the other tree. -/
theorem transfer (hLinks : before.SameLinks after) (h : Passes before here names location)
    (hWalk : after.walk true left here names = .ok (.taken place))
    (hDirectory : after.node? place = some .directory) : Passes after here names location := by
  induction h generalizing left with
  | point _ ih => exact .point (ih (walk_point ▸ hWalk))
  | back _ ih => exact .back (ih (walk_back ▸ hWalk))
  | here step node => exact .here step (hLinks.directory_of_walk step node hWalk hDirectory)
  | directory step node _ ih =>
    have hNode := hLinks.directory_of_walk step node hWalk hDirectory
    exact .directory step hNode (ih (walk_directory step hNode ▸ hWalk))
  | link step node _ ih =>
    have hNode := (hLinks _ _).mp node
    rcases left with _ | left
    · rw [walk, stage_step step, hNode] at hWalk
      simp at hWalk
    · exact .link step hNode (ih (walk_link step hNode (.inl rfl) ▸ hWalk))

/-- In trees with the same links, a name at the end of names that lead to a directory adds at most
the place where it is found there. -/
theorem of_concat (hLinks : before.SameLinks after)
    (h : Passes before here (names ++ [name]) location)
    (hWalk : after.walk true left here names = .ok (.taken directory))
    (hDirectory : after.node? directory = some .directory) (hHere : name ≠ ".") (hBack : name ≠ "..")
    (hLink : ∀ target, after.node? (directory ++ [name]) ≠ some (.link target)) :
    Passes after here names location ∨ location = directory ++ [name] := by
  generalize hAll : names ++ [name] = all at h
  induction h generalizing names left with
  | point _ ih =>
    rcases names with _ | ⟨first, names⟩
    · exact absurd (List.cons.inj hAll).1 hHere
    · obtain ⟨rfl, rfl⟩ := List.cons.inj hAll
      exact (ih (walk_point ▸ hWalk) rfl).imp_left .point
  | back _ ih =>
    rcases names with _ | ⟨first, names⟩
    · exact absurd (List.cons.inj hAll).1 hBack
    · obtain ⟨rfl, rfl⟩ := List.cons.inj hAll
      exact (ih (walk_back ▸ hWalk) rfl).imp_left .back
  | here step node =>
    rcases names with _ | ⟨first, names⟩
    · obtain ⟨rfl, rfl⟩ := List.cons.inj hAll
      rw [walk_nil] at hWalk
      rw [Place.taken.inj (Except.ok.inj hWalk)]
      exact .inr rfl
    · obtain ⟨rfl, rfl⟩ := List.cons.inj hAll
      exact .inl (.here step (hLinks.directory_of_walk step node hWalk hDirectory))
  | directory step node onward ih =>
    rcases names with _ | ⟨first, names⟩
    · obtain ⟨rfl, rfl⟩ := List.cons.inj hAll
      cases onward
    · obtain ⟨rfl, rfl⟩ := List.cons.inj hAll
      have hNode := hLinks.directory_of_walk step node hWalk hDirectory
      exact (ih (walk_directory step hNode ▸ hWalk) rfl).imp_left (.directory step hNode)
  | link step node _ ih =>
    have hNode := (hLinks _ _).mp node
    rcases names with _ | ⟨first, names⟩
    · obtain ⟨rfl, rfl⟩ := List.cons.inj hAll
      rw [walk_nil] at hWalk
      obtain rfl := Place.taken.inj (Except.ok.inj hWalk)
      exact absurd hNode (hLink _)
    · obtain ⟨rfl, rfl⟩ := List.cons.inj hAll
      rcases left with _ | left
      · rw [walk, stage_step step, hNode] at hWalk
        simp at hWalk
      · have hOnward := ih (walk_link step hNode (.inl rfl) ▸ hWalk) (List.append_assoc _ _ _)
        exact hOnward.imp_left (.link step hNode)

end Passes

/-- A walk to a vacant place passes it when a directory is there. -/
theorem Walks.passes (h : Walks before follow links here names (.vacant location))
    (hWithin : before.Within after) (hNode : after.node? location = some .directory)
    (rest : List String) : Passes after here (names ++ rest) location := by
  generalize hPlace : Place.vacant location = place at h
  induction h generalizing rest with
  | here => cases hPlace
  | point _ ih => exact .point (ih rest hPlace)
  | back _ ih => exact .back (ih rest hPlace)
  | directory step node _ ih => exact .directory step (hWithin.directory node) (ih rest hPlace)
  | file => cases hPlace
  | vacant step _ =>
    cases hPlace
    exact .here step hNode
  | linkEnd => cases hPlace
  | link step node _ _ ih =>
    have hOnward := ih rest hPlace
    rw [List.append_assoc] at hOnward
    exact .link step (hWithin.link node) hOnward

/-! ### Paths -/

/-- A path passes a directory. -/
def OnWay (tree : FileTree) (path : Path) (location : Location) : Prop :=
  Passes tree (startOf tree.workingDir path) path.components location

theorem OnWay.isDirectory (h : tree.OnWay path location) : tree.node? location = some .directory :=
  Passes.isDirectory h

section SameLinks

variable (hLinks : before.SameLinks after) (hStart : after.workingDir = before.workingDir)
include hLinks hStart

/-- In trees with the same links, a path that leads to something in both leads to one place. -/
theorem locate_same_place (h : before.locate path = .ok (.taken place))
    (hOther : after.locate path = .ok (.taken other)) : place = other := by
  have hWalk := (locate_eq_ok_iff.mp hOther).2.walk_eq
  rw [hStart] at hWalk
  exact (locate_eq_ok_iff.mp h).2.same_place hLinks hWalk

theorem OnWay.transfer (h : before.OnWay path location) (hLeads : after.Leads path directory) :
    after.OnWay path location := by
  have hPasses := Passes.transfer hLinks h (hStart ▸ hLeads.walks.walk_eq) hLeads.directory
  rw [OnWay, hStart]
  exact hPasses

/-- In trees with the same links, what a path with a name at its end passes in one of them is passed
by the path in the other, if it leads to a directory there, or found in that directory. -/
theorem OnWay.of_join (h : before.OnWay (Path.join path name) location)
    (hLeads : after.Leads path directory) (hSlash : '/' ∉ name.toList) (hEmpty : name ≠ "")
    (hHere : name ≠ ".") (hBack : name ≠ "..")
    (hLink : ∀ target, after.node? (directory ++ [name]) ≠ some (.link target)) :
    after.OnWay path location ∨ location = directory ++ [name] := by
  have hRelative := Path.isAbsolute_of_noSlash hSlash
  rw [OnWay, startOf, Path.isAbsolute_join hRelative, Path.components_join hRelative,
    Path.components_of_noSlash hSlash hEmpty, ← hStart] at h
  exact h.of_concat hLinks hLeads.walks.walk_eq hLeads.directory hHere hBack hLink

end SameLinks

/-! ### Creating directories -/

/-- Directories are created where the path passes them, in every tree that has what was created. -/
theorem createDirAll_passes {final : FileTree} (hFree : tree.node? location = none)
    (hMade : (tree.createDirAll path).1.node? location = some .directory)
    (hWithin : (tree.createDirAll path).1.Within final) : final.OnWay path location := by
  let Adds (before after : FileTree) : Prop := before.Gains after ∧
    ∀ final location, after.Within final → before.node? location = none →
      after.node? location = some .directory → final.OnWay path location
  have hAll : Adds tree (tree.createDirAll path).1 := by
    refine createDirs_induction Adds path.ancestors (fun tree => ?_) (fun h hNext => ?_)
      (fun around hAround tree after hCreate => ?_) tree
    · exact ⟨.refl tree, fun final location _ hFree hMade => by simp [hFree] at hMade⟩
    · refine ⟨h.1.trans hNext.1, fun final location hWithin hFree hMade => ?_⟩
      rcases hNext.1.node location with hSame | ⟨hNone, -⟩
      · exact h.2 final location (hNext.1.grows.within.trans hWithin) hFree (hSame ▸ hMade)
      · exact hNext.2 final location hWithin hNone hMade
    · refine ⟨createDir_gains hCreate, fun final location hWithin hFree hMade => ?_⟩
      rw [createDir] at hCreate
      rcases hPlace : tree.locateEntry around with cause | place | place
      · simp [hPlace] at hCreate
      · simp [hPlace] at hCreate
      obtain ⟨hFault, hWalk⟩ := locateEntry_eq_ok_iff.mp hPlace
      obtain rfl : tree.put place .directory = after := by simpa [hPlace] using hCreate
      obtain rfl : location = place := by
        by_contra hOther
        rw [node?_put_ne hOther, hFree] at hMade
        cases hMade
      have hEmpty := (Path.pathFault?_eq_none_iff.mp hFault).2.1
      have hAround := Path.around_of_mem_ancestors hAround hEmpty
      obtain ⟨rest, hRest⟩ := hAround.components
      have hInner : tree.Within final :=
        (Gains.put hWalk.vacant_node?.2 hFree).grows.within.trans hWithin
      have hPasses := hWalk.passes hInner (hWithin.directory hMade) rest
      rw [OnWay, hRest, startOf, ← hAround.start, hWithin.workingDir]
      exact hPasses
  exact hAll.2 final location hWithin hFree hMade

end EntityGen.Files.FileTree
