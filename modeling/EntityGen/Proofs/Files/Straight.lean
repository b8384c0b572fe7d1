import EntityGen.Proofs.Files.Anchored

/-! Directories to which a path leads straight down: past no link, with none below, and never back.
Such a path leads there as long as the directories on the way stay, whatever else is removed, and a
directory or file below it is where its names say. -/

namespace EntityGen.Files

namespace FileTree

variable {tree before after third : FileTree} {follow : Bool} {links : Nat}
  {here location directory : Location} {names : List String} {name : String} {path : Path}

/-- A path leads straight down to a directory below which there are no links. -/
structure Straight (tree : FileTree) (path : Path) (directory : Location) : Prop where
  proper : tree.Proper
  noFault : pathFault? path = none
  noBack : ".." ∉ path.components
  way : directory = startOf tree.workingDir path ++ path.components.filter (· != ".")
  around : ∀ location, location <+: directory → tree.node? location = some .directory
  noLink : ∀ below target, below ≠ [] → tree.node? (directory ++ below) ≠ some (.link target)

/-- A walk along directories ends in the last of them. -/
theorem walks_down (hProper : tree.Proper) (hBack : ".." ∉ names)
    (hWay : directory = here ++ names.filter (· != "."))
    (hAround : ∀ location, location <+: directory → tree.node? location = some .directory) :
    Walks tree follow links here names (.taken directory) := by
  induction names generalizing here with
  | nil =>
    rw [hWay, List.filter_nil, List.append_nil]
    exact .here
  | cons name rest ih =>
    rw [List.mem_cons, not_or] at hBack
    by_cases hPoint : name = "."
    · subst hPoint
      exact .point (ih hBack.2 hWay)
    · have hNext : directory = here ++ [name] ++ rest.filter (· != ".") := by
        simpa [hPoint] using hWay
      have hNode := hAround (here ++ [name]) (hNext ▸ List.prefix_append _ _)
      have hName := hProper.names_of_node? hNode name (by simp)
      exact .directory hName.isStep hNode (ih hBack.2 hNext)

namespace Straight

variable (h : tree.Straight path directory)
include h

theorem walks (follow : Bool) (links : Nat) : Walks tree follow links
    (startOf tree.workingDir path) path.components (.taken directory) :=
  walks_down h.proper h.noBack h.way h.around

theorem leads : tree.Leads path directory where
  locate := by
    refine locate_eq_ok_iff.mpr ⟨h.noFault, ?_⟩
    split
    · exact walks_down h.proper (by simpa using h.noBack) (by simpa using h.way) h.around
    · rw [List.append_nil]
      exact h.walks true maxLinks
  directory := h.around directory (List.prefix_refl _)

/-- There are no links below the directory, so that what is there is found where its names say. -/
theorem anchored : tree.Anchored path directory := ⟨h.proper, h.leads, h.noLink⟩

end Straight

/-! ### Creating directories -/

/-- Unless something around it is missing, creating a directory is one step. -/
theorem createDirAll_eq (hEmpty : path ≠ "") (h : tree.createDir path ≠ .error .notFound) :
    (tree.createDirAll path).1 = (tree.createDir path).toOption.getD tree := by
  obtain ⟨around, hAround⟩ := path.ancestors_eq_cons
  rw [createDirAll, hAround, createDirs, if_neg (by simpa using hEmpty)]
  rcases hCreate : tree.createDir path with cause | created
  · cases cause with
    | notFound => exact absurd hCreate h
    | _ => rfl
  · rfl

theorem Straight.createDirAll_eq_self (h : tree.Straight path directory) :
    (tree.createDirAll path).1 = tree := by
  rw [h.leads.createDirAll_eq_self]

/-- Nothing is missing around a name that is joined to a path that leads to a directory. -/
theorem Leads.fault_ne_notFound (h : tree.Leads path directory) (hName : IsSegment name)
    {fault : FileFault} (hFault : tree.locateEntry (Path.join path name) = .error fault) :
    fault ≠ .notFound := by
  rintro rfl
  rw [locateEntry, locateNames] at hFault
  rcases hPath : pathFault? (Path.join path name) with _ | fault
  · obtain ⟨left, hWalk⟩ := h.walk_join false hName.noSlash hName.notEmpty
    by_cases hFits : name.utf8ByteSize ≤ maxNameSize
    · have hPlace := h.locateEntry_join (hName.isName hFits) hPath
      rw [locateEntry, locateNames, hFault] at hPlace
      cases hPlace
    · simp only [hPath, hWalk] at hFault
      rw [walk, stage, if_neg (by simpa using hName.notHere),
        if_neg (by simpa using hName.notBack), if_pos (by omega)] at hFault
      cases hFault
  · obtain rfl : fault = .notFound := by simpa [hPath] using hFault
    simp only [pathFault?, String.isEmpty_iff, Path.join_ne_empty hName.notEmpty, if_false] at hPath
    split at hPath
    · cases hPath
    · split at hPath <;> cases hPath

/-- Creating a directory in a directory puts it there if the name is free, and does nothing else. -/
theorem Leads.createDirAll_join (h : tree.Leads path directory) (hName : IsSegment name) :
    (tree.createDirAll (Path.join path name)).1 = tree ∨
      tree.node? (directory ++ [name]) = none ∧
        (tree.createDirAll (Path.join path name)).1 =
          tree.put (directory ++ [name]) .directory := by
  rcases hPlace : tree.locateEntry (Path.join path name) with fault | place
  · have hCreate : tree.createDir (Path.join path name) = .error fault := by
      rw [createDir, hPlace]
    have hFound := h.fault_ne_notFound hName hPlace
    rw [createDirAll_eq (Path.join_ne_empty hName.notEmpty) (by simpa [hCreate] using hFound),
      hCreate]
    exact .inl rfl
  · have hFits := h.isName hName.noSlash hName.notEmpty hName.notHere hName.notBack hPlace
    have hPlace := h.locateEntry_join hFits (locateEntry_eq_ok_iff.mp hPlace).1
    rcases hNode : tree.node? (directory ++ [name]) with _ | node
    · have hCreate : tree.createDir (Path.join path name) =
          .ok (tree.put (directory ++ [name]) .directory) := by
        rw [createDir, hPlace, hNode]
        rfl
      rw [createDirAll_eq (Path.join_ne_empty hName.notEmpty) (by simp [hCreate]), hCreate]
      exact .inr ⟨rfl, rfl⟩
    · have hCreate : tree.createDir (Path.join path name) = .error .alreadyThere := by
        rw [createDir, hPlace, hNode]
        rfl
      rw [createDirAll_eq (Path.join_ne_empty hName.notEmpty) (by simp [hCreate]), hCreate]
      exact .inl rfl

/-! ### What keeps a path straight -/

/-- Only contents of files differ. -/
structure Rewrites (before after : FileTree) : Prop where
  within : before.Within after
  back : after.Within before
  proper : before.Proper → after.Proper

namespace Straight

variable (h : before.Straight path directory)
include h

theorem of_kept (hProper : after.Proper) (hStart : after.workingDir = before.workingDir)
    (hKept : ∀ location, location <+: directory → before.node? location = some .directory →
      after.node? location = some .directory)
    (hLinks : before.AddsNoLink after) : after.Straight path directory where
  proper := hProper
  noFault := h.noFault
  noBack := h.noBack
  way := hStart ▸ h.way
  around := fun location hPrefix => hKept location hPrefix (h.around location hPrefix)
  noLink := fun below target hBelow hLink => h.noLink below target hBelow (hLinks _ _ hLink)

theorem grows (hGrows : before.Grows after) (hProper : after.Proper) :
    after.Straight path directory :=
  h.of_kept hProper hGrows.within.workingDir (fun _ _ => hGrows.within.directory) hGrows.links

theorem without {lost : Location → Bool} (hRoot : lost [] = false)
    (hLost : ∀ location, location <+: directory → lost location = false) :
    (before.without lost).Straight path directory := by
  refine h.of_kept (h.proper.without lost) rfl (fun location hPrefix hNode => ?_)
    (Loses.without before lost).links
  rw [node?_without hRoot, hLost location hPrefix]
  exact hNode

theorem rewrites (hRewrites : before.Rewrites after) : after.Straight path directory :=
  h.of_kept (hRewrites.proper h.proper) hRewrites.within.workingDir
    (fun _ _ => hRewrites.within.directory) fun _ _ => hRewrites.back.link

theorem write {other : Path} {content : ByteArray}
    (hWrite : before.write other content = .ok after) : after.Straight path directory := by
  obtain ⟨_, -, -, hGrows, -⟩ := write_ok hWrite
  exact h.grows hGrows (write_proper h.proper hWrite)

theorem removeFile {other : Path} (hRemove : before.removeFile other = .ok after) :
    after.Straight path directory := by
  obtain ⟨removed, rfl, hKind⟩ := removeFile_ok hRemove
  have hLost (location : Location) (hNode : before.node? location = some .directory) :
      (location == removed) = false :=
    beq_eq_false_iff_ne.mpr fun hSame => hKind (hSame ▸ hNode)
  exact h.without (hLost [] rfl) fun location hPrefix => hLost location (h.around location hPrefix)

end Straight

/-! ### What is added below a directory -/

/-- Files and directories were added or written in the directories of some names, and nothing else
changed. -/
structure Extends (before after : FileTree) (directory : Location) (names : List String) : Prop where
  grows : before.Grows after
  others : ∀ location, (∀ name ∈ names, ∀ below, location ≠ directory ++ name :: below) →
    after.node? location = before.node? location

namespace Extends

theorem refl (tree : FileTree) : tree.Extends tree directory names :=
  ⟨.refl tree, fun _ _ => rfl⟩

theorem trans (h : before.Extends after directory names)
    (hNext : after.Extends third directory names) : before.Extends third directory names where
  grows := h.grows.trans hNext.grows
  others := fun location hLocation =>
    (hNext.others location hLocation).trans (h.others location hLocation)

/-- The directories of other names are as they were. -/
theorem outside (h : before.Extends after directory names) (hName : name ∉ names)
    (below : Location) :
    after.node? (directory ++ name :: below) = before.node? (directory ++ name :: below) := by
  refine h.others _ fun other hOther within hSame => ?_
  obtain ⟨rfl, -⟩ := List.cons.inj (List.append_cancel_left hSame)
  exact hName hOther

end Extends

/-- Where a path leads to a directory below which there are no links, no more was done than to add to
the directories of some names in it. -/
def Fills (path : Path) (directory : Location) (names : List String) (before after : FileTree) :
    Prop :=
  before.Anchored path directory → after.Proper ∧ before.Extends after directory names

namespace Fills

theorem anchored (h : Fills path directory names before after)
    (hAnchored : before.Anchored path directory) : after.Anchored path directory :=
  hAnchored.grows (h hAnchored).2.grows (h hAnchored).1

theorem straight (h : Fills path directory names before after)
    (hStraight : before.Straight path directory) : after.Straight path directory :=
  hStraight.grows (h hStraight.anchored).2.grows (h hStraight.anchored).1

theorem refl (tree : FileTree) : Fills path directory names tree tree :=
  fun hAnchored => ⟨hAnchored.proper, .refl tree⟩

theorem trans (h : Fills path directory names before after)
    (hNext : Fills path directory names after third) : Fills path directory names before third := by
  intro hAnchored
  obtain ⟨hProper, hThird⟩ := hNext (h.anchored hAnchored)
  exact ⟨hProper, (h hAnchored).2.trans hThird⟩

theorem put {node : Node} {below : Location} (hName : name ∈ names)
    (hGrows : tree.Grows (tree.put (directory ++ name :: below) node))
    (hProper : (tree.put (directory ++ name :: below) node).Proper) :
    Fills path directory names tree (tree.put (directory ++ name :: below) node) := by
  refine fun _ => ⟨hProper, hGrows, fun location hLocation => ?_⟩
  exact node?_put_ne (hLocation name hName below)

theorem createDirAll_join (hName : name ∈ names) (hSegment : IsSegment name) (tree : FileTree) :
    Fills path directory names tree (tree.createDirAll (Path.join path name)).1 := by
  intro hAnchored
  have hProper := createDirAll_proper hAnchored.proper (Path.join path name)
  have hGrows := (tree.createDirAll_gains (Path.join path name)).grows
  rcases hAnchored.leads.createDirAll_join hSegment with hSame | ⟨-, hPut⟩
  · rw [hSame]
    exact ⟨hAnchored.proper, .refl tree⟩
  · rw [hPut] at hProper hGrows ⊢
    exact put hName hGrows hProper hAnchored

end Fills

end FileTree

end EntityGen.Files
