import EntityGen.Proofs.Files.Passage

/-! Directories below which there are no links, with a path that leads there, possibly past links and
back. What is below such a directory is found where its names say. The path leads there as long as
the directories that it passes stay. -/

namespace EntityGen.Files

/-- A text that names something in a directory, unless it is too long. -/
structure IsSegment (name : String) : Prop where
  notEmpty : name ≠ ""
  noSlash : '/' ∉ name.toList
  notHere : name ≠ "."
  notBack : name ≠ ".."

theorem IsSegment.isName {name : String} (h : IsSegment name)
    (hFits : name.utf8ByteSize ≤ maxNameSize) : IsName name :=
  ⟨h.notEmpty, h.noSlash, h.notHere, h.notBack, hFits⟩

theorem IsName.isSegment {name : String} (h : IsName name) : IsSegment name :=
  ⟨h.notEmpty, h.noSlash, h.notHere, h.notBack⟩

theorem IsSegment.isIdle {name : String} (h : IsSegment name) : Path.isIdle name = false := by
  simp [Path.isIdle, h.notEmpty, h.notHere]

namespace FileTree

variable {tree before after third : FileTree} {follow other : Bool} {links : Nat}
  {here location directory : Location} {names : List String} {name file : String} {place : Location}
  {path : Path}

/-! ### Paths that lead to directories -/

theorem hasDirectory_eq_true_iff :
    tree.hasDirectory path = true ↔ ∃ location, tree.Leads path location := by
  rw [hasDirectory, nodeAt?]
  constructor
  · intro h
    rcases hPlace : tree.locate path with cause | location | location
    · simp [hPlace] at h
    · rcases hNode : tree.node? location with _ | _ | content | target <;>
        simp [hPlace, hNode, Node.isDirectory] at h
      exact ⟨location, hPlace, hNode⟩
    · simp [hPlace] at h
  · rintro ⟨location, hLeads⟩
    simp [hLeads.locate, hLeads.directory, Node.isDirectory]

/-- Where a walk that does not follow a link at its end comes to a vacant place, so does one that
does. -/
theorem Walks.follow_vacant (h : Walks tree false links here names (.vacant place)) :
    Walks tree true links here names (.vacant place) := by
  generalize hPlace : Place.vacant place = found at h
  induction h with
  | here => cases hPlace
  | point _ ih => exact .point (ih hPlace)
  | back _ ih => exact .back (ih hPlace)
  | directory step node _ ih => exact .directory step node (ih hPlace)
  | file => cases hPlace
  | vacant step node => exact .vacant step node
  | linkEnd => cases hPlace
  | link step node _ _ ih => exact .link step node (.inl rfl) (ih hPlace)

/-- A walk that follows a link at its end and comes to something ends at that link otherwise. -/
theorem Walks.unfollow_taken (h : Walks tree true links here names (.taken place)) :
    ∃ end?, Walks tree false links here names (.taken end?) := by
  generalize hPlace : Place.taken place = found at h
  induction h with
  | here => exact ⟨_, .here⟩
  | point _ ih => exact (ih hPlace).imp fun _ => .point
  | back _ ih => exact (ih hPlace).imp fun _ => .back
  | directory step node _ ih => exact (ih hPlace).imp fun _ => .directory step node
  | file step node => exact ⟨_, .file step node⟩
  | vacant => cases hPlace
  | linkEnd _ _ unfollowed => cases unfollowed
  | @link _ _ _ _ rest _ step node _ _ ih =>
    by_cases hRest : rest = []
    · subst hRest
      exact ⟨_, .linkEnd step node rfl⟩
    · exact (ih hPlace).imp fun _ => .link step node (.inr hRest)

/-- Creating a directory to which the path leads already does nothing, and does not fail. -/
theorem Leads.createDirAll_eq_self (h : tree.Leads path directory) :
    tree.createDirAll path = (tree, none) := by
  obtain ⟨found, hWalk⟩ := h.walks.unfollow_taken
  have hPlace : tree.locateEntry path = .ok (.taken found) :=
    locateEntry_eq_ok_iff.mpr ⟨(locate_eq_ok_iff.mp h.locate).1, hWalk⟩
  have hCreate : tree.createDir path = .error .alreadyThere := by
    rw [createDir, hPlace]
  have hThere : tree.hasDirectory path = true := hasDirectory_eq_true_iff.mpr ⟨directory, h⟩
  obtain ⟨around, hAround⟩ := path.ancestors_eq_cons
  rw [createDirAll, hAround, createDirs, if_neg (by simpa using h.notEmpty), hCreate]
  simp [hThere]

/-- A slash at the end of a path that leads to a directory makes no difference. -/
theorem Leads.of_walks (hFault : pathFault? path = none)
    (hWalk : Walks tree true maxLinks (startOf tree.workingDir path) path.components
      (.taken directory)) (hNode : tree.node? directory = some .directory) :
    tree.Leads path directory where
  locate := by
    refine locate_eq_ok_iff.mpr ⟨hFault, ?_⟩
    split
    · obtain ⟨left, hPoint⟩ := hWalk.append hNode (List.cons_ne_nil "." [])
      refine .of_walk_eq ?_
      rw [hPoint, walk_point, walk_nil]
    · rw [List.append_nil]
      exact hWalk
  directory := hNode

/-- A step that leads nowhere may be taken first. -/
theorem Leads.point (h : tree.Leads path directory) (hRelative : path.isAbsolute = false)
    (hFits : ("./" ++ path).utf8ByteSize ≤ maxPathSize) : tree.Leads ("./" ++ path) directory := by
  have hText : "./" ++ path = "." ++ String.singleton '/' ++ path := rfl
  have hParts : Path.components ("./" ++ path) = "." :: path.components := by
    rw [Path.components, hText, Text.parts_append]
    rfl
  have hStart : Path.isAbsolute ("./" ++ path) = false := by
    simp [Path.isAbsolute]
  obtain ⟨hZero, -, -⟩ := Path.pathFault?_eq_none_iff.mp (locate_eq_ok_iff.mp h.locate).1
  have hWalk := h.walks
  rw [startOf, hRelative] at hWalk
  refine .of_walks (Path.pathFault?_eq_none_iff.mpr ⟨by simp [hZero], by simp, hFits⟩) ?_ h.directory
  rw [hParts, startOf, hStart]
  exact .point hWalk

theorem createDir_leads (h : tree.createDir path = .ok after) :
    ∃ location, after.Leads path location := by
  rw [createDir] at h
  rcases hPlace : tree.locateEntry path with cause | place | place
  · simp [hPlace] at h
  · simp [hPlace] at h
  obtain rfl : tree.put place .directory = after := by simpa [hPlace] using h
  obtain ⟨hFault, hWalk⟩ := locateEntry_eq_ok_iff.mp hPlace
  obtain ⟨hFree, hRoot⟩ := hWalk.vacant_node?
  have hMade : (tree.put place .directory).node? place = some .directory := node?_put_self hRoot
  have hFilled := hWalk.follow_vacant.filled (Gains.put hRoot hFree).grows.within hMade (by simp)
  exact ⟨place, .of_walks hFault hFilled hMade⟩

/-- Where creating a directory does not fail, the path leads to a directory. -/
theorem createDirAll_leads (hEmpty : path ≠ "")
    (h : tree.createDirAll path = (after, none)) : ∃ location, after.Leads path location := by
  have hThere {made : FileTree} {fault : FileFault}
      (h : (made, if made.hasDirectory path then none else some fault) = (after, none)) :
      ∃ location, after.Leads path location := by
    obtain ⟨rfl, hFault⟩ := Prod.mk.inj h
    split at hFault
    · exact hasDirectory_eq_true_iff.mp ‹_›
    · cases hFault
  obtain ⟨around, hAround⟩ := path.ancestors_eq_cons
  rw [createDirAll, hAround, createDirs, if_neg (by simpa using hEmpty)] at h
  rcases hCreate : tree.createDir path with cause | created
  · rw [hCreate] at h
    cases cause with
    | notFound =>
      rcases hOuter : tree.createDirs around with ⟨outer, _ | fault⟩
      · simp only [hOuter] at h
        rcases hInner : outer.createDir path with cause | created
        · exact hThere (by simpa only [hInner] using h)
        · obtain rfl : created = after := by simpa [hInner] using h
          exact createDir_leads hInner
      · simp [hOuter] at h
    | _ => exact hThere h
  · obtain rfl : created = after := by simpa [hCreate] using h
    exact createDir_leads hCreate

/-- A walk comes to a place as long as the directories that it passes, what is there and all links
stay. -/
theorem Walks.of_passes (h : Walks before true links here names (.taken place))
    (hPlace : after.node? place = before.node? place)
    (hKept : ∀ location, Passes before here names location →
      after.node? location = some .directory)
    (hLinks : ∀ location target, before.node? location = some (.link target) →
      after.node? location = some (.link target)) :
    Walks after true links here names (.taken place) := by
  generalize hEnd : Place.taken place = found at h ⊢
  induction h with
  | here => exact .here
  | point _ ih => exact .point (ih (fun location h => hKept location (.point h)) hEnd)
  | back _ ih => exact .back (ih (fun location h => hKept location (.back h)) hEnd)
  | directory step node _ ih =>
    exact .directory step (hKept _ (.here step node))
      (ih (fun location h => hKept location (.directory step node h)) hEnd)
  | file step node =>
    cases hEnd
    exact .file step (hPlace.trans node)
  | vacant => cases hEnd
  | linkEnd _ _ unfollowed => cases unfollowed
  | link step node followed _ ih =>
    exact .link step (hLinks _ _ node) followed
      (ih (fun location h => hKept location (.link step node h)) hEnd)

/-- A path leads to a directory as long as all links and the directories on the way stay. -/
theorem Leads.of_passes (h : before.Leads path directory)
    (hStart : after.workingDir = before.workingDir)
    (hKept : ∀ location, before.OnWay path location → after.node? location = some .directory)
    (hNode : after.node? directory = some .directory)
    (hLinks : ∀ location target, before.node? location = some (.link target) →
      after.node? location = some (.link target)) : after.Leads path directory := by
  have hWalk := h.walks.of_passes (hNode.trans h.directory.symm) hKept hLinks
  rw [← hStart] at hWalk
  exact .of_walks (locate_eq_ok_iff.mp h.locate).1 hWalk hNode

/-- Files were taken away, and nothing else changed. -/
structure Sheds (before after : FileTree) : Prop where
  workingDir : after.workingDir = before.workingDir
  node : ∀ location, after.node? location = before.node? location ∨
    after.node? location = none ∧ ∃ content, before.node? location = some (.file content)

namespace Sheds

theorem refl (tree : FileTree) : tree.Sheds tree := ⟨rfl, fun _ => .inl rfl⟩

theorem trans (h : before.Sheds after) (hNext : after.Sheds third) : before.Sheds third where
  workingDir := hNext.workingDir.trans h.workingDir
  node := by
    intro location
    rcases hNext.node location with hSame | ⟨hNone, content, hFile⟩
    · rw [hSame]
      exact h.node location
    · rcases h.node location with hSame | ⟨hGone, -⟩
      · exact .inr ⟨hNone, content, hSame ▸ hFile⟩
      · simp [hGone] at hFile

theorem loses (h : before.Sheds after) : before.Loses after where
  workingDir := h.workingDir
  node := fun location => (h.node location).imp id And.left

/-- What is no file stays. -/
theorem kept (h : before.Sheds after) {node : Node} (hNode : before.node? location = some node)
    (hKind : ∀ content, node ≠ .file content) : after.node? location = some node := by
  rcases h.node location with hSame | ⟨-, content, hFile⟩
  · rw [hSame, hNode]
  · exact absurd (Option.some.inj (hNode.symm.trans hFile)) (hKind content)

theorem keptDirectory (h : before.Sheds after) (hNode : before.node? location = some .directory) :
    after.node? location = some .directory :=
  h.kept hNode (by simp)

/-- A path leads to what is still there. -/
theorem locate (h : before.Sheds after) {place : Location}
    (hPlace : before.locate path = .ok (.taken place))
    (hNode : after.node? place = before.node? place) : after.locate path = .ok (.taken place) := by
  obtain ⟨hFault, hWalk⟩ := locate_eq_ok_iff.mp hPlace
  refine locate_eq_ok_iff.mpr ⟨hFault, ?_⟩
  rw [h.workingDir]
  exact hWalk.of_passes hNode (fun _ hPasses => h.keptDirectory hPasses.isDirectory)
    fun _ _ hLink => h.kept hLink (by simp)

end Sheds

/-! ### Below a directory -/

/-- A path leads to a directory below which there are no links. -/
structure Anchored (tree : FileTree) (path : Path) (directory : Location) : Prop where
  proper : tree.Proper
  leads : tree.Leads path directory
  noLink : ∀ below target, below ≠ [] → tree.node? (directory ++ below) ≠ some (.link target)

namespace Anchored

theorem grows (h : before.Anchored path directory) (hGrows : before.Grows after)
    (hProper : after.Proper) : after.Anchored path directory where
  proper := hProper
  leads := h.leads.within hGrows.within
  noLink := fun below target hBelow hLink => h.noLink below target hBelow (hGrows.links _ _ hLink)

theorem sheds (h : before.Anchored path directory) (hSheds : before.Sheds after)
    (hProper : after.Proper) : after.Anchored path directory where
  proper := hProper
  leads := h.leads.of_passes hSheds.workingDir (fun _ hPasses => hSheds.keptDirectory hPasses.isDirectory)
    (hSheds.keptDirectory h.leads.directory) fun _ _ hLink => hSheds.kept hLink (by simp)
  noLink := fun below target hBelow hLink =>
    h.noLink below target hBelow (hSheds.loses.links _ _ hLink)

end Anchored

theorem Leads.isName_of_locate (h : tree.Leads path directory) (hName : IsSegment name)
    {place : Place} (hPlace : tree.locate (Path.join path name) = .ok place) : IsName name := by
  have hWalk := (locate_eq_ok_iff.mp hPlace).2
  rw [Path.endsWithSlash_join (Path.isAbsolute_of_noSlash hName.noSlash) hName.notEmpty,
    Path.endsWithSlash_of_noSlash hName.noSlash, if_neg (by simp), List.append_nil] at hWalk
  exact h.isName_of_walk hName.noSlash hName.notEmpty hName.notHere hName.notBack hWalk.walk_eq

/-- What a name leads to that is joined to a path to a directory is the place of that name there. -/
theorem Leads.place_of_join (h : tree.Leads path directory) (hName : IsSegment name)
    (hLink : ∀ target, tree.node? (directory ++ [name]) ≠ some (.link target))
    (hPlace : tree.locate (Path.join path name) = .ok (.taken place)) :
    place = directory ++ [name] := by
  rw [h.locate_join (h.isName_of_locate hName hPlace) (locate_eq_ok_iff.mp hPlace).1 hLink] at hPlace
  split at hPlace
  · exact (Place.taken.inj (Except.ok.inj hPlace)).symm
  · cases hPlace

/-! ### Files in the directories of a directory -/

theorem hasFile_eq_true_iff : tree.hasFile path = true ↔ ∃ location content,
    tree.locate path = .ok (.taken location) ∧ tree.node? location = some (.file content) := by
  rw [hasFile, nodeAt?]
  rcases hPlace : tree.locate path with cause | location | location
  · simp
  · rcases hNode : tree.node? location with _ | _ | content | target <;> simp [hNode]
  · simp

/-- What is a file in an inner tree is one in an outer tree. -/
theorem Within.hasFile (h : before.Within after) (hFile : before.hasFile path = true) :
    after.hasFile path = true := by
  obtain ⟨location, content, hPlace, hNode⟩ := hasFile_eq_true_iff.mp hFile
  obtain ⟨other, hOther⟩ := h.file hNode
  exact hasFile_eq_true_iff.mpr ⟨location, other, h.locate hPlace, hOther⟩

/-- A path leads to a file in a directory of a directory just if it is a path and the file is
there. -/
theorem Anchored.hasFile_iff (h : tree.Anchored path directory)
    (hNode : tree.node? (directory ++ [name]) = some .directory) {file : String}
    (hFile : IsSegment file) :
    tree.hasFile (Path.join (Path.join path name) file) = true ↔
      pathFault? (Path.join (Path.join path name) file) = none ∧
        ∃ content, tree.node? (directory ++ [name, file]) = some (.file content) := by
  have hName := h.proper.names_of_node? hNode name (by simp)
  have hInner (hFault : pathFault? (Path.join (Path.join path name) file) = none) :
      tree.Leads (Path.join path name) (directory ++ [name]) :=
    h.leads.join hName (Path.pathFault?_of_join (Path.isAbsolute_of_noSlash hFile.noSlash)
      (Path.join_ne_empty hName.notEmpty) hFault) hNode
  have hLink : ∀ target, tree.node? (directory ++ [name] ++ [file]) ≠ some (.link target) := by
    intro target
    rw [List.append_assoc]
    exact h.noLink [name, file] target (by simp)
  have hWhere : directory ++ [name] ++ [file] = directory ++ [name, file] := List.append_assoc _ _ _
  rw [hasFile_eq_true_iff]
  constructor
  · rintro ⟨location, content, hPlace, hFound⟩
    have hFault := (locate_eq_ok_iff.mp hPlace).1
    have hFits := (hInner hFault).isName_of_locate hFile hPlace
    rw [(hInner hFault).locate_join hFits hFault hLink, hWhere] at hPlace
    split at hPlace
    · obtain rfl := Place.taken.inj (Except.ok.inj hPlace)
      exact ⟨hFault, content, hFound⟩
    · cases hPlace
  · rintro ⟨hFault, content, hFound⟩
    have hFits := h.proper.names_of_node? hFound file (by simp)
    refine ⟨directory ++ [name, file], content, ?_, hFound⟩
    rw [(hInner hFault).locate_join hFits hFault hLink, hWhere, hFound]
    rfl

end FileTree

end EntityGen.Files
