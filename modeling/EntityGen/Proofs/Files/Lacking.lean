import EntityGen.Proofs.Files.Rewriting
import EntityGen.Proofs.Files.Steps

/-! What is missing on the way of a path. A text cannot be read for want of a file just if the walk
comes to a location where there is nothing; putting a file there is what it takes to go on, and a
file elsewhere makes no difference. -/

namespace EntityGen.Files.FileTree

variable {tree : FileTree} {follow : Bool} {links : Nat} {here location other : Location}
  {front back names : List String} {place : Place} {path : Path} {content : ByteArray}

/-! ### Trees in which everything is in a directory -/

/-- A walk ends at a node, which is no link that was to be followed, or at a free name in a
directory. -/
theorem Walks.ends (hProper : tree.Proper) (hNested : tree.Nested)
    (hHere : tree.node? here = some .directory) (h : Walks tree follow links here names place) :
    (∀ location, place = .taken location → ∃ node, tree.node? location = some node ∧
      ∀ target, node = .link target → follow = false) ∧
    ∀ location, place = .vacant location → tree.node? location.dropLast = some .directory := by
  have hNoLink {follow : Bool} {node : Node} (hKind : ∀ target, node ≠ .link target) (target : String)
      (hLink : node = .link target) : follow = false := absurd hLink (hKind target)
  induction h with
  | here => exact ⟨fun _ hPlace => ⟨_, Place.taken.inj hPlace ▸ hHere, hNoLink (by simp)⟩, nofun⟩
  | point _ ih => exact ih hHere
  | @back _ here _ _ _ ih =>
    refine ih ?_
    rcases List.eq_nil_or_concat here with rfl | ⟨start, last, rfl⟩
    · exact hHere
    · rw [List.concat_eq_append] at hHere ⊢
      rw [List.dropLast_concat]
      exact hProper.node?_around hNested hHere
  | directory _ node _ ih => exact ih node
  | file _ node => exact ⟨fun _ hPlace => ⟨_, Place.taken.inj hPlace ▸ node, hNoLink (by simp)⟩, nofun⟩
  | vacant =>
    refine ⟨nofun, fun _ hPlace => ?_⟩
    rw [← Place.vacant.inj hPlace, List.dropLast_concat]
    exact hHere
  | linkEnd _ node unfollowed =>
    exact ⟨fun _ hPlace => ⟨_, Place.taken.inj hPlace ▸ node, fun _ _ => unfollowed⟩, nofun⟩
  | @link _ here _ target _ _ _ _ _ _ ih =>
    refine ih ?_
    rw [startOf]
    split
    · rfl
    · exact hHere

theorem Nested.put (h : tree.Nested) (hRoot : location ≠ []) (hFree : tree.node? location = none)
    (hAround : tree.node? location.dropLast = some .directory) (node : Node) :
    (tree.put location node).Nested := by
  intro entry hEntry
  have hOther {around : Location} (hFound : (tree.node? around).any Node.isDirectory = true) :
      ((tree.put location node).node? around).any Node.isDirectory = true := by
    rw [node?_put_ne]
    · exact hFound
    · rintro rfl
      simp [hFree] at hFound
  simp only [FileTree.put, List.mem_cons, List.mem_filter] at hEntry
  rcases hEntry with rfl | ⟨hEntry, -⟩
  · exact hOther (by rw [hAround]; rfl)
  · exact hOther (h entry hEntry)

/-- Creating directories keeps a tree in which relative paths start at a directory. -/
theorem Grounded.createDirAll (h : tree.Grounded) (path : Path) :
    (tree.createDirAll path).1.Grounded := by
  refine createDirs_induction (fun before after => before.Grounded → after.Grounded) _
    (fun _ => id) (fun h hNext => hNext ∘ h) (fun around _ tree after hCreate h => ?_) tree h
  have hGains := createDir_gains hCreate
  refine ⟨createDir_proper h.proper hCreate, ?_, hGains.workingDir ▸ hGains.kept h.start⟩
  rw [createDir] at hCreate
  rcases hPlace : tree.locateEntry around with cause | place | place
  · simp [hPlace] at hCreate
  · simp [hPlace] at hCreate
  obtain rfl : tree.put place .directory = after := by simpa [hPlace] using hCreate
  have hWalk := (locateEntry_eq_ok_iff.mp hPlace).2
  obtain ⟨hFree, hRoot⟩ := hWalk.vacant_node?
  exact h.nested.put hRoot hFree
    ((hWalk.ends h.proper h.nested (h.startOf_directory around)).2 place rfl) .directory

/-- Putting a node where a path leads to a free name keeps such a tree. -/
theorem Grounded.put (h : tree.Grounded) (hPlace : tree.locate path = .ok (.vacant location))
    (node : Node) : (tree.put location node).Grounded := by
  have hWalk := (locate_eq_ok_iff.mp hPlace).2
  obtain ⟨hFree, hRoot⟩ := hWalk.vacant_node?
  have hAround := (hWalk.ends h.proper h.nested (h.startOf_directory path)).2 location rfl
  have hOther : tree.workingDir ≠ location := by
    intro hSame
    rw [← hSame, h.start] at hFree
    cases hFree
  exact ⟨h.proper.put hRoot (isName_of_locate hPlace h.proper.start),
    h.nested.put hRoot hFree hAround node, (node?_put_ne hOther).trans h.start⟩

/-- A path to a free name leads to the file that is put there. -/
theorem locate_put (hPlace : tree.locate path = .ok (.vacant location)) (content : ByteArray) :
    (tree.put location (.file content)).locate path = .ok (.taken location) := by
  obtain ⟨hFits, hWalk⟩ := locate_eq_ok_iff.mp hPlace
  obtain ⟨hFree, hRoot⟩ := hWalk.vacant_node?
  exact locate_eq_ok_iff.mpr
    ⟨hFits, hWalk.filled (Grows.putFile hRoot (.inl hFree)).within (node?_put_self hRoot) (by simp)⟩

/-- Where there is something, the path leads to it. -/
theorem locate_of_hasNode (h : tree.hasNode path = true) :
    ∃ location, tree.locate path = .ok (.taken location) := by
  rw [hasNode, nodeAt?] at h
  rcases hPlace : tree.locate path with cause | location | location
  · simp [hPlace] at h
  · exact ⟨location, rfl⟩
  · simp [hPlace] at h

/-- A path that leads to something leads to a file or a directory. -/
theorem Grounded.found (h : tree.Grounded) (hPlace : tree.locate path = .ok (.taken location)) :
    tree.node? location = some .directory ∨ ∃ content, tree.node? location = some (.file content) := by
  obtain ⟨node, hNode, hLink⟩ := ((locate_eq_ok_iff.mp hPlace).2.ends h.proper h.nested
    (h.startOf_directory path)).1 location rfl
  rcases node with _ | content | target
  · exact .inl hNode
  · exact .inr ⟨content, hNode⟩
  · cases hLink target rfl

/-- The path around a name that is joined to a path leads to a directory, if that path does. -/
theorem Grounded.leads_around_join (h : tree.Grounded) {directory : Location} {name around : Path}
    (hLeads : tree.Leads path directory) (hName : IsSegment name)
    (hFault : pathFault? (Path.join path name) = none)
    (hAround : (Path.join path name).parent? = some around) (hEmpty : around ≠ "") :
    ∃ inner, tree.Leads around inner := by
  have hRelative := Path.isAbsolute_of_noSlash hName.noSlash
  obtain ⟨rest, hRest, hSome⟩ := Path.components_of_parent? hAround hEmpty
  obtain ⟨more, hText⟩ := Path.eq_append_of_parent? hAround hEmpty
  have hStart := (Path.around_of_parent? hAround hEmpty).start
  rw [Path.isAbsolute_join hRelative] at hStart
  -- The name is the last of the segments, so that those around it are among those of the path.
  obtain ⟨inner, last, rfl⟩ := (List.eq_nil_or_concat rest).resolve_left hSome
  rw [Path.components_join hRelative, Path.components_of_noSlash hName.noSlash hName.notEmpty,
    List.concat_eq_append, ← List.append_assoc] at hRest
  obtain ⟨hInner, -⟩ := List.append_inj' hRest rfl
  have hWalk := hLeads.walks
  rw [startOf, ← hStart, ← startOf, hInner] at hWalk
  have hFits : pathFault? around = none := Path.pathFault?_of_append hEmpty (hText ▸ hFault)
  by_cases hNone : inner = []
  · rw [hNone, List.append_nil] at hWalk
    exact ⟨directory, .of_walks hFits hWalk hLeads.directory⟩
  · obtain ⟨found, hBefore, hNode⟩ :=
      hWalk.directory_before h.proper h.nested (h.startOf_directory around) hNone
    exact ⟨found, .of_walks hFits hBefore hNode⟩

/-! ### What a walk lacks -/

/-- A walk along names comes to a location where there is nothing. -/
inductive Lacks (tree : FileTree) : Nat → Location → List String → Location → Prop
  | point {links : Nat} {here location : Location} {rest : List String}
      (onward : Lacks tree links here rest location) : Lacks tree links here ("." :: rest) location
  | back {links : Nat} {here location : Location} {rest : List String}
      (onward : Lacks tree links here.dropLast rest location) :
      Lacks tree links here (".." :: rest) location
  | missing {links : Nat} {here : Location} {name : String} {rest : List String} (step : IsStep name)
      (node : tree.node? (here ++ [name]) = none) :
      Lacks tree links here (name :: rest) (here ++ [name])
  | directory {links : Nat} {here location : Location} {name : String} {rest : List String}
      (step : IsStep name) (node : tree.node? (here ++ [name]) = some .directory)
      (onward : Lacks tree links (here ++ [name]) rest location) :
      Lacks tree links here (name :: rest) location
  | link {links : Nat} {here location : Location} {name target : String} {rest : List String}
      (step : IsStep name) (node : tree.node? (here ++ [name]) = some (.link target))
      (onward : Lacks tree links (startOf here target) (Path.components target ++ rest) location) :
      Lacks tree (links + 1) here (name :: rest) location

/-- Whether a walk fails for want of something, or ends at a free name. -/
def Misses (outcome : Except FileFault Place) : Prop :=
  outcome = .error .notFound ∨ ∃ location, outcome = .ok (.vacant location)

theorem Lacks.misses (h : Lacks tree links here names location) :
    Misses (tree.walk true links here names) := by
  induction h with
  | point _ ih => rwa [walk_point]
  | back _ ih => rwa [walk_back]
  | missing step node =>
    rw [walk_vacant step node]
    split
    · exact .inr ⟨_, rfl⟩
    · exact .inl rfl
  | directory step node _ ih => rwa [walk_directory step node]
  | link step node _ ih => rwa [walk_link step node (.inl rfl)]

theorem exists_lacks (h : Misses (tree.walk true links here names)) :
    ∃ location, Lacks tree links here names location := by
  induction links using Nat.strongRecOn generalizing here names with
  | ind links ihLinks =>
  induction names generalizing here with
  | nil =>
    rw [walk_nil] at h
    rcases h with hError | ⟨location, hVacant⟩
    · cases hError
    · cases Except.ok.inj hVacant
  | cons name rest ih =>
    by_cases hPoint : name = "."
    · subst hPoint
      exact (ih (walk_point ▸ h)).imp fun _ => .point
    by_cases hBack : name = ".."
    · subst hBack
      exact (ih (walk_back ▸ h)).imp fun _ => .back
    by_cases hFits : name.utf8ByteSize ≤ maxNameSize
    · have hStep : IsStep name := ⟨hPoint, hBack, hFits⟩
      rcases hNode : tree.node? (here ++ [name]) with _ | _ | content | target
      · exact ⟨_, .missing hStep hNode⟩
      · exact (ih (walk_directory hStep hNode ▸ h)).imp fun _ => .directory hStep hNode
      · rw [walk_file hStep hNode] at h
        split at h <;> simp [Misses] at h
      · rcases links with _ | links
        · rw [walk, stage_step hStep, hNode] at h
          simp [Misses] at h
        · exact (ihLinks links (by omega) (walk_link hStep hNode (.inl rfl) ▸ h)).imp
            fun _ => .link hStep hNode
    · rw [walk, stage, if_neg (by simpa using hPoint), if_neg (by simpa using hBack),
        if_pos (by omega)] at h
      simp [Misses] at h

/-- Where a walk ends at a free name, that is what it lacks. -/
theorem Walks.lacks (h : Walks tree true links here names (.vacant location)) :
    Lacks tree links here names location := by
  generalize hPlace : Place.vacant location = place at h
  induction h with
  | here => cases hPlace
  | point _ ih => exact .point (ih hPlace)
  | back _ ih => exact .back (ih hPlace)
  | directory step node _ ih => exact .directory step node (ih hPlace)
  | file => cases hPlace
  | vacant step node =>
    cases hPlace
    exact .missing step node
  | linkEnd _ _ unfollowed => cases unfollowed
  | link step node _ _ ih => exact .link step node (ih hPlace)

/-- A file in a free place is what a walk lacked there, and makes no difference to others. -/
theorem lacks_put_iff {place : Location} (hRoot : place ≠ []) (hFree : tree.node? place = none) :
    Lacks (tree.put place (.file content)) links here names location ↔
      Lacks tree links here names location ∧ location ≠ place := by
  have hKept {location : Location} {node : Node} (hNode : tree.node? location = some node) :
      (tree.put place (.file content)).node? location = some node := by
    rw [node?_put_ne, hNode]
    rintro rfl
    simp [hFree] at hNode
  have hBefore {location : Location} {node : Node} (hKind : ∀ content, node ≠ .file content)
      (hNode : (tree.put place (.file content)).node? location = some node) :
      tree.node? location = some node := by
    rwa [node?_put_ne] at hNode
    rintro rfl
    rw [node?_put_self hRoot] at hNode
    exact hKind content (Option.some.inj hNode).symm
  constructor
  · intro h
    induction h with
    | point _ ih => exact ⟨.point ih.1, ih.2⟩
    | back _ ih => exact ⟨.back ih.1, ih.2⟩
    | missing step node =>
      rw [node?_put hRoot] at node
      split at node
      · cases node
      · exact ⟨.missing step node, ‹_›⟩
    | directory step node _ ih => exact ⟨.directory step (hBefore nofun node) ih.1, ih.2⟩
    | link step node _ ih => exact ⟨.link step (hBefore nofun node) ih.1, ih.2⟩
  · rintro ⟨h, hOther⟩
    induction h with
    | point _ ih => exact .point (ih hOther)
    | back _ ih => exact .back (ih hOther)
    | missing step node => exact .missing step (by rw [node?_put_ne hOther, node])
    | directory step node _ ih => exact .directory step (hKept node) (ih hOther)
    | link step node _ ih => exact .link step (hKept node) (ih hOther)

theorem Lacks.withoutPoint (h : Lacks tree links here (front ++ "." :: back) location) :
    Lacks tree links here (front ++ back) location := by
  generalize hAll : front ++ "." :: back = all at h
  induction h generalizing front with
  | point onward ih =>
    rcases front with _ | ⟨first, front⟩
    · obtain ⟨-, rfl⟩ := List.cons.inj hAll
      exact onward
    · obtain ⟨rfl, hRest⟩ := List.cons.inj hAll
      exact .point (ih hRest)
  | back _ ih =>
    rcases front with _ | ⟨first, front⟩
    · exact absurd (List.cons.inj hAll).1 (by decide)
    · obtain ⟨rfl, hRest⟩ := List.cons.inj hAll
      exact .back (ih hRest)
  | missing step node =>
    rcases front with _ | ⟨first, front⟩
    · exact absurd (List.cons.inj hAll).1.symm step.notHere
    · obtain ⟨rfl, -⟩ := List.cons.inj hAll
      exact .missing step node
  | directory step node _ ih =>
    rcases front with _ | ⟨first, front⟩
    · exact absurd (List.cons.inj hAll).1.symm step.notHere
    · obtain ⟨rfl, hRest⟩ := List.cons.inj hAll
      exact .directory step node (ih hRest)
  | link step node _ ih =>
    rcases front with _ | ⟨first, front⟩
    · exact absurd (List.cons.inj hAll).1.symm step.notHere
    · obtain ⟨rfl, rfl⟩ := List.cons.inj hAll
      have hOnward := ih (List.append_assoc _ front _)
      rw [List.append_assoc] at hOnward
      exact .link step node hOnward

theorem Lacks.withPoint (h : Lacks tree links here (front ++ back) location) :
    Lacks tree links here (front ++ "." :: back) location := by
  generalize hAll : front ++ back = all at h
  induction h generalizing front with
  | @point _ _ _ rest onward ih =>
    rcases front with _ | ⟨first, front⟩
    · obtain rfl : back = _ := hAll
      exact .point (.point onward)
    · obtain ⟨rfl, hRest⟩ := List.cons.inj hAll
      exact .point (ih hRest)
  | back onward ih =>
    rcases front with _ | ⟨first, front⟩
    · obtain rfl : back = _ := hAll
      exact .point (.back onward)
    · obtain ⟨rfl, hRest⟩ := List.cons.inj hAll
      exact .back (ih hRest)
  | missing step node =>
    rcases front with _ | ⟨first, front⟩
    · obtain rfl : back = _ := hAll
      exact .point (.missing step node)
    · obtain ⟨rfl, -⟩ := List.cons.inj hAll
      exact .missing step node
  | directory step node onward ih =>
    rcases front with _ | ⟨first, front⟩
    · obtain rfl : back = _ := hAll
      exact .point (.directory step node onward)
    · obtain ⟨rfl, hRest⟩ := List.cons.inj hAll
      exact .directory step node (ih hRest)
  | link step node onward ih =>
    rcases front with _ | ⟨first, front⟩
    · obtain rfl : back = _ := hAll
      exact .point (.link step node onward)
    · obtain ⟨rfl, rfl⟩ := List.cons.inj hAll
      have hOnward := ih (List.append_assoc _ front _)
      rw [List.append_assoc] at hOnward
      exact .link step node hOnward

/-- A point makes no difference to what a walk lacks. -/
theorem lacks_point_iff :
    Lacks tree links here (front ++ "." :: back) location ↔
      Lacks tree links here (front ++ back) location :=
  ⟨Lacks.withoutPoint, Lacks.withPoint⟩

theorem lacks_back (h : Lacks tree links here (".." :: names) location) :
    Lacks tree links here.dropLast names location := by
  generalize hAll : ".." :: names = all at h
  cases h with
  | point => exact absurd (List.cons.inj hAll).1 (by decide)
  | back onward => exact (List.cons.inj hAll).2 ▸ onward
  | missing step => exact absurd (List.cons.inj hAll).1.symm step.notBack
  | directory step => exact absurd (List.cons.inj hAll).1.symm step.notBack
  | link step => exact absurd (List.cons.inj hAll).1.symm step.notBack

theorem Lacks.unique (h : Lacks tree links here names location)
    (hOther : Lacks tree links here names other) : location = other := by
  induction h with
  | point _ ih => exact ih (@Lacks.withoutPoint _ _ _ _ [] _ hOther)
  | back _ ih => exact ih (lacks_back hOther)
  | missing step node =>
    cases hOther with
    | point => exact absurd rfl step.notHere
    | back => exact absurd rfl step.notBack
    | missing => rfl
    | directory _ found => simp [node] at found
    | link _ found => simp [node] at found
  | directory step node _ ih =>
    cases hOther with
    | point => exact absurd rfl step.notHere
    | back => exact absurd rfl step.notBack
    | missing _ free => simp [node] at free
    | directory _ _ onward => exact ih onward
    | link _ found => simp [node] at found
  | link step node _ ih =>
    cases hOther with
    | point => exact absurd rfl step.notHere
    | back => exact absurd rfl step.notBack
    | missing _ free => simp [node] at free
    | directory _ found => simp [node] at found
    | link _ found onward =>
      obtain rfl := Node.link.inj (Option.some.inj (node.symm.trans found))
      exact ih onward

theorem lacks_plain_iff :
    Lacks tree links here (front ++ names) location ↔
      Lacks tree links here (front ++ names.filter (· != ".")) location := by
  induction names generalizing front with
  | nil => rfl
  | cons name rest ih =>
    by_cases hPoint : name = "."
    · subst hPoint
      exact lacks_point_iff.trans ih
    · have hRest := @ih (front ++ [name])
      rw [List.append_assoc, List.append_assoc] at hRest
      rw [List.filter_cons_of_pos (by simpa using hPoint)]
      exact hRest

/-! ### What a path lacks -/

/-- On its way a path comes to a location where there is nothing. -/
def LacksAt (tree : FileTree) (path : Path) (location : Location) : Prop :=
  pathFault? path = none ∧ Lacks tree maxLinks (startOf tree.workingDir path)
    (path.components ++ if path.endsWithSlash then ["."] else []) location

theorem lacksAt_iff : tree.LacksAt path location ↔ pathFault? path = none ∧
    Lacks tree maxLinks (startOf tree.workingDir path) (path.components.filter (· != "."))
      location := by
  rw [LacksAt, ← List.nil_append (path.components ++ _), lacks_plain_iff, List.nil_append]
  split <;> simp

/-- Paths that go the same way lack the same. -/
theorem LacksAt.sameWay {next : Path} (h : tree.LacksAt path location) (hWay : path.SameWay next)
    (hFits : pathFault? next = none) : tree.LacksAt next location := by
  rw [lacksAt_iff, startOf, hWay.start, hWay.plain, ← startOf] at h
  exact lacksAt_iff.mpr ⟨hFits, h.2⟩

theorem lacksAt_put_iff {place : Location} (hRoot : place ≠ []) (hFree : tree.node? place = none) :
    (tree.put place (.file content)).LacksAt path location ↔
      tree.LacksAt path location ∧ location ≠ place := by
  rw [LacksAt, LacksAt, and_assoc]
  exact and_congr_right fun _ => lacks_put_iff hRoot hFree

/-- A path to a free name lacks just that. -/
theorem lacksAt_of_vacant {place : Location} (h : tree.locate path = .ok (.vacant place)) :
    tree.LacksAt path location ↔ location = place := by
  obtain ⟨hFits, hWalk⟩ := locate_eq_ok_iff.mp h
  constructor
  · exact fun hLacks => hLacks.2.unique hWalk.lacks
  · rintro rfl
    exact ⟨hFits, hWalk.lacks⟩

/-- A path to something lacks nothing. -/
theorem not_lacksAt_of_taken {place : Location} (h : tree.locate path = .ok (.taken place)) :
    ¬ tree.LacksAt path location := by
  intro hLacks
  have hWalk := (locate_eq_ok_iff.mp h).2.walk_eq
  rcases hLacks.2.misses with hError | ⟨vacant, hVacant⟩
  · rw [hWalk] at hError
    cases hError
  · rw [hWalk] at hVacant
    cases Except.ok.inj hVacant

/-- A text is not found just if its path is empty or lacks something. -/
theorem Grounded.readText_eq_notFound_iff (h : tree.Grounded) :
    tree.readText path = .error .notFound ↔ path = "" ∨ ∃ location, tree.LacksAt path location := by
  have hRead : tree.readText path = .error .notFound ↔ Misses (tree.locate path) := by
    rw [readText, read]
    rcases hPlace : tree.locate path with cause | place | place
    · simp [Misses]
    · rcases h.found hPlace with hNode | ⟨content, hNode⟩
      · simp [hNode, Misses]
      · rcases hText : String.fromUTF8? content with _ | text <;> simp [hNode, hText, Misses]
    · simp [Misses]
  rw [hRead, locate, locateNames]
  rcases hFault : pathFault? path with _ | fault
  · have hEmpty : path ≠ "" := (Path.pathFault?_eq_none_iff.mp hFault).2.1
    simp only [hEmpty, false_or, LacksAt, hFault, true_and]
    refine ⟨exists_lacks, ?_⟩
    rintro ⟨location, hLacks⟩
    exact hLacks.misses
  · by_cases hEmpty : path = ""
    · obtain rfl : fault = .notFound := by
        rw [hEmpty, show pathFault? "" = some .notFound by decide] at hFault
        exact (Option.some.inj hFault).symm
      exact ⟨fun _ => .inl hEmpty, fun _ => .inl rfl⟩
    · have hOther : fault ≠ .notFound := by
        rintro rfl
        rw [pathFault?] at hFault
        split at hFault
        · cases hFault
        · simp only [String.isEmpty_iff, hEmpty, if_false] at hFault
          split at hFault <;> cases hFault
      simp [Misses, hOther, hEmpty, LacksAt, hFault]

end EntityGen.Files.FileTree
