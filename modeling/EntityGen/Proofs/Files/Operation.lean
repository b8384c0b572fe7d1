import EntityGen.Files.Operation
import EntityGen.Proofs.Files.Within

/-! What operations on files leave as it was. Creating directories adds directories in free places;
removing takes nodes away; writing changes one file or adds it. None of them makes a link, and after
the first and the last of them paths lead where they led. -/

namespace EntityGen.Files.FileTree

variable {before after third tree : FileTree} {location : Location} {path : Path}

/-- Directories were added in free places, and nothing else changed. -/
structure Gains (before after : FileTree) : Prop where
  workingDir : after.workingDir = before.workingDir
  node : ∀ location, after.node? location = before.node? location ∨
    before.node? location = none ∧ after.node? location = some .directory

/-- Nodes were taken away, and nothing else changed. -/
structure Loses (before after : FileTree) : Prop where
  workingDir : after.workingDir = before.workingDir
  node : ∀ location, after.node? location = before.node? location ∨ after.node? location = none

/-- The links of the second tree are links of the first one. -/
def AddsNoLink (before after : FileTree) : Prop :=
  ∀ location target, after.node? location = some (.link target) →
    before.node? location = some (.link target)

/-- Directories and files were added and contents of files were changed. -/
structure Grows (before after : FileTree) : Prop where
  within : before.Within after
  links : before.AddsNoLink after

theorem AddsNoLink.trans (h : before.AddsNoLink after) (hNext : after.AddsNoLink third) :
    before.AddsNoLink third :=
  fun location target hLink => h location target (hNext location target hLink)

namespace Gains

theorem refl (tree : FileTree) : tree.Gains tree := ⟨rfl, fun _ => .inl rfl⟩

theorem trans (h : before.Gains after) (hNext : after.Gains third) : before.Gains third where
  workingDir := hNext.workingDir.trans h.workingDir
  node := by
    intro location
    rcases h.node location with hSame | ⟨hFree, hDirectory⟩
    · rw [← hSame]
      exact hNext.node location
    · rcases hNext.node location with hSame | ⟨hNone, -⟩
      · exact .inr ⟨hFree, hSame.trans hDirectory⟩
      · simp [hDirectory] at hNone

theorem put (hRoot : location ≠ []) (hFree : tree.node? location = none) :
    tree.Gains (tree.put location .directory) where
  workingDir := rfl
  node := by
    intro other
    rw [node?_put hRoot]
    split
    · rename_i hSame
      exact .inr ⟨hSame ▸ hFree, rfl⟩
    · exact .inl rfl

theorem kept (h : before.Gains after) {node : Node} (hNode : before.node? location = some node) :
    after.node? location = some node := by
  rcases h.node location with hSame | ⟨hFree, -⟩
  · rw [hSame, hNode]
  · simp [hFree] at hNode

theorem file_iff (h : before.Gains after) {content : ByteArray} :
    after.node? location = some (.file content) ↔ before.node? location = some (.file content) := by
  rcases h.node location with hSame | ⟨hFree, hDirectory⟩
  · rw [hSame]
  · simp [hFree, hDirectory]

theorem grows (h : before.Gains after) : before.Grows after where
  within := ⟨h.workingDir, fun _ node hNode => ⟨node, h.kept hNode, .refl node⟩⟩
  links := by
    intro location target hLink
    rcases h.node location with hSame | ⟨-, hDirectory⟩
    · rwa [← hSame]
    · simp [hDirectory] at hLink

end Gains

namespace Loses

theorem refl (tree : FileTree) : tree.Loses tree := ⟨rfl, fun _ => .inl rfl⟩

theorem trans (h : before.Loses after) (hNext : after.Loses third) : before.Loses third where
  workingDir := hNext.workingDir.trans h.workingDir
  node := by
    intro location
    rcases hNext.node location with hSame | hNone
    · rw [hSame]
      exact h.node location
    · exact .inr hNone

theorem within (h : before.Loses after) : after.Within before where
  workingDir := h.workingDir.symm
  node := by
    intro location node hNode
    rcases h.node location with hSame | hNone
    · exact ⟨node, hSame ▸ hNode, .refl node⟩
    · simp [hNone] at hNode

theorem without (tree : FileTree) (lost : Location → Bool) : tree.Loses (tree.without lost) where
  workingDir := rfl
  node := by
    intro location
    by_cases hRoot : location = []
    · exact .inl (by simp [hRoot])
    · rw [node?_of_ne hRoot, node?_of_ne hRoot, FileTree.without,
        lookup_filter (fun location => !lost location)]
      split
      · exact .inl rfl
      · exact .inr rfl

theorem links (h : before.Loses after) : before.AddsNoLink after := by
  intro location target hLink
  rcases h.node location with hSame | hNone
  · rwa [← hSame]
  · simp [hNone] at hLink

end Loses

namespace Grows

theorem refl (tree : FileTree) : tree.Grows tree := ⟨.refl tree, fun _ _ h => h⟩

theorem trans (h : before.Grows after) (hNext : after.Grows third) : before.Grows third where
  within := h.within.trans hNext.within
  links := h.links.trans hNext.links

/-- A file in a free place, or in the place of another one. -/
theorem putFile (hRoot : location ≠ []) {content : ByteArray}
    (hPlace : tree.node? location = none ∨ ∃ old, tree.node? location = some (.file old)) :
    tree.Grows (tree.put location (.file content)) where
  within := by
    refine ⟨rfl, fun other node hNode => ?_⟩
    rw [node?_put hRoot]
    split
    · rename_i hSame
      subst hSame
      rcases hPlace with hFree | ⟨old, hOld⟩
      · simp [hFree] at hNode
      · obtain rfl : Node.file old = node := by simpa [hOld] using hNode
        exact ⟨_, rfl, .file⟩
    · exact ⟨node, hNode, .refl node⟩
  links := by
    intro other target hLink
    rw [node?_put hRoot] at hLink
    split at hLink
    · simp at hLink
    · exact hLink

end Grows

/-! ### Creating directories -/

theorem createDir_gains (h : tree.createDir path = .ok after) : tree.Gains after := by
  rw [createDir] at h
  rcases hPlace : tree.locateEntry path with cause | location | location
  · simp [hPlace] at h
  · simp [hPlace] at h
  · obtain rfl : tree.put location .directory = after := by simpa [hPlace] using h
    obtain ⟨hFree, hRoot⟩ := (locateEntry_eq_ok_iff.mp hPlace).2.vacant_node?
    exact .put hRoot hFree

/-- What holds before and after each creation of a directory of a list holds before and after all of
them. -/
theorem createDirs_induction (relation : FileTree → FileTree → Prop) (paths : List Path)
    (refl : ∀ tree, relation tree tree)
    (trans : ∀ {before after third}, relation before after → relation after third →
      relation before third)
    (step : ∀ path ∈ paths, ∀ {tree after}, createDir tree path = .ok after → relation tree after)
    (tree : FileTree) : relation tree (tree.createDirs paths).1 := by
  induction paths with
  | nil => exact refl tree
  | cons path around ih =>
    rw [List.forall_mem_cons] at step
    rw [createDirs]
    split
    · exact refl tree
    rcases hDir : tree.createDir path with cause | created
    · cases cause <;> try exact refl tree
      rcases hOuter : tree.createDirs around with ⟨outer, _ | fault⟩
      all_goals
        have ih := ih step.2
        rw [hOuter] at ih
      · rcases hInner : outer.createDir path with cause | created
        · simpa only [hOuter, hInner] using ih
        · simpa only [hOuter, hInner] using trans ih (step.1 hInner)
      · simpa only [hOuter] using ih
    · exact step.1 hDir

/-- Creating a directory with those around it adds directories, also when it fails. -/
theorem createDirAll_gains (tree : FileTree) (path : Path) :
    tree.Gains (tree.createDirAll path).1 :=
  createDirs_induction Gains _ .refl .trans (fun _ _ _ _ => createDir_gains) tree

/-- A walk from where a path starts ends at a location that consists of names. -/
theorem Walks.isName_of_start {follow : Bool} {links : Nat} {names : List String} {place : Place}
    (h : Walks tree follow links (startOf tree.workingDir path) names place)
    (hStart : ∀ name ∈ tree.workingDir, IsName name)
    (hNames : ∀ name ∈ names, name ≠ "" ∧ '/' ∉ name.toList) :
    ∀ name ∈ place.location, IsName name := by
  refine h.isName (fun name hName => ?_) hNames
  rw [startOf] at hName
  split at hName
  · simp at hName
  · exact hStart name hName

theorem createDir_proper (hProper : tree.Proper) (h : tree.createDir path = .ok after) :
    after.Proper := by
  rw [createDir] at h
  rcases hPlace : tree.locateEntry path with cause | location | location
  · simp [hPlace] at h
  · simp [hPlace] at h
  · obtain rfl : tree.put location .directory = after := by simpa [hPlace] using h
    have hWalk := (locateEntry_eq_ok_iff.mp hPlace).2
    exact hProper.put hWalk.vacant_node?.2 (hWalk.isName_of_start hProper.start fun name hName =>
      Path.of_mem_components hName)

/-- Creating a directory with those around it keeps a tree proper, also when it fails. -/
theorem createDirAll_proper (hProper : tree.Proper) (path : Path) :
    (tree.createDirAll path).1.Proper :=
  createDirs_induction (fun before after => before.Proper → after.Proper) _
    (fun _ => id) (fun h hNext => hNext ∘ h) (fun _ _ _ _ h hProper => createDir_proper hProper h)
    tree hProper

/-! ### Removing -/

theorem removeDirAll_loses (h : tree.removeDirAll path = .ok after) : tree.Loses after := by
  rw [removeDirAll] at h
  rcases hPlace : tree.locateEntry path with cause | location | location
  · simp [hPlace] at h
  · rcases hNode : tree.node? location with _ | _ | content | target <;>
      simp only [hPlace, hNode, Except.ok.injEq, reduceCtorEq] at h
    · exact h ▸ removeAll_eq_without tree location ▸ .without tree _
    · exact h ▸ remove_eq_without tree location ▸ .without tree _
  · simp [hPlace] at h

/-- Removing a file takes one node away that is no directory. -/
theorem removeFile_ok (h : tree.removeFile path = .ok after) :
    ∃ location, after = tree.without (fun other => other == location) ∧
      tree.node? location ≠ some .directory := by
  rw [removeFile] at h
  rcases hPlace : tree.locateEntry path with cause | location | location
  · simp [hPlace] at h
  · simp only [hPlace] at h
    split at h
    · cases h
    · rename_i hKind
      refine ⟨location, (Except.ok.inj h).symm, fun hNode => hKind ?_⟩
      rw [hNode]
      rfl
  · simp [hPlace] at h

/-! ### Writing -/

theorem isName_of_locate {place : Place} (h : tree.locate path = .ok place)
    (hStart : ∀ name ∈ tree.workingDir, IsName name) : ∀ name ∈ place.location, IsName name := by
  refine (locate_eq_ok_iff.mp h).2.isName_of_start hStart fun name hName => ?_
  rcases List.mem_append.mp hName with hName | hName
  · exact Path.of_mem_components hName
  · split at hName
    · obtain rfl := List.mem_singleton.mp hName
      exact ⟨by decide, by decide⟩
    · cases hName

/-- A write changes one file or adds it, and afterwards the path leads to that file. -/
theorem write_ok {content : ByteArray} (h : tree.write path content = .ok after) :
    ∃ location, location ≠ [] ∧ after = tree.put location (.file content) ∧ tree.Grows after ∧
      after.locate path = .ok (.taken location) := by
  rw [write] at h
  split at h
  · rcases hPlace : tree.locateEntry path with _ | _ <;> simp [hPlace] at h
  rcases hPlace : tree.locate path with cause | location | location
  · simp [hPlace] at h
  · rcases hNode : tree.node? location with _ | _ | old | target <;> simp [hPlace, hNode] at h
    have hRoot : location ≠ [] := by
      rintro rfl
      simp at hNode
    have hGrows : tree.Grows (tree.put location (.file content)) :=
      .putFile hRoot (.inr ⟨old, hNode⟩)
    subst h
    exact ⟨location, hRoot, rfl, hGrows, hGrows.within.locate hPlace⟩
  · obtain rfl : tree.put location (.file content) = after := by simpa [hPlace] using h
    have hWalk := locate_eq_ok_iff.mp hPlace
    obtain ⟨hFree, hRoot⟩ := hWalk.2.vacant_node?
    have hGrows : tree.Grows (tree.put location (.file content)) := .putFile hRoot (.inl hFree)
    refine ⟨location, hRoot, rfl, hGrows, locate_eq_ok_iff.mpr ⟨hWalk.1, ?_⟩⟩
    exact hWalk.2.filled hGrows.within (node?_put_self hRoot) (by simp)

theorem write_proper {content : ByteArray} (hProper : tree.Proper)
    (h : tree.write path content = .ok after) : after.Proper := by
  obtain ⟨location, hRoot, rfl, -, hPlace⟩ := write_ok h
  exact hProper.put hRoot (isName_of_locate hPlace hProper.start)

/-! ### Reading -/

theorem read_eq_ok_iff {content : ByteArray} :
    tree.read path = .ok content ↔ ∃ location, tree.locate path = .ok (.taken location) ∧
      tree.node? location = some (.file content) := by
  rw [read]
  rcases hPlace : tree.locate path with cause | location | location
  · simp
  · rcases hNode : tree.node? location with _ | _ | old | target <;> simp [hNode]
  · simp

theorem readText_eq_ok_iff {text : String} :
    tree.readText path = .ok text ↔
      ∃ content, tree.read path = .ok content ∧ String.fromUTF8? content = some text := by
  rw [readText]
  rcases tree.read path with cause | content
  · simp
  · rcases hText : String.fromUTF8? content with _ | found <;> simp [hText]

/-- A file that holds the bytes of a text is read as the text. -/
theorem readText_of_read {text : String} (h : tree.read path = .ok text.toUTF8) :
    tree.readText path = .ok text := by
  refine readText_eq_ok_iff.mpr ⟨_, h, ?_⟩
  rw [String.fromUTF8?]
  exact dif_pos text.isValidUTF8

theorem holds_eq_true_iff {content : ByteArray} :
    tree.holds path content = true ↔ tree.read path = .ok content := by
  rw [holds]
  rcases tree.read path with cause | old
  · simp
  · show (old.data == content.data) = true ↔ _
    rw [beq_iff_eq, Except.ok.injEq, ByteArray.ext_iff]

end EntityGen.Files.FileTree
