import EntityGen.Proofs.Files.Walk

/-! Trees within trees. A tree that has all that another one has, if only with other contents of
files, leads every path to the same place that leads to something there. -/

namespace EntityGen.Files

/-- Nodes that a walk cannot tell apart: files may differ in content. -/
inductive Node.Like : Node → Node → Prop
  | directory : Like .directory .directory
  | file {first second : ByteArray} : Like (.file first) (.file second)
  | link {target : String} : Like (.link target) (.link target)

namespace Node.Like

variable {first second third : Node}

theorem refl (node : Node) : node.Like node := by
  cases node <;> constructor

theorem trans (h : first.Like second) (hNext : second.Like third) : first.Like third := by
  cases h <;> cases hNext <;> constructor

end Node.Like

namespace FileTree

/-- Whether all that is in the inner tree is in the outer one too; the contents of files may
differ. -/
structure Within (inner outer : FileTree) : Prop where
  workingDir : outer.workingDir = inner.workingDir
  node : ∀ location node, inner.node? location = some node →
    ∃ other, outer.node? location = some other ∧ node.Like other

namespace Within

variable {inner outer third : FileTree} {location : Location}

theorem refl (tree : FileTree) : tree.Within tree :=
  ⟨rfl, fun _ node hNode => ⟨node, hNode, .refl node⟩⟩

theorem trans (h : inner.Within outer) (hNext : outer.Within third) : inner.Within third where
  workingDir := hNext.workingDir.trans h.workingDir
  node := by
    intro location node hNode
    obtain ⟨other, hOther, hLike⟩ := h.node location node hNode
    obtain ⟨last, hLast, hNextLike⟩ := hNext.node location other hOther
    exact ⟨last, hLast, hLike.trans hNextLike⟩

theorem directory (h : inner.Within outer) (hNode : inner.node? location = some .directory) :
    outer.node? location = some .directory := by
  obtain ⟨other, hOther, hLike⟩ := h.node _ _ hNode
  cases hLike
  exact hOther

theorem link (h : inner.Within outer) {target : String}
    (hNode : inner.node? location = some (.link target)) :
    outer.node? location = some (.link target) := by
  obtain ⟨other, hOther, hLike⟩ := h.node _ _ hNode
  cases hLike
  exact hOther

theorem file (h : inner.Within outer) {content : ByteArray}
    (hNode : inner.node? location = some (.file content)) :
    ∃ other, outer.node? location = some (.file other) := by
  obtain ⟨other, hOther, hLike⟩ := h.node _ _ hNode
  cases hLike
  exact ⟨_, hOther⟩

end Within

variable {tree inner outer : FileTree} {follow : Bool} {links : Nat} {here location : Location}
  {names : List String} {place : Place} {path : Path}

/-- A walk ends at the same place in an outer tree, if what is vacant there stays vacant. -/
theorem Walks.within (h : inner.Within outer) (hWalk : Walks inner follow links here names place)
    (hVacant : ∀ location, place = .vacant location → outer.node? location = none) :
    Walks outer follow links here names place := by
  induction hWalk with
  | here => exact .here
  | point _ ih => exact .point (ih hVacant)
  | back _ ih => exact .back (ih hVacant)
  | directory step node _ ih => exact .directory step (h.directory node) (ih hVacant)
  | file step node => exact .file step (h.file node).choose_spec
  | vacant step _ => exact .vacant step (hVacant _ rfl)
  | linkEnd step node unfollowed => exact .linkEnd step (h.link node) unfollowed
  | link step node followed _ ih => exact .link step (h.link node) followed (ih hVacant)

/-- A walk ends at a node that was put where it ended before. -/
theorem Walks.filled (h : inner.Within outer) {node : Node}
    (hWalk : Walks inner follow links here names (.vacant location))
    (hNode : outer.node? location = some node) (hKind : ∀ target, node ≠ .link target) :
    Walks outer follow links here names (.taken location) := by
  generalize hPlace : Place.vacant location = place at hWalk
  induction hWalk with
  | here => cases hPlace
  | point _ ih => exact .point (ih hPlace)
  | back _ ih => exact .back (ih hPlace)
  | directory step found _ ih => exact .directory step (h.directory found) (ih hPlace)
  | file => cases hPlace
  | vacant step _ =>
    cases hPlace
    rcases node with _ | content | target
    · exact .directory step hNode .here
    · exact .file step hNode
    · exact absurd rfl (hKind target)
  | linkEnd => cases hPlace
  | link step found followed _ ih => exact .link step (h.link found) followed (ih hPlace)

theorem Walks.vacant_node? (hWalk : Walks tree follow links here names (.vacant location)) :
    tree.node? location = none ∧ location ≠ [] := by
  generalize hPlace : Place.vacant location = place at hWalk
  induction hWalk with
  | here => cases hPlace
  | point _ ih => exact ih hPlace
  | back _ ih => exact ih hPlace
  | directory _ _ _ ih => exact ih hPlace
  | file => cases hPlace
  | vacant _ node =>
    cases hPlace
    exact ⟨node, by simp⟩
  | linkEnd => cases hPlace
  | link _ _ _ _ ih => exact ih hPlace

/-! ### Paths -/

theorem locate_eq_ok_iff :
    tree.locate path = .ok place ↔ pathFault? path = none ∧
      Walks tree true maxLinks (startOf tree.workingDir path)
        (path.components ++ if path.endsWithSlash then ["."] else []) place := by
  rw [locate, locateNames, ← walk_eq_ok_iff]
  cases pathFault? path <;> simp

theorem locateEntry_eq_ok_iff :
    tree.locateEntry path = .ok place ↔ pathFault? path = none ∧
      Walks tree false maxLinks (startOf tree.workingDir path) path.components place := by
  rw [locateEntry, locateNames, ← walk_eq_ok_iff]
  cases pathFault? path <;> simp

theorem Within.locate (h : inner.Within outer) (hPath : inner.locate path = .ok (.taken location)) :
    outer.locate path = .ok (.taken location) := by
  rw [locate_eq_ok_iff] at hPath ⊢
  exact ⟨hPath.1, h.workingDir ▸ hPath.2.within h (by simp)⟩

theorem Within.locateEntry (h : inner.Within outer)
    (hPath : inner.locateEntry path = .ok (.taken location)) :
    outer.locateEntry path = .ok (.taken location) := by
  rw [locateEntry_eq_ok_iff] at hPath ⊢
  exact ⟨hPath.1, h.workingDir ▸ hPath.2.within h (by simp)⟩

end FileTree

end EntityGen.Files
