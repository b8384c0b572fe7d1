import EntityGen.Proofs.Files.Path

/-! Walks, name by name. A walk that ends somewhere is a derivation of `Walks`, so that what holds of
every walk is proved by one case for each kind of step. Trees that agree on what a walk meets lead
it to the same place. -/

namespace EntityGen.Files

/-- Whether a segment names something in a directory, and is neither a point nor too long. -/
structure IsStep (name : String) : Prop where
  notHere : name ≠ "."
  notBack : name ≠ ".."
  fits : name.utf8ByteSize ≤ maxNameSize

theorem IsName.isStep {name : String} (h : IsName name) : IsStep name :=
  ⟨h.notHere, h.notBack, h.fits⟩

/-- The location at which a walk ends, taken or not. -/
def Place.location : Place → Location
  | .taken location => location
  | .vacant location => location

namespace FileTree

variable {tree : FileTree} {follow : Bool} {links : Nat} {here : Location} {name target : String}
  {rest names : List String} {place : Place}

/-! ### The equations of a walk -/

theorem walk_nil : tree.walk follow links here [] = .ok (.taken here) := by
  rw [walk, stage]

theorem walk_point : tree.walk follow links here ("." :: rest) = tree.walk follow links here rest := by
  rw [walk, stage, if_pos (by decide), ← walk]

theorem walk_back :
    tree.walk follow links here (".." :: rest) = tree.walk follow links here.dropLast rest := by
  rw [walk, stage, if_neg (by decide), if_pos (by decide), ← walk]

theorem stage_step (h : IsStep name) :
    tree.stage follow here (name :: rest) =
      match tree.node? (here ++ [name]) with
      | none =>
        if rest.isEmpty then .ok (.ended (.vacant (here ++ [name]))) else .error .notFound
      | some .directory => tree.stage follow (here ++ [name]) rest
      | some (.file _) =>
        if rest.isEmpty then .ok (.ended (.taken (here ++ [name]))) else .error .notDirectory
      | some (.link target) =>
        if rest.isEmpty && !follow then .ok (.ended (.taken (here ++ [name])))
        else .ok (.redirected here target rest) := by
  rw [stage, if_neg (by simpa using h.notHere), if_neg (by simpa using h.notBack)]
  exact if_neg (Nat.not_lt.mpr h.fits)

theorem walk_directory (h : IsStep name) (hNode : tree.node? (here ++ [name]) = some .directory) :
    tree.walk follow links here (name :: rest) = tree.walk follow links (here ++ [name]) rest := by
  rw [walk, stage_step h, hNode, ← walk]

theorem walk_file (h : IsStep name) {content : ByteArray}
    (hNode : tree.node? (here ++ [name]) = some (.file content)) :
    tree.walk follow links here (name :: rest) =
      if rest.isEmpty then .ok (.taken (here ++ [name])) else .error .notDirectory := by
  rw [walk, stage_step h, hNode]
  cases rest <;> rfl

theorem walk_vacant (h : IsStep name) (hNode : tree.node? (here ++ [name]) = none) :
    tree.walk follow links here (name :: rest) =
      if rest.isEmpty then .ok (.vacant (here ++ [name])) else .error .notFound := by
  rw [walk, stage_step h, hNode]
  cases rest <;> rfl

theorem walk_link_end (h : IsStep name) (hNode : tree.node? (here ++ [name]) = some (.link target)) :
    tree.walk false links here [name] = .ok (.taken (here ++ [name])) := by
  rw [walk, stage_step h, hNode]
  rfl

theorem walk_link (h : IsStep name) (hNode : tree.node? (here ++ [name]) = some (.link target))
    (hFollow : follow = true ∨ rest ≠ []) :
    tree.walk follow (links + 1) here (name :: rest) =
      tree.walk follow links (startOf here target) (Path.components target ++ rest) := by
  have hOn : (rest.isEmpty && !follow) = false := by
    rcases hFollow with rfl | hRest
    · simp
    · simp [hRest]
  rw [walk, stage_step h, hNode]
  simp only [hOn, Bool.false_eq_true, if_false]

/-- The walks that end somewhere, step by step. -/
inductive Walks (tree : FileTree) (follow : Bool) :
    Nat → Location → List String → Place → Prop
  | here {links : Nat} {here : Location} : Walks tree follow links here [] (.taken here)
  | point {links : Nat} {here : Location} {rest : List String} {place : Place}
      (onward : Walks tree follow links here rest place) :
      Walks tree follow links here ("." :: rest) place
  | back {links : Nat} {here : Location} {rest : List String} {place : Place}
      (onward : Walks tree follow links here.dropLast rest place) :
      Walks tree follow links here (".." :: rest) place
  | directory {links : Nat} {here : Location} {name : String} {rest : List String} {place : Place}
      (step : IsStep name)
      (node : tree.node? (here ++ [name]) = some .directory)
      (onward : Walks tree follow links (here ++ [name]) rest place) :
      Walks tree follow links here (name :: rest) place
  | file {links : Nat} {here : Location} {name : String} {content : ByteArray}
      (step : IsStep name)
      (node : tree.node? (here ++ [name]) = some (.file content)) :
      Walks tree follow links here [name] (.taken (here ++ [name]))
  | vacant {links : Nat} {here : Location} {name : String} (step : IsStep name)
      (node : tree.node? (here ++ [name]) = none) :
      Walks tree follow links here [name] (.vacant (here ++ [name]))
  | linkEnd {links : Nat} {here : Location} {name target : String} (step : IsStep name)
      (node : tree.node? (here ++ [name]) = some (.link target)) (unfollowed : follow = false) :
      Walks tree follow links here [name] (.taken (here ++ [name]))
  | link {links : Nat} {here : Location} {name target : String} {rest : List String} {place : Place}
      (step : IsStep name)
      (node : tree.node? (here ++ [name]) = some (.link target))
      (followed : follow = true ∨ rest ≠ [])
      (onward : Walks tree follow links (startOf here target) (Path.components target ++ rest)
        place) :
      Walks tree follow (links + 1) here (name :: rest) place

theorem Walks.walk_eq (h : Walks tree follow links here names place) :
    tree.walk follow links here names = .ok place := by
  induction h with
  | here => exact walk_nil
  | point _ ih => rw [walk_point, ih]
  | back _ ih => rw [walk_back, ih]
  | directory step node _ ih => rw [walk_directory step node, ih]
  | file step node => rw [walk_file step node]; rfl
  | vacant step node => rw [walk_vacant step node]; rfl
  | linkEnd step node unfollowed => subst unfollowed; exact walk_link_end step node
  | link step node followed _ ih => rw [walk_link step node followed, ih]

theorem Walks.of_walk_eq (h : tree.walk follow links here names = .ok place) :
    Walks tree follow links here names place := by
  induction links using Nat.strongRecOn generalizing here names with
  | ind links ihLinks =>
  induction names generalizing here with
  | nil =>
    obtain rfl : Place.taken here = place := by simpa [walk_nil] using h
    exact .here
  | cons name rest ih =>
    by_cases hPoint : name = "."
    · subst hPoint
      rw [walk_point] at h
      exact .point (ih h)
    by_cases hBack : name = ".."
    · subst hBack
      rw [walk_back] at h
      exact .back (ih h)
    by_cases hFits : name.utf8ByteSize ≤ maxNameSize
    · have hStep : IsStep name := ⟨hPoint, hBack, hFits⟩
      rcases hNode : tree.node? (here ++ [name]) with _ | _ | content | target
      · rw [walk_vacant hStep hNode] at h
        rcases rest with _ | _
        · obtain rfl : Place.vacant (here ++ [name]) = place := by simpa using h
          exact .vacant hStep hNode
        · simp at h
      · rw [walk_directory hStep hNode] at h
        exact .directory hStep hNode (ih h)
      · rw [walk_file hStep hNode] at h
        rcases rest with _ | _
        · obtain rfl : Place.taken (here ++ [name]) = place := by simpa using h
          exact .file hStep hNode
        · simp at h
      · by_cases hFollow : follow = true ∨ rest ≠ []
        · rcases links with _ | links
          · have hOn : (rest.isEmpty && !follow) = false := by
              rcases hFollow with rfl | hRest
              · simp
              · simp [hRest]
            rw [walk, stage_step hStep, hNode] at h
            simp [hOn] at h
          · rw [walk_link hStep hNode hFollow] at h
            exact .link hStep hNode hFollow (ihLinks links (by omega) h)
        · obtain ⟨hUnfollowed, rfl⟩ : follow = false ∧ rest = [] := by simpa using hFollow
          subst hUnfollowed
          rw [walk_link_end hStep hNode] at h
          obtain rfl : Place.taken (here ++ [name]) = place := by simpa using h
          exact .linkEnd hStep hNode rfl
    · rw [walk, stage, if_neg (by simpa using hPoint), if_neg (by simpa using hBack),
        if_pos (by omega)] at h
      simp at h

/-- A walk ends at a place just when it is a walk step by step. -/
theorem walk_eq_ok_iff :
    tree.walk follow links here names = .ok place ↔ Walks tree follow links here names place :=
  ⟨.of_walk_eq, Walks.walk_eq⟩

/-- A walk along one name that is no point leads somewhere only if the name fits. -/
theorem Walks.isStep (h : Walks tree follow links here [name] place) (hHere : name ≠ ".")
    (hBack : name ≠ "..") : IsStep name := by
  cases h with
  | point => exact absurd rfl hHere
  | back => exact absurd rfl hBack
  | directory step => exact step
  | file step => exact step
  | vacant step => exact step
  | linkEnd step => exact step
  | link step => exact step

/-- In a proper tree a walk along segments of a path ends at a location that consists of names. -/
theorem Walks.isName (h : Walks tree follow links here names place)
    (hHere : ∀ name ∈ here, IsName name)
    (hNames : ∀ name ∈ names, name ≠ "" ∧ '/' ∉ name.toList) :
    ∀ name ∈ place.location, IsName name := by
  have hNext {here : Location} {name : String} {rest : List String} (hStep : IsStep name)
      (hHere : ∀ name ∈ here, IsName name)
      (hNames : ∀ other ∈ name :: rest, other ≠ "" ∧ '/' ∉ other.toList) :
      ∀ other ∈ here ++ [name], IsName other := by
    intro other hOther
    rcases List.mem_append.mp hOther with hOther | hOther
    · exact hHere other hOther
    · obtain ⟨hEmpty, hSlash⟩ := hNames name List.mem_cons_self
      rw [List.mem_singleton.mp hOther]
      exact ⟨hEmpty, hSlash, hStep.notHere, hStep.notBack, hStep.fits⟩
  induction h with
  | here => exact hHere
  | point _ ih => exact ih hHere fun name hName => hNames name (List.mem_cons_of_mem _ hName)
  | back _ ih =>
    exact ih (fun name hName => hHere name (List.dropLast_subset _ hName))
      fun name hName => hNames name (List.mem_cons_of_mem _ hName)
  | directory step _ _ ih =>
    exact ih (hNext step hHere hNames) fun name hName => hNames name (List.mem_cons_of_mem _ hName)
  | file step => exact hNext step hHere hNames
  | vacant step => exact hNext step hHere hNames
  | linkEnd step => exact hNext step hHere hNames
  | @link links here name target rest place _ _ _ _ ih =>
    refine ih ?_ fun name hName => ?_
    · intro name hName
      rw [startOf] at hName
      split at hName
      · simp at hName
      · exact hHere name hName
    · rcases List.mem_append.mp hName with hName | hName
      · exact Path.of_mem_components hName
      · exact hNames name (List.mem_cons_of_mem _ hName)

end FileTree

end EntityGen.Files
