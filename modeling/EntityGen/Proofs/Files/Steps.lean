import EntityGen.Proofs.Files.Parent
import EntityGen.Proofs.Files.Within

/-! Paths that go the same way, as those do that take the same steps: they start at one place and have
the same segments, points apart. A point on the way of a walk leads nowhere; so such paths lead to one
place, if they lead anywhere. -/

namespace EntityGen.Files

variable {path other : Path}

namespace Path

/-- The segments of a path are told by its steps, points apart. -/
theorem components_plain (path : Path) :
    path.components.filter (· != ".") = path.steps.filter fun step => step != "." && step != "/" := by
  have hNoSlash (segments : List String) (hAll : ∀ segment ∈ segments, '/' ∉ segment.toList) :
      (segments.filter fun segment => !segment.isEmpty).filter (· != ".") =
        (segments.filter fun segment => !isIdle segment).filter
          fun step => step != "." && step != "/" := by
    rw [List.filter_filter, List.filter_filter]
    refine List.filter_congr fun segment hSegment => ?_
    have hSlash : segment ≠ "/" := by
      rintro rfl
      exact hAll "/" hSegment (by decide)
    have hKept : (segment != "/") = true := bne_iff_ne.mpr hSlash
    rw [hKept, Bool.and_true, isIdle, Bool.not_or, Bool.and_comm, bne]
    cases segment == "." <;> simp
  have hParts : ∀ segment ∈ Text.parts '/' path, '/' ∉ segment.toList := fun _ =>
    Text.notMem_of_mem_parts
  rw [components, steps]
  rcases hSplit : Text.parts '/' path with _ | ⟨first, rest⟩
  · rfl
  rw [hSplit] at hParts
  have hRest := hNoSlash rest fun segment hSegment => hParts segment (List.mem_cons_of_mem _ hSegment)
  have hFirst : '/' ∉ first.toList := hParts first List.mem_cons_self
  by_cases hAbsolute : path.isAbsolute = true
  · obtain ⟨second, others, hParted⟩ := isAbsolute_iff.mp hAbsolute
    obtain rfl : first = "" := (List.cons.inj (hSplit.symm.trans hParted)).1
    simpa [hAbsolute] using hRest
  · have hSlash : first ≠ "/" := by
      rintro rfl
      exact hFirst (by decide)
    by_cases hEmpty : first = ""
    · simpa [hAbsolute, hEmpty] using hRest
    · by_cases hPoint : first = "."
      · simpa [hAbsolute, hPoint] using hRest
      · simpa [hAbsolute, hEmpty, hPoint, hSlash] using hRest

theorem isAbsolute_iff_steps : path.isAbsolute = true ↔ path.steps.head? = some "/" := by
  rw [steps]
  rcases hSplit : Text.parts '/' path with _ | ⟨first, rest⟩
  · have hNone : path.isAbsolute ≠ true := by
      intro hAbsolute
      obtain ⟨segment, others, hParted⟩ := isAbsolute_iff.mp hAbsolute
      rw [hSplit] at hParted
      cases hParted
    simp [hNone]
  have hParts : ∀ segment ∈ first :: rest, '/' ∉ segment.toList := fun _ hSegment =>
    Text.notMem_of_mem_parts (hSplit ▸ hSegment)
  by_cases hAbsolute : path.isAbsolute = true
  · simp [hAbsolute]
  · -- No segment is a slash.
    simp only [hAbsolute, if_false, Bool.false_eq_true, false_iff]
    intro hHead
    have hMem := List.mem_of_head? hHead
    rw [List.mem_append] at hMem
    have hSlash : "/" ∈ first :: rest := by
      rcases hMem with hFirst | hRest
      · by_cases hEmpty : first = ""
        · simp [hEmpty] at hFirst
        · have hSame : "/" = first := by simpa [hEmpty] using hFirst
          exact hSame ▸ List.mem_cons_self
      · exact List.mem_cons_of_mem _ (List.mem_of_mem_filter hRest)
    exact hParts "/" hSlash (by decide)

/-- Paths that start at one place and have the same segments, points apart. -/
structure SameWay (path other : Path) : Prop where
  start : path.isAbsolute = other.isAbsolute
  plain : path.components.filter (· != ".") = other.components.filter (· != ".")

instance (path other : Path) : Decidable (path.SameWay other) :=
  decidable_of_iff (path.isAbsolute = other.isAbsolute ∧
      path.components.filter (· != ".") = other.components.filter (· != "."))
    ⟨fun ⟨hStart, hPlain⟩ => ⟨hStart, hPlain⟩, fun h => ⟨h.start, h.plain⟩⟩

theorem sameWay_of_steps (h : path.steps = other.steps) : path.SameWay other where
  start := by rw [Bool.eq_iff_iff, isAbsolute_iff_steps, isAbsolute_iff_steps, h]
  plain := by rw [components_plain, components_plain, h]

variable {around : Path} {name : String}

/-- A file name is a segment that leads somewhere. -/
theorem fileName?_spec (h : path.fileName? = some name) :
    '/' ∉ name.toList ∧ isIdle name = false := by
  rw [fileName?] at h
  rcases hParts : Text.parts '/' path with _ | ⟨first, segments⟩
  · simp [hParts] at h
  have hSlash : ∀ segment ∈ first :: segments, '/' ∉ segment.toList := fun segment hSegment =>
    Text.notMem_of_mem_parts (hParts ▸ hSegment)
  obtain ⟨idle, hIdle, -⟩ := exists_trimmed segments
  have hMem : (trimmed segments).getLast?.getD first ∈ first :: segments := by
    rcases hLast : (trimmed segments).getLast? with _ | last
    · exact List.mem_cons_self
    · have hIn := List.mem_of_getLast? hLast
      rw [hIdle]
      exact List.mem_cons_of_mem _ (List.mem_append_left _ hIn)
  simp only [hParts] at h
  split at h
  · cases h
  · rename_i hOther
    obtain rfl := Option.some.inj h
    simp only [Bool.or_eq_true, not_or, Bool.not_eq_true, beq_eq_false_iff_ne] at hOther
    exact ⟨hSlash _ hMem, hOther.1⟩

/-- A path that has nothing around it takes the step of its name only. -/
theorem steps_of_lone (hName : path.fileName? = some name)
    (hAlone : path.parent?.getD "" = "") : path.steps = [name] := by
  obtain ⟨hSlash, hKept⟩ := fileName?_spec hName
  rw [fileName?] at hName
  rw [parent?] at hAlone
  rcases hParts : Text.parts '/' path with _ | ⟨first, segments⟩
  · simp [hParts] at hName
  simp only [hParts] at hName hAlone
  obtain ⟨idle, hIdle, hAfter⟩ := exists_trimmed segments
  cases hTrimmed : trimmed segments with
  | nil =>
    obtain rfl : first = name := by
      rw [hTrimmed, List.getLast?_nil, Option.getD_none] at hName
      split at hName
      · cases hName
      · exact Option.some.inj hName
    have hRelative : path.isAbsolute = false := by
      rw [Bool.eq_false_iff]
      intro hAbsolute
      obtain ⟨_, _, hRoot⟩ := isAbsolute_iff.mp hAbsolute
      rw [hParts] at hRoot
      rw [(List.cons.inj hRoot).1] at hKept
      cases hKept
    have hNone : segments.filter (fun segment => !isIdle segment) = [] := by
      rw [hTrimmed, List.nil_append] at hIdle
      simpa [List.filter_eq_nil_iff, hIdle] using hAfter
    rw [steps, hParts]
    simp [hRelative, hNone, (Bool.or_eq_false_iff.mp hKept).1]
  | cons second others =>
    -- Then there is more around the name than an empty path.
    simp only [hTrimmed] at hAlone
    rcases hInner : trimmed (second :: others).dropLast with _ | ⟨third, deeper⟩
    · simp only [hInner, Option.getD_some] at hAlone
      split at hAlone
      · exact absurd hAlone (by decide)
      · rename_i hFirst
        exact absurd (String.isEmpty_iff.mpr hAlone) hFirst
    · simp only [hInner, Option.getD_some] at hAlone
      simp [String.intercalate_cons_cons] at hAlone

/-- A path goes the same way as its name does in the directory around it, or here if there is
none. -/
theorem sameWay_join_fileName (hName : path.fileName? = some name)
    (hDirectory : path.parent? = some around ∧ around ≠ "" ∨
      path.parent?.getD "" = "" ∧ around = ".") : path.SameWay (Path.join around name) := by
  obtain ⟨hSlash, hKept⟩ := fileName?_spec hName
  rcases hDirectory with ⟨hAround, hEmpty⟩ | ⟨hAlone, rfl⟩
  · obtain ⟨last, hSteps, hLast⟩ := steps_of_parent? hAround hEmpty
    obtain rfl : last = name := by
      rw [hName] at hLast
      split at hLast
      · cases hLast
      · exact (Option.some.inj hLast).symm
    exact sameWay_of_steps (by rw [hSteps, steps_join around hSlash hKept])
  · have hHere : Path.SameWay path (Path.join "" name) :=
      sameWay_of_steps (by rw [steps_of_lone hName hAlone, steps_join "" hSlash hKept]; rfl)
    have hRelative := isAbsolute_of_noSlash hSlash
    refine ⟨?_, ?_⟩
    · rw [hHere.start, isAbsolute_join hRelative, isAbsolute_join hRelative]
      decide
    · rw [hHere.plain, components_join hRelative, components_join hRelative, List.filter_append,
        List.filter_append]
      rfl

end Path

namespace FileTree

variable {tree : FileTree} {links : Nat} {here : Location} {front back : List String} {place : Place}

/-- A walk leads to the same place without the points on its way. -/
theorem Walks.withoutPoints (h : Walks tree true links here (front ++ back) place) :
    Walks tree true links here (front ++ back.filter (· != ".")) place := by
  generalize hAll : front ++ back = all at h
  induction h generalizing front back with
  | here =>
    obtain ⟨rfl, rfl⟩ := List.append_eq_nil_iff.mp hAll
    exact .here
  | @point _ _ rest _ _ ih =>
    rcases front with _ | ⟨first, front⟩
    · obtain rfl : back = _ := hAll
      exact @ih [] rest rfl
    · obtain ⟨rfl, hRest⟩ := List.cons.inj hAll
      exact .point (ih hRest)
  | back _ ih =>
    rcases front with _ | ⟨first, front⟩
    · obtain rfl : back = _ := hAll
      exact .back (@ih [] _ rfl)
    · obtain ⟨rfl, hRest⟩ := List.cons.inj hAll
      exact .back (ih hRest)
  | directory step node _ ih =>
    rcases front with _ | ⟨first, front⟩
    · obtain rfl : back = _ := hAll
      rw [List.filter_cons_of_pos (by simpa using step.notHere)]
      exact .directory step node (@ih [] _ rfl)
    · obtain ⟨rfl, hRest⟩ := List.cons.inj hAll
      exact .directory step node (ih hRest)
  | file step node =>
    rcases front with _ | ⟨first, front⟩
    · obtain rfl : back = _ := hAll
      rw [List.filter_cons_of_pos (by simpa using step.notHere)]
      exact .file step node
    · obtain ⟨rfl, hRest⟩ := List.cons.inj hAll
      obtain ⟨rfl, rfl⟩ := List.append_eq_nil_iff.mp hRest
      exact .file step node
  | vacant step node =>
    rcases front with _ | ⟨first, front⟩
    · obtain rfl : back = _ := hAll
      rw [List.filter_cons_of_pos (by simpa using step.notHere)]
      exact .vacant step node
    · obtain ⟨rfl, hRest⟩ := List.cons.inj hAll
      obtain ⟨rfl, rfl⟩ := List.append_eq_nil_iff.mp hRest
      exact .vacant step node
  | linkEnd _ _ unfollowed => cases unfollowed
  | @link _ _ _ target _ _ step node followed _ ih =>
    rcases front with _ | ⟨first, front⟩
    · obtain rfl : back = _ := hAll
      rw [List.filter_cons_of_pos (by simpa using step.notHere)]
      exact .link step node (.inl rfl) (ih rfl)
    · obtain ⟨rfl, rfl⟩ := List.cons.inj hAll
      have hOnward := @ih (Path.components target ++ front) back (List.append_assoc _ _ _)
      rw [List.append_assoc] at hOnward
      exact .link step node (.inl rfl) hOnward

/-- Paths that go the same way lead to one place, if they lead anywhere. -/
theorem locate_of_sameWay {found : Place} (hWay : path.SameWay other)
    (h : tree.locate path = .ok place) (hOther : tree.locate other = .ok found) : place = found := by
  have hPlain {path : Path} {place : Place} (h : tree.locate path = .ok place) :
      tree.walk true maxLinks (startOf tree.workingDir path) (path.components.filter (· != ".")) =
        .ok place := by
    have hWalk := (locate_eq_ok_iff.mp h).2
    split at hWalk
    · simpa using (@Walks.withoutPoints _ _ _ [] _ _ hWalk).walk_eq
    · simpa using (@Walks.withoutPoints _ _ _ [] _ _ hWalk).walk_eq
  have hFirst := hPlain h
  have hSecond := hPlain hOther
  rw [startOf, hWay.start, hWay.plain, ← startOf, hSecond] at hFirst
  exact (Except.ok.inj hFirst).symm

end FileTree

end EntityGen.Files
