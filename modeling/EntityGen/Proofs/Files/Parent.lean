import EntityGen.Proofs.Files.Path
import Mathlib.Data.List.DropRight

/-! The path around a path. It is made of the first segments of that path, so that both start at one
place and go the same way. -/

namespace EntityGen.Files.Path

variable {path around other : Path}

/-- Segments are those that are left when the idle ones at the end are cut off, and idle ones. -/
theorem exists_trimmed (segments : List String) :
    ∃ idle, segments = trimmed segments ++ idle ∧ ∀ segment ∈ idle, isIdle segment = true :=
  ⟨segments.rtakeWhile isIdle, (List.rdropWhile_append_rtakeWhile ..).symm,
    fun _ => List.mem_rtakeWhile_imp⟩

theorem parts_intercalate {segments : List String} (hSome : segments ≠ [])
    (hSlash : ∀ segment ∈ segments, '/' ∉ segment.toList) :
    Text.parts '/' (String.intercalate "/" segments) = segments := by
  have hSplit : (['/'].intercalate (segments.map String.toList)).splitOn '/' =
      segments.map String.toList :=
    List.splitOn_intercalate _ (by simpa using hSlash) (by simpa using hSome)
  rw [Text.parts, Text.split_eq_splitOn, String.toList_intercalate]
  show (((['/'].intercalate (segments.map String.toList)).splitOn '/')).map String.ofList = segments
  rw [hSplit]
  simp [Function.comp_def]

theorem isIdle_of_trimmed {segments start : List String} {last : String}
    (h : trimmed segments = start ++ [last]) : isIdle last = false := by
  have hSome : segments.rdropWhile isIdle ≠ [] := by
    show trimmed segments ≠ []
    simp [h]
  have hLast : (segments.rdropWhile isIdle).getLast hSome = last := by
    simp only [show segments.rdropWhile isIdle = start ++ [last] from h, List.getLast_concat]
  simpa [hLast] using List.rdropWhile_last_not isIdle segments hSome

/-- The segments of the path around a path come first in it, and one that is not idle follows. The
root is written as if it had an empty segment more. -/
theorem parent?_parts (h : parent? path = some around) (hEmpty : around ≠ "") :
    ∃ first inner rest last, Text.parts '/' path = first :: (inner ++ rest) ∧
      rest.filter (fun segment => !isIdle segment) = [last] ∧
      path.fileName? = (if last == ".." then none else some last) ∧
      (Text.parts '/' around = first :: inner ∨ around = "/" ∧ first = "" ∧ inner = []) := by
  rw [parent?] at h
  rcases hParts : Text.parts '/' path with _ | ⟨first, segments⟩
  · simp [hParts] at h
  have hSlash : ∀ segment ∈ first :: segments, '/' ∉ segment.toList := fun segment hSegment =>
    Text.notMem_of_mem_parts (hParts ▸ hSegment)
  simp only [hParts] at h
  rcases List.eq_nil_or_concat (trimmed segments) with hNone | ⟨start, last, hTrimmed⟩
  · rw [hNone] at h
    simp only at h
    split at h
    · cases h
    · exact absurd (Option.some.inj h).symm hEmpty
  rw [List.concat_eq_append] at hTrimmed
  obtain ⟨idle, hIdle, hAfter⟩ := exists_trimmed segments
  obtain ⟨more, hMore, hBefore⟩ := exists_trimmed start
  have hSegments : segments = trimmed start ++ (more ++ last :: idle) := by
    calc segments = start ++ [last] ++ idle := by rw [← hTrimmed]; exact hIdle
      _ = trimmed start ++ more ++ [last] ++ idle := by rw [← hMore]
      _ = _ := by simp
  have hLast := isIdle_of_trimmed hTrimmed
  refine ⟨first, trimmed start, more ++ last :: idle, last, by rw [hSegments], ?_, ?_, ?_⟩
  · have hNone {segments : List String} (hAll : ∀ segment ∈ segments, isIdle segment = true) :
        segments.filter (fun segment => !isIdle segment) = [] := by
      simpa [List.filter_eq_nil_iff] using hAll
    simp [hNone hBefore, hNone hAfter, hLast]
  · rw [fileName?, hParts]
    simp [hTrimmed, hLast]
  have hCut : (start ++ [last]).dropLast = start := List.dropLast_concat
  obtain ⟨second, others, hCons⟩ := List.exists_cons_of_ne_nil (l := start ++ [last]) (by simp)
  rw [hCons] at hTrimmed hCut
  simp only [hTrimmed, hCut] at h
  rcases hInner : trimmed start with _ | ⟨third, deeper⟩
  · simp only [hInner, Option.some.injEq] at h
    by_cases hFirst : first = ""
    · exact .inr ⟨by simpa [hFirst] using h.symm, hFirst, rfl⟩
    · obtain rfl : first = around := by simpa [hFirst] using h
      exact .inl (Text.parts_of_notMem (hSlash first List.mem_cons_self))
  · simp only [hInner, Option.some.injEq] at h
    rw [← h]
    refine .inl (parts_intercalate (by simp) fun segment hSegment => hSlash segment ?_)
    rw [hSegments, hInner]
    rcases List.mem_cons.mp hSegment with rfl | hMem
    · exact List.mem_cons_self
    · exact List.mem_cons_of_mem _ (List.mem_append_left _ hMem)

/-- A path begins at the root just if it has an empty segment before others. -/
theorem isAbsolute_iff : path.isAbsolute = true ↔
    ∃ segment rest, Text.parts '/' path = "" :: segment :: rest := by
  rw [isAbsolute, Text.parts]
  rcases path.toList with _ | ⟨c, chars⟩
  · simp [Text.split]
  · obtain ⟨first, others, hRest⟩ := List.exists_cons_of_ne_nil (Text.split_ne_nil '/' chars)
    by_cases hSlash : c = '/'
    · simp [Text.split, hSlash, hRest]
    · simp [Text.split, hSlash, hRest]

/-- A path begins as another one does: they start at one place, and the segments and the steps of the
one are the first of those of the other. -/
structure Around (around path : Path) : Prop where
  start : around.isAbsolute = path.isAbsolute
  components : ∃ rest, path.components = around.components ++ rest
  steps : around.steps <+: path.steps

theorem Around.refl (path : Path) : Around path path :=
  ⟨rfl, ⟨[], by simp⟩, List.prefix_refl _⟩

theorem Around.trans (h : Around other around) (hNext : Around around path) : Around other path := by
  obtain ⟨inner, hInner⟩ := h.components
  obtain ⟨rest, hRest⟩ := hNext.components
  refine ⟨h.start.trans hNext.start, ⟨inner ++ rest, ?_⟩, h.steps.trans hNext.steps⟩
  rw [hRest, hInner, List.append_assoc]

/-- At least one segment that leads somewhere follows those of the path around. -/
theorem components_of_parent? (h : parent? path = some around) (hEmpty : around ≠ "") :
    ∃ rest, path.components = around.components ++ rest ∧ rest ≠ [] := by
  obtain ⟨first, inner, rest, last, hPath, hLast, -, hAround⟩ := parent?_parts h hEmpty
  obtain ⟨hMem, hIdle⟩ := List.mem_filter.mp (hLast ▸ List.mem_singleton_self last)
  rw [Bool.not_eq_true'] at hIdle
  have hKept : last ∈ rest.filter fun segment => !segment.isEmpty :=
    List.mem_filter.mpr ⟨hMem, by simp [(Bool.or_eq_false_iff.mp hIdle).1]⟩
  refine ⟨rest.filter fun segment => !segment.isEmpty, ?_, List.ne_nil_of_mem hKept⟩
  rw [components, hPath]
  rcases hAround with hAround | ⟨rfl, rfl, rfl⟩
  · rw [components, hAround, ← List.cons_append, List.filter_append]
  · rfl

/-- The path around a path is the start of its text. -/
theorem eq_append_of_parent? (h : parent? path = some around) (hEmpty : around ≠ "") :
    ∃ rest, path = around ++ rest := by
  obtain ⟨first, inner, rest, last, hPath, hLast, -, hAround⟩ := parent?_parts h hEmpty
  have hRest : Text.parts '/' (String.intercalate "/" rest) = rest := by
    refine parts_intercalate (fun hNone => by simp [hNone] at hLast) fun segment hSegment => ?_
    have hMem : segment ∈ first :: (inner ++ rest) := by simp [hSegment]
    exact Text.notMem_of_mem_parts (hPath ▸ hMem)
  have hText (start : Path) (hStart : Text.parts '/' start = first :: inner) :
      path = start ++ "/" ++ String.intercalate "/" rest := by
    have hParts : Text.parts '/' path = Text.parts '/' (start ++ "/" ++ String.intercalate "/" rest) := by
      rw [hPath]
      show _ = Text.parts '/' (start ++ String.singleton '/' ++ _)
      rw [Text.parts_append, hStart, hRest, List.cons_append]
    rw [← Text.intercalate_parts '/' path, hParts, Text.intercalate_parts]
  rcases hAround with hAround | ⟨rfl, rfl, rfl⟩
  · exact ⟨_, by rw [hText around hAround, String.append_assoc]⟩
  · exact ⟨_, hText "" (by decide)⟩

theorem isAbsolute_of_parent? (h : parent? path = some around) (hEmpty : around ≠ "") :
    around.isAbsolute = path.isAbsolute := by
  obtain ⟨first, inner, rest, last, hPath, hLast, -, hAround⟩ := parent?_parts h hEmpty
  obtain ⟨next, more, rfl⟩ : ∃ next more, rest = next :: more :=
    List.exists_cons_of_ne_nil fun hNone => by simp [hNone] at hLast
  rcases hAround with hAround | ⟨rfl, rfl, rfl⟩
  · rw [Bool.eq_iff_iff, isAbsolute_iff, isAbsolute_iff, hAround, hPath]
    rcases inner with _ | ⟨second, others⟩
    · have hFirst : first ≠ "" := by
        rintro rfl
        have hText := Text.intercalate_parts '/' around
        rw [hAround] at hText
        exact hEmpty (by simpa using hText.symm)
      simp [hFirst]
    · simp
  · rw [show path.isAbsolute = true from isAbsolute_iff.mpr ⟨next, more, hPath⟩]
    decide

/-- A path takes one step more than the path around it, and that is its file name if it has one. -/
theorem steps_of_parent? (h : parent? path = some around) (hEmpty : around ≠ "") :
    ∃ last, path.steps = around.steps ++ [last] ∧
      path.fileName? = if last == ".." then none else some last := by
  have hStart := isAbsolute_of_parent? h hEmpty
  obtain ⟨first, inner, rest, last, hPath, hLast, hName, hAround⟩ := parent?_parts h hEmpty
  refine ⟨last, ?_, hName⟩
  rcases hAround with hAround | ⟨rfl, rfl, rfl⟩
  · rw [steps, steps, hPath, hAround, hStart]
    simp only [List.filter_append, hLast, List.append_assoc]
  · rw [steps, hPath, ← hStart]
    have hRoot : Path.isAbsolute "/" = true ∧ Path.steps "/" = ["/"] := by decide
    simp only [List.nil_append, hLast, hRoot, if_true]

theorem around_of_parent? (h : parent? path = some around) (hEmpty : around ≠ "") :
    Around around path := by
  obtain ⟨last, hSteps, -⟩ := steps_of_parent? h hEmpty
  exact ⟨isAbsolute_of_parent? h hEmpty,
    (components_of_parent? h hEmpty).imp fun _ hRest => hRest.1, ⟨[last], hSteps.symm⟩⟩

theorem ancestors_eq_cons (path : Path) : ∃ outer, path.ancestors = path :: outer := by
  rw [ancestors]
  rcases path.length with _ | count
  · exact ⟨[], rfl⟩
  · rw [ancestorsWithin]
    rcases path.parent? with _ | parent
    · exact ⟨[], rfl⟩
    · exact ⟨_, rfl⟩

theorem parent?_empty : parent? "" = none := by decide

/-- A path begins as all the paths around it do, but for the empty one. -/
theorem around_of_mem_ancestors (h : around ∈ path.ancestors) (hEmpty : around ≠ "") :
    Around around path := by
  rw [ancestors] at h
  generalize path.length = count at h
  induction count generalizing path with
  | zero =>
    obtain rfl := List.mem_singleton.mp h
    exact .refl _
  | succ count ih =>
    rw [ancestorsWithin] at h
    rcases hParent : path.parent? with _ | parent
    · rw [hParent] at h
      obtain rfl := List.mem_singleton.mp h
      exact .refl _
    · rw [hParent] at h
      rcases List.mem_cons.mp h with rfl | hOuter
      · exact .refl _
      · have hInner := ih hOuter
        have hSome : parent ≠ "" := by
          rintro rfl
          rcases count with _ | count
          · exact hEmpty (List.mem_singleton.mp hOuter)
          · rw [ancestorsWithin, parent?_empty] at hOuter
            exact hEmpty (List.mem_singleton.mp hOuter)
        exact hInner.trans (around_of_parent? hParent hSome)

theorem steps_of_mem_ancestors (h : around ∈ path.ancestors) : around.steps <+: path.steps := by
  by_cases hEmpty : around = ""
  · rw [hEmpty, show Path.steps "" = [] by decide]
    exact List.nil_prefix
  · exact (around_of_mem_ancestors h hEmpty).steps

/-- A name that is joined to a path is one step more. -/
theorem steps_join (path : Path) {name : String} (hSlash : '/' ∉ name.toList)
    (hName : isIdle name = false) : (Path.join path name).steps = path.steps ++ [name] := by
  have hRelative := isAbsolute_of_noSlash hSlash
  have hAbsolute : (Path.join path name).isAbsolute = path.isAbsolute := isAbsolute_join hRelative
  -- Unless the path is empty its parts come first; after a slash at its end an empty one is left out.
  have hGiven {first : String} {rest : List String} (idle : List String)
      (hPath : Text.parts '/' path = first :: (rest ++ idle))
      (hIdle : ∀ segment ∈ idle, isIdle segment = true)
      (hJoin : Text.parts '/' (Path.join path name) = first :: (rest ++ [name])) :
      (Path.join path name).steps = path.steps ++ [name] := by
    have hNone : idle.filter (fun segment => !isIdle segment) = [] := by
      simpa [List.filter_eq_nil_iff] using hIdle
    rw [steps, steps, hPath, hJoin, hAbsolute]
    simp [hNone, hName]
  by_cases hEmpty : path = ""
  · subst hEmpty
    have hSame : Path.join "" name = name := by simp [Path.join, hRelative]
    have hKept : name.isEmpty = false := (Bool.or_eq_false_iff.mp hName).1
    rw [hSame, steps, Text.parts_of_notMem hSlash]
    simp [hRelative, hKept, show Path.steps "" = [] by decide]
  by_cases hEnds : path.endsWithSlash
  · obtain ⟨before, rfl⟩ := eq_append_of_endsWithSlash hEnds
    have hJoin : Path.join (before ++ "/") name = before ++ "/" ++ name := by
      rw [join_eq hRelative, joint, hEnds]
      simp
    obtain ⟨first, rest, hParts⟩ : ∃ first rest, Text.parts '/' before = first :: rest :=
      List.exists_cons_of_ne_nil fun hNone =>
        Text.split_ne_nil '/' before.toList (List.map_eq_nil_iff.mp hNone)
    have hPath : Text.parts '/' (before ++ "/" ++ "") = Text.parts '/' before ++ [""] :=
      parts_append_name before (by simp)
    rw [String.append_empty, hParts] at hPath
    refine hGiven [""] hPath (by simp [isIdle]) ?_
    rw [hJoin, parts_append_name before hSlash, hParts, List.cons_append]
  · have hJoin : Path.join path name = path ++ "/" ++ name := by
      rw [join_eq hRelative, joint]
      simp [hEmpty, hEnds]
    obtain ⟨first, rest, hParts⟩ : ∃ first rest, Text.parts '/' path = first :: rest :=
      List.exists_cons_of_ne_nil fun hNone =>
        Text.split_ne_nil '/' path.toList (List.map_eq_nil_iff.mp hNone)
    refine hGiven [] (by rw [hParts, List.append_nil]) (by simp) ?_
    rw [hJoin, parts_append_name path hSlash, hParts, List.cons_append]

end EntityGen.Files.Path
