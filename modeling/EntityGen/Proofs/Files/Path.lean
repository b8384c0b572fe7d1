import EntityGen.Files.Walk
import EntityGen.Proofs.Files.Tree
import EntityGen.Proofs.Text.Split

/-! Joined paths. What is joined to a path is seen from where that path leads: the segments follow
each other, and the start stays the same. -/

namespace EntityGen.Files

namespace Path

theorem isAbsolute_of_noSlash {name : String} (h : '/' ∉ name.toList) :
    Path.isAbsolute name = false := by
  rw [isAbsolute]
  rcases hChars : name.toList with _ | ⟨c, rest⟩
  · rfl
  · rw [hChars, List.mem_cons, not_or] at h
    simpa using Ne.symm h.1

theorem endsWithSlash_of_noSlash {name : String} (h : '/' ∉ name.toList) :
    Path.endsWithSlash name = false := by
  rw [endsWithSlash, Bool.eq_false_iff]
  intro hLast
  exact h (List.mem_of_getLast? (by simpa using hLast))

theorem components_of_noSlash {name : String} (h : '/' ∉ name.toList) (hEmpty : name ≠ "") :
    Path.components name = [name] := by
  rw [components, Text.parts_of_notMem h]
  simp [hEmpty]

theorem of_mem_components {path : Path} {name : String} (h : name ∈ path.components) :
    name ≠ "" ∧ '/' ∉ name.toList := by
  obtain ⟨hPart, hEmpty⟩ := List.mem_filter.mp h
  exact ⟨by simpa using hEmpty, Text.notMem_of_mem_parts hPart⟩

theorem components_empty : Path.components "" = [] := by decide

/-- What stands before the second of two joined paths. -/
def joint (left : Path) : String :=
  if left.isEmpty || left.endsWithSlash then left else left ++ "/"

theorem join_eq {left right : Path} (h : right.isAbsolute = false) :
    Path.join left right = joint left ++ right := by
  rw [join, joint, h, if_neg (by simp)]
  split <;> rfl

/-- Joined paths have the characters of both, and slashes. -/
theorem mem_join {left right : Path} (h : right.isAbsolute = false) {c : Char} (hSlash : c ≠ '/') :
    c ∈ (Path.join left right).toList ↔ c ∈ left.toList ∨ c ∈ right.toList := by
  rw [join_eq h, joint]
  split <;> simp [hSlash]

theorem join_ne_empty {left right : Path} (h : right ≠ "") : Path.join left right ≠ "" := by
  rw [join]
  intro hJoin
  split at hJoin
  · exact h hJoin
  · split at hJoin <;> simp [String.append_eq_empty_iff, h] at hJoin

theorem eq_append_of_endsWithSlash {path : Path} (h : path.endsWithSlash = true) :
    ∃ start : String, path = start ++ "/" := by
  obtain ⟨start, hStart⟩ := List.getLast?_eq_some_iff.mp
    (show path.toList.getLast? = some '/' by simpa [endsWithSlash] using h)
  refine ⟨String.ofList start, ?_⟩
  rw [← String.toList_inj]
  simpa using hStart

/-- The segments of joined paths follow each other. -/
theorem components_join {left right : Path} (h : right.isAbsolute = false) :
    (Path.join left right).components = left.components ++ right.components := by
  have hSlash (a b : String) : components (a ++ "/" ++ b) = components a ++ components b := by
    rw [components, show "/" = String.singleton '/' from rfl, Text.parts_append, List.filter_append]
    rfl
  rw [join_eq h, joint]
  by_cases hEmpty : left = ""
  · simp [hEmpty, components_empty]
  by_cases hEnds : left.endsWithSlash
  · rw [if_pos (by simp [hEnds])]
    obtain ⟨start, rfl⟩ := eq_append_of_endsWithSlash hEnds
    rw [hSlash, ← String.append_empty (s := start ++ "/"), hSlash, components_empty,
      List.append_nil]
  · rw [if_neg (by simp [hEmpty, hEnds]), hSlash]

theorem isAbsolute_join {left right : Path} (h : right.isAbsolute = false) :
    (Path.join left right).isAbsolute = left.isAbsolute := by
  rw [join_eq h, joint]
  by_cases hEmpty : left = ""
  · simp [hEmpty, h, show Path.isAbsolute "" = false from rfl]
  · obtain ⟨c, rest, hLeft⟩ : ∃ c rest, left.toList = c :: rest :=
      List.exists_cons_of_ne_nil (by simpa using hEmpty)
    rw [isAbsolute, isAbsolute, hLeft]
    split <;> simp [hLeft]

theorem endsWithSlash_join {left right : Path} (h : right.isAbsolute = false) (hEmpty : right ≠ "") :
    (Path.join left right).endsWithSlash = right.endsWithSlash := by
  have hRight : right.toList ≠ [] := by simpa using hEmpty
  rw [join_eq h, endsWithSlash, endsWithSlash, String.toList_append,
    List.getLast?_append_of_ne_nil _ hRight]

theorem joint_join (path : Path) {name : String} (h : '/' ∉ name.toList) (hEmpty : name ≠ "") :
    joint (Path.join path name) = Path.join path name ++ "/" := by
  rw [joint, endsWithSlash_join (isAbsolute_of_noSlash h) hEmpty, endsWithSlash_of_noSlash h,
    if_neg (by simpa using join_ne_empty hEmpty)]

theorem pathFault?_eq_none_iff {path : Path} :
    FileTree.pathFault? path = none ↔
      '\x00' ∉ path.toList ∧ path ≠ "" ∧ path.utf8ByteSize ≤ maxPathSize := by
  rw [FileTree.pathFault?]
  by_cases hZero : '\x00' ∈ path.toList
  · simp [hZero]
  by_cases hEmpty : path = ""
  · simp [hEmpty]
  by_cases hSize : maxPathSize < path.utf8ByteSize
  · simp [hZero, hEmpty, hSize]
  · simp [hZero, hEmpty, hSize, Nat.not_lt.mp hSize]

/-- What is no path stays none when something follows it. -/
theorem pathFault?_of_append {left rest : Path} (hLeft : left ≠ "")
    (h : FileTree.pathFault? (left ++ rest) = none) : FileTree.pathFault? left = none := by
  obtain ⟨hZero, -, hSize⟩ := pathFault?_eq_none_iff.mp h
  refine pathFault?_eq_none_iff.mpr ⟨fun hMem => hZero (by simp [hMem]), hLeft, ?_⟩
  rw [String.utf8ByteSize_append] at hSize
  omega

theorem pathFault?_of_join {left right : Path} (h : right.isAbsolute = false) (hLeft : left ≠ "")
    (hJoin : FileTree.pathFault? (Path.join left right) = none) :
    FileTree.pathFault? left = none := by
  have hPart : ∃ rest, joint left = left ++ rest := by
    rw [joint]
    split
    · exact ⟨"", by simp⟩
    · exact ⟨"/", rfl⟩
  obtain ⟨rest, hPart⟩ := hPart
  rw [join_eq h, hPart, String.append_assoc] at hJoin
  exact pathFault?_of_append hLeft hJoin

/-! ### The path around a path -/

theorem trimmed_concat (segments : List String) {last : String} (h : isIdle last = false) :
    trimmed (segments ++ [last]) = segments ++ [last] := by
  simp [trimmed, h]

theorem parts_append_name (left : Path) {name : String} (h : '/' ∉ name.toList) :
    Text.parts '/' (left ++ "/" ++ name) = Text.parts '/' left ++ [name] := by
  rw [show "/" = String.singleton '/' from rfl, Text.parts_append, Text.parts_of_notMem h]

/-- The path around a path with a name at its end is what stands before the slash, if that ends in a
segment that counts. -/
theorem parent?_append_name {left : Path} {name last : String} (hSlash : '/' ∉ name.toList)
    (hName : isIdle name = false) (hParts : (Text.parts '/' left).getLast? = some last)
    (hLast : isIdle last = false) : parent? (left ++ "/" ++ name) = some left := by
  have hLeft := Text.intercalate_parts '/' left
  rw [parent?, parts_append_name left hSlash]
  obtain ⟨start, hStart⟩ := List.getLast?_eq_some_iff.mp hParts
  rw [hStart] at hLeft ⊢
  rcases start with _ | ⟨first, rest⟩
  · obtain rfl : last = left := by simpa using hLeft
    have hEmpty : last.isEmpty = false := by
      simpa [isIdle] using (Bool.or_eq_false_iff.mp hLast).1
    simp [trimmed, hName, hEmpty]
  · obtain ⟨second, others, hRest⟩ : ∃ second others, rest ++ [last] = second :: others :=
      List.exists_cons_of_ne_nil (by simp)
    have hInner : trimmed (rest ++ [last]) = second :: others := by
      rw [trimmed_concat rest hLast, hRest]
    have hOuter : trimmed (rest ++ [last] ++ [name]) = second :: (others ++ [name]) := by
      rw [trimmed_concat _ hName, hRest, List.cons_append]
    have hBefore : trimmed (second :: (others ++ [name])).dropLast = second :: others := by
      rw [← List.cons_append, List.dropLast_concat, ← hRest, hInner, hRest]
    simp only [List.cons_append, hOuter, hBefore]
    rw [← hRest]
    exact congrArg some hLeft

theorem parts_joint (left : Path) {name : String} (h : '/' ∉ name.toList) :
    (Text.parts '/' (joint left ++ name)).getLast? = some name := by
  rw [joint]
  by_cases hEmpty : left = ""
  · simp [hEmpty, Text.parts_of_notMem h]
  by_cases hEnds : left.endsWithSlash
  · obtain ⟨start, hLeft⟩ := eq_append_of_endsWithSlash hEnds
    rw [if_pos (by simp [hEnds]), hLeft, parts_append_name _ h]
    simp
  · rw [if_neg (by simp [hEmpty, hEnds]), parts_append_name _ h]
    simp

/-- The path around a name joined to a name is what that was joined to. -/
theorem parent?_join_join (path : Path) {name file : String} (hName : '/' ∉ name.toList)
    (hNameIdle : isIdle name = false) (hFile : '/' ∉ file.toList)
    (hFileIdle : isIdle file = false) :
    parent? (Path.join (Path.join path name) file) = some (Path.join path name) := by
  have hEmpty : name ≠ "" := by
    rintro rfl
    cases hNameIdle
  have hLast := parts_joint path hName
  rw [← join_eq (isAbsolute_of_noSlash hName)] at hLast
  rw [join_eq (isAbsolute_of_noSlash hFile), joint_join path hName hEmpty]
  exact parent?_append_name hFile hFileIdle hLast hNameIdle

end Path

end EntityGen.Files
