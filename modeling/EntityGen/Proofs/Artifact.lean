import EntityGen.Artifact
import EntityGen.Proofs.Files.Path
import EntityGen.Proofs.Naming

/-! Names and paths of generated files. The path of a file tells the stem of its model and its kind,
and nothing more of the model. -/

namespace EntityGen

open Files (IsName Path)

namespace ArtifactKind

variable {kind : ArtifactKind} {stem : String}

/-- What stands behind the stem in the name of a file of a kind. -/
def ending (kind : ArtifactKind) : String := "." ++ kind.suffix ++ ".ts"

theorem fileName_eq (kind : ArtifactKind) (stem : String) :
    kind.fileName stem = stem ++ kind.ending := by
  rw [fileName, ending, String.append_assoc, String.append_assoc, String.append_assoc]

theorem fileName_noSlash (kind : ArtifactKind) (h : '/' ∉ stem.toList) :
    '/' ∉ (kind.fileName stem).toList := by
  rw [fileName_eq, String.toList_append, List.mem_append, not_or]
  exact ⟨h, by cases kind <;> decide⟩

theorem fileName_ne {text : String} (h : text.toList.length ≤ 2) : kind.fileName stem ≠ text := by
  rintro rfl
  have hEnding : 2 < kind.ending.toList.length := by cases kind <;> decide
  rw [fileName_eq, String.toList_append, List.length_append] at h
  omega

theorem ending_injective {kind other : ArtifactKind} (h : kind.ending = other.ending) :
    kind = other := by
  revert h
  cases kind <;> cases other <;> decide

theorem fileName_injective {kind other : ArtifactKind}
    (h : kind.fileName stem = other.fileName stem) : kind = other := by
  rw [fileName_eq, fileName_eq] at h
  exact ending_injective ((String.append_right_inj _).mp h)

end ArtifactKind

theorem Artifact.ofModel_path (directory : Path) (kind : ArtifactKind) (model : String) :
    (ofModel directory kind model).path = artifactPath directory kind model := by
  rw [ofModel]

variable {directory : Path} {kind other : ArtifactKind} {name second : String}

theorem artifactPath_toList (h : isModelName name = true) :
    (artifactPath directory kind name).toList = directory.joint.toList ++
      ((Naming.stem name).toList ++ '/' :: ((Naming.stem name).toList ++ kind.ending.toList)) := by
  have hSlash := Naming.stem_noSlash h
  have hEmpty := Naming.stem_ne_empty (Naming.isModelName_ne_empty h)
  rw [artifactPath, Path.join_eq (Path.isAbsolute_of_noSlash (ArtifactKind.fileName_noSlash _ hSlash)),
    Path.joint_join directory hSlash hEmpty, Path.join_eq (Path.isAbsolute_of_noSlash hSlash),
    ArtifactKind.fileName_eq]
  simp

/-- Two files have one path just if they are of one kind and their models have one stem. -/
theorem artifactPath_eq_iff (hName : isModelName name = true) (hSecond : isModelName second = true) :
    artifactPath directory kind name = artifactPath directory other second ↔
      Naming.stem name = Naming.stem second ∧ kind = other := by
  constructor
  · intro h
    have hChars := congrArg String.toList h
    rw [artifactPath_toList hName, artifactPath_toList hSecond, List.append_cancel_left_eq] at hChars
    have hParts := congrArg (Text.split '/') hChars
    rw [Text.split_append, Text.split_append, Text.split_of_notMem (Naming.stem_noSlash hName),
      Text.split_of_notMem (Naming.stem_noSlash hSecond)] at hParts
    have hStem : Naming.stem name = Naming.stem second :=
      String.toList_inj.mp (List.cons.inj hParts).1
    refine ⟨hStem, ArtifactKind.ending_injective (String.toList_inj.mp ?_)⟩
    rw [hStem, List.append_cancel_left_eq, List.cons.injEq, List.append_cancel_left_eq] at hChars
    exact hChars.2
  · rintro ⟨hStem, rfl⟩
    rw [artifactPath, hStem, artifactPath]

section Segments

variable (directory kind) (h : isModelName name = true)
include h

theorem stem_relative : Path.isAbsolute (Naming.stem name) = false :=
  Path.isAbsolute_of_noSlash (Naming.stem_noSlash h)

theorem fileName_relative : Path.isAbsolute (kind.fileName (Naming.stem name)) = false :=
  Path.isAbsolute_of_noSlash (ArtifactKind.fileName_noSlash kind (Naming.stem_noSlash h))

/-- The segments of a file's path are those of the mappers directory, the stem and the file's name. -/
theorem components_artifactPath : (artifactPath directory kind name).components =
    directory.components ++ [Naming.stem name, kind.fileName (Naming.stem name)] := by
  have hSlash := Naming.stem_noSlash h
  rw [artifactPath, Path.components_join (fileName_relative kind h),
    Path.components_join (stem_relative h),
    Path.components_of_noSlash hSlash (Naming.stem_ne_empty (Naming.isModelName_ne_empty h)),
    Path.components_of_noSlash (ArtifactKind.fileName_noSlash kind hSlash)
      (ArtifactKind.fileName_ne (by decide))]
  simp

theorem isAbsolute_artifactPath :
    (artifactPath directory kind name).isAbsolute = directory.isAbsolute := by
  rw [artifactPath, Path.isAbsolute_join (fileName_relative kind h),
    Path.isAbsolute_join (stem_relative h)]

theorem endsWithSlash_artifactPath : (artifactPath directory kind name).endsWithSlash = false := by
  rw [artifactPath, Path.endsWithSlash_join (fileName_relative kind h)
    (ArtifactKind.fileName_ne (by decide))]
  exact Path.endsWithSlash_of_noSlash
    (ArtifactKind.fileName_noSlash kind (Naming.stem_noSlash h))

omit h in
theorem isIdle_fileName {stem : String} : Path.isIdle (kind.fileName stem) = false := by
  have hEmpty : kind.fileName stem ≠ "" := ArtifactKind.fileName_ne (by decide)
  have hHere : kind.fileName stem ≠ "." := ArtifactKind.fileName_ne (by decide)
  simp [Path.isIdle, hEmpty, hHere]

theorem isIdle_stem : Path.isIdle (Naming.stem name) = false := by
  simp [Path.isIdle, Naming.stem_ne_empty (Naming.isModelName_ne_empty h),
    (Naming.stem_ne_point h).1]

/-- Around a file's path is that of its model's directory. -/
theorem parent?_artifactPath :
    (artifactPath directory kind name).parent? = some (Path.join directory (Naming.stem name)) := by
  have hSlash := Naming.stem_noSlash h
  exact Path.parent?_join_join directory hSlash (isIdle_stem h)
    (ArtifactKind.fileName_noSlash kind hSlash) (isIdle_fileName kind)

theorem pathFault?_of_artifactPath (hDirectory : directory ≠ "")
    (hPath : Files.FileTree.pathFault? (artifactPath directory kind name) = none) :
    Files.FileTree.pathFault? directory = none :=
  Path.pathFault?_of_join (stem_relative h) hDirectory
    (Path.pathFault?_of_join (fileName_relative kind h)
      (Path.join_ne_empty (Naming.stem_ne_empty (Naming.isModelName_ne_empty h))) hPath)

end Segments

end EntityGen
