import EntityGen.Proofs.Generation.Filling

/-! What lingers in the mappers directory: directories that no model of the schema has, or rulesets
in directories that no model of the forms has. Bringing the directories into line leaves nothing of
that kind where it succeeds, but for rulesets that are out of reach, and what lingers after
directories of models were filled lingered before. -/

namespace EntityGen

open Files (FileTree IsSegment Location Path)

/-- In the mappers directory there is a directory that no model of a document has, for forms with a
ruleset in it. -/
structure DocumentKind.Lingers (kind : DocumentKind) (location : Location)
    (canonical : List String) (tree : FileTree) (name : String) : Prop where
  stale : tree.IsStale location canonical name
  ruleset : kind = .forms → ∃ content,
    tree.node? (location ++ [name, ArtifactKind.ruleset.fileName name]) = some (.file content)

/-- The path by which a run looks for the ruleset in a directory of the mappers directory leads to no
file: it is longer than a path may be, or has a zero character in it, as no name on a disk has. -/
def DocumentKind.OutOfReach (kind : DocumentKind) (directory : Path) (name : String) : Prop :=
  kind = .forms ∧
    (Files.maxPathSize < (Path.join (Path.join directory name)
        (ArtifactKind.ruleset.fileName name)).utf8ByteSize ∨ '\x00' ∈ name.toList)

/-- The path of the mappers directory leads straight to it, and after a success nothing lingers but
what did before and is out of reach. -/
structure DocumentKind.Mirrors {α : Type} (kind : DocumentKind) (directory : Path)
    (location : Location) (canonical : List String) (result : Except Fault α)
    (before after : FileTree) : Prop where
  straight : after.Straight directory location
  lingering : ∀ a, result = .ok a → ∀ name, kind.Lingers location canonical after name ↔
    kind.Lingers location canonical before name ∧ kind.OutOfReach directory name

variable {kind : DocumentKind} {directory : Path} {location : Location} {canonical : List String}
  {before made after : FileTree} {name : String}

namespace DocumentKind

theorem not_outOfReach_schema : ¬ DocumentKind.schema.OutOfReach directory name :=
  fun h => nomatch h.1

theorem pathFault?_ruleset_iff (hDirectory : '\x00' ∉ directory.toList) (hName : IsSegment name) :
    FileTree.pathFault? (Path.join (Path.join directory name) (ArtifactKind.ruleset.fileName name)) =
      none ↔ ¬ DocumentKind.forms.OutOfReach directory name := by
  have hRuleset := ArtifactKind.ruleset.isSegment_fileName hName.noSlash
  have hZero : '\x00' ∈ (ArtifactKind.ruleset.fileName name).toList ↔ '\x00' ∈ name.toList := by
    simp [ArtifactKind.fileName, ArtifactKind.suffix]
  rw [Path.pathFault?_eq_none_iff, Path.mem_join (Path.isAbsolute_of_noSlash hRuleset.noSlash)
    (by decide), Path.mem_join (Path.isAbsolute_of_noSlash hName.noSlash) (by decide), hZero]
  simp only [OutOfReach, hDirectory, Path.join_ne_empty hRuleset.notEmpty, false_or, or_self,
    true_and, not_or, Nat.not_lt, ne_eq, not_false_eq_true]
  exact and_comm

/-- A ruleset in a directory of the mappers directory is found just if it is there and not out of
reach. -/
theorem hasFile_ruleset_iff (h : before.Anchored directory location)
    (hFound : before.node? (location ++ [name]) = some .directory) :
    before.hasFile (Path.join (Path.join directory name) (ArtifactKind.ruleset.fileName name)) =
        true ↔
      ¬ DocumentKind.forms.OutOfReach directory name ∧ ∃ content,
        before.node? (location ++ [name, ArtifactKind.ruleset.fileName name]) =
          some (.file content) := by
  have hName := (h.proper.names_of_node? hFound name (by simp)).isSegment
  have hDirectory := (Path.pathFault?_eq_none_iff.mp
    (Files.FileTree.locate_eq_ok_iff.mp h.leads.locate).1).1
  rw [h.hasFile_iff hFound (ArtifactKind.ruleset.isSegment_fileName hName.noSlash),
    pathFault?_ruleset_iff hDirectory hName]

theorem Lingers.of_within (hWithin : after.Within before)
    (h : kind.Lingers location canonical after name) :
    kind.Lingers location canonical before name where
  stale := ⟨hWithin.directory h.stale.found, h.stale.ofModel, h.stale.gone⟩
  ruleset := fun hKind => by
    obtain ⟨content, hFile⟩ := h.ruleset hKind
    exact hWithin.file hFile

/-- After directories of models were filled the same lingers as before. -/
theorem Lingers.fills_iff (hAnchored : before.Anchored directory location)
    (hFills : FileTree.Fills directory location canonical before after) :
    kind.Lingers location canonical after name ↔ kind.Lingers location canonical before name := by
  have hSame (hGone : name ∉ canonical) (below : Location) :
      after.node? (location ++ name :: below) = before.node? (location ++ name :: below) :=
    (hFills hAnchored).2.outside hGone below
  constructor
  · rintro ⟨⟨hFound, hOfModel, hGone⟩, hRuleset⟩
    rw [hSame hGone] at hFound hRuleset
    exact ⟨⟨hFound, hOfModel, hGone⟩, hRuleset⟩
  · rintro ⟨⟨hFound, hOfModel, hGone⟩, hRuleset⟩
    rw [← hSame hGone] at hFound hRuleset
    exact ⟨⟨hFound, hOfModel, hGone⟩, hRuleset⟩

theorem Mirrors.fills {α β : Type} {result : Except Fault α} {next : Except Fault β}
    (h : kind.Mirrors directory location canonical result before made)
    (hFills : FileTree.Fills directory location canonical made after)
    (hNext : ∀ b, next = .ok b → ∃ a, result = .ok a) :
    kind.Mirrors directory location canonical next before after where
  straight := hFills.straight h.straight
  lingering := fun b hOk name => by
    obtain ⟨a, hResult⟩ := hNext b hOk
    rw [Lingers.fills_iff h.straight.anchored hFills]
    exact h.lingering a hResult name

/-- Nothing around the mappers directory is taken away with what is stale in it. -/
theorem loses_of_prefix {names : List String} {around : Location} (h : around <+: location) :
    kind.loses location names around = false := by
  have hLength := h.length_le
  rw [loses, List.any_eq_false]
  intro name _
  cases kind with
  | schema =>
    rw [List.isPrefixOf_iff_prefix]
    intro hPrefix
    have hLonger := hPrefix.length_le
    rw [List.length_append, List.length_singleton] at hLonger
    omega
  | forms =>
    rw [beq_iff_eq]
    rintro rfl
    rw [List.length_append, List.length_cons] at hLength
    omega

theorem loses_forms {removed : List String} {place : Location} :
    DocumentKind.forms.loses location removed place = true ↔
      ∃ name ∈ removed, place = location ++ [name, ArtifactKind.ruleset.fileName name] := by
  simp [loses, List.any_eq_true]

theorem loses_forms_ruleset {removed : List String} : DocumentKind.forms.loses location removed
    (location ++ [name, ArtifactKind.ruleset.fileName name]) = true ↔ name ∈ removed := by
  rw [loses_forms]
  constructor
  · rintro ⟨other, hOther, hPlace⟩
    exact (List.cons.inj (List.append_cancel_left hPlace)).1 ▸ hOther
  · intro hName
    exact ⟨name, hName, rfl⟩

/-- The directory of a model is none of its rulesets. -/
theorem loses_forms_dir {removed : List String} :
    DocumentKind.forms.loses location removed (location ++ [name]) = false := by
  rw [Bool.eq_false_iff]
  intro hLost
  obtain ⟨other, -, hPlace⟩ := loses_forms.mp hLost
  cases List.append_cancel_left hPlace

end DocumentKind

/-- The rulesets that linger and are not out of reach were taken away, and nothing else changed. -/
structure Cleared (directory : Path) (location : Location) (canonical removed : List String)
    (before after : FileTree) : Prop where
  lingering : ∀ name, name ∈ removed ↔ DocumentKind.forms.Lingers location canonical before name ∧
    ¬ DocumentKind.forms.OutOfReach directory name
  sheds : before.Sheds after
  tree : after = before.without (DocumentKind.forms.loses location removed)

namespace Cleared

variable {removed : List String} (h : Cleared directory location canonical removed before after)
include h

theorem node? (place : Location) : after.node? place =
    if DocumentKind.forms.loses location removed place then none else before.node? place := by
  rw [h.tree, FileTree.node?_without (DocumentKind.loses_root _)]

/-- The names of the rulesets that were there and are not any more. -/
theorem mem_iff : name ∈ removed ↔ ∃ content,
    before.node? (location ++ [name, ArtifactKind.ruleset.fileName name]) = some (.file content) ∧
      after.node? (location ++ [name, ArtifactKind.ruleset.fileName name]) = none := by
  constructor
  · intro hName
    obtain ⟨content, hFile⟩ := ((h.lingering name).mp hName).1.ruleset rfl
    refine ⟨content, hFile, ?_⟩
    rw [h.node?, if_pos (DocumentKind.loses_forms_ruleset.mpr hName)]
  · rintro ⟨content, hFile, hGone⟩
    rw [h.node?, hFile] at hGone
    split at hGone
    · exact DocumentKind.loses_forms_ruleset.mp ‹_›
    · cases hGone

/-- What lingers afterwards did so before, out of reach. -/
theorem lingers_iff : DocumentKind.forms.Lingers location canonical after name ↔
    DocumentKind.forms.Lingers location canonical before name ∧
      DocumentKind.forms.OutOfReach directory name := by
  constructor
  · intro hLingers
    have hBefore := hLingers.of_within h.sheds.loses.within
    refine ⟨hBefore, by_contra fun hReach => ?_⟩
    obtain ⟨content, hFile⟩ := hLingers.ruleset rfl
    have hName := (h.lingering name).mpr ⟨hBefore, hReach⟩
    rw [h.node?, if_pos (DocumentKind.loses_forms_ruleset.mpr hName)] at hFile
    cases hFile
  · rintro ⟨⟨⟨hFound, hOfModel, hGone⟩, hRuleset⟩, hReach⟩
    have hName : name ∉ removed := fun hName => ((h.lingering name).mp hName).2 hReach
    refine ⟨⟨h.sheds.keptDirectory hFound, hOfModel, hGone⟩, fun hKind => ?_⟩
    rw [h.node?, if_neg (mt DocumentKind.loses_forms_ruleset.mp hName)]
    exact hRuleset hKind

end Cleared

namespace Job

variable {workspace last : Workspace}

/-! ### Clearing what is stale -/

/-- The names that a run finds stale in a mappers directory to which a path leads straight. -/
theorem existingModelDirs_straight (canonical : List String)
    (hStraight : workspace.tree.Straight directory location) {result : Except Fault (List String)}
    (h : existingModelDirs directory workspace = (result, last)) :
    last = workspace ∧ ∀ names, result = .ok names →
      ∀ name, name ∈ names.filter (fun name => !canonical.contains name) ↔
        workspace.tree.IsStale location canonical name := by
  obtain ⟨hSame, ⟨fault, rfl⟩ | ⟨other, found, hLeads, rfl, hMem⟩⟩ :=
    existingModelDirs_stale canonical hStraight.proper h
  · exact ⟨hSame, nofun⟩
  · refine ⟨hSame, fun names hNames name => ?_⟩
    obtain rfl := Except.ok.inj hNames
    obtain rfl := hLeads.unique hStraight.leads
    exact hMem name

theorem removeModelDirs_mirrors {names : List String} {result : Except Fault Unit}
    (hStraight : workspace.tree.Straight directory location)
    (hNames : ∀ name, name ∈ names ↔ workspace.tree.IsStale location canonical name)
    (h : removeModelDirs directory names workspace = (result, last)) :
    DocumentKind.schema.Mirrors directory location canonical result workspace.tree last.tree := by
  obtain ⟨done, left, rfl, hTree, hOk⟩ := removeModelDirs_run hStraight.leads
    (fun name hName => IsStale_isName hStraight.proper ((hNames name).mp hName)) (.refl _) h
  have hRoot : DocumentKind.schema.loses location done [] = false := DocumentKind.loses_root done
  rw [hTree]
  refine ⟨hStraight.without hRoot fun _ => DocumentKind.loses_of_prefix, fun _ hResult name =>
    ⟨fun hLingers => ?_, fun h => absurd h.2 DocumentKind.not_outOfReach_schema⟩⟩
  have hFound := hLingers.stale.found
  rw [FileTree.node?_without hRoot] at hFound
  split at hFound
  · cases hFound
  · rename_i hKept
    have hDone := (hNames name).mpr ⟨hFound, hLingers.stale.ofModel, hLingers.stale.gone⟩
    rw [hOk hResult, List.append_nil] at hDone
    exact absurd (List.any_eq_true.mpr ⟨name, hDone, by simp⟩) hKept

/-- Removing a ruleset takes one file away, and then its path leads to none. -/
theorem removeFile_clears (hAnchored : before.Anchored directory location)
    (hFound : before.node? (location ++ [name]) = some .directory)
    (h : before.removeFile
      (Path.join (Path.join directory name) (ArtifactKind.ruleset.fileName name)) = .ok after) :
    after.Anchored directory location ∧ before.Sheds after ∧
      after.hasFile (Path.join (Path.join directory name) (ArtifactKind.ruleset.fileName name)) =
        false := by
  have hName := hAnchored.proper.names_of_node? hFound name (by simp)
  have hRuleset := ArtifactKind.ruleset.isSegment_fileName hName.noSlash
  obtain ⟨removed, hSame, hKind⟩ := FileTree.removeFile_ok h
  have hJoined := FileTree.removeFile_join hAnchored.leads (.refl _) hName hFound h
  have hRoot : DocumentKind.forms.loses location [name] [] = false := DocumentKind.loses_root _
  have hGone : after.node? (location ++ [name, ArtifactKind.ruleset.fileName name]) = none := by
    rw [hJoined, FileTree.node?_without hRoot, if_pos (by simp [DocumentKind.loses])]
  have hSheds : before.Sheds after := by
    refine ⟨by rw [hJoined]; rfl, fun other => ?_⟩
    by_cases hOther : other = location ++ [name, ArtifactKind.ruleset.fileName name]
    · subst hOther
      -- What was removed is no directory, and there are no links below the mappers directory.
      rcases hNode : before.node? (location ++ [name, ArtifactKind.ruleset.fileName name]) with
        _ | _ | content | target
      · exact .inl hGone
      · have hRemoved : location ++ [name, ArtifactKind.ruleset.fileName name] ≠ removed :=
          fun h => hKind (h ▸ hNode)
        have hBelow : (([] : Location) == removed) = false := by
          refine beq_eq_false_iff_ne.mpr ?_
          rintro rfl
          exact hKind rfl
        rw [hSame, FileTree.node?_without hBelow, if_neg (by simpa using hRemoved),
          hNode] at hGone
        cases hGone
      · exact .inr ⟨hGone, content, rfl⟩
      · exact absurd hNode (hAnchored.noLink _ target (by simp))
    · rw [hJoined, FileTree.node?_without hRoot]
      simp [DocumentKind.loses, hOther]
  have hAfter := hAnchored.sheds hSheds (hJoined ▸ hAnchored.proper.without _)
  refine ⟨hAfter, hSheds, ?_⟩
  rw [Bool.eq_false_iff, ne_eq, hAfter.hasFile_iff (hSheds.keptDirectory hFound) hRuleset]
  rintro ⟨-, content, hFile⟩
  rw [hJoined, FileTree.node?_without hRoot] at hFile
  simp [DocumentKind.loses] at hFile

theorem removeFiles_clears {names : List String} {result : Except Fault (List String)}
    (h : removeFiles directory ArtifactKind.ruleset.fileName names workspace = (result, last))
    (hAnchored : workspace.tree.Anchored directory location)
    (hNames : ∀ name ∈ names, workspace.tree.node? (location ++ [name]) = some .directory) :
    last.tree.Anchored directory location ∧ workspace.tree.Sheds last.tree ∧
      ∀ removed, result = .ok removed → ∀ name ∈ names, last.tree.hasFile
        (Path.join (Path.join directory name) (ArtifactKind.ruleset.fileName name)) = false := by
  induction names generalizing workspace result with
  | nil =>
    obtain ⟨-, rfl⟩ := Prod.mk.inj h
    exact ⟨hAnchored, .refl _, by simp⟩
  | cons name rest ih =>
    rw [List.forall_mem_cons] at hNames
    simp only [List.forall_mem_cons]
    rw [removeFiles, bind_run_ok (tree_run workspace)] at h
    split at h
    · rw [bind_run_ok (tree_run workspace)] at h
      rcases hRemoved : workspace.tree.removeFile
          (Path.join (Path.join directory name) (ArtifactKind.ruleset.fileName name)) with
        cause | tree
      · rw [hRemoved, bind_run_error (replaceTree_run_error rfl _ _)] at h
        obtain ⟨rfl, rfl⟩ := Prod.mk.inj h
        exact ⟨hAnchored, .refl _, by simp⟩
      · rw [hRemoved, bind_run_ok (replaceTree_run_ok rfl _ _), bind_run_ok (tell_run _ _)] at h
        obtain ⟨hNext, hSheds, hGone⟩ := removeFile_clears hAnchored hNames.1 hRemoved
        have hFound := fun other hOther => hSheds.keptDirectory (hNames.2 other hOther)
        rcases bind_cases h with ⟨fault, hRest, rfl⟩ | ⟨removed, mid, hRest, hLast⟩
        · obtain ⟨hLast, hInner, -⟩ := ih hRest hNext hFound
          exact ⟨hLast, hSheds.trans hInner, by simp⟩
        · obtain ⟨rfl, rfl⟩ := Prod.mk.inj hLast
          obtain ⟨hLast, hInner, hCleared⟩ := ih hRest hNext hFound
          -- The removals that follow add nothing, so that the file of `name` stays away.
          refine ⟨hLast, hSheds.trans hInner, fun _ _ => ⟨?_, hCleared removed rfl⟩⟩
          rw [Bool.eq_false_iff] at hGone ⊢
          exact fun hFile => hGone (hInner.loses.within.hasFile hFile)
    · rename_i hNone
      obtain ⟨hLast, hInner, hCleared⟩ := ih h hAnchored hNames.2
      refine ⟨hLast, hInner, fun removed hOk => ⟨?_, hCleared removed hOk⟩⟩
      rw [Bool.eq_false_iff]
      exact fun hFile => hNone (hInner.loses.within.hasFile hFile)

/-- A name is reported only if the path of its file led to one. -/
theorem removeFiles_found {fileName : String → String} {names removed : List String}
    (h : removeFiles directory fileName names workspace = (.ok removed, last)) :
    ∀ name ∈ removed, workspace.tree.hasFile
      (Path.join (Path.join directory name) (fileName name)) = true := by
  induction names generalizing workspace removed with
  | nil =>
    obtain ⟨hNone, -⟩ := Prod.mk.inj h
    obtain rfl := Except.ok.inj hNone
    simp
  | cons name rest ih =>
    rw [removeFiles, bind_run_ok (tree_run workspace)] at h
    split at h
    · rename_i hFile
      rw [bind_run_ok (tree_run workspace)] at h
      rcases hRemoved : workspace.tree.removeFile
          (Path.join (Path.join directory name) (fileName name)) with cause | tree
      · rw [hRemoved, bind_run_error (replaceTree_run_error rfl _ _)] at h
        cases h
      · rw [hRemoved, bind_run_ok (replaceTree_run_ok rfl _ _), bind_run_ok (tell_run _ _)] at h
        rcases bind_cases h with ⟨fault, -, hFault⟩ | ⟨others, mid, hRest, hLast⟩
        · cases hFault
        obtain ⟨hNames, rfl⟩ := Prod.mk.inj hLast
        obtain rfl := Except.ok.inj hNames
        have hWithin : tree.Within workspace.tree := by
          obtain ⟨location, hTree, -⟩ := FileTree.removeFile_ok hRemoved
          rw [hTree]
          exact (FileTree.Loses.without workspace.tree _).within
        rw [List.forall_mem_cons]
        exact ⟨hFile, fun other hOther => hWithin.hasFile (ih hRest other hOther)⟩
    · exact ih h

/-- Bringing the directories into line clears what a schema does not have. -/
theorem reconcile_mirrors {result : Except Fault Reconciliation}
    (hStraight : workspace.tree.Straight directory location)
    (hSegments : ∀ name ∈ canonical, IsSegment name)
    (h : reconcile directory canonical workspace = (result, last)) :
    DocumentKind.schema.Mirrors directory location canonical result workspace.tree last.tree := by
  rcases bind_cases h with ⟨fault, hList, rfl⟩ | ⟨names, mid, hList, hNext⟩
  · obtain ⟨rfl, -⟩ := existingModelDirs_straight canonical hStraight hList
    exact ⟨hStraight, nofun⟩
  obtain ⟨rfl, hNames⟩ := existingModelDirs_straight canonical hStraight hList
  rcases bind_cases hNext with ⟨fault, hRemove, rfl⟩ | ⟨_, removed, hRemove, hCreate⟩
  · exact ⟨(removeModelDirs_mirrors hStraight (hNames names rfl) hRemove).straight, nofun⟩
  · have hCleared := removeModelDirs_mirrors hStraight (hNames names rfl) hRemove
    have hFills : Keeps (FileTree.Fills directory location canonical)
        (createModelDirs directory canonical) := createModelDirs_fills (fun _ => id) hSegments
    rcases bind_cases hCreate with ⟨fault, hDirs, rfl⟩ | ⟨created, made, hDirs, hLast⟩
    · exact hCleared.fills (hFills.run hDirs) nofun
    · obtain ⟨rfl, rfl⟩ := Prod.mk.inj hLast
      exact hCleared.fills (hFills.run hDirs) fun _ _ => ⟨_, rfl⟩

/-- Removing rulesets takes files away, and clears what forms do not have. -/
theorem removeStale_clears {result : Except Fault (List String)}
    (hAnchored : workspace.tree.Anchored directory location)
    (h : removeStale directory canonical ArtifactKind.ruleset.fileName workspace =
      (result, last)) :
    last.tree.Anchored directory location ∧ workspace.tree.Sheds last.tree ∧
      ∀ removed, result = .ok removed →
        Cleared directory location canonical removed workspace.tree last.tree := by
  rcases bind_cases h with ⟨fault, hList, rfl⟩ | ⟨names, mid, hList, hNext⟩
  · obtain ⟨rfl, -⟩ := existingModelDirs_stale canonical hAnchored.proper hList
    exact ⟨hAnchored, .refl _, nofun⟩
  obtain ⟨rfl, ⟨fault, hFault⟩ | ⟨other, found, hLeads, hNames, hStale⟩⟩ :=
    existingModelDirs_stale canonical hAnchored.proper hList
  · cases hFault
  obtain rfl := Except.ok.inj hNames
  obtain rfl := hLeads.unique hAnchored.leads
  obtain ⟨hLast, hSheds, hCleared⟩ := removeFiles_clears hNext hAnchored
    fun name hName => ((hStale name).mp hName).found
  refine ⟨hLast, hSheds, ?_⟩
  rintro removed rfl
  obtain ⟨done, hDone, hTree, hOk⟩ := removeFiles_run hLeads
    (fun name hName => IsStale_isName hAnchored.proper ((hStale name).mp hName)) (.refl _) hNext
  obtain rfl := hOk removed rfl
  refine ⟨fun name => ⟨fun hName => ?_, fun ⟨hLingers, hReach⟩ => ?_⟩, hSheds, hTree⟩
  · have hOwn := (hStale name).mp (hDone name hName)
    obtain ⟨hReach, hFile⟩ := (DocumentKind.hasFile_ruleset_iff hAnchored hOwn.found).mp
      (removeFiles_found hNext name hName)
    exact ⟨⟨hOwn, fun _ => hFile⟩, hReach⟩
  · -- What was not taken away would still be found.
    by_contra hKept
    obtain ⟨content, hFile⟩ := hLingers.ruleset rfl
    have hLost : DocumentKind.forms.loses other removed
        (other ++ [name, ArtifactKind.ruleset.fileName name]) = false :=
      Bool.eq_false_iff.mpr fun hLost => hKept (DocumentKind.loses_forms_ruleset.mp hLost)
    have hThere : last.tree.node? (other ++ [name, ArtifactKind.ruleset.fileName name]) =
        some (.file content) := by
      rw [hTree, FileTree.node?_without (DocumentKind.loses_root _), hLost]
      exact hFile
    have hFound := hSheds.keptDirectory hLingers.stale.found
    have hNone := hCleared removed rfl name ((hStale name).mpr hLingers.stale)
    rw [(DocumentKind.hasFile_ruleset_iff hLast hFound).mpr ⟨hReach, content, hThere⟩] at hNone
    cases hNone

theorem removeStale_mirrors {result : Except Fault (List String)}
    (hStraight : workspace.tree.Straight directory location)
    (h : removeStale directory canonical ArtifactKind.ruleset.fileName workspace =
      (result, last)) :
    DocumentKind.forms.Mirrors directory location canonical result workspace.tree last.tree := by
  obtain ⟨hAnchored, hSheds, hCleared⟩ := removeStale_clears hStraight.anchored h
  refine ⟨?_, fun removed hOk name => (hCleared removed hOk).lingers_iff⟩
  exact hStraight.of_kept hAnchored.proper hSheds.workingDir (fun _ _ => hSheds.keptDirectory)
    hSheds.loses.links

end Job

end EntityGen
