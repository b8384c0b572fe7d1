import EntityGen.DocumentKind
import EntityGen.Generation.Directories
import EntityGen.Proofs.Artifact
import EntityGen.Proofs.Files.Join
import EntityGen.Proofs.Job

/-! What bringing the mappers directory into line does to the file tree. Directories of models that
are gone are taken away with all that is in them, one after the other and as far as that succeeds;
then directories are added in free places. Forms take files away in the same manner. -/

namespace EntityGen

open Files (FileFault FileTree IsName Location Node Path)

theorem Text.mem_insertSorted {text other : String} {texts : List String} :
    other ∈ insertSorted text texts ↔ other = text ∨ other ∈ texts := by
  induction texts with
  | nil => simp [insertSorted]
  | cons first rest ih =>
    rw [insertSorted]
    split
    · simp
    · split
      · rename_i hSame
        obtain rfl : text = first := by simpa using hSame
        simp
      · rw [List.mem_cons, ih, List.mem_cons]
        tauto

@[simp] theorem Text.mem_sorted {text : String} {texts : List String} :
    text ∈ sorted texts ↔ text ∈ texts := by
  induction texts with
  | nil => rfl
  | cons first rest ih => rw [sorted, List.foldr_cons, mem_insertSorted, ← sorted, ih, List.mem_cons]

/-- The locations of which a run of a kind takes away what is there, if it finds some directories
stale: the directories with all that is in them, or the rulesets in them. -/
def DocumentKind.loses (kind : DocumentKind) (directory : Location) (names : List String)
    (location : Location) : Bool :=
  names.any fun name =>
    match kind with
    | .schema => (directory ++ [name]).isPrefixOf location
    | .forms => location == directory ++ [name, ArtifactKind.ruleset.fileName name]

namespace DocumentKind

variable {kind : DocumentKind} {directory location : Location}

theorem loses_root (names : List String) : kind.loses directory names [] = false := by
  rw [loses, List.any_eq_false]
  intro name _
  cases kind
  · cases directory <;> simp
  · simp

theorem loses_congr {first second : List String} (h : ∀ name, name ∈ first ↔ name ∈ second) :
    kind.loses directory first location = kind.loses directory second location := by
  rw [Bool.eq_iff_iff, loses, loses, List.any_eq_true, List.any_eq_true]
  simp only [h]

theorem loses_cons (name : String) (names : List String) (location : Location) :
    kind.loses directory (name :: names) location =
      (kind.loses directory [name] location || kind.loses directory names location) := by
  simp [loses]

theorem loses_schema {names : List String} :
    DocumentKind.schema.loses directory names location = true ↔
      ∃ name ∈ names, ∃ below, location = directory ++ name :: below := by
  simp only [loses, List.any_eq_true, List.isPrefixOf_iff_prefix]
  constructor
  · rintro ⟨name, hName, below, rfl⟩
    exact ⟨name, hName, below, by simp⟩
  · rintro ⟨name, hName, below, rfl⟩
    exact ⟨name, hName, below, by simp⟩

theorem loses_schema_below {name : String} {names below : List String} :
    DocumentKind.schema.loses directory names (directory ++ name :: below) = true ↔
      name ∈ names := by
  rw [loses_schema]
  constructor
  · rintro ⟨other, hOther, _, hSame⟩
    rwa [(List.cons.inj (List.append_cancel_left hSame)).1]
  · exact fun hName => ⟨name, hName, below, rfl⟩

end DocumentKind

namespace Files.FileTree

variable {tree start : FileTree} {directory location : Location} {path : Path}

theorem list_ok_iff {nodes : List (String × Node)} :
    tree.list path = .ok nodes ↔
      ∃ directory, tree.Leads path directory ∧ nodes = tree.children directory := by
  rw [list]
  constructor
  · intro h
    rcases hPlace : tree.locate path with cause | directory | directory
    · simp [hPlace] at h
    · rcases hNode : tree.node? directory with _ | _ | content | target <;>
        simp [hPlace, hNode] at h
      exact ⟨directory, ⟨hPlace, hNode⟩, h.symm⟩
    · simp [hPlace] at h
  · rintro ⟨directory, hLeads, rfl⟩
    rw [hLeads.locate]
    simp [hLeads.directory]

/-- A name directly in a directory that stands for a model that is gone. -/
structure IsStale (tree : FileTree) (directory : Location) (canonical : List String)
    (name : String) : Prop where
  found : tree.node? (directory ++ [name]) = some .directory
  ofModel : isSetAside name = false
  gone : name ∉ canonical

/-- The names of the directories of models that are gone. -/
def staleDirs (tree : FileTree) (directory : Location) (canonical : List String) : List String :=
  (modelDirs (tree.children directory)).filter fun name => !canonical.contains name

theorem mem_stale (h : tree.Proper) {canonical : List String} {name : String} :
    name ∈ tree.staleDirs directory canonical ↔ tree.IsStale directory canonical name := by
  simp only [staleDirs, modelDirs, List.mem_filter, Text.mem_sorted, List.mem_map, Bool.and_eq_true,
    Bool.not_eq_true', List.contains_eq_mem, decide_eq_false_iff_not, Prod.exists,
    exists_and_right, exists_eq_right]
  constructor
  · rintro ⟨⟨node, hChild, hKind, hModel⟩, hGone⟩
    rcases node with _ | content | target
    · exact ⟨h.mem_children.mp hChild, hModel, hGone⟩
    · simp [Node.isDirectory] at hKind
    · simp [Node.isDirectory] at hKind
  · rintro ⟨hFound, hModel, hGone⟩
    exact ⟨⟨.directory, h.mem_children.mpr hFound, rfl, hModel⟩, hGone⟩

/-- What was taken away with the directories of models that are gone. -/
theorem node?_without_dirs (tree : FileTree) {name : String} {names : List String}
    (hName : name ∈ names) (below : List String) :
    (tree.without (DocumentKind.schema.loses directory names)).node?
      (directory ++ name :: below) = none := by
  rw [node?_without (DocumentKind.loses_root _),
    if_pos (DocumentKind.loses_schema_below.mpr hName)]

/-- A file tree without the directories of models that are gone. -/
def cleared (tree : FileTree) (directory : Location) (canonical : List String) : FileTree :=
  tree.without (DocumentKind.schema.loses directory (tree.staleDirs directory canonical))

/-- Removing a directory of a directory removes it where it was found at the start, whatever else
was removed since. -/
theorem removeDirAll_join {name : String} {after : FileTree} (hLeads : start.Leads path directory)
    (hLoses : start.Loses tree) (hName : IsName name)
    (hFound : start.node? (directory ++ [name]) = some .directory)
    (h : tree.removeDirAll (Path.join path name) = .ok after) :
    after = tree.without (DocumentKind.schema.loses directory [name]) := by
  have hLost : DocumentKind.schema.loses directory [name] = (directory ++ [name]).isPrefixOf := by
    funext other
    simp [DocumentKind.loses]
  rw [hLost, ← removeAll_eq_without]
  rw [removeDirAll] at h
  rcases hPlace : tree.locateEntry (Path.join path name) with cause | location | location
  · simp [hPlace] at h
  · have hStart := hLoses.within.locateEntry hPlace
    rw [hLeads.locateEntry_join hName (locateEntry_eq_ok_iff.mp hStart).1, hFound] at hStart
    obtain rfl : directory ++ [name] = location := by simpa using hStart
    rcases hLoses.node (directory ++ [name]) with hSame | hNone
    · rw [hFound] at hSame
      simpa [hPlace, hSame, eq_comm] using h
    · simp [hPlace, hNone] at h
  · simp [hPlace] at h

/-- Likewise for the ruleset in a directory of a directory. -/
theorem removeFile_join {name : String} {after : FileTree} (hLeads : start.Leads path directory)
    (hLoses : start.Loses tree) (hName : IsName name)
    (hFound : start.node? (directory ++ [name]) = some .directory)
    (h : tree.removeFile ((Path.join path name).join (ArtifactKind.ruleset.fileName name)) =
      .ok after) :
    after = tree.without (DocumentKind.forms.loses directory [name]) := by
  have hLost : DocumentKind.forms.loses directory [name] =
      fun other => other == directory ++ [name] ++ [ArtifactKind.ruleset.fileName name] := by
    funext other
    simp [DocumentKind.loses]
  rw [hLost, ← remove_eq_without]
  rw [removeFile] at h
  rcases hPlace : tree.locateEntry
    ((Path.join path name).join (ArtifactKind.ruleset.fileName name)) with cause | location | location
  · simp [hPlace] at h
  · have hStart := hLoses.within.locateEntry hPlace
    have hSlash := ArtifactKind.fileName_noSlash .ruleset hName.noSlash
    have hFault := (locateEntry_eq_ok_iff.mp hStart).1
    have hInner := hLeads.join hName (Path.pathFault?_of_join (Path.isAbsolute_of_noSlash hSlash)
      (Path.join_ne_empty hName.notEmpty) hFault) hFound
    have hFile := hInner.isName hSlash (ArtifactKind.fileName_ne (by decide))
      (ArtifactKind.fileName_ne (by decide)) (ArtifactKind.fileName_ne (by decide)) hStart
    rw [hInner.locateEntry_join hFile hFault] at hStart
    obtain rfl : directory ++ [name] ++ [ArtifactKind.ruleset.fileName name] = location := by
      split at hStart
      · exact Place.taken.inj (Except.ok.inj hStart)
      · cases hStart
    simp only [hPlace] at h
    split at h
    · simp at h
    · exact (Except.ok.inj h).symm
  · simp [hPlace] at h

end Files.FileTree

namespace Job

variable {directory : Path} {workspace after : Workspace}

theorem existingModelDirs_cases {result : Except Fault (List String)}
    (h : existingModelDirs directory workspace = (result, after)) :
    after = workspace ∧
      ((∃ fault, result = .error fault) ∨
        ∃ location, workspace.tree.Leads directory location ∧
          result = .ok (modelDirs (workspace.tree.children location))) := by
  simp only [existingModelDirs, bind_run, tree_run] at h
  rcases hList : workspace.tree.list directory with cause | nodes
  · simp only [hList, throw_run] at h
    obtain ⟨rfl, rfl⟩ := Prod.mk.inj h
    exact ⟨rfl, .inl ⟨_, rfl⟩⟩
  · simp only [hList, pure_run] at h
    obtain ⟨rfl, rfl⟩ := Prod.mk.inj h
    obtain ⟨location, hLeads, rfl⟩ := FileTree.list_ok_iff.mp hList
    exact ⟨rfl, .inr ⟨location, hLeads, rfl⟩⟩

/-- Directories of models are removed in order, as far as that succeeds. -/
theorem removeModelDirs_run {start : FileTree} {location : Location}
    (hLeads : start.Leads directory location) {names : List String} {result : Except Fault Unit}
    (hNames : ∀ name ∈ names, IsName name ∧
      start.node? (location ++ [name]) = some .directory)
    (hLoses : start.Loses workspace.tree)
    (h : removeModelDirs directory names workspace = (result, after)) :
    ∃ done left, names = done ++ left ∧
      after.tree = workspace.tree.without (DocumentKind.schema.loses location done) ∧
      (result = .ok () → left = []) := by
  induction names generalizing workspace with
  | nil =>
    obtain ⟨-, rfl⟩ := Prod.mk.inj h
    exact ⟨[], [], rfl, (FileTree.without_none _).symm, fun _ => rfl⟩
  | cons name rest ih =>
    rw [List.forall_mem_cons] at hNames
    simp only [removeModelDirs, bind_run, tree_run] at h
    rcases hRemoved : workspace.tree.removeDirAll (Path.join directory name) with cause | tree
    · simp only [replaceTree_run_error hRemoved] at h
      obtain ⟨rfl, rfl⟩ := Prod.mk.inj h
      exact ⟨[], name :: rest, rfl, (FileTree.without_none _).symm, nofun⟩
    · simp only [replaceTree_run_ok hRemoved, tell_run] at h
      obtain rfl := FileTree.removeDirAll_join hLeads hLoses hNames.1.1 hNames.1.2 hRemoved
      obtain ⟨done, left, rfl, hTree, hOk⟩ :=
        ih hNames.2 (hLoses.trans (.without _ _)) h
      refine ⟨name :: done, left, rfl, ?_, hOk⟩
      rw [hTree, FileTree.without_without]
      simp only [← DocumentKind.loses_cons]

/-- Creating directories of models adds directories in free places, also when it fails. -/
theorem createModelDirs_gains {names : List String} {result : Except Fault (List String)}
    (h : createModelDirs directory names workspace = (result, after)) :
    workspace.tree.Gains after.tree := by
  induction names generalizing workspace result with
  | nil =>
    obtain ⟨-, rfl⟩ := Prod.mk.inj h
    exact .refl _
  | cons name rest ih =>
    simp only [createModelDirs, bind_run, tree_run] at h
    split at h
    · exact ih h
    · have hGains := FileTree.createDirAll_gains workspace.tree (Path.join directory name)
      rcases bind_cases h with ⟨fault, hCreate, -⟩ | ⟨_, made, hCreate, hNext⟩
      · rw [createDirAll_run] at hCreate
        obtain ⟨-, rfl⟩ := Prod.mk.inj hCreate
        exact hGains
      · rw [createDirAll_run] at hCreate
        obtain ⟨-, rfl⟩ := Prod.mk.inj hCreate
        rw [bind_run, tell_run] at hNext
        rcases bind_cases hNext with ⟨fault, hRest, -⟩ | ⟨names, last, hRest, hLast⟩
        · exact hGains.trans (ih hRest)
        · obtain ⟨-, rfl⟩ := Prod.mk.inj hLast
          exact hGains.trans (ih hRest)

/-- Rulesets are removed in order, as far as that succeeds. -/
theorem removeFiles_run {start : FileTree} {location : Location}
    (hLeads : start.Leads directory location) {names : List String}
    {result : Except Fault (List String)}
    (hNames : ∀ name ∈ names, IsName name ∧
      start.node? (location ++ [name]) = some .directory)
    (hLoses : start.Loses workspace.tree)
    (h : removeFiles directory ArtifactKind.ruleset.fileName names workspace = (result, after)) :
    ∃ done, (∀ name ∈ done, name ∈ names) ∧
      after.tree = workspace.tree.without (DocumentKind.forms.loses location done) ∧
      ∀ removed, result = .ok removed → removed = done := by
  induction names generalizing workspace result with
  | nil =>
    obtain ⟨rfl, rfl⟩ := Prod.mk.inj h
    exact ⟨[], by simp, (FileTree.without_none _).symm, fun removed h => (Except.ok.inj h).symm⟩
  | cons name rest ih =>
    rw [List.forall_mem_cons] at hNames
    simp only [removeFiles, bind_run, tree_run] at h
    split at h
    · rw [bind_run_ok (tree_run _)] at h
      rcases hRemoved : workspace.tree.removeFile
        ((Path.join directory name).join (ArtifactKind.ruleset.fileName name)) with cause | tree
      · rw [bind_run_error (replaceTree_run_error hRemoved _ _)] at h
        obtain ⟨rfl, rfl⟩ := Prod.mk.inj h
        exact ⟨[], by simp, (FileTree.without_none _).symm, nofun⟩
      · rw [bind_run_ok (replaceTree_run_ok hRemoved _ _), bind_run_ok (tell_run _ _)] at h
        obtain rfl := FileTree.removeFile_join hLeads hLoses hNames.1.1 hNames.1.2 hRemoved
        have hNext : start.Loses
            (workspace.tree.without (DocumentKind.forms.loses location [name])) :=
          hLoses.trans (.without _ _)
        have hTrees (done : List String) :
            (workspace.tree.without (DocumentKind.forms.loses location [name])).without
              (DocumentKind.forms.loses location done) =
              workspace.tree.without (DocumentKind.forms.loses location (name :: done)) := by
          rw [FileTree.without_without]
          simp only [← DocumentKind.loses_cons]
        rcases bind_cases h with ⟨fault, hRest, rfl⟩ | ⟨removed, last, hRest, hLast⟩
        · obtain ⟨done, hDone, hTree, -⟩ := ih hNames.2 hNext hRest
          refine ⟨name :: done, ?_, hTree.trans (hTrees done), nofun⟩
          exact List.forall_mem_cons.mpr ⟨List.mem_cons_self,
            fun other hOther => List.mem_cons_of_mem _ (hDone other hOther)⟩
        · obtain ⟨rfl, rfl⟩ := Prod.mk.inj hLast
          obtain ⟨done, hDone, hTree, hOk⟩ := ih hNames.2 hNext hRest
          refine ⟨name :: done, ?_, hTree.trans (hTrees done), fun names h => ?_⟩
          · exact List.forall_mem_cons.mpr ⟨List.mem_cons_self,
              fun other hOther => List.mem_cons_of_mem _ (hDone other hOther)⟩
          · rw [← Except.ok.inj h, hOk removed rfl]
    · obtain ⟨done, hDone, hTree, hOk⟩ := ih hNames.2 hLoses h
      exact ⟨done, fun other hOther => List.mem_cons_of_mem _ (hDone other hOther), hTree, hOk⟩

theorem createDirAll_keeps (blame : FileFault → Fault) (path : Path) :
    Keeps FileTree.AddsNoLink (createDirAll blame path) := by
  intro workspace
  rw [createDirAll_run]
  exact (workspace.tree.createDirAll_gains path).grows.links

theorem removeModelDirs_keeps (directory : Path) (names : List String) :
    Keeps FileTree.AddsNoLink (removeModelDirs directory names) := by
  induction names with
  | nil => exact fun _ _ _ h => h
  | cons name rest ih =>
    intro workspace
    rw [removeModelDirs, bind_run_ok (tree_run _)]
    rcases hRemoved : workspace.tree.removeDirAll (Path.join directory name) with cause | tree
    · rw [bind_run_error (replaceTree_run_error rfl _ _)]
      exact fun _ _ h => h
    · rw [bind_run_ok (replaceTree_run_ok rfl _ _), bind_run_ok (tell_run _ _)]
      exact (FileTree.removeDirAll_loses hRemoved).links.trans (ih _)

theorem createModelDirs_keeps (directory : Path) (names : List String) :
    Keeps FileTree.AddsNoLink (createModelDirs directory names) :=
  fun _ => (createModelDirs_gains rfl).grows.links

/-- No link is made where the directories are brought into line. -/
theorem reconcile_keeps (directory : Path) (canonical : List String) :
    Keeps FileTree.AddsNoLink (reconcile directory canonical) := by
  refine .bind .trans (fun workspace => ?_) fun names =>
    .bind .trans (removeModelDirs_keeps directory _) fun _ =>
      .bind .trans (createModelDirs_keeps directory canonical) fun _ _ _ _ h => h
  rcases hList : existingModelDirs directory workspace with ⟨result, after⟩
  rw [(existingModelDirs_cases hList).1]
  exact fun _ _ h => h

/-- How the removal at the start of a run can go, and what it comes to: the mappers directory cannot
be listed, or what stale directories have was removed, for a schema of all of them in a success, and
then directories were added. -/
inductive Clearing (kind : DocumentKind) (directory : Path) (canonical : List String)
    (before : FileTree) : Except Fault (List String) → FileTree → Prop
  | unlisted {fault : Fault} : Clearing kind directory canonical before (.error fault) before
  | failed {fault : Fault} {after : FileTree} {location : Location} {done : List String}
      (leads : before.Leads directory location)
      (stale : ∀ name ∈ done, before.IsStale location canonical name)
      (gains : (before.without (kind.loses location done)).Gains after) :
      Clearing kind directory canonical before (.error fault) after
  | done {removed : List String} {after : FileTree} {location : Location}
      (leads : before.Leads directory location)
      (stale : ∀ name ∈ removed, before.IsStale location canonical name)
      (all : kind = .schema → ∀ name, before.IsStale location canonical name → name ∈ removed)
      (gains : (before.without (kind.loses location removed)).Gains after) :
      Clearing kind directory canonical before (.ok removed) after

variable {canonical : List String}

/-- The stale directories, as a run finds them in a proper tree. -/
theorem existingModelDirs_stale (canonical : List String) {result : Except Fault (List String)}
    (hProper : workspace.tree.Proper)
    (h : existingModelDirs directory workspace = (result, after)) :
    after = workspace ∧ ((∃ fault, result = .error fault) ∨
      ∃ location names, workspace.tree.Leads directory location ∧ result = .ok names ∧
        ∀ name, name ∈ names.filter (fun name => !canonical.contains name) ↔
          workspace.tree.IsStale location canonical name) := by
  obtain ⟨rfl, hFault | ⟨location, hLeads, rfl⟩⟩ := existingModelDirs_cases h
  · exact ⟨rfl, .inl hFault⟩
  · exact ⟨rfl, .inr ⟨location, _, hLeads, rfl, fun name => FileTree.mem_stale hProper⟩⟩

theorem IsStale_isName {tree : FileTree} (hProper : tree.Proper) {location : Location}
    {name : String} (h : tree.IsStale location canonical name) :
    IsName name ∧ tree.node? (location ++ [name]) = some .directory :=
  ⟨hProper.names_of_node? h.found name (by simp), h.found⟩

/-- How far bringing the mappers directory into line can get: it cannot be listed, or some of the
stale directories were removed and then one could not be, or all were and the missing ones are
created next. -/
theorem reconcile_cases {result : Except Fault Reconciliation} (hProper : workspace.tree.Proper)
    (h : reconcile directory canonical workspace = (result, after)) :
    (∃ fault, result = .error fault ∧ after = workspace) ∨
      ∃ location, workspace.tree.Leads directory location ∧
        ((∃ fault done, result = .error fault ∧
            (∀ name ∈ done, workspace.tree.IsStale location canonical name) ∧
            after.tree = workspace.tree.without (DocumentKind.schema.loses location done)) ∨
          ∃ cleared outcome, cleared.tree = workspace.tree.cleared location canonical ∧
            createModelDirs directory canonical cleared = (outcome, after) ∧
            result = outcome.map fun created =>
              ⟨workspace.tree.staleDirs location canonical, created⟩) := by
  rcases bind_cases h with ⟨fault, hList, rfl⟩ | ⟨names, mid, hList, hNext⟩
  · exact .inl ⟨fault, rfl, (existingModelDirs_cases hList).1⟩
  obtain ⟨rfl, ⟨fault, hFault⟩ | ⟨location, hLeads, hNames⟩⟩ := existingModelDirs_cases hList
  · cases hFault
  obtain rfl := Except.ok.inj hNames
  refine .inr ⟨location, hLeads, ?_⟩
  change (do
    removeModelDirs directory (mid.tree.staleDirs location canonical)
    return ⟨mid.tree.staleDirs location canonical, ← createModelDirs directory canonical⟩ :
      Job Reconciliation) mid = _ at hNext
  have hStale : ∀ name ∈ mid.tree.staleDirs location canonical,
      mid.tree.IsStale location canonical name := fun name => (FileTree.mem_stale hProper).mp
  have hFound := fun name hName => IsStale_isName hProper (hStale name hName)
  rcases bind_cases hNext with ⟨fault, hRemove, rfl⟩ | ⟨_, cleared, hRemove, hCreate⟩
  · obtain ⟨done, left, hSplit, hTree, -⟩ := removeModelDirs_run hLeads hFound (.refl _) hRemove
    exact .inl ⟨fault, done, rfl,
      fun name hName => hStale name (hSplit ▸ List.mem_append_left _ hName), hTree⟩
  · obtain ⟨done, left, hSplit, hTree, hOk⟩ := removeModelDirs_run hLeads hFound (.refl _) hRemove
    rw [hOk rfl, List.append_nil] at hSplit
    refine .inr ⟨cleared, ?_⟩
    rw [hTree, ← hSplit]
    rcases bind_cases hCreate with ⟨fault, hDirs, rfl⟩ | ⟨created, last, hDirs, hLast⟩
    · exact ⟨.error fault, rfl, hDirs, rfl⟩
    · obtain ⟨rfl, rfl⟩ := Prod.mk.inj hLast
      exact ⟨.ok created, rfl, hDirs, rfl⟩

theorem reconcile_run {result : Except Fault Reconciliation} (hProper : workspace.tree.Proper)
    (h : reconcile directory canonical workspace = (result, after)) :
    Clearing .schema directory canonical workspace.tree (result.map (·.removed)) after.tree := by
  rcases reconcile_cases hProper h with ⟨fault, rfl, rfl⟩ | ⟨location, hLeads, hCases⟩
  · exact .unlisted
  rcases hCases with ⟨fault, done, rfl, hStale, hTree⟩ | ⟨cleared, outcome, hTree, hDirs, rfl⟩
  · exact .failed hLeads hStale (hTree ▸ .refl _)
  have hGains := createModelDirs_gains hDirs
  rw [hTree] at hGains
  have hStale (name : String) : name ∈ workspace.tree.staleDirs location canonical ↔
      workspace.tree.IsStale location canonical name := FileTree.mem_stale hProper
  cases outcome with
  | error fault => exact .failed hLeads (fun name => (hStale name).mp) hGains
  | ok created =>
    exact .done hLeads (fun name => (hStale name).mp) (fun _ name => (hStale name).mpr) hGains

theorem removeStale_run {result : Except Fault (List String)} (hProper : workspace.tree.Proper)
    (h : removeStale directory canonical ArtifactKind.ruleset.fileName workspace =
      (result, after)) :
    Clearing .forms directory canonical workspace.tree result after.tree := by
  rcases bind_cases h with ⟨fault, hList, rfl⟩ | ⟨names, mid, hList, hNext⟩
  · obtain ⟨rfl, -⟩ := existingModelDirs_cases hList
    exact .unlisted
  obtain ⟨rfl, ⟨fault, hFault⟩ | ⟨location, found, hLeads, hNames, hMem⟩⟩ :=
    existingModelDirs_stale canonical hProper hList
  · cases hFault
  obtain rfl := Except.ok.inj hNames
  obtain ⟨done, hDone, hTree, hOk⟩ := removeFiles_run hLeads
    (fun name hName => IsStale_isName hProper ((hMem name).mp hName)) (.refl _) hNext
  have hStale : ∀ name ∈ done, mid.tree.IsStale location canonical name := fun name hName =>
    (hMem name).mp (hDone name hName)
  rcases result with fault | removed
  · exact .failed hLeads hStale (hTree ▸ .refl _)
  · obtain rfl := hOk removed rfl
    exact .done hLeads hStale nofun (hTree ▸ .refl _)

end Job

end EntityGen
