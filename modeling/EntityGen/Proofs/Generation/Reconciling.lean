import EntityGen.Proofs.Generation.Again
import EntityGen.Proofs.Generation.Obstruction

/-! The exact effect of bringing the mappers directory into line with the directories of models.
Whatever is not in a stale directory stays as it was, also when the directories cannot all be
removed or created, and nothing but directories of models is added. When it succeeds, and the path of
the mappers directory does not lead through what was removed, the directories that are left are those
of the models and those set aside, and doing it again does nothing. -/

namespace EntityGen

open Files (FileTree IsSegment IsName Location Path)

namespace Files.FileTree

variable {tree before after : FileTree} {path : Path} {directory place : Location}
  {canonical : List String} {name : String}

/-- Whether a place is in the directory of a model that is gone, or is that directory. -/
def InStale (tree : FileTree) (directory : Location) (canonical : List String) (place : Location) :
    Prop :=
  ∃ name below, tree.IsStale directory canonical name ∧ place = directory ++ name :: below

theorem node?_of_not_inStale {names : List String}
    (hNames : ∀ name ∈ names, tree.IsStale directory canonical name)
    (hOther : ¬ tree.InStale directory canonical place) :
    (tree.without (DocumentKind.schema.loses directory names)).node? place = tree.node? place := by
  rw [node?_without (DocumentKind.loses_root _), if_neg]
  rw [DocumentKind.loses_schema]
  rintro ⟨name, hName, below, rfl⟩
  exact hOther ⟨name, below, hNames name hName, rfl⟩

theorem node?_cleared (hProper : tree.Proper) (hOther : ¬ tree.InStale directory canonical place) :
    (tree.cleared directory canonical).node? place = tree.node? place :=
  node?_of_not_inStale (fun _ => (mem_stale hProper).mp) hOther

/-- Removing what is stale leaves the directories of models and those set aside. -/
theorem cleared_directory_iff (hProper : tree.Proper) :
    (tree.cleared directory canonical).node? (directory ++ [name]) = some .directory ↔
      tree.node? (directory ++ [name]) = some .directory ∧
        (name ∈ canonical ∨ isSetAside name = true) := by
  constructor
  · intro hFound
    have hBefore := (Loses.without tree _).within.directory hFound
    refine ⟨hBefore, ?_⟩
    by_contra hOther
    rw [not_or, Bool.not_eq_true] at hOther
    have hStale := (mem_stale hProper).mpr ⟨hBefore, hOther.2, hOther.1⟩
    rw [cleared, tree.node?_without_dirs hStale] at hFound
    cases hFound
  · rintro ⟨hFound, hOther⟩
    rw [node?_cleared hProper, hFound]
    rintro ⟨stale, below, hStale, hSame⟩
    obtain rfl := (List.cons.inj (List.append_cancel_left hSame)).1
    rcases hOther with hModel | hAside
    · exact hStale.gone hModel
    · rw [hStale.ofModel] at hAside
      cases hAside

theorem Anchored.hasDirectory_join (h : tree.Anchored path directory) (hName : IsSegment name)
    (hThere : tree.hasDirectory (Path.join path name) = true) :
    tree.node? (directory ++ [name]) = some .directory := by
  obtain ⟨place, hPlace⟩ := hasDirectory_eq_true_iff.mp hThere
  rw [← h.leads.place_of_join hName (fun target => h.noLink [name] target (by simp)) hPlace.locate]
  exact hPlace.directory

end Files.FileTree

variable {path : Path} {directory : Location} {canonical names created : List String}
  {workspace last : Workspace}

namespace Job

/-- The directory of the first model is created if it is not there, and then those of the others. -/
theorem createModelDirs_cons {name : String} {rest : List String}
    (hAnchored : workspace.tree.Anchored path directory) (hName : IsSegment name)
    (h : createModelDirs path (name :: rest) workspace = (.ok created, last)) :
    ∃ mid others, createModelDirs path rest mid = (.ok others, last) ∧
      mid.tree.Anchored path directory ∧
      (∀ place, mid.tree.node? place =
        if place = directory ++ [name] then some .directory else workspace.tree.node? place) ∧
      (workspace.tree.node? (directory ++ [name]) = some .directory ∧ created = others ∨
        workspace.tree.node? (directory ++ [name]) ≠ some .directory ∧ created = name :: others) := by
  rw [createModelDirs, bind_run_ok (tree_run workspace)] at h
  split at h
  · have hNode := hAnchored.hasDirectory_join hName ‹_›
    refine ⟨workspace, created, h, hAnchored, fun place => ?_, .inl ⟨hNode, rfl⟩⟩
    split
    · rename_i hOwn
      rw [hOwn, hNode]
    · rfl
  · rename_i hMissing
    rcases bind_cases h with ⟨fault, -, hFault⟩ | ⟨_, made, hCreate, hNext⟩
    · cases hFault
    rw [createDirAll_run] at hCreate
    rcases hMade : workspace.tree.createDirAll (Path.join path name) with ⟨tree, _ | cause⟩
    · rw [hMade] at hCreate
      obtain ⟨-, rfl⟩ := Prod.mk.inj hCreate
      rw [bind_run_ok (tell_run _ _)] at hNext
      rcases bind_cases hNext with ⟨fault, -, hFault⟩ | ⟨others, mid, hRest, hLast⟩
      · cases hFault
      obtain ⟨hCreated, rfl⟩ := Prod.mk.inj hLast
      obtain rfl := Except.ok.inj hCreated
      obtain ⟨hLaid, -, hTree⟩ := hAnchored.createDirAll_join hName hMade
      have hFree : workspace.tree.node? (directory ++ [name]) ≠ some .directory := by
        intro hNode
        have hOwn := hLaid.dirs name List.mem_cons_self
        have hFits := hLaid.anchored.leads.isName_of_locate hName hOwn.locate
        have hFault := (FileTree.locate_eq_ok_iff.mp hOwn.locate).1
        have hJoin := hAnchored.leads.join hFits hFault hNode
        exact hMissing (FileTree.hasDirectory_eq_true_iff.mpr ⟨_, hJoin⟩)
      exact ⟨_, others, hRest, hLaid.anchored, hTree, .inr ⟨hFree, rfl⟩⟩
    · rw [hMade] at hCreate
      cases (Prod.mk.inj hCreate).1

/-- Creating directories of models in a directory without links adds those that are missing, tells
their names, and does nothing else. -/
theorem createModelDirs_created (hAnchored : workspace.tree.Anchored path directory)
    (hNames : ∀ name ∈ names, IsSegment name) (hNodup : names.Nodup)
    (h : createModelDirs path names workspace = (.ok created, last)) :
    created.Sublist names ∧
      (∀ name, name ∈ created ↔
        name ∈ names ∧ workspace.tree.node? (directory ++ [name]) ≠ some .directory) ∧
      ∀ place, last.tree.node? place =
        if ∃ name ∈ names, place = directory ++ [name] then some .directory
        else workspace.tree.node? place := by
  induction names generalizing workspace created with
  | nil =>
    obtain ⟨hCreated, rfl⟩ := Prod.mk.inj h
    obtain rfl := Except.ok.inj hCreated
    exact ⟨.slnil, by simp, by simp⟩
  | cons name rest ih =>
    obtain ⟨hFresh, hNodup⟩ := List.nodup_cons.mp hNodup
    rw [List.forall_mem_cons] at hNames
    obtain ⟨mid, others, hRest, hMid, hNode, hCreated⟩ := createModelDirs_cons hAnchored hNames.1 h
    obtain ⟨hSublist, hMem, hPlaces⟩ := ih hMid hNames.2 hNodup hRest
    have hAfter (place : Location) : last.tree.node? place =
        if ∃ other ∈ name :: rest, place = directory ++ [other] then some .directory
        else workspace.tree.node? place := by
      simp only [hPlaces, hNode, List.exists_mem_cons_iff]
      by_cases hOwn : place = directory ++ [name] <;> simp [hOwn]
    have hOthers (other : String) : other ∈ others ↔
        other ∈ rest ∧ workspace.tree.node? (directory ++ [other]) ≠ some .directory := by
      rw [hMem]
      refine and_congr_right fun hLater => ?_
      rw [hNode, if_neg]
      intro hSame
      exact hFresh ((List.cons.inj (List.append_cancel_left hSame)).1 ▸ hLater)
    rcases hCreated with ⟨hThere, rfl⟩ | ⟨hFree, rfl⟩
    · refine ⟨hSublist.cons name, fun other => ?_, hAfter⟩
      rw [hOthers, List.mem_cons, or_and_right, or_iff_right]
      rintro ⟨rfl, hFree⟩
      exact hFree hThere
    · refine ⟨hSublist.cons_cons name, fun other => ?_, hAfter⟩
      rw [List.mem_cons, List.mem_cons, hOthers, or_and_right]
      exact or_congr_left (and_iff_left_of_imp fun hOwn => hOwn ▸ hFree).symm

section

variable {result : Except Fault Reconciliation} (hProper : workspace.tree.Proper)
  (hLeads : workspace.tree.Leads path directory) (hLinks : workspace.tree.NoLinkBelow directory)
  (hSegments : ∀ name ∈ canonical, IsSegment name)
include hProper hLeads hLinks hSegments

/-- What is not in a stale directory stays, and only directories of models are added there, however
far the directories can be removed and created. -/
theorem reconcile_spares {place : Location}
    (h : reconcile path canonical workspace = (result, last))
    (hOther : ¬ workspace.tree.InStale directory canonical place) :
    last.tree.node? place = workspace.tree.node? place ∨
      workspace.tree.node? place = none ∧ last.tree.node? place = some .directory ∧
        ∃ name ∈ canonical, place = directory ++ [name] := by
  rcases reconcile_cases hProper h with ⟨fault, -, rfl⟩ | ⟨location, hFound, hCases⟩
  · exact .inl rfl
  obtain rfl := hLeads.unique hFound
  rcases hCases with ⟨fault, done, -, hStale, hTree⟩ | ⟨cleared, outcome, hTree, hDirs, -⟩
  · rw [hTree]
    exact .inl (FileTree.node?_of_not_inStale hStale hOther)
  have hGains := createModelDirs_gains hDirs
  have hCleared : cleared.tree.node? place = workspace.tree.node? place := by
    rw [hTree]
    exact FileTree.node?_cleared hProper hOther
  rcases hGains.node place with hSame | ⟨hFree, hNew⟩
  · exact .inl (hSame.trans hCleared)
  refine .inr ⟨hCleared.symm.trans hFree, hNew, ?_⟩
  -- What is created is on the way of a path to a directory of a model. All of this way that leads
  -- to the mappers directory was there at the start.
  obtain ⟨name, hName, hPasses⟩ := createModelDirs_onWay hDirs (.refl _) hFree hNew
  have hSegment := hSegments name hName
  rw [hTree] at hGains
  rcases hPasses.of_join (hLinks.sameLinks hGains).symm hGains.workingDir.symm hLeads
    hSegment.noSlash hSegment.notEmpty hSegment.notHere hSegment.notBack (hLinks.noLinkIn name) with
    hOn | hOwn
  · have hBefore := hOn.isDirectory
    rw [← hCleared, hFree] at hBefore
    cases hBefore
  · exact ⟨name, hName, hOwn⟩

end

end Job

/-- What is left of the mappers directory when it was brought into line. -/
structure Reconciled (directory : Location) (canonical : List String) (before after : FileTree)
    (changed : Reconciliation) : Prop where
  dirs : ∀ name, after.node? (directory ++ [name]) = some .directory ↔
    name ∈ canonical ∨
      isSetAside name = true ∧ before.node? (directory ++ [name]) = some .directory
  gone : ∀ place, before.InStale directory canonical place → after.node? place = none
  order : changed.created.Pairwise (· < ·)
  created : ∀ name, name ∈ changed.created ↔
    name ∈ canonical ∧ before.node? (directory ++ [name]) ≠ some .directory

namespace Job

/-- Where the mappers directory was cleared and its path leads there, creating the directories of
models leaves it in line. -/
theorem reconciled_of_created {cleared : Workspace} (hProper : workspace.tree.Proper)
    (hTree : cleared.tree = workspace.tree.cleared directory canonical)
    (hAnchored : cleared.tree.Anchored path directory) (hSorted : canonical.Pairwise (· < ·))
    (hSegments : ∀ name ∈ canonical, IsSegment name)
    (h : createModelDirs path canonical cleared = (.ok created, last)) :
    Reconciled directory canonical workspace.tree last.tree
      ⟨workspace.tree.staleDirs directory canonical, created⟩ := by
  obtain ⟨hSublist, hMem, hPlaces⟩ := createModelDirs_created hAnchored hSegments
    (hSorted.imp fun hLess => ne_of_lt hLess) h
  have hDirectory (name : String) :
      (workspace.tree.cleared directory canonical).node? (directory ++ [name]) = some .directory ↔
        workspace.tree.node? (directory ++ [name]) = some .directory ∧
          (name ∈ canonical ∨ isSetAside name = true) := FileTree.cleared_directory_iff hProper
  rw [hTree] at hMem hPlaces
  refine ⟨fun name => ?_, ?_, hSorted.sublist hSublist, fun name => ?_⟩
  · rw [hPlaces]
    by_cases hName : name ∈ canonical
    · simp [hName]
    · simp [hName, hDirectory, and_comm]
  · rintro _ ⟨name, below, hStale, rfl⟩
    rw [hPlaces, if_neg]
    · exact workspace.tree.node?_without_dirs ((FileTree.mem_stale hProper).mpr hStale) below
    · rintro ⟨other, hOther, hSame⟩
      exact hStale.gone ((List.cons.inj (List.append_cancel_left hSame)).1 ▸ hOther)
  · rw [hMem]
    refine and_congr_right fun hName => ?_
    rw [Ne, hDirectory, and_iff_left (Or.inl hName)]

/-- The exact effect of bringing the mappers directory into line. -/
theorem reconcile_exact {result : Except Fault Reconciliation} (hProper : workspace.tree.Proper)
    (hLeads : workspace.tree.Leads path directory) (hLinks : workspace.tree.NoLinkBelow directory)
    (hSorted : canonical.Pairwise (· < ·)) (hSegments : ∀ name ∈ canonical, IsSegment name)
    (h : reconcile path canonical workspace = (result, last)) :
    (∀ place, ¬ workspace.tree.InStale directory canonical place →
        last.tree.node? place = workspace.tree.node? place ∨
          workspace.tree.node? place = none ∧ last.tree.node? place = some .directory ∧
            ∃ name ∈ canonical, place = directory ++ [name]) ∧
      ∀ changed, result = .ok changed →
        (changed.removed.Pairwise (· < ·) ∧
          ∀ name, name ∈ changed.removed ↔ workspace.tree.IsStale directory canonical name) ∧
        ((workspace.tree.cleared directory canonical).Leads path directory →
          Reconciled directory canonical workspace.tree last.tree changed ∧
          reconcile path canonical last = (.ok {}, last)) := by
  refine ⟨fun place => reconcile_spares hProper hLeads hLinks hSegments h, ?_⟩
  rintro changed rfl
  rcases reconcile_cases hProper h with ⟨fault, hFault, -⟩ | ⟨location, hFound, hCases⟩
  · cases hFault
  obtain rfl := hLeads.unique hFound
  rcases hCases with ⟨fault, _, hFault, -⟩ | ⟨cleared, outcome, hTree, hDirs, hChanged⟩
  · cases hFault
  cases outcome with
  | error fault => cases hChanged
  | ok created =>
    obtain rfl := Except.ok.inj hChanged
    refine ⟨⟨(Text.sorted_pairwise _).filter _, fun name => FileTree.mem_stale hProper⟩,
      fun hCleared => ?_⟩
    have hAnchored := FileTree.anchored_cleared hProper hCleared hLinks
    rw [← hTree] at hAnchored
    have hReconciled := reconciled_of_created hProper hTree hAnchored hSorted hSegments hDirs
    have hLast : last.tree.Anchored path directory := by
      have hDone := (createModelDirs_proper path canonical).run hDirs hAnchored.proper
      exact hAnchored.grows (createModelDirs_gains hDirs).grows hDone
    have hLaid : last.tree.LaidOut path directory canonical := by
      refine ⟨hLast, fun name hName => ?_⟩
      have hNotEmpty := fun name hName => (hSegments name hName).notEmpty
      obtain ⟨place, hPlace⟩ := createModelDirs_leads hNotEmpty hDirs name hName
      obtain rfl := hLast.leads.place_of_join (hSegments name hName)
        (fun target => hLast.noLink [name] target (by simp)) hPlace.locate
      exact hPlace
    refine ⟨hReconciled, reconcile_idle hLaid fun name hStale => ?_⟩
    rcases (hReconciled.dirs name).mp hStale.found with hModel | ⟨hAside, -⟩
    · exact hStale.gone hModel
    · rw [hStale.ofModel] at hAside
      cases hAside

/-- A workspace with a mappers directory in which there are a file, a hidden directory, the directory
of a model with a file, and one that is stale. -/
def mixed : Workspace where
  tree :=
    { entries := [(["m"], .directory), (["m", "notes"], .file (String.toUTF8 "keep")),
        (["m", ".git"], .directory), (["m", "user"], .directory),
        (["m", "user", "user.model.ts"], .file (String.toUTF8 "export {}")),
        (["m", "old"], .directory),
        (["m", "old", "old.dto.ts"], .file (String.toUTF8 "export {}"))] }

theorem mixed_proper : mixed.tree.Proper := by decide +kernel

theorem mixed_noLinkBelow (directory : Location) : mixed.tree.NoLinkBelow directory :=
  mixed_proper.noLinkBelow (by simp [mixed]) directory

/-- The stale directory makes way for a missing one, the file of the other model stays, and then
there is nothing left to do. -/
theorem reconcile_mixed : ∃ last, reconcile "m" ["post", "user"] mixed =
      (.ok { removed := ["old"], created := ["post"] }, last) ∧
    last.tree.node? ["m", "user", "user.model.ts"] =
      mixed.tree.node? ["m", "user", "user.model.ts"] ∧
    last.tree.node? ["m", "old", "old.dto.ts"] = none ∧
    reconcile "m" ["post", "user"] last = (.ok {}, last) := by
  have hEvaluated : (reconcile "m" ["post", "user"] mixed).1.toOption =
      some { removed := ["old"], created := ["post"] } := by
    decide +kernel
  have hLeads : mixed.tree.Leads "m" ["m"] := ⟨by rfl, by rfl⟩
  have hSegments : ∀ name ∈ ["post", "user"], IsSegment name := by
    simp only [List.forall_mem_cons, List.not_mem_nil, false_imp_iff, forall_const, and_true]
    exact ⟨⟨by decide, by decide, by decide, by decide⟩,
      ⟨by decide, by decide, by decide, by decide⟩⟩
  rcases hRun : reconcile "m" ["post", "user"] mixed with ⟨fault | changed, last⟩
  · simp [hRun, Except.toOption] at hEvaluated
  rw [hRun] at hEvaluated
  obtain rfl : changed = _ := Option.some.inj hEvaluated
  obtain ⟨hSpares, hOk⟩ := reconcile_exact mixed_proper hLeads (mixed_noLinkBelow _) (by decide)
    hSegments hRun
  obtain ⟨hReconciled, hAgain⟩ := (hOk _ rfl).2 ⟨by rfl, by rfl⟩
  have hGone := hReconciled.gone _ ⟨"old", ["old.dto.ts"], ⟨by rfl, by rfl, by decide⟩, rfl⟩
  refine ⟨last, rfl, ?_, hGone, hAgain⟩
  refine (hSpares ["m", "user", "user.model.ts"] ?_).resolve_right fun hNew => ?_
  · rintro ⟨name, below, hStale, hSame⟩
    obtain ⟨rfl, -⟩ := List.cons.inj (List.cons.inj hSame).2
    exact hStale.gone (by decide)
  · cases hNew.1

/-- A path that goes down into a stale directory and back leads nowhere once that is removed. The
directory is created again, and removed again the next time, and a directory that is there is told to
be created. -/
theorem reconcile_roundabout : ∃ last final,
    mixed.tree.Proper ∧ mixed.tree.Leads "m/old/.." ["m"] ∧ mixed.tree.NoLinkBelow ["m"] ∧
    reconcile "m/old/.." ["user"] mixed = (.ok { removed := ["old"], created := ["user"] }, last) ∧
    last.tree.hasDirectory "m/old" = true ∧
    reconcile "m/old/.." ["user"] last =
      (.ok { removed := ["old"], created := ["user"] }, final) := by
  have hEvaluated :
      ((reconcile "m/old/.." ["user"] mixed).1.toOption ==
          some { removed := ["old"], created := ["user"] } &&
        (reconcile "m/old/.." ["user"] mixed).2.tree.hasDirectory "m/old" &&
        (reconcile "m/old/.." ["user"] (reconcile "m/old/.." ["user"] mixed).2).1.toOption ==
          some { removed := ["old"], created := ["user"] }) = true := by
    decide +kernel
  rcases hRun : reconcile "m/old/.." ["user"] mixed with ⟨fault | changed, last⟩
  · simp [hRun, Except.toOption] at hEvaluated
  rcases hAgain : reconcile "m/old/.." ["user"] last with ⟨fault | again, final⟩
  · simp [hRun, hAgain, Except.toOption] at hEvaluated
  simp only [hRun, hAgain, Except.toOption, Bool.and_eq_true, beq_iff_eq, Option.some.injEq]
    at hEvaluated
  obtain ⟨⟨rfl, hOld⟩, rfl⟩ := hEvaluated
  exact ⟨last, final, mixed_proper, ⟨by rfl, by rfl⟩, mixed_noLinkBelow _, rfl, hOld, hAgain⟩

end Job

end EntityGen
