import EntityGen.Proofs.Generation.Mirror

/-! Mappers directories that were brought into line with a schema. The path of the mappers directory
and those of the directories of models lead to directories afterwards, and apart from what was stale
nothing is gone; stale directories are there again only where these paths pass them. So when the
directories are brought into line once more, with files put into the directories of models in
between, the file tree stays the same. -/

namespace EntityGen

open Files (FileTree IsSegment IsName Location Node Path)

namespace Files.FileTree

variable {before after tree : FileTree} {path : Path} {directory : Location}
  {names : List String} {name : String}

/-- At each location there is the same in both trees. -/
structure Same (first second : FileTree) : Prop where
  workingDir : second.workingDir = first.workingDir
  node : ∀ location, second.node? location = first.node? location

namespace Same

theorem refl (tree : FileTree) : tree.Same tree := ⟨rfl, fun _ => rfl⟩

theorem grows (h : before.Same after) : before.Grows after where
  within := ⟨h.workingDir, fun location node hNode =>
    ⟨node, (h.node location).trans hNode, .refl node⟩⟩
  links := fun location _ hLink => (h.node location).symm.trans hLink

end Same

/-- There are no links below a directory. -/
def NoLinkBelow (tree : FileTree) (directory : Location) : Prop :=
  ∀ below target, below ≠ [] → tree.node? (directory ++ below) ≠ some (.link target)

/-- There are no links directly in a directory. -/
def NoLinkIn (tree : FileTree) (directory : Location) : Prop :=
  ∀ name target, tree.node? (directory ++ [name]) ≠ some (.link target)

theorem NoLinkBelow.noLinkIn (h : tree.NoLinkBelow directory) : tree.NoLinkIn directory :=
  fun name target => h [name] target (by simp)

theorem NoLinkBelow.gains (h : before.NoLinkBelow directory) (hGains : before.Gains after) :
    after.NoLinkBelow directory := fun below target hBelow hLink =>
  h below target hBelow (hGains.grows.links _ _ hLink)

/-- Where there are no links below a directory, none are lost with directories in it. -/
theorem NoLinkBelow.sameLinks (h : before.NoLinkBelow directory)
    (hGains : (before.without (DocumentKind.schema.loses directory names)).Gains after) :
    before.SameLinks after := by
  intro location target
  constructor
  · intro hTarget
    refine hGains.kept ?_
    rw [node?_without (DocumentKind.loses_root _), if_neg]
    · exact hTarget
    · rw [DocumentKind.loses_schema]
      rintro ⟨name, -, below, rfl⟩
      exact h _ target (by simp) hTarget
  · intro hTarget
    exact (Loses.without before _).links _ _ (hGains.grows.links _ _ hTarget)

/-- A path leads to a directory below which there are no links, and the paths of some names joined to
it lead to directories in it. -/
structure LaidOut (tree : FileTree) (path : Path) (directory : Location) (names : List String) :
    Prop where
  anchored : tree.Anchored path directory
  dirs : ∀ name ∈ names, tree.Leads (Path.join path name) (directory ++ [name])

theorem LaidOut.grows (h : before.LaidOut path directory names) (hGrows : before.Grows after)
    (hProper : after.Proper) : after.LaidOut path directory names where
  anchored := h.anchored.grows hGrows hProper
  dirs := fun name hName => (h.dirs name hName).within hGrows.within

end Files.FileTree

variable {before after made last : FileTree} {path : Path} {directory place : Location}
  {canonical removed : List String} {name : String}

/-- The mappers directory was brought into line with the directories of a schema. -/
structure Aligned (path : Path) (directory : Location) (canonical removed : List String)
    (before after : FileTree) : Prop where
  proper : after.Proper
  leads : before.Leads path directory
  stale : ∀ name, name ∈ removed ↔ before.IsStale directory canonical name
  gains : (before.without (DocumentKind.schema.loses directory removed)).Gains after
  made : ∀ place,
    (before.without (DocumentKind.schema.loses directory removed)).node? place = none →
    after.node? place = some .directory → ∃ name ∈ canonical, after.OnWay (Path.join path name) place
  found : ∀ name ∈ canonical, ∃ place, after.Leads (Path.join path name) place

namespace Job

variable {workspace last : Workspace} {names : List String}

/-- Creating directories of models creates directories only where their paths pass, also when it
fails. -/
theorem createModelDirs_onWay {result : Except Fault (List String)} {final : FileTree}
    (h : createModelDirs path names workspace = (result, last)) (hFinal : last.tree.Within final)
    (hFree : workspace.tree.node? place = none) (hNew : last.tree.node? place = some .directory) :
    ∃ name ∈ names, final.OnWay (Path.join path name) place := by
  induction names generalizing workspace result with
  | nil =>
    obtain ⟨-, rfl⟩ := Prod.mk.inj h
    simp [hFree] at hNew
  | cons name rest ih =>
    rw [List.exists_mem_cons_iff]
    rw [createModelDirs, bind_run_ok (tree_run workspace)] at h
    split at h
    · exact .inr (ih h hFree)
    rcases bind_cases h with ⟨fault, hCreate, -⟩ | ⟨_, made, hCreate, hNext⟩
    · rw [createDirAll_run] at hCreate
      obtain ⟨-, rfl⟩ := Prod.mk.inj hCreate
      exact .inl (FileTree.createDirAll_passes hFree hNew hFinal)
    rw [createDirAll_run] at hCreate
    obtain ⟨-, rfl⟩ := Prod.mk.inj hCreate
    rw [bind_run_ok (tell_run _ _)] at hNext
    obtain ⟨outcome, hRest⟩ : ∃ outcome, createModelDirs path rest
        { workspace with
          tree := (workspace.tree.createDirAll (Path.join path name)).1
          notices := workspace.notices ++ [.directoryCreated name] } = (outcome, last) := by
      rcases bind_cases hNext with ⟨fault, hRest, -⟩ | ⟨names, mid, hRest, hLast⟩
      · exact ⟨_, hRest⟩
      · obtain ⟨-, rfl⟩ := Prod.mk.inj hLast
        exact ⟨_, hRest⟩
    have hGains := createModelDirs_gains hRest
    rcases hGains.node place with hSame | ⟨hNone, -⟩
    · exact .inl (FileTree.createDirAll_passes hFree (hSame ▸ hNew)
        (hGains.grows.within.trans hFinal))
    · exact .inr (ih hRest hNone)

/-- Directories of models that were created without a fault are there. -/
theorem createModelDirs_leads {created : List String} (hNames : ∀ name ∈ names, name ≠ "")
    (h : createModelDirs path names workspace = (.ok created, last)) :
    ∀ name ∈ names, ∃ place, last.tree.Leads (Path.join path name) place := by
  induction names generalizing workspace created with
  | nil => simp
  | cons name rest ih =>
    rw [List.forall_mem_cons] at hNames ⊢
    rw [createModelDirs, bind_run_ok (tree_run workspace)] at h
    split at h
    · rename_i hThere
      obtain ⟨place, hLeads⟩ := FileTree.hasDirectory_eq_true_iff.mp hThere
      exact ⟨⟨place, hLeads.within (createModelDirs_gains h).grows.within⟩, ih hNames.2 h⟩
    · rcases bind_cases h with ⟨fault, -, hFault⟩ | ⟨_, made, hCreate, hNext⟩
      · cases hFault
      rw [createDirAll_run] at hCreate
      obtain ⟨hOk, rfl⟩ := Prod.mk.inj hCreate
      rw [bind_run_ok (tell_run _ _)] at hNext
      rcases bind_cases hNext with ⟨fault, -, hFault⟩ | ⟨names, mid, hRest, hLast⟩
      · cases hFault
      obtain ⟨-, rfl⟩ := Prod.mk.inj hLast
      have hOwn : ∃ place, (workspace.tree.createDirAll (Path.join path name)).1.Leads
          (Path.join path name) place := by
        refine FileTree.createDirAll_leads (Path.join_ne_empty hNames.1) (Prod.ext rfl ?_)
        rcases hFault : (workspace.tree.createDirAll (Path.join path name)).2 with _ | cause
        · rfl
        · simp [hFault] at hOk
      obtain ⟨place, hLeads⟩ := hOwn
      exact ⟨⟨place, hLeads.within (createModelDirs_gains hRest).grows.within⟩, ih hNames.2 hRest⟩

theorem createModelDirs_proper (path : Path) (names : List String) :
    Keeps (fun before after => before.Proper → after.Proper) (createModelDirs path names) := by
  induction names with
  | nil => exact fun _ => id
  | cons name rest ih =>
    refine .bind (fun h hNext => hNext ∘ h) (fun _ => id) fun tree => ?_
    split
    · exact ih
    · refine .bind (fun h hNext => hNext ∘ h) (fun workspace => ?_) fun _ =>
        .bind (fun h hNext => hNext ∘ h) (fun _ => id) fun _ =>
          .bind (fun h hNext => hNext ∘ h) ih fun _ _ => id
      rw [createDirAll_run]
      exact fun hProper => FileTree.createDirAll_proper hProper _

theorem reconcile_aligned {changed : Reconciliation} (hProper : workspace.tree.Proper)
    (hCanonical : ∀ name ∈ canonical, name ≠ "")
    (h : reconcile path canonical workspace = (.ok changed, last)) :
    ∃ directory, Aligned path directory canonical changed.removed workspace.tree last.tree := by
  rcases reconcile_cases hProper h with ⟨fault, hFault, -⟩ | ⟨directory, hLeads, hCases⟩
  · cases hFault
  rcases hCases with ⟨fault, _, hFault, -⟩ | ⟨cleared, outcome, hTree, hDirs, hChanged⟩
  · cases hFault
  cases outcome with
  | error fault => cases hChanged
  | ok created =>
    obtain rfl := Except.ok.inj hChanged
    have hGains := createModelDirs_gains hDirs
    have hCleared : cleared.tree.Proper := hTree ▸ hProper.without _
    have hAfter := (createModelDirs_proper path canonical).run hDirs hCleared
    have hMade (place : Location) (hFree : cleared.tree.node? place = none) :
        last.tree.node? place = some .directory →
          ∃ name ∈ canonical, last.tree.OnWay (Path.join path name) place :=
      createModelDirs_onWay hDirs (.refl _) hFree
    rw [hTree] at hGains hMade
    exact ⟨directory, hAfter, hLeads, fun name => FileTree.mem_stale hProper, hGains, hMade,
      createModelDirs_leads hCanonical hDirs⟩

end Job

namespace Aligned

section

variable (h : Aligned path directory canonical removed before after)
include h

theorem workingDir : after.workingDir = before.workingDir := h.gains.workingDir

/-- What is not in a stale directory stays. -/
theorem kept {node : Node} (hNode : before.node? place = some node)
    (hKept : DocumentKind.schema.loses directory removed place = false) :
    after.node? place = some node := by
  refine h.gains.kept ?_
  rw [FileTree.node?_without (DocumentKind.loses_root _), hKept]
  exact hNode

/-- The directories of models are not stale. -/
theorem keeps_dir {below : List String} (hName : name ∈ canonical) :
    DocumentKind.schema.loses directory removed (directory ++ name :: below) = false :=
  Bool.eq_false_iff.mpr fun hLost =>
    ((h.stale name).mp (DocumentKind.loses_schema_below.mp hLost)).gone hName

/-- A file stays just if it is not in a stale directory. -/
theorem file_iff {content : ByteArray} (hNode : before.node? place = some (.file content)) :
    after.node? place = some (.file content) ↔
      DocumentKind.schema.loses directory removed place = false := by
  refine ⟨fun hAfter => Bool.eq_false_iff.mpr fun hLost => ?_, h.kept hNode⟩
  rcases h.gains.node place with hSame | ⟨-, hNew⟩
  · rw [hAfter, FileTree.node?_without (DocumentKind.loses_root _), if_pos hLost] at hSame
    cases hSame
  · rw [hAfter] at hNew
    cases hNew

/-- What is found in a directory that was not removed is either as it was, or newly created. -/
theorem node_eq_or_new (hKept : DocumentKind.schema.loses directory removed place = false) :
    after.node? place = before.node? place ∨
      before.node? place = none ∧ after.node? place = some .directory := by
  have hSame : (before.without (DocumentKind.schema.loses directory removed)).node? place =
      before.node? place := by
    rw [FileTree.node?_without (DocumentKind.loses_root _), hKept]
    rfl
  simpa only [hSame] using h.gains.node place

/-- What was taken away is gone, or was created again as a directory on the way to those of models. -/
theorem lost_cases (hLost : DocumentKind.schema.loses directory removed place = true) :
    after.node? place = none ∨ after.node? place = some .directory := by
  refine (h.gains.node place).imp (fun hSame => ?_) And.right
  rw [hSame, FileTree.node?_without (DocumentKind.loses_root _), if_pos hLost]

/-- What was created is there in every tree with the same links in which there are the directories of
models. -/
theorem created_again (hLinks : after.SameLinks last) (hStart : last.workingDir = after.workingDir)
    (hFound : ∀ name ∈ canonical, ∃ place, last.Leads (Path.join path name) place)
    (hFree : (before.without (DocumentKind.schema.loses directory removed)).node? place = none)
    (hNew : after.node? place = some .directory) : last.node? place = some .directory := by
  obtain ⟨model, hModel, hPasses⟩ := h.made _ hFree hNew
  obtain ⟨place, hPlace⟩ := hFound model hModel
  exact (hPasses.transfer hLinks hStart hPlace).isDirectory

/-- Of what was taken away each time when directories were brought into line in two trees with the same
links, the same is created again. -/
theorem same_lost {others : List String} {initial : FileTree}
    (hOther : Aligned path directory canonical others initial last) (hLinks : after.SameLinks last)
    (hStart : last.workingDir = after.workingDir)
    (hLost : DocumentKind.schema.loses directory removed place = true)
    (hLostOther : DocumentKind.schema.loses directory others place = true) :
    last.node? place = after.node? place := by
  have hFree {names : List String} {tree : FileTree}
      (hLost : DocumentKind.schema.loses directory names place = true) :
      (tree.without (DocumentKind.schema.loses directory names)).node? place = none := by
    rw [FileTree.node?_without (DocumentKind.loses_root _), if_pos hLost]
  rcases h.lost_cases hLost with hGone | hNew
  · rcases hOther.lost_cases hLostOther with hNone | hNew
    · rw [hGone, hNone]
    · have hAgain := hOther.created_again hLinks.symm hStart.symm h.found (hFree hLostOther) hNew
      rw [hNew, hAgain]
  · rw [hNew, h.created_again hLinks hStart hOther.found (hFree hLost) hNew]

section

variable (hIn : before.NoLinkIn directory) (hLeads : after.Leads path directory)
include hIn

theorem noLinkIn : after.NoLinkIn directory := fun _ _ hTarget =>
  hIn _ _ ((FileTree.Loses.without before _).links _ _ (h.gains.grows.links _ _ hTarget))

include hLeads

/-- Where the path leads to the mappers directory, the paths of the directories of models lead to
directories in it. -/
theorem leads_join (hName : name ∈ canonical) (hSegment : IsSegment name) :
    after.Leads (Path.join path name) (directory ++ [name]) := by
  obtain ⟨place, hPlace⟩ := h.found name hName
  obtain rfl := hLeads.place_of_join hSegment (h.noLinkIn hIn name) hPlace.locate
  exact hPlace

end

/-- What was created apart from the directories of models is passed by the path of the mappers
directory in any tree with the same links where that path leads there. -/
theorem onWay {other : FileTree} (hLinks : after.SameLinks other)
    (hStart : other.workingDir = after.workingDir) (hLeads : other.Leads path directory)
    (hIn : other.NoLinkIn directory) (hSegments : ∀ name ∈ canonical, IsSegment name)
    (hFree : (before.without (DocumentKind.schema.loses directory removed)).node? place = none)
    (hFound : after.node? place = some .directory)
    (hOther : ∀ name ∈ canonical, place ≠ directory ++ [name]) : other.OnWay path place := by
  obtain ⟨model, hModel, hPasses⟩ := h.made _ hFree hFound
  have hSegment := hSegments model hModel
  rcases hPasses.of_join hLinks hStart hLeads hSegment.noSlash hSegment.notEmpty hSegment.notHere
    hSegment.notBack (hIn model) with hOn | hOwn
  · exact hOn
  · exact absurd hOwn (hOther model hModel)

/-- If the path of the mappers directory does not pass what was removed, nothing is stale
afterwards. -/
theorem nothing_stale (hIn : before.NoLinkIn directory)
    (hSegments : ∀ name ∈ canonical, IsSegment name)
    (hCleared : (before.without (DocumentKind.schema.loses directory removed)).Leads path directory) :
    ¬ after.IsStale directory canonical name := by
  intro hStale
  have hFree : (before.without (DocumentKind.schema.loses directory removed)).node?
      (directory ++ [name]) ≠ some .directory := by
    intro hFound
    have hBefore := (FileTree.Loses.without before _).within.directory hFound
    have hRemoved := (h.stale name).mpr ⟨hBefore, hStale.ofModel, hStale.gone⟩
    rw [before.node?_without_dirs hRemoved] at hFound
    cases hFound
  rcases h.gains.node (directory ++ [name]) with hSame | ⟨hNone, -⟩
  · exact hFree (hSame.symm.trans hStale.found)
  -- What is new is on the way, and a path passes directories only.
  have hOn := h.onWay h.gains.grows.sameLinks.symm h.gains.workingDir.symm hCleared
    (fun _ _ hLink => hIn _ _ ((FileTree.Loses.without before _).links _ _ hLink)) hSegments hNone
    hStale.found fun model hModel hSame =>
      hStale.gone ((List.cons.inj (List.append_cancel_left hSame)).1 ▸ hModel)
  exact hFree hOn.isDirectory

variable (hLink : before.NoLinkBelow directory)
include hLink

theorem sameLinks : before.SameLinks after := hLink.sameLinks h.gains

theorem noLinkBelow : after.NoLinkBelow directory := fun below target hBelow hTarget =>
  hLink below target hBelow ((h.sameLinks hLink _ _).mpr hTarget)

variable (hSegments : ∀ name ∈ canonical, IsSegment name)
include hSegments

/-- After the mappers directory was brought into line its path leads there, unless there are no
models. -/
theorem leads_after (hSome : canonical ≠ []) : after.Leads path directory := by
  obtain ⟨name, hName⟩ := List.exists_mem_of_ne_nil canonical hSome
  have hSegment := hSegments name hName
  obtain ⟨place, hPlace⟩ := h.found name hName
  have hRelative := Path.isAbsolute_of_noSlash hSegment.noSlash
  have hWalk := hPlace.walks
  rw [FileTree.startOf, Path.isAbsolute_join hRelative, Path.components_join hRelative,
    Path.components_of_noSlash hSegment.noSlash hSegment.notEmpty] at hWalk
  obtain ⟨around, left, hBefore, -⟩ := hWalk.before (by simp)
  have hAround := hBefore.of_point_end
  have hOther := hAround.walk_eq
  rw [h.workingDir] at hOther
  obtain rfl := h.leads.walks.same_place (h.sameLinks hLink) hOther
  refine .of_walks (Files.FileTree.locate_eq_ok_iff.mp h.leads.locate).1 hAround ?_
  exact h.kept h.leads.directory (DocumentKind.loses_of_prefix (List.prefix_refl _))

theorem laidOut (hSome : canonical ≠ []) : after.LaidOut path directory canonical where
  anchored := ⟨h.proper, h.leads_after hLink hSegments hSome, h.noLinkBelow hLink⟩
  dirs := fun name hName => h.leads_join hLink.noLinkIn (h.leads_after hLink hSegments hSome) hName
    (hSegments name hName)

/-- What is neither in a stale directory nor the directory of a model is as it was. -/
theorem node_eq (hKept : DocumentKind.schema.loses directory removed place = false)
    (hOther : ∀ name ∈ canonical, place ≠ directory ++ [name]) :
    after.node? place = before.node? place := by
  rcases h.node_eq_or_new hKept with hSame | ⟨hNone, hNew⟩
  · exact hSame
  · have hFree : (before.without (DocumentKind.schema.loses directory removed)).node? place =
        none := by
      rw [FileTree.node?_without (DocumentKind.loses_root _), hKept]
      exact hNone
    have hBefore := h.onWay (h.sameLinks hLink).symm h.workingDir.symm h.leads hLink.noLinkIn
      hSegments hFree hNew hOther
    rw [hBefore.isDirectory] at hNone
    cases hNone

/-- What is stale afterwards was stale before, and removed. -/
theorem stale_again (hStale : after.IsStale directory canonical name) : name ∈ removed := by
  by_contra hKept
  have hLost : DocumentKind.schema.loses directory removed (directory ++ [name]) = false :=
    Bool.eq_false_iff.mpr fun hLost => hKept (DocumentKind.loses_schema_below.mp hLost)
  have hSame := h.node_eq hLink hSegments hLost fun other hOther hSame =>
    hStale.gone ((List.cons.inj (List.append_cancel_left hSame)).1 ▸ hOther)
  exact hKept ((h.stale name).mpr ⟨hSame.symm.trans hStale.found, hStale.ofModel, hStale.gone⟩)

end

/-- When the directories are brought into line again, with no more than additions to the directories
of models in between, the file tree stays as it is. -/
theorem again {others : List String} (h : Aligned path directory canonical removed before made)
    (hLink : before.NoLinkBelow directory) (hSegments : ∀ name ∈ canonical, IsSegment name)
    (hSome : canonical ≠ []) (hLast : last.Proper)
    (hExtends : made.Extends last directory canonical)
    (hAgain : Aligned path directory canonical others last after) : last.Same after := by
  have hLaid := h.laidOut hLink hSegments hSome
  have hLastLaid := hLaid.grows hExtends.grows hLast
  have hLinks := hAgain.sameLinks hLastLaid.anchored.noLink
  -- What was created in one of the trees is there in the others too.
  have hBack {place : Location} (hNew : after.node? place = some .directory)
      (hFree : last.node? place = none) : False := by
    have hNone : (last.without (DocumentKind.schema.loses directory others)).node? place = none := by
      rw [FileTree.node?_without (DocumentKind.loses_root _), hFree]
      split <;> rfl
    have hThere := hAgain.created_again hLinks.symm hAgain.workingDir.symm
      (fun model hModel => ⟨_, hLastLaid.dirs model hModel⟩) hNone hNew
    rw [hThere] at hFree
    cases hFree
  refine ⟨hAgain.workingDir, fun place => ?_⟩
  by_cases hLost : DocumentKind.schema.loses directory others place = true
  · obtain ⟨name, hName, below, rfl⟩ := DocumentKind.loses_schema.mp hLost
    have hStale := (hAgain.stale name).mp hName
    have hSame := hExtends.outside hStale.gone
    have hMadeStale : made.IsStale directory canonical name :=
      ⟨(hSame []).symm.trans hStale.found, hStale.ofModel, hStale.gone⟩
    have hRemoved := h.stale_again hLink hSegments hMadeStale
    have hFree : (before.without (DocumentKind.schema.loses directory removed)).node?
        (directory ++ name :: below) = none := before.node?_without_dirs hRemoved below
    rw [hSame]
    rcases h.gains.node (directory ++ name :: below) with hNone | ⟨-, hNew⟩
    · rw [hFree] at hNone
      have hGone : (last.without (DocumentKind.schema.loses directory others)).node?
          (directory ++ name :: below) = none := by
        rw [FileTree.node?_without (DocumentKind.loses_root _), if_pos hLost]
      rcases hAgain.gains.node (directory ++ name :: below) with hKept | ⟨-, hBad⟩
      · rw [hNone, hKept, hGone]
      · exact (hBack hBad ((hSame below).trans hNone)).elim
    · rw [hNew]
      exact h.created_again (hExtends.grows.sameLinks.trans hLinks)
        (hAgain.workingDir.trans hExtends.grows.within.workingDir) hAgain.found hFree hNew
  · rcases hAgain.node_eq_or_new (Bool.eq_false_iff.mpr hLost) with hSame | ⟨hFree, hNew⟩
    · exact hSame
    · exact (hBack hNew hFree).elim

end Aligned

end EntityGen
