import EntityGen.Proofs.Generation.Obstruction
import EntityGen.Proofs.Generation.Rounds
import EntityGen.Proofs.Generation.Rulesets

/-! What a run of forms touches. It creates the mappers directory, takes rulesets away that the
forms do not have, and writes those of the models that it is asked for, each as far as that succeeds.
What one part does at a place leaves nothing to do there for the parts after it; so after a run,
however it ends, a place is as it was or was changed by one part alone. -/

namespace EntityGen

open Files (FileTree IsSegment Location Node Path)

variable {directory path : Path} {location place : Location} {stems canonical : List String}
  {files : List (Artifact × String)} {before made cleared after tree : FileTree}
  {workspace last : Workspace}

/-! ### Writing files -/

/-- What writing files does at a place: nothing, or it creates the directory of a model there, or it
puts a file there, in place of another file at most. -/
inductive Supply (location : Location) (files : List (Artifact × String))
    (before after : FileTree) (place : Location) : Prop
  | same (kept : after.node? place = before.node? place)
  | directory {file : Artifact × String} (known : file ∈ files)
      (own : place = location ++ [Naming.stem file.1.model]) (free : before.node? place = none)
      (made : after.node? place = some .directory)
  | file {file : Artifact × String} (known : file ∈ files) (own : place = file.1.place location)
      (fits : ∀ node, before.node? place = some node → ∃ content, node = .file content)
      (written : after.node? place = some (.file file.2.toUTF8))

namespace Supply

theorem mono {more : List (Artifact × String)} (h : Supply location files before after place)
    (hMore : ∀ file ∈ files, file ∈ more) : Supply location more before after place := by
  cases h with
  | same kept => exact .same kept
  | directory known own free made => exact .directory (hMore _ known) own free made
  | file known own fits written => exact .file (hMore _ known) own fits written

theorem trans (h : Supply location files before made place)
    (hNext : Supply location files made after place) :
    Supply location files before after place := by
  cases h with
  | same kept =>
    cases hNext with
    | same next => exact .same (next.trans kept)
    | directory known own free made => exact .directory known own (kept ▸ free) made
    | file known own fits written => exact .file known own (kept ▸ fits) written
  | directory known own free made =>
    cases hNext with
    | same next => exact .directory known own free (next.trans made)
    | directory _ _ other => simp [made] at other
    | file _ _ fits =>
      obtain ⟨content, hFile⟩ := fits _ made
      cases hFile
  | file known own fits written =>
    cases hNext with
    | same next => exact .file known own fits (next.trans written)
    | directory _ _ free => simp [written] at free
    | file known own _ written => exact .file known own fits written

end Supply

namespace Artifact.BelongsTo

variable {artifact : Artifact} {text : String} (h : artifact.BelongsTo path stems)
include h

theorem createDirAll_supplies (hLeads : tree.Leads path location) (place : Location) :
    Supply location [(artifact, text)] tree
      (tree.createDirAll (Path.join path (Naming.stem artifact.model))).1 place := by
  rcases hLeads.createDirAll_join h.isSegment_stem with hSame | ⟨hFree, hPut⟩
  · rw [hSame]
    exact .same rfl
  · have hRoot : location ++ [Naming.stem artifact.model] ≠ [] := by simp
    by_cases hPlace : place = location ++ [Naming.stem artifact.model]
    · refine .directory (List.mem_singleton_self _) hPlace (hPlace ▸ hFree) ?_
      rw [hPut, hPlace, FileTree.node?_put_self hRoot]
    · refine .same ?_
      rw [hPut, FileTree.node?_put_ne hPlace]

theorem write_supplies (hAnchored : tree.Anchored path location)
    (hWrite : tree.write artifact.path text.toUTF8 = .ok after) (place : Location) :
    Supply location [(artifact, text)] tree after place := by
  have hProper := FileTree.write_proper hAnchored.proper hWrite
  obtain ⟨found, hRoot, rfl, hGrows, hPlace⟩ := FileTree.write_ok hWrite
  obtain rfl := h.place_of_locate (hAnchored.grows hGrows hProper) hPlace
  by_cases hOwn : place = artifact.place location
  · subst hOwn
    refine .file (List.mem_singleton_self _) rfl (fun node hNode => ?_)
      (FileTree.node?_put_self hRoot)
    -- A write leaves directories and links as they are, and here is a file afterwards.
    have hFile := @FileTree.node?_put_self tree _ (.file text.toUTF8) hRoot
    cases node with
    | directory =>
      rw [hGrows.within.directory hNode] at hFile
      cases hFile
    | file content => exact ⟨content, rfl⟩
    | link target =>
      rw [hGrows.within.link hNode] at hFile
      cases hFile
  · exact .same (FileTree.node?_put_ne hOwn)

/-- Whatever comes of writing a file if it changed, no more is done than to create the directory of
its model and to put the file there. -/
theorem writeIfChanged_supplies {outcome : Except Fault Bool}
    (hAnchored : workspace.tree.Anchored path location)
    (hRun : Job.writeIfChanged artifact.path text workspace = (outcome, last)) (place : Location) :
    Supply location [(artifact, text)] workspace.tree last.tree place := by
  rw [Job.writeIfChanged, Job.bind_run_ok (Job.tree_run workspace)] at hRun
  split at hRun
  · obtain ⟨-, rfl⟩ := Prod.mk.inj hRun
    exact .same rfl
  obtain ⟨result, hFile⟩ :
      ∃ result, Job.writeFile artifact.path text workspace = (result, last) := by
    rcases Job.bind_cases hRun with ⟨fault, hFile, -⟩ | ⟨_, mid, hFile, hLast⟩
    · exact ⟨_, hFile⟩
    · obtain ⟨-, rfl⟩ := Prod.mk.inj hLast
      exact ⟨_, hFile⟩
  rw [Job.writeFile_eq h.parent?_path] at hFile
  have hMade : Supply location [(artifact, text)] workspace.tree
      (workspace.tree.createDirAll (Path.join path (Naming.stem artifact.model))).1 place :=
    h.createDirAll_supplies hAnchored.leads place
  rcases Job.bind_cases hFile with ⟨fault, hCreate, -⟩ | ⟨_, mid, hCreate, hWrite⟩
  · rw [Job.createDirAll_cases hCreate]
    exact hMade
  have hMid := Job.createDirAll_cases hCreate
  have hGains := workspace.tree.createDirAll_gains (Path.join path (Naming.stem artifact.model))
  have hProper := FileTree.createDirAll_proper hAnchored.proper
    (Path.join path (Naming.stem artifact.model))
  rw [← hMid] at hMade hGains hProper
  rw [Job.bind_run_ok (Job.tree_run mid)] at hWrite
  rcases hWritten : mid.tree.write artifact.path text.toUTF8 with cause | written
  · rw [Job.replaceTree_run_error hWritten] at hWrite
    obtain ⟨-, rfl⟩ := Prod.mk.inj hWrite
    exact hMade
  · rw [Job.replaceTree_run_ok hWritten] at hWrite
    obtain ⟨-, rfl⟩ := Prod.mk.inj hWrite
    exact hMade.trans (h.write_supplies (hAnchored.grows hGains.grows hProper) hWritten place)

end Artifact.BelongsTo

/-- Steps that write files do no more than to create their directories and to put them there,
whether they succeed or not. -/
theorem Job.take_supplies {steps : List Step} {report result : Report}
    (hAnchored : workspace.tree.Anchored path location)
    (hSteps : ∀ write ∈ Step.writes steps, write.1.BelongsTo path stems)
    (h : take steps report workspace = (.ok result, last)) (place : Location) :
    Supply location (Step.writes steps) workspace.tree last.tree place := by
  induction steps generalizing report workspace with
  | nil =>
    obtain ⟨-, rfl⟩ := take_nil h
    exact .same rfl
  | cons step rest ih =>
    cases step with
    | tell notice =>
      obtain ⟨mid, hTree, hRest⟩ := take_tell h
      exact hTree ▸ ih (hTree ▸ hAnchored) hSteps hRest
    | write artifact text =>
      simp only [Step.writes, List.forall_mem_cons] at hSteps
      obtain ⟨outcome, written, mid, hWrite, hTree, hRest⟩ := take_write_run h
      have hFirst := hSteps.1.writeIfChanged_supplies hAnchored hWrite place
      have hMid : written.tree.Anchored path location :=
        (hSteps.1.writeIfChanged_fills hWrite).anchored hAnchored
      rw [← hTree] at hFirst hMid
      refine (hFirst.mono ?_).trans ((ih hMid hSteps.2 hRest).mono ?_)
      · intro file hFile
        rw [List.mem_singleton.mp hFile]
        exact List.mem_cons_self
      · intro file hFile
        exact List.mem_cons_of_mem _ hFile

/-! ### Removing rulesets -/

/-- Those of some directories are reported, in order, from which a file was removed. -/
theorem Job.removeFiles_sublist {fileName : String → String} {names removed : List String}
    (h : removeFiles directory fileName names workspace = (.ok removed, last)) :
    removed.Sublist names := by
  induction names generalizing workspace removed with
  | nil =>
    obtain ⟨hNone, -⟩ := Prod.mk.inj h
    obtain rfl := Except.ok.inj hNone
    exact List.Sublist.refl _
  | cons name rest ih =>
    rw [removeFiles, bind_run_ok (tree_run workspace)] at h
    split at h
    · rw [bind_run_ok (tree_run workspace)] at h
      rcases bind_cases h with ⟨fault, -, hFault⟩ | ⟨_, made, -, hTell⟩
      · cases hFault
      rw [bind_run_ok (tell_run _ _)] at hTell
      rcases bind_cases hTell with ⟨fault, -, hFault⟩ | ⟨others, mid, hRest, hLast⟩
      · cases hFault
      obtain ⟨hNames, rfl⟩ := Prod.mk.inj hLast
      obtain rfl := Except.ok.inj hNames
      exact (ih hRest).cons_cons name
    · exact (ih h).cons name

theorem Job.removeStale_sorted {removed : List String}
    (h : removeStale directory canonical ArtifactKind.ruleset.fileName workspace =
      (.ok removed, last)) : removed.Pairwise (· < ·) := by
  rcases bind_cases h with ⟨fault, -, hFault⟩ | ⟨names, mid, hList, hNext⟩
  · cases hFault
  obtain ⟨-, ⟨fault, hFault⟩ | ⟨found, -, hNames⟩⟩ := existingModelDirs_cases hList
  · cases hFault
  obtain rfl := Except.ok.inj hNames
  refine List.Pairwise.sublist (removeFiles_sublist hNext) ?_
  exact (Text.sorted_pairwise _).sublist List.filter_sublist

/-- What removing rulesets does at a place: nothing, or it removes a ruleset there, in a directory
that belongs to no model. -/
inductive Removal (location : Location) (canonical : List String) (before after : FileTree)
    (place : Location) : Prop
  | same (kept : after.node? place = before.node? place)
  | removed {name : String} {content : ByteArray}
      (own : place = location ++ [name, ArtifactKind.ruleset.fileName name])
      (stale : before.IsStale location canonical name)
      (file : before.node? place = some (.file content)) (gone : after.node? place = none)

/-- Whatever comes of it, no more is done than to remove rulesets from directories that belong to no
model; nothing at all if the mappers directory cannot be listed. -/
theorem Job.removeStale_removes {result : Except Fault (List String)}
    (hProper : workspace.tree.Proper)
    (hLinks : ∀ location, workspace.tree.Leads directory location →
      workspace.tree.NoLinkBelow location)
    (h : removeStale directory canonical ArtifactKind.ruleset.fileName workspace =
      (result, last)) :
    (∃ fault, result = .error fault) ∧ last = workspace ∨
      ∃ location, last.tree.Anchored directory location ∧ workspace.tree.Sheds last.tree ∧
        ∀ place, Removal location canonical workspace.tree last.tree place := by
  rcases bind_cases h with ⟨fault, hList, rfl⟩ | ⟨names, mid, hList, hNext⟩
  · obtain ⟨rfl, -⟩ := existingModelDirs_cases hList
    exact .inl ⟨⟨fault, rfl⟩, rfl⟩
  obtain ⟨rfl, ⟨fault, hFault⟩ | ⟨location, found, hLeads, hNames, hStale⟩⟩ :=
    existingModelDirs_stale canonical hProper hList
  · cases hFault
  obtain rfl := Except.ok.inj hNames
  have hAnchored : mid.tree.Anchored directory location :=
    ⟨hProper, hLeads, hLinks location hLeads⟩
  obtain ⟨hLast, hSheds, -⟩ := removeFiles_clears hNext hAnchored
    fun name hName => ((hStale name).mp hName).found
  obtain ⟨done, hDone, hTree, -⟩ := removeFiles_run hLeads
    (fun name hName => IsStale_isName hProper ((hStale name).mp hName)) (.refl _) hNext
  refine .inr ⟨location, hLast, hSheds, fun place => ?_⟩
  rcases hSheds.node place with hSame | ⟨hGone, content, hFile⟩
  · exact .same hSame
  · have hNode := hGone
    rw [hTree, FileTree.node?_without (DocumentKind.loses_root _)] at hNode
    split at hNode
    · rename_i hLost
      obtain ⟨name, hName, hPlace⟩ := DocumentKind.loses_forms.mp hLost
      exact .removed hPlace ((hStale name).mp (hDone name hName)) hFile hGone
    · rw [hFile] at hNode
      cases hNode

/-! ### What a run of forms does -/

/-- What a run of forms may do at a place: create a directory on the way to the mappers directory,
create the directory of a selected model in it, write the ruleset of a selected model, or remove a
ruleset from a directory that belongs to no model of the forms. -/
inductive RulesetChange (imports : TypeScript.ImportPaths) (directory : Path) (forms : Forms)
    (selected : List (String × FormModel)) (before after : FileTree) (place : Location) : Prop
  | around (way : after.OnWay directory place) (free : before.node? place = none)
      (made : after.node? place = some .directory)
  | modelDir {location : Location} {model : String × FormModel} (known : model ∈ selected)
      (leads : after.Leads directory location) (own : place = location ++ [Naming.stem model.1])
      (free : before.node? place = none) (made : after.node? place = some .directory)
  | written {location : Location} {model : String × FormModel} (known : model ∈ selected)
      (leads : after.Leads directory location)
      (own : place = (Artifact.ofModel directory .ruleset model.1).place location)
      (fits : ∀ node, before.node? place = some node → ∃ content, node = .file content)
      (text : after.node? place =
        some (.file (TypeScript.rulesetText imports (.ofModel model.1 model.2)).toUTF8))
  | removed {location : Location} {name : String} {content : ByteArray}
      (leads : after.Leads directory location)
      (stale : after.IsStale location (canonicalDirs (forms.models.map (·.1))) name)
      (own : place = location ++ [name, ArtifactKind.ruleset.fileName name])
      (file : before.node? place = some (.file content)) (gone : after.node? place = none)

variable {imports : TypeScript.ImportPaths} {forms : Forms} {selected : List (String × FormModel)}

/-- Creating the mappers directory does no more than to create directories on the way there. -/
theorem RulesetChange.of_created (tree : FileTree) (place : Location) :
    (tree.createDirAll directory).1.node? place = tree.node? place ∨
      RulesetChange imports directory forms selected tree (tree.createDirAll directory).1 place := by
  rcases (tree.createDirAll_gains directory).node place with hSame | ⟨hFree, hMade⟩
  · exact .inl hSame
  · exact .inr (.around (FileTree.createDirAll_passes hFree hMade (.refl _)) hFree hMade)

/-- The parts of a run do no more than that one after the other. -/
theorem RulesetChange.of_parts
    (hMade : made = (before.createDirAll directory).1) (hSheds : made.Sheds cleared)
    (hRemoval : Removal location (canonicalDirs (forms.models.map (·.1))) made cleared place)
    (hCleared : cleared.Anchored directory location)
    (hFills : FileTree.Fills directory location (canonicalDirs (forms.models.map (·.1)))
      cleared after)
    (hSupply : Supply location (formFiles imports directory selected) cleared after place) :
    after.node? place = before.node? place ∨
      RulesetChange imports directory forms selected before after place := by
  have hGains : before.Gains made := hMade ▸ before.createDirAll_gains directory
  have hLeads := (hFills.anchored hCleared).leads
  obtain ⟨-, hExtends⟩ := hFills hCleared
  have hWithin := hExtends.grows.within
  rcases hGains.node place with hBefore | ⟨hFree, hNew⟩
  · cases hRemoval with
    | same kept =>
      have hKept := kept.trans hBefore
      cases hSupply with
      | same next => exact .inl (next.trans hKept)
      | directory known own free made =>
        obtain ⟨model, hModel, rfl⟩ := List.mem_map.mp known
        exact .inr (.modelDir hModel hLeads own (hKept ▸ free) made)
      | file known own fits written =>
        obtain ⟨model, hModel, rfl⟩ := List.mem_map.mp known
        exact .inr (.written hModel hLeads own (hKept ▸ fits) written)
    | @removed name content own stale file gone =>
      have hGone : after.node? place = none := by
        subst own
        rw [hExtends.outside stale.gone, gone]
      refine .inr (.removed hLeads ⟨?_, stale.ofModel, stale.gone⟩ own (hBefore ▸ file) hGone)
      exact hWithin.directory (hSheds.keptDirectory stale.found)
  · -- What was created on the way is a directory, and so nothing else is done there.
    have hAfter := hWithin.directory (hSheds.keptDirectory hNew)
    have hPasses : made.OnWay directory place :=
      FileTree.createDirAll_passes hFree (hMade ▸ hNew) (hMade ▸ .refl made)
    refine .inr (.around (hPasses.transfer ?_ ?_ hLeads) hFree hAfter)
    · exact hSheds.sameLinks.trans hExtends.grows.sameLinks
    · exact hWithin.workingDir.trans hSheds.workingDir

variable {generator : Generator} {options : Options} {value : Yaml.Value} {path : Path}
  {report : Report}

/-- Whatever comes of it, the files phase of a run does no more than that at a place. -/
theorem Generator.emitRulesets_changes {result : Except Fault Report}
    (hProper : workspace.tree.Proper) (hRead : Forms.ofValue value = .ok forms)
    (hLinks : ∀ location, (workspace.tree.createDirAll directory).1.Leads directory location →
      workspace.tree.NoLinkBelow location)
    (hFormat : options.format = false)
    (h : generator.emitRulesets directory options forms (options.selectForms forms) workspace =
      (result, last)) (place : Location) :
    last.tree.node? place = workspace.tree.node? place ∨
      RulesetChange generator.imports directory forms (options.selectForms forms) workspace.tree
        last.tree place := by
  rcases Job.bind_cases h with ⟨fault, hCreate, -⟩ | ⟨_, start, hCreate, hNext⟩
  · rw [Job.createDirAll_cases hCreate]
    exact RulesetChange.of_created workspace.tree place
  have hStart := Job.createDirAll_cases hCreate
  have hStartProper : start.tree.Proper := hStart ▸ FileTree.createDirAll_proper hProper directory
  have hStartLinks : ∀ location, start.tree.Leads directory location →
      start.tree.NoLinkBelow location := by
    intro location hLeads
    rw [hStart] at hLeads ⊢
    exact (hLinks location hLeads).gains (workspace.tree.createDirAll_gains directory)
  rcases Job.bind_cases hNext with ⟨fault, hClear, -⟩ | ⟨removed, cleared, hClear, hFinish⟩
  · rcases Job.removeStale_removes hStartProper hStartLinks hClear with
      ⟨-, rfl⟩ | ⟨location, hCleared, hSheds, hRemoves⟩
    · rw [hStart]
      exact RulesetChange.of_created workspace.tree place
    · exact RulesetChange.of_parts hStart hSheds (hRemoves place) hCleared (.refl _)
        (.same rfl)
  · rcases Job.removeStale_removes hStartProper hStartLinks hClear with
      ⟨⟨fault, hFault⟩, -⟩ | ⟨location, hCleared, hSheds, hRemoves⟩
    · cases hFault
    obtain ⟨report, emitted, hTake, -, hTree⟩ := finish_run hFinish
    rw [hTree, formatted_of_not hFormat]
    have hBelongs := Forms.belongsTo hRead generator.imports directory options
    have hSupply := Job.take_supplies hCleared hBelongs hTake place
    rw [Options.writes_formSteps] at hSupply
    exact RulesetChange.of_parts hStart hSheds (hRemoves place) hCleared
      (Job.take_fills (fun write hWrite => (hBelongs write hWrite).eq_ofModel) hTake) hSupply

/-- In the mappers directory nothing lingers but what did when it was made and is out of reach, and a
ruleset was removed from the directories of some names, which are in order. -/
structure Tidied (directory : Path) (canonical removed : List String) (before after : FileTree)
    (location : Location) : Prop where
  made : (before.createDirAll directory).1.Leads directory location
  leads : after.Leads directory location
  lingering : ∀ name, DocumentKind.forms.Lingers location canonical after name ↔
    DocumentKind.forms.Lingers location canonical (before.createDirAll directory).1 name ∧
      DocumentKind.forms.OutOfReach directory name
  sorted : removed.Pairwise (· < ·)
  removed : ∀ name, name ∈ removed ↔ ∃ content,
    before.node? (location ++ [name, ArtifactKind.ruleset.fileName name]) = some (.file content) ∧
      after.node? (location ++ [name, ArtifactKind.ruleset.fileName name]) = none

theorem Generator.generateForms_tidied (hProper : workspace.tree.Proper)
    (hLoad : (loadForms path workspace).1 = .ok forms)
    (hLinks : ∀ location, (workspace.tree.createDirAll directory).1.Leads directory location →
      workspace.tree.NoLinkBelow location)
    (hFormat : options.format = false) (hSelected : options.selectForms forms ≠ [])
    (h : generator.generateForms directory path options workspace = (.ok report, last)) :
    ∃ location, Tidied directory (canonicalDirs (forms.models.map (·.1))) report.removed
      workspace.tree last.tree location := by
  obtain ⟨value, -, hRead⟩ := loadForms_ok_iff.mp hLoad
  obtain ⟨start, removed, cleared, emitted, location, hStart, hAnchored, hClear, hTake, hLast⟩ :=
    generateForms_cleared hProper hLoad hLinks hSelected h
  rw [formatted_of_not hFormat] at hLast
  obtain ⟨hCleared, -, hTaken⟩ := Job.removeStale_clears hAnchored hClear
  have hTaken := hTaken removed rfl
  have hBelongs := Forms.belongsTo hRead generator.imports directory options
  have hFills : FileTree.Fills directory location (canonicalDirs (forms.models.map (·.1)))
      cleared.tree emitted.tree :=
    Job.take_fills (fun write hWrite => (hBelongs write hWrite).eq_ofModel) hTake
  obtain ⟨-, hExtends⟩ := hFills hCleared
  have hBefore {place : Location} {content : ByteArray} :
      start.tree.node? place = some (.file content) ↔
        workspace.tree.node? place = some (.file content) :=
    hStart ▸ (workspace.tree.createDirAll_gains directory).file_iff
  have hRemoved : report.removed = removed := Job.take_removed hTake
  rw [hLast, hRemoved]
  refine ⟨location, hStart ▸ hAnchored.leads, (hFills.anchored hCleared).leads, fun name => ?_,
    Job.removeStale_sorted hClear, fun name => ⟨fun hName => ?_, ?_⟩⟩
  · rw [DocumentKind.Lingers.fills_iff hCleared hFills, hTaken.lingers_iff, hStart]
  · obtain ⟨content, hFile, hNone⟩ := hTaken.mem_iff.mp hName
    refine ⟨content, hBefore.mp hFile, ?_⟩
    rw [hExtends.outside ((hTaken.lingering name).mp hName).1.stale.gone, hNone]
  · rintro ⟨content, hFile, hGone⟩
    refine hTaken.mem_iff.mpr ⟨content, hBefore.mpr hFile, ?_⟩
    -- What is not there when files were written was not there before either.
    refine Option.eq_none_iff_forall_ne_some.mpr fun node hNode => ?_
    obtain ⟨after, hAfter, -⟩ := hExtends.grows.within.node _ node hNode
    rw [hGone] at hAfter
    cases hAfter

/-- A run of forms without the formatter touches rulesets only, if there are no links below the
mappers directory. Nothing changes if the forms are not accepted, or if the run is asked for none of
their models. Whatever the outcome, a place is otherwise as it was, or it was changed in one of the
ways that are allowed. And after a success the rulesets that no model has are gone, but for those
that are out of reach, and the report has in order the names of the directories that one was removed
from. -/
theorem Generator.generateForms_touches_rulesets (generator : Generator) (directory path : Path)
    (options : Options) (workspace last : Workspace) (result : Except Fault Report)
    (hProper : workspace.tree.Proper)
    (hLinks : ∀ location, (workspace.tree.createDirAll directory).1.Leads directory location →
      workspace.tree.NoLinkBelow location)
    (hFormat : options.format = false)
    (hRun : generator.generateForms directory path options workspace = (result, last)) :
    (∀ fault, (loadForms path workspace).1 = .error fault →
      result = .error fault ∧ last.tree = workspace.tree) ∧
    ∀ forms, (loadForms path workspace).1 = .ok forms →
      let selected := options.selectForms forms
      (selected = [] → last.tree = workspace.tree) ∧
      (∀ place, last.tree.node? place = workspace.tree.node? place ∨
        RulesetChange generator.imports directory forms selected workspace.tree last.tree place) ∧
      ∀ report, result = .ok report → selected ≠ [] →
        ∃ location, Tidied directory (canonicalDirs (forms.models.map (·.1))) report.removed
          workspace.tree last.tree location := by
  have hWay := generator.formsRun directory path options workspace
  have hTidied {forms : Forms} (hLoad : (loadForms path workspace).1 = .ok forms) (report : Report)
      (hOk : result = .ok report) (hSelected : options.selectForms forms ≠ []) :=
    generateForms_tidied hProper hLoad hLinks hFormat hSelected (hOk ▸ hRun)
  rw [hRun] at hWay
  generalize hEnd : (result, last) = run at hWay
  cases hWay with
  | unloaded load kept =>
    obtain ⟨rfl, rfl⟩ := Prod.mk.inj hEnd
    rw [load]
    refine ⟨fun fault hFault => ?_, ?_⟩
    · obtain rfl := Except.error.inj hFault
      exact ⟨rfl, kept⟩
    · rintro forms ⟨⟩
  | @unselected read _ load unselected kept =>
    obtain ⟨-, rfl⟩ := Prod.mk.inj hEnd
    refine ⟨fun fault hFault => by simp [load] at hFault, fun forms hLoad => ?_⟩
    exact ⟨fun _ => kept, fun place => .inl (congrArg (·.node? place) kept), hTidied hLoad⟩
  | @emitted read passed load selected kept =>
    refine ⟨fun fault hFault => by simp [load] at hFault, fun forms hLoad => ?_⟩
    obtain rfl : forms = read := by simpa [hLoad] using load
    obtain ⟨value, -, hRead⟩ := loadForms_ok_iff.mp hLoad
    refine ⟨fun hNone => absurd hNone selected, fun place => ?_, hTidied hLoad⟩
    rw [← kept] at hProper hLinks ⊢
    exact emitRulesets_changes hProper hRead hLinks hFormat hEnd.symm place

/-- A directory that belongs to no model of the forms, with a ruleset. -/
def oldRuleset : List (Location × Files.Node) :=
  [(["m"], .directory), (["m", "old"], .directory),
    (["m", "old", "old.form.ts"], .file "old".toUTF8)]

theorem oldRuleset_proper : (withForms oldRuleset).tree.Proper := by decide

theorem oldRuleset_noLinkBelow (location : Location) :
    (withForms oldRuleset).tree.NoLinkBelow location :=
  oldRuleset_proper.noLinkBelow (by simp [withForms, oldRuleset]) location

/-- The forms beside it are those of two models. -/
theorem oldRuleset_forms : ∃ forms, (loadForms "form.tw" (withForms oldRuleset)).1 = .ok forms ∧
    forms.models.map (·.1) = ["A", "B"] ∧ Options.selectForms {} forms ≠ [] := by
  have hEvaluated : ((loadForms "form.tw" (withForms oldRuleset)).1.toOption.any fun forms =>
      forms.models.map (·.1) == ["A", "B"]) = true := by
    decide +kernel
  rcases hLoad : (loadForms "form.tw" (withForms oldRuleset)).1 with cause | forms
  · simp [hLoad, Except.toOption] at hEvaluated
  have hNames : forms.models.map (·.1) = ["A", "B"] := by
    simpa [hLoad, Except.toOption] using hEvaluated
  refine ⟨forms, rfl, hNames, fun hNone => ?_⟩
  rw [← List.map_eq_nil_iff, Options.selectForms_fst, hNames] at hNone
  cases hNone

/-- A run of forms removes the ruleset that they do not have. -/
theorem generateForms_touches_old : ∃ forms report last,
    plainGenerator.generateForms "m" "form.tw" {} (withForms oldRuleset) = (.ok report, last) ∧
    forms.models.map (·.1) = ["A", "B"] ∧ report.removed = ["old"] ∧
    (∀ place, last.tree.node? place = (withForms oldRuleset).tree.node? place ∨
      RulesetChange plainGenerator.imports "m" forms (Options.selectForms {} forms)
        (withForms oldRuleset).tree last.tree place) ∧
    ∃ location, Tidied "m" (canonicalDirs ["A", "B"]) ["old"] (withForms oldRuleset).tree last.tree
      location := by
  have hEvaluated : ((plainGenerator.generateForms "m" "form.tw" {}
      (withForms oldRuleset)).1.toOption.any fun report => report.removed == ["old"]) = true := by
    decide +kernel
  rcases hRun : plainGenerator.generateForms "m" "form.tw" {} (withForms oldRuleset) with
    ⟨fault | report, last⟩
  · simp [hRun, Except.toOption] at hEvaluated
  have hRemoved : report.removed = ["old"] := by simpa [hRun, Except.toOption] using hEvaluated
  obtain ⟨forms, hLoad, hNames, hSelected⟩ := oldRuleset_forms
  obtain ⟨-, hTouches⟩ := plainGenerator.generateForms_touches_rulesets "m" "form.tw" {}
    (withForms oldRuleset) last (.ok report) oldRuleset_proper
    (fun location _ => oldRuleset_noLinkBelow location) rfl hRun
  obtain ⟨-, hPlaces, hOk⟩ := hTouches forms hLoad
  refine ⟨forms, report, last, rfl, hNames, hRemoved, hPlaces, ?_⟩
  rw [← hNames, ← hRemoved]
  exact hOk report rfl hSelected

/-- A path of the directory `m` with steps that lead nowhere. -/
def idleWay : Nat → Path
  | 0 => "m"
  | count + 1 => "./" ++ idleWay count

theorem idleWay_size (count : Nat) : (idleWay count).utf8ByteSize = 2 * count + 1 := by
  induction count with
  | zero => rfl
  | succ count ih =>
    have hPoint : "./".utf8ByteSize = 2 := by rfl
    rw [idleWay, String.utf8ByteSize_append, ih, hPoint]
    omega

theorem idleWay_leads (h : tree.Leads "m" ["m"]) (count : Nat)
    (hFits : 2 * count + 1 ≤ Files.maxPathSize) : tree.Leads (idleWay count) ["m"] := by
  induction count with
  | zero => exact h
  | succ count ih =>
    have hRelative : (idleWay count).isAbsolute = false := by
      cases count <;> simp [idleWay, Path.isAbsolute]
    exact (ih (by omega)).point hRelative (idleWay_size (count + 1) ▸ hFits)

/-- Behind a way that is long enough, a ruleset is out of reach. -/
theorem idleWay_outOfReach : DocumentKind.forms.OutOfReach (idleWay 2040) "old" := by
  have hJoint : (idleWay 2040).utf8ByteSize ≤ (Path.joint (idleWay 2040)).utf8ByteSize := by
    rw [Path.joint]
    split
    · exact le_rfl
    · rw [String.utf8ByteSize_append]
      omega
  have hSizes : "old".utf8ByteSize = 3 ∧ "/".utf8ByteSize = 1 ∧
      (ArtifactKind.ruleset.fileName "old").utf8ByteSize = 11 := by
    decide
  obtain ⟨hName, hSlash, hFile⟩ := hSizes
  refine ⟨rfl, .inl ?_⟩
  rw [Path.join_eq (by decide), Path.joint_join _ (by decide) (by decide), Path.join_eq (by decide)]
  simp only [String.utf8ByteSize_append, hName, hSlash, hFile, Files.maxPathSize]
  rw [idleWay_size] at hJoint
  omega

/-- Where the path of the mappers directory is that long, a run of forms succeeds and leaves a ruleset
in a directory that belongs to no model of the forms. -/
theorem generateForms_keeps_outOfReach : ∃ forms report last,
    (withForms oldRuleset).tree.Proper ∧
    (∀ location, (withForms oldRuleset).tree.NoLinkBelow location) ∧
    (loadForms "form.tw" (withForms oldRuleset)).1 = .ok forms ∧
    forms.models.map (·.1) = ["A", "B"] ∧
    plainGenerator.generateForms (idleWay 2040) "form.tw" {} (withForms oldRuleset) =
      (.ok report, last) ∧
    last.tree.Leads (idleWay 2040) ["m"] ∧
    DocumentKind.forms.Lingers ["m"] (canonicalDirs ["A", "B"]) last.tree "old" ∧
    "old" ∉ report.removed := by
  obtain ⟨forms, hLoad, hNames, hSelected⟩ := oldRuleset_forms
  have hLeads : (withForms oldRuleset).tree.Leads (idleWay 2040) ["m"] :=
    idleWay_leads ⟨by rfl, by rfl⟩ 2040 (by decide)
  have hReach (name : String) (hLingers : DocumentKind.forms.Lingers ["m"]
      (canonicalDirs (forms.models.map (·.1))) (withForms oldRuleset).tree name) :
      DocumentKind.forms.OutOfReach (idleWay 2040) name := by
    have hEntry := (oldRuleset_proper.node?_eq_some_iff (by simp)).mp hLingers.stale.found
    obtain rfl : name = "old" := by simpa [withForms, oldRuleset] using hEntry
    exact idleWay_outOfReach
  obtain ⟨report, emitted, hRun⟩ := plainGenerator.generateForms_formats
    ⟨oldRuleset_proper, hLeads, oldRuleset_noLinkBelow _⟩ hReach hLoad hSelected
  obtain ⟨location, hTidied⟩ := Generator.generateForms_tidied oldRuleset_proper hLoad
    (fun location _ => oldRuleset_noLinkBelow location) rfl hSelected hRun
  have hMade := hTidied.made
  have hLingering := hTidied.lingering "old"
  rw [hLeads.createDirAll_eq_self] at hMade hLingering
  obtain rfl := hLeads.unique hMade
  have hOld : DocumentKind.forms.Lingers ["m"] (canonicalDirs (forms.models.map (·.1)))
      (withForms oldRuleset).tree "old" := by
    rw [hNames]
    exact ⟨⟨by rfl, by rfl, by decide⟩, fun _ => ⟨_, by rfl⟩⟩
  have hLeft := hLingering.mpr ⟨hOld, idleWay_outOfReach⟩
  refine ⟨forms, report, _, oldRuleset_proper, oldRuleset_noLinkBelow, hLoad, hNames, hRun,
    hTidied.leads, hNames ▸ hLeft, fun hName => ?_⟩
  obtain ⟨_, hFile⟩ := hLeft.ruleset rfl
  obtain ⟨_, -, hGone⟩ := (hTidied.removed "old").mp hName
  rw [hFile] at hGone
  cases hGone

end EntityGen
