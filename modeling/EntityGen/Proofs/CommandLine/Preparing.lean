import EntityGen.CommandLine.Generate
import EntityGen.Proofs.Files.Lacking
import EntityGen.Proofs.Watch.Handle

/-! Generating from a document that was prepared. What is prepared is always the file of its kind in
the mappers directory, while what is generated from is the document that was named. The two agree
just if that document lacks nothing but the prepared file. -/

namespace EntityGen

open Files (FileTree Path)

/-! ### The prepared file -/

theorem DocumentKind.isSegment_fileName (kind : DocumentKind) : Files.IsSegment kind.fileName := by
  cases kind <;> exact ⟨by decide, by decide, by decide, by decide⟩

namespace Files.FileTree

theorem createDirAll_empty (tree : FileTree) : tree.createDirAll "" = (tree, none) := rfl

/-- Nothing is created around a name in a directory that is there. -/
theorem Grounded.createDirAll_around {tree : FileTree} (h : tree.Grounded) {path name around : Path}
    (hThere : path = "" ∨ ∃ directory, tree.Leads path directory) (hName : IsSegment name)
    (hFits : pathFault? (Path.join path name) = none)
    (hAround : (Path.join path name).parent? = some around) :
    tree.createDirAll around = (tree, none) := by
  by_cases hEmpty : around = ""
  · rw [hEmpty, createDirAll_empty]
  rcases hThere with rfl | ⟨directory, hLeads⟩
  · have hJoin : Path.join "" name = name := by
      rw [Path.join_eq (Path.isAbsolute_of_noSlash hName.noSlash)]
      exact String.empty_append
    rw [hJoin, Path.parent?, Text.parts_of_notMem hName.noSlash] at hAround
    have hSome : name.isEmpty = false := by simpa using hName.notEmpty
    simp only [Path.trimmed, List.reverse_nil, List.dropWhile_nil, hSome, Bool.false_eq_true,
      if_false, Option.some.injEq] at hAround
    exact absurd hAround.symm hEmpty
  · obtain ⟨inner, hInner⟩ := h.leads_around_join hLeads hName hFits hAround hEmpty
    exact hInner.createDirAll_eq_self

/-- What is written where there was nothing is put at a free place. -/
theorem Grounded.write_new {tree after : FileTree} (h : tree.Grounded) {path : Path}
    {content : ByteArray} (hNew : tree.hasNode path = false)
    (hWrite : tree.write path content = .ok after) :
    ∃ place, tree.locate path = .ok (.vacant place) ∧ after = tree.put place (.file content) := by
  rw [write] at hWrite
  split at hWrite
  · split at hWrite <;> cases hWrite
  · rcases hPlace : tree.locate path with cause | place | place
    · simp [hPlace] at hWrite
    · have hSome : (tree.node? place).isSome = true := by
        rcases h.found hPlace with hNode | ⟨old, hNode⟩ <;> rw [hNode] <;> rfl
      rw [hasNode, nodeAt?, hPlace, hSome] at hNew
      cases hNew
    · rw [hPlace] at hWrite
      exact ⟨place, rfl, (Except.ok.inj hWrite).symm⟩

end Files.FileTree

/-- Writing a file in a directory that is there puts it at a free place, if there was nothing. -/
theorem Job.writeFile_new {path name : Path} {text : String} {workspace after : Workspace}
    {done : Unit} (h : workspace.tree.Grounded)
    (hThere : path = "" ∨ ∃ directory, workspace.tree.Leads path directory)
    (hName : Files.IsSegment name) (hNew : workspace.tree.hasNode (Path.join path name) = false)
    (hRun : writeFile (Path.join path name) text workspace = (.ok done, after)) :
    ∃ place, workspace.tree.locate (Path.join path name) = .ok (.vacant place) ∧
      after.tree = workspace.tree.put place (.file text.toUTF8) := by
  have hEnd {ready : Workspace}
      (hWrite : (tree >>= fun current => replaceTree (.unwritten (Path.join path name))
        (current.write (Path.join path name) text.toUTF8) : Job Unit) ready = (.ok done, after)) :
      ready.tree.write (Path.join path name) text.toUTF8 = .ok after.tree := by
    rw [Job.bind_run, Job.tree_run] at hWrite
    simp only at hWrite
    rcases hWritten : ready.tree.write (Path.join path name) text.toUTF8 with cause | written
    · rw [Job.replaceTree_run_error hWritten] at hWrite
      cases (Prod.mk.inj hWrite).1
    · rw [Job.replaceTree_run_ok hWritten] at hWrite
      rw [← (Prod.mk.inj hWrite).2]
  rw [writeFile] at hRun
  rcases hParent : (Path.join path name).parent? with _ | around
  · rw [hParent] at hRun
    exact h.write_new hNew (hEnd hRun)
  · simp only [hParent] at hRun
    obtain ⟨_, -, hError⟩ | ⟨_, ready, hAround, hWrite⟩ := Job.bind_cases hRun
    · cases hError
    have hWritten := hEnd hWrite
    have hFits : Files.FileTree.pathFault? (Path.join path name) = none := by
      obtain ⟨_, -, -, -, hPlace⟩ := Files.FileTree.write_ok hWritten
      exact (Files.FileTree.locate_eq_ok_iff.mp hPlace).1
    have hReady : ready.tree = workspace.tree := by
      rw [createDirAll_run] at hAround
      rw [← (Prod.mk.inj hAround).2, h.createDirAll_around hThere hName hFits hParent]
    rw [hReady] at hWritten
    exact h.write_new hNew hWritten

/-- Preparing a document makes the directory, and in it the file of the kind unless it is there. -/
theorem Job.ensureDocument_ok {kind : DocumentKind} {directory path : Path}
    {workspace after : Workspace} (hTree : workspace.tree.Grounded)
    (hRun : ensureDocument kind directory workspace = (.ok path, after)) :
    let made := (workspace.tree.createDirAll directory).1
    let own := Path.join directory kind.fileName
    made.hasNode own = true ∧ after.tree = made ∨
      ∃ place content, made.locate own = .ok (.vacant place) ∧
        after.tree = made.put place (.file content) := by
  intro made own
  have hMade : made.Grounded := hTree.createDirAll directory
  obtain ⟨_, -, hError⟩ | ⟨_, ready, hCreate, hRest⟩ := Job.bind_cases hRun
  · cases hError
  rw [createDirAll_run] at hCreate
  obtain ⟨hOk, rfl⟩ := Prod.mk.inj hCreate
  have hThere : directory = "" ∨ ∃ location, made.Leads directory location := by
    by_cases hEmpty : directory = ""
    · exact .inl hEmpty
    · refine .inr (Files.FileTree.createDirAll_leads hEmpty (Prod.ext rfl ?_))
      cases hFault : (workspace.tree.createDirAll directory).2 with
      | none => rfl
      | some cause => simp [hFault] at hOk
  simp only [Job.bind_run, Job.tree_run] at hRest
  cases hNode : made.hasNode own with
  | true =>
    rw [show (workspace.tree.createDirAll directory).1.hasNode
      (Path.join directory kind.fileName) = true from hNode] at hRest
    exact .inl ⟨rfl, (congrArg Workspace.tree (Prod.mk.inj hRest).2).symm⟩
  | false =>
    rw [show (workspace.tree.createDirAll directory).1.hasNode
      (Path.join directory kind.fileName) = false from hNode] at hRest
    refine .inr ?_
    simp only [Bool.not_false, if_true, Job.bind_run, Job.tell_run] at hRest
    generalize hTold : ({ tree := (workspace.tree.createDirAll directory).1, notices :=
      workspace.notices ++ [Notice.creating (Path.join directory kind.fileName)] } : Workspace) =
      told at hRest
    have hTree : told.tree = made := by rw [← hTold]
    rcases hWrite : writeFile (Path.join directory kind.fileName) (newDocument kind) told with
      ⟨fault | done, written⟩
    · rw [hWrite] at hRest
      cases (Prod.mk.inj hRest).1
    · rw [hWrite] at hRest
      obtain ⟨place, hPlace, hPut⟩ := Job.writeFile_new (hTree ▸ hMade) (hTree ▸ hThere)
        kind.isSegment_fileName (hTree ▸ hNode) hWrite
      rw [hTree] at hPlace hPut
      exact ⟨place, _, hPlace, by rw [← (Prod.mk.inj hRest).2, ← hPut]⟩

/-! ### The document that is generated from -/

/-- A generation fails for want of the document just if that is not found. -/
theorem Generator.generate_missing_iff (generator : Generator) (kind : DocumentKind)
    (directory path : Path) (options : Options) (workspace : Workspace) (other : Path) :
    (generator.generate kind directory path options workspace).1 = .error (.missing other) ↔
      other = path ∧ workspace.tree.readText path = .error .notFound := by
  have hUnloaded {fault : Fault} (hLoad : loadDocument path workspace = (.error fault, workspace)) :
      (generator.generate kind directory path options workspace).1 = .error fault := by
    cases kind with
    | schema =>
      have hSchema : loadSchema path workspace = (.error fault, workspace) := by
        rw [loadSchema, Job.bind_run_error hLoad]
      rw [generate, generateSchema, Job.bind_run_error hSchema]
    | forms =>
      have hForms : loadForms path workspace = (.error fault, workspace) := by
        rw [loadForms, Job.bind_run_error hLoad]
      rw [generate, generateForms, Job.bind_run_error hForms]
  rcases hText : workspace.tree.readText path with cause | text
  · have hLoad : loadDocument path workspace = (.error (documentFault path cause), workspace) := by
      rw [loadDocument, Job.bind_run, Job.tree_run]
      simp only [hText, Job.throw_run]
    rw [hUnloaded hLoad]
    cases cause <;> simp [documentFault, eq_comm]
  · rcases hValue : Yaml.parse? text with _ | value
    · have hLoad : loadDocument path workspace = (.error (.malformed path .notYaml), workspace) := by
        rw [loadDocument, Job.bind_run, Job.tree_run]
        simp only [hText, parseDocument, hValue]
        rfl
      rw [hUnloaded hLoad]
      simp
    · have hThere : DocumentAt workspace.tree path value := ⟨text, hText, hValue⟩
      simp [generator.generate_ne_missing kind directory path options hThere other]

namespace Watch

/-- A watch that does not start says why it cannot watch. -/
theorem start_fault (watch : Watch) (snapshots : Snapshots) (workspace : Workspace) :
    ∃ later fault? after, watch.start snapshots workspace = (.ok (later, fault?), after) ∧
      ∀ fault ∈ fault?, ∃ cause, fault = .watch cause := by
  rw [start]
  cases watch.path.fileName? with
  | none => exact ⟨_, _, workspace, rfl, by simp⟩
  | some name =>
    obtain ⟨after, hSeed, -⟩ := @seed_run watch snapshots workspace
    simp only [Job.bind_run_ok hSeed, Job.bind_run, Job.tree_run]
    cases after.tree.hasNode watch.surroundings with
    | true => exact ⟨_, none, _, rfl, by simp⟩
    | false => exact ⟨_, _, after, rfl, by simp⟩

end Watch

namespace CommandLine

variable {settings : Settings} {shell : Shell} {kind : DocumentKind} {document : Option Path}
  {options : Options} {watching : Bool} {workspace : Workspace}

/-- A watch that does not start is not for want of a document. -/
theorem watchOn_ne_missing (pause : Nat) (watch : Watch) (workspace : Workspace) (missing : Path) :
    (watchOn pause watch workspace).1 ≠ .error (.missing missing) := by
  intro hMissing
  obtain ⟨later, fault?, after, hStart, hFault⟩ := watch.start_fault {} workspace
  simp only [watchOn, Registry.start, Registry.startBy, Registry.register, List.nil_append,
    Registry.startAll, Bool.false_eq_true, if_false, Job.bind_run, hStart] at hMissing
  rcases fault? with _ | fault
  · cases hMissing
  · obtain ⟨cause, rfl⟩ := hFault fault rfl
    cases hMissing

/-- A generation finds no document just if the path leads to none when it begins. -/
theorem generate_missing_iff : (∃ missing, (generate settings shell kind document options watching
      workspace).1 = .error (.missing missing)) ↔
    workspace.tree.readText (locations settings kind document).2 = .error .notFound := by
  generalize hLocations : locations settings kind document = located
  obtain ⟨directory, path⟩ := located
  have hIff (missing : Path) := (generatorOf settings shell).generate_missing_iff kind directory path
    options { workspace with notices := workspace.notices ++ [.generating kind] } missing
  rcases hRun : (generatorOf settings shell).generate kind directory path options
      { workspace with notices := workspace.notices ++ [.generating kind] } with
    ⟨fault | report, after⟩
  · simp only [hRun, Except.error.injEq] at hIff
    simp [generate, hLocations, Job.bind_run, hRun, hIff]
  · have hRead : workspace.tree.readText path ≠ .error .notFound := by
      intro hNone
      have hMissing := (hIff path).mpr ⟨rfl, hNone⟩
      rw [hRun] at hMissing
      cases hMissing
    simp only [hRead, iff_false, not_exists]
    intro missing hMissing
    simp only [generate, hLocations, Job.bind_run, Job.tell_run, hRun] at hMissing
    split at hMissing
    · cases hMissing
    · split at hMissing
      · exact watchOn_ne_missing _ _ _ _ hMissing
      · cases hMissing

/-- The same of the action, whatever else it is given. -/
theorem Action.generate_run_missing_iff (names : List String) (format watching : Bool)
    (i18n : Option String) :
    (∃ missing, ((Action.generate document names format watching i18n).run settings shell kind
      workspace).1 = .error (.missing missing)) ↔
    workspace.tree.readText (locations settings kind document).2 = .error .notFound := by
  cases i18n with
  | none => exact generate_missing_iff
  | some path => exact @generate_missing_iff { settings with imports.i18n := path } _ _ _ _ _ _

/-- What is prepared is there afterwards, and is all that is made in the mappers directory. -/
theorem prepare_ok {ending : Ending} {prepared : Workspace}
    (hTree : workspace.tree.Grounded)
    (hRun : prepare settings kind document workspace = (.ok ending, prepared)) :
    let directory := (locations settings kind document).1
    let made := (workspace.tree.createDirAll directory).1
    let own := Path.join directory kind.fileName
    made.hasNode own = true ∧ prepared.tree = made ∨
      ∃ place content, made.locate own = .ok (.vacant place) ∧
        prepared.tree = made.put place (.file content) := by
  rw [prepare] at hRun
  obtain ⟨_, -, hError⟩ | ⟨_, told, hTold, hRest⟩ := Job.bind_cases hRun
  · cases hError
  have hSame : told.tree = workspace.tree := (congrArg Workspace.tree (Prod.mk.inj hTold).2).symm
  obtain ⟨_, -, hError⟩ | ⟨path, ensured, hEnsure, hEnd⟩ := Job.bind_cases hRest
  · cases hError
  have hEnsured := Job.ensureDocument_ok (hSame ▸ hTree) hEnsure
  have hPrepared : ensured.tree = prepared.tree := by rw [← (Prod.mk.inj hEnd).2]
  rw [hSame, hPrepared] at hEnsured
  exact hEnsured

/-- A document bears the name of the file that is prepared for it. -/
def BearsName (settings : Settings) (kind : DocumentKind) : Option Path → Prop
  | some document => document.fileName? = some kind.fileName
  | none => (settings.documentPath kind).SameWay (Path.join settings.mappersDir kind.fileName)

theorem BearsName.sameWay (h : BearsName settings kind document) :
    (locations settings kind document).2.SameWay
      (Path.join (locations settings kind document).1 kind.fileName) := by
  cases document with
  | none => exact h
  | some document =>
    cases hParent : document.parent? with
    | none =>
      simp only [locations, hParent]
      exact Path.sameWay_join_fileName h (.inr ⟨by rw [hParent]; rfl, rfl⟩)
    | some around =>
      by_cases hEmpty : around = ""
      · simp only [locations, hParent, String.isEmpty_iff, hEmpty, if_true]
        exact Path.sameWay_join_fileName h (.inr ⟨by rw [hParent, hEmpty]; rfl, rfl⟩)
      · simp only [locations, hParent, String.isEmpty_iff, hEmpty, if_false]
        exact Path.sameWay_join_fileName h (.inl ⟨hParent, hEmpty⟩)

/-- After a document is prepared, generating by the same settings finds no document just if its path
is empty or, once the mappers directory is made, lacks something that the path of the prepared file
does not lack. It finds one if that bears the name of the prepared file. -/
theorem prepare_generate_missing_iff {ending : Ending} {prepared : Workspace} (names : List String)
    (format watching : Bool) (i18n : Option String) (hTree : workspace.tree.Grounded)
    (hRun : (Action.prepare document).run settings shell kind workspace = (.ok ending, prepared)) :
    let path := (locations settings kind document).2
    let directory := (locations settings kind document).1
    let own := Path.join directory kind.fileName
    let made := (workspace.tree.createDirAll directory).1
    let generated :=
      (Action.generate document names format watching i18n).run settings shell kind prepared
    prepared.tree.hasNode own = true ∧
      ((∃ missing, generated.1 = .error (.missing missing)) ↔
        path = "" ∨ ∃ location, made.LacksAt path location ∧ ¬ made.LacksAt own location) ∧
      (BearsName settings kind document → ∀ missing, generated.1 ≠ .error (.missing missing)) := by
  intro path directory own made generated
  have hMade : made.Grounded := hTree.createDirAll directory
  obtain ⟨hThere, hGrounded, hLacks⟩ : prepared.tree.hasNode own = true ∧ prepared.tree.Grounded ∧
      ∀ location, prepared.tree.LacksAt path location ↔
        made.LacksAt path location ∧ ¬ made.LacksAt own location := by
    rcases prepare_ok hTree hRun with ⟨hOwn, hSame⟩ | ⟨place, content, hPlace, hPut⟩
    · rw [hSame]
      refine ⟨hOwn, hMade, fun location => (and_iff_left ?_).symm⟩
      obtain ⟨place, hPlace⟩ := Files.FileTree.locate_of_hasNode hOwn
      exact Files.FileTree.not_lacksAt_of_taken hPlace
    · obtain ⟨hFree, hRoot⟩ := (Files.FileTree.locate_eq_ok_iff.mp hPlace).2.vacant_node?
      rw [hPut]
      refine ⟨?_, hMade.put hPlace _, fun location => ?_⟩
      · rw [Files.FileTree.hasNode, Files.FileTree.nodeAt?, Files.FileTree.locate_put hPlace]
        simp [Files.FileTree.node?_put_self hRoot]
      · rw [Files.FileTree.lacksAt_put_iff hRoot hFree, Files.FileTree.lacksAt_of_vacant hPlace]
  have hMissing : (∃ missing, generated.1 = .error (.missing missing)) ↔
      path = "" ∨ ∃ location, made.LacksAt path location ∧ ¬ made.LacksAt own location := by
    rw [Action.generate_run_missing_iff, hGrounded.readText_eq_notFound_iff]
    exact or_congr Iff.rfl (exists_congr hLacks)
  refine ⟨hThere, hMissing, fun hName missing hNone => ?_⟩
  have hWay : path.SameWay own := hName.sameWay
  rcases hMissing.mp ⟨missing, hNone⟩ with hEmpty | ⟨location, hLacks, hOther⟩
  · have hSome : kind.fileName ∈ own.components.filter (· != ".") := by
      have hName := kind.isSegment_fileName
      rw [Path.components_join (Path.isAbsolute_of_noSlash hName.noSlash),
        Path.components_of_noSlash hName.noSlash hName.notEmpty, List.mem_filter]
      exact ⟨List.mem_append_right _ (List.mem_singleton_self _), by simp [hName.notHere]⟩
    rw [← hWay.plain, hEmpty, Path.components_empty] at hSome
    cases hSome
  · obtain ⟨place, hPlace⟩ := Files.FileTree.locate_of_hasNode hThere
    exact hOther (hLacks.sameWay hWay (Files.FileTree.locate_eq_ok_iff.mp hPlace).1)

/-- Settings by which the schema has another name than the file that is prepared. -/
def elsewhere : Settings := { schemaFile := "model.tw" }

theorem prepare_generate_elsewhere :
    elsewhere.fault? = none ∧ Files.FileTree.Grounded {} ∧ ∃ ending prepared,
      (Action.prepare none).run elsewhere (fun _ _ => .ok .success) .schema {} =
        (.ok ending, prepared) ∧
      ∃ missing, ((Action.generate none [] false false none).run elsewhere
        (fun _ _ => .ok .success) .schema prepared).1 = .error (.missing missing) := by
  have hTree : Files.FileTree.Grounded {} := ⟨by decide, by decide, rfl⟩
  have hRun : (Action.prepare none).run elsewhere (fun _ _ => .ok .success) .schema {} =
    (.ok .done, (prepare elsewhere .schema none {}).2) := rfl
  have hPath : (Files.FileTree.createDirAll {} "./mappers").1.locate "./mappers/model.tw" =
      .ok (.vacant ["mappers", "model.tw"]) := by decide +kernel
  have hOwn : (Files.FileTree.createDirAll {} "./mappers").1.locate "./mappers/schema.tw" =
      .ok (.vacant ["mappers", "schema.tw"]) := by decide +kernel
  obtain ⟨-, hMissing, -⟩ :=
    prepare_generate_missing_iff [] false false none hTree hRun
  refine ⟨by decide, hTree, .done, _, hRun, hMissing.mpr (.inr ⟨["mappers", "model.tw"], ?_, ?_⟩)⟩
  · exact (Files.FileTree.lacksAt_of_vacant hPath).mpr rfl
  · intro hLacks
    exact absurd ((Files.FileTree.lacksAt_of_vacant hOwn).mp hLacks) (by decide)

end CommandLine

end EntityGen
