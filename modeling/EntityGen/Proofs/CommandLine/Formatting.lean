import EntityGen.CommandLine.Generate
import EntityGen.Proofs.Generation.Accounting

/-! The formatter of settings that are loaded. There is always a command, and the pause of a watch is
positive. But what is checked is that some word of the command is not blank, while the program is its
first word: runs start programs with a name only just if that word is not blank. -/

namespace EntityGen

open Files (FileTree Path)

/-! ### Settings that are loaded -/

namespace Settings

variable {settings : Settings}

theorem load_ok_iff {path : Path} {workspace : Workspace} :
    (load path workspace).1 = .ok settings ↔
      ∃ text, workspace.tree.readText path = .ok text ∧ parse? text = some settings ∧
        settings.fault? = none := by
  rw [load, Job.bind_run, Job.tree_run]
  simp only
  rcases workspace.tree.readText path with cause | text
  · simp
  rcases hParse : parse? text with _ | parsed
  · simp [hParse]
  rcases hFault : parsed.fault? with _ | fault
  · simp only [hFault, hParse, Job.pure_run, Except.ok.injEq, exists_eq_left', Option.some.injEq]
    exact ⟨fun h => ⟨h, h ▸ hFault⟩, And.left⟩
  · simp only [hFault, hParse, Job.throw_run, Except.ok.injEq, exists_eq_left', Option.some.injEq,
      reduceCtorEq, false_iff, not_and]
    rintro rfl
    rw [hFault]
    exact Option.some_ne_none fault

/-- Settings are accepted if a word of the formatter is not blank, and there is a pause. -/
theorem fault?_eq_none_iff : settings.fault? = none ↔
    (∃ word ∈ settings.formatter, Text.allBlank word = false) ∧ 0 < settings.debounce := by
  rw [fault?]
  split
  · rename_i hBlank
    rw [List.all_eq_true] at hBlank
    refine iff_of_false (by simp) ?_
    rintro ⟨⟨word, hWord, hNamed⟩, -⟩
    rw [hBlank word hWord] at hNamed
    cases hNamed
  · rename_i hWords
    have hNamed : ∃ word ∈ settings.formatter, Text.allBlank word = false := by
      simpa using hWords
    split
    · rename_i hZero
      exact iff_of_false (by simp) fun h => absurd hZero (Nat.ne_of_gt h.2)
    · rename_i hPause
      exact iff_of_true rfl ⟨hNamed, Nat.pos_of_ne_zero hPause⟩

end Settings

/-! ### Runs with a formatter -/

/-- What is told at the end of formatting a directory. -/
def Shell.notice (shell : Shell) (command : Command) (directory : Path) : Notice :=
  match shell.fault? command directory with
  | some cause => .failed (.unformatted directory cause)
  | none => .formatted command.program

namespace Generator

variable {generator other : Generator} {command : Command} {options : Options}

theorem format_notices (hFormat : options.format = true)
    (hCommand : generator.command? = some command) (directory : Path) (workspace : Workspace) :
    (generator.format directory options workspace).2.notices.getLast? =
      some (generator.shell.notice command directory) := by
  rw [format, hFormat, hCommand]
  simp only [Job.bind_run, Job.tell_run, Job.tree_run, Job.setTree_run, Shell.notice]
  rcases generator.shell.fault? command directory with _ | cause <;> simp

/-- Generators that import the same and format alike generate alike. -/
theorem generate_congr (hImports : generator.imports = other.imports)
    (hFormat : ∀ directory options, generator.format directory options =
      other.format directory options) (kind : DocumentKind) :
    generator.generate kind = other.generate kind := by
  funext directory path options
  cases kind with
  | schema =>
    show generator.generateSchema directory path options =
      other.generateSchema directory path options
    simp only [generateSchema, emitModels, hFormat]
  | forms =>
    show generator.generateForms directory path options = other.generateForms directory path options
    simp only [generateForms, emitRulesets, hImports, hFormat]

end Generator

/-! ### Programs without a name -/

/-- Forms of one model, and a mappers directory. -/
def bareForms : Workspace where
  tree := { entries := [(["form.tw"], .file "A: {}\n".toUTF8), (["m"], .directory)] }

/-- A run for the forms ends with the formatter. -/
theorem bareForms_notices {generator : Generator} {command : Command}
    (hCommand : generator.command? = some command) :
    (generator.generateForms "m" "form.tw" { format := true } bareForms).2.notices.getLast? =
      some (generator.shell.notice command "m") := by
  have hGrounded : bareForms.tree.Grounded := ⟨by decide, by decide, by rfl⟩
  have hAnchored : bareForms.tree.Anchored "m" ["m"] :=
    ⟨hGrounded.proper, ⟨by rfl, by rfl⟩, hGrounded.proper.noLinkBelow (by simp [bareForms]) _⟩
  have hDocument : DocumentAt bareForms.tree "form.tw" (.map [(.str "A", .map [])]) :=
    ⟨"A: {}\n", FileTree.readText_of_read rfl, by decide +kernel⟩
  have hLoad : (loadForms "form.tw" bareForms).1 = .ok ⟨[("A", [])]⟩ :=
    loadForms_ok_iff.mpr ⟨_, hDocument, Forms.ofValue_bare (by decide)⟩
  have hNone (name : String) : bareForms.tree.node? (["m"] ++ [name]) = none := by
    refine Option.eq_none_iff_forall_ne_some.mpr fun node hNode => ?_
    simpa [bareForms] using (hGrounded.proper.node?_eq_some_iff (by simp)).mp hNode
  have hReach (canonical : List String) (name : String)
      (hLingers : DocumentKind.forms.Lingers ["m"] canonical bareForms.tree name) :
      DocumentKind.forms.OutOfReach "m" name := by
    have hFound := hLingers.stale.found
    rw [hNone] at hFound
    cases hFound
  have hSelected : Options.selectForms { format := true } ⟨[("A", [])]⟩ ≠ [] := by decide
  obtain ⟨report, emitted, hRun⟩ :=
    generator.generateForms_formats hAnchored (hReach _) hLoad hSelected
  rw [hRun]
  exact Generator.format_notices rfl hCommand "m" emitted

namespace CommandLine

/-- The runs with some settings start only programs with a name: what they do does not depend on
what the surroundings give for others. -/
def StartsNamed (settings : Settings) : Prop :=
  ∀ shell other : Shell,
    (∀ command directory, Text.allBlank command.program = false →
      shell command directory = other command directory) →
    ∀ kind, (generatorOf settings shell).generate kind = (generatorOf settings other).generate kind

variable {settings : Settings} {command : Command}

theorem startsNamed_iff (hCommand : settings.command? = some command) :
    StartsNamed settings ↔ Text.allBlank command.program = false := by
  constructor
  · intro h
    by_contra hBlank
    rw [Bool.not_eq_false] at hBlank
    -- of two surroundings that differ on blank programs only, one does not start them
    let fine : Shell := fun _ _ => .ok .success
    let strict : Shell := fun command directory =>
      if Text.allBlank command.program then .error .notFound else fine command directory
    have hAgree (command : Command) (directory : Path)
        (hNamed : Text.allBlank command.program = false) :
        fine command directory = strict command directory := by
      simp only [strict, hNamed, Bool.false_eq_true, if_false]
    have hRuns : (generatorOf settings fine).generateForms =
        (generatorOf settings strict).generateForms := h fine strict hAgree .forms
    have hFine := @bareForms_notices (generatorOf settings fine) _ hCommand
    rw [hRuns, @bareForms_notices (generatorOf settings strict) _ hCommand] at hFine
    simp [Shell.notice, Shell.fault?, generatorOf, strict, fine, hBlank] at hFine
  · intro hNamed shell other hAgree kind
    have hFormat (directory : Path) (options : Options) :
        (generatorOf settings shell).format directory options =
          (generatorOf settings other).format directory options := by
      have hSame : shell command directory = other command directory := hAgree _ _ hNamed
      have hFault : Shell.fault? shell command directory = Shell.fault? other command directory := by
        rw [Shell.fault?, Shell.fault?, hSame]
      rw [Generator.format, Generator.format]
      simp only [Generator.formatted, generatorOf, hCommand]
      cases options.format with
      | false => rfl
      | true => simp only [hFault]
    exact @Generator.generate_congr (generatorOf settings shell) (generatorOf settings other) rfl
      hFormat kind

/-- Settings that are loaded have a command to format with, with which files are generated, and a
pause. The runs start only programs with a name just if the first word of the command is not blank;
if it is blank, another word is not. -/
theorem load_runnable_iff {path : Path} {workspace : Workspace}
    (h : (Settings.load path workspace).1 = .ok settings) :
    ∃ program arguments, settings.formatter = program :: arguments ∧
      settings.command? = some ⟨program, arguments⟩ ∧
      (∀ shell, (generatorOf settings shell).command? = some ⟨program, arguments⟩) ∧
      0 < settings.debounce ∧
      (StartsNamed settings ↔ Text.allBlank program = false) ∧
      (Text.allBlank program = true → ∃ word ∈ arguments, Text.allBlank word = false) := by
  obtain ⟨-, -, -, hFault⟩ := Settings.load_ok_iff.mp h
  obtain ⟨⟨word, hWord, hNamed⟩, hPause⟩ := Settings.fault?_eq_none_iff.mp hFault
  rcases hWords : settings.formatter with _ | ⟨program, arguments⟩
  · rw [hWords] at hWord
    cases hWord
  have hCommand : settings.command? = some ⟨program, arguments⟩ := by
    rw [Settings.command?, hWords, Command.ofWords?]
  refine ⟨program, arguments, rfl, hCommand, fun _ => hCommand, hPause, startsNamed_iff hCommand,
    fun hBlank => ?_⟩
  rw [hWords] at hWord
  rcases List.mem_cons.mp hWord with rfl | hWord
  · rw [hBlank] at hNamed
    cases hNamed
  · exact ⟨word, hWord, hNamed⟩

/-- Settings by which the command to format with starts with an empty word. -/
def unnamedProgram : Workspace where
  tree := { entries := [(["mapforge.yaml"], .file "formatter: ['', x]\n".toUTF8)] }

/-- The settings are loaded, and there are runs with them that start a program without a name. -/
theorem load_unnamed : ∃ settings,
    (Settings.load Settings.fileName unnamedProgram).1 = .ok settings ∧
      settings.command? = some ⟨"", ["x"]⟩ ∧ ¬StartsNamed settings := by
  have hLoad : (Settings.load Settings.fileName unnamedProgram).1 =
      .ok { formatter := ["", "x"] } :=
    Settings.load_ok_iff.mpr
      ⟨"formatter: ['', x]\n", FileTree.readText_of_read rfl, by decide +kernel, rfl⟩
  obtain ⟨program, arguments, hWords, hCommand, -, -, hStarts, -⟩ := load_runnable_iff hLoad
  obtain ⟨rfl, rfl⟩ := List.cons.inj hWords
  exact ⟨_, hLoad, hCommand, fun h => absurd (hStarts.mp h) (by decide)⟩

end CommandLine

end EntityGen
