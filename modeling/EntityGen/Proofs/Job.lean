import EntityGen.Job

/-! Running jobs. A job takes a workspace to a result and a workspace; these are the equations for
the steps from which jobs are made, and the relations between file trees that hold before and after
every job that is made from steps for which they hold. -/

namespace EntityGen.Job

open Files (FileFault FileTree Path)

variable {α β : Type}

@[simp] theorem pure_run (a : α) (workspace : Workspace) :
    (pure a : Job α) workspace = (.ok a, workspace) := rfl

@[simp] theorem throw_run (fault : Fault) (workspace : Workspace) :
    (throw fault : Job α) workspace = (.error fault, workspace) := rfl

/-- A job goes on only after a result. -/
theorem bind_run (job : Job α) (next : α → Job β) (workspace : Workspace) :
    (job >>= next) workspace = match job workspace with
      | (.ok a, workspace) => next a workspace
      | (.error fault, workspace) => (.error fault, workspace) := by
  show ExceptT.bindCont next (job workspace).1 (job workspace).2 = _
  obtain ⟨_ | _, _⟩ := job workspace <;> rfl

theorem bind_run_ok {job : Job α} {workspace after : Workspace} {a : α}
    (h : job workspace = (.ok a, after)) (next : α → Job β) :
    (job >>= next) workspace = next a after := by
  rw [bind_run, h]

theorem bind_run_error {job : Job α} {workspace after : Workspace} {fault : Fault}
    (h : job workspace = (.error fault, after)) (next : α → Job β) :
    (job >>= next) workspace = (.error fault, after) := by
  rw [bind_run, h]

/-- A job in two parts ended in the first one, or ran through it. -/
theorem bind_cases {job : Job α} {next : α → Job β} {workspace after : Workspace}
    {result : Except Fault β} (h : (job >>= next) workspace = (result, after)) :
    (∃ fault, job workspace = (.error fault, after) ∧ result = .error fault) ∨
      ∃ a mid, job workspace = (.ok a, mid) ∧ next a mid = (result, after) := by
  rw [bind_run] at h
  rcases hJob : job workspace with ⟨fault | a, mid⟩
  · rw [hJob] at h
    obtain ⟨rfl, rfl⟩ := Prod.mk.inj h
    exact .inl ⟨fault, rfl, rfl⟩
  · rw [hJob] at h
    exact .inr ⟨a, mid, rfl, h⟩

@[simp] theorem tell_run (notice : Notice) (workspace : Workspace) :
    tell notice workspace =
      (.ok (), { workspace with notices := workspace.notices ++ [notice] }) := rfl

@[simp] theorem tellAll_run (notices : List Notice) (workspace : Workspace) :
    tellAll notices workspace =
      (.ok (), { workspace with notices := workspace.notices ++ notices }) := rfl

@[simp] theorem tree_run (workspace : Workspace) :
    tree workspace = (.ok workspace.tree, workspace) := rfl

@[simp] theorem setTree_run (tree : FileTree) (workspace : Workspace) :
    setTree tree workspace = (.ok (), { workspace with tree }) := rfl

@[simp] theorem outcome_run (job : Job α) (workspace : Workspace) :
    outcome job workspace = (.ok (job workspace).1, (job workspace).2) := rfl

theorem replaceTree_run_ok {changed : Except FileFault FileTree} {tree : FileTree}
    (h : changed = .ok tree) (blame : FileFault → Fault) (workspace : Workspace) :
    replaceTree blame changed workspace = (.ok (), { workspace with tree }) := by
  subst h
  rfl

theorem replaceTree_run_error {changed : Except FileFault FileTree} {cause : FileFault}
    (h : changed = .error cause) (blame : FileFault → Fault) (workspace : Workspace) :
    replaceTree blame changed workspace = (.error (blame cause), workspace) := by
  subst h
  rfl

theorem createDirAll_run (blame : FileFault → Fault) (path : Path) (workspace : Workspace) :
    createDirAll blame path workspace =
      ((match (workspace.tree.createDirAll path).2 with
        | none => .ok ()
        | some cause => .error (blame cause)),
        { workspace with tree := (workspace.tree.createDirAll path).1 }) := by
  simp only [createDirAll, bind_run, tree_run, setTree_run]
  cases (workspace.tree.createDirAll path).2 <;> rfl

/-- A relation holds between the file trees before and after every run of a job. -/
def Keeps (relation : FileTree → FileTree → Prop) (job : Job α) : Prop :=
  ∀ workspace, relation workspace.tree (job workspace).2.tree

namespace Keeps

variable {relation : FileTree → FileTree → Prop} {job : Job α} {next : α → Job β}

theorem run (h : Keeps relation job) {workspace after : Workspace} {result : Except Fault α}
    (hRun : job workspace = (result, after)) : relation workspace.tree after.tree := by
  simpa [hRun] using h workspace

theorem bind (trans : ∀ {a b c}, relation a b → relation b c → relation a c)
    (hJob : Keeps relation job) (hNext : ∀ a, Keeps relation (next a)) :
    Keeps relation (job >>= next) := by
  intro workspace
  have h := hJob workspace
  rw [bind_run]
  rcases hRun : job workspace with ⟨fault | a, after⟩
  · rwa [hRun] at h
  · rw [hRun] at h
    exact trans h (hNext a after)

end Keeps

/-- A job fails with faults of one kind only. -/
def FailsWith (kind : Fault → Prop) (job : Job α) : Prop :=
  ∀ workspace fault, (job workspace).1 = .error fault → kind fault

namespace FailsWith

variable {kind : Fault → Prop} {job : Job α} {next : α → Job β}

theorem pure (a : α) : FailsWith kind (Pure.pure a : Job α) := by
  intro workspace fault h
  simp at h

theorem throw {fault : Fault} (h : kind fault) : FailsWith kind (MonadExcept.throw fault : Job α) := by
  intro workspace other hOther
  simp only [throw_run, Except.error.injEq] at hOther
  exact hOther ▸ h

theorem bind (hJob : FailsWith kind job) (hNext : ∀ a, FailsWith kind (next a)) :
    FailsWith kind (job >>= next) := by
  intro workspace fault h
  rw [bind_run] at h
  rcases hRun : job workspace with ⟨cause | a, after⟩
  · rw [hRun] at h
    obtain rfl : cause = fault := by simpa using h
    exact hJob workspace cause (by rw [hRun])
  · rw [hRun] at h
    exact hNext a after fault h

end FailsWith

end EntityGen.Job
