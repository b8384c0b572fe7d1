import EntityGen.Proofs.Editor.Replace
import EntityGen.Proofs.Yaml.Decision

/-! The editor's two directions together: what is replaced is what is read, and what is read can be
given back. Reading back what was written of a document is what is assumed of the values that are
submitted. -/

namespace EntityGen

open Yaml (Value)

namespace Editor

/-- A bad request changes no file; a replacement is read as what it is, under the header; and the
models of a schema that loads can be given back, in any order, and are loaded as the same models. -/
theorem replace_agrees_with_read (project : Project) (workspace : Workspace) :
    (∀ submitted, ∃ response, (replaceResponse project submitted workspace).1 = .ok response ∧
      (response.status = 400 ↔ ∃ path cause,
        (replace project submitted workspace).1 = .error (.malformed path cause)) ∧
      (response.status = 400 →
        (replace project submitted workspace).2.tree = workspace.tree ∧
          (replaceResponse project submitted workspace).2.tree = workspace.tree)) ∧
    (∀ submitted after, replace project submitted workspace = (.ok (), after) →
      (∃ text, Yaml.write? submitted.toValue = some text ∧
        after.tree.readText project.schemaPath =
          .ok (DocumentKind.schema.header ++ "\n" ++ text)) ∧
      (ReadsBack submitted.toValue → ∃ schema, Schema.ofValue submitted.toValue = .ok schema ∧
        (loadSchema project.schemaPath after).1 = .ok schema ∧
        (read project after).1 = .ok ⟨project, some schema.models⟩ ∧
        List.Forall₂ Lists (submitted.toValue.entries.filter isModelEntry) schema.models)) ∧
    (workspace.tree.Grounded → ∀ loaded,
      (loadSchema project.schemaPath workspace).1 = .ok loaded →
        (read project workspace).1 = .ok ⟨project, some loaded.models⟩ ∧
        ∀ submitted, (returned loaded.models).toValue.same submitted.toValue = true →
          ReadsBack submitted.toValue →
          ∃ after schema, replace project submitted workspace = (.ok (), after) ∧
            (loadSchema project.schemaPath after).1 = .ok schema ∧
            Shuffled Model.Rearranged loaded.models schema.models) := by
  refine ⟨fun submitted => ?_, fun submitted after h => ⟨?_, fun hBack => ?_⟩,
    fun hGrounded loaded hLoaded => ⟨read_of_loadSchema hLoaded, fun submitted hSame hBack => ?_⟩⟩
  · obtain ⟨response, hResponse, hStatus, hTree⟩ := replaceResponse_run project submitted workspace
    refine ⟨response, hResponse, hStatus, fun hBad => ?_⟩
    obtain ⟨path, cause, hFault⟩ := hStatus.mp hBad
    have hKept := replace_malformed (Prod.ext hFault rfl)
    exact ⟨hKept, hTree.trans hKept⟩
  · obtain ⟨_, text, -, hText, hFile⟩ := replace_ok h
    exact ⟨text, hText, hFile⟩
  · obtain ⟨schema, _, hShape, -, -⟩ := replace_ok h
    have hLoad := loadSchema_of_replace h hBack hShape
    exact ⟨schema, hShape, hLoad, read_of_loadSchema hLoad, models_listed_of_ofValue hShape⟩
  · obtain ⟨value, ⟨⟨text, hFile, hParse⟩, hShape⟩⟩ := loadSchema_ok_iff.mp hLoaded
    obtain ⟨content, hRead, -⟩ := Files.FileTree.readText_eq_ok_iff.mp hFile
    -- What reads back has no key twice, so that no two keys have one text.
    have hUnique : submitted.toValue.UniqueTexts := by
      obtain ⟨written, hWritten⟩ := submitted.exists_write?
      exact submitted.uniqueTexts_toValue (Yaml.parse?_distinct (hBack written hWritten))
    have hModels := wereRead_of_ofValue (Yaml.parse?_distinct hParse) hShape
    obtain ⟨schema, hSubmitted, hShuffled⟩ := hModels.ofValue_of_same hSame hUnique
    obtain ⟨after, hReplace⟩ := replace_of_read hGrounded hRead hSubmitted
    exact ⟨after, schema, hReplace, loadSchema_of_replace hReplace hBack hSubmitted, hShuffled⟩

/-! ### A schema given back -/

/-- A project with a schema of one model, with a field that is renamed and one that is required. -/
def oneModel : Workspace where
  tree := { entries := [(["schema.tw"], .file (String.toUTF8
    "A:\n  type: model\n  mappings:\n    t:\n      map: h\n    d:\n      required: true\n"))] }

def oneProject : Project := ⟨"", "schema.tw", "form.tw"⟩

def renamedAndRequired : Model where
  mappings := [("t", { map := some "h" }), ("d", { required := true })]

/-- The model as it is given back, with the keys of all objects in order. -/
def givenBack : Json :=
  .obj [("A", .obj [
    ("mappings", .obj [("d", .obj [("required", .bool true), ("type", .str "")]),
      ("t", .obj [("map", .str "h"), ("type", .str "")])]),
    ("relationships", .obj []), ("type", .str "model")])]

def givenBackText : String :=
  "A:\n  mappings:\n    d:\n      required: true\n      type: ''\n    t:\n      map: h\n      type: ''\n  relationships: \x7b\x7d\n  type: model\n"

theorem toList_lines (texts : List String) :
    (lines texts).toList = texts.flatMap fun text => text.toList ++ ['\n'] := by
  simp [lines, String.toList_join, List.flatMap_def, Function.comp_def]

theorem givenBack_readsBack : ReadsBack givenBack.toValue := by
  intro text hText
  have hWritten : Yaml.write? givenBack.toValue = some givenBackText := by decide +kernel
  obtain rfl : givenBackText = text := by simpa [hWritten] using hText
  -- The lines of the header are taken apart, so that only lists of characters are left to evaluate.
  rw [Yaml.parse?, Yaml.Stream.ofText?, underHeader, String.toList_append, String.toList_append,
    DocumentKind.header, toList_lines, headerRule, givenBackText]
  simp only [String.toList_append, String.toList_ofList, List.flatMap_cons, List.flatMap_nil]
  repeat rw [String.toList_ofList]
  decide +kernel

/-- The model is given back in another order and loaded as the same model, and a value that is no
schema changes nothing. -/
theorem reordered_given_back :
    (∃ after schema, replace oneProject givenBack oneModel = (.ok (), after) ∧
      (loadSchema "schema.tw" after).1 = .ok schema ∧
      Shuffled Model.Rearranged [("A", renamedAndRequired)] schema.models ∧
      (read oneProject after).1 = .ok ⟨oneProject, some schema.models⟩) ∧
    (replaceResponse oneProject (.arr []) oneModel).2.tree = oneModel.tree := by
  obtain ⟨hRejected, hReplaced, hReturned⟩ := replace_agrees_with_read oneProject oneModel
  constructor
  · have hGrounded : oneModel.tree.Grounded := ⟨by decide, by decide, rfl⟩
    have hLoaded : (loadSchema "schema.tw" oneModel).1 = .ok ⟨[("A", .model renamedAndRequired)]⟩ := by
      have hOption : (loadSchema "schema.tw" oneModel).1.toOption =
          some ⟨[("A", .model renamedAndRequired)]⟩ := by decide +kernel
      rcases hRun : (loadSchema "schema.tw" oneModel).1 with cause | schema
      · simp [hRun, Except.toOption] at hOption
      · simpa [hRun, Except.toOption] using hOption
    obtain ⟨-, hSame⟩ := hReturned hGrounded _ hLoaded
    obtain ⟨after, schema, hReplace, hLoad, hModels⟩ :=
      hSame givenBack (by decide +kernel) givenBack_readsBack
    obtain ⟨schema', -, hLoad', hRead, -⟩ := (hReplaced givenBack after hReplace).2 givenBack_readsBack
    obtain rfl : schema = schema' := by simpa [hLoad] using hLoad'
    exact ⟨after, schema, hReplace, hLoad, hModels, hRead⟩
  · obtain ⟨response, -, hStatus, hKept⟩ := hRejected (.arr [])
    exact (hKept (hStatus.mpr ⟨_, _, rfl⟩)).2

end Editor

end EntityGen
