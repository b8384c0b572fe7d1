import EntityGen.Proofs.Number
import EntityGen.Proofs.Shape
import EntityGen.Proofs.Shuffled
import EntityGen.Proofs.Yaml.Alike
import EntityGen.Schema.Reader

/-! What readers give for values that are alike. Scalars are equal, a record holds under each of its
names what is read there, and a table has the same rows, in another order perhaps. -/

namespace EntityGen.Shape

open Yaml (Value)
open Yaml.Value (Alike Corresponds IsUnder isUnder_cons mem_texts_iff text?_eq_some_iff)

variable {α β : Type}

/-! ### Scalars -/

theorem textAs_eq_ok {wanted : String} {value : Value} {s : String} :
    textAs wanted value = .ok s ↔ value.text? = some s := by
  rw [textAs, text?_eq_some_iff]
  split <;> simp_all

theorem text_agrees {a b : Value} (h : Alike a b) {s t : String} (ha : text a = .ok s)
    (hb : text b = .ok t) : s = t := by
  have hText := (Yaml.Value.text?_eq_iff_of_same h.same).mp (textAs_eq_ok.mp ha)
  exact Option.some.inj (hText.symm.trans (textAs_eq_ok.mp hb))

theorem flag_agrees {a b : Value} (h : Alike a b) {s t : Bool} (ha : flag a = .ok s)
    (hb : flag b = .ok t) : s = t := by
  have hSame := h.untagged.same
  rw [flag] at ha hb
  split at ha <;> cases ha
  split at hb <;> cases hb
  simp_all [Value.same]

theorem number_agrees {a b : Value} (h : Alike a b) {x y : Number} (ha : number a = .ok x)
    (hb : number b = .ok y) : x.sameValue y := by
  have hSame := h.untagged.same
  rw [number] at ha hb
  split at ha <;> cases ha <;> split at hb <;> cases hb <;>
    simp_all [Value.same, Number.sameValue_refl]

theorem optional_agrees {R : α → α → Prop} {read : Value → Result α} {a b : Value}
    (h : Alike a b) (hRead : ∀ x y, read a = .ok x → read b = .ok y → R x y) {x y : Option α}
    (hx : optional read a = .ok x) (hy : optional read b = .ok y) : Option.Rel R x y := by
  by_cases ha : a = .null
  · subst ha
    rw [Yaml.Value.same_null_iff.mp h.same] at hy
    cases hx
    cases hy
    exact .none
  · have hb : b ≠ .null := fun hb => ha (Yaml.Value.eq_null_of_same (hb ▸ h.same))
    rw [optional.eq_2 read a ha, Result.map_eq_ok] at hx
    rw [optional.eq_2 read b hb, Result.map_eq_ok] at hy
    obtain ⟨x, hx, rfl⟩ := hx
    obtain ⟨y, hy, rfl⟩ := hy
    exact .some (hRead x y hx hy)

theorem optionalText_agrees {a b : Value} (h : Alike a b) {x y : Option String}
    (hx : optional text a = .ok x) (hy : optional text b = .ok y) :
    x = y := by
  rcases optional_agrees h (fun _ _ => text_agrees h) hx hy with ⟨rfl⟩ | _
  · rfl
  · rfl

/-! ### Records -/

section Record

variable {step : String → Value → α → Option (Result α)} {unknown : String → Result Unit}

/-- A record has a field of a name: `get` gives what `read` reads there, and no other name changes
it. -/
structure HasField (step : String → Value → α → Option (Result α)) (name : String)
    (read : Value → Result β) (get : α → β) : Prop where
  known : ∀ value record, step name value record ≠ none
  reads : ∀ value record next, step name value record = some (.ok next) →
    read value = .ok (get next)
  keeps : ∀ other, other ≠ name → ∀ value record next,
    step other value record = some (.ok next) → get next = get record

/-- A field holds what is read under its name, or a default if nothing stands there. -/
inductive FieldOf (entries : List (Value × Value)) (name : String) (read : Value → Result β)
    (default : β) : β → Prop
  | there {value : Value} {x : β} (under : IsUnder entries name value)
      (reads : read value = .ok x) : FieldOf entries name read default x
  | missing (none : ∀ value, ¬IsUnder entries name value) : FieldOf entries name read default default

theorem FieldOf.congr {entries others : List (Value × Value)} {name : String}
    {read : Value → Result β} {default x : β}
    (hUnder : ∀ value, IsUnder entries name value ↔ IsUnder others name value)
    (h : FieldOf entries name read default x) : FieldOf others name read default x := by
  cases h with
  | there hThere hReads => exact .there ((hUnder _).mp hThere) hReads
  | missing hNone => exact .missing fun value hValue => hNone value ((hUnder value).mpr hValue)

/-- Reading an entry passes it over, or reads a field that was not met before. -/
theorem readEntry_eq_ok {draft next : Draft α} {key value : Value}
    (h : readEntry step unknown draft (key, value) = .ok next) :
    ∃ name, key.text? = some name ∧
      ((step name value draft.record = none ∧ next = draft) ∨
        (name ∉ draft.met ∧ step name value draft.record = some (.ok next.record) ∧
          next.met = name :: draft.met)) := by
  obtain ⟨name, hName, hStep⟩ := Result.bind_eq_ok.mp h
  refine ⟨name, textAs_eq_ok.mp hName, ?_⟩
  split at hStep
  · rename_i hUnknown
    obtain ⟨_, -, hNext⟩ := Result.bind_eq_ok.mp hStep
    exact .inl ⟨hUnknown, (Except.ok.inj hNext).symm⟩
  · rename_i result hKnown
    split at hStep
    · cases hStep
    · rename_i hMet
      obtain ⟨record, hRecord, hNext⟩ := Result.bind_eq_ok.mp hStep
      obtain rfl : ⟨record, name :: draft.met⟩ = next := Except.ok.inj hNext
      exact .inr ⟨by simpa using hMet, by rw [hKnown, hRecord], rfl⟩

theorem readEntries_texts {entries : List (Value × Value)} {draft last : Draft α}
    (h : entries.foldlM (readEntry step unknown) draft = .ok last) :
    ∀ entry ∈ entries, entry.1.text?.isSome := by
  induction entries generalizing draft with
  | nil => simp
  | cons entry rest ih =>
    rw [List.foldlM_cons] at h
    obtain ⟨next, hNext, hRest⟩ := Result.bind_eq_ok.mp h
    obtain ⟨name, hName, -⟩ := readEntry_eq_ok hNext
    exact List.forall_mem_cons.mpr ⟨by rw [hName]; rfl, ih hRest⟩

theorem readEntries_field {name : String} {read : Value → Result β} {get : α → β}
    (hField : HasField step name read get) {entries : List (Value × Value)}
    {draft last : Draft α} (h : entries.foldlM (readEntry step unknown) draft = .ok last) :
    (name ∈ draft.met → (∀ value, ¬IsUnder entries name value) ∧
      get last.record = get draft.record) ∧
    FieldOf entries name read (get draft.record) (get last.record) := by
  induction entries generalizing draft with
  | nil =>
    obtain rfl : draft = last := Except.ok.inj h
    have hNone : ∀ value, ¬IsUnder [] name value := fun value ⟨_, hMem, _⟩ => by cases hMem
    exact ⟨fun _ => ⟨hNone, rfl⟩, .missing hNone⟩
  | cons entry rest ih =>
    obtain ⟨key, value⟩ := entry
    rw [List.foldlM_cons] at h
    obtain ⟨next, hNext, hRest⟩ := Result.bind_eq_ok.mp h
    obtain ⟨found, hFound, hStep⟩ := readEntry_eq_ok hNext
    obtain ⟨hMetRest, hFieldRest⟩ := ih hRest
    by_cases hName : found = name
    · -- the entry is the field's: it was not met before, and it is met from here on
      subst hName
      rcases hStep with ⟨hUnknown, -⟩ | ⟨hNew, hKnown, hMet⟩
      · exact absurd hUnknown (hField.known _ _)
      · obtain ⟨-, hKept⟩ := hMetRest (hMet ▸ List.mem_cons_self)
        refine ⟨fun hOld => absurd hOld hNew, ?_⟩
        rw [hKept]
        exact .there (isUnder_cons.mpr (.inl ⟨hFound, rfl⟩)) (hField.reads _ _ _ hKnown)
    · have hUnder (other : Value) :
          IsUnder ((key, value) :: rest) name other ↔ IsUnder rest name other := by
        rw [isUnder_cons, hFound]
        simp [hName]
      have hKept : get next.record = get draft.record := by
        rcases hStep with ⟨-, rfl⟩ | ⟨-, hKnown, -⟩
        · rfl
        · exact hField.keeps found hName _ _ _ hKnown
      refine ⟨fun hOld => ?_, ?_⟩
      · have hMet : name ∈ next.met := by
          rcases hStep with ⟨-, rfl⟩ | ⟨-, -, hMet⟩
          · exact hOld
          · exact hMet ▸ List.mem_cons_of_mem _ hOld
        obtain ⟨hNone, hLast⟩ := hMetRest hMet
        exact ⟨fun other => by rw [hUnder]; exact hNone other, hLast.trans hKept⟩
      · rw [← hKept]
        exact hFieldRest.congr fun other => (hUnder other).symm

variable {default : α} {entries : List (Value × Value)} {draft : Draft α}

/-- All keys of a record that can be read are texts. -/
theorem record_texts (h : record step unknown default entries = .ok draft) :
    ∀ entry ∈ entries, entry.1.text?.isSome :=
  readEntries_texts h

/-- A field of a record is what its one entry reads, or the default. -/
theorem record_field {name : String} {read : Value → Result β} {get : α → β}
    (hField : HasField step name read get)
    (h : record step unknown default entries = .ok draft) :
    FieldOf entries name read (get default) (get draft.record) :=
  (readEntries_field hField h).2

end Record

/-- Fields under one name of entries that correspond agree, if what is read of values that are alike
agrees. -/
theorem FieldOf.agrees {R : β → β → Prop} {entries others : List (Value × Value)} {name : String}
    {read : Value → Result β} {default x y : β} (h : Corresponds entries others)
    (hDefault : R default default)
    (hRead : ∀ a b, IsUnder entries name a → Alike a b →
      ∀ x y, read a = .ok x → read b = .ok y → R x y)
    (hx : FieldOf entries name read default x) (hy : FieldOf others name read default y) :
    R x y := by
  have hTexts := h.texts.mem_iff (a := name)
  rw [mem_texts_iff, mem_texts_iff] at hTexts
  cases hx with
  | there hUnder hx =>
    cases hy with
    | there hOther hy => exact hRead _ _ hUnder (h.alike _ _ _ hUnder hOther) _ _ hx hy
    | missing hNone =>
      obtain ⟨value, hValue⟩ := hTexts.mp ⟨_, hUnder⟩
      exact absurd hValue (hNone value)
  | missing hNone =>
    cases hy with
    | there hOther hy =>
      obtain ⟨value, hValue⟩ := hTexts.mpr ⟨_, hOther⟩
      exact absurd hValue (hNone value)
    | missing => exact hDefault

/-! ### Tables -/

/-- A row of a table is what is read from an entry. -/
def IsRow (read : Value → Result α) (entry : Value × Value) (row : String × α) : Prop :=
  entry.1.text? = some row.1 ∧ read entry.2 = .ok row.2

theorem foldlM_put {read : Value → Result α} {entries : List (Value × Value)}
    {done table : List (String × α)} (hUnique : Yaml.UniqueTexts entries)
    (hDone : ∀ entry ∈ entries, ∀ name ∈ done.map (·.1), entry.1.text? ≠ some name)
    (h : entries.foldlM (fun done entry => do
      let key ← text entry.1
      return put key (← read entry.2) done) done = .ok table) :
    ∃ rows, table = done ++ rows ∧ List.Forall₂ (IsRow read) entries rows := by
  induction entries generalizing done with
  | nil =>
    obtain rfl : done = table := Except.ok.inj h
    exact ⟨[], by simp, .nil⟩
  | cons entry rest ih =>
    rw [List.foldlM_cons] at h
    obtain ⟨next, hNext, hRest⟩ := Result.bind_eq_ok.mp h
    obtain ⟨key, hKey, hPut⟩ := Result.bind_eq_ok.mp hNext
    obtain ⟨value, hValue, hSame⟩ := Result.bind_eq_ok.mp hPut
    have hText := textAs_eq_ok.mp hKey
    have hNew : key ∉ done.map (·.1) := fun hOld => hDone entry List.mem_cons_self key hOld hText
    obtain rfl : done ++ [(key, value)] = next := by
      rw [← put_of_notMem hNew]
      exact Except.ok.inj hSame
    obtain ⟨hFirst, hUniqueRest⟩ := List.pairwise_cons.mp hUnique
    obtain ⟨rows, rfl, hRows⟩ := ih hUniqueRest (fun other hOther name hName => by
      rw [List.map_append, List.mem_append] at hName
      rcases hName with hOld | hLast
      · exact hDone other (List.mem_cons_of_mem _ hOther) name hOld
      · obtain rfl : name = key := by simpa using hLast
        exact hFirst other hOther name hText) hRest
    exact ⟨(key, value) :: rows, by simp, .cons ⟨hText, hValue⟩ hRows⟩

theorem entriesAs_eq_ok {wanted : String} {value : Value} {entries : List (Value × Value)}
    (h : entriesAs wanted value = .ok entries) : value.entries = entries := by
  rw [entriesAs] at h
  rw [Value.entries]
  split at h <;> cases h <;> simp_all

/-- A table has a row for each entry, in order, if no two keys have one text. -/
theorem table_rows {read : Value → Result α} {value : Value} {rows : List (String × α)}
    (hUnique : value.UniqueTexts) (h : table read value = .ok rows) :
    List.Forall₂ (IsRow read) value.entries rows := by
  obtain ⟨entries, hEntries, hFold⟩ := Result.bind_eq_ok.mp h
  rw [entriesAs_eq_ok hEntries] at *
  obtain ⟨found, rfl, hRows⟩ :=
    foldlM_put (entriesAs_eq_ok hEntries ▸ hUnique.entries) (by simp) hFold
  exact hRows

theorem IsRow.texts {read : Value → Result α} {entries : List (Value × Value)}
    {rows : List (String × α)} (h : List.Forall₂ (IsRow read) entries rows) :
    Yaml.Value.texts entries = rows.map (·.1) := by
  induction h with
  | nil => rfl
  | cons hRow _ ih => simp [Yaml.Value.texts, hRow.1, ← ih]

theorem IsRow.under {read : Value → Result α} {entries : List (Value × Value)}
    {rows : List (String × α)} (h : List.Forall₂ (IsRow read) entries rows) {name : String}
    {row : α} (hRow : (name, row) ∈ rows) :
    ∃ value, IsUnder entries name value ∧ read value = .ok row := by
  obtain ⟨⟨key, value⟩, hEntry, hText, hRead⟩ := Result.exists_left h hRow
  exact ⟨value, ⟨key, hEntry, hText⟩, hRead⟩

/-- Tables of values that are alike are shuffled, if what is read of values that are alike agrees. -/
theorem table_agrees {R : α → α → Prop} {read : Value → Result α} {a b : Value} (h : Alike a b)
    (hRead : ∀ name x y, IsUnder a.entries name x → Alike x y →
      ∀ r s, read x = .ok r → read y = .ok s → R r s)
    {rows others : List (String × α)} (hRows : table read a = .ok rows)
    (hOthers : table read b = .ok others) : Shuffled R rows others := by
  have hLeft := table_rows h.left hRows
  have hRight := table_rows h.right hOthers
  have hCorresponds := h.corresponds fun entry hEntry => by
    obtain ⟨row, -, hRow⟩ := Result.exists_right hLeft hEntry
    rw [hRow.1]
    rfl
  refine ⟨?_, table_nodup hRows, fun name r s hr hs => ?_⟩
  · rw [← IsRow.texts hLeft, ← IsRow.texts hRight]
    exact hCorresponds.texts
  · obtain ⟨x, hx, hReadX⟩ := IsRow.under hLeft hr
    obtain ⟨y, hy, hReadY⟩ := IsRow.under hRight hs
    exact hRead name x y hx (h.of_under hx hy) r s hReadX hReadY

end EntityGen.Shape
