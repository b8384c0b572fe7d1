import EntityGen.Proofs.Shape.Alike

/-! Whether a value can be read does not depend on the order of its keys. A reader carries over to
values that are alike if it reads one of them just as it reads the other; tables and records of such
readers carry over too. -/

namespace EntityGen.Shape

open Yaml (Value)
open Yaml.Value (Alike Corresponds IsUnder isUnder_cons mem_texts_iff text?_eq_iff_of_same texts)

variable {α β : Type}

/-- What is read of a value is read, up to `R`, of every value that is alike. -/
def Carries (R : α → α → Prop) (read : Value → Result α) : Prop :=
  ∀ a b, Alike a b → ∀ x, read a = .ok x → ∃ y, read b = .ok y ∧ R x y

theorem text_carries : Carries Eq text := by
  intro a b h x hx
  have hText := (text?_eq_iff_of_same h.same).mp (textAs_eq_ok.mp hx)
  exact ⟨x, textAs_eq_ok.mpr hText, rfl⟩

theorem flag_carries : Carries Eq flag := by
  intro a b h x hx
  have hSame := h.untagged.same
  rw [flag] at hx
  split at hx
  · rename_i flagged hFlag
    obtain rfl : flagged = x := Except.ok.inj hx
    rw [hFlag] at hSame
    refine ⟨flagged, ?_, rfl⟩
    rw [flag]
    cases hOther : b.untagged <;> rw [hOther] at hSame <;> simp [Value.same] at hSame
    rw [hSame]
  · cases hx

theorem optional_carries {read : Value → Result α} (hRead : Carries Eq read) :
    Carries Eq (optional read) := by
  intro a b h x hx
  by_cases ha : a = .null
  · subst ha
    rw [Yaml.Value.same_null_iff.mp h.same]
    exact ⟨x, hx, rfl⟩
  · have hb : b ≠ .null := fun hb => ha (Yaml.Value.eq_null_of_same (hb ▸ h.same))
    rw [optional.eq_2 read a ha, Result.map_eq_ok] at hx
    obtain ⟨inner, hInner, rfl⟩ := hx
    obtain ⟨y, hy, rfl⟩ := hRead a b h inner hInner
    exact ⟨some inner, by rw [optional.eq_2 read b hb, hy]; rfl, rfl⟩

theorem entriesAs_of_alike {wanted : String} {a b : Value} (h : Alike a b)
    {entries : List (Value × Value)} (ha : entriesAs wanted a = .ok entries) :
    entriesAs wanted b = .ok b.entries := by
  have hSame := h.untagged.same
  rw [entriesAs] at ha ⊢
  rw [Value.entries]
  split at ha
  · rename_i others hMap
    rw [hMap] at hSame
    obtain ⟨mapped, hMapped, -⟩ := Yaml.Value.same_map_iff.mp hSame
    rw [hMapped]
  · rename_i hNull
    rw [hNull] at hSame
    rw [Yaml.Value.same_null_iff.mp hSame]
  · cases ha

/-- Where the one mapping has only texts for keys, so has the other. -/
theorem texts_of_alike {a b : Value} (h : Alike a b)
    (hTexts : ∀ entry ∈ a.entries, entry.1.text?.isSome) :
    ∀ entry ∈ b.entries, entry.1.text?.isSome := by
  have hCount : (texts b.entries).length = b.entries.length :=
    calc (texts b.entries).length
      _ = (texts a.entries).length := (h.corresponds hTexts).texts.length_eq.symm
      _ = a.entries.length := by
        rw [texts, List.length_filterMap_eq_countP, List.countP_eq_length]
        exact hTexts
      _ = b.entries.length := h.length_entries
  rw [texts, List.length_filterMap_eq_countP, List.countP_eq_length] at hCount
  exact hCount

/-- What stands under a name in the second mapping corresponds to something in the first one. -/
theorem under_of_corresponds {entries others : List (Value × Value)} (h : Corresponds entries others)
    {name : String} {y : Value} (hy : IsUnder others name y) :
    ∃ x, IsUnder entries name x ∧ Alike x y := by
  obtain ⟨x, hx⟩ := mem_texts_iff.mp (h.texts.mem_iff.mpr (mem_texts_iff.mpr ⟨y, hy⟩))
  exact ⟨x, hx, h.alike name x y hx hy⟩

/-! ### Tables -/

theorem foldlM_put_ok {read : Value → Result α} {entries : List (Value × Value)}
    (h : ∀ entry ∈ entries, ∃ name x, entry.1.text? = some name ∧ read entry.2 = .ok x)
    (done : List (String × α)) :
    ∃ table, entries.foldlM (fun done entry => do
      let key ← text entry.1
      return put key (← read entry.2) done) done = Except.ok table := by
  induction entries generalizing done with
  | nil => exact ⟨done, rfl⟩
  | cons entry rest ih =>
    obtain ⟨⟨name, x, hText, hRead⟩, hRest⟩ := List.forall_mem_cons.mp h
    obtain ⟨table, hTable⟩ := ih hRest (put name x done)
    refine ⟨table, ?_⟩
    rw [List.foldlM_cons]
    refine Result.bind_eq_ok.mpr ⟨put name x done, ?_, hTable⟩
    exact Result.bind_eq_ok.mpr ⟨name, textAs_eq_ok.mpr hText,
      Result.bind_eq_ok.mpr ⟨x, hRead, rfl⟩⟩

theorem table_carries {R : α → α → Prop} {read : Value → Result α} (hRead : Carries R read) :
    Carries (Shuffled R) (table read) := by
  intro a b h rows hRows
  have hLeft := table_rows h.left hRows
  have hTexts : ∀ entry ∈ a.entries, entry.1.text?.isSome := by
    intro entry hEntry
    obtain ⟨row, -, hRow⟩ := Result.exists_right hLeft hEntry
    rw [hRow.1]
    rfl
  have hReadable : ∀ entry ∈ b.entries, ∃ name y,
      entry.1.text? = some name ∧ read entry.2 = .ok y := by
    intro entry hEntry
    obtain ⟨name, hName⟩ := Option.isSome_iff_exists.mp (texts_of_alike h hTexts entry hEntry)
    obtain ⟨x, ⟨key, hKey, -⟩, hAlike⟩ :=
      under_of_corresponds (h.corresponds hTexts) ⟨entry.1, hEntry, hName⟩
    obtain ⟨row, -, -, hRow⟩ := Result.exists_right hLeft hKey
    obtain ⟨y, hy, -⟩ := hRead x entry.2 hAlike row.2 hRow
    exact ⟨name, y, hName, hy⟩
  obtain ⟨entries, hEntries, -⟩ := Result.bind_eq_ok.mp hRows
  obtain ⟨others, hFold⟩ := foldlM_put_ok hReadable []
  have hOthers : table read b = .ok others :=
    Result.bind_eq_ok.mpr ⟨b.entries, entriesAs_of_alike h hEntries, hFold⟩
  refine ⟨others, hOthers, table_agrees h (fun name x y _ hAlike r s hr hs => ?_) hRows hOthers⟩
  obtain ⟨other, hOther, hRelated⟩ := hRead x y hAlike r hr
  rw [hs] at hOther
  exact Except.ok.inj hOther ▸ hRelated

/-- Rows under different names make the table that consists of them. -/
theorem foldlM_put_rows {read : Value → Result α} {entries : List (Value × Value)}
    {done rows : List (String × α)} (hRows : List.Forall₂ (IsRow read) entries rows)
    (hNodup : ((done ++ rows).map (·.1)).Nodup) :
    entries.foldlM (fun done entry => do
      let key ← text entry.1
      return put key (← read entry.2) done) done = Except.ok (done ++ rows) := by
  induction hRows generalizing done with
  | nil => rw [List.append_nil]; rfl
  | @cons entry row entries rows hRow hRest ih =>
    obtain ⟨name, x⟩ := row
    have hNew : name ∉ done.map (·.1) := by
      rw [List.map_append, List.map_cons, List.nodup_append] at hNodup
      exact fun hOld => hNodup.2.2 name hOld name List.mem_cons_self rfl
    have hNext : done ++ (name, x) :: rows = done ++ [(name, x)] ++ rows := by simp
    rw [List.foldlM_cons, hNext]
    refine Result.bind_eq_ok.mpr ⟨done ++ [(name, x)], ?_, ih (hNext ▸ hNodup)⟩
    refine Result.bind_eq_ok.mpr ⟨name, textAs_eq_ok.mpr hRow.1,
      Result.bind_eq_ok.mpr ⟨x, hRow.2, ?_⟩⟩
    rw [put_of_notMem hNew]
    rfl

theorem table_of_rows {read : Value → Result α} {entries : List (Value × Value)}
    {rows : List (String × α)} (hRows : List.Forall₂ (IsRow read) entries rows)
    (hNodup : (rows.map (·.1)).Nodup) : table read (.map entries) = .ok rows :=
  foldlM_put_rows hRows hNodup

/-! ### Records -/

section Record

variable {step : String → Value → α → Option (Result α)} {entries others : List (Value × Value)}

/-- A step knows a field and reads it, or does not know it, whatever was read of the record. -/
def StepReads (step : String → Value → α → Option (Result α)) (name : String) (value : Value) : Prop :=
  ∀ record, step name value record = none ∨ ∃ next, step name value record = some (.ok next)

/-- If a step reads a value in some record, it reads every value that is alike in every record. -/
def StepCarries (step : String → Value → α → Option (Result α)) : Prop :=
  ∀ name a b, Alike a b → ∀ record,
    (step name a record = none ∨ ∃ next, step name a record = some (.ok next)) →
      StepReads step name b

theorem readEntries_steps {unknown : String → Result Unit} {draft last : Draft α}
    (h : entries.foldlM (readEntry step unknown) draft = .ok last) :
    ∀ name value, IsUnder entries name value → ∃ record,
      step name value record = none ∨ ∃ next, step name value record = some (.ok next) := by
  induction entries generalizing draft with
  | nil =>
    rintro name value ⟨key, hKey, -⟩
    cases hKey
  | cons entry rest ih =>
    obtain ⟨key, first⟩ := entry
    rw [List.foldlM_cons] at h
    obtain ⟨next, hNext, hRest⟩ := Result.bind_eq_ok.mp h
    intro name value hUnder
    rcases isUnder_cons.mp hUnder with ⟨hName, rfl⟩ | hUnder
    · obtain ⟨found, hFound, hStep⟩ := readEntry_eq_ok hNext
      obtain rfl : found = name := Option.some.inj (hFound.symm.trans hName)
      rcases hStep with ⟨hUnknown, -⟩ | ⟨-, hKnown, -⟩
      · exact ⟨draft.record, .inl hUnknown⟩
      · exact ⟨draft.record, .inr ⟨next.record, hKnown⟩⟩
    · exact ih hRest name value hUnder

/-- Entries with different texts that can be read one by one are read as a record. -/
theorem readEntries_ok (hTexts : ∀ entry ∈ entries, entry.1.text?.isSome)
    (hUnique : Yaml.UniqueTexts entries)
    (hReads : ∀ name value, IsUnder entries name value → StepReads step name value)
    (draft : Draft α) (hNew : ∀ name ∈ draft.met, ∀ value, ¬IsUnder entries name value) :
    ∃ last, entries.foldlM (readEntry step pass) draft = .ok last := by
  induction entries generalizing draft with
  | nil => exact ⟨draft, rfl⟩
  | cons entry rest ih =>
    obtain ⟨key, value⟩ := entry
    obtain ⟨hKey, hRestTexts⟩ := List.forall_mem_cons.mp hTexts
    obtain ⟨hFirst, hRestUnique⟩ := List.pairwise_cons.mp hUnique
    obtain ⟨name, hName⟩ := Option.isSome_iff_exists.mp hKey
    have hUnder {other : String} {content : Value} (h : IsUnder rest other content) :
        IsUnder ((key, value) :: rest) other content := isUnder_cons.mpr (.inr h)
    have hHere : IsUnder ((key, value) :: rest) name value := isUnder_cons.mpr (.inl ⟨hName, rfl⟩)
    -- The entry is passed over, or its name joins those that were met.
    obtain ⟨next, hNext, hMet⟩ : ∃ next, readEntry step pass draft (key, value) = .ok next ∧
        ∀ other ∈ next.met, other ∈ draft.met ∨ other = name := by
      have hText : fieldName key = .ok name := textAs_eq_ok.mpr hName
      rcases hReads name value hHere draft.record with hUnknown | ⟨record, hKnown⟩
      · refine ⟨draft, ?_, fun _ => .inl⟩
        refine Result.bind_eq_ok.mpr ⟨name, hText, ?_⟩
        simp only [hUnknown, pass]
        rfl
      · have hFresh : draft.met.contains name = false := by
          simpa using fun hOld => hNew name hOld value hHere
        refine ⟨⟨record, name :: draft.met⟩, ?_, fun other hOther => ?_⟩
        · refine Result.bind_eq_ok.mpr ⟨name, hText, ?_⟩
          simp only [hKnown, hFresh, Bool.false_eq_true, if_false]
          rfl
        · exact (List.mem_cons.mp hOther).symm
    obtain ⟨last, hLast⟩ := ih hRestTexts hRestUnique
      (fun other content h => hReads other content (hUnder h)) next fun other hOther content h => by
        rcases hMet other hOther with hOld | rfl
        · exact hNew other hOld content (hUnder h)
        · obtain ⟨second, hSecond, hSame⟩ := h
          exact hFirst _ hSecond other hName hSame
    exact ⟨last, by rw [List.foldlM_cons]; exact Result.bind_eq_ok.mpr ⟨next, hNext, hLast⟩⟩

/-- A record is read in every order of its entries. -/
theorem record_carries (hStep : StepCarries step) (hCorresponds : Corresponds entries others)
    (hTexts : ∀ entry ∈ others, entry.1.text?.isSome) {default : α} {draft : Draft α}
    (h : record step pass default entries = .ok draft) :
    ∃ last, record step pass default others = .ok last := by
  refine readEntries_ok hTexts hCorresponds.right (fun name value hUnder => ?_) ⟨default, []⟩
    (by simp)
  obtain ⟨x, hx, hAlike⟩ := under_of_corresponds hCorresponds hUnder
  obtain ⟨record, hRecord⟩ := readEntries_steps h name x hx
  exact hStep name x value hAlike record hRecord

/-- A field that a step knows was met just if something stands under its name. -/
theorem record_met {unknown : String → Result Unit} {name : String}
    (hKnown : ∀ value record, step name value record ≠ none) {default : α} {draft : Draft α}
    (h : record step unknown default entries = .ok draft) :
    name ∈ draft.met ↔ ∃ value, IsUnder entries name value := by
  have hAll (entries : List (Value × Value)) (first last : Draft α)
      (h : entries.foldlM (readEntry step unknown) first = .ok last) :
      name ∈ last.met ↔ name ∈ first.met ∨ ∃ value, IsUnder entries name value := by
    induction entries generalizing first with
    | nil =>
      obtain rfl : first = last := Except.ok.inj h
      have hNone : ¬∃ value, IsUnder [] name value := fun ⟨_, _, hMem, _⟩ => by cases hMem
      simp [hNone]
    | cons entry rest ih =>
      obtain ⟨key, value⟩ := entry
      rw [List.foldlM_cons] at h
      obtain ⟨next, hNext, hRest⟩ := Result.bind_eq_ok.mp h
      obtain ⟨found, hFound, hStep⟩ := readEntry_eq_ok hNext
      simp only [ih next hRest, isUnder_cons, hFound, Option.some.injEq, exists_or]
      rcases hStep with ⟨hUnknown, rfl⟩ | ⟨-, -, hMet⟩
      · have hOther : found ≠ name := by
          rintro rfl
          exact hKnown _ _ hUnknown
        simp [hOther]
      · rw [hMet, List.mem_cons]
        simp only [exists_and_left, exists_eq, and_true]
        rw [or_assoc, or_left_comm, @eq_comm _ name]
  rw [hAll entries ⟨default, []⟩ draft h]
  simp

end Record

end EntityGen.Shape
