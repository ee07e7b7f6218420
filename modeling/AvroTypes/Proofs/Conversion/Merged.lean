import AvroTypes.Proofs.Conversion.Success
import AvroTypes.Proofs.Table.Collisions

/-!
# All declarations as one text

The declarations of a text can be had as one text, whether or not they would be merged into one
file.  Merging what is merged already changes nothing, so the text is the content of that one file.
But the table is checked with the options as they are, and where files are not to be merged, two
namespaces that share a file are refused, though none of their files is ever written.

* `merge_singleton` — merging twice.
* `mergedOfTable`, `mergedOfText_eq` — the one text is that of the table.
* `SharesDefault` — the texts in which two namespaces share a file.
* `mergedOfText_singleFile` — **what asking for one file changes in the one text.**
-/

namespace AvroTypes

/-- Merging one merged file changes nothing. -/
lemma TypeScript.merge_singleton (files : List OutputFile) : merge [merge files] = merge files := by
  simp [merge]

namespace Conversion

open AvroTypes.TypeScript (merge mergedName filesOf)

/-- The declarations of a table as one text, if the check of the table finds nothing. -/
def mergedOfTable (options : Options) (table : List NamedType) : Except ConversionError String :=
  match issues options (SymbolIndex.ofTable table) table with
  | [] => .ok (merge (filesOf options (SymbolIndex.ofTable table) table)).content
  | found => .error (.generation found)

/-- **The one text is that of the table**, whether its files are merged into one or not: the check
is the only part of the conversion in which the difference is left. -/
theorem mergedOfText_eq (options : Options) (text : String) :
    mergedOfText options text =
      (checkMode options >>= fun _ => tableOfText options text >>= mergedOfTable options) := by
  simp only [mergedOfText, filesOfText, assembleTable, TypeScript.assemble, TypeScript.generate]
  cases checkMode options with
  | error error => rfl
  | ok _ =>
      cases tableOfText options text with
      | error error => rfl
      | ok table =>
          simp only [bind, Except.bind, mergedOfTable]
          cases issues options (SymbolIndex.ofTable table) table with
          | nil =>
              cases options.singleFile with
              | true => exact congrArg (Except.ok ·.content) (TypeScript.merge_singleton _)
              | false => rfl
          | cons issue rest => rfl

lemma mergedOfTable_of_nil {options : Options} {table : List NamedType}
    (h : issues options (SymbolIndex.ofTable table) table = []) :
    mergedOfTable options table =
      .ok (merge (filesOf options (SymbolIndex.ofTable table) table)).content := by
  rw [mergedOfTable, h]

lemma mergedOfTable_of_ne_nil {options : Options} {table : List NamedType}
    (h : issues options (SymbolIndex.ofTable table) table ≠ []) :
    mergedOfTable options table =
      .error (.generation (issues options (SymbolIndex.ofTable table) table)) := by
  obtain ⟨issue, rest, found⟩ := List.exists_cons_of_ne_nil h
  rw [mergedOfTable, found]

/-- What is written does not depend on whether it is to be merged, only what is reported. -/
lemma mergedOfTable_eq_iff (options : Options) (table : List NamedType) :
    mergedOfTable { options with singleFile := false } table =
        mergedOfTable { options with singleFile := true } table ↔
      issues { options with singleFile := false } (SymbolIndex.ofTable table) table =
        issues { options with singleFile := true } (SymbolIndex.ofTable table) table := by
  constructor
  · intro same
    by_cases several : issues { options with singleFile := false }
        (SymbolIndex.ofTable table) table = [] <;>
      by_cases single : issues { options with singleFile := true }
        (SymbolIndex.ofTable table) table = []
    · rw [several, single]
    · simp [mergedOfTable_of_nil several, mergedOfTable_of_ne_nil single] at same
    · simp [mergedOfTable_of_ne_nil several, mergedOfTable_of_nil single] at same
    · simpa [mergedOfTable_of_ne_nil several, mergedOfTable_of_ne_nil single] using same
  · intro same
    rw [mergedOfTable, mergedOfTable, same]
    rfl

/-! ## One file or several -/

/-- **A text in which two namespaces share a file**: the default one and the one called
`default`. -/
def SharesDefault (options : Options) (text : String) : Prop :=
  checkMode options = .ok () ∧ ∃ table, tableOfText options text = .ok table ∧
    (∃ type ∈ table, type.space = "") ∧ ∃ type ∈ table, type.space = "default"

section

variable {options : Options} {text : String} {table : List NamedType}

lemma isNamespace_of_tableOfText (h : tableOfText options text = .ok table) {type : NamedType}
    (htype : type ∈ table) : Schema.isNamespace type.space = true := by
  obtain ⟨document, -, hentries⟩ := tableOfText_eq_ok_iff.mp h
  exact Schema.isNamespace_of_mem_table hentries htype

/-- The content of the one file is the one text. -/
lemma filesOfText_of_singleFile (single : options.singleFile = true) :
    filesOfText options text =
      (fun content => [⟨mergedName, content⟩]) <$> mergedOfText options text := by
  simp only [mergedOfText, filesOfText, assembleTable, TypeScript.assemble, TypeScript.generate,
    single, if_true]
  cases checkMode options with
  | error error => rfl
  | ok _ =>
      cases tableOfText options text with
      | error error => rfl
      | ok table =>
          simp only [bind, Except.bind]
          cases issues options (SymbolIndex.ofTable table) table with
          | nil => exact congrArg (Except.ok [·]) (TypeScript.merge_singleton _).symm
          | cons issue rest => rfl

/-- The reports for one file and for several agree exactly if no two namespaces share a file. -/
lemma issues_singleFile_eq_iff (valid : ∀ type ∈ table, Schema.isNamespace type.space = true) :
    issues { options with singleFile := false } (SymbolIndex.ofTable table) table =
        issues { options with singleFile := true } (SymbolIndex.ofTable table) table ↔
      ¬ ((∃ type ∈ table, type.space = "") ∧ ∃ type ∈ table, type.space = "default") := by
  have several : { options with singleFile := false }.singleFile = false := rfl
  have shared := exists_concernsFile_iff several valid
  rw [← issues_singleFile, eq_comm, List.filter_eq_self, ← shared.2, ← shared.1]
  simp

lemma sharesDefault_iff (mode : checkMode options = .ok ())
    (htable : tableOfText options text = .ok table) :
    SharesDefault options text ↔
      (∃ type ∈ table, type.space = "") ∧ ∃ type ∈ table, type.space = "default" := by
  constructor
  · rintro ⟨-, table', htable', shared⟩
    obtain rfl := Except.ok.inj (htable.symm.trans htable')
    exact shared
  · intro shared
    exact ⟨mode, table, htable, shared⟩

/-- A text with a table becomes what the table becomes, for one file and for several. -/
lemma mergedOfText_of_table (mode : checkMode options = .ok ())
    (htable : tableOfText options text = .ok table) (single : Bool) :
    mergedOfText { options with singleFile := single } text =
      mergedOfTable { options with singleFile := single } table := by
  have mode : checkMode { options with singleFile := single } = .ok () := mode
  have htable : tableOfText { options with singleFile := single } text = .ok table := htable
  rw [mergedOfText_eq, mode, htable]
  rfl

/-- The one text is the same for one file and for several, unless two namespaces share a file. -/
lemma mergedOfText_eq_iff (options : Options) (text : String) :
    mergedOfText { options with singleFile := false } text =
        mergedOfText { options with singleFile := true } text ↔ ¬ SharesDefault options text := by
  cases mode : checkMode options with
  | error error =>
      have unshared : ¬ SharesDefault options text := fun ⟨ok, _⟩ => by simp [mode] at ok
      have refused : ∀ single, checkMode { options with singleFile := single } = .error error :=
        fun _ => mode
      simp only [mergedOfText_eq, refused, unshared, not_false_eq_true, iff_true]
      rfl
  | ok _ =>
      cases htable : tableOfText options text with
      | error error =>
          have unshared : ¬ SharesDefault options text :=
            fun ⟨_, _, ok, _⟩ => by simp [htable] at ok
          have refused : ∀ single,
              tableOfText { options with singleFile := single } text = .error error :=
            fun _ => htable
          simp only [mergedOfText_eq, refused, unshared, not_false_eq_true, iff_true]
          rfl
      | ok table =>
          rw [mergedOfText_of_table mode htable, mergedOfText_of_table mode htable,
            mergedOfTable_eq_iff, sharesDefault_iff mode htable]
          exact issues_singleFile_eq_iff fun type => isNamespace_of_tableOfText htable

end

/-- **Asking for one file does not change the one text, unless two namespaces share a file.**  With
`singleFile` on, the files of a text are the one text under the merged name.  With it off, the one
text is the same or fails in the same way, exactly unless the default namespace meets one called
`default`.  Then the text is refused for their common file.  If there is more to report, that alone
is what is reported with `singleFile` on, and if there is not, the text can be written. -/
theorem mergedOfText_singleFile (options : Options) (text : String) :
    filesOfText { options with singleFile := true } text =
        (fun content => [⟨mergedName, content⟩]) <$>
          mergedOfText { options with singleFile := true } text ∧
      (mergedOfText { options with singleFile := false } text =
          mergedOfText { options with singleFile := true } text ↔
        ¬ SharesDefault options text) ∧
      (SharesDefault options text → ∃ found,
        mergedOfText { options with singleFile := false } text = .error (.generation found) ∧
        (∃ name owner, ⟨name, .fileCollision "default.ts" owner⟩ ∈ found) ∧
        ((∃ issue ∈ found, issue.problem.concernsFile = false) →
          mergedOfText { options with singleFile := true } text =
            .error (.generation (found.filter (!·.problem.concernsFile)))) ∧
        ((∀ issue ∈ found, issue.problem.concernsFile = true) →
          ∃ content, mergedOfText { options with singleFile := true } text = .ok content)) := by
  refine ⟨filesOfText_of_singleFile rfl, mergedOfText_eq_iff options text, ?_⟩
  rintro ⟨mode, table, htable, shared⟩
  have several : { options with singleFile := false }.singleFile = false := rfl
  have collision := (exists_concernsFile_iff several
    fun type => isNamespace_of_tableOfText htable).2.mpr shared
  have filtered := issues_singleFile options (SymbolIndex.ofTable table) table
  rw [mergedOfText_of_table mode htable, mergedOfText_of_table mode htable]
  refine ⟨_, mergedOfTable_of_ne_nil ?_, collision, ?_, ?_⟩
  · obtain ⟨name, owner, hissue⟩ := collision
    exact List.ne_nil_of_mem hissue
  · rintro ⟨issue, hissue, other⟩
    rw [filtered]
    refine mergedOfTable_of_ne_nil (List.ne_nil_of_mem (a := issue) ?_)
    rw [← filtered, List.mem_filter]
    exact ⟨hissue, by simp [other]⟩
  · intro onlyCollisions
    refine ⟨_, mergedOfTable_of_nil (filtered.symm.trans ?_)⟩
    exact List.filter_eq_nil_iff.mpr fun issue hissue => by simp [onlyCollisions issue hissue]

/-- A type in the default namespace and one in a namespace called `default`. -/
def sharedDocument : Json.Value :=
  .array [.object [("name", .string "A"), ("type", .string "int")],
    .object [("name", .string "B"), ("namespace", .string "default"), ("type", .string "int")]]

/-- Their table. -/
def sharedTable : List NamedType :=
  [{ name := "A", space := "", alternatives := [.plain .number]
     schema := .object [("name", .string "A"), ("type", .string "int")] },
    { name := "B", space := "default", alternatives := [.plain .number]
      schema := .object
        [("name", .string "B"), ("namespace", .string "default"), ("type", .string "int")] }]

/-- **Without blocks the two types can be written as one text, but only if one file is asked
for.** -/
theorem mergedOfText_shared :
    mergedOfText { namespaceBlocks := false, singleFile := true } sharedDocument.compact =
        .ok "export type A = number;\n\n\n\nexport type B = number;\n\n" ∧
      mergedOfText { namespaceBlocks := false } sharedDocument.compact =
        .error (.generation [⟨"default.B", .fileCollision "default.ts" ""⟩]) ∧
      mergedOfText { namespaceBlocks := false } sharedDocument.compact ≠
        mergedOfText { namespaceBlocks := false, singleFile := true } sharedDocument.compact := by
  have htable : tableOfText { namespaceBlocks := false } sharedDocument.compact =
      .ok sharedTable :=
    tableOfText_eq_ok_iff.mpr ⟨sharedDocument, by cbv, by rfl⟩
  have written := mergedOfText_of_table rfl htable true
  have refused := mergedOfText_of_table rfl htable false
  rw [mergedOfTable_of_nil (by decide +kernel)] at written
  rw [mergedOfTable_of_ne_nil (by decide +kernel)] at refused
  refine ⟨written.trans (congrArg Except.ok (by decide +kernel)),
    refused.trans (congrArg (Except.error ∘ ConversionError.generation) (by decide +kernel)),
    fun same => ?_⟩
  simpa using refused.symm.trans (same.trans written)

end Conversion

end AvroTypes
