import AvroTypes.Conversion
import AvroTypes.Proofs.Outcome
import AvroTypes.Proofs.TypeScript.Assembly

/-!
# What a successful conversion consists of

A conversion of a text resolves it to a table and assembles the files of the table; the style is
checked on the way.

* `filesOfText_eq_ok_iff`, `tableOfText_eq_ok_iff` — the steps.
* `tableOfBytes_toUTF8` — the step from bytes to a text.
* `filesOfText_of_issues`, `filesOfText_of_document` — the files of a text whose table has nothing
  wrong with it.
-/

namespace AvroTypes.Conversion

lemma assembleTable_eq_ok_iff {options : Options} {table : List NamedType}
    {files : List OutputFile} :
    assembleTable options table = .ok files ↔
      checkMode options = .ok () ∧ TypeScript.assemble options table = .ok files := by
  simp only [assembleTable, bind_eq_ok_iff, mapError_eq_ok_iff]
  exact ⟨fun ⟨_, mode, hfiles⟩ => ⟨mode, hfiles⟩, fun ⟨mode, hfiles⟩ => ⟨(), mode, hfiles⟩⟩

/-- **A text is converted by way of its table.** -/
theorem filesOfText_eq_ok_iff {options : Options} {text : String} {files : List OutputFile} :
    filesOfText options text = .ok files ↔
      checkMode options = .ok () ∧ ∃ table, tableOfText options text = .ok table ∧
        TypeScript.assemble options table = .ok files := by
  simp only [filesOfText, bind_eq_ok_iff, assembleTable_eq_ok_iff]
  constructor
  · rintro ⟨_, mode, table, htable, -, hfiles⟩
    exact ⟨mode, table, htable, hfiles⟩
  · rintro ⟨mode, table, htable, hfiles⟩
    exact ⟨(), mode, table, htable, mode, hfiles⟩

lemma tableOfText_eq_ok_iff {options : Options} {text : String} {table : List NamedType} :
    tableOfText options text = .ok table ↔
      ∃ document, Json.Value.ofText text = .ok document ∧
        Schema.tableOf document options.defaultNamespace = .ok table := by
  rw [tableOfText, mapError_eq_ok_iff, Schema.tableOfText]
  cases Json.Value.ofText text <;> simp

/-- The table of the bytes of a text is that of the text. -/
lemma tableOfBytes_toUTF8 (options : Options) (text : String) :
    tableOfBytes options text.toUTF8 = tableOfText options text := by
  have decoded : String.fromUTF8? text.toUTF8 = some text := dif_pos text.isValidUTF8
  rw [tableOfBytes, decodeText, decoded]
  rfl

/-- **A text whose table has nothing wrong with it** becomes the files of the namespaces, unless
they are to be merged. -/
lemma filesOfText_of_issues {options : Options} {text : String} {table : List NamedType}
    (mode : checkMode options = .ok ()) (several : options.singleFile = false)
    (htable : tableOfText options text = .ok table)
    (noIssues : issues options (SymbolIndex.ofTable table) table = []) :
    filesOfText options text =
      .ok (TypeScript.filesOf options (SymbolIndex.ofTable table) table) := by
  refine filesOfText_eq_ok_iff.mpr ⟨mode, table, htable, ?_⟩
  exact TypeScript.assemble_eq_ok_iff.mpr ⟨noIssues, by simp [several]⟩

/-- The same, by way of the document that the text spells. -/
lemma filesOfText_of_document {options : Options} {text : String} {document : Json.Value}
    {table : List NamedType} (mode : checkMode options = .ok ())
    (several : options.singleFile = false) (hdocument : Json.Value.ofText text = .ok document)
    (htable : Schema.tableOf document options.defaultNamespace = .ok table)
    (noIssues : issues options (SymbolIndex.ofTable table) table = []) :
    filesOfText options text =
      .ok (TypeScript.filesOf options (SymbolIndex.ofTable table) table) :=
  filesOfText_of_issues mode several (tableOfText_eq_ok_iff.mpr ⟨document, hdocument, htable⟩)
    noIssues

end AvroTypes.Conversion
