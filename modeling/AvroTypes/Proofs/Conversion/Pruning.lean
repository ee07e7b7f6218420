import AvroTypes.Conversion
import AvroTypes.Proofs.Schema.Pruning
import AvroTypes.Proofs.TypeScript.SchemaBlind

/-!
# Converting a pruned document

Members that do not count can be left out of a document: its table is the same but for the schemas,
and unless the schemas are written out, so are its files.  A document that is refused is refused in
the same words.

* `filesOfDocument` — the files of a document, with or without a text that it was read from.
* `ConversionError.SameReport` — failures that read the same.
* `conversion_prune` — **pruning changes neither the table nor the files.**
-/

namespace AvroTypes

/-- Two failures are reported alike: they are equal, or both are faults of a document that are. -/
inductive ConversionError.SameReport : ConversionError → ConversionError → Prop
  | malformedSchema {fault fault' : Schema.Fault} (same : fault.SameReport fault') :
      SameReport (.malformedSchema fault) (.malformedSchema fault')
  | same (error : ConversionError) : SameReport error error

lemma ConversionError.SameReport.message {error error' : ConversionError}
    (h : error.SameReport error') : error.message = error'.message := by
  cases h with
  | malformedSchema same => exact same.message
  | same => rfl

namespace Conversion

open AvroTypes.Schema

/-- **The files of a document.**  A style that is not implemented is refused before the document is
looked at. -/
def filesOfDocument (options : Options) (document : Json.Value) :
    Except ConversionError (List OutputFile) := do
  checkMode options
  assembleTable options
    (← (Schema.tableOf document options.defaultNamespace).mapError .malformedSchema)

/-- The files of a text are those of the document that it denotes. -/
lemma filesOfText_eq_filesOfDocument {text : String} {document : Json.Value}
    (h : Json.Value.ofText text = .ok document) (options : Options) :
    filesOfText options text = filesOfDocument options document := by
  rw [filesOfText, filesOfDocument, tableOfText, Schema.tableOfText, h]

section

variable {document : Json.Value} {options : Options}

/-- Pruning a document does not change its files, unless they show the schemas. -/
lemma filesOfDocument_prune (distinct : document.HasDistinctKeys)
    (bare : options.exportSchema = false) :
    Agree ConversionError.SameReport (fun files files' => files = files')
      (filesOfDocument options document) (filesOfDocument options (prune document)) := by
  rw [filesOfDocument, filesOfDocument]
  cases checkMode options with
  | error error => exact .error (.same error)
  | ok _ =>
      have tables := (tableOf_prune_agree distinct options.defaultNamespace).mapError
        fun _ _ same => ConversionError.SameReport.malformedSchema same
      refine tables.bind fun {table table'} _ _ pruned => ?_
      have same : assembleTable options table' = assembleTable options table := by
        have written := TypeScript.assemble_withSchema (fun entry => prune entry.schema) bare table
        rw [assembleTable, assembleTable, pruned, ← written]
        rfl
      rw [same]
      cases assembleTable options table with
      | ok files => exact .ok rfl
      | error error => exact .error (.same error)

/-- **Members that do not count never matter.**  With and without them a document has the same
table, but for its schemas, and the same files, unless they show the schemas; or it is refused at
the same place and in the same words.  The keys of its objects are distinct, as they are in every
document that a text denotes (`Json.hasDistinctKeys_of_ofText`). -/
theorem conversion_prune (distinct : document.HasDistinctKeys) :
    (∀ space, ResolveAlike (fun table table' => table' = table.map pruneEntry)
      (tableOf document space) (tableOf (prune document) space)) ∧
    ∀ options : Options, options.exportSchema = false →
      Agree ConversionError.SameReport (fun files files' => files = files')
        (filesOfDocument options document) (filesOfDocument options (prune document)) :=
  ⟨tableOf_prune_agree distinct, fun _ bare => filesOfDocument_prune distinct bare⟩

/-- The same for texts, whose documents have distinct keys as they are. -/
theorem filesOfText_prune {text text' : String} (h : Json.Value.ofText text = .ok document)
    (h' : Json.Value.ofText text' = .ok (prune document)) (bare : options.exportSchema = false) :
    Agree ConversionError.SameReport (fun files files' => files = files')
      (filesOfText options text) (filesOfText options text') := by
  rw [filesOfText_eq_filesOfDocument h, filesOfText_eq_filesOfDocument h']
  exact filesOfDocument_prune (Json.hasDistinctKeys_of_ofText h) bare

end

/-- A record with members that do not count, in itself and in its field. -/
def cluttered : Json.Value := .object
  [("aliases", .array [.string "S"]), ("type", .string "record"), ("name", .string "R"),
    ("doc", .null), ("fields", .array [.object
      [("name", .string "f"), ("type", .string "int"), ("namespace", .null),
        ("default", .object [("type", .string "enum")])]])]

/-- The same record without them. -/
def tidy : Json.Value := .object
  [("type", .string "record"), ("name", .string "R"),
    ("fields", .array [.object [("name", .string "f"), ("type", .string "int")]])]

/-- The entry of a record with one number as a field. -/
def tidyEntry (schema : Json.Value) : NamedType :=
  { name := "R", space := "", alternatives := [.plain .record], schema
    children := some [{ name := "f", alternatives := [.plain .number] }] }

/-- The table of the record has the record without those members as its schema, and the files do
not change. -/
theorem conversion_prune_cluttered :
    cluttered.HasDistinctKeys ∧ prune cluttered = tidy ∧
      tableOf cluttered "" = .ok [tidyEntry cluttered] ∧ tableOf tidy "" = .ok [tidyEntry tidy] ∧
      Agree ConversionError.SameReport (fun files files' => files = files')
        (filesOfDocument { exportSchema := false } cluttered)
        (filesOfDocument { exportSchema := false } tidy) := by
  have distinct : cluttered.HasDistinctKeys := by
    have text (s : String) : (Json.Value.string s).HasDistinctKeys := .scalar nofun nofun
    have null : Json.Value.null.HasDistinctKeys := .scalar nofun nofun
    simp [cluttered, text, null]
  have pruned : prune cluttered = tidy := by rfl
  have htable : tableOf cluttered "" = .ok [tidyEntry cluttered] := by rfl
  obtain ⟨tables, files⟩ := conversion_prune distinct
  have agree := tables ""
  rw [htable, pruned] at agree
  refine ⟨distinct, pruned, htable, ?_, pruned ▸ files _ rfl⟩
  generalize tableOf tidy "" = outcome at agree ⊢
  cases agree with
  | ok related =>
      rw [related, ← pruned]
      rfl

end Conversion

end AvroTypes
