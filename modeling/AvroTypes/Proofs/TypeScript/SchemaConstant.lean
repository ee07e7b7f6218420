import AvroTypes.Proofs.Conversion.Success
import AvroTypes.Proofs.Json.OneLine
import AvroTypes.Proofs.Json.RoundTrip
import AvroTypes.Proofs.Schema.Hoisting
import AvroTypes.Proofs.TypeScript.FileContents

/-!
# The schema in the output

The declaration of a record can be followed by a constant that holds the node of the schema which
declares it.  The node is printed as JSON text, and then the declaration is indented line by line.
If the numbers of the schema are plain, neither of the two changes anything: the printed node has no
line feed, so it stands on one line behind its indentation, and reading it yields the node.

* `plain_of_reached` — every node of a document whose numbers are plain is kept by printing.
* `exists_renderLines_blockLines` — where a line of a declaration stands in the text of its file.
* `schema_constant_of_filesOfText` — **the constant behind a record reads as the node of the schema
  that declares the record.**
-/

namespace AvroTypes

/-! ## The nodes of a document -/

namespace Schema

open AvroTypes.Json (Value depthLimit lookup? present?)

lemma plain_of_present? {node : Node} (h : (Value.object node).Plain depthLimit) {key : String}
    {value : Value} (found : present? node key = some value) : value.Plain depthLimit :=
  h.of_mem_object (mem_of_lookup? (lookup?_of_present? found))

/-- What is found one way further down is kept by printing as well. -/
lemma Site.Leads.plain {site next : Site} {steps : Pointer} (goes : site.Leads steps next)
    (h : site.value.Plain depthLimit) : next.value.Plain depthLimit := by
  cases goes with
  | alternative found => exact h.of_mem_array (List.mem_of_getElem? found)
  | nested found _ => exact plain_of_present? h found
  | items _ found => exact plain_of_present? h found
  | field _ listed found =>
      exact (plain_of_present? h (present?_of_list? listed)).of_mem_array
        (List.mem_of_getElem? found)

/-- **What stands at any place of a document is kept by printing** if the document is. -/
lemma plain_of_reached {document : Value} {around : String} {place : Pointer} {site : Site}
    (h : document.Plain depthLimit) (reached : Reached Site.Visits document around place site) :
    site.value.Plain depthLimit := by
  obtain ⟨first, top, rest, opens, below, -⟩ := reached
  have htop : top.value.Plain depthLimit := by
    cases opens with
    | one => exact h
    | several found => exact h.of_mem_array (List.mem_of_getElem? found)
  induction below with
  | here => exact htop
  | step _ goes ih => exact goes.1.plain ih

end Schema

namespace TypeScript

open AvroTypes.Text
open AvroTypes.Schema (Site Reached)

/-! ## Lines in a file -/

/-- **A line after an empty one in the lines of a namespace**: it stands in the file behind a line
feed and the indentation of the namespace, and ends at the next line feed. -/
lemma exists_renderLines_blockLines (options : Options) (space : String) {text : List Char}
    (nonempty : text ≠ []) (oneLine : '\n' ∉ text) (before after : List Line) :
    ∃ above below, renderLines options.tabulator.toList
        (blockLines options space (before ++ [Line.flush [], Line.flush text] ++ after)) =
      above ++ '\n' :: (indentation options space ++ text ++ '\n' :: below) := by
  let padding := indentation options space
  refine ⟨headerText options space
      ++ indent padding (renderLines options.tabulator.toList before),
    indent padding (renderLines options.tabulator.toList after) ++ footerText options space, ?_⟩
  rw [renderLines_blockLines, renderLines_append, renderLines_append]
  simp [indent_append, indent_of_oneLine nonempty oneLine, padding]

/-- The lines of the constant of a record stand among those of its group. -/
lemma exists_schemaLines_fileLines {options : Options} (exports : options.exportSchema = true)
    {table : List NamedType}
    (noIssues : issues options (SymbolIndex.ofTable table) table = []) {type : NamedType}
    (htype : type ∈ table)
    (isRecord : ∃ alternative ∈ type.alternatives, alternative.kind = .record) :
    ∃ group ∈ Group.ofTable table, ∃ before after,
      fileLines options (SymbolIndex.ofTable table) group =
        blockLines options type.space (before ++ schemaLines type ++ after) := by
  obtain ⟨only, halternatives⟩ :=
    List.length_eq_one_iff.mp (length_alternatives_of_issues noIssues htype)
  have kind : only.kind = .record := by simpa [halternatives] using isRecord
  obtain ⟨body, constant, -, hconstant, hdeclaration⟩ := exists_isBody_declarationLines options
    (scopeOf options (SymbolIndex.ofTable table) type.space) (halternatives ▸ List.head?_cons)
  obtain ⟨group, hgroup, -, -, above, below, hlines⟩ := exists_fileLines options htype
  rw [exports, kind, Bool.true_and, if_pos (decide_eq_true rfl)] at hconstant
  refine ⟨group, hgroup, above ++ (layOutDoc type.doc ++ ledBy "export ".toList body), below, ?_⟩
  rw [hlines, hdeclaration, hconstant]
  simp only [List.append_assoc]

/-- **The constant behind a record reads as the node that declares the record.**  If the numbers of
a text are all plain, and schemas are asked for, then every record of its table stands at a place of
the document, and in one of the files there is a line, behind the indentation of its namespace, that
declares a constant by the identifier of the record with an ending; what this line says between the
equals sign and the semicolon is read, as JSON text, as the node at that place. -/
theorem schema_constant_of_filesOfText {options : Options} (exports : options.exportSchema = true)
    {text : String} (numbers : Json.PlainNumerals text.toList) {files : List OutputFile}
    (h : Conversion.filesOfText options text = .ok files) :
    ∃ document table, Json.Value.ofText text = .ok document ∧
      Schema.tableOf document options.defaultNamespace = .ok table ∧
      ∀ type ∈ table, (∃ alternative ∈ type.alternatives, alternative.kind = .record) →
        (∃ place around, Reached Site.Visits document options.defaultNamespace place
          ⟨.type, type.schema, around⟩) ∧
        ∃ file ∈ files, ∃ json line above below,
          line = "export const ".toList ++ identifierFor type ++ "_SCHEMA = ".toList ++ json
            ++ [';'] ∧
          '\n' ∉ line ∧
          file.content.toList =
            above ++ '\n' :: (indentation options type.space ++ line ++ '\n' :: below) ∧
          Json.Value.ofText (String.ofList json) = .ok type.schema := by
  obtain ⟨-, table, htable, hassemble⟩ := Conversion.filesOfText_eq_ok_iff.mp h
  obtain ⟨document, hdocument, htable⟩ := Conversion.tableOfText_eq_ok_iff.mp htable
  refine ⟨document, table, hdocument, htable, fun type htype isRecord => ?_⟩
  obtain ⟨place, site, reached, registers⟩ := Reached.of_mem_table htable htype
  have node : ∃ around, site = ⟨.type, type.schema, around⟩ := by
    cases registers.declares with
    | intro _ _ schema => exact ⟨_, by rw [schema]⟩
  obtain ⟨around, rfl⟩ := node
  have plain := Schema.plain_of_reached (Json.plain_of_ofText numbers hdocument) reached
  obtain ⟨group, hgroup, before, after, hlines⟩ :=
    exists_schemaLines_fileLines exports (assemble_eq_ok_iff.mp hassemble).1 htype isRecord
  obtain ⟨file, hfile, outside, beyond, hcontent⟩ := exists_infix_of_assemble hassemble hgroup
  let line := "export const ".toList ++ identifierFor type ++ "_SCHEMA = ".toList ++
    type.schema.print ++ [';']
  have oneLine : '\n' ∉ line := by
    have noIdentifier : '\n' ∉ identifierFor type := not_mem_identifierChars (by decide)
    have noSchema := Json.lineFeed_not_mem_print type.schema
    simp [line, noIdentifier, noSchema]
  obtain ⟨above, below, hrender⟩ :=
    exists_renderLines_blockLines options type.space (show line ≠ [] by simp [line]) oneLine before
      after
  refine ⟨⟨place, around, reached⟩, file, hfile, type.schema.print, line, outside ++ above,
    below ++ beyond, rfl, oneLine, ?_, Json.ofText_print plain⟩
  rw [← hcontent, hlines, schemaLines, hrender]
  simp

/-- A record with members that mean nothing: a number, and a string with a line feed, a quote and a
digit. -/
def annotatedDocument : Json.Value :=
  .object [("type", .string "record"), ("name", .string "R"), ("namespace", .string "a"),
    ("fields", .array []), ("size", .number (.integer (-42))), ("note", .string "1\n\"2")]

/-- Its text. -/
def annotatedText : String := annotatedDocument.compact

/-- Its entry. -/
def annotatedEntry : NamedType :=
  { name := "R", space := "a", alternatives := [.plain .record], children := some []
    schema := annotatedDocument }

/-- The record is followed by the constant, one level deep, which reads as the record. -/
theorem schema_constant_annotated :
    ∃ files, Conversion.filesOfText {} annotatedText = .ok files ∧
      ∃ file ∈ files, ∃ json line above below,
        line = "export const R_SCHEMA = ".toList ++ json ++ [';'] ∧ '\n' ∉ line ∧
        file.content.toList = above ++ '\n' :: ('\t' :: line ++ '\n' :: below) ∧
        Json.Value.ofText (String.ofList json) = .ok annotatedDocument := by
  have numbers : Json.PlainNumerals annotatedText.toList := by
    have numerals : Json.numerals annotatedText.toList = [Json.printInteger (-42)] := by
      decide +kernel
    rw [Json.PlainNumerals, numerals, List.forall_mem_singleton]
    exact ⟨-42, Json.plainNumeral_printInteger (by decide)⟩
  have plain : annotatedDocument.Plain (126 + 1) := by
    refine .object (by decide) ?_
    simp only [List.forall_mem_cons, List.not_mem_nil, IsEmpty.forall_iff, implies_true, and_true]
    exact ⟨.string _, .string _, .string _, .array (by simp), .integer (by decide), .string _⟩
  have htable : Conversion.tableOfText {} annotatedText = .ok [annotatedEntry] :=
    Conversion.tableOfText_eq_ok_iff.mpr ⟨annotatedDocument, Json.ofText_print plain, by rfl⟩
  have noIssues : issues {} (SymbolIndex.ofTable [annotatedEntry]) [annotatedEntry] = [] := by
    decide +kernel
  have hfiles := Conversion.filesOfText_of_issues rfl rfl htable noIssues
  obtain ⟨document, table, hdocument, htable', each⟩ :=
    schema_constant_of_filesOfText rfl numbers hfiles
  obtain rfl := Except.ok.inj
    (htable.symm.trans (Conversion.tableOfText_eq_ok_iff.mpr ⟨document, hdocument, htable'⟩))
  obtain ⟨-, file, hfile, json, line, above, below, constant⟩ :=
    each annotatedEntry List.mem_cons_self ⟨_, List.mem_cons_self, rfl⟩
  exact ⟨_, hfiles, file, hfile, json, line, above, below, constant⟩

end TypeScript

end AvroTypes
