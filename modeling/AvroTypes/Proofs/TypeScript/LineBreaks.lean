import AvroTypes.Proofs.TypeScript.Blocks
import AvroTypes.Proofs.TypeScript.TypeExpressions

/-!
# Line breaks from the schema

The members of an enumeration, the properties of a record and the literals in their types are made
from strings of the schema, and escaping keeps every line break that is in one of these.  So such a
piece of code is one line of its file exactly if its strings have no line feed.  Then it is there as
it was made, and its key and its literals are read back as the strings.  Every line feed in a string
breaks the piece, in the middle of a literal, and indentation changes what stands behind it.

* `lineBreaks`, `stringsOf` — the characters that end a line, and the strings in a property.
* `mem_memberText_iff`, `mem_propertyText_iff` — **where the line breaks of a piece come from.**
* `WrittenFrom`, `OnLines` — a piece made from strings, and a piece on lines of its own.
* `HasMember`, `HasLiteral`, `HasProperty` — what can be said of each of the three.
* `unbroken_of_filesOfText` — **the members and properties of a whole output.**
* `broken_symbol` — a member on three lines.
-/

namespace AvroTypes.TypeScript

open AvroTypes.Text
open AvroTypes.Schema (isWordChar)

/-! ## Where line breaks come from -/

/-- The characters that end a line of code. -/
def lineBreaks : List Char := ['\n', '\r', '\u2028', '\u2029']

/-- The characters that the code itself is written with, between the strings of the schema. -/
def isCodeChar (c : Char) : Bool :=
  isWordChar c || ['\\', '\'', '.', ' ', '=', ':', '|', '<', '>'].contains c

/-- **The strings that go into a property as they are**: the name of its field, and the symbols of
an enumeration declared in its place, or else the references that mean nothing. -/
def stringsOf (scope : Scope) (field : Field) : List String :=
  field.name :: match field.symbols with
    | some symbols => symbols
    | none => (referencesIn field.alternatives).filter fun name =>
        (scope.index.resolve? name scope.space).isNone

lemma mem_intercalate_iff {α : Type} {separator : List α} {c : α} (h : c ∉ separator)
    (parts : List (List α)) :
    c ∈ separator.intercalate parts ↔ ∃ part ∈ parts, c ∈ part := by
  induction parts with
  | nil => simp
  | cons first rest ih =>
      cases rest with
      | nil => simp
      | cons next rest =>
          rw [List.intercalate_cons_cons, List.mem_append, List.mem_append, ih,
            List.exists_mem_cons_iff]
          simp [h]

/-- Something is found in one of several texts exactly if it is found through what they are made
from. -/
lemma exists_mem_map_iff {types : List TypeExpr} {text : TypeExpr → List Char} {c : Char}
    {found : String → Prop}
    (each : ∀ type ∈ types, (c ∈ text type ↔ ∃ name ∈ type.references, found name)) :
    (∃ part ∈ types.map text, c ∈ part) ↔
      ∃ name ∈ types.flatMap TypeExpr.references, found name := by
  constructor
  · rintro ⟨_, hpart, hmem⟩
    obtain ⟨type, htype, rfl⟩ := List.mem_map.mp hpart
    obtain ⟨name, hname, hfound⟩ := (each type htype).mp hmem
    exact ⟨name, List.mem_flatMap.mpr ⟨type, htype, hname⟩, hfound⟩
  · rintro ⟨name, hname, hfound⟩
    obtain ⟨type, htype, hname⟩ := List.mem_flatMap.mp hname
    exact ⟨_, List.mem_map_of_mem htype, (each type htype).mpr ⟨name, hname, hfound⟩⟩

section

variable {c : Char} (isBreak : c ∈ lineBreaks)

include isBreak

lemma isCodeChar_of_isBreak : isCodeChar c = false := by
  have none : lineBreaks.all (!isCodeChar ·) = true := by decide
  simpa using List.all_eq_true.mp none c isBreak

lemma ne_of_isBreak {mark : Char} (code : isCodeChar mark = true) : c ≠ mark := by
  rintro rfl
  exact Bool.false_ne_true ((isCodeChar_of_isBreak isBreak).symm.trans code)

/-- A text of the code itself has no line break. -/
lemma not_mem_of_isBreak {text : List Char} (code : text.all isCodeChar = true) : c ∉ text :=
  fun h => ne_of_isBreak isBreak (List.all_eq_true.mp code c h) rfl

lemma mem_key_iff {name : List Char} : c ∈ propertyKeyChars name ↔ c ∈ name :=
  mem_propertyKeyChars_iff (ne_of_isBreak isBreak (by decide)) (ne_of_isBreak isBreak (by decide))

lemma mem_literal_iff {text : List Char} : c ∈ quote text ↔ c ∈ text :=
  mem_quote_iff (ne_of_isBreak isBreak (by decide)) (ne_of_isBreak isBreak (by decide))

/-- **The line breaks of a member are those of its symbol.** -/
theorem mem_memberText_iff {symbol : String} : c ∈ memberText symbol ↔ c ∈ symbol.toList := by
  have between : c ∉ " = ".toList := not_mem_of_isBreak isBreak (by decide)
  rw [memberText, List.mem_append, List.mem_append, mem_key_iff isBreak, mem_literal_iff isBreak,
    or_iff_left between, or_self]

/-- The line breaks of a reference are its own if it means nothing, and there are none otherwise. -/
lemma mem_referenceText_iff {scope : Scope} {name : String} :
    c ∈ scope.referenceText name ↔
      scope.index.resolve? name scope.space = none ∧ c ∈ name.toList := by
  rw [Scope.referenceText]
  cases scope.index.resolve? name scope.space with
  | none => simp
  | some target =>
      refine iff_of_false ?_ (by simp)
      dsimp only
      split_ifs
      · refine not_mem_of_isBreak isBreak (List.all_eq_true.mpr fun d hd => ?_)
        rcases isWordChar_or_dot_of_mem_pathChars hd with word | rfl
        · rw [isCodeChar, word, Bool.true_or]
        · rfl
      · refine not_mem_of_isBreak isBreak (List.all_eq_true.mpr fun d hd => ?_)
        rw [isCodeChar, isWordChar_of_mem_identifierChars hd, Bool.true_or]

/-- The line breaks of a type are those of its references that mean nothing. -/
lemma mem_typeText_iff {scope : Scope} {type : TypeExpr} (h : type.WellFormed) :
    c ∈ typeText scope type ↔ ∃ name ∈ type.references,
      scope.index.resolve? name scope.space = none ∧ c ∈ name.toList := by
  induction h with
  | @plain kind simple =>
      have noBreak : ∀ word ∈ builtInWords, c ∉ word.toList := by
        have code : builtInWords.all (·.toList.all isCodeChar) = true := by decide
        exact fun word known => not_mem_of_isBreak isBreak (List.all_eq_true.mp code word known)
      have nothing : ¬ ∃ name ∈ ([] : List String),
          scope.index.resolve? name scope.space = none ∧ c ∈ name.toList := by simp
      cases kind with
      | null => exact iff_of_false (noBreak "null" (by decide)) nothing
      | boolean => exact iff_of_false (noBreak "boolean" (by decide)) nothing
      | number => exact iff_of_false (noBreak "number" (by decide)) nothing
      | string => exact iff_of_false (noBreak "string" (by decide)) nothing
      | record => exact absurd rfl simple.noRecord
      | enum => exact absurd rfl simple.noEnum
      | array => exact absurd rfl simple.noArray
      | reference name =>
          rw [TypeExpr.plain, typeText, mem_referenceText_iff isBreak]
          simp [TypeExpr.references, referencesIn]
  | @arrayOf elements nonempty each ih =>
      have noHead : c ∉ "Array<".toList := not_mem_of_isBreak isBreak (by decide)
      have noBar : c ∉ bar := not_mem_of_isBreak isBreak (by decide)
      have noEnd : c ∉ ['>'] := not_mem_of_isBreak isBreak (by decide)
      have text : typeText scope (.arrayOf elements) =
          "Array<".toList ++ bar.intercalate (elements.map (typeText scope)) ++ ['>'] := by
        rw [← typeTexts_eq_map]
        rfl
      have inside : (TypeExpr.arrayOf elements).references =
          elements.flatMap TypeExpr.references := referencesIn_eq_flatMap elements
      rw [text, List.mem_append, List.mem_append, or_iff_left noEnd, or_iff_right noHead,
        mem_intercalate_iff noBar, inside]
      exact exists_mem_map_iff ih

/-- The line breaks of several alternatives. -/
lemma mem_unionText_iff {scope : Scope} {alternatives : List TypeExpr}
    (each : ∀ type ∈ alternatives, type.WellFormed) :
    c ∈ unionText scope alternatives ↔ ∃ name ∈ referencesIn alternatives,
      scope.index.resolve? name scope.space = none ∧ c ∈ name.toList := by
  have noBar : c ∉ bar := not_mem_of_isBreak isBreak (by decide)
  rw [unionText, typeTexts_eq_map, mem_intercalate_iff noBar, referencesIn_eq_flatMap]
  exact exists_mem_map_iff fun type htype => mem_typeText_iff isBreak (each type htype)

lemma mem_literalsText_iff {symbols : List String} :
    c ∈ literalsText symbols ↔ ∃ symbol ∈ symbols, c ∈ symbol.toList := by
  have noBar : c ∉ bar := not_mem_of_isBreak isBreak (by decide)
  rw [literalsText, mem_intercalate_iff noBar]
  simp [mem_literal_iff isBreak]

/-- **The line breaks of a property are those of its strings.** -/
theorem mem_propertyText_iff {scope : Scope} {field : Field}
    (together : GoTogether field.alternatives field.symbols) :
    c ∈ propertyText scope field ↔ ∃ string ∈ stringsOf scope field, c ∈ string.toList := by
  have between : c ∉ ": ".toList := not_mem_of_isBreak isBreak (by decide)
  rw [propertyText, List.mem_append, List.mem_append, or_iff_left between, mem_key_iff isBreak,
    stringsOf, List.exists_mem_cons_iff]
  refine or_congr_right ?_
  obtain ⟨name, alternatives, symbols, doc⟩ := field
  dsimp only at together
  cases together with
  | record =>
      have noRecord : c ∉ "record".toList := not_mem_of_isBreak isBreak (by decide)
      exact iff_of_false noRecord (by simp [referencesIn, TypeExpr.references, TypeExpr.plain])
  | enum symbols =>
      rw [fieldTypeText_enum]
      exact mem_literalsText_iff isBreak
  | types areTypes =>
      simp only [List.mem_filter, Option.isNone_iff_eq_none, and_assoc]
      exact mem_unionText_iff isBreak areTypes.each

end

/-! ## Pieces in a file -/

/-- **How a piece of code that is made from some strings is written.**  It is spread out over the
lines that it has.  It is one line exactly if the strings have no line feed, and then nothing has
been changed.  The breaks in it are those of the strings, of each kind. -/
structure WrittenFrom (strings : List String) (piece written : List Char) : Prop where
  spread : Spread piece written
  oneLine_iff : '\n' ∉ written ↔ ∀ string ∈ strings, '\n' ∉ string.toList
  unchanged : '\n' ∉ written → written = piece
  breaks : ∀ c ∈ lineBreaks, c ∈ piece ↔ ∃ string ∈ strings, c ∈ string.toList

lemma WrittenFrom.of_spread {strings : List String} {piece written : List Char}
    (spread : Spread piece written)
    (breaks : ∀ c ∈ lineBreaks, c ∈ piece ↔ ∃ string ∈ strings, c ∈ string.toList) :
    WrittenFrom strings piece written where
  spread := spread
  oneLine_iff := by
    rw [spread.lineFeed_mem_iff, breaks '\n' List.mem_cons_self]
    push Not
    rfl
  unchanged := fun flat => spread.eq_of_flat (spread.lineFeed_mem_iff.not.mp flat)
  breaks := breaks

/-- What stands in front of the lines of a namespace that are one level deep in a declaration. -/
def marginOf (options : Options) (space : String) : List Char :=
  indentation options space ++ options.tabulator.toList

/-- **A text stands on lines of its own**, behind a margin and with at most a comma after it. -/
def OnLines (content margin text : List Char) : Prop :=
  ∃ ending, IsEnding ending ∧ '\n' ∉ margin ∧ HasLines content (margin ++ text ++ ending)

section

variable {options : Options} (flat : '\n' ∉ options.tabulator.toList)

include flat

lemma flat_indentation (space : String) : '\n' ∉ indentation options space := by
  rw [indentation]
  split_ifs
  · exact flat
  · exact List.not_mem_nil

/-- A piece behind a tabulator that is indented with its namespace is on lines of its own. -/
lemma exists_onLines {content ending rest : List Char} {space : String} {c : Char}
    (other : c ≠ '\n') (isEnding : IsEnding ending)
    (h : HasLines content
      (indent (indentation options space) (options.tabulator.toList ++ c :: rest ++ ending))) :
    ∃ written, Spread (c :: rest) written ∧
      OnLines content (marginOf options space) written := by
  have start : ∃ first text, first ≠ '\n' ∧
      options.tabulator.toList ++ c :: rest ++ ending = first :: text := by
    cases htabulator : options.tabulator.toList with
    | nil => exact ⟨c, rest ++ ending, other, rfl⟩
    | cons first tabulator =>
        refine ⟨first, tabulator ++ c :: rest ++ ending, ?_, rfl⟩
        rintro rfl
        exact flat (htabulator ▸ List.mem_cons_self)
  obtain ⟨first, text, hfirst, htext⟩ := start
  obtain ⟨whole, hwhole, spread⟩ :=
    exists_spread_indent (flat_indentation flat space) hfirst text
  rw [← htext] at hwhole spread
  obtain ⟨front, back, rfl, hfront, hback⟩ := spread.exists_of_append
  obtain ⟨tabulator, written, rfl, htabulator, hpiece⟩ := hfront.exists_of_append
  rw [htabulator.eq_of_flat flat, hback.eq_of_flat isEnding.flat] at hwhole
  refine ⟨written, hpiece, ending, isEnding, ?_, ?_⟩
  · rw [marginOf, List.mem_append, not_or]
    exact ⟨flat_indentation flat space, flat⟩
  · rw [hwhole] at h
    simpa [marginOf] using h

end

/-! ## Members -/

/-- **A member stands in a text** on lines of its own: on one line exactly if its symbol has no line
feed, and then its key and its value are read back as the symbol. -/
def HasMember (content margin : List Char) (symbol : String) : Prop :=
  ∃ written, OnLines content margin written ∧
    WrittenFrom [symbol] (memberText symbol) written ∧
    ('\n' ∉ written → ∀ rest,
      readKey (written ++ rest) =
        some (symbol.toList, " = ".toList ++ quote symbol.toList ++ rest) ∧
      readLiteral (quote symbol.toList ++ rest) = some (symbol.toList, rest))

/-- A member behind a tabulator that is indented with its namespace. -/
lemma hasMember {options : Options} (flat : '\n' ∉ options.tabulator.toList)
    {content ending : List Char} {space symbol : String} (isEnding : IsEnding ending)
    (h : HasLines content (indent (indentation options space)
      (options.tabulator.toList ++ memberText symbol ++ ending))) :
    HasMember content (marginOf options space) symbol := by
  obtain ⟨c, rest, other, htext⟩ := exists_key_append symbol.toList
    (" = ".toList ++ quote symbol.toList)
  rw [← List.append_assoc, ← memberText] at htext
  rw [htext] at h
  obtain ⟨written, spread, onLines⟩ := exists_onLines flat other isEnding h
  rw [← htext] at spread
  have made : WrittenFrom [symbol] (memberText symbol) written :=
    .of_spread spread fun c isBreak => by simpa using mem_memberText_iff isBreak
  refine ⟨written, onLines, made, fun oneLine rest => ⟨?_, readLiteral_quote _ rest⟩⟩
  rw [made.unchanged oneLine, memberText]
  simpa using readKey_propertyKeyChars symbol.toList (show isIdentifierChar ' ' = false by decide)
    ("= ".toList ++ quote symbol.toList ++ rest)

/-! ## Properties -/

/-- **A literal stands in a piece of code**: without a line break exactly if its symbol has no line
feed, and then it is read back as the symbol. -/
def HasLiteral (written : List Char) (symbol : String) : Prop :=
  ∃ before literal after, written = before ++ literal ++ after ∧
    WrittenFrom [symbol] (quote symbol.toList) literal ∧
    ('\n' ∉ literal → ∀ rest, readLiteral (literal ++ rest) = some (symbol.toList, rest))

/-- **A property stands in a text** on lines of its own: on one line exactly if none of its strings
has a line feed, and then its key is read back as the name of the field.  The symbols of an
enumeration that is declared in its place have literals in it. -/
def HasProperty (content margin : List Char) (scope : Scope) (field : Field) : Prop :=
  ∃ written, OnLines content margin written ∧
    WrittenFrom (stringsOf scope field) (propertyText scope field) written ∧
    ('\n' ∉ written → ∀ rest, readKey (written ++ rest) =
      some (field.name.toList, ": ".toList ++ fieldTypeText scope field ++ rest)) ∧
    ∀ symbol ∈ field.symbols.getD [], HasLiteral written symbol

/-- A literal in the type of a property is written with the property. -/
lemma hasLiteral {scope : Scope} {field : Field}
    (together : GoTogether field.alternatives field.symbols) {symbol : String}
    (h : symbol ∈ field.symbols.getD []) {written : List Char}
    (spread : Spread (propertyText scope field) written) : HasLiteral written symbol := by
  have listed : quote symbol.toList <:+: fieldTypeText scope field := by
    obtain ⟨name, alternatives, symbols, doc⟩ := field
    dsimp only at together h
    cases together with
    | enum symbols =>
        rw [fieldTypeText_enum]
        exact infix_intercalate (List.mem_map_of_mem h)
    | record => exact absurd h List.not_mem_nil
    | types _ => exact absurd h List.not_mem_nil
  obtain ⟨before, after, split⟩ := listed.trans (List.suffix_append _ _).isInfix
  rw [propertyText, ← split] at spread
  obtain ⟨front, back, rfl, hfront, -⟩ := spread.exists_of_append
  obtain ⟨before, literal, rfl, -, hliteral⟩ := hfront.exists_of_append
  have made : WrittenFrom [symbol] (quote symbol.toList) literal :=
    .of_spread hliteral fun c isBreak => by simpa using mem_literal_iff isBreak
  refine ⟨before, literal, back, rfl, made, fun oneLine rest => ?_⟩
  rw [made.unchanged oneLine]
  exact readLiteral_quote symbol.toList rest

/-- An indented property that is indented with its namespace. -/
lemma hasProperty {options : Options} (flat : '\n' ∉ options.tabulator.toList)
    {content ending : List Char} {space : String} {scope : Scope} {field : Field}
    (together : GoTogether field.alternatives field.symbols) (isEnding : IsEnding ending)
    (h : HasLines content (indent (indentation options space)
      (indent options.tabulator.toList (propertyText scope field) ++ ending))) :
    HasProperty content (marginOf options space) scope field := by
  obtain ⟨c, rest, other, htext⟩ := exists_key_append field.name.toList
    (": ".toList ++ fieldTypeText scope field)
  rw [← List.append_assoc, ← propertyText] at htext
  rw [htext] at h
  obtain ⟨once, honce, spread⟩ := exists_spread_indent flat other rest
  rw [honce] at h
  cases spread with
  | lineFeed _ _ => exact absurd rfl other
  | char _ inside =>
      obtain ⟨written, again, onLines⟩ := exists_onLines flat other isEnding h
      have whole : Spread (propertyText scope field) written :=
        htext ▸ (Spread.char other inside).trans again
      have made : WrittenFrom (stringsOf scope field) (propertyText scope field) written :=
        .of_spread whole fun c isBreak => mem_propertyText_iff isBreak together
      refine ⟨written, onLines, made, fun oneLine rest => ?_, fun symbol hsymbol =>
        hasLiteral together hsymbol whole⟩
      rw [made.unchanged oneLine, propertyText]
      simpa using readKey_propertyKeyChars field.name.toList
        (show isIdentifierChar ':' = false by decide) (' ' :: fieldTypeText scope field ++ rest)

/-! ## The output -/

lemma isSome_of_mem_getD {α : Type} {found : Option (List α)} {a : α} (h : a ∈ found.getD []) :
    found.isSome := by
  cases found with
  | none => exact absurd h List.not_mem_nil
  | some list => rfl

/-- **The members and properties of a whole output.**  If the tabulator has no line feed, every type
of the table has its file, and there each of its symbols has its member and each of its fields its
property, on lines of their own. -/
theorem unbroken_of_filesOfText {options : Options} (flat : '\n' ∉ options.tabulator.toList)
    {text : String} {files : List OutputFile}
    (h : Conversion.filesOfText options text = .ok files) :
    ∃ table, Conversion.tableOfText options text = .ok table ∧
      ∀ type ∈ table, ∃ file ∈ files,
        file.name = (if options.singleFile then mergedName else fileName type.space) ∧
        (∀ symbol ∈ type.symbols.getD [],
          HasMember file.content.toList (marginOf options type.space) symbol) ∧
        ∀ field ∈ type.fields,
          HasProperty file.content.toList (marginOf options type.space)
            (scopeOf options (SymbolIndex.ofTable table) type.space) field := by
  obtain ⟨-, table, htable, hassemble⟩ := Conversion.filesOfText_eq_ok_iff.mp h
  obtain ⟨document, -, hdocument⟩ := Conversion.tableOfText_eq_ok_iff.mp htable
  refine ⟨table, htable, fun type htype => ?_⟩
  have entry := Schema.wellFormed_of_mem_table hdocument type htype
  obtain ⟨file, hfile, hname, blocks⟩ := exists_file_hasLines hassemble htype
  refine ⟨file, hfile, hname, fun symbol hsymbol => ?_, fun field hfield => ?_⟩
  · have isEnum := entry.symbols.mp (isSome_of_mem_getD hsymbol)
    obtain ⟨ending, isEnding, hasLines⟩ := blocks _ _ (hasBlock_memberLines _ _ isEnum hsymbol)
      fun ending isEnding => renderLines_memberLines _ symbol isEnding
    exact hasMember flat isEnding hasLines
  · have isRecord := entry.children.mp (isSome_of_mem_getD hfield)
    obtain ⟨ending, isEnding, hasLines⟩ := blocks _ _ (hasBlock_property _ _ isRecord hfield)
      fun ending isEnding => renderLines_property _ _ isEnding
    exact hasProperty flat (entry.fields field hfield) isEnding hasLines

/-- A field with a name that is no identifier, and a symbol with a quote and a backslash. -/
def quotedNode : Json.Value :=
  .object [("name", .string "a-b"), ("type", .string "enum"),
    ("symbols", .array [.string "it's \\"])]

/-- What the resolver makes of it. -/
def quotedField : Field :=
  { name := "a-b", alternatives := [.plain .enum], symbols := some ["it's \\"] }

/-- The property is on one line, and its parts are read back. -/
theorem unbroken_quoted :
    ∃ files, Conversion.filesOfText bareOptions (oneFieldText quotedNode) = .ok files ∧
      ∃ file ∈ files,
        OnLines file.content.toList ['\t'] "'a-b': 'it\\'s \\\\'".toList ∧
        HasLiteral "'a-b': 'it\\'s \\\\'".toList "it's \\" := by
  have htable : Conversion.tableOfText bareOptions (oneFieldText quotedNode) =
      .ok [oneFieldEntry quotedNode quotedField] :=
    Conversion.tableOfText_eq_ok_iff.mpr ⟨oneFieldDocument quotedNode, by cbv, by rfl⟩
  have hfiles := Conversion.filesOfText_of_issues rfl rfl htable (by decide +kernel)
  obtain ⟨table, htable', each⟩ := unbroken_of_filesOfText (by decide) hfiles
  obtain rfl := Except.ok.inj (htable.symm.trans htable')
  obtain ⟨file, hfile, -, -, properties⟩ := each _ List.mem_cons_self
  obtain ⟨written, onLines, made, -, literals⟩ := properties quotedField List.mem_cons_self
  have oneLine : '\n' ∉ written := made.oneLine_iff.mpr (by decide)
  have literal := literals "it's \\" List.mem_cons_self
  rw [made.unchanged oneLine] at onLines literal
  exact ⟨_, hfiles, file, hfile, onLines, literal⟩

/-- An enumeration with a line feed in its symbol. -/
def brokenDocument : Json.Value :=
  .object [("type", .string "enum"), ("name", .string "E"), ("symbols", .array [.string "A\nB"])]

/-- Its entry. -/
def brokenEntry : NamedType :=
  { name := "E", space := "", alternatives := [.plain .enum], symbols := some ["A\nB"]
    schema := brokenDocument }

/-- What is written for it. -/
def brokenContent : String := "export enum E\n\x7b\n\t'A\nB' = 'A\nB'\n\x7d;\n\n"

/-- **A member can take three lines**, and no literal in any line of the file is read back as the
symbol. -/
theorem broken_symbol :
    '\n' ∉ ({} : Options).tabulator.toList ∧
    Conversion.filesOfText {} brokenDocument.compact = .ok [⟨"default.ts", brokenContent⟩] ∧
    Conversion.tableOfText {} brokenDocument.compact = .ok [brokenEntry] ∧
    "A\nB" ∈ brokenEntry.symbols.getD [] ∧
    ∀ line ∈ lines brokenContent.toList, ∀ part ∈ line.tails,
      (readLiteral part).map Prod.fst ≠ some "A\nB".toList := by
  have htable : Conversion.tableOfText {} brokenDocument.compact = .ok [brokenEntry] :=
    Conversion.tableOfText_eq_ok_iff.mpr ⟨brokenDocument, by cbv, by rfl⟩
  refine ⟨by decide, ?_, htable, List.mem_cons_self, by decide +kernel⟩
  rw [Conversion.filesOfText_of_issues rfl rfl htable (by decide +kernel)]
  exact congrArg Except.ok (by decide +kernel)

end AvroTypes.TypeScript
