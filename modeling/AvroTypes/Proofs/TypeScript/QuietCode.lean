import AvroTypes.Proofs.TypeScript.CodeReader
import AvroTypes.Proofs.TypeScript.LineBreaks

/-!
# Code that exports nothing

Of a declaration only the head and the line of its constant export anything.  What stands between
them is made of a few kinds of pieces: types, schemas, literals, keys and comments.  None of these
exports anything, however its lines are indented, as long as the strings of the schema that are
written as they stand have nothing in them that would end the piece.

* `quiet_print`, `quiet_typeText` — **schemas and types**, by induction on the tree.
* `Margined`, `margined_renderLines` — lines behind blank margins, however wide.
* `ExportingLines`, `QuietLines` — lines of code, and what they export behind any margins.
* `exportingLines_comment` — **the lines of a comment.**
* `quietBlock_memberLines`, `quietBlock_propertyLines` — **members and properties.**
-/

namespace AvroTypes.TypeScript

open AvroTypes.Text
open AvroTypes.Schema (isWordChar)

/-! ## Schemas and types in code -/

lemma quiet_number (number : Json.Number) : Quiet number.print := by
  refine (isPlain_of_all (List.all_eq_true.mpr fun c hc => ?_)).quiet
  have made := Json.isNumeral_print number c hc
  simp only [Decimal.isNumeralChar, Bool.or_eq_true, List.contains_eq_mem, decide_eq_true_eq]
    at made
  rcases made with digit | mark
  · refine isPlainChar_of_isWordPart ?_
    simp [isWordPart, isIdentifierChar, isWordChar, Char.isAlphanum, digit]
  · have plain : ∀ c ∈ ['-', '+', '.', 'e'], isPlainChar c = true :=
      List.all_eq_true.mp (by decide)
    exact plain c mark

/-- A piece of code between two marks. -/
lemma Quiet.between {text : List Char} {opening closing : Char} (h : Quiet text)
    (opens : IsMark opening) (closes : IsMark closing) :
    Exporting [] (opening :: text ++ [closing]) :=
  (exporting_mark opens).after (h.append (.mark closes []) (exporting_mark closes))

/-- A piece of code with a mark behind it, and another one. -/
lemma Quiet.cons {first second : List Char} {mark : Char} (hfirst : Quiet first)
    (isMark : IsMark mark) (hsecond : Quiet second) : Quiet (first ++ mark :: second) := by
  have front : Exporting [] (first ++ [mark]) :=
    hfirst.append (.mark isMark []) (exporting_mark isMark)
  simpa using front.append_quiet hsecond

mutual

/-- **A schema in code exports nothing**: its words are numbers, `true`, `false` and `null`. -/
theorem quiet_print : ∀ value : Json.Value, Quiet value.print
  | .null => (isPlain_of_all (by decide)).quiet
  | .bool true => (isPlain_of_all (by decide)).quiet
  | .bool false => (isPlain_of_all (by decide)).quiet
  | .number n => quiet_number n
  | .string s => (exporting_printString s).quiet
  | .array elements => ((quiet_printElements elements).between (by decide) (by decide)).quiet
  | .object members => ((quiet_printMembers members).between (by decide) (by decide)).quiet

/-- The same for the elements of an array. -/
theorem quiet_printElements : ∀ elements : List Json.Value, Quiet (Json.printElements elements)
  | [] => exporting_nil.quiet
  | [element] => quiet_print element
  | element :: next :: rest =>
      (quiet_print element).cons (by decide) (quiet_printElements (next :: rest))

/-- The same for the members of an object. -/
theorem quiet_printMembers :
    ∀ members : List (String × Json.Value), Quiet (Json.printMembers members)
  | [] => exporting_nil.quiet
  | [(key, value)] => (exporting_printString key).quiet.cons (by decide) (quiet_print value)
  | (key, value) :: next :: rest => by
      have colon : IsMark ':' := by decide
      have comma : IsMark ',' := by decide
      have first := (exporting_printString key).quiet.cons colon (quiet_print value)
      simpa [Json.printMembers] using first.cons comma (quiet_printMembers (next :: rest))

end

lemma isWordPart_of_mem_identifierChars {name : List Char} {c : Char}
    (h : c ∈ identifierChars name) : isWordPart c = true := by
  simp [isWordPart, isIdentifierChar, isWordChar_of_mem_identifierChars h]

lemma isWordPart_of_mem_pathChars {dotted : List Char} {c : Char} (h : c ∈ pathChars dotted) :
    isWordPart c = true := by
  rcases isWordChar_or_dot_of_mem_pathChars h with word | rfl
  · simp [isWordPart, isIdentifierChar, word]
  · decide

section

variable {scope : Scope}

/-- **A reference is plain** if it means something or was plain in the schema. -/
lemma isPlain_referenceText {name : String}
    (plain : scope.index.resolve? name scope.space = none → IsPlain name.toList) :
    IsPlain (scope.referenceText name) := by
  rw [Scope.referenceText]
  split
  · next unknown => exact plain unknown
  · split_ifs
    · exact isPlain_of_isWordPart fun _ => isWordPart_of_mem_pathChars
    · exact isPlain_of_isWordPart fun _ => isWordPart_of_mem_identifierChars

/-- The references among some that mean nothing are plain. -/
def PlainlyReferring (scope : Scope) (names : List String) : Prop :=
  ∀ name ∈ names, scope.index.resolve? name scope.space = none → IsPlain name.toList

/-- Alternatives export nothing if each of them exports nothing. -/
lemma quiet_alternatives {parts : List (List Char)} (each : ∀ part ∈ parts, Quiet part) :
    Quiet (bar.intercalate parts) := by
  have between : Exporting [] bar :=
    (exporting_blank (by decide)).after ((exporting_mark (by decide)).after
      (exporting_blank (by decide)))
  exact quiet_intercalate (.blank (by decide) (.mark (by decide) [' '])) between each

lemma quiet_unionText_of {alternatives : List TypeExpr}
    (each : ∀ type ∈ alternatives, Quiet (typeText scope type)) :
    Quiet (unionText scope alternatives) := by
  rw [unionText, typeTexts_eq_map]
  exact quiet_alternatives (List.forall_mem_map.mpr each)

/-- **A type exports nothing**, by induction on the type. -/
theorem quiet_typeText (type : TypeExpr) (plain : PlainlyReferring scope type.references) :
    Quiet (typeText scope type) := by
  induction type using TypeExpr.induction_elements with
  | of kind elements ih =>
      cases kind with
      | reference name => exact (isPlain_referenceText (plain name List.mem_cons_self)).quiet
      | array =>
          have inside : Quiet (unionText scope elements) :=
            quiet_unionText_of fun element helement => ih element helement fun name hname =>
              plain name (references_subset_referencesIn helement hname)
          have word : Quiet "Array".toList := (isPlain_of_all (by decide)).quiet
          exact word.append (.mark (by decide) _) (inside.between (by decide) (by decide)) |>.quiet
      | null | boolean | number | string | record | enum =>
          exact (isPlain_of_all (by rfl)).quiet

lemma quiet_unionText {alternatives : List TypeExpr}
    (plain : PlainlyReferring scope (referencesIn alternatives)) :
    Quiet (unionText scope alternatives) :=
  quiet_unionText_of fun type htype => quiet_typeText type fun name hname =>
    plain name (references_subset_referencesIn htype hname)

end

/-! ## Lines behind margins -/

/-- A text of nothing but blanks. -/
def IsMargin (text : List Char) : Prop := ∀ c ∈ text, isSpacing c = true

lemma isMargin_nil : IsMargin [] := by simp [IsMargin]

lemma IsMargin.append {first second : List Char} (hfirst : IsMargin first)
    (hsecond : IsMargin second) : IsMargin (first ++ second) :=
  List.forall_mem_append.mpr ⟨hfirst, hsecond⟩

/-- **Lines as they are written**: each behind a margin, and a line feed behind each. -/
inductive Margined : (texts : List (List Char)) → (written : List Char) → Prop
  | nil : Margined [] []
  | cons {margin text written : List Char} {texts : List (List Char)}
      (isMargin : IsMargin margin) (below : Margined texts written) :
      Margined (text :: texts) (margin ++ text ++ '\n' :: written)

section

variable {tabulator padding margin text : List Char}

lemma indent_eq_or (padding : List Char) {line : List Char} (flat : '\n' ∉ line) :
    indent padding line = line ∨ indent padding line = padding ++ line := by
  cases line with
  | nil => exact .inl rfl
  | cons c line => exact .inr (indent_of_oneLine (List.cons_ne_nil c line) flat padding)

/-- Indenting a line behind a margin makes the margin wider, even if there are line feeds in it. -/
lemma exists_margin_indent (hpadding : IsMargin padding) (hmargin : IsMargin margin)
    (flat : '\n' ∉ text) :
    ∃ wider, IsMargin wider ∧ indent padding (margin ++ text) = wider ++ text := by
  induction margin using line_induction with
  | single line oneLine =>
      rcases indent_eq_or padding (List.not_mem_append oneLine flat) with same | padded
      · exact ⟨line, hmargin, same⟩
      · exact ⟨padding ++ line, hpadding.append hmargin, by rw [padded, List.append_assoc]⟩
  | more line below oneLine ih =>
      obtain ⟨hline, hbelow⟩ := List.forall_mem_append.mp hmargin
      obtain ⟨hbreak, hbelow⟩ := List.forall_mem_cons.mp hbelow
      obtain ⟨wider, hwider, written⟩ := ih hbelow
      have front : IsMargin (indent padding line) := by
        rcases indent_eq_or padding oneLine with same | padded
        · rwa [same]
        · rw [padded]
          exact hpadding.append hline
      refine ⟨indent padding line ++ '\n' :: wider,
        front.append (List.forall_mem_cons.mpr ⟨hbreak, hwider⟩), ?_⟩
      rw [List.append_assoc, List.cons_append, indent_append, written]
      simp

lemma exists_margin_render (hmargin : IsMargin tabulator) (depth : Nat) (flat : '\n' ∉ text) :
    ∃ margin, IsMargin margin ∧ (Line.mk depth text).render tabulator = margin ++ text := by
  induction depth with
  | zero => exact ⟨[], isMargin_nil, rfl⟩
  | succ depth ih =>
      obtain ⟨margin, isMargin, written⟩ := ih
      obtain ⟨wider, hwider, again⟩ := exists_margin_indent hmargin isMargin flat
      refine ⟨wider, hwider, ?_⟩
      rw [← again, ← written]
      rfl

/-- **Laid-out lines are written behind margins** if the tabulator is blank. -/
lemma margined_renderLines (isMargin : IsMargin tabulator) {block : List Line}
    (flat : ∀ line ∈ block, '\n' ∉ line.text) :
    Margined (block.map Line.text) (renderLines tabulator block) := by
  induction block with
  | nil => exact .nil
  | cons line block ih =>
      obtain ⟨hline, hblock⟩ := List.forall_mem_cons.mp flat
      obtain ⟨margin, hmargin, written⟩ := exists_margin_render isMargin line.depth hline
      rw [renderLines_cons, written, List.map_cons]
      exact .cons hmargin (ih hblock)

end

lemma Margined.exists_of_append {first second : List (List Char)} {written : List Char}
    (h : Margined (first ++ second) written) :
    ∃ front back, written = front ++ back ∧ Margined first front ∧ Margined second back := by
  induction first generalizing written with
  | nil => exact ⟨[], written, rfl, .nil, h⟩
  | cons text first ih =>
      cases h with
      | @cons margin _ _ _ isMargin below =>
          obtain ⟨front, back, rfl, hfront, hback⟩ := ih below
          exact ⟨_, back, by simp, .cons isMargin hfront, hback⟩

/-- **Lines of code that export just this**, behind whatever margins. -/
def ExportingLines (exports : List Export) (texts : List (List Char)) : Prop :=
  ∀ written, Margined texts written → Exporting exports written

/-- **Lines of code that export nothing** as long as a mark follows them. -/
def QuietLines (texts : List (List Char)) : Prop :=
  ∀ written, Margined texts written → Quiet written

section

variable {text : List Char} {texts first second : List (List Char)} {exports others : List Export}

lemma exportingLines_nil : ExportingLines [] [] := fun _ h => by
  cases h
  exact exporting_nil

lemma ExportingLines.append (hfirst : ExportingLines exports first)
    (hsecond : ExportingLines others second) :
    ExportingLines (exports ++ others) (first ++ second) := fun _ h => by
  obtain ⟨front, back, rfl, hfront, hback⟩ := h.exists_of_append
  exact (hfirst front hfront).append (hsecond back hback)

lemma ExportingLines.append_quiet (hfirst : ExportingLines [] first) (hsecond : QuietLines second) :
    QuietLines (first ++ second) := fun _ h => by
  obtain ⟨front, back, rfl, hfront, hback⟩ := h.exists_of_append
  exact (hfirst front hfront).append_quiet (hsecond back hback)

lemma Margined.exists_of_singleton {written : List Char} (h : Margined [text] written) :
    ∃ margin, IsMargin margin ∧ written = margin ++ (text ++ ['\n']) := by
  cases h with
  | cons isMargin below =>
      cases below
      exact ⟨_, isMargin, List.append_assoc _ _ _⟩

/-- A line with a line feed behind it. -/
lemma exportingLines_singleton (h : Exporting exports (text ++ ['\n'])) :
    ExportingLines exports [text] := fun _ written => by
  obtain ⟨margin, isMargin, rfl⟩ := written.exists_of_singleton
  exact (exporting_blanks isMargin).after h

lemma Exporting.line (h : Exporting exports text) : ExportingLines exports [text] := by
  have lineFeed : Exporting [] ['\n'] := exporting_blank (by decide)
  exact exportingLines_singleton (by simpa using h.append lineFeed)

lemma Quiet.line (h : Quiet text) : QuietLines [text] := fun _ written => by
  obtain ⟨margin, isMargin, rfl⟩ := written.exists_of_singleton
  refine (exporting_blanks isMargin).append_quiet fun rest stopped => ?_
  rw [List.append_assoc, List.singleton_append, h _ (.blank (by decide) stopped)]
  exact exporting_blank (by decide) rest

lemma Stopped.behind_margin {margin rest : List Char} (h : Stopped rest)
    (isMargin : IsMargin margin) : Stopped (margin ++ rest) := by
  induction margin with
  | nil => exact h
  | cons c margin ih =>
      obtain ⟨blank, isMargin⟩ := List.forall_mem_cons.mp isMargin
      exact .blank blank (ih isMargin)

/-- Lines that export nothing in front of a mark, and a line that starts with one. -/
lemma QuietLines.append (hfirst : QuietLines first) (stopped : Stopped text)
    (hsecond : ExportingLines exports (text :: texts)) :
    ExportingLines exports (first ++ text :: texts) := fun _ h => by
  obtain ⟨front, back, rfl, hfront, hback⟩ := h.exists_of_append
  refine (hfirst front hfront).append ?_ (hsecond back hback)
  cases hback with
  | cons isMargin below =>
      rw [List.append_assoc]
      exact (stopped.append _).behind_margin isMargin

end

/-! ## Comments -/

section

variable {front inner rest : List Char}

/-- Where the end of a comment is not part of its start, there is a text between them. -/
lemma Sealed.exists_inner (h : Sealed (front ++ '*' :: rest)) :
    ∃ inner, '*' :: rest = inner ++ ['*', '/'] ∧ Endless (inner ++ ['*']) := by
  obtain ⟨body, whole, endless⟩ := h
  rcases List.append_eq_append_iff.mp whole with ⟨inner, rfl, behind⟩ | ⟨short, -, behind⟩
  · rw [List.append_assoc] at endless
    exact ⟨inner, behind, endless.right_of_append⟩
  · -- the star would have to be the slash at the end, or nothing is left in front of the end
    match short with
    | [] => exact ⟨[], by simpa using behind.symm, List.isChain_singleton '*'⟩
    | [_] => simp at behind
    | [_, _] => simp at behind
    | _ :: _ :: _ :: _ => simp at behind

/-- **A comment exports nothing** if its only end is the last thing in it. -/
lemma exporting_comment {margin : List Char} (isMargin : IsMargin margin)
    (h : Sealed (margin ++ "/*".toList ++ '*' :: rest)) :
    Exporting [] (margin ++ "/*".toList ++ '*' :: rest) := by
  obtain ⟨inner, same, endless⟩ := h.exists_inner
  rw [same, List.append_assoc]
  refine (exporting_blanks isMargin).after fun more => ?_
  have opens : ∀ text, Mode.code.read ("/*".toList ++ text) = (Mode.comment false).read text :=
    fun _ => rfl
  rw [exportsIn, List.append_assoc, opens, List.append_assoc]
  exact congrArg exportsOf (read_comment endless (by simp) more)

/-- Margins keep the only end of a comment at its end. -/
lemma Margined.exists_sealed {above : List (List Char)} {last written : List Char}
    (each : ∀ line ∈ above, Endless line) (hlast : Sealed last)
    (h : Margined (above ++ [last]) written) : ∃ text, written = text ++ ['\n'] ∧ Sealed text := by
  have noStar : ∀ {margin : List Char}, IsMargin margin → '*' ∉ margin := fun isMargin hmem =>
    absurd (isMargin _ hmem) (by decide)
  induction above generalizing written with
  | nil =>
      obtain ⟨margin, isMargin, rfl⟩ := h.exists_of_singleton
      obtain ⟨body, rfl, endless⟩ := hlast
      refine ⟨margin ++ (body ++ ['*', '/']), by simp, margin ++ body, by simp, ?_⟩
      rw [List.append_assoc]
      exact endless_append_of_not_mem (noStar isMargin) endless
  | cons line above ih =>
      obtain ⟨hline, each⟩ := List.forall_mem_cons.mp each
      cases h with
      | @cons margin _ _ _ isMargin below =>
          obtain ⟨text, rfl, hsealed⟩ := ih each below
          refine ⟨margin ++ line ++ '\n' :: text, by simp, ?_⟩
          exact (sealed_split_iff (by decide) (by decide)).mpr
            ⟨endless_append_of_not_mem (noStar isMargin) hline, hsealed⟩

/-- **The lines of a comment export nothing**, whatever its text says. -/
theorem exportingLines_comment (doc : List Char) : ExportingLines [] (commentLines doc) := by
  intro written h
  obtain ⟨above, last, hlines, each, hlast⟩ := exists_commentLines doc
  obtain ⟨text, hwritten, hsealed⟩ := Margined.exists_sealed each hlast (hlines ▸ h)
  obtain ⟨first, below, hstart⟩ := exists_start_commentLines doc
  rw [hstart] at h
  cases h with
  | @cons margin _ rest _ isMargin _ =>
      have start : text = margin ++ "/*".toList ++ '*' :: (first ++ '\n' :: rest).dropLast := by
        have whole := congrArg List.dropLast hwritten
        rw [List.dropLast_concat] at whole
        rw [← whole]
        simp [List.dropLast_append_of_ne_nil, List.dropLast_cons_of_ne_nil]
      rw [hwritten]
      have lineFeed : Exporting [] ['\n'] := exporting_blank (by decide)
      exact (start ▸ exporting_comment isMargin (start ▸ hsealed)).after lineFeed

lemma exportingLines_layOutDoc (doc : Option String) :
    ExportingLines [] ((layOutDoc doc).map Line.text) := by
  cases doc with
  | none => exact exportingLines_nil
  | some text =>
      have texts : (layOutDoc (some text)).map Line.text = commentLines text.toList := by
        simp [layOutDoc, Line.flush, Function.comp_def]
      exact texts ▸ exportingLines_comment text.toList

end

/-! ## Declarations -/

/-- The texts of laid-out lines. -/
abbrev textsOf (block : List Line) : List (List Char) := block.map Line.text

lemma textsOf_deeper (block : List Line) : textsOf (deeper block) = textsOf block := by
  have each (line : Line) : line.deeper.text = line.text := by
    rw [Line.deeper]
    split_ifs <;> rfl
  simp [textsOf, deeper, each]

lemma textsOf_layOut {text : List Char} (flat : '\n' ∉ text) : textsOf (layOut text) = [text] := by
  rw [layOut, lines, List.splitOn_eq_singleton flat]
  rfl

lemma textsOf_followedBy {ending text : List Char} {above : List (List Char)} {block : List Line}
    (h : textsOf block = above ++ [text]) :
    textsOf (followedBy ending block) = above ++ [text ++ ending] := by
  obtain ⟨front, back, rfl, rfl, hback⟩ := List.map_eq_append_iff.mp h
  obtain ⟨last, rfl, rfl⟩ := List.map_eq_singleton_iff.mp hback
  rw [followedBy_append _ _ (List.cons_ne_nil last []), textsOf, List.map_append]
  rfl

/-- Lines that export nothing, and a last one that exports nothing in front of a mark. -/
def QuietBlock (block : List Line) : Prop :=
  ∃ above text, textsOf block = above ++ [text] ∧ ExportingLines [] above ∧ Quiet text

/-- Blocks with commas between them. -/
lemma quietLines_separated {blocks : List (List Line)} (each : ∀ block ∈ blocks, QuietBlock block) :
    QuietLines (textsOf (separated blocks)) := by
  induction blocks with
  | nil => exact fun written h => (exportingLines_nil written h).quiet
  | cons first rest ih =>
      obtain ⟨⟨above, text, htexts, habove, htext⟩, hrest⟩ := List.forall_mem_cons.mp each
      cases rest with
      | nil =>
          rw [separated, htexts]
          exact habove.append_quiet htext.line
      | cons next rest =>
          have comma : IsMark ',' := by decide
          have line : ExportingLines [] [text ++ [',']] :=
            (htext.append (.mark comma []) (exporting_mark comma)).line
          rw [separated, textsOf, List.map_append, ← textsOf, textsOf_followedBy htexts]
          exact (habove.append line).append_quiet (ih hrest)

/-- The string has no character that ends a literal. -/
def OnOneLine (string : String) : Prop := ∀ c ∈ string.toList, endsLiteral c = false

instance (string : String) : Decidable (OnOneLine string) :=
  decidable_of_iff (string.toList.all fun c => !endsLiteral c) (by simp [OnOneLine])

lemma OnOneLine.flat {string : String} (h : OnOneLine string) : '\n' ∉ string.toList := fun hmem =>
  absurd (h _ hmem) (by decide)

lemma quiet_key {name : String} (h : OnOneLine name) : Quiet (propertyKeyChars name.toList) := by
  rw [propertyKeyChars]
  split_ifs with identifier
  · refine (isPlain_of_isWordPart fun c hc => ?_).quiet
    rw [isWordPart, isIdentifierChar_of_mem identifier c hc, Bool.true_or]
  · exact (exporting_quote h).quiet

/-- **A member exports nothing.** -/
lemma quietBlock_memberLines {symbol : String} (h : OnOneLine symbol) :
    QuietBlock (memberLines symbol) := by
  have flat : '\n' ∉ memberText symbol :=
    (mem_memberText_iff (by decide)).not.mpr h.flat
  have text : Quiet (memberText symbol) := by
    have sign : Exporting [] " = ".toList :=
      (exporting_blank (by decide)).after ((exporting_mark (by decide)).after
        (exporting_blank (by decide)))
    exact ((quiet_key h).append (.blank (by decide) (.mark (by decide) _)) sign).after
      (exporting_quote h) |>.quiet
  refine ⟨[], memberText symbol, ?_, exportingLines_nil, text⟩
  have oneLine : layOut (memberText symbol) = [Line.flush (memberText symbol)] := by
    rw [layOut, lines, List.splitOn_eq_singleton flat]
    rfl
  rw [memberLines, oneLine]
  exact textsOf_deeper [Line.flush (memberText symbol)]

lemma quiet_literalsText {symbols : List String} (each : ∀ symbol ∈ symbols, OnOneLine symbol) :
    Quiet (literalsText symbols) :=
  quiet_alternatives (List.forall_mem_map.mpr fun symbol hsymbol =>
    (exporting_quote (each symbol hsymbol)).quiet)

section

variable {scope : Scope} {field : Field}

lemma quiet_propertyText (references : PlainlyReferring scope (referencesIn field.alternatives))
    (name : OnOneLine field.name) (symbols : ∀ symbol ∈ field.symbols.getD [], OnOneLine symbol) :
    Quiet (propertyText scope field) := by
  have type : Quiet (fieldTypeText scope field) := by
    have union := quiet_unionText references
    rw [fieldTypeText]
    split
    · next given =>
        rw [given, Option.getD_some] at symbols
        split_ifs
        · exact quiet_literalsText symbols
        · exact union
    · exact union
  have colon : Exporting [] ": ".toList :=
    (exporting_mark (by decide)).after (exporting_blank (by decide))
  exact ((quiet_key name).append (.mark (by decide) _) colon).append_quiet type

/-- **A property with its comment exports nothing.** -/
lemma quietBlock_propertyLines (together : GoTogether field.alternatives field.symbols)
    (references : PlainlyReferring scope (referencesIn field.alternatives))
    (name : OnOneLine field.name) (symbols : ∀ symbol ∈ field.symbols.getD [], OnOneLine symbol) :
    QuietBlock (propertyLines scope field) := by
  have flat : '\n' ∉ propertyText scope field := by
    rw [mem_propertyText_iff (by decide) together, stringsOf]
    rintro ⟨string, hstring, hmem⟩
    rcases List.mem_cons.mp hstring with rfl | hstring
    · exact name.flat hmem
    · split at hstring
      · next given => exact (symbols string (by simpa [given] using hstring)).flat hmem
      · obtain ⟨hname, unknown⟩ := List.mem_filter.mp hstring
        exact (references string hname (by simpa using unknown)).oneLine hmem
  refine ⟨textsOf (layOutDoc field.doc), propertyText scope field, ?_,
    exportingLines_layOutDoc field.doc, quiet_propertyText references name symbols⟩
  rw [propertyLines, textsOf_deeper, textsOf, List.map_append]
  exact congrArg (_ ++ ·) (textsOf_layOut flat)

end

end AvroTypes.TypeScript
