import AvroTypes.Proofs.Json.OneLine
import AvroTypes.Proofs.TypeScript.FileContents
import AvroTypes.Proofs.TypeScript.Independence

/-!
# What the tabulator changes

The lines of a file are laid out before anyone looks at the tabulator: what each of them says, and
how many levels deep it stands.  Writing them repeats the tabulator, once for each level.  That this
is all relies on the lines being tidy: none has a line feed in it, and an empty one stands at the
margin, so however long the tabulator is, an indented line is never taken for an empty one or for
several.  The layouts that a declaration is put together with keep lines tidy.

* `Text.Line.Tidy`, `Text.Line.written` — tidy lines, and lines behind their indentation.
* `Text.Line.Tidy.render_eq` — **a tidy line is written behind its indentation.**
* `tidy_declarationLines`, `tidy_fileLines` — **all lines are tidy.**
* `generate_laid_out` — **the files of a table for every tabulator.**
-/

namespace AvroTypes

/-! ## Tidy lines -/

namespace Text

/-- **A tidy line**: what it says is one line, and if that is nothing then it is not indented. -/
structure Line.Tidy (line : Line) : Prop where
  flat : '\n' ∉ line.text
  atMargin : line.text = [] → line.depth = 0

/-- A line behind its indentation: the tabulator, once for each level. -/
def Line.written (tabulator : List Char) (line : Line) : List Char :=
  (List.replicate line.depth tabulator).flatten ++ line.text

/-- All lines of a block are tidy. -/
def Tidy (block : List Line) : Prop := ∀ line ∈ block, line.Tidy

section

variable {tabulator text : List Char} {line : Line} {first second block : List Line}

/-- **A tidy line is written behind its indentation**, by induction on how deep it stands.  On the
way it never is empty, since then no padding would be put in front of it. -/
theorem Line.Tidy.render_eq (tidy : line.Tidy) (flat : '\n' ∉ tabulator) :
    line.render tabulator = line.written tabulator := by
  obtain ⟨depth, text⟩ := line
  cases text with
  | nil =>
      obtain rfl : depth = 0 := tidy.atMargin rfl
      rfl
  | cons c rest =>
      induction depth with
      | zero => rfl
      | succ depth ih =>
          have above : Line.Tidy ⟨depth, c :: rest⟩ := ⟨tidy.flat, by simp⟩
          have noBreak : '\n' ∉ Line.written tabulator ⟨depth, c :: rest⟩ := by
            refine List.not_mem_append (fun hmem => ?_) tidy.flat
            obtain ⟨part, hpart, hmem⟩ := List.mem_flatten.mp hmem
            exact flat ((List.mem_replicate.mp hpart).2 ▸ hmem)
          calc Line.render tabulator ⟨depth + 1, c :: rest⟩
            _ = indent tabulator (Line.render tabulator ⟨depth, c :: rest⟩) := rfl
            _ = indent tabulator (Line.written tabulator ⟨depth, c :: rest⟩) := by rw [ih above]
            _ = tabulator ++ Line.written tabulator ⟨depth, c :: rest⟩ :=
              indent_of_oneLine (by simp [Line.written]) noBreak tabulator
            _ = Line.written tabulator ⟨depth + 1, c :: rest⟩ := by
              simp [Line.written, List.replicate_succ]

lemma Line.tidy_flush (flat : '\n' ∉ text) : (Line.flush text).Tidy := ⟨flat, fun _ => rfl⟩

lemma Line.Tidy.deeper (tidy : line.Tidy) : line.deeper.Tidy := by
  rw [Line.deeper]
  split_ifs with empty
  · exact tidy
  · exact ⟨tidy.flat, fun nothing => absurd (List.isEmpty_iff.mpr nothing) empty⟩

/-- Something may be put around what a line says, as long as it is on one line and there is
something then. -/
lemma Line.Tidy.around (tidy : line.Tidy) {before after : List Char} (front : '\n' ∉ before)
    (back : '\n' ∉ after) (nonempty : before ++ after ≠ []) :
    Line.Tidy { line with text := before ++ line.text ++ after } where
  flat := List.not_mem_append (List.not_mem_append front tidy.flat) back
  atMargin nothing := by simp_all

lemma tidy_append (hfirst : Tidy first) (hsecond : Tidy second) : Tidy (first ++ second) :=
  List.forall_mem_append.mpr ⟨hfirst, hsecond⟩

lemma tidy_cons (hline : line.Tidy) (hblock : Tidy block) : Tidy (line :: block) :=
  List.forall_mem_cons.mpr ⟨hline, hblock⟩

lemma tidy_singleton (flat : '\n' ∉ text) : Tidy [Line.flush text] :=
  tidy_cons (Line.tidy_flush flat) (by simp [Tidy])

lemma tidy_layOut (text : List Char) : Tidy (layOut text) := by
  intro line hline
  obtain ⟨part, hpart, rfl⟩ := List.mem_map.mp hline
  exact Line.tidy_flush (mem_of_mem_splitOn hpart).1

lemma Tidy.deeper (h : Tidy block) : Tidy (deeper block) := by
  intro line hline
  obtain ⟨shallow, hshallow, rfl⟩ := List.mem_map.mp hline
  exact (h shallow hshallow).deeper

lemma unlines_append_nil {texts : List (List Char)} (h : texts ≠ []) :
    unlines (texts ++ [[]]) = unlines texts ++ ['\n'] := by
  simp [unlines, intercalate_append _ h (List.cons_ne_nil _ _)]

/-- **The text of tidy lines**: each behind its indentation, and nothing behind the last line feed.
-/
theorem Tidy.renderLines_eq (h : Tidy block) (flat : '\n' ∉ tabulator) :
    renderLines tabulator block =
      unlines ((block ++ [Line.flush []]).map (Line.written tabulator)) := by
  have each : block.map (Line.render tabulator) = block.map (Line.written tabulator) :=
    List.map_congr_left fun line hline => (h line hline).render_eq flat
  cases block with
  | nil => rfl
  | cons first rest =>
      rw [renderLines_eq_unlines tabulator (List.cons_ne_nil first rest), each, List.map_append]
      exact (unlines_append_nil (by simp)).symm

end

end Text

/-! ## Declarations -/

namespace TypeScript

open AvroTypes.Text

section

variable {block : List Line}

lemma tidy_followedBy {ending : List Char} (flat : '\n' ∉ ending) (nonempty : ending ≠ [])
    (h : Tidy block) : Tidy (followedBy ending block) := by
  induction block with
  | nil => exact h
  | cons first rest ih =>
      obtain ⟨hfirst, hrest⟩ := List.forall_mem_cons.mp h
      cases rest with
      | nil => exact tidy_cons (hfirst.around List.not_mem_nil flat nonempty) hrest
      | cons next rest => exact tidy_cons hfirst (ih hrest)

lemma tidy_separated {blocks : List (List Line)} (h : ∀ block ∈ blocks, Tidy block) :
    Tidy (separated blocks) := by
  induction blocks with
  | nil => simp [separated, Tidy]
  | cons first rest ih =>
      obtain ⟨hfirst, hrest⟩ := List.forall_mem_cons.mp h
      cases rest with
      | nil => exact hfirst
      | cons next rest =>
          exact tidy_append (tidy_followedBy (by decide) (by decide) hfirst) (ih hrest)

lemma tidy_ledBy {word : List Char} (flat : '\n' ∉ word) (nonempty : word ≠ [])
    (h : Tidy block) : Tidy (ledBy word block) := by
  cases block with
  | nil => exact h
  | cons first rest =>
      obtain ⟨hfirst, hrest⟩ := List.forall_mem_cons.mp h
      have led := hfirst.around flat List.not_mem_nil (by simpa using nonempty)
      rw [List.append_nil] at led
      exact tidy_cons led hrest

end

lemma lineFeed_not_mem_identifierFor (type : NamedType) : '\n' ∉ identifierFor type :=
  not_mem_identifierChars (by decide)

/-- Each line of a comment is one line. -/
lemma lineFeed_not_mem_commentLines {doc line : List Char} (h : line ∈ commentLines doc) :
    '\n' ∉ line := by
  have inside : ∀ part ∈ docLines doc, '\n' ∉ part := by
    intro part hpart
    rw [docLines] at hpart
    split_ifs at hpart
    · simp at hpart
    · obtain ⟨whole, hwhole, rfl⟩ := List.mem_map.mp hpart
      intro hmem
      have kept := (List.dropWhile_sublist _).subset (List.mem_reverse.mp hmem)
      exact (mem_of_mem_splitOn hwhole).1 (List.mem_reverse.mp kept)
  rw [commentLines] at h
  split at h
  · obtain rfl := List.mem_singleton.mp h
    decide
  case h_2 part hdoc =>
    obtain rfl := List.mem_singleton.mp h
    have hpart := inside part (hdoc ▸ List.mem_cons_self)
    simp [hpart]
  · rcases List.mem_append.mp h with h | h
    · rcases List.mem_cons.mp h with rfl | h
      · decide
      · obtain ⟨part, hpart, rfl⟩ := List.mem_map.mp h
        have := inside part hpart
        rw [starred]
        split_ifs <;> simp [this]
    · obtain rfl := List.mem_singleton.mp h
      decide

lemma tidy_layOutDoc (doc : Option String) : Tidy (layOutDoc doc) := by
  cases doc with
  | none => simp [layOutDoc, Tidy]
  | some text =>
      intro line hline
      obtain ⟨part, hpart, rfl⟩ := List.mem_map.mp hline
      exact Line.tidy_flush (lineFeed_not_mem_commentLines hpart)

lemma tidy_memberLines (symbol : String) : Tidy (memberLines symbol) := by
  have h := tidy_layOut (memberText symbol)
  rw [memberLines]
  cases hlines : layOut (memberText symbol) with
  | nil => simp [Tidy]
  | cons first rest =>
      obtain ⟨hfirst, hrest⟩ := List.forall_mem_cons.mp (hlines ▸ h)
      exact tidy_cons hfirst.deeper hrest

lemma tidy_enumLines (type : NamedType) : Tidy (enumLines type) := by
  have members : Tidy (separated ((type.symbols.getD []).map memberLines)) := by
    refine tidy_separated fun block hblock => ?_
    obtain ⟨symbol, -, rfl⟩ := List.mem_map.mp hblock
    exact tidy_memberLines symbol
  refine tidy_append ?_ (tidy_singleton (by decide))
  refine tidy_cons (Line.tidy_flush ?_) (tidy_cons (Line.tidy_flush (by decide)) members)
  exact List.not_mem_append (by decide) (lineFeed_not_mem_identifierFor type)

lemma tidy_recordLines (scope : Scope) (type : NamedType) : Tidy (recordLines scope type) := by
  have head : '\n' ∉ "type ".toList ++ identifierFor type ++ " = ".toList := by
    simp [lineFeed_not_mem_identifierFor]
  have properties : Tidy (separated (type.fields.map (propertyLines scope))) := by
    refine tidy_separated fun block hblock => ?_
    obtain ⟨field, -, rfl⟩ := List.mem_map.mp hblock
    exact (tidy_append (tidy_layOutDoc field.doc) (tidy_layOut _)).deeper
  rw [recordLines]
  split_ifs
  · exact tidy_singleton (List.not_mem_append head (by decide))
  · refine tidy_append (tidy_cons (Line.tidy_flush ?_) properties) (tidy_singleton (by decide))
    exact List.not_mem_append head (by decide)

lemma tidy_schemaLines (type : NamedType) : Tidy (schemaLines type) := by
  refine tidy_cons (Line.tidy_flush List.not_mem_nil) (tidy_singleton ?_)
  simp [lineFeed_not_mem_identifierFor, Json.lineFeed_not_mem_print]

/-- **The lines of a declaration are tidy.** -/
theorem tidy_declarationLines (options : Options) (scope : Scope) (type : NamedType) :
    Tidy (declarationLines options scope type) := by
  cases hhead : type.alternatives.head? with
  | none =>
      rw [declarationLines, hhead]
      exact tidy_singleton List.not_mem_nil
  | some head =>
      obtain ⟨body, constant, isBody, hconstant, hlines⟩ :=
        exists_isBody_declarationLines options scope hhead
      have tidyBody : Tidy body := by
        cases isBody with
        | enum => exact tidy_enumLines type
        | record => exact tidy_recordLines scope type
        | typeAlias => exact tidy_layOut _
      have tidyConstant : Tidy constant := by
        rw [hconstant]
        split_ifs
        · exact tidy_schemaLines type
        · simp [Tidy]
      rw [hlines]
      exact tidy_append (tidy_append (tidy_layOutDoc type.doc)
        (tidy_ledBy (by decide) (by decide) tidyBody)) tidyConstant

/-- **The lines of a file are tidy.** -/
theorem tidy_fileLines (options : Options) (index : SymbolIndex) (group : Group) :
    Tidy (fileLines options index group) := by
  let scope := scopeOf options index group.space
  have body : Tidy (groupLines options scope group.types) := by
    intro line hline
    obtain ⟨type, -, hline⟩ := List.mem_flatMap.mp hline
    have declared : Tidy (declarationLines options scope type ++ [Line.flush []]) :=
      tidy_append (tidy_declarationLines options scope type) (tidy_singleton List.not_mem_nil)
    exact declared line hline
  have head : '\n' ∉ blockHead group.space := by
    have path : '\n' ∉ pathChars group.space.toList := by
      intro hmem
      rcases isWordChar_or_dot_of_mem_pathChars hmem with word | dot
      · exact absurd word (by decide)
      · exact absurd dot (by decide)
    exact List.not_mem_append (List.not_mem_append (by decide) path) (by decide)
  rw [fileLines, blockLines]
  split_ifs
  · exact tidy_append (tidy_cons (Line.tidy_flush head) body.deeper) (tidy_singleton (by decide))
  · exact body

/-! ## Files -/

/-- The file of a name with laid-out lines, each behind its indentation, and line feeds between
them. -/
def OutputFile.ofLayout (tabulator : String) (layout : String × List Line) : OutputFile :=
  { name := layout.1
    content := String.ofList (unlines (layout.2.map (Line.written tabulator.toList))) }

/-- **The tabulator only says how lines are indented.**  If a table is written with some tabulator,
there are laid-out lines for each of its files that do not depend on the tabulator, and for every
tabulator without a line feed the table is written as these lines: each is the tabulator, repeated
once for each level, and then what the line says, and line feeds are put between them.  No line has
a line feed in it, and an empty one stands at the margin. -/
theorem generate_laid_out {options : Options} {table : List NamedType} {files : List OutputFile}
    (h : generate options table = .ok files) :
    ∃ layouts : List (String × List Line),
      (∀ layout ∈ layouts, ∀ line ∈ layout.2,
        '\n' ∉ line.text ∧ (line.text = [] → line.depth = 0)) ∧
      files.map OutputFile.name = layouts.map Prod.fst ∧
      ∀ tabulator : String, '\n' ∉ tabulator.toList →
        generate { options with tabulator } table =
          .ok (layouts.map (OutputFile.ofLayout tabulator)) := by
  let index := SymbolIndex.ofTable table
  let lines (group : Group) : List Line := fileLines options index group ++ [Line.flush []]
  have tidy (group : Group) : Tidy (lines group) :=
    tidy_append (tidy_fileLines options index group) (tidy_singleton List.not_mem_nil)
  obtain ⟨sound, rfl⟩ := generate_eq_ok_iff_sound.mp h
  refine ⟨(Group.ofTable table).map fun group => (fileName group.space, lines group), ?_, ?_, ?_⟩
  · intro layout hlayout line hline
    obtain ⟨group, -, rfl⟩ := List.mem_map.mp hlayout
    exact ⟨(tidy group line hline).flat, (tidy group line hline).atMargin⟩
  · rw [filesOf, List.map_map, List.map_map]
    rfl
  · intro tabulator flat
    have still : Sound { options with tabulator } table :=
      ⟨sound.names, sound.single, sound.closed, sound.segments, sound.files⟩
    refine generate_eq_ok_iff_sound.mpr ⟨still, ?_⟩
    rw [filesOf, List.map_map]
    refine List.map_congr_left fun group _ => ?_
    -- the laid-out lines are the same for all tabulators
    have written := (tidy_fileLines options index group).renderLines_eq flat
    exact congrArg (fun content => OutputFile.mk (fileName group.space) (String.ofList content))
      written.symm

/-- A symbol on two lines, and a record with comments, one of which has an empty line in it. -/
def commentedTable : List NamedType :=
  [{ name := "Colour", space := "a", alternatives := [.plain .enum]
     symbols := some ["RED", "DARK\nBLUE"] },
    { name := "Pixel", space := "a", alternatives := [.plain .record], doc := some "One\n\npoint."
      children := some
        [{ name := "colour", alternatives := [.plain (.reference "Colour")]
           doc := some "Its." }] }]

/-- The table is written as the same lines without any indentation and with two blanks. -/
theorem generate_laid_out_commented :
    ∃ files, ∃ layouts : List (String × List Line), generate {} commentedTable = .ok files ∧
      files.map OutputFile.name = ["a.ts"] ∧ layouts.map Prod.fst = ["a.ts"] ∧
      generate { tabulator := "" } commentedTable =
        .ok (layouts.map (OutputFile.ofLayout "")) ∧
      generate { tabulator := "  " } commentedTable =
        .ok (layouts.map (OutputFile.ofLayout "  ")) := by
  have noIssues : issues {} (SymbolIndex.ofTable commentedTable) commentedTable = [] := by
    simp only [issues, problemsOfType, danglingProblems, dangling_eq_filter,
      SymbolIndex.resolve?_ofTable]
    decide +kernel
  have h := generate_eq_ok_iff.mpr ⟨noIssues, rfl⟩
  have names := map_name_fileOf {} (SymbolIndex.ofTable commentedTable) commentedTable
  obtain ⟨layouts, -, same, written⟩ := generate_laid_out h
  refine ⟨_, layouts, h, names.trans (by decide +kernel), ?_, written "" (by decide),
    written "  " (by decide)⟩
  exact same.symm.trans (names.trans (by decide +kernel))

end TypeScript

end AvroTypes
