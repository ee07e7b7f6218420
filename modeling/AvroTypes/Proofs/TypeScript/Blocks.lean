import AvroTypes.Proofs.Text.Spreading
import AvroTypes.Proofs.TypeScript.FileContents
import AvroTypes.Proofs.TypeScript.Keys

/-!
# Members and properties in their declaration

The lines of a member or a property stand together in the declaration of its type, below another
line, and the only thing that is added to them is the comma at the end of the last one.  In the file
they are whole lines, indented once for the declaration and once more if there is a block.

* `HasBlock` — a block of lines in a declaration.
* `hasBlock_memberLines`, `hasBlock_property` — **the members of an enumeration and the
  properties of a record.**
* `renderLines_memberLines`, `renderLines_property` — their texts.
* `exists_file_hasLines` — **a block of a declaration in its file.**
-/

namespace AvroTypes.TypeScript

open AvroTypes.Text

/-! ## Blocks -/

/-- What may follow a block: nothing, or a comma. -/
def IsEnding (ending : List Char) : Prop := ending = [] ∨ ending = [',']

lemma IsEnding.flat {ending : List Char} (h : IsEnding ending) : '\n' ∉ ending := by
  rcases h with rfl | rfl <;> decide

lemma followedBy_append (text : List Char) (first : List Line) {last : List Line}
    (h : last ≠ []) : followedBy text (first ++ last) = first ++ followedBy text last := by
  induction first with
  | nil => rfl
  | cons line first ih =>
      obtain ⟨next, rest, hrest⟩ :=
        List.exists_cons_of_ne_nil (List.append_ne_nil_of_right_ne_nil first h)
      rw [List.cons_append, hrest, followedBy, ← hrest, ih, List.cons_append]

/-- **A block stands in a list of lines**, below another line and with its ending. -/
def HasBlock (lines block : List Line) : Prop :=
  ∃ above ending below, above ≠ [] ∧ IsEnding ending ∧
    lines = above ++ followedBy ending block ++ below

namespace HasBlock

variable {lines block : List Line}

lemma within (h : HasBlock lines block) (front back : List Line) :
    HasBlock (front ++ lines ++ back) block := by
  obtain ⟨above, ending, below, nonempty, isEnding, rfl⟩ := h
  exact ⟨front ++ above, ending, below ++ back, by simp [nonempty], isEnding, by simp⟩

/-- A word in front of the first line is not in the block. -/
lemma ledBy (h : HasBlock lines block) (word : List Char) :
    HasBlock (TypeScript.ledBy word lines) block := by
  obtain ⟨above, ending, below, nonempty, isEnding, rfl⟩ := h
  obtain ⟨first, rest, rfl⟩ := List.exists_cons_of_ne_nil nonempty
  exact ⟨_ :: rest, ending, below, by simp, isEnding, rfl⟩

/-- The lower part of a block is one itself. -/
lemma right {first second : List Line} (h : HasBlock lines (first ++ second))
    (nonempty : second ≠ []) : HasBlock lines second := by
  obtain ⟨above, ending, below, someAbove, isEnding, rfl⟩ := h
  refine ⟨above ++ first, ending, below, by simp [someAbove], isEnding, ?_⟩
  rw [followedBy_append ending first nonempty]
  simp

/-- A block that keeps its text when the ending is put behind its last line is in the text of the
lines as whole lines. -/
lemma hasLines (h : HasBlock lines block) {tabulator text : List Char}
    (written : ∀ ending, IsEnding ending →
      renderLines tabulator (followedBy ending block) = text ++ ending ++ ['\n']) :
    ∃ ending, IsEnding ending ∧ HasLines (renderLines tabulator lines) (text ++ ending) := by
  obtain ⟨above, ending, below, nonempty, isEnding, rfl⟩ := h
  refine ⟨ending, isEnding, unlines (above.map (Line.render tabulator)),
    renderLines tabulator below, ?_⟩
  rw [renderLines_append, renderLines_append, renderLines_eq_unlines tabulator nonempty,
    written ending isEnding]
  simp

end HasBlock

lemma followedBy_nothing (block : List Line) : followedBy [] block = block := by
  induction block with
  | nil => rfl
  | cons first rest ih =>
      cases rest with
      | nil => simp [followedBy]
      | cons next rest => rw [followedBy, ih]

/-- **Each of several separated blocks stands in their lines**, whatever is above the first. -/
lemma hasBlock_separated {blocks : List (List Line)} {block : List Line} (h : block ∈ blocks)
    {above : List Line} (nonempty : above ≠ []) (below : List Line) :
    HasBlock (above ++ separated blocks ++ below) block := by
  induction blocks generalizing above with
  | nil => exact absurd h List.not_mem_nil
  | cons first rest ih =>
      cases rest with
      | nil =>
          obtain rfl := List.mem_singleton.mp h
          exact ⟨above, [], below, nonempty, .inl rfl, by rw [followedBy_nothing, separated]⟩
      | cons next rest =>
          rw [separated]
          rcases List.mem_cons.mp h with rfl | h
          · exact ⟨above, [','], separated (next :: rest) ++ below, nonempty, .inr rfl, by simp⟩
          · have lower : above ++ followedBy [','] first ≠ [] := by simp [nonempty]
            simpa using ih h lower

/-- **The members of an enumeration** stand in its declaration. -/
theorem hasBlock_memberLines (options : Options) (scope : Scope) {type : NamedType}
    (isEnum : type.alternatives = [.plain .enum]) {symbol : String}
    (h : symbol ∈ type.symbols.getD []) :
    HasBlock (declarationLines options scope type) (memberLines symbol) := by
  have body : HasBlock (enumLines type) (memberLines symbol) :=
    hasBlock_separated (List.mem_map_of_mem h) (List.cons_ne_nil _ [Line.flush ['\x7b']]) _
  rw [declarationLines, isEnum]
  exact (body.ledBy _).within _ _

/-- **The properties of a record** stand in its declaration, each below its comment. -/
theorem hasBlock_property (options : Options) (scope : Scope) {type : NamedType}
    (isRecord : type.alternatives = [.plain .record]) {field : Field} (h : field ∈ type.fields) :
    HasBlock (declarationLines options scope type)
      (deeper (layOut (propertyText scope field))) := by
  have someFields : type.fields.isEmpty = false := by simpa using List.ne_nil_of_mem h
  have body : HasBlock (recordLines scope type) (propertyLines scope field) := by
    rw [recordLines, someFields]
    exact hasBlock_separated (List.mem_map_of_mem h) (List.cons_ne_nil _ []) _
  have someLines : deeper (layOut (propertyText scope field)) ≠ [] := by
    simpa [deeper, layOut] using lines_ne_nil _
  rw [propertyLines, deeper, List.map_append] at body
  rw [declarationLines, isRecord]
  exact ((body.right someLines).ledBy _).within _ _

/-! ## Texts -/

lemma renderLines_layOut (tabulator text : List Char) :
    renderLines tabulator (layOut text) = text ++ ['\n'] := by
  have same : (layOut text).map (Line.render tabulator) = lines text := by
    rw [layOut, List.map_map]
    exact List.map_id _
  rw [renderLines_eq_unlines tabulator (by simpa [layOut] using lines_ne_nil text), same, unlines,
    lines, List.intercalate_splitOn]

lemma exists_flush_of_mem_layOut {text : List Char} {line : Line} (h : line ∈ layOut text) :
    ∃ part, '\n' ∉ part ∧ line = Line.flush part := by
  obtain ⟨part, hpart, rfl⟩ := List.mem_map.mp h
  exact ⟨part, (mem_of_mem_splitOn hpart).1, rfl⟩

/-- An ending behind a line stands behind its text in the file. -/
def TakesEnding (tabulator : List Char) (line : Line) : Prop :=
  ∀ ending, IsEnding ending →
    { line with text := line.text ++ ending }.render tabulator = line.render tabulator ++ ending

lemma takesEnding_flush (tabulator text : List Char) :
    TakesEnding tabulator (Line.flush text) := fun _ _ => rfl

lemma takesEnding_deeper (tabulator : List Char) {text : List Char} (flat : '\n' ∉ text) :
    TakesEnding tabulator (Line.flush text).deeper := by
  intro ending isEnding
  cases text with
  | nil => rfl
  | cons c text =>
      have longer : '\n' ∉ c :: text ++ ending := by
        rw [List.mem_append, not_or]
        exact ⟨flat, isEnding.flat⟩
      calc indent tabulator (c :: text ++ ending)
        _ = tabulator ++ (c :: text ++ ending) := indent_of_oneLine (by simp) longer tabulator
        _ = tabulator ++ c :: text ++ ending := (List.append_assoc ..).symm
        _ = indent tabulator (c :: text) ++ ending := by
          rw [indent_of_oneLine (List.cons_ne_nil c text) flat]

/-- An ending behind a block stands behind its text. -/
lemma renderLines_followedBy {tabulator text ending : List Char} (isEnding : IsEnding ending)
    {block : List Line} (each : ∀ line ∈ block, TakesEnding tabulator line)
    (h : renderLines tabulator block = text ++ ['\n']) :
    renderLines tabulator (followedBy ending block) = text ++ ending ++ ['\n'] := by
  rcases List.eq_nil_or_concat block with rfl | ⟨above, last, rfl⟩
  · simp at h
  · rw [List.concat_eq_append] at h each ⊢
    have whole : text = renderLines tabulator above ++ last.render tabulator := by
      rw [renderLines_append, renderLines_cons, renderLines_nil, ← List.append_assoc] at h
      exact (List.append_cancel_right h).symm
    rw [followedBy_append ending above (List.cons_ne_nil last []), followedBy, renderLines_append,
      renderLines_cons, each last (by simp) ending isEnding, whole]
    simp

/-- A text that starts with a key does not start with a line feed. -/
lemma exists_key_append (name rest : List Char) :
    ∃ c text, c ≠ '\n' ∧ propertyKeyChars name ++ rest = c :: text := by
  obtain ⟨c, key, hkey, start⟩ := exists_propertyKeyChars name
  refine ⟨c, key ++ rest, ?_, by rw [hkey, List.cons_append]⟩
  rintro rfl
  rcases start with start | start
  · exact absurd start (by decide)
  · exact absurd start (by decide)

/-- **The text of a member**: only its first line has the padding in front. -/
theorem renderLines_memberLines (tabulator : List Char) (symbol : String) {ending : List Char}
    (isEnding : IsEnding ending) :
    renderLines tabulator (followedBy ending (memberLines symbol)) =
      tabulator ++ memberText symbol ++ ending ++ ['\n'] := by
  obtain ⟨c, text, other, htext⟩ := exists_key_append symbol.toList
    (" = ".toList ++ quote symbol.toList)
  rw [← List.append_assoc, ← memberText] at htext
  obtain ⟨first, others, hlines⟩ := layOut_append (show '\n' ∉ [c] by simpa using other.symm) text
  rw [List.singleton_append, List.singleton_append, ← htext] at hlines
  have flat : '\n' ∉ c :: first := by
    obtain ⟨part, flat, hpart⟩ := exists_flush_of_mem_layOut (hlines ▸ List.mem_cons_self)
    rwa [(Line.mk.inj hpart).2]
  have whole : c :: first ++ '\n' :: renderLines tabulator others =
      memberText symbol ++ ['\n'] := by
    rw [← renderLines_layOut tabulator, hlines, renderLines_cons, render_flush]
  rw [memberLines, hlines]
  refine renderLines_followedBy isEnding (List.forall_mem_cons.mpr ⟨?_, fun line hline => ?_⟩) ?_
  · exact takesEnding_deeper tabulator flat
  · obtain ⟨part, -, rfl⟩ := exists_flush_of_mem_layOut (hlines ▸ List.mem_cons_of_mem _ hline)
    exact takesEnding_flush tabulator part
  · rw [renderLines_cons, render_deeper_eq_indent, render_flush,
      indent_of_oneLine (List.cons_ne_nil c first) flat, List.append_assoc, whole,
      List.append_assoc]

/-- **The text of a property** is the indented property. -/
theorem renderLines_property (tabulator text : List Char) {ending : List Char}
    (isEnding : IsEnding ending) :
    renderLines tabulator (followedBy ending (deeper (layOut text))) =
      indent tabulator text ++ ending ++ ['\n'] := by
  refine renderLines_followedBy isEnding (fun line hline => ?_) ?_
  · obtain ⟨flush, hflush, rfl⟩ := List.mem_map.mp hline
    obtain ⟨part, flat, rfl⟩ := exists_flush_of_mem_layOut hflush
    exact takesEnding_deeper tabulator flat
  · rw [renderLines_deeper, renderLines_layOut, indent_append, indent_nil]

/-! ## Files -/

/-- **A block of a declaration in its file**: its text, which an ending may follow, is indented with
the namespace and stands there as whole lines. -/
theorem exists_file_hasLines {options : Options} {table : List NamedType} {files : List OutputFile}
    (h : assemble options table = .ok files) {type : NamedType} (htype : type ∈ table) :
    ∃ file ∈ files,
      file.name = (if options.singleFile then mergedName else fileName type.space) ∧
      ∀ block text,
        HasBlock (declarationLines options
          (scopeOf options (SymbolIndex.ofTable table) type.space) type) block →
        (∀ ending, IsEnding ending →
          renderLines options.tabulator.toList (followedBy ending block) =
            text ++ ending ++ ['\n']) →
        ∃ ending, IsEnding ending ∧
          HasLines file.content.toList
            (indent (indentation options type.space) (text ++ ending)) := by
  obtain ⟨group, hgroup, hspace, -, above, below, hlines⟩ := exists_fileLines options htype
  obtain ⟨file, hfile, hname, hinfix⟩ := exists_file_of_assemble h hgroup
  rw [hlines, renderLines_blockLines] at hinfix
  refine ⟨file, hfile, by rw [hname, hspace], fun block text hblock written => ?_⟩
  obtain ⟨ending, isEnding, hasLines⟩ := (hblock.within above below).hasLines written
  refine ⟨ending, isEnding, (hasLines.indent _).mono (List.IsInfix.trans ?_ hinfix)⟩
  exact List.infix_append _ _ _

end AvroTypes.TypeScript
