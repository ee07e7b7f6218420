import AvroTypes.Text.Layout
import Mathlib.Tactic.Lemma
import Mathlib.Tactic.SplitIfs

/-!
# The text of laid-out lines

A list of lines becomes a text line by line, and a line that stands at the outermost level is its
own text.  A block that is one level deeper is written as the text of the block after one level of
indentation: indentation goes through a text line by line, and so it does not matter whether it is
applied before the lines are put together or afterwards.

* `renderLines_append`, `renderLines_cons`, `render_flush` — line by line.
* `line_induction` — a text as a line, or as a line with a text below it.
* `indent_append` — **indentation goes through a text line by line.**
* `indent_of_oneLine`, `indent_no_padding` — what it does to one line, and without a padding.
* `renderLines_deeper` — **a deeper block is an indented text.**
-/

namespace AvroTypes.Text

variable {tabulator : List Char}

@[simp] lemma renderLines_nil : renderLines tabulator [] = [] := rfl

@[simp] lemma renderLines_cons (line : Line) (rest : List Line) :
    renderLines tabulator (line :: rest) =
      line.render tabulator ++ '\n' :: renderLines tabulator rest := by
  simp [renderLines]

@[simp] lemma renderLines_append (first second : List Line) :
    renderLines tabulator (first ++ second) =
      renderLines tabulator first ++ renderLines tabulator second :=
  List.flatMap_append

@[simp] lemma render_flush (text : List Char) : (Line.flush text).render tabulator = text := rfl

/-! ## Lines -/

/-- The parts of a text are made of its characters, without the separator. -/
lemma mem_of_mem_splitOn {text part : List Char} {separator : Char}
    (h : part ∈ text.splitOn separator) : separator ∉ part ∧ ∀ c ∈ part, c ∈ text := by
  induction text generalizing part with
  | nil =>
      obtain rfl : part = [] := by simpa using h
      simp
  | cons c text ih =>
      rw [List.splitOn_cons_eq_if_modifyHead] at h
      split_ifs at h with hc
      · rcases List.mem_cons.mp h with rfl | h
        · simp
        · exact ⟨(ih h).1, fun d hd => List.mem_cons_of_mem _ ((ih h).2 d hd)⟩
      · obtain ⟨first, others, hsplit⟩ :=
          List.exists_cons_of_ne_nil (List.splitOn_ne_nil separator text)
        rw [hsplit, List.modifyHead_cons] at h
        rcases List.mem_cons.mp h with rfl | h
        · obtain ⟨clear, inside⟩ := ih (hsplit ▸ List.mem_cons_self)
          refine ⟨fun hmem => ?_, fun d hd => ?_⟩
          · rcases List.mem_cons.mp hmem with rfl | hmem
            · simp at hc
            · exact clear hmem
          · rcases List.mem_cons.mp hd with rfl | hd
            · exact List.mem_cons_self
            · exact List.mem_cons_of_mem _ (inside d hd)
        · have := ih (hsplit ▸ List.mem_cons_of_mem _ h)
          exact ⟨this.1, fun d hd => List.mem_cons_of_mem _ (this.2 d hd)⟩

lemma intercalate_append {α : Type} (separator : List α) {first second : List (List α)}
    (hfirst : first ≠ []) (hsecond : second ≠ []) :
    separator.intercalate (first ++ second) =
      separator.intercalate first ++ separator ++ separator.intercalate second := by
  induction first with
  | nil => simp at hfirst
  | cons head rest ih =>
      cases rest with
      | nil => simp [List.intercalate_cons_of_ne_nil hsecond]
      | cons next rest =>
          simp only [List.cons_append] at ih ⊢
          rw [List.intercalate_cons_cons, ih (by simp), List.intercalate_cons_cons]
          simp [List.append_assoc]

lemma lines_ne_nil (text : List Char) : lines text ≠ [] := List.splitOn_ne_nil '\n' text

/-- **Induction on the lines of a text**: it is a single line, or a line with a text below it. -/
@[elab_as_elim]
theorem line_induction {motive : List Char → Prop} (single : ∀ line, '\n' ∉ line → motive line)
    (more : ∀ line below, '\n' ∉ line → motive below → motive (line ++ '\n' :: below))
    (text : List Char) : motive text := by
  suffices ∀ front, '\n' ∉ front → motive (front ++ text) from this [] List.not_mem_nil
  induction text with
  | nil =>
      intro front flat
      exact single _ (by simpa using flat)
  | cons c text ih =>
      intro front flat
      by_cases hc : c = '\n'
      · subst hc
        exact more front text flat (ih [] List.not_mem_nil)
      · rw [List.append_cons]
        exact ih (front ++ [c]) (by simp [flat, Ne.symm hc])

/-! ## Indentation -/

/-- **Indentation goes through a text line by line.** -/
theorem indent_append (padding first second : List Char) :
    indent padding (first ++ '\n' :: second) =
      indent padding first ++ '\n' :: indent padding second := by
  have split : lines (first ++ '\n' :: second) = lines first ++ lines second :=
    List.splitOn_append_cons_self first second
  rw [indent, split, List.map_append, unlines, intercalate_append _
    (by simpa using lines_ne_nil first) (by simpa using lines_ne_nil second), List.append_assoc]
  rfl

/-- An empty line stays empty. -/
lemma indent_cons (padding text : List Char) :
    indent padding ('\n' :: text) = '\n' :: indent padding text := indent_append padding [] text

lemma indent_nil (padding : List Char) : indent padding [] = [] := rfl

/-- A text that is one line, and not empty, gets one padding. -/
lemma indent_of_oneLine {text : List Char} (nonempty : text ≠ []) (oneLine : '\n' ∉ text)
    (padding : List Char) : indent padding text = padding ++ text := by
  have single : lines text = [text] := List.splitOn_eq_singleton oneLine
  have someText : text.isEmpty = false := by simpa using nonempty
  simp [indent, single, unlines, indentLine, someText]

/-- Without a padding nothing changes. -/
lemma indent_no_padding (text : List Char) : indent [] text = text := by
  have same : indentLine [] = id := by
    funext line
    cases line <;> rfl
  rw [indent, same, List.map_id, unlines, lines, List.intercalate_splitOn]

/-- A line one level deeper is the line after one level of indentation. -/
lemma render_deeper_eq_indent (line : Line) :
    line.deeper.render tabulator = indent tabulator (line.render tabulator) := by
  obtain ⟨depth, text⟩ := line
  cases text with
  | cons c rest => rfl
  | nil =>
      -- an empty line stays where it is, and no level of indentation changes it
      have empty : ∀ depth, Nat.repeat (indent tabulator) depth [] = [] := by
        intro depth
        induction depth with
        | zero => rfl
        | succ depth ih => rw [Nat.repeat, ih, indent_nil]
      change Line.render tabulator ⟨depth, []⟩ = _
      rw [Line.render, empty, indent_nil]

/-- **A deeper block is an indented text.** -/
theorem renderLines_deeper (block : List Line) :
    renderLines tabulator (deeper block) = indent tabulator (renderLines tabulator block) := by
  induction block with
  | nil => rfl
  | cons line rest ih =>
      rw [renderLines_cons, indent_append, ← ih, ← render_deeper_eq_indent]
      exact renderLines_cons line.deeper (deeper rest)

/-- The text of a block that is not empty: its lines put together, and a line feed. -/
lemma renderLines_eq_unlines (tabulator : List Char) {block : List Line} (h : block ≠ []) :
    renderLines tabulator block = unlines (block.map (Line.render tabulator)) ++ ['\n'] := by
  induction block with
  | nil => exact absurd rfl h
  | cons line rest ih =>
      cases rest with
      | nil => simp [unlines]
      | cons next rest =>
          rw [renderLines_cons, ih (by simp)]
          simp [unlines, List.intercalate_cons_cons]

end AvroTypes.Text
