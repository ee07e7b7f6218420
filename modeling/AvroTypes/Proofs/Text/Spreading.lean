import AvroTypes.Proofs.Text.Lines

/-!
# Pieces of an indented text

Indentation puts something behind the line feeds of a text and leaves everything else as it is.  So
a piece of the text is found again in the indented text, spread out if it has line feeds and
otherwise unchanged, and whole lines of the text become whole lines again.

* `Spread` — a text with something put in behind its line feeds.
* `Spread.eq_of_flat`, `Spread.count` — **a text without a line feed is not changed**, and no text
  gets more lines.
* `exists_spread_indent` — what indentation does to a text.
* `HasLines` — whole lines of a text, which indentation keeps together.
-/

namespace AvroTypes.Text

/-- **A text is spread out**: behind each of its line feeds, and nowhere else, something may have
been put in that has none itself. -/
inductive Spread : List Char → List Char → Prop
  | nil : Spread [] []
  | char {c : Char} (other : c ≠ '\n') {text written : List Char} (rest : Spread text written) :
      Spread (c :: text) (c :: written)
  | lineFeed {margin : List Char} (flat : '\n' ∉ margin) {text written : List Char}
      (rest : Spread text written) : Spread ('\n' :: text) ('\n' :: (margin ++ written))

namespace Spread

variable {first second text written : List Char}

/-- What has been made of a text that is put together is put together from what has been made of its
parts. -/
lemma exists_of_append (h : Spread (first ++ second) written) :
    ∃ front back, written = front ++ back ∧ Spread first front ∧ Spread second back := by
  induction first generalizing written with
  | nil => exact ⟨[], written, rfl, .nil, h⟩
  | cons c first ih =>
      rw [List.cons_append] at h
      cases h with
      | char other rest =>
          obtain ⟨front, back, rfl, hfirst, hsecond⟩ := ih rest
          exact ⟨c :: front, back, rfl, .char other hfirst, hsecond⟩
      | @lineFeed margin flat _ _ rest =>
          obtain ⟨front, back, rfl, hfirst, hsecond⟩ := ih rest
          exact ⟨'\n' :: (margin ++ front), back, by simp, .lineFeed flat hfirst, hsecond⟩

/-- **A text without a line feed is not changed.** -/
theorem eq_of_flat (h : Spread text written) (flat : '\n' ∉ text) : written = text := by
  induction h with
  | nil => rfl
  | char _ _ ih => rw [ih fun mem => flat (List.mem_cons_of_mem _ mem)]
  | lineFeed _ _ _ => exact absurd List.mem_cons_self flat

lemma trans {again : List Char} (h : Spread text written) (h' : Spread written again) :
    Spread text again := by
  induction h generalizing again with
  | nil => exact h'
  | char other _ ih =>
      cases h' with
      | char _ rest' => exact .char other (ih rest')
      | lineFeed => exact absurd rfl other
  | @lineFeed margin flat _ _ _ ih =>
      cases h' with
      | char other _ => exact absurd rfl other
      | @lineFeed margin' flat' _ _ rest' =>
          -- what was put in the first time has no line feed, so it is still there
          obtain ⟨_, back, rfl, kept, rest'⟩ := rest'.exists_of_append
          rw [kept.eq_of_flat flat, ← List.append_assoc]
          refine .lineFeed ?_ (ih rest')
          simp [flat, flat']

/-- **No line is added and none is lost.** -/
theorem count (h : Spread text written) : written.count '\n' = text.count '\n' := by
  induction h with
  | nil => rfl
  | char _ _ ih => rw [List.count_cons, List.count_cons, ih]
  | @lineFeed margin flat _ _ _ ih =>
      rw [List.count_cons_self, List.count_cons_self, List.count_append,
        List.count_eq_zero.mpr flat, Nat.zero_add, ih]

lemma lineFeed_mem_iff (h : Spread text written) : '\n' ∈ written ↔ '\n' ∈ text := by
  rw [← List.count_pos_iff, h.count, List.count_pos_iff]

end Spread

/-! ## Indentation -/

lemma lines_cons (c : Char) (text : List Char) :
    lines (c :: text) =
      if c = '\n' then [] :: lines text else (lines text).modifyHead (c :: ·) := by
  simp [lines, List.splitOn_cons_eq_if_modifyHead]

lemma unlines_append_cons (front line : List Char) (rest : List (List Char)) :
    unlines ((front ++ line) :: rest) = front ++ unlines (line :: rest) := by
  cases rest with
  | nil => simp [unlines]
  | cons next rest => simp [unlines, List.intercalate_cons_cons]

lemma exists_indentLine (padding line : List Char) :
    ∃ margin, (margin = [] ∨ margin = padding) ∧ indentLine padding line = margin ++ line := by
  cases line with
  | nil => exact ⟨[], .inl rfl, rfl⟩
  | cons c line => exact ⟨padding, .inr rfl, rfl⟩

/-- A text whose lines are indented, all but the first. -/
lemma spread_unlines {padding : List Char} (flat : '\n' ∉ padding) {text first : List Char}
    {others : List (List Char)} (h : lines text = first :: others) :
    Spread text (unlines (first :: others.map (indentLine padding))) := by
  induction text generalizing first others with
  | nil =>
      obtain ⟨rfl, rfl⟩ : [] = first ∧ [] = others := by simpa [lines] using h
      exact .nil
  | cons c text ih =>
      obtain ⟨next, rest, hrest⟩ := List.exists_cons_of_ne_nil (lines_ne_nil text)
      rw [lines_cons, hrest] at h
      split_ifs at h with hc
      · obtain ⟨rfl, rfl⟩ := List.cons.inj h
        obtain ⟨margin, hmargin, hnext⟩ := exists_indentLine padding next
        have noBreak : '\n' ∉ margin := by
          rcases hmargin with rfl | rfl
          · exact List.not_mem_nil
          · exact flat
        rw [hc, List.map_cons, hnext]
        have split : unlines ([] :: (margin ++ next) :: rest.map (indentLine padding)) =
            '\n' :: (margin ++ unlines (next :: rest.map (indentLine padding))) := by
          rw [← unlines_append_cons]
          simp [unlines, List.intercalate_cons_cons]
        exact split ▸ .lineFeed noBreak (ih hrest)
      · obtain ⟨rfl, rfl⟩ := List.cons.inj h
        exact unlines_append_cons [c] next _ ▸ .char hc (ih hrest)

/-- **What indentation does to a text** that does not start with a line feed: the padding is put in
front, and otherwise the text is spread out. -/
theorem exists_spread_indent {padding : List Char} (flat : '\n' ∉ padding) {c : Char}
    (other : c ≠ '\n') (rest : List Char) :
    ∃ written, indent padding (c :: rest) = padding ++ written ∧ Spread (c :: rest) written := by
  obtain ⟨first, others, hlines⟩ := List.exists_cons_of_ne_nil (lines_ne_nil rest)
  have split : lines (c :: rest) = (c :: first) :: others := by
    rw [lines_cons, if_neg other, hlines, List.modifyHead_cons]
  refine ⟨_, ?_, spread_unlines flat split⟩
  rw [indent, split, List.map_cons, ← unlines_append_cons]
  rfl

/-! ## Whole lines -/

/-- A text stands in another one as whole lines, with a line above. -/
def HasLines (content text : List Char) : Prop :=
  ∃ above below, content = above ++ '\n' :: text ++ '\n' :: below

namespace HasLines

variable {content text : List Char}

/-- Whole lines are indented as a text of their own. -/
lemma indent (h : HasLines content text) (padding : List Char) :
    HasLines (Text.indent padding content) (Text.indent padding text) := by
  obtain ⟨above, below, rfl⟩ := h
  refine ⟨Text.indent padding above, Text.indent padding below, ?_⟩
  rw [indent_append, indent_append]

lemma mono {whole : List Char} (h : HasLines content text) (part : content <:+: whole) :
    HasLines whole text := by
  obtain ⟨above, below, rfl⟩ := h
  obtain ⟨front, back, rfl⟩ := part
  exact ⟨front ++ above, below ++ back, by simp⟩

end HasLines

end AvroTypes.Text
