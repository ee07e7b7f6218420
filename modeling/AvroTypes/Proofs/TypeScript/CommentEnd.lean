import AvroTypes.Proofs.Text.Lines
import AvroTypes.TypeScript.Declaration
import Mathlib.Data.List.Chain

/-!
# Where a comment ends

A comment goes on to the first slash behind an asterisk.  The comment for a documentation text is
put together from pieces that are full of both: the text itself, in which they are parted, asterisks
at the start of its lines, and a start and an end.  At every seam between two pieces there is a
blank or a line feed, so no end comes about that is not in one of them, and only the last one has
one.  Indentation adds something behind line feeds only, and so makes no new seam of that kind
either.

* `Endless`, `endless_split_iff` — a text in which no comment ends, and its pieces.
* `Sealed`, `sealed_split_iff` — a text with one such place, at its very end.
* `endless_shield`, `endless_of_mem_docLines` — the lines of a documentation text.
* `Sealed.indent`, `Sealed.indents` — indentation keeps the end where it is, however often.
* `comment_closes_once` — **the comment for a documentation text ends at its own end.**
-/

namespace AvroTypes.TypeScript

open AvroTypes.Text

/-! ## Texts without an end -/

/-- Two characters in a row that do not end a comment. -/
def Parted (c d : Char) : Prop := ¬ (c = '*' ∧ d = '/')

/-- **A text in which no comment ends.** -/
def Endless (text : List Char) : Prop := text.IsChain Parted

section

variable {first second text : List Char} {c : Char}

/-- A character that is neither an asterisk nor a slash keeps what is around it apart. -/
lemma endless_split_iff (noStar : c ≠ '*') (noSlash : c ≠ '/') :
    Endless (first ++ c :: second) ↔ Endless first ∧ Endless second := by
  rw [Endless, List.isChain_append, List.isChain_cons]
  simp [Endless, Parted, noStar, noSlash]

/-- Without an asterisk there is nothing that could end a comment, nor begin to. -/
lemma endless_append_of_not_mem (noStar : '*' ∉ first) (h : Endless second) :
    Endless (first ++ second) := by
  induction first with
  | nil => exact h
  | cons c first ih =>
      rw [List.mem_cons, not_or] at noStar
      exact List.isChain_cons.mpr ⟨fun d _ ends => noStar.1 ends.1.symm, ih noStar.2⟩

lemma head?_shield (text : List Char) : (shield text).head? = text.head? := by
  fun_cases shield text <;> rfl

/-- **Shielding leaves no end in a text.** -/
theorem endless_shield (text : List Char) : Endless (shield text) := by
  fun_induction shield text with
  | case1 rest ih =>
      have behind : Endless ('/' :: shield rest) :=
        List.isChain_cons.mpr ⟨fun d _ ends => absurd ends.1 (by decide), ih⟩
      exact (endless_split_iff (by decide) (by decide)).mpr
        ⟨(List.isChain_singleton '*' : Endless ['*']), behind⟩
  | case2 c rest noEnd ih =>
      refine List.isChain_cons.mpr ⟨?_, ih⟩
      rintro d hd ⟨rfl, rfl⟩
      -- what is behind the asterisk has not been changed at its front
      rw [head?_shield] at hd
      obtain ⟨tail, rfl⟩ := List.head?_eq_some_iff.mp hd
      exact noEnd tail rfl rfl
  | case3 => exact .nil

end

/-! ## Texts with one end -/

/-- **A text that ends with the end of a comment and has no other one in it.** -/
def Sealed (text : List Char) : Prop := ∃ body, text = body ++ ['*', '/'] ∧ Endless (body ++ ['*'])

/-- The same said of the places where the end of a comment stands: there is one, and it is last. -/
def ClosesAtEnd (text : List Char) : Prop :=
  ∃ body, text = body ++ "*/".toList ∧
    ∀ before after, text = before ++ "*/".toList ++ after → before = body ∧ after = []

section

variable {first second text padding : List Char} {c : Char}

lemma Sealed.closesAtEnd (h : Sealed text) : ClosesAtEnd text := by
  obtain ⟨body, rfl, endless⟩ := h
  refine ⟨body, rfl, fun before after found => ?_⟩
  rcases List.eq_nil_or_concat after with rfl | ⟨inner, last, rfl⟩
  · rw [List.append_nil] at found
    exact ⟨(List.append_cancel_right found).symm, rfl⟩
  · -- the end would be in front of the last character, where there is none
    have early : body ++ ['*'] = before ++ '*' :: '/' :: inner := by
      have whole : (body ++ ['*']) ++ ['/'] = (before ++ '*' :: '/' :: inner) ++ [last] := by
        simpa using found
      exact (List.append_inj' whole rfl).1
    rw [early] at endless
    exact absurd ⟨rfl, rfl⟩ (List.isChain_append_cons_cons.mp endless).2.1

/-- A character that is neither an asterisk nor a slash keeps what is around it apart. -/
lemma sealed_split_iff (noStar : c ≠ '*') (noSlash : c ≠ '/') :
    Sealed (first ++ c :: second) ↔ Endless first ∧ Sealed second := by
  constructor
  · rintro ⟨body, htext, endless⟩
    rcases List.append_eq_append_iff.mp htext with ⟨front, rfl, hsecond⟩ | ⟨back, -, hback⟩
    · cases front with
      | nil => exact absurd (List.cons.inj hsecond).1 noStar
      | cons d front =>
          obtain ⟨rfl, rfl⟩ := List.cons.inj hsecond
          rw [List.append_assoc, List.cons_append, endless_split_iff noStar noSlash] at endless
          exact ⟨endless.1, front, rfl, endless.2⟩
    · have : c ∈ ['*', '/'] := by simp [hback]
      simp [noStar, noSlash] at this
  · rintro ⟨hfirst, body, rfl, endless⟩
    refine ⟨first ++ c :: body, by simp, ?_⟩
    rw [List.append_assoc, List.cons_append]
    exact (endless_split_iff noStar noSlash).mpr ⟨hfirst, endless⟩

/-! ## Indentation -/

/-- Indentation makes no end where there was none. -/
lemma Endless.indent (noStar : '*' ∉ padding) (h : Endless text) :
    Endless (indent padding text) := by
  have ofLine : ∀ line, '\n' ∉ line → Endless line → Endless (Text.indent padding line) := by
    intro line flat hline
    cases line with
    | nil => exact hline
    | cons d line =>
        rw [indent_of_oneLine (List.cons_ne_nil d line) flat]
        exact endless_append_of_not_mem noStar hline
  induction text using line_induction with
  | single line flat => exact ofLine line flat h
  | more line below flat ih =>
      obtain ⟨hline, hbelow⟩ := (endless_split_iff (by decide) (by decide)).mp h
      rw [indent_append]
      exact (endless_split_iff (by decide) (by decide)).mpr ⟨ofLine line flat hline, ih hbelow⟩

/-- **Indentation keeps the only end of a text at its end.** -/
theorem Sealed.indent (noStar : '*' ∉ padding) (h : Sealed text) :
    Sealed (indent padding text) := by
  induction text using line_induction with
  | single line flat =>
      obtain ⟨body, rfl, endless⟩ := h
      rw [indent_of_oneLine (by simp) flat]
      refine ⟨padding ++ body, (List.append_assoc _ _ _).symm, ?_⟩
      rw [List.append_assoc]
      exact endless_append_of_not_mem noStar endless
  | more line below flat ih =>
      obtain ⟨hline, hbelow⟩ := (sealed_split_iff (by decide) (by decide)).mp h
      rw [indent_append]
      exact (sealed_split_iff (by decide) (by decide)).mpr ⟨hline.indent noStar, ih hbelow⟩

/-- So does any number of levels of it, each with a padding of its own. -/
theorem Sealed.indents {paddings : List (List Char)}
    (noStar : ∀ padding ∈ paddings, '*' ∉ padding) (h : Sealed text) :
    Sealed (paddings.foldl (fun text padding => Text.indent padding text) text) := by
  induction paddings generalizing text with
  | nil => exact h
  | cons padding paddings ih =>
      obtain ⟨hpadding, noStar⟩ := List.forall_mem_cons.mp noStar
      exact ih noStar (h.indent hpadding)

end

/-! ## The comment -/

/-- The lines of a text in which no comment ends. -/
lemma endless_of_mem_lines {text : List Char} (h : Endless text) :
    ∀ line ∈ lines text, Endless line := by
  induction text using line_induction with
  | single line flat =>
      rw [lines, List.splitOn_eq_singleton flat]
      simpa using h
  | more line below flat ih =>
      obtain ⟨hline, hbelow⟩ := (endless_split_iff (by decide) (by decide)).mp h
      rw [lines, List.splitOn_append_cons_self, List.splitOn_eq_singleton flat]
      exact List.forall_mem_cons.mpr ⟨hline, ih hbelow⟩

lemma endless_trimEnd {text : List Char} (h : Endless text) : Endless (trimEnd text) := by
  refine List.IsChain.infix h (List.IsPrefix.isInfix ?_)
  rw [trimEnd, ← List.reverse_suffix, List.reverse_reverse]
  exact List.dropWhile_suffix _

/-- No comment ends in a line of a documentation text. -/
theorem endless_of_mem_docLines {doc : List Char} : ∀ line ∈ docLines doc, Endless line := by
  intro line hline
  rw [docLines] at hline
  split_ifs at hline
  · simp at hline
  · obtain ⟨whole, hwhole, rfl⟩ := List.mem_map.mp hline
    exact endless_trimEnd (endless_of_mem_lines (endless_shield _) whole hwhole)

lemma sealed_unlines {above : List (List Char)} {last : List Char}
    (each : ∀ line ∈ above, Endless line) (h : Sealed last) :
    Sealed (unlines (above ++ [last])) := by
  induction above with
  | nil => simpa [unlines] using h
  | cons line above ih =>
      obtain ⟨hline, rest⟩ := List.forall_mem_cons.mp each
      have split : unlines (line :: (above ++ [last])) =
          line ++ '\n' :: unlines (above ++ [last]) := by
        simp [unlines, List.intercalate_cons_of_ne_nil]
      rw [List.cons_append, split]
      exact (sealed_split_iff (by decide) (by decide)).mpr ⟨hline, ih rest⟩

/-- The text of the comment for a documentation text. -/
def commentText (doc : String) : List Char := unlines (commentLines doc.toList)

/-- The end of a comment, with nothing in front of it. -/
lemma sealed_end : Sealed ['*', '/'] := ⟨[], rfl, List.isChain_singleton '*'⟩

/-- The start of a comment. -/
lemma endless_start : Endless "/**".toList := by simp [Endless, Parted]

lemma endless_starred {line : List Char} (h : Endless line) : Endless (starred line) := by
  have star : Endless [' ', '*'] := by simp [Endless, Parted]
  rw [starred]
  split_ifs
  · exact star
  · exact (endless_split_iff (by decide) (by decide)).mpr ⟨star, h⟩

/-- No comment ends in the lines of a comment, but for the last one. -/
lemma exists_commentLines (doc : List Char) :
    ∃ above last, commentLines doc = above ++ [last] ∧ (∀ line ∈ above, Endless line) ∧
      Sealed last := by
  have each : ∀ line ∈ docLines doc, Endless line := endless_of_mem_docLines
  have blank : ∀ {front back : List Char}, Endless front → Sealed back →
      Sealed (front ++ ' ' :: back) := fun hfront hback =>
    (sealed_split_iff (by decide) (by decide)).mpr ⟨hfront, hback⟩
  rw [commentLines]
  split
  · exact ⟨[], _, rfl, by simp, blank endless_start sealed_end⟩
  · next line hlines =>
      have hline : Endless line := each line (by simp [hlines])
      have text : "/** ".toList ++ line ++ " */".toList =
          "/**".toList ++ ' ' :: (line ++ ' ' :: ['*', '/']) := by simp
      refine ⟨[], _, rfl, by simp, ?_⟩
      rw [text]
      exact blank endless_start (blank hline sealed_end)
  · refine ⟨_, _, rfl, List.forall_mem_cons.mpr ⟨endless_start, fun line hline => ?_⟩,
      blank .nil sealed_end⟩
    obtain ⟨inner, hinner, rfl⟩ := List.mem_map.mp hline
    exact endless_starred (each inner hinner)

/-- **The comment for a documentation text has one end.** -/
theorem sealed_commentText (doc : String) : Sealed (commentText doc) := by
  obtain ⟨above, last, hlines, each, hlast⟩ := exists_commentLines doc.toList
  rw [commentText, hlines]
  exact sealed_unlines each hlast

/-- The first line of a comment starts it. -/
lemma exists_start_commentLines (doc : List Char) :
    ∃ first below, commentLines doc = ("/**".toList ++ first) :: below := by
  rw [commentLines]
  split
  · exact ⟨" */".toList, [], rfl⟩
  · next line _ => exact ⟨" ".toList ++ line ++ " */".toList, [], rfl⟩
  · exact ⟨[], _, rfl⟩

/-- The comment starts as one. -/
lemma start_prefix_commentText (doc : String) : "/**".toList <+: commentText doc := by
  obtain ⟨first, below, hlines⟩ := exists_start_commentLines doc.toList
  rw [commentText, hlines, unlines]
  cases below with
  | nil => exact ⟨first, by simp⟩
  | cons next below =>
      rw [List.intercalate_cons_cons, List.append_assoc, List.append_assoc]
      exact List.prefix_append _ _

/-! ## The comment in a file -/

/-- The laid-out lines of the comment, some levels deep, are the comment after as many levels of
indentation, and a line feed. -/
theorem renderLines_layOutDoc (tabulator : List Char) (depth : Nat) (doc : String) :
    renderLines tabulator (Nat.repeat deeper depth (layOutDoc (some doc))) =
      Nat.repeat (indent tabulator) depth (commentText doc) ++ ['\n'] := by
  induction depth with
  | zero =>
      have texts : (layOutDoc (some doc)).map (Line.render tabulator) =
          commentLines doc.toList := by
        simp [layOutDoc, Function.comp_def]
      have nonempty : layOutDoc (some doc) ≠ [] := by
        rw [layOutDoc, commentLines]
        split <;> simp
      change renderLines tabulator (layOutDoc (some doc)) = commentText doc ++ ['\n']
      rw [renderLines_eq_unlines tabulator nonempty, texts, commentText]
  | succ depth ih =>
      rw [Nat.repeat, renderLines_deeper, ih, indent_append]
      rfl

/-- **The comment for a documentation text ends at its own end.**  Whatever the text is, the comment
starts as one, and the characters that end a comment stand in it once, as its last ones.  This is
still so after any number of levels of indentation, whatever the paddings are as long as no asterisk
is in them; and what stands in a file for the comment is nothing else, with a line feed after it. -/
theorem comment_closes_once (doc : String) (paddings : List (List Char))
    (noStar : ∀ padding ∈ paddings, '*' ∉ padding) :
    "/**".toList <+: commentText doc ∧
    ClosesAtEnd (commentText doc) ∧
    ClosesAtEnd (paddings.foldl (fun text padding => indent padding text) (commentText doc)) ∧
    ∀ tabulator depth, renderLines tabulator (Nat.repeat deeper depth (layOutDoc (some doc))) =
      Nat.repeat (indent tabulator) depth (commentText doc) ++ ['\n'] := by
  have closed := sealed_commentText doc
  exact ⟨start_prefix_commentText doc, closed.closesAtEnd, (closed.indents noStar).closesAtEnd,
    fun tabulator depth => renderLines_layOutDoc tabulator depth doc⟩

/-- A documentation text that tries to end its comment in each of its lines. -/
def closingDoc : String := "/ */ **/\n*/\n/ *"

/-- It does not, nor after two levels of indentation. -/
theorem comment_closes_once_closing :
    (∀ padding ∈ [['\t'], [' ', ' ']], '*' ∉ padding) ∧
    String.ofList (commentText closingDoc) =
      "/**\n * / *\\/ **\\/\n * *\\/\n * / *\n */" ∧
    ClosesAtEnd (indent [' ', ' '] (indent ['\t'] (commentText closingDoc))) := by
  have noStar : ∀ padding ∈ [['\t'], [' ', ' ']], '*' ∉ padding := by simp
  exact ⟨noStar, by decide +kernel,
    (comment_closes_once closingDoc [['\t'], [' ', ' ']] noStar).2.2.1⟩

end AvroTypes.TypeScript
