import AvroTypes.Proofs.Json.OneLine
import AvroTypes.Proofs.TypeScript.CommentEnd
import AvroTypes.Proofs.TypeScript.Paths
import Mathlib.Tactic.Lemma
import Mathlib.Tactic.SplitIfs

/-!
# What code exports

Which declarations a file exports is found by reading all of it: comments are left out, literals are
closed, and wherever `export` is followed by two words, the second is a name that is declared and
exported.  (Lists of names behind `export` declare nothing and do not count.)  A reader that goes
from character to character does this.  What is read in a text depends on what stands in front of it
only through the mode that the reader is in, so the exports of a text can be put together from those
of its pieces if each piece leaves the reader where it found it.

* `Token`, `Mode`, `Mode.read` — the reader.
* `Export`, `exportsOf`, `exportsIn` — the exports of code.
* `Exporting`, `Quiet` — pieces of code, and what they export wherever they stand.
* `IsPlain`, `IsPlain.quiet` — **a plain text exports nothing.**
* `exporting_header`, `exporting_quote`, `exporting_comment` — the other pieces.
-/

namespace AvroTypes.TypeScript

open AvroTypes.Text
open AvroTypes.Schema (isWordChar)

/-! ## Reading code -/

/-- What the reader finds. -/
inductive Token where
  /-- A run of the characters of identifiers and dotted names. -/
  | word (chars : List Char)
  /-- A literal between quotes, whatever it holds. -/
  | literal
  /-- Any other character that is not blank. -/
  | mark (c : Char)
  deriving DecidableEq, Repr

/-- Where the reader is. -/
inductive Mode where
  /-- Between tokens. -/
  | code
  /-- In a word that starts with the given characters. -/
  | word (chars : List Char)
  /-- Behind a slash that may start a comment. -/
  | slash
  /-- In a comment up to an asterisk and a slash, the asterisk being there or not. -/
  | comment (starred : Bool)
  /-- In a comment up to the end of the line. -/
  | lineComment
  /-- In a literal, behind a backslash or not. -/
  | literal (quote : Char) (escaped : Bool)
  deriving DecidableEq, Repr

/-- A character of an identifier or a dotted name. -/
def isWordPart (c : Char) : Bool := isIdentifierChar c || c = '.'

/-- A character that parts words: the blanks of documentation texts, and two that have no width. -/
def isSpacing (c : Char) : Bool := isBlank c || c = '\u200b' || c = '\ufeff'

/-- The characters that open a literal. -/
def quoteMarks : List Char := ['\'', '"', '\x60']

/-- The line breaks that a literal cannot hold unless it is one between backquotes. -/
def endsLiteral (c : Char) : Bool := c = '\n' || c = '\r'

namespace Mode

/-- What a character starts between tokens. -/
def start (c : Char) : List Token × Mode :=
  if isSpacing c then ([], .code)
  else if isWordPart c then ([], .word [c])
  else if c = '/' then ([], .slash)
  else if c ∈ quoteMarks then ([], .literal c false)
  else ([.mark c], .code)

/-- **One step of the reader**: what has been found, and where the reader is then. -/
def next : Mode → Char → List Token × Mode
  | .code, c => start c
  | .word chars, c =>
    if isWordPart c then ([], .word (chars ++ [c]))
    else (.word chars :: (start c).1, (start c).2)
  | .slash, c =>
    if c = '*' then ([], .comment false)
    else if c = '/' then ([], .lineComment)
    else (.mark '/' :: (start c).1, (start c).2)
  | .comment starred, c =>
    if starred && c = '/' then ([], .code) else ([], .comment (c = '*'))
  | .lineComment, c =>
    if c ∈ ['\n', '\r', '\u2028', '\u2029'] then ([], .code) else ([], .lineComment)
  | .literal quote true, _ => ([], .literal quote false)
  | .literal quote false, c =>
    if c = quote then ([.literal], .code)
    else if c = '\\' then ([], .literal quote true)
    else if endsLiteral c && quote ≠ '\x60' then ([.literal], .code)
    else ([], .literal quote false)

/-- What is found when the text is over. -/
def finish : Mode → List Token
  | .word chars => [.word chars]
  | .slash => [.mark '/']
  | .literal _ _ => [.literal]
  | _ => []

/-- **Reading a text.** -/
def read : Mode → List Char → List Token
  | mode, [] => mode.finish
  | mode, c :: rest => (mode.next c).1 ++ (mode.next c).2.read rest

end Mode

/-- A name that is exported, with the word in front of it. -/
structure Export where
  /-- The word that says what is exported. -/
  keyword : List Char
  /-- The name. -/
  name : List Char
  deriving DecidableEq, Repr

/-- **What tokens export**: a name, wherever it stands behind `export` and one other word. -/
def exportsOf : List Token → List Export
  | [] => []
  | first :: rest =>
    match first, rest with
    | .word chars, .word keyword :: .word name :: _ =>
      if chars = "export".toList then ⟨keyword, name⟩ :: exportsOf rest else exportsOf rest
    | _, _ => exportsOf rest

/-- **What a text of code exports.** -/
def exportsIn (text : List Char) : List Export := exportsOf (Mode.code.read text)

/-! ## One character -/

section

variable {c : Char} {chars rest : List Char}

/-- Words have no blanks: there are only the ASCII characters to try. -/
lemma isSpacing_eq_false (h : isWordPart c = true) : isSpacing c = false := by
  have ascii : ∀ n < 128, isWordPart (Char.ofNat n) = true → isSpacing (Char.ofNat n) = false := by
    decide +kernel
  have small : c.toNat < 128 := by
    simp only [isWordPart, isIdentifierChar, Bool.or_eq_true, decide_eq_true_eq] at h
    rcases h with (word | rfl) | rfl
    · exact toNat_lt_of_isWordChar word
    · decide
    · decide
  simpa using ascii c.toNat small (by simpa using h)

lemma isWordPart_eq_false (h : isSpacing c = true) : isWordPart c = false :=
  Bool.eq_false_iff.mpr fun word => Bool.false_ne_true ((isSpacing_eq_false word).symm.trans h)

/-- A character that is a token by itself. -/
structure IsMark (c : Char) : Prop where
  noBlank : isSpacing c = false
  noWord : isWordPart c = false
  opensNothing : c ≠ '/' ∧ c ∉ quoteMarks

instance (c : Char) : Decidable (IsMark c) :=
  decidable_of_iff (isSpacing c = false ∧ isWordPart c = false ∧ c ≠ '/' ∧ c ∉ quoteMarks)
    ⟨fun h => ⟨h.1, h.2.1, h.2.2⟩, fun h => ⟨h.noBlank, h.noWord, h.opensNothing⟩⟩

lemma read_blank (h : isSpacing c = true) : Mode.code.read (c :: rest) = Mode.code.read rest := by
  simp [Mode.read, Mode.next, Mode.start, h]

lemma read_mark (h : IsMark c) :
    Mode.code.read (c :: rest) = .mark c :: Mode.code.read rest := by
  simp [Mode.read, Mode.next, Mode.start, h.noBlank, h.noWord, h.opensNothing]

lemma read_word_start (h : isWordPart c = true) :
    Mode.code.read (c :: rest) = (Mode.word [c]).read rest := by
  simp [Mode.read, Mode.next, Mode.start, isSpacing_eq_false h, h]

lemma read_word_part (h : isWordPart c = true) :
    (Mode.word chars).read (c :: rest) = (Mode.word (chars ++ [c])).read rest := by
  simp [Mode.read, Mode.next, h]

lemma read_word_end (h : isWordPart c = false) :
    (Mode.word chars).read (c :: rest) = .word chars :: Mode.code.read (c :: rest) := by
  simp [Mode.read, Mode.next, h]

lemma read_word {word : List Char} (each : ∀ d ∈ word, isWordPart d = true)
    (ends : isWordPart c = false) :
    (Mode.word chars).read (word ++ c :: rest) =
      .word (chars ++ word) :: Mode.code.read (c :: rest) := by
  induction word generalizing chars with
  | nil => simpa using read_word_end ends
  | cons d word ih =>
      obtain ⟨hd, each⟩ := List.forall_mem_cons.mp each
      rw [List.cons_append, read_word_part hd, ih each]
      simp

/-- A word is read as one if something else follows. -/
lemma read_code_word {word : List Char} (each : ∀ d ∈ word, isWordPart d = true)
    (nonempty : word ≠ []) (ends : isWordPart c = false) :
    Mode.code.read (word ++ c :: rest) = .word word :: Mode.code.read (c :: rest) := by
  obtain ⟨d, word, rfl⟩ := List.exists_cons_of_ne_nil nonempty
  obtain ⟨hd, each⟩ := List.forall_mem_cons.mp each
  rw [List.cons_append, read_word_start hd, read_word each ends, List.singleton_append]

end

/-! ## What pieces of code export -/

/-- A text with a mark behind at most some blanks. -/
inductive Stopped : List Char → Prop
  | mark {c : Char} (isMark : IsMark c) (rest : List Char) : Stopped (c :: rest)
  | blank {c : Char} {rest : List Char} (blank : isSpacing c = true) (stopped : Stopped rest) :
      Stopped (c :: rest)

/-- **Code that exports just this**, whatever follows it. -/
def Exporting (exports : List Export) (text : List Char) : Prop :=
  ∀ rest, exportsIn (text ++ rest) = exports ++ exportsIn rest

/-- **Code that exports nothing** as long as a mark follows it. -/
def Quiet (text : List Char) : Prop :=
  ∀ rest, Stopped rest → exportsIn (text ++ rest) = exportsIn rest

section

variable {c : Char} {first second text chars rest : List Char} {exports others : List Export}

@[simp] lemma exportsOf_mark (tokens : List Token) :
    exportsOf (.mark c :: tokens) = exportsOf tokens := rfl

@[simp] lemma exportsOf_literal (tokens : List Token) :
    exportsOf (.literal :: tokens) = exportsOf tokens := rfl

/-- Any other word exports nothing. -/
lemma exportsOf_word (other : chars ≠ "export".toList) (tokens : List Token) :
    exportsOf (.word chars :: tokens) = exportsOf tokens := by
  match tokens with
  | .word keyword :: .word name :: _ => exact if_neg other
  | [] | .mark _ :: _ | .literal :: _ | [.word _] => rfl
  | .word _ :: .mark _ :: _ | .word _ :: .literal :: _ => rfl

/-- Nor does the word itself in front of a mark. -/
lemma exportsOf_word_mark (chars : List Char) (c : Char) (tokens : List Token) :
    exportsOf (.word chars :: .mark c :: tokens) = exportsOf (.mark c :: tokens) := rfl

lemma Exporting.append (hfirst : Exporting exports first) (hsecond : Exporting others second) :
    Exporting (exports ++ others) (first ++ second) := fun rest => by
  rw [List.append_assoc, hfirst, hsecond, List.append_assoc]

lemma exporting_nil : Exporting [] [] := fun _ => rfl

/-- Code that exports nothing can stand in front of other code. -/
lemma Exporting.after (hfirst : Exporting [] first) (hsecond : Exporting exports second) :
    Exporting exports (first ++ second) := hfirst.append hsecond

lemma exporting_blank (h : isSpacing c = true) : Exporting [] [c] := fun rest => by
  rw [List.singleton_append, exportsIn, read_blank h]
  rfl

lemma exporting_blanks (h : ∀ c ∈ text, isSpacing c = true) : Exporting [] text := by
  induction text with
  | nil => exact exporting_nil
  | cons c text ih =>
      obtain ⟨hc, htext⟩ := List.forall_mem_cons.mp h
      exact (exporting_blank hc).after (ih htext)

lemma exporting_mark (h : IsMark c) : Exporting [] [c] := fun rest => by
  rw [List.singleton_append, exportsIn, read_mark h]
  rfl

lemma Stopped.append (h : Stopped first) (second : List Char) : Stopped (first ++ second) := by
  induction h with
  | mark isMark rest => exact .mark isMark (rest ++ second)
  | blank blank _ ih => exact .blank blank ih

/-- The first token of such a text is a mark. -/
lemma Stopped.exists_read (h : Stopped rest) :
    ∃ c tokens, Mode.code.read rest = .mark c :: tokens := by
  induction h with
  | mark isMark rest => exact ⟨_, _, read_mark isMark⟩
  | blank blank _ ih => rwa [read_blank blank]

lemma Stopped.exportsOf_word (h : Stopped rest) :
    exportsOf (.word chars :: Mode.code.read rest) = exportsIn rest := by
  obtain ⟨c, tokens, read⟩ := h.exists_read
  rw [exportsIn, read, exportsOf_word_mark]

lemma Exporting.quiet (h : Exporting [] text) : Quiet text := fun rest _ => h rest

/-- What follows is code of its own if it starts with a mark. -/
lemma Quiet.append (hfirst : Quiet first) (stopped : Stopped second)
    (hsecond : Exporting exports second) : Exporting exports (first ++ second) := fun rest => by
  rw [List.append_assoc, hfirst _ (stopped.append rest), hsecond]

lemma Exporting.append_quiet (hfirst : Exporting [] first) (hsecond : Quiet second) :
    Quiet (first ++ second) := fun rest stopped => by
  rw [List.append_assoc, hfirst, hsecond rest stopped]
  rfl

/-- Quiet texts with separators between them that have a mark. -/
lemma quiet_intercalate {separator : List Char} (stopped : Stopped separator)
    (between : Exporting [] separator) {parts : List (List Char)}
    (each : ∀ part ∈ parts, Quiet part) :
    Quiet (separator.intercalate parts) := by
  induction parts with
  | nil => exact exporting_nil.quiet
  | cons first rest ih =>
      obtain ⟨hfirst, hrest⟩ := List.forall_mem_cons.mp each
      cases rest with
      | nil => simpa using hfirst
      | cons next rest =>
          rw [List.intercalate_cons_cons]
          exact (hfirst.append stopped between).append_quiet (ih hrest)

/-! ## Plain texts -/

/-- **A plain text**: a line in which nothing opens a literal or a comment, and in which no blank
comes after `export`. -/
structure IsPlain (text : List Char) : Prop where
  oneLine : '\n' ∉ text
  opensNothing : ∀ c ∈ text, c ≠ '/' ∧ c ≠ '\\' ∧ c ∉ quoteMarks
  noExport : ∀ c, isSpacing c = true → ¬ "export".toList ++ [c] <:+: text

lemma IsPlain.of_suffix (h : IsPlain text) (suffix : second <:+ text) : IsPlain second where
  oneLine := fun hmem => h.oneLine (suffix.subset hmem)
  opensNothing := fun d hd => h.opensNothing d (suffix.subset hd)
  noExport := fun d blank found => h.noExport d blank (found.trans suffix.isInfix)

/-- A character of a plain text that is neither blank nor in a word is a mark. -/
lemma IsPlain.isMark (h : IsPlain (c :: text)) (noBlank : isSpacing c = false)
    (noWord : isWordPart c = false) : IsMark c where
  noBlank := noBlank
  noWord := noWord
  opensNothing := ⟨(h.opensNothing c List.mem_cons_self).1,
    (h.opensNothing c List.mem_cons_self).2.2⟩

/-- **A plain text exports nothing**, by induction on the text both for a reader between words and
for one in a word; in a word, what has been read of it counts as part of the text. -/
theorem IsPlain.quiet_and_word (text : List Char) :
    (IsPlain text → Quiet text) ∧
    ∀ chars, IsPlain (chars ++ text) → ∀ rest, Stopped rest →
      exportsOf ((Mode.word chars).read (text ++ rest)) = exportsIn rest := by
  induction text with
  | nil =>
      refine ⟨fun _ => exporting_nil.quiet, fun chars _ rest stopped => ?_⟩
      have ends : ∃ c more, rest = c :: more ∧ isWordPart c = false := by
        cases stopped with
        | mark isMark more => exact ⟨_, more, rfl, isMark.noWord⟩
        | blank blank _ => exact ⟨_, _, rfl, isWordPart_eq_false blank⟩
      obtain ⟨c, more, rfl, noWord⟩ := ends
      rw [List.nil_append, read_word_end noWord, stopped.exportsOf_word]
  | cons c text ih =>
      obtain ⟨between, within⟩ := ih
      have quiet : IsPlain (c :: text) → Quiet (c :: text) := by
        intro plain rest stopped
        have tail : IsPlain text := plain.of_suffix (List.suffix_cons c text)
        rw [List.cons_append]
        cases blank : isSpacing c with
        | true =>
            rw [exportsIn, read_blank blank]
            exact between tail rest stopped
        | false =>
            cases word : isWordPart c with
            | true =>
                rw [exportsIn, read_word_start word]
                exact within [c] plain rest stopped
            | false =>
                rw [exportsIn, read_mark (plain.isMark blank word), exportsOf_mark]
                exact between tail rest stopped
      refine ⟨quiet, fun chars plain rest stopped => ?_⟩
      cases word : isWordPart c with
      | true =>
          rw [List.cons_append, read_word_part word]
          exact within (chars ++ [c]) (by simpa using plain) rest stopped
      | false =>
          have behind : IsPlain (c :: text) := plain.of_suffix (List.suffix_append chars _)
          rw [List.cons_append, read_word_end word]
          have others := quiet behind rest stopped
          cases blank : isSpacing c with
          | true =>
              have noExport : chars ≠ "export".toList := by
                rintro rfl
                exact plain.noExport c blank ⟨[], text, by simp⟩
              rw [exportsOf_word noExport]
              exact others
          | false =>
              rw [read_mark (behind.isMark blank word), exportsOf_word_mark,
                ← read_mark (behind.isMark blank word)]
              exact others

lemma IsPlain.quiet (h : IsPlain text) : Quiet text := (IsPlain.quiet_and_word text).1 h

/-- A character that is plain wherever it stands. -/
def isPlainChar (c : Char) : Bool :=
  !isSpacing c && c ≠ '/' && c ≠ '\\' && !quoteMarks.contains c

/-- A text without blanks is plain if its characters are. -/
lemma isPlain_of_all (each : text.all isPlainChar = true) : IsPlain text := by
  have parts : ∀ d ∈ text, isSpacing d = false ∧ d ≠ '/' ∧ d ≠ '\\' ∧ d ∉ quoteMarks := by
    simpa [isPlainChar, and_assoc] using each
  refine ⟨fun hmem => absurd (parts _ hmem).1 (by decide), fun d hd => (parts d hd).2,
    fun d blank found => ?_⟩
  have hd : d ∈ text := found.subset (by simp)
  exact Bool.false_ne_true ((parts d hd).1.symm.trans blank)

lemma isPlainChar_of_isWordPart (h : isWordPart c = true) : isPlainChar c = true := by
  have others : ∀ d ∈ '/' :: '\\' :: quoteMarks, c ≠ d := by
    rintro d hd rfl
    have noWord : ('/' :: '\\' :: quoteMarks).all (!isWordPart ·) = true := by decide
    have none := List.all_eq_true.mp noWord c hd
    rw [h] at none
    exact Bool.false_ne_true none
  simpa [isPlainChar, isSpacing_eq_false h, quoteMarks, and_assoc] using others

/-- **A word is plain.** -/
lemma isPlain_of_isWordPart (each : ∀ c ∈ text, isWordPart c = true) : IsPlain text :=
  isPlain_of_all (List.all_eq_true.mpr fun c hc => isPlainChar_of_isWordPart (each c hc))

end

/-! ## Headers, literals and comments -/

section

variable {keyword name text rest : List Char} {c : Char}

/-- The words that a name is declared by. -/
def declaringWords : List (List Char) :=
  ["type".toList, "enum".toList, "const".toList, "namespace".toList]

/-- A name that the reader takes for one when it is declared. -/
structure Declarable (name : List Char) : Prop where
  word : ∀ c ∈ name, isWordPart c = true
  nonempty : name ≠ []
  other : name ≠ "export".toList

/-- **What is declared behind `export`** is exported. -/
lemma exporting_header (declares : keyword ∈ declaringWords) (declarable : Declarable name)
    (blank : isSpacing c = true) :
    Exporting [⟨keyword, name⟩] ("export ".toList ++ keyword ++ ' ' :: name ++ [c]) := by
  intro rest
  have words : keyword.all isWordPart = true ∧ keyword ≠ [] ∧ keyword ≠ "export".toList := by
    have all : ∀ word ∈ declaringWords,
        word.all isWordPart = true ∧ word ≠ [] ∧ word ≠ "export".toList := by decide
    exact all keyword declares
  have space : isWordPart ' ' = false := by decide
  have text : "export ".toList ++ keyword ++ ' ' :: name ++ [c] ++ rest =
      "export".toList ++ ' ' :: (keyword ++ ' ' :: (name ++ c :: rest)) := by simp
  have tokens : Mode.code.read ("export ".toList ++ keyword ++ ' ' :: name ++ [c] ++ rest) =
      .word "export".toList :: .word keyword :: .word name :: Mode.code.read rest := by
    rw [text, read_code_word (List.all_eq_true.mp (by decide)) (by decide) space,
      read_blank (by decide), read_code_word (List.all_eq_true.mp words.1) words.2.1 space,
      read_blank (by decide),
      read_code_word declarable.word declarable.nonempty (isWordPart_eq_false blank),
      read_blank blank]
  rw [exportsIn, tokens, exportsOf, if_pos rfl, exportsOf_word words.2.2,
    exportsOf_word declarable.other]
  rfl

/-- **A literal exports nothing** if the reader gets through it piece by piece. -/
lemma exporting_literal {mark : Char} (isQuote : mark ∈ quoteMarks) {piece : Char → List Char}
    (each : ∀ c ∈ text, ∀ rest, (Mode.literal mark false).read (piece c ++ rest) =
      (Mode.literal mark false).read rest) :
    Exporting [] (mark :: text.flatMap piece ++ [mark]) := by
  have inside : ∀ rest, (Mode.literal mark false).read (text.flatMap piece ++ mark :: rest) =
      .literal :: Mode.code.read rest := by
    intro rest
    induction text with
    | nil => simp [Mode.read, Mode.next]
    | cons c text ih =>
        obtain ⟨hc, htext⟩ := List.forall_mem_cons.mp each
        rw [List.flatMap_cons, List.append_assoc, hc, ih htext]
  intro rest
  have opens : Mode.start mark = ([], .literal mark false) := by
    simp only [quoteMarks, List.mem_cons, List.not_mem_nil, or_false] at isQuote
    rcases isQuote with rfl | rfl | rfl <;> decide
  have tokens : Mode.code.read (mark :: text.flatMap piece ++ [mark] ++ rest) =
      .literal :: Mode.code.read rest := by
    rw [List.append_assoc, List.cons_append, Mode.read, Mode.next, opens]
    exact inside rest
  rw [exportsIn, tokens]
  rfl

/-- A character of a literal between single quotes, behind its backslash if it needs one. -/
lemma read_escapeChar (h : endsLiteral c = false) (rest : List Char) :
    (Mode.literal '\'' false).read (escapeChar c ++ rest) =
      (Mode.literal '\'' false).read rest := by
  rw [escapeChar]
  split_ifs with special
  · rcases special with rfl | rfl <;> rfl
  · obtain ⟨noBackslash, noQuote⟩ := not_or.mp special
    simp [Mode.read, Mode.next, noBackslash, noQuote, h]

/-- **A literal between single quotes exports nothing** if what it holds is on one line. -/
lemma exporting_quote (h : ∀ c ∈ text, endsLiteral c = false) : Exporting [] (quote text) :=
  exporting_literal (by decide) fun c hc => read_escapeChar (h c hc)

/-- A character of a JSON string, as it is printed. -/
lemma read_printChar (c : Char) (rest : List Char) :
    (Mode.literal '"' false).read (Json.printChar c ++ rest) =
      (Mode.literal '"' false).read rest := by
  have digit : ∀ n < 16, Nat.digitChar n ≠ '"' ∧ Nat.digitChar n ≠ '\\' ∧
      endsLiteral (Nat.digitChar n) = false := by decide
  unfold Json.printChar
  split_ifs with quoted backspace formFeed lineFeed carriageReturn tab control
  · rcases quoted with rfl | rfl <;> rfl
  · rfl
  · rfl
  · rfl
  · rfl
  · rfl
  · obtain ⟨noQuote, noBackslash, goesOn⟩ := digit (c.toNat / 16) (by omega)
    obtain ⟨noQuote', noBackslash', goesOn'⟩ := digit (c.toNat % 16) (by omega)
    simp [Mode.read, Mode.next, endsLiteral, *]
  · obtain ⟨noQuote, noBackslash⟩ := not_or.mp quoted
    simp [Mode.read, Mode.next, endsLiteral, *]

/-- **A JSON string exports nothing**, whatever it holds. -/
lemma exporting_printString (s : String) : Exporting [] (Json.printString s) :=
  exporting_literal (by decide) fun c _ => read_printChar c

/-- In a comment without an end in it, the reader gets to the end. -/
lemma read_comment {starred : Bool} (h : Endless (text ++ ['*']))
    (opened : starred = true → Endless ('*' :: text ++ ['*'])) (rest : List Char) :
    (Mode.comment starred).read (text ++ '*' :: '/' :: rest) = Mode.code.read rest := by
  induction text generalizing starred with
  | nil => cases starred <;> rfl
  | cons c text ih =>
      have goesOn : (starred && c = '/') = false := by
        cases starred with
        | false => rfl
        | true =>
            have parted := (List.isChain_cons_cons.mp (opened rfl)).1
            simpa [Parted] using parted
      have step : (Mode.comment starred).read (c :: text ++ '*' :: '/' :: rest) =
          (Mode.comment (c = '*')).read (text ++ '*' :: '/' :: rest) := by
        simp [Mode.read, Mode.next, goesOn]
      rw [step]
      refine ih h.of_cons fun star => ?_
      obtain rfl : c = '*' := by simpa using star
      exact h

end

end AvroTypes.TypeScript
