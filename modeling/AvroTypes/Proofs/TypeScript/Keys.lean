import AvroTypes.TypeScript.Identifier
import Mathlib.Tactic.Lemma
import Mathlib.Tactic.SplitIfs

/-!
# Literals and keys read back

A backslash and a quote cannot end a literal early, since both are escaped, so a literal is read
back as the text that it was made from, whatever follows it.  Escaping does nothing else: any other
character, a line feed too, is in a literal exactly if it is in the text.  A key is a literal or an
identifier, and which of them it is shows in its first character.

* `escape_eq_substitute` — escaping in two steps, which cannot be exchanged.
* `unquote_escape`, `mem_quote_iff` — **a literal is read back**, and what it is made of.
* `readKey`, `readKey_propertyKeyChars_append` — **a key is read back.**
* `mem_propertyKeyChars_iff`, `exists_propertyKeyChars` — what a key is made of.
* `quoting_reversible` — what can be undone, in one statement.
-/

namespace AvroTypes

namespace Text

lemma escape_cons (c : Char) (text : List Char) :
    escape (c :: text) = escapeChar c ++ escape text := rfl

/-- The text in which another one stands in each place of a character. -/
def substitute (c : Char) (other text : List Char) : List Char :=
  text.flatMap fun d => if d = c then other else [d]

/-- Escaping can be done in two steps, but only in this order: the backslashes that escape a quote
must not be there yet when backslashes are escaped. -/
lemma escape_eq_substitute (text : List Char) :
    escape text = substitute '\'' ['\\', '\''] (substitute '\\' ['\\', '\\'] text) := by
  rw [escape, substitute, substitute, List.flatMap_assoc]
  refine congrArg (text.flatMap ·) (funext fun c => ?_)
  by_cases backslash : c = '\\'
  · simp [escapeChar, backslash]
  · by_cases quote : c = '\''
    · simp [escapeChar, quote]
    · simp [escapeChar, backslash, quote]

/-- **A literal is read back**, whatever follows it. -/
theorem unquote_escape (text rest : List Char) :
    unquote (escape text ++ '\'' :: rest) = some (text, rest) := by
  induction text with
  | nil => rfl
  | cons c text ih =>
      rw [escape_cons, escapeChar]
      split_ifs with special
      · simp [unquote, ih]
      · obtain ⟨noBackslash, noQuote⟩ := not_or.mp special
        simp [unquote, noBackslash, ih]

/-- Reading a literal with its opening quote. -/
def readLiteral : List Char → Option (List Char × List Char)
  | '\'' :: rest => unquote rest
  | _ => none

lemma readLiteral_quote (text rest : List Char) :
    readLiteral (quote text ++ rest) = some (text, rest) := by
  simp [readLiteral, quote, unquote_escape]

/-- A character that means nothing to a literal is in it exactly if it is in the text. -/
lemma mem_quote_iff {c : Char} (noBackslash : c ≠ '\\') (noQuote : c ≠ '\'') {text : List Char} :
    c ∈ quote text ↔ c ∈ text := by
  have each : ∀ d, c ∈ escapeChar d ↔ c = d := by
    intro d
    rw [escapeChar]
    split_ifs
    · simp [noBackslash]
    · simp
  simp [quote, escape, noQuote, each]

end Text

namespace TypeScript

open AvroTypes.Text

/-- **Reading a key**: as a literal if it starts with a quote, and otherwise as a run of identifier
characters. -/
def readKey : List Char → Option (List Char × List Char)
  | '\'' :: rest => unquote rest
  | text => some (text.takeWhile isIdentifierChar, text.dropWhile isIdentifierChar)

lemma isIdentifierChar_of_mem {name : List Char} (h : isIdentifierChars name = true) :
    ∀ c ∈ name, isIdentifierChar c = true := by
  cases name with
  | nil => simp
  | cons first rest =>
      simp only [isIdentifierChars, Bool.and_eq_true, List.all_eq_true] at h
      exact List.forall_mem_cons.mpr ⟨h.1.1, h.2⟩

/-- **A key is read back** if nothing follows it that goes on with an identifier. -/
theorem readKey_propertyKeyChars_append (name : List Char) {rest : List Char}
    (ends : ∀ c ∈ rest.head?, isIdentifierChar c = false) :
    readKey (propertyKeyChars name ++ rest) = some (name, rest) := by
  rw [propertyKeyChars]
  split_ifs with identifier
  · have each := isIdentifierChar_of_mem identifier
    have read : readKey (name ++ rest) = some ((name ++ rest).takeWhile isIdentifierChar,
        (name ++ rest).dropWhile isIdentifierChar) := by
      refine readKey.eq_2 _ fun tail htail => ?_
      cases name with
      | nil => simp [isIdentifierChars] at identifier
      | cons first name =>
          obtain ⟨rfl, -⟩ := List.cons.inj htail
          exact absurd (each _ List.mem_cons_self) (by decide)
    have stops : rest.takeWhile isIdentifierChar = [] ∧
        rest.dropWhile isIdentifierChar = rest := by
      cases rest with
      | nil => exact ⟨rfl, rfl⟩
      | cons c rest => simp [ends c rfl]
    rw [read, List.takeWhile_append_of_pos each, List.dropWhile_append_of_pos each, stops.1,
      stops.2, List.append_nil]
  · exact readLiteral_quote name rest

/-- **A key is read back** in front of a character that no identifier has. -/
theorem readKey_propertyKeyChars (name : List Char) {c : Char} (ends : isIdentifierChar c = false)
    (rest : List Char) :
    readKey (propertyKeyChars name ++ c :: rest) = some (name, c :: rest) :=
  readKey_propertyKeyChars_append name (by simpa using ends)

lemma readKey_propertyKey (name : String) :
    readKey (propertyKey name).toList = some (name.toList, []) := by
  rw [propertyKey, String.toList_ofList]
  simpa using @readKey_propertyKeyChars_append name.toList [] (by simp)

/-- Different names have different keys, since a key is read back as its name. -/
lemma propertyKey_injective : Function.Injective propertyKey := by
  intro name name' same
  have read := readKey_propertyKey name
  rw [same, readKey_propertyKey name', Option.some.injEq, Prod.mk.injEq] at read
  exact (String.toList_inj.mp read.1).symm

/-- **Quoting can be undone.**  Escaping puts a backslash first in front of every backslash and then
in front of every quote.  A literal is closed by its own closing quote and by none before it,
whatever follows, and is read as the text it was made from.  So a key, which is a literal or an
identifier, is read as its name, and different names have different keys. -/
theorem quoting_reversible :
    (∀ text, escape text =
      substitute '\'' ['\\', '\''] (substitute '\\' ['\\', '\\'] text)) ∧
    (∀ text rest, unquote (escape text ++ '\'' :: rest) = some (text, rest)) ∧
    (∀ name : String, readKey (propertyKey name).toList = some (name.toList, [])) ∧
    Function.Injective propertyKey :=
  ⟨escape_eq_substitute, unquote_escape, readKey_propertyKey, propertyKey_injective⟩

lemma mem_propertyKeyChars_iff {c : Char} (noBackslash : c ≠ '\\') (noQuote : c ≠ '\'')
    {name : List Char} : c ∈ propertyKeyChars name ↔ c ∈ name := by
  rw [propertyKeyChars]
  split_ifs
  · rfl
  · exact mem_quote_iff noBackslash noQuote

/-- A key starts with a quote or with the first character of an identifier. -/
lemma exists_propertyKeyChars (name : List Char) :
    ∃ first rest, propertyKeyChars name = first :: rest ∧
      (first = '\'' ∨ isIdentifierChar first = true) := by
  rw [propertyKeyChars]
  split_ifs with identifier
  · cases name with
    | nil => simp [isIdentifierChars] at identifier
    | cons first rest =>
        exact ⟨first, rest, rfl, .inr (isIdentifierChar_of_mem identifier _ List.mem_cons_self)⟩
  · exact ⟨'\'', _, rfl, .inl rfl⟩

end TypeScript

end AvroTypes
