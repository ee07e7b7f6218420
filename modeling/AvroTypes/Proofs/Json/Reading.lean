import AvroTypes.Json.Reader
import AvroTypes.Proofs.Outcome
import Mathlib.Tactic.SplitIfs

/-!
# What the readers of JSON text have read

A reader answers with what it has read and with what is left.  Whenever it does, the text can be
taken apart by the rules of the grammar, and this says so without any fuel: a value, the elements of
an array or the members of an object are read from a text, up to the text that is left, with a
number of brackets that may still be opened.  Everything that is true of all values that are read is
an induction over these rules.

* `Part`, `Reads` — **the rules.**
* `reads_of_readValue` — every answer of a reader keeps to them.
* `reads_of_ofText` — **the value of a text is read from it by the rules.**
-/

namespace AvroTypes.Json

/-- What a reader reads: a value, or a list of elements or of members with the bracket that closes
it. -/
inductive Part where
  | value (value : Value)
  | elements (elements : List Value)
  | members (members : List (String × Value))

/-- The words, each as its first character and the others, with the value it stands for. -/
def wordValues : List (Char × List Char × Value) :=
  [('n', ['u', 'l', 'l'], .null), ('t', ['r', 'u', 'e'], .bool true),
    ('f', ['a', 'l', 's', 'e'], .bool false)]

/-- **How a part is read from a text**, up to what is left, with a number of brackets that may still
be opened. -/
inductive Reads : (depth : Nat) → (text : List Char) → Part → (left : List Char) → Prop
  | word {depth : Nat} {text rest left word : List Char} {first : Char} {value : Value}
      (opens : skipBlanks text = first :: rest) (known : (first, word, value) ∈ wordValues)
      (reads : readWord word rest = .ok left) : Reads depth text (.value value) left
  | string {depth : Nat} {text rest left said : List Char}
      (opens : skipBlanks text = '"' :: rest) (reads : readChars rest = .ok (said, left)) :
      Reads depth text (.value (.string (String.ofList said))) left
  | number {depth : Nat} {text rest left : List Char} {first : Char} {n : Number}
      (opens : skipBlanks text = first :: rest) (starts : first = '-' ∨ first.isDigit)
      (reads : readNumber (first :: rest) = .ok (n, left)) :
      Reads depth text (.value (.number n)) left
  | emptyArray {depth : Nat} {text rest left : List Char} (opens : skipBlanks text = '[' :: rest)
      (closes : skipBlanks rest = ']' :: left) :
      Reads (depth + 1) text (.value (.array [])) left
  | array {depth : Nat} {text rest left : List Char} {elements : List Value}
      (opens : skipBlanks text = '[' :: rest)
      (inside : Reads depth (skipBlanks rest) (.elements elements) left) :
      Reads (depth + 1) text (.value (.array elements)) left
  | emptyObject {depth : Nat} {text rest left : List Char}
      (opens : skipBlanks text = '\x7b' :: rest) (closes : skipBlanks rest = '\x7d' :: left) :
      Reads (depth + 1) text (.value (.object [])) left
  | object {depth : Nat} {text rest left : List Char} {spelled : List (String × Value)}
      (opens : skipBlanks text = '\x7b' :: rest)
      (inside : Reads depth (skipBlanks rest) (.members spelled) left) :
      Reads (depth + 1) text (.value (.object (ofMembers spelled))) left
  | lastElement {depth : Nat} {text rest left : List Char} {element : Value}
      (first : Reads depth text (.value element) rest) (closes : skipBlanks rest = ']' :: left) :
      Reads depth text (.elements [element]) left
  | element {depth : Nat} {text rest more left : List Char} {element : Value}
      {elements : List Value} (first : Reads depth text (.value element) rest)
      (comma : skipBlanks rest = ',' :: more)
      (others : Reads depth (skipBlanks more) (.elements elements) left) :
      Reads depth text (.elements (element :: elements)) left
  | lastMember {depth : Nat} {text rest more stop left key : List Char} {value : Value}
      (keyed : readChars text = .ok (key, rest)) (colon : skipBlanks rest = ':' :: more)
      (first : Reads depth more (.value value) stop) (closes : skipBlanks stop = '\x7d' :: left) :
      Reads depth ('"' :: text) (.members [(String.ofList key, value)]) left
  | member {depth : Nat} {text rest more stop next left key : List Char} {value : Value}
      {members : List (String × Value)} (keyed : readChars text = .ok (key, rest))
      (colon : skipBlanks rest = ':' :: more) (first : Reads depth more (.value value) stop)
      (comma : skipBlanks stop = ',' :: next)
      (others : Reads depth (skipBlanks next) (.members members) left) :
      Reads depth ('"' :: text) (.members ((String.ofList key, value) :: members)) left

/-- What the readers promise with some fuel. -/
structure ReadersRead (fuel : Nat) : Prop where
  value : ∀ {depth text value left}, readValue fuel depth text = .ok (value, left) →
    Reads depth text (.value value) left
  elements : ∀ {depth text elements left}, readElements fuel depth text = .ok (elements, left) →
    Reads depth text (.elements elements) left
  members : ∀ {depth text members left}, readMembers fuel depth text = .ok (members, left) →
    Reads depth text (.members members) left

lemma readersRead_zero : ReadersRead 0 where
  value h := by simp [readValue] at h
  elements h := by simp [readElements] at h
  members h := by simp [readMembers] at h

lemma reads_word {depth : Nat} {text rest word left : List Char} {first : Char}
    {value known : Value} (opens : skipBlanks text = first :: rest)
    (stands : (first, word, known) ∈ wordValues)
    (hread : (do return (known, ← readWord word rest)) = Except.ok (value, left)) :
    Reads depth text (.value value) left := by
  obtain ⟨_, reads, hread⟩ := bind_eq_ok_iff.mp hread
  obtain ⟨rfl, rfl⟩ := Prod.mk.inj (Except.ok.inj hread)
  exact .word opens stands reads

/-- A value is read as a word, a string or a number, or from what its brackets hold. -/
lemma ReadersRead.readValue {fuel : Nat} (h : ReadersRead fuel) {depth : Nat}
    {text left : List Char} {value : Value}
    (hread : readValue (fuel + 1) depth text = .ok (value, left)) :
    Reads depth text (.value value) left := by
  rw [Json.readValue] at hread
  split at hread
  · simp at hread
  · next opens => exact reads_word opens (by simp [wordValues]) hread
  · next opens => exact reads_word opens (by simp [wordValues]) hread
  · next opens => exact reads_word opens (by simp [wordValues]) hread
  · next opens =>
      simp only [bind_eq_ok_iff, pure, Except.pure, Except.ok.injEq, Prod.mk.injEq] at hread
      obtain ⟨_, reads, rfl, rfl⟩ := hread
      exact .string opens reads
  · next opens =>
      split at hread
      · simp at hread
      · split at hread
        · simp at hread
        · next closes =>
            obtain ⟨rfl, rfl⟩ := Prod.mk.inj (Except.ok.inj hread)
            exact .emptyArray opens closes
        · simp only [bind_eq_ok_iff, pure, Except.pure, Except.ok.injEq, Prod.mk.injEq] at hread
          obtain ⟨_, inside, rfl, rfl⟩ := hread
          exact .array opens (h.elements inside)
  · next opens =>
      split at hread
      · simp at hread
      · split at hread
        · simp at hread
        · next closes =>
            obtain ⟨rfl, rfl⟩ := Prod.mk.inj (Except.ok.inj hread)
            exact .emptyObject opens closes
        · simp only [bind_eq_ok_iff, pure, Except.pure, Except.ok.injEq, Prod.mk.injEq] at hread
          obtain ⟨_, inside, rfl, rfl⟩ := hread
          exact .object opens (h.members inside)
  · next opens =>
      split_ifs at hread with starts
      simp only [bind_eq_ok_iff, pure, Except.pure, Except.ok.injEq, Prod.mk.injEq] at hread
      obtain ⟨_, reads, rfl, rfl⟩ := hread
      exact .number opens starts reads

lemma ReadersRead.readElements {fuel : Nat} (h : ReadersRead fuel) {depth : Nat}
    {text left : List Char} {elements : List Value}
    (hread : readElements (fuel + 1) depth text = .ok (elements, left)) :
    Reads depth text (.elements elements) left := by
  rw [Json.readElements, bind_eq_ok_iff] at hread
  obtain ⟨⟨element, rest⟩, first, hread⟩ := hread
  dsimp only at hread
  split at hread
  · simp at hread
  · next closes =>
      obtain ⟨rfl, rfl⟩ := Prod.mk.inj (Except.ok.inj hread)
      exact .lastElement (h.value first) closes
  · next comma =>
      split at hread
      · simp at hread
      · simp only [bind_eq_ok_iff, pure, Except.pure, Except.ok.injEq, Prod.mk.injEq] at hread
        obtain ⟨_, others, rfl, rfl⟩ := hread
        exact .element (h.value first) comma (h.elements others)
  · simp at hread

lemma ReadersRead.readMembers {fuel : Nat} (h : ReadersRead fuel) {depth : Nat}
    {text left : List Char} {members : List (String × Value)}
    (hread : readMembers (fuel + 1) depth text = .ok (members, left)) :
    Reads depth text (.members members) left := by
  unfold Json.readMembers at hread
  split at hread
  · rw [bind_eq_ok_iff] at hread
    obtain ⟨⟨key, rest⟩, keyed, hread⟩ := hread
    dsimp only at hread
    split at hread
    · simp at hread
    · next colon =>
        rw [bind_eq_ok_iff] at hread
        obtain ⟨⟨value, stop⟩, first, hread⟩ := hread
        dsimp only at hread
        split at hread
        · simp at hread
        · next closes =>
            obtain ⟨rfl, rfl⟩ := Prod.mk.inj (Except.ok.inj hread)
            exact .lastMember keyed colon (h.value first) closes
        · next comma =>
            split at hread
            · simp at hread
            · simp at hread
            · simp only [bind_eq_ok_iff, pure, Except.pure, Except.ok.injEq,
                Prod.mk.injEq] at hread
              obtain ⟨_, others, rfl, rfl⟩ := hread
              exact .member keyed colon (h.value first) comma (h.members others)
        · simp at hread
    · simp at hread
  · simp at hread

/-- **What the readers promise does not depend on the fuel.** -/
theorem readersRead (fuel : Nat) : ReadersRead fuel := by
  induction fuel with
  | zero => exact readersRead_zero
  | succ fuel ih => exact ⟨ih.readValue, ih.readElements, ih.readMembers⟩

/-- **The value of a text is read from it**, and only blanks are left. -/
theorem reads_of_ofText {text : String} {value : Value} (h : Value.ofText text = .ok value) :
    ∃ left, Reads depthLimit text.toList (.value value) left ∧ skipBlanks left = [] := by
  rw [Value.ofText, mapError_eq_ok_iff, readText, bind_eq_ok_iff] at h
  obtain ⟨⟨read, left⟩, hread, h⟩ := h
  dsimp only at h
  split at h
  · next nothing => exact ⟨left, Except.ok.inj h ▸ (readersRead _).value hread, nothing⟩
  · simp at h

end AvroTypes.Json
