import AvroTypes.Json.Printer
import Mathlib.Tactic.Lemma
import Mathlib.Tactic.SplitIfs

/-!
# Printed values stand on one line

A line feed of a string is escaped, and nothing else that is printed could have one in it: a number
is made of digits and a few marks, whatever its bits are.

* `isNumeral_print` — what numbers are made of.
* `lineFeed_not_mem_print` — **a printed value has no line feed**, by induction over the value.
-/

namespace AvroTypes

/-! ## Decimals -/

namespace Decimal

/-- A character that numbers are written with. -/
def isNumeralChar (c : Char) : Bool := c.isDigit || ['-', '+', '.', 'e'].contains c

/-- All characters of a text are such. -/
def IsNumeral (text : List Char) : Prop := ∀ c ∈ text, isNumeralChar c = true

section

variable {first second digits : List Char} {c : Char}

lemma isNumeral_append : IsNumeral (first ++ second) ↔ IsNumeral first ∧ IsNumeral second :=
  List.forall_mem_append

lemma isNumeral_cons : IsNumeral (c :: second) ↔ isNumeralChar c = true ∧ IsNumeral second :=
  List.forall_mem_cons

lemma isNumeral_nil : IsNumeral [] := by simp [IsNumeral]

lemma isNumeral_toDigits (n : Nat) : IsNumeral (Nat.toDigits 10 n) := fun c hc => by
  rw [isNumeralChar, Nat.isDigit_of_mem_toDigits (by decide) (by decide) hc, Bool.true_or]

lemma isNumeral_zeros (n : Nat) : IsNumeral (List.replicate n '0') := fun c hc => by
  rw [List.eq_of_mem_replicate hc]
  decide

lemma IsNumeral.withPoint (h : IsNumeral digits) (places : Nat) :
    IsNumeral (withPoint digits places) := by
  have whole : IsNumeral (digits.take places) := fun c hc => h c (List.mem_of_mem_take hc)
  have fraction : IsNumeral (digits.drop places) := fun c hc => h c (List.mem_of_mem_drop hc)
  have point : isNumeralChar '.' = true := by decide
  refine isNumeral_append.mpr ⟨isNumeral_append.mpr ⟨whole, isNumeral_zeros _⟩,
    isNumeral_cons.mpr ⟨point, ?_⟩⟩
  split_ifs
  · exact isNumeral_cons.mpr ⟨by decide, isNumeral_nil⟩
  · exact fraction

lemma IsNumeral.withFirstApart (h : IsNumeral digits) : IsNumeral (withFirstApart digits) := by
  unfold Decimal.withFirstApart
  split
  · obtain ⟨hfirst, hrest⟩ := isNumeral_cons.mp h
    exact isNumeral_cons.mpr ⟨hfirst, isNumeral_cons.mpr ⟨by decide, hrest⟩⟩
  · exact h

/-- **However a format lays a decimal out**, it is made of the same characters. -/
lemma isNumeral_write (format : Style) (numeral : Numeral) : IsNumeral (numeral.write format) := by
  have digits : IsNumeral (significantDigits numeral.digits) := fun c hc => by
    have inside := (List.dropWhile_sublist _).subset (List.mem_reverse.mp hc)
    exact isNumeral_toDigits _ c (List.mem_reverse.mp inside)
  rw [Numeral.write]
  split_ifs
  · split
    · exact digits.withPoint _
    · exact isNumeral_append.mpr ⟨isNumeral_cons.mpr ⟨by decide, isNumeral_cons.mpr
        ⟨by decide, isNumeral_zeros _⟩⟩, digits⟩
  all_goals exact isNumeral_append.mpr ⟨digits.withFirstApart, isNumeral_cons.mpr
    ⟨by decide, isNumeral_cons.mpr ⟨by decide, isNumeral_toDigits _⟩⟩⟩

end

end Decimal

/-! ## Values -/

namespace Json

open Decimal in
/-- **Numbers are made of digits and a few marks.** -/
lemma isNumeral_print (number : Number) : IsNumeral number.print := by
  cases number with
  | integer n =>
      cases n with
      | ofNat n => exact isNumeral_toDigits n
      | negSucc n => exact isNumeral_cons.mpr ⟨by decide, isNumeral_toDigits _⟩
  | double bits =>
      have zero : IsNumeral ['0', '.', '0'] := List.all_eq_true.mp (by decide)
      have minus : isNumeralChar '-' = true := by decide
      rw [Number.print, printDouble]
      split_ifs
      · exact isNumeral_cons.mpr ⟨minus, zero⟩
      · exact zero
      · exact isNumeral_cons.mpr ⟨minus, isNumeral_write _ _⟩
      · exact isNumeral_write _ _

lemma lineFeed_not_mem_printNumber (number : Number) : '\n' ∉ number.print := fun hmem =>
  absurd (isNumeral_print number _ hmem) (by decide)

lemma lineFeed_not_mem_printChar (c : Char) : '\n' ∉ printChar c := by
  have digit : ∀ n < 16, '\n' ≠ Nat.digitChar n := by decide
  unfold printChar
  split_ifs with quoted backspace formFeed lineFeed carriageReturn tab control
  · rcases quoted with rfl | rfl <;> decide
  · decide
  · decide
  · decide
  · decide
  · decide
  · simp [digit (c.toNat / 16) (by omega), digit (c.toNat % 16) (by omega)]
  · simpa using Ne.symm lineFeed

lemma lineFeed_not_mem_printString (s : String) : '\n' ∉ printString s := by
  have inside : '\n' ∉ s.toList.flatMap printChar := by
    simp [List.mem_flatMap, lineFeed_not_mem_printChar]
  simp [printString, inside]

mutual

/-- **A printed value stands on one line.** -/
theorem lineFeed_not_mem_print : ∀ value : Value, '\n' ∉ value.print
  | .null => by decide
  | .bool b => by cases b <;> decide
  | .number n => lineFeed_not_mem_printNumber n
  | .string s => lineFeed_not_mem_printString s
  | .array elements => by simp [Value.print, lineFeed_not_mem_printElements elements]
  | .object members => by simp [Value.print, lineFeed_not_mem_printMembers members]

/-- The same for the elements of an array. -/
theorem lineFeed_not_mem_printElements :
    ∀ elements : List Value, '\n' ∉ printElements elements
  | [] => List.not_mem_nil
  | [element] => lineFeed_not_mem_print element
  | element :: next :: rest => by
      simp [printElements, lineFeed_not_mem_print element,
        lineFeed_not_mem_printElements (next :: rest)]

/-- The same for the members of an object. -/
theorem lineFeed_not_mem_printMembers :
    ∀ members : List (String × Value), '\n' ∉ printMembers members
  | [] => List.not_mem_nil
  | [(key, value)] => by
      simp [printMembers, lineFeed_not_mem_printString key, lineFeed_not_mem_print value]
  | (key, value) :: next :: rest => by
      simp [printMembers, lineFeed_not_mem_printString key, lineFeed_not_mem_print value,
        lineFeed_not_mem_printMembers (next :: rest)]

end

end Json

end AvroTypes
