import AvroTypes.Json.Printer
import AvroTypes.Json.Reader
import Mathlib.Tactic.Lemma
import Mathlib.Tactic.SplitIfs

/-!
# The numbers of a JSON text

A text spells a number as a run of characters outside its strings.  Some of these runs are plain:
an integer without fraction and exponent that fits 64 bits, and not minus zero.  They are read as
the integer that they spell, and every such integer is printed as a plain run.

* `afterString`, `numerals` — the runs of a text.
* `IsDecimal`, `PlainNumeral` — **plain runs, and the integers they spell.**
* `readNumber_append` — **a plain run is read as its integer.**
* `plainNumeral_printInteger` — **an integer that fits is printed as a plain run.**
* `PlainNumerals` — **the texts all of whose numbers are plain**, and how they are read further.
-/

namespace AvroTypes.Json

/-! ## The runs of a text -/

/-- What follows a string, from after the quote that opens it. -/
def afterString : List Char → List Char
  | [] => []
  | '"' :: left => left
  | '\\' :: _ :: left => afterString left
  | _ :: left => afterString left

/-- A character that the spelling of a number can hold. -/
def isNumeralChar (c : Char) : Bool :=
  c.isDigit || c = '-' || c = '+' || c = '.' || c = 'e' || c = 'E'

lemma length_afterString_le (text : List Char) : (afterString text).length ≤ text.length := by
  fun_induction afterString text with
  | case1 => exact Nat.le_refl _
  | case2 => exact Nat.le_succ _
  | case3 _ left ih => exact Nat.le_trans ih (Nat.le_add_right _ 2)
  | case4 _ left _ _ ih => exact Nat.le_trans ih (Nat.le_succ _)

/-- **The numbers of a text**, as they are spelled: outside strings, each longest run from a minus
or a digit on. -/
def numerals : List Char → List (List Char)
  | [] => []
  | c :: rest =>
    if c = '"' then numerals (afterString rest)
    else if c = '-' ∨ c.isDigit then
      (c :: rest.takeWhile isNumeralChar) :: numerals (rest.dropWhile isNumeralChar)
    else numerals rest
termination_by text => text.length
decreasing_by
  · exact Nat.lt_succ_of_le (length_afterString_le rest)
  · exact Nat.lt_succ_of_le (List.dropWhile_suffix _).length_le
  · exact Nat.lt_succ_self _

example : numerals "[-42,\"-1\\\"5\",true,1.5e3]".toList = ["-42".toList, "1.5e3".toList] := by cbv

/-! ## Plain runs -/

/-- The number that decimal digits spell. -/
def digitsValue (digits : List Char) : Nat := Nat.ofDigitChars 10 digits 0

/-- Decimal digits without a leading zero. -/
structure IsDecimal (digits : List Char) : Prop where
  nonempty : digits ≠ []
  all : ∀ c ∈ digits, c.isDigit = true
  noLeadingZero : ∀ rest, digits = '0' :: rest → rest = []

/-- **A plain run and the integer that it spells**: a natural number below `2 ^ 64`, or a negative
one from `-2 ^ 63` on. -/
inductive PlainNumeral : List Char → Int → Prop
  | natural {digits : List Char} (decimal : IsDecimal digits)
      (fits : digitsValue digits < Nat.pow 2 64) : PlainNumeral digits (digitsValue digits)
  | negative {digits : List Char} (decimal : IsDecimal digits)
      (nonzero : 0 < digitsValue digits) (fits : digitsValue digits ≤ Nat.pow 2 63) :
      PlainNumeral ('-' :: digits) (-digitsValue digits)

/-- A run of characters ends here. -/
def Ends (left : List Char) : Prop := ∀ c ∈ left.head?, isNumeralChar c = false

lemma isDigit_of_isNumeralChar {c : Char} (h : isNumeralChar c = false) : c.isDigit = false := by
  simp only [isNumeralChar, Bool.or_eq_false_iff] at h
  exact h.1.1.1.1.1

lemma Ends.head?_isDigit {left : List Char} (h : Ends left) :
    left.head?.any Char.isDigit = false := by
  cases left with
  | nil => rfl
  | cons c rest => exact isDigit_of_isNumeralChar (h c rfl)

lemma Ends.noDigits {left : List Char} (h : Ends left) :
    left.takeWhile Char.isDigit = [] ∧ left.dropWhile Char.isDigit = left := by
  cases left with
  | nil => exact ⟨rfl, rfl⟩
  | cons c rest => simp [isDigit_of_isNumeralChar (h c rfl)]

lemma le_ofDigitChars (digits : List Char) (n : Nat) : n ≤ Nat.ofDigitChars 10 digits n := by
  induction digits generalizing n with
  | nil => exact Nat.le_refl n
  | cons c digits ih =>
      rw [Nat.ofDigitChars_cons]
      exact Nat.le_trans (by omega) (ih _)

/-- **Digits that fit are collected without loss**, since what is collected never shrinks. -/
lemma collectDigits_append {left : List Char} (h : Ends left) {digits : List Char}
    (all : ∀ c ∈ digits, c.isDigit = true) {soFar : Nat}
    (fits : Nat.ofDigitChars 10 digits soFar < Nat.pow 2 64) :
    collectDigits soFar (digits ++ left) =
      (Nat.ofDigitChars 10 digits soFar, digits.length, left) := by
  induction digits generalizing soFar with
  | nil =>
      cases left with
      | nil => rfl
      | cons c rest =>
          have stops := isDigit_of_isNumeralChar (h c rfl)
          simp [collectDigits, stops]
  | cons c digits ih =>
      obtain ⟨digit, others⟩ := List.forall_mem_cons.mp all
      rw [Nat.ofDigitChars_cons, ← digitValue] at fits ⊢
      have next : 10 * soFar + digitValue c < Nat.pow 2 64 :=
        Nat.lt_of_le_of_lt (le_ofDigitChars digits _) fits
      rw [List.cons_append, collectDigits, if_pos ⟨digit, next⟩, ih others fits]
      rfl

/-- Digits that nothing more belongs to are an integer. -/
lemma readFraction_of_ends {left : List Char} (h : Ends left) (negative : Bool) (digits : Nat) :
    readFraction negative digits 0 left = finishInteger negative digits left := by
  cases left with
  | nil => rfl
  | cons c rest =>
      have other := h c rfl
      unfold readFraction
      split <;> simp_all [isNumeralChar]

lemma readUnsigned_append {digits left : List Char} (decimal : IsDecimal digits)
    (fits : digitsValue digits < Nat.pow 2 64) (h : Ends left) (negative : Bool) :
    readUnsigned negative (digits ++ left) =
      finishInteger negative (digitsValue digits) left := by
  obtain ⟨first, rest, rfl⟩ := List.exists_cons_of_ne_nil decimal.nonempty
  by_cases zero : first = '0'
  · subst zero
    obtain rfl := decimal.noLeadingZero rest rfl
    rw [List.singleton_append, readUnsigned, h.head?_isDigit, if_neg Bool.false_ne_true,
      readFraction_of_ends h]
    rfl
  · have digit := decimal.all first List.mem_cons_self
    have collected := collectDigits_append h decimal.all fits
    rw [List.cons_append] at collected ⊢
    rw [readUnsigned, if_pos digit, collected]
    · simp only [h.noDigits, List.length_nil]
      exact readFraction_of_ends h negative _
    · exact zero

/-- **A plain run is read as its integer**, up to where it ends. -/
theorem readNumber_append {numeral left : List Char} {n : Int} (plain : PlainNumeral numeral n)
    (h : Ends left) : readNumber (numeral ++ left) = .ok (.integer n, left) := by
  cases plain with
  | natural decimal fits =>
      have unsigned : readNumber (numeral ++ left) = readUnsigned false (numeral ++ left) := by
        obtain ⟨first, rest, rfl⟩ := List.exists_cons_of_ne_nil decimal.nonempty
        have digit := decimal.all first List.mem_cons_self
        rw [List.cons_append, readNumber]
        intro _ minus
        rw [(List.cons.inj minus).1] at digit
        exact absurd digit (by decide)
      rw [unsigned, readUnsigned_append decimal fits h, finishInteger, if_neg Bool.false_ne_true]
  | negative decimal nonzero fits =>
      have wide := Nat.lt_of_le_of_lt fits (by decide : Nat.pow 2 63 < Nat.pow 2 64)
      rw [List.cons_append, readNumber, readUnsigned_append decimal wide h, finishInteger,
        if_pos rfl, if_pos ⟨nonzero, fits⟩]

/-! ## Printed integers -/

/-- An integer that a JSON text can spell. -/
def FitsInteger (n : Int) : Prop := -(Nat.pow 2 63 : Nat) ≤ n ∧ n < (Nat.pow 2 64 : Nat)

instance (n : Int) : Decidable (FitsInteger n) := inferInstanceAs (Decidable (_ ∧ _))

lemma PlainNumeral.fits {numeral : List Char} {n : Int} (h : PlainNumeral numeral n) :
    FitsInteger n := by
  cases h with
  | natural _ fits => exact ⟨by omega, by omega⟩
  | negative _ nonzero fits => exact ⟨by omega, by omega⟩

lemma head?_toDigits_ne_zero (n : Nat) (h : 0 < n) : (Nat.toDigits 10 n).head? ≠ some '0' := by
  induction n using Nat.strongRecOn with
  | ind n ih =>
      by_cases small : n < 10
      · rw [Nat.toDigits_of_lt_base small, List.head?_singleton]
        simpa using Nat.ne_of_gt h
      · rw [Nat.toDigits_of_base_le (by decide) (Nat.le_of_not_lt small),
          List.head?_append, Option.or_of_isSome (by simp)]
        exact ih (n / 10) (by omega) (by omega)

lemma isDecimal_toDigits (n : Nat) : IsDecimal (Nat.toDigits 10 n) where
  nonempty := Nat.toDigits_ne_nil
  all _ hc := Nat.isDigit_of_mem_toDigits (by decide) (by decide) hc
  noLeadingZero rest h := by
    rcases Nat.eq_zero_or_pos n with rfl | pos
    · rw [Nat.toDigits_zero] at h
      exact (List.cons.inj h).2.symm
    · exact absurd (by rw [h, List.head?_cons]) (head?_toDigits_ne_zero n pos)

lemma digitsValue_toDigits (n : Nat) : digitsValue (Nat.toDigits 10 n) = n :=
  Nat.ofDigitChars_ten_toDigits

/-- **An integer that fits is printed as a plain run.** -/
theorem plainNumeral_printInteger {n : Int} (h : FitsInteger n) :
    PlainNumeral (printInteger n) n := by
  obtain ⟨low, high⟩ := h
  cases n with
  | ofNat n =>
      have value := digitsValue_toDigits n
      have fits : n < Nat.pow 2 64 := Int.ofNat_lt.mp high
      have plain := PlainNumeral.natural (isDecimal_toDigits n) (by rwa [value])
      rwa [value] at plain
  | negSucc n =>
      have value := digitsValue_toDigits (n + 1)
      have plain := PlainNumeral.negative (isDecimal_toDigits (n + 1)) (by rw [value]; omega)
        (by rw [value]; omega)
      rwa [value] at plain

/-! ## Texts whose numbers are plain -/

/-- **All numbers of a text are plain.** -/
def PlainNumerals (text : List Char) : Prop :=
  ∀ numeral ∈ numerals text, ∃ n, PlainNumeral numeral n

/-- A character that starts neither a string nor a number. -/
def IsIdle (c : Char) : Prop := c ≠ '"' ∧ c ≠ '-' ∧ c.isDigit = false

instance (c : Char) : Decidable (IsIdle c) := inferInstanceAs (Decidable (_ ∧ _ ∧ _))

lemma isIdle_of_isJsonBlank {c : Char} (h : isJsonBlank c = true) : IsIdle c := by
  simp only [isJsonBlank, Bool.or_eq_true, decide_eq_true_eq] at h
  rcases h with ((rfl | rfl) | rfl) | rfl <;> decide

section

variable {text rest : List Char}

lemma numerals_of_isIdle {c : Char} (h : IsIdle c) : numerals (c :: rest) = numerals rest := by
  obtain ⟨noQuote, noMinus, noDigit⟩ := h
  rw [numerals, if_neg noQuote, if_neg (by simp [noMinus, noDigit])]

lemma numerals_quote (rest : List Char) : numerals ('"' :: rest) = numerals (afterString rest) := by
  rw [numerals, if_pos rfl]

lemma numerals_skipBlanks (text : List Char) : numerals (skipBlanks text) = numerals text := by
  induction text with
  | nil => rfl
  | cons c rest ih =>
      cases blank : isJsonBlank c with
      | true =>
          rw [numerals_of_isIdle (isIdle_of_isJsonBlank blank), ← ih, skipBlanks,
            List.dropWhile_cons_of_pos blank, skipBlanks]
      | false => rw [skipBlanks, List.dropWhile_cons_of_neg (by simp [blank])]

/-- What stands behind the blanks and a character that starts neither a string nor a number. -/
lemma PlainNumerals.after {c : Char} (h : PlainNumerals text)
    (opens : skipBlanks text = c :: rest) (idle : IsIdle c) : PlainNumerals rest := by
  rwa [PlainNumerals, ← numerals_skipBlanks, opens, numerals_of_isIdle idle] at h

lemma PlainNumerals.skipBlanks (h : PlainNumerals text) :
    PlainNumerals (Json.skipBlanks text) := by
  rwa [PlainNumerals, numerals_skipBlanks]

lemma PlainNumerals.readWord {word left : List Char} (idle : word.all (IsIdle ·))
    (h : PlainNumerals text) (reads : readWord word text = .ok left) : PlainNumerals left := by
  induction word generalizing text with
  | nil => exact Except.ok.inj reads ▸ h
  | cons w word ih =>
      rw [List.all_cons, Bool.and_eq_true, decide_eq_true_eq] at idle
      obtain ⟨first, others⟩ := idle
      cases text with
      | nil => simp [Json.readWord] at reads
      | cons c rest =>
          rw [Json.readWord] at reads
          split_ifs at reads with same
          refine ih others ?_ reads
          rwa [PlainNumerals, numerals_of_isIdle (same ▸ first)] at h

/-- A number is read as the integer that it spells, up to where it ends. -/
lemma PlainNumerals.readNumber {c : Char} {n : Number} {left : List Char}
    (starts : c = '-' ∨ c.isDigit) (h : PlainNumerals (c :: rest))
    (reads : readNumber (c :: rest) = .ok (n, left)) :
    (∃ m, FitsInteger m ∧ n = .integer m) ∧ PlainNumerals left := by
  have noQuote : c ≠ '"' := by
    rintro rfl
    exact absurd starts (by decide)
  rw [PlainNumerals, numerals, if_neg noQuote, if_pos starts] at h
  obtain ⟨⟨m, plain⟩, others⟩ := List.forall_mem_cons.mp h
  have ends : Ends (rest.dropWhile isNumeralChar) := by
    intro c hc
    have stops := List.head?_dropWhile_not isNumeralChar rest
    rwa [Option.mem_def.mp hc] at stops
  have spelled := readNumber_append plain ends
  rw [List.cons_append, List.takeWhile_append_dropWhile, reads] at spelled
  obtain ⟨rfl, rfl⟩ := Prod.mk.inj (Except.ok.inj spelled)
  exact ⟨⟨m, plain.fits, rfl⟩, others⟩

end

end AvroTypes.Json
