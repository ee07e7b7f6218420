import AvroTypes.Proofs.Text.Lines
import AvroTypes.TypeScript.Identifier
import Mathlib.Tactic.SplitIfs

/-!
# Identifiers and dotted paths

A path is made from a dotted name part by part, an identifier from a name as a whole.  An
identifier never has a dot in it, so the two agree only on names without dots.

* `isWordChar_of_mem_identifierChars`, `isWordChar_or_dot_of_mem_pathChars` — what identifiers and
  paths consist of.
* `pathChars_qualify` — **the path of a qualified name is the path of the namespace and the path of
  the name.**
* `pathChars_eq_identifierChars_iff` — **a name is its own path exactly if it has no dot.**
-/

namespace AvroTypes.TypeScript

open AvroTypes.Schema (isWordChar segments qualify)
open AvroTypes.Text (intercalate_append)

/-! ## Identifiers -/

lemma toNat_lt_of_isWordChar {c : Char} (h : isWordChar c = true) : c.toNat < 128 := by
  have upTo : ∀ {last : Char}, c.val ≤ last.val → last.toNat < 128 → c.toNat < 128 :=
    fun h ascii => Nat.lt_of_le_of_lt (UInt32.le_iff_toNat_le.mp h) ascii
  rcases Bool.or_eq_true_iff.mp h with alnum | line
  · rcases Bool.or_eq_true_iff.mp alnum with alpha | digit
    · rcases Bool.or_eq_true_iff.mp alpha with upper | lower
      · exact upTo (of_decide_eq_true upper).2 (by decide)
      · exact upTo (of_decide_eq_true (Bool.and_eq_true_iff.mp lower).2) (by decide)
    · exact upTo (of_decide_eq_true (Bool.and_eq_true_iff.mp digit).2) (by decide)
  · obtain rfl := of_decide_eq_true line
    decide

/-- Raising a word character leaves a word character: there are only the ASCII ones to try. -/
lemma isWordChar_toUpper {c : Char} (h : isWordChar c = true) : isWordChar c.toUpper = true := by
  have ascii : ∀ n < 128, isWordChar (Char.ofNat n) = true →
      isWordChar (Char.ofNat n).toUpper = true := by decide +kernel
  simpa using ascii c.toNat (toNat_lt_of_isWordChar h) (by simpa using h)

lemma isWordChar_of_mem_joinWords {raise : Bool} {name : List Char} {c : Char}
    (h : c ∈ joinWords raise name) : isWordChar c = true := by
  induction name generalizing raise with
  | nil => simp [joinWords] at h
  | cons first rest ih =>
      rw [joinWords] at h
      split_ifs at h with word raised
      · rcases List.mem_cons.mp h with rfl | h
        · exact isWordChar_toUpper word
        · exact ih h
      · rcases List.mem_cons.mp h with rfl | h
        · exact word
        · exact ih h
      · exact ih h

/-- **An identifier consists of word characters.** -/
theorem isWordChar_of_mem_identifierChars {name : List Char} {c : Char}
    (h : c ∈ identifierChars name) : isWordChar c = true :=
  isWordChar_of_mem_joinWords ((List.dropWhile_sublist _).subset h)

lemma not_mem_identifierChars {name : List Char} {c : Char} (h : isWordChar c = false) :
    c ∉ identifierChars name := fun hmem => by
  simp [isWordChar_of_mem_identifierChars hmem] at h

/-! ## Paths -/

lemma segments_append (first second : List Char) :
    segments (first ++ '.' :: second) = segments first ++ segments second :=
  List.splitOn_append_cons_self first second

lemma segments_ne_nil (dotted : List Char) : segments dotted ≠ [] := List.splitOn_ne_nil '.' dotted

lemma pathChars_of_not_mem {name : List Char} (h : '.' ∉ name) :
    pathChars name = identifierChars name := by
  simp [pathChars, segments, List.splitOn_eq_singleton h]

lemma pathChars_append (first second : List Char) :
    pathChars (first ++ '.' :: second) = pathChars first ++ '.' :: pathChars second := by
  rw [pathChars, segments_append, List.map_append, intercalate_append _
    (by simpa using segments_ne_nil first) (by simpa using segments_ne_nil second)]
  simp [pathChars]

/-- **A path consists of word characters and dots.** -/
theorem isWordChar_or_dot_of_mem_pathChars {dotted : List Char} {c : Char}
    (h : c ∈ pathChars dotted) : isWordChar c = true ∨ c = '.' := by
  rw [pathChars] at h
  generalize segments dotted = parts at h
  induction parts with
  | nil => simp at h
  | cons first rest ih =>
      cases rest with
      | nil => exact .inl (isWordChar_of_mem_identifierChars (by simpa using h))
      | cons next rest =>
          rw [List.map_cons, List.map_cons, List.intercalate_cons_cons, List.append_assoc] at h
          rcases List.mem_append.mp h with h | h
          · exact .inl (isWordChar_of_mem_identifierChars h)
          · rcases List.mem_append.mp h with h | h
            · exact .inr (List.mem_singleton.mp h)
            · exact ih h

/-- What stands in front of an identifier in its path: the path of the namespace with a dot, and
nothing for the default namespace. -/
def pathPrefix (space : String) : List Char :=
  if space.isEmpty then [] else pathChars space.toList ++ ['.']

/-- **The path of a qualified name**: the path of the namespace, then that of the name. -/
theorem pathChars_qualify (space name : String) :
    pathChars (qualify space name).toList = pathPrefix space ++ pathChars name.toList := by
  rw [qualify, pathPrefix]
  split_ifs with default
  · simp
  · simp [pathChars_append, List.append_assoc]

/-- **A name is its own path exactly if it has no dot.**  A dot of the name stays in the path, and
an identifier has none. -/
theorem pathChars_eq_identifierChars_iff {name : List Char} :
    pathChars name = identifierChars name ↔ '.' ∉ name := by
  constructor
  · intro same dotted
    obtain ⟨first, second, rfl⟩ := List.append_of_mem dotted
    have hmem : '.' ∈ pathChars (first ++ '.' :: second) := by simp [pathChars_append]
    rw [same] at hmem
    exact not_mem_identifierChars (by decide) hmem
  · exact pathChars_of_not_mem

end AvroTypes.TypeScript
