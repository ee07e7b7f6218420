import Mathlib.Data.List.Sort
import Mathlib.Tactic.Lemma
import Mathlib.Tactic.SplitIfs

/-!
# The order of bytes

Texts are compared character by character, files are sorted by the bytes of their names.  In UTF-8
this is the same: the bytes of a greater character are greater at the first place where they differ,
and those of no character are the start of another's.

* `utf8Bytes`, `utf8Bytes_lt` — **the bytes of a greater text are greater.**
* `InByteOrder` — the order of places in a tree, name by name.
* `eq_of_inByteOrder` — what is in this order is in it in one way only.
-/

namespace AvroTypes.Text

/-- The bytes of a text. -/
def utf8Bytes (text : String) : List UInt8 := text.toUTF8.data.toList

lemma utf8Bytes_eq_flatMap (text : String) :
    utf8Bytes text = text.toList.flatMap String.utf8EncodeChar := by
  have spelled : text.toByteArray = text.toList.utf8Encode := by
    rw [← String.toByteArray_ofList, String.ofList_toList]
  rw [utf8Bytes, String.toUTF8_eq_toByteArray, spelled, List.utf8Encode,
    List.toList_data_toByteArray]

/-- **The bytes of a greater character are greater**, whatever follows. -/
lemma utf8EncodeChar_append_lt {c d : Char} (h : c < d) (first second : List UInt8) :
    String.utf8EncodeChar c ++ first < String.utf8EncodeChar d ++ second := by
  have less : c.val.toNat < d.val.toNat := h
  have bound : d.val.toNat < 0x110000 := by
    rcases d.valid with low | ⟨-, high⟩
    · exact low.trans (by decide)
    · exact high
  simp only [String.utf8EncodeChar]
  generalize c.val.toNat = m at *
  generalize d.val.toNat = n at *
  -- each of the two has one to four bytes, and these are digits of its number
  split_ifs <;>
    simp (disch := omega) only [List.cons_append, List.cons_lt_cons_iff, UInt8.lt_iff_toNat_lt,
      ← UInt8.toNat_inj, UInt8.toNat_ofNat', Nat.mod_eq_of_lt] <;>
    omega

/-- **The bytes of a greater text are greater.** -/
theorem utf8Bytes_lt {first second : String} (h : first < second) :
    utf8Bytes first < utf8Bytes second := by
  have spelled {cs ds : List Char} (less : cs < ds) :
      cs.flatMap String.utf8EncodeChar < ds.flatMap String.utf8EncodeChar := by
    induction less with
    | @nil d ds =>
        obtain ⟨byte, bytes, hbytes⟩ := List.exists_cons_of_ne_nil (@String.utf8EncodeChar_ne_nil d)
        rw [List.flatMap_nil, List.flatMap_cons, hbytes, List.cons_append]
        exact List.nil_lt_cons _ _
    | rel less => exact utf8EncodeChar_append_lt less _ _
    | cons _ ih => exact List.append_left_lt ih
  rw [utf8Bytes_eq_flatMap, utf8Bytes_eq_flatMap]
  exact spelled h

/-! ## Places in a tree -/

/-- The order of places in a tree: name by name, and names byte by byte. -/
def InByteOrder (first second : List String) : Prop := first.map utf8Bytes < second.map utf8Bytes

/-- Where two names part, everything below them parts. -/
lemma inByteOrder_of_lt {name other : String} (h : name < other) (first second : List String) :
    InByteOrder (name :: first) (other :: second) :=
  List.cons_lt_cons_iff.mpr (.inl (utf8Bytes_lt h))

/-- Below one name the order is that of the rest. -/
lemma InByteOrder.cons {first second : List String} (h : InByteOrder first second) (name : String) :
    InByteOrder (name :: first) (name :: second) :=
  List.cons_lt_cons_iff.mpr (.inr ⟨rfl, h⟩)

/-- **What is in this order is in it in one way only.** -/
theorem eq_of_inByteOrder {α : Type} {place : α → List String} {list list' : List α}
    (h : list.Pairwise fun a b => InByteOrder (place a) (place b))
    (h' : list'.Pairwise fun a b => InByteOrder (place a) (place b))
    (same : ∀ a, a ∈ list ↔ a ∈ list') : list = list' := by
  have asymm : Std.Asymm fun a b => InByteOrder (place a) (place b) :=
    ⟨fun _ _ => List.lt_asymm⟩
  exact h.eq_of_mem_iff h' same

end AvroTypes.Text
