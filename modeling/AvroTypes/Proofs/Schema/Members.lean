import AvroTypes.Proofs.Schema.Success
import Mathlib.Data.Set.List

/-!
# The members of a node

The shapes of all members are checked before a node is looked at in any other way.  Once they are
known to be right, what the readers of a node say is what stands in the document: a text is absent
only if the member is absent or `null`, and every symbol is among the symbols.

* `Node.HasShapes`, `mismatch?_eq_none_iff` — **which nodes pass the check.**
* `present?_eq_map_text?`, `present?_of_symbols?` — the readers of a node that has passed it.
* `Kind.IsSimple`, `isSimple_ofWord_iff`, `resolveWord_eq_ok_iff` — the words that are types.
* `formOfWord_of_isSimple`, `symbols?_of_form` — the form of a node whose type is a word.
-/

namespace AvroTypes

/-- A kind that its word alone stands for. -/
structure Kind.IsSimple (kind : Kind) : Prop where
  noRecord : kind ≠ .record
  noEnum : kind ≠ .enum
  noArray : kind ≠ .array

namespace Schema

open AvroTypes.Json (Value lookup? present?)

/-- The keys of the members that have to be texts. -/
def textKeys : List String := ["name", "namespace", "doc"]

/-- **The members of a node have their shapes**: each is `null` or what its key promises. -/
structure Node.HasShapes (node : Node) : Prop where
  texts : ∀ key ∈ textKeys, ∀ value, (key, value) ∈ node →
    value = .null ∨ ∃ text, value = .string text
  fields : ∀ value, ("fields", value) ∈ node → value = .null ∨ ∃ values, value = .array values
  symbols : ∀ value, ("symbols", value) ∈ node →
    value = .null ∨ ∃ symbols : List String, value = .array (symbols.map .string)

/-! ## One member -/

lemma memberMismatch?_text {key : String} (h : key ∈ textKeys) {value : Value} :
    memberMismatch? key value = none ↔ value = .null ∨ ∃ text, value = .string text := by
  simp only [textKeys, List.mem_cons, List.not_mem_nil, or_false] at h
  rcases h with rfl | rfl | rfl <;> cases value <;> simp [memberMismatch?, shapeMismatch?]

lemma memberMismatch?_fields {value : Value} :
    memberMismatch? "fields" value = none ↔ value = .null ∨ ∃ values, value = .array values := by
  cases value <;> simp [memberMismatch?, shapeMismatch?]

lemma shapeMismatch?_text {value : Value} :
    shapeMismatch? .text value = none ↔ ∃ text, value = .string text := by
  cases value <;> simp [shapeMismatch?]

lemma memberMismatch?_symbols {value : Value} :
    memberMismatch? "symbols" value = none ↔
      value = .null ∨ ∃ symbols : List String, value = .array (symbols.map .string) := by
  cases value with
  | array values =>
      have allTexts : (∀ value ∈ values, ∃ text, value = Value.string text) ↔
          ∃ symbols : List String, values = symbols.map .string := by
        have := Set.ext_iff.mp (Set.range_list_map Value.string) values
        simpa [eq_comm] using this.symm
      simp only [memberMismatch?, List.findSome?_eq_none_iff, shapeMismatch?_text, allTexts,
        reduceCtorEq, false_or, Value.array.injEq]
  | _ => simp [memberMismatch?, shapeMismatch?]

lemma memberMismatch?_other {key : String} (h : key ∉ textKeys) (h' : key ≠ "fields")
    (h'' : key ≠ "symbols") (value : Value) : memberMismatch? key value = none := by
  unfold memberMismatch?
  split <;> simp_all [textKeys]

/-- **The check of the shapes passes exactly the nodes that have them.** -/
theorem mismatch?_eq_none_iff {node : Node} : node.mismatch? = none ↔ node.HasShapes := by
  rw [Node.mismatch?, List.findSome?_eq_none_iff]
  constructor
  · intro h
    exact ⟨fun key hkey value hmem => (memberMismatch?_text hkey).mp (h _ hmem),
      fun value hmem => memberMismatch?_fields.mp (h _ hmem),
      fun value hmem => memberMismatch?_symbols.mp (h _ hmem)⟩
  · rintro ⟨texts, fields, symbols⟩ ⟨key, value⟩ hmem
    by_cases htext : key ∈ textKeys
    · exact (memberMismatch?_text htext).mpr (texts key htext value hmem)
    by_cases hfields : key = "fields"
    · subst hfields
      exact memberMismatch?_fields.mpr (fields value hmem)
    by_cases hsymbols : key = "symbols"
    · subst hsymbols
      exact memberMismatch?_symbols.mpr (symbols value hmem)
    exact memberMismatch?_other htext hfields hsymbols value

/-! ## The readers -/

lemma present?_ne_null {node : Node} {key : String} {value : Value}
    (h : present? node key = some value) : value ≠ .null := by
  rintro rfl
  unfold present? at h
  split at h
  · simp at h
  · next found => exact found h

/-- A text of a node that has its shapes is absent only if the member is. -/
theorem present?_eq_map_text? {node : Node} (h : node.HasShapes) {key : String}
    (hkey : key ∈ textKeys) : present? node key = (node.text? key).map .string := by
  cases found : present? node key with
  | none => simp [Node.text?, found]
  | some value =>
      have hmem := mem_of_lookup? (lookup?_of_present? found)
      rcases h.texts key hkey value hmem with rfl | ⟨text, rfl⟩
      · exact absurd rfl (present?_ne_null found)
      · simp [Node.text?, found]

lemma present?_of_lookup? {node : Node} {key : String} {value : Value}
    (h : lookup? node key = some value) (notNull : value ≠ .null) :
    present? node key = some value := by
  rw [present?, h]
  cases value <;> simp_all

lemma text?_eq_some_iff {node : Node} {key text : String} :
    node.text? key = some text ↔ lookup? node key = some (.string text) :=
  ⟨fun h => lookup?_of_present? (present?_of_text? h),
    fun h => text?_of_present? (present?_of_lookup? h (by simp))⟩

lemma list?_eq_some_iff {node : Node} {key : String} {values : List Value} :
    node.list? key = some values ↔ lookup? node key = some (.array values) := by
  refine ⟨fun h => lookup?_of_present? (present?_of_list? h), fun h => ?_⟩
  simp [Node.list?, present?_of_lookup? h]

lemma name?_eq_some_iff {node : Node} {name : String} :
    node.name? = some name ↔ lookup? node "name" = some (.string name) ∧ name ≠ "" := by
  simp [Node.name?, Option.filter_eq_some_iff, text?_eq_some_iff]

/-- The symbols of a node that has its shapes are all that the document lists. -/
theorem present?_of_symbols? {node : Node} (h : node.HasShapes) {symbols : List String}
    (hsymbols : node.symbols? = some symbols) :
    present? node "symbols" = some (.array (symbols.map .string)) := by
  rw [Node.symbols?, Option.map_eq_some_iff] at hsymbols
  obtain ⟨values, hvalues, rfl⟩ := hsymbols
  have found := present?_of_list? hvalues
  rcases h.symbols _ (mem_of_lookup? (lookup?_of_present? found)) with hnull | ⟨texts, hvalues⟩
  · simp at hnull
  · obtain rfl := Value.array.inj hvalues
    rw [found]
    simp [List.filterMap_map]

/-! ## Words -/

/-- The words of the types that have to be declared by a node with further members. -/
def compositeWords : List String := ["record", "enum", "array"]

lemma isSimple_ofWord_iff {word : String} :
    (Kind.ofWord word).IsSimple ↔ word ∉ compositeWords := by
  constructor
  · rintro ⟨noRecord, noEnum, noArray⟩ hmem
    simp only [compositeWords, List.mem_cons, List.not_mem_nil, or_false] at hmem
    rcases hmem with rfl | rfl | rfl
    · exact noRecord rfl
    · exact noEnum rfl
    · exact noArray rfl
  · intro hword
    obtain ⟨hrecord, henum, harray⟩ := word_of_composite word
    refine ⟨fun h => hword ?_, fun h => hword ?_, fun h => hword ?_⟩
    · simp [compositeWords, hrecord h]
    · simp [compositeWords, henum h]
    · simp [compositeWords, harray h]

/-- **A word resolves unless it is that of a composite type.** -/
theorem resolveWord_eq_ok_iff {word : String} {resolved : Resolved} :
    resolveWord word = .ok resolved ↔
      word ∉ compositeWords ∧ resolved = .plain (Kind.ofWord word) := by
  rw [← isSimple_ofWord_iff, resolveWord]
  split
  · next kind => simpa [kind] using fun h : Kind.IsSimple .record => absurd rfl h.noRecord
  · next kind => simpa [kind] using fun h : Kind.IsSimple .enum => absurd rfl h.noEnum
  · next kind => simpa [kind] using fun h : Kind.IsSimple .array => absurd rfl h.noArray
  · next noRecord noEnum noArray =>
      have simple : (Kind.ofWord word).IsSimple := ⟨noRecord, noEnum, noArray⟩
      simp [simple, eq_comm]

lemma form_of_text? {node : Node} {word : String} (h : node.text? "type" = some word) :
    node.form = node.formOfWord word := by
  rw [Node.form, present?_of_text? h]

lemma formOfWord_of_isSimple {node : Node} {word : String}
    (h : (Kind.ofWord word).IsSimple) :
    node.formOfWord word = .ok (.word (Kind.ofWord word)) := by
  rw [Node.formOfWord]
  split
  · next kind => exact absurd kind h.noRecord
  · next kind => exact absurd kind h.noEnum
  · next kind => exact absurd kind h.noArray
  · rfl

/-- The symbols of an enumeration are those that its node lists. -/
lemma symbols?_of_form {node : Node} {symbols : List String}
    (h : node.form = .ok (.enum symbols)) : node.symbols? = some symbols := by
  obtain ⟨word, -⟩ := looks_of_form h
  rw [form_of_text? word] at h
  simp only [Node.formOfWord, Kind.ofWord] at h
  split_ifs at h
  split at h
  · simp at h
  · next found =>
      rw [found, Form.enum.inj (Except.ok.inj h)]

end Schema

end AvroTypes
