import AvroTypes.Proofs.Schema.Members

/-!
# Wrapped and nested types

There is more than one way to write down the same type.  A node without a name that has nothing but
a `type` stands for what its `type` says, a union of one alternative for that alternative, and a
union inside a union for its alternatives.  Rewriting one into the other changes neither whether a
value resolves nor what it resolves to.

A word is the one value that is read in two ways: in the place of a type by itself, and as the
`type` of a node by way of the form of the node.  The words of composite types are refused both
times, since such a node has none of the members that they ask for.

* `ResolveTheSame` — values that resolve the same in every namespace.
* `resolveType_wrapped_eq_ok_iff`, `resolveTheSame_wrapped` — **a node that is nothing but its
  type.**
* `resolveUnion_append_eq_ok_iff`, `resolveTheSame_flattened` — **a union inside a union.**
* `resolveTheSame_wrapping_and_flattening` — **all three ways of writing.**
-/

namespace AvroTypes.Schema

open AvroTypes.Json (Value present?)

/-- **Two values resolve the same**: in every namespace, to whatever one of them resolves to, so
does the other.  So if one is refused, both are. -/
def ResolveTheSame (first second : Value) : Prop :=
  ∀ around resolved, resolveType first around = .ok resolved ↔
    resolveType second around = .ok resolved

/-! ## Wrapping -/

/-- A node that has nothing but a type. -/
def wrapped (value : Value) : Node := [("type", value)]

section

variable {value : Value} {word around : String} {resolved : Resolved}

lemma name?_wrapped : (wrapped value).name? = none := rfl

lemma mismatch?_wrapped : (wrapped value).mismatch? = none := by
  cases value <;> rfl

lemma spaceIn_wrapped : (wrapped value).spaceIn around = .ok around := rfl

/-- What a wrapped value resolves to follows from the form of the node. -/
lemma resolveType_wrapped_eq_ok_iff :
    resolveType (.object (wrapped value)) around = .ok resolved ↔
      ∃ form, (wrapped value).form = .ok form ∧
        form.Typed (resolveType value around) (.ok ⟨[], []⟩) resolved := by
  have type : ∀ space, resolveMember "type" (wrapped value) space = resolveType value space :=
    fun space => by simp [wrapped, resolveMember]
  have items : ∀ space, resolveMember "items" (wrapped value) space = .ok ⟨[], []⟩ :=
    fun space => by simp [wrapped, resolveMember]
  simp only [resolveType_object_eq_ok_iff, hoist_eq_ok_iff, name?_wrapped]
  constructor
  · rintro ⟨content, contains, ⟨-, rfl⟩ | ⟨_, _, named, -⟩⟩
    · have space : around = content.space := Except.ok.inj contains.space
      exact ⟨content.form, contains.form, by simpa [type, items, ← space] using contains.typed⟩
    · cases named
  · rintro ⟨form, hform, typed⟩
    exact ⟨⟨around, form, resolved⟩, ⟨mismatch?_wrapped, spaceIn_wrapped, hform,
      by simpa [type, items] using typed⟩, .inl ⟨trivial, rfl⟩⟩

/-- A wrapped word says that the type is that word, unless it is the word of a composite type. -/
lemma form_wrapped_word {form : Form} :
    (wrapped (.string word)).form = .ok form ↔
      word ∉ compositeWords ∧ form = .word (Kind.ofWord word) := by
  have text : (wrapped (.string word)).text? "type" = some word := rfl
  rw [form_of_text? text, ← isSimple_ofWord_iff]
  constructor
  · intro h
    -- all other forms ask for a member that is not there
    have simple : (Kind.ofWord word).IsSimple := by
      have looks := looks_of_formOfWord text h
      cases form with
      | nested =>
          obtain ⟨_, found, noWord⟩ := looks
          rw [present?_of_text? text, Option.some.injEq] at found
          exact absurd found.symm (noWord word)
      | record => exact absurd looks.2.1 (by simp [name?_wrapped])
      | enum => exact absurd looks.2 (by simp [name?_wrapped])
      | array =>
          obtain ⟨-, _, items⟩ := looks
          cases items
      | word kind =>
          obtain ⟨_, same, rfl, noRecord, noEnum, noArray⟩ := looks
          obtain rfl := Option.some.inj (text.symm.trans same)
          exact ⟨noRecord, noEnum, noArray⟩
    rw [formOfWord_of_isSimple simple] at h
    exact ⟨simple, (Except.ok.inj h).symm⟩
  · rintro ⟨simple, rfl⟩
    exact formOfWord_of_isSimple simple

/-- **A node that is nothing but its type** resolves as its type does. -/
theorem resolveTheSame_wrapped (value : Value) :
    ResolveTheSame (.object (wrapped value)) value := by
  intro around resolved
  rw [resolveType_wrapped_eq_ok_iff]
  cases value with
  | null => simp [wrapped, Node.form, present?, Json.lookup?, resolveType]
  | string word =>
      simp [form_wrapped_word, resolveType, resolveWord_eq_ok_iff, Form.Typed, and_assoc]
  | array alternatives => simp [wrapped, Node.form, present?, Json.lookup?, Form.Typed]
  | object members => simp [wrapped, Node.form, present?, Json.lookup?, Form.Typed]
  | _ => simp [wrapped, Node.form, present?, Json.lookup?, resolveType]

end

/-! ## Unions -/

section

variable {first second : List Value} {around : String} {index : Nat} {resolved : Resolved}

/-- A union in two parts resolves by its parts. -/
theorem resolveUnion_append_eq_ok_iff :
    resolveUnion (first ++ second) around index = .ok resolved ↔
      ∃ one other, resolveUnion first around 0 = .ok one ∧
        resolveUnion second around 0 = .ok other ∧ resolved = one.append other := by
  simp only [resolveUnion_eq_ok_iff]
  constructor
  · rintro ⟨parts, each, rfl⟩
    have eachFirst := (List.forall₂_take_append parts first second each.flip).flip
    have eachSecond := (List.forall₂_drop_append parts first second each.flip).flip
    refine ⟨_, _, ⟨_, eachFirst, rfl⟩, ⟨_, eachSecond, rfl⟩, ?_⟩
    rw [Resolved.append, ← List.flatMap_append, ← List.flatMap_append, List.take_append_drop]
  · rintro ⟨_, _, ⟨ones, eachFirst, rfl⟩, ⟨others, eachSecond, rfl⟩, rfl⟩
    exact ⟨ones ++ others, List.rel_append eachFirst eachSecond, by simp [Resolved.append]⟩

/-- A union of one alternative resolves as the alternative does. -/
lemma resolveUnion_singleton_eq_ok_iff {value : Value} :
    resolveUnion [value] around index = .ok resolved ↔ resolveType value around = .ok resolved := by
  rw [resolveUnion_eq_ok_iff]
  constructor
  · rintro ⟨parts, each, rfl⟩
    obtain ⟨part, _, one, none, rfl⟩ := List.forall₂_cons_left_iff.mp each
    obtain rfl := List.forall₂_nil_left_iff.mp none
    simpa using one
  · intro one
    exact ⟨[resolved], .cons one .nil, by simp⟩

/-- **A union inside a union** stands for its alternatives. -/
theorem resolveTheSame_flattened (before after : List Value) (ne : first ≠ []) :
    ResolveTheSame (.array (before ++ .array first :: after))
      (.array (before ++ first ++ after)) := by
  intro around resolved
  have inner : ∀ {part}, resolveUnion [.array first] around 0 = .ok part ↔
      resolveUnion first around 0 = .ok part := fun {part} => by
    rw [resolveUnion_singleton_eq_ok_iff, resolveType_array_eq_ok_iff, and_iff_right ne]
  have nested : before ++ [.array first] ++ after ≠ [] := by simp
  have flat : before ++ first ++ after ≠ [] := by simp [ne]
  rw [List.append_cons, resolveType_array_eq_ok_iff, resolveType_array_eq_ok_iff,
    and_iff_right nested, and_iff_right flat]
  simp only [resolveUnion_append_eq_ok_iff, inner]

end

/-- **There is more than one way to write down a type.**  A node that has nothing but a type
resolves as that type does, and so does a union of this one alternative; and a union with a union
that is not empty among its alternatives resolves as the union with the alternatives of the inner
one in its place does. -/
theorem resolveTheSame_wrapping_and_flattening (value : Value) :
    ResolveTheSame (.object [("type", value)]) value ∧
    ResolveTheSame (.array [value]) value ∧
    ∀ before first rest after,
      ResolveTheSame (.array (before ++ .array (first :: rest) :: after))
        (.array (before ++ first :: rest ++ after)) := by
  refine ⟨resolveTheSame_wrapped value, fun around resolved => ?_,
    fun before first rest after => ?_⟩
  · simp [resolveType_array_eq_ok_iff, resolveUnion_singleton_eq_ok_iff]
  · exact resolveTheSame_flattened before after (List.cons_ne_nil first rest)

end AvroTypes.Schema
