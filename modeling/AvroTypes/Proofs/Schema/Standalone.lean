import AvroTypes.Proofs.Schema.Resolution

/-!
# Schemas on their own

Every entry of a table has the node that it comes from as its schema.  That node is a document too:
with the namespace of the entry as the default one it resolves to a table of its own.  Resolving
does not look at what is around a node except for the namespace, so this table is what the node
has contributed to the whole one, the entries declared inside it and then its own entry, and they
stand there next to each other.

* `StandAlone` — a list of entries of which each has what its schema resolves to in front of it.
* `cumulative_standAlone` — entries stand on their own when they are moved out, and stay so.
* `tableOf_schema_eq_ok` — **every entry of a table stands on its own.**
-/

namespace AvroTypes.Schema

/-- **Every entry of a list stands on its own**: its schema resolves to the entry and some that
stand directly in front of it. -/
def StandAlone (table : List NamedType) : Prop :=
  ∀ before type after, table = before ++ type :: after →
    ∃ inside, tableOf type.schema type.space = .ok (inside ++ [type]) ∧ inside <:+ before

lemma MovesOut.tableOf_schema {node : Node} {inside : List NamedType} {type : NamedType}
    (h : MovesOut node inside type) :
    tableOf type.schema type.space = .ok (inside ++ [type]) := by
  rw [h.schema, tableOf_eq_ok_iff, resolveDocument_eq_ok_iff]
  exact ⟨h.space, .inl ⟨node, _, rfl, h.resolves, rfl⟩⟩

lemma StandAlone.append {first second : List NamedType} (h : StandAlone first)
    (h' : StandAlone second) : StandAlone (first ++ second) := by
  intro before type after split
  rcases List.append_eq_append_iff.mp split with ⟨middle, rfl, hsecond⟩ | ⟨middle, rfl, hafter⟩
  · obtain ⟨inside, htable, hinside⟩ := h' middle type after hsecond
    exact ⟨inside, htable, hinside.trans (List.suffix_append _ _)⟩
  · cases middle with
    | nil =>
        obtain ⟨inside, htable, hinside⟩ := h' [] type after hafter.symm
        exact ⟨inside, htable, hinside.trans List.nil_suffix⟩
    | cons head rest =>
        obtain ⟨rfl, -⟩ := List.cons.inj hafter
        exact h before type rest rfl

/-- A node that is moved out has everything declared inside it in front of its entry. -/
lemma StandAlone.push {node : Node} {inside : List NamedType} {type : NamedType}
    (moved : MovesOut node inside type) (h : StandAlone inside) :
    StandAlone (inside ++ [type]) := by
  intro before other after split
  rcases List.append_eq_append_iff.mp split with ⟨middle, rfl, hlast⟩ | ⟨middle, rfl, hafter⟩
  · obtain ⟨rfl, rfl⟩ : middle = [] ∧ type = other := by
      cases middle <;> simp at hlast ⊢
      exact hlast.1
    exact ⟨inside, moved.tableOf_schema, by simp⟩
  · cases middle with
    | nil =>
        obtain ⟨rfl, -⟩ := List.cons.inj hafter
        exact ⟨before, by simpa using moved.tableOf_schema, List.suffix_rfl⟩
    | cons head rest =>
        obtain ⟨rfl, -⟩ := List.cons.inj hafter
        exact h before other rest rfl

theorem cumulative_standAlone : Cumulative StandAlone where
  nil := by
    intro before type after split
    simp at split
  append := StandAlone.append
  push := StandAlone.push

/-- **Every entry of a table stands on its own.**  Its schema, with its namespace as the default
one, resolves to a block of the table that ends with the entry. -/
theorem tableOf_schema_eq_ok {document : Json.Value} {around : String} {table : List NamedType}
    (h : tableOf document around = .ok table) {i : Nat} {type : NamedType}
    (found : table[i]? = some type) :
    ∃ inside, tableOf type.schema type.space = .ok (inside ++ [type]) ∧
      inside ++ [type] <:+ table.take (i + 1) := by
  obtain ⟨hi, rfl⟩ := List.getElem?_eq_some_iff.mp found
  obtain ⟨inside, htable, before, hbefore⟩ :=
    cumulative_standAlone.tableOf h (table.take i) table[i] (table.drop (i + 1)) (by simp)
  refine ⟨inside, htable, before, ?_⟩
  rw [← List.append_assoc, hbefore, List.take_append_getElem hi]

/-- The enumeration twice: once as a document, and once inside the record with the nested field. -/
def repeatingDocument : Json.Value := .array [.object enumNode, .object nestingNode]

/-- Its table in a namespace. -/
def repeatingTable : List NamedType :=
  [{ enumEntry with space := "a" }, { enumEntry with space := "a" },
    { nestingEntry with space := "a" }]

/-- The record resolves to the second entry of the enumeration and its own. -/
theorem tableOf_schema_repeating :
    tableOf repeatingDocument "a" = .ok repeatingTable ∧
      ∃ inside, tableOf (.object nestingNode) "a" =
          .ok (inside ++ [{ nestingEntry with space := "a" }]) ∧
        inside ++ [{ nestingEntry with space := "a" }] <:+ repeatingTable := by
  have htable : tableOf repeatingDocument "a" = .ok repeatingTable := by rfl
  exact ⟨htable, tableOf_schema_eq_ok htable (i := 2) rfl⟩

end AvroTypes.Schema
