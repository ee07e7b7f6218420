import AvroTypes.Types
import Mathlib.Tactic.Lemma

/-!
# References in types

The names that a type refers to, at any depth, from left to right and each before those inside it.

* `TypeExpr.references`, `referencesIn` — of a type, and of a list of alternatives.
* `NamedType.references` — of an entry of the table: those of its type, then those of its fields.
* `TypeExpr.induction_elements` — induction on a type, over all its elements at once.
-/

namespace AvroTypes

/-- Induction on a type, with the hypothesis for each of its elements. -/
@[elab_as_elim]
theorem TypeExpr.induction_elements {motive : TypeExpr → Prop}
    (of : ∀ kind elements, (∀ element ∈ elements, motive element) → motive (.of kind elements)) :
    ∀ type, motive type
  | .of kind elements =>
      of kind elements fun element (_ : element ∈ elements) =>
        TypeExpr.induction_elements of element
termination_by type => sizeOf type
decreasing_by
  have smaller := List.sizeOf_lt_of_mem ‹element ∈ elements›
  rw [TypeExpr.of.sizeOf_spec]
  omega

mutual

/-- The references in a type. -/
def TypeExpr.references : TypeExpr → List String
  | .of (.reference name) elements => name :: referencesIn elements
  | .of _ elements => referencesIn elements

/-- The references in a list of alternatives. -/
def referencesIn : List TypeExpr → List String
  | [] => []
  | first :: rest => first.references ++ referencesIn rest

end

/-- The references in an entry of the table. -/
def NamedType.references (type : NamedType) : List String :=
  referencesIn type.alternatives ++ type.fields.flatMap (referencesIn ·.alternatives)

lemma referencesIn_eq_flatMap (alternatives : List TypeExpr) :
    referencesIn alternatives = alternatives.flatMap TypeExpr.references := by
  induction alternatives with
  | nil => rfl
  | cons first rest ih => rw [referencesIn, ih, List.flatMap_cons]

lemma references_subset_referencesIn {type : TypeExpr} {alternatives : List TypeExpr}
    (h : type ∈ alternatives) : type.references ⊆ referencesIn alternatives := fun name hname => by
  rw [referencesIn_eq_flatMap]
  exact List.mem_flatMap.mpr ⟨type, h, hname⟩

@[simp] lemma referencesIn_arrayOf (elements : List TypeExpr) :
    referencesIn [.arrayOf elements] = referencesIn elements := by
  simp [referencesIn, TypeExpr.references, TypeExpr.arrayOf]

@[simp] lemma referencesIn_reference (name : String) :
    referencesIn [.plain (.reference name)] = [name] := by
  simp [referencesIn, TypeExpr.references, TypeExpr.plain]

end AvroTypes
