import AvroTypes.Proofs.Schema.Hoisting
import AvroTypes.Proofs.Schema.PointerText

/-!
# Lists of schemas

A document that is a list of schemas is resolved schema by schema, in the same namespace and with
nothing handed from one to the next.  So its table is the tables of its schemas in a row.  If one of
them is refused, so is the list, at the first such schema and for the same cause; the place of the
fault is the one inside that schema, seen from the list.

* `Fault.Relocated` — a fault and the same fault seen from the list.
* `resolveDocuments_eq_error_iff` — why a list is refused.
* `tableOf_list` — **a list of schemas is resolved schema by schema.**
-/

namespace AvroTypes.Schema

open AvroTypes.Json (Value)

/-- **A fault in an element of a list, as a fault of the list**: the cause is the same, and the text
of the place has the index of the element behind its number sign. -/
structure Fault.Relocated (i : Nat) (own fault : Fault) : Prop where
  cause : fault.cause = own.cause
  place : fault.place = .index i :: own.place
  text : ∃ path, Pointer.text own.place = "#" ++ path ∧
    Pointer.text fault.place = "#/" ++ toString i ++ path

/-- The text of a place inside an element of a list. -/
lemma text_index_cons (i : Nat) (place : Pointer) :
    ∃ path, Pointer.text place = "#" ++ path ∧
      Pointer.text (.index i :: place) = "#/" ++ toString i ++ path := by
  refine ⟨String.ofList (Pointer.chars place), place.text_eq, ?_⟩
  apply String.toList_inj.mp
  simp [Pointer.text, Pointer.chars, Step.token, toString, Nat.repr]

lemma relocated_iff {i : Nat} {own fault : Fault} :
    Fault.Relocated i own fault ↔ fault = { own with place := .index i :: own.place } := by
  constructor
  · rintro ⟨cause, place, -⟩
    obtain ⟨place', cause'⟩ := fault
    obtain rfl : cause' = own.cause := cause
    obtain rfl : place' = .index i :: own.place := place
    rfl
  · rintro rfl
    exact ⟨rfl, rfl, text_index_cons i own.place⟩

/-! ## The first schema that is refused -/

lemma within_eq_error_iff {α : Type} {i : Nat} {outcome : Except Fault α} {fault : Fault} :
    within (.index i) outcome = .error fault ↔
      ∃ own, outcome = .error own ∧ own.Relocated i fault := by
  simp only [within_eq_error, relocated_iff]

/-- A list is refused for its first schema, or for one of the others. -/
lemma resolveDocuments_cons_eq_error_iff {first : Value} {rest : List Value} {around : String}
    {index : Nat} {fault : Fault} :
    resolveDocuments (first :: rest) around index = .error fault ↔
      (∃ own, resolveDocument first around = .error own ∧ own.Relocated index fault) ∨
      (∃ part, resolveDocument first around = .ok part) ∧
        resolveDocuments rest around (index + 1) = .error fault := by
  rw [resolveDocuments, bind_eq_error_iff, within_eq_error_iff]
  simp only [within_eq_ok_iff, bind_eq_error_iff, pure, Except.pure, reduceCtorEq, and_false,
    exists_false, or_false, exists_and_right]

/-- **A list is refused for the first of its schemas that is.** -/
theorem resolveDocuments_eq_error_iff {documents : List Value} {around : String} {index : Nat}
    {fault : Fault} :
    resolveDocuments documents around index = .error fault ↔
      ∃ before document after own, documents = before ++ document :: after ∧
        (∀ earlier ∈ before, ∃ part, resolveDocument earlier around = .ok part) ∧
        resolveDocument document around = .error own ∧
        own.Relocated (index + before.length) fault := by
  induction documents generalizing index with
  | nil => simp [resolveDocuments]
  | cons first rest ih =>
      rw [resolveDocuments_cons_eq_error_iff, ih]
      constructor
      · rintro (⟨own, hfirst, relocated⟩ | ⟨hfirst, before, document, after, own, rfl, hbefore,
          hdocument, relocated⟩)
        · exact ⟨[], first, rest, own, rfl, by simp, hfirst, relocated⟩
        · refine ⟨first :: before, document, after, own, rfl,
            List.forall_mem_cons.mpr ⟨hfirst, hbefore⟩, hdocument, ?_⟩
          rw [List.length_cons, Nat.add_comm before.length, ← Nat.add_assoc]
          exact relocated
      · rintro ⟨before, document, after, own, split, hbefore, hdocument, relocated⟩
        cases before with
        | nil =>
            obtain ⟨rfl, rfl⟩ := List.cons.inj split
            exact .inl ⟨own, hdocument, relocated⟩
        | cons earlier before =>
            obtain ⟨rfl, rfl⟩ := List.cons.inj split
            obtain ⟨hfirst, hbefore⟩ := List.forall_mem_cons.mp hbefore
            refine .inr ⟨hfirst, before, document, after, own, rfl, hbefore, hdocument, ?_⟩
            rw [List.length_cons, Nat.add_comm before.length, ← Nat.add_assoc] at relocated
            exact relocated

/-! ## Tables -/

section

variable {space : String}

/-- A schema on its own is resolved as it is in a list. -/
lemma tableOf_object (valid : isNamespace space = true) (node : Node) :
    tableOf (.object node) space = resolveDocument (.object node) space := by
  simp only [tableOf, valid, if_true]

/-- **A list of schemas is resolved schema by schema.**  It resolves if each of them does, and then
to their tables in a row; if one is refused, the list is, for the first that is, at the place in the
list that the place in the schema has. -/
theorem tableOf_list (valid : isNamespace space = true) (nodes : List Node) :
    (∀ table, tableOf (.array (nodes.map .object)) space = .ok table ↔
      ∃ tables, List.Forall₂ (fun node part => tableOf (.object node) space = .ok part)
        nodes tables ∧ table = tables.flatten) ∧
    ∀ fault, tableOf (.array (nodes.map .object)) space = .error fault ↔
      ∃ before node after own, nodes = before ++ node :: after ∧
        (∀ earlier ∈ before, ∃ part, tableOf (.object earlier) space = .ok part) ∧
        tableOf (.object node) space = .error own ∧ own.Relocated before.length fault := by
  have list : tableOf (.array (nodes.map .object)) space =
      resolveDocuments (nodes.map .object) space 0 := by
    simp only [tableOf, valid, if_true]
  simp only [list, tableOf_object valid]
  constructor
  · intro table
    simp only [resolveDocuments_eq_ok_iff, List.forall₂_map_left_iff]
  · intro fault
    rw [resolveDocuments_eq_error_iff]
    constructor
    · rintro ⟨before, document, after, own, split, hbefore, hdocument, relocated⟩
      obtain ⟨before, rest, rfl, rfl, hrest⟩ := List.map_eq_append_iff.mp split
      obtain ⟨node, after, rfl, rfl, rfl⟩ := List.map_eq_cons_iff.mp hrest
      refine ⟨before, node, after, own, rfl, fun earlier hearlier => ?_, hdocument, ?_⟩
      · exact hbefore _ (List.mem_map_of_mem hearlier)
      · simpa using relocated
    · rintro ⟨before, node, after, own, rfl, hbefore, hdocument, relocated⟩
      refine ⟨before.map .object, .object node, after.map .object, own, by simp, ?_, hdocument,
        by simpa using relocated⟩
      intro earlier hearlier
      obtain ⟨original, horiginal, rfl⟩ := List.mem_map.mp hearlier
      exact hbefore original horiginal

end

/-- A record whose field does not say its type. -/
def typelessNode : Node :=
  [("type", .string "record"), ("name", .string "R"),
    ("fields", .array [.object [("name", .string "f")]])]

/-- Behind an enumeration the record is refused one step further inside the document. -/
theorem tableOf_list_typeless :
    isNamespace "a" = true ∧
      tableOf (.object typelessNode) "a" =
        .error ⟨[.key "fields", .index 0], .missingType⟩ ∧
      tableOf (.array [.object enumNode, .object typelessNode]) "a" =
        .error ⟨[.index 1, .key "fields", .index 0], .missingType⟩ := by
  have valid : isNamespace "a" = true := by decide
  have alone : tableOf (.object typelessNode) "a" =
      .error ⟨[.key "fields", .index 0], .missingType⟩ := by rfl
  refine ⟨valid, alone, ((tableOf_list valid [enumNode, typelessNode]).2 _).mpr
    ⟨[enumNode], typelessNode, [], _, rfl, ?_, alone, relocated_iff.mpr rfl⟩⟩
  exact List.forall_mem_singleton.mpr ⟨_, by rfl⟩

end AvroTypes.Schema
