import AvroTypes.Proofs.Schema.Success

/-!
# Places in a document

Where a type or a field of a record can stand in a document, said without the resolvers: a place is
reached from the top of the document by going into the alternatives of a union, the `type` of a
node, the `items` of an array and the `fields` of a record.  On the way the namespace is handed
inward as the nodes declare it.

Resolving goes the same ways but for one: it does not look into the `fields` of a record that is
itself a field.  So there are two relations, `Leads` for the document and `Visits` for the
resolvers, and everything else takes one of them as a parameter.

* `Site`, `Site.Leads`, `Site.Visits` — a place with what stands there, and the ways from one to
  the next.
* `Below`, `Opens`, `Reached` — the places of a document.
* `Site.Declares` — the entry of the table that a named type at a place is moved out as.
* `Site.size_lt_of_leads` — ways lead to smaller parts.
-/

namespace AvroTypes.Schema

open AvroTypes.Json (Value lookup? present?)

/-- What a place is for. -/
inductive Role where
  | type | field
  deriving DecidableEq, Repr

/-- What stands at a place. -/
structure Site where
  /-- What the place is for. -/
  role : Role
  /-- What stands there. -/
  value : Value
  /-- The namespace that applies around it. -/
  around : String

namespace Site

/-- **The ways from one place to the next**, with the steps that they take. -/
inductive Leads : Site → Pointer → Site → Prop
  /-- To an alternative of a union. -/
  | alternative {alternatives : List Value} {i : Nat} {value : Value} {around : String}
      (found : alternatives[i]? = some value) :
      Leads ⟨.type, .array alternatives, around⟩ [.index i] ⟨.type, value, around⟩
  /-- To the `type` of a node that is more than a word. -/
  | nested {role : Role} {node : Node} {value : Value} {around : String}
      (found : present? node "type" = some value) (noWord : ∀ word, value ≠ .string word) :
      Leads ⟨role, .object node, around⟩ [.key "type"] ⟨.type, value, node.spaceInside around⟩
  /-- To the `items` of an array. -/
  | items {role : Role} {node : Node} {value : Value} {around : String}
      (word : node.text? "type" = some "array") (found : present? node "items" = some value) :
      Leads ⟨role, .object node, around⟩ [.key "items"] ⟨.type, value, node.spaceInside around⟩
  /-- To a field of a record. -/
  | field {role : Role} {node : Node} {fields : List Value} {i : Nat} {value : Value}
      {around : String} (word : node.text? "type" = some "record")
      (listed : node.list? "fields" = some fields) (found : fields[i]? = some value) :
      Leads ⟨role, .object node, around⟩ [.key "fields", .index i]
        ⟨.field, value, node.spaceInside around⟩

/-- The ways that resolving goes: all but those from a field to the fields of a record declared in
its place. -/
def Visits (site : Site) (steps : Pointer) (next : Site) : Prop :=
  site.Leads steps next ∧ (site.role = .type ∨ next.role = .type)

/-- **The entry of the table for a named type at a place**: its name, the namespace that applies
inside it, and itself as its schema. -/
inductive Declares : Site → NamedType → Prop
  | intro {node : Node} {around : String} {entry : NamedType}
      (name : node.name? = some entry.name) (space : entry.space = node.spaceInside around)
      (schema : entry.schema = .object node) : Declares ⟨.type, .object node, around⟩ entry

/-- A named type stands at a place: a node with a name in the place of a type. -/
def IsNamed (site : Site) (name : String) : Prop :=
  site.role = .type ∧ ∃ node : Node, site.value = .object node ∧ node.name? = some name

end Site

/-- The places below a place, reached by ways of one kind. -/
inductive Below (way : Site → Pointer → Site → Prop) (top : Site) : Pointer → Site → Prop
  | here : Below way top [] top
  | step {place steps : Pointer} {site next : Site} (below : Below way top place site)
      (goes : way site steps next) : Below way top (place ++ steps) next

/-- The places at the top of a document: the document itself, or the elements of a list. -/
inductive Opens : (document : Value) → (around : String) → Pointer → Site → Prop
  | one {node : Node} {around : String} :
      Opens (.object node) around [] ⟨.type, .object node, around⟩
  | several {documents : List Value} {i : Nat} {value : Value} {around : String}
      (found : documents[i]? = some value) :
      Opens (.array documents) around [.index i] ⟨.type, value, around⟩

/-- **The places of a document**, reached by ways of one kind. -/
def Reached (way : Site → Pointer → Site → Prop) (document : Value) (around : String)
    (place : Pointer) (site : Site) : Prop :=
  ∃ first top rest, Opens document around first top ∧ Below way top rest site ∧
    place = first ++ rest

/-! ## Going on from a place -/

section

variable {way : Site → Pointer → Site → Prop}

lemma Below.head {top site next : Site} {steps rest : Pointer} (goes : way top steps site)
    (below : Below way site rest next) : Below way top (steps ++ rest) next := by
  induction below with
  | here => simpa using Below.here.step goes
  | step _ further ih =>
      rw [← List.append_assoc]
      exact ih.step further

lemma Below.trans {top site next : Site} {place rest : Pointer} (first : Below way top place site)
    (second : Below way site rest next) : Below way top (place ++ rest) next := by
  induction second with
  | here => simpa using first
  | step _ further ih =>
      rw [← List.append_assoc]
      exact ih.step further

lemma Reached.below {document : Value} {around : String} {place rest : Pointer} {site next : Site}
    (reached : Reached way document around place site) (below : Below way site rest next) :
    Reached way document around (place ++ rest) next := by
  obtain ⟨first, top, middle, opens, downTo, rfl⟩ := reached
  exact ⟨first, top, middle ++ rest, opens, downTo.trans below, by rw [List.append_assoc]⟩

end

/-! ## Ways lead to smaller parts -/

lemma sizeOf_lt_of_present? {node : Node} {key : String} {value : Value}
    (h : present? node key = some value) : sizeOf value < sizeOf node := by
  have hmem := List.sizeOf_lt_of_mem (mem_of_lookup? (lookup?_of_present? h))
  simp only [Prod.mk.sizeOf_spec] at hmem
  omega

theorem Site.size_lt_of_leads {site next : Site} {steps : Pointer} (h : site.Leads steps next) :
    sizeOf next.value < sizeOf site.value := by
  cases h with
  | alternative found =>
      have := List.sizeOf_lt_of_mem (List.mem_of_getElem? found)
      simp only [Value.array.sizeOf_spec]
      omega
  | nested found _ =>
      have := sizeOf_lt_of_present? found
      simp only [Value.object.sizeOf_spec]
      omega
  | items _ found =>
      have := sizeOf_lt_of_present? found
      simp only [Value.object.sizeOf_spec]
      omega
  | field _ listed found =>
      have hfields := sizeOf_lt_of_present? (present?_of_list? listed)
      have hfield := List.sizeOf_lt_of_mem (List.mem_of_getElem? found)
      simp only [Value.object.sizeOf_spec, Value.array.sizeOf_spec] at *
      omega

end AvroTypes.Schema
