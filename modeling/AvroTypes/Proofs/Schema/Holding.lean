import AvroTypes.Proofs.Schema.Hoisting
import AvroTypes.Proofs.Table.Lookup

/-!
# What the references of a document mean

A named type that is declared in place is moved out, and its name is left behind in the entry that
it stood in.  Looking that name up later knows neither where it came from nor what was moved out
there: the name is a short one, and the namespace of the entry that holds it is the one asked from.
So the type that was declared in place is found if it is the nearest one to its own name, and
otherwise some other type stands in for it.

* `Site.Holds` — the places inside a named type that are in no other named type inside it.
* `Site.Holds.continues` — what is found at such a place ends up in the entry of the holder.
* `resolves_to_held_iff` — **a type declared in place is what its name means exactly if it is
  nearest to it.**
-/

namespace AvroTypes.Schema

open AvroTypes.Json (Value)

/-- **What a named type holds**: the places that resolving visits from it without going through a
named type. -/
inductive Site.Holds (holder : Site) : Pointer → Site → Prop
  | direct {steps : Pointer} {next : Site} (goes : holder.Visits steps next) :
      Holds holder steps next
  | further {place steps : Pointer} {site next : Site} (holds : Holds holder place site)
      (unnamed : ∀ name, ¬ site.IsNamed name) (goes : site.Visits steps next) :
      Holds holder (place ++ steps) next

/-- What is held resolves, and what it refers to is referred to in the entry of the holder.  The
induction goes along the way: the first step leaves a named type, all others leave places that are
replaced by what they resolve to. -/
lemma Site.Holds.continues {holder site : Site} {owner : String} {place : Pointer}
    {resolved : Resolved} (h : holder.Resolves resolved) (owned : holder.IsNamed owner)
    (holds : holder.Holds place site) :
    ∃ part, site.Resolves part ∧ part.declared <:+: resolved.declared ∧
      ∃ entry ∈ resolved.declared, holder.Registers entry ∧
        referencesIn part.alternatives ⊆ entry.references := by
  induction holds with
  | direct goes =>
      obtain ⟨part, hpart, hinfix, ⟨unnamed, -⟩ | inEntry⟩ := h.forward goes
      · exact absurd owned (unnamed owner)
      · exact ⟨part, hpart, hinfix, inEntry⟩
  | further _ unnamed goes ih =>
      obtain ⟨part, hpart, hinfix, entry, hentry, registers, hreferences⟩ := ih
      obtain ⟨next, hnext, hinfix', ⟨-, hreferences'⟩ | ⟨other, -, other_registers, -⟩⟩ :=
        hpart.forward goes
      · exact ⟨next, hnext, hinfix'.trans hinfix, entry, hentry, registers,
          List.Subset.trans hreferences' hreferences⟩
      · exact absurd other_registers.isNamed (unnamed other.name)

/-- What a place declares is the only entry of a table that comes from there. -/
lemma Site.Declares.eq_of_mem {document : Value} {around : String} {table : List NamedType}
    (h : tableOf document around = .ok table) {site : Site} {entry other : NamedType}
    (declares : site.Declares entry) (declares' : site.Declares other) (hentry : entry ∈ table)
    (hother : other ∈ table) : other = entry := by
  cases declares with
  | intro _ hspace hschema =>
      cases declares' with
      | intro _ hspace' hschema' =>
          exact eq_of_mem_table h hother hentry (hschema'.trans hschema.symm)
            (hspace'.trans hspace.symm)

/-- **What the name of a type declared in place means.**  The type and the one that holds it have
one entry each, the name stands among the references of the entry that holds it, and asked from
there the name always means some type.  It means the type declared in place exactly if that is the
nearest of all: no earlier entry is as near to the name, and no later one nearer. -/
theorem resolves_to_held_iff {document : Value} {around : String} {table : List NamedType}
    (h : tableOf document around = .ok table) {place rest : Pointer} {holder inline : Site}
    {owner name : String} (reached : Reached Site.Visits document around place holder)
    (owned : holder.IsNamed owner) (holds : holder.Holds rest inline)
    (named : inline.IsNamed name) :
    ∃ held ∈ table, holder.Declares held ∧
      (∀ other ∈ table, holder.Declares other → other = held) ∧
      name ∈ held.references ∧
      ∃ entry ∈ table, inline.Declares entry ∧
        (∀ other ∈ table, inline.Declares other → other = entry) ∧
        ((SymbolIndex.ofTable table).resolve? name held.space).isSome ∧
        ((SymbolIndex.ofTable table).resolve? name held.space = some entry ↔
          entry.IsNearest table name held.space) := by
  obtain ⟨resolved, hresolved, hinfix⟩ := reached.resolves h
  obtain ⟨part, hpart, hinfix', held, hheld, registers, hreferences⟩ :=
    holds.continues hresolved owned
  obtain ⟨entry, hentry, entryRegisters, rfl, halternatives⟩ := hpart.exists_registers named
  have hmem : entry ∈ table := hinfix.subset (hinfix'.subset hentry)
  have hheld : held ∈ table := hinfix.subset hheld
  refine ⟨held, hheld, registers.declares, fun other hother declares => ?_,
    hreferences (by simp [halternatives]), entry, hmem, entryRegisters.declares,
    fun other hother declares => ?_, ?_, ?_⟩
  · exact registers.declares.eq_of_mem h declares hheld hother
  · exact entryRegisters.declares.eq_of_mem h declares hmem hother
  · exact Option.isSome_iff_exists.mpr
      (exists_resolve?_eq_some hmem (NamedType.distance_lt_three_of_name rfl))
  · rw [resolve?_eq_some_iff]
    exact and_iff_right (NamedType.distance_lt_three_of_name rfl)

/-- The enumeration with a namespace of its own. -/
def strangerNode : Node := ("namespace", .string "b") :: enumNode

/-- A field with a node as its type. -/
def fieldWith (name : String) (type : Node) : Node :=
  [("name", .string name), ("type", .object type)]

/-- A record in a namespace, with the enumeration in another namespace in its first field, and the
enumeration in that of the record in its second. -/
def rivalNode : Node :=
  [("type", .string "record"), ("name", .string "R"), ("namespace", .string "a"),
    ("fields", .array [.object (fieldWith "x" strangerNode), .object (fieldWith "y" enumNode)])]

/-- The entry of the enumeration in the first field. -/
def strangerEntry : NamedType := { enumEntry with space := "b", schema := .object strangerNode }

/-- The entry of the enumeration in the second field. -/
def rivalEntry : NamedType := { enumEntry with space := "a" }

/-- The table of that document. -/
def rivalTable : List NamedType :=
  [strangerEntry, rivalEntry,
    { name := "R", space := "a", alternatives := [.plain .record], schema := .object rivalNode
      children := some [{ name := "x", alternatives := [.plain (.reference "E")] },
        { name := "y", alternatives := [.plain (.reference "E")] }] }]

lemma tableOf_rivalNode : tableOf (.object rivalNode) "" = .ok rivalTable := by rfl

lemma rivalEntry_isNearest : rivalEntry.IsNearest rivalTable "E" "a" :=
  ⟨[strangerEntry], _, rfl, by decide, by decide⟩

/-- The record holds what stands in the type of its fields. -/
lemma rivalNode_holds {i : Nat} {name : String} {type : Node}
    (found : [Value.object (fieldWith "x" strangerNode), .object (fieldWith "y" enumNode)][i]? =
      some (.object (fieldWith name type))) :
    Site.Holds ⟨.type, .object rivalNode, ""⟩ [.key "fields", .index i, .key "type"]
      ⟨.type, .object type, "a"⟩ := by
  have first : Site.Visits ⟨.type, .object rivalNode, ""⟩ [.key "fields", .index i]
      ⟨.field, .object (fieldWith name type), "a"⟩ := ⟨.field (by rfl) (by rfl) found, .inl rfl⟩
  have second : Site.Visits ⟨.field, .object (fieldWith name type), "a"⟩ [.key "type"]
      ⟨.type, .object type, "a"⟩ := ⟨.nested (by rfl) (by simp), .inr rfl⟩
  exact .further (.direct first) (by simp [Site.IsNamed]) second

/-- The enumeration in the second field is what its name means there. -/
theorem resolves_to_held_second :
    tableOf (.object rivalNode) "" = .ok rivalTable ∧
      (SymbolIndex.ofTable rivalTable).resolve? "E" "a" = some rivalEntry := by
  refine ⟨tableOf_rivalNode, ?_⟩
  obtain ⟨held, -, declares, -, -, entry, -, -, unique, -, nearest⟩ :=
    resolves_to_held_iff tableOf_rivalNode ⟨[], _, [], .one, .here, rfl⟩ ⟨rfl, _, rfl, by rfl⟩
      (rivalNode_holds (i := 1) rfl) ⟨rfl, enumNode, rfl, by rfl⟩
  obtain rfl := unique rivalEntry (by simp [rivalTable]) (.intro (by rfl) (by rfl) rfl)
  cases declares with
  | intro _ hspace _ =>
      rw [hspace] at nearest
      exact nearest.mpr rivalEntry_isNearest

/-- **The enumeration in the first field is not what its name means there**: asked from the
namespace of the record that holds it, the name means the enumeration in the second field. -/
theorem resolves_to_rival :
    tableOf (.object rivalNode) "" = .ok rivalTable ∧
      Site.Holds ⟨.type, .object rivalNode, ""⟩ [.key "fields", .index 0, .key "type"]
        ⟨.type, .object strangerNode, "a"⟩ ∧
      Site.Declares ⟨.type, .object strangerNode, "a"⟩ strangerEntry ∧ strangerEntry ∈ rivalTable ∧
      (SymbolIndex.ofTable rivalTable).resolve? "E" "a" = some rivalEntry ∧
      rivalEntry ≠ strangerEntry := by
  refine ⟨tableOf_rivalNode, rivalNode_holds rfl, .intro (by rfl) (by rfl) rfl,
    by simp [rivalTable], ?_, fun same => ?_⟩
  · exact resolve?_eq_some_iff.mpr ⟨by decide, rivalEntry_isNearest⟩
  · exact absurd (congrArg NamedType.space same) (by decide)

end AvroTypes.Schema
