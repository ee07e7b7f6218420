import AvroTypes.Json.Value
import Mathlib.Data.List.Basic
import Mathlib.Tactic.Lemma

/-!
# The members of an object

What is found under a key once the members have been changed.
-/

namespace AvroTypes.Json

variable {members : Members} {key : String}

lemma lookup?_cons (key : String) (value : Value) (members : Members) (other : String) :
    lookup? ((key, value) :: members) other =
      if other = key then some value else lookup? members other := by
  by_cases h : other = key
  · simp [lookup?, h]
  · have hne : (other == key) = false := by simpa using h
    simp [lookup?, List.lookup_cons, hne, h]

lemma lookup?_setMember (value : Value) (other : String) :
    lookup? (setMember key value members) other =
      if other = key then some value else lookup? members other := by
  induction members with
  | nil => exact lookup?_cons key value [] other
  | cons member rest ih =>
      obtain ⟨k, v⟩ := member
      by_cases h : k = key
      · rw [setMember, if_pos h, lookup?_cons, lookup?_cons, h]
        split_ifs <;> rfl
      · rw [setMember, if_neg h, lookup?_cons, lookup?_cons, ih]
        split_ifs with first second
        · exact absurd (first.symm.trans second) h
        · rfl
        · rfl
        · rfl

/-- Changing the values finds the changed value. -/
lemma lookup?_map (change : String → Value → Value) :
    lookup? (members.map fun (k, v) => (k, change k v)) key =
      (lookup? members key).map (change key) := by
  induction members with
  | nil => rfl
  | cons member rest ih =>
      obtain ⟨k, v⟩ := member
      rw [List.map_cons, lookup?_cons, lookup?_cons, ih]
      split_ifs with h
      · rw [h]
        rfl
      · rfl

/-- A member that is removed is not found; if the keys are distinct, no other one takes its
place. -/
lemma lookup?_filter (distinct : (members.map Prod.fst).Nodup) (keep : String × Value → Bool) :
    lookup? (members.filter keep) key =
      (lookup? members key).filter fun value => keep (key, value) := by
  induction members with
  | nil => rfl
  | cons member rest ih =>
      obtain ⟨k, v⟩ := member
      obtain ⟨fresh, distinct⟩ := List.nodup_cons.mp distinct
      rw [List.filter_cons, lookup?_cons]
      by_cases kept : keep (k, v) = true
      · rw [if_pos kept, lookup?_cons, ih distinct]
        split_ifs with h
        · rw [h, Option.filter_some, if_pos kept]
        · rfl
      · rw [if_neg kept, ih distinct]
        split_ifs with h
        · subst h
          have absent : lookup? rest key = none := by
            rw [lookup?, List.lookup_eq_none_iff]
            intro member hmember
            have ne : key ≠ member.1 := fun h => fresh (List.mem_map.mpr ⟨member, hmember, h.symm⟩)
            simpa using ne
          rw [absent, Option.filter_some, if_neg kept, Option.filter_none]
        · rfl

/-- A member is present unless it is `null`. -/
lemma present?_eq_filter :
    present? members key = (lookup? members key).filter fun value => value.kind ≠ .null := by
  rw [present?]
  cases lookup? members key with
  | none => rfl
  | some value => cases value <;> rfl

end AvroTypes.Json
