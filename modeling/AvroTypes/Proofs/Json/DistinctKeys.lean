import AvroTypes.Proofs.Json.Members
import AvroTypes.Proofs.Json.Reading
import Mathlib.Data.List.Induction

/-!
# Values whose objects have distinct keys

A key that a text repeats keeps the place where it first stood and the value it had last, so no
object that is read from a text has two members under one key.

* `Value.HasDistinctKeys` — **the values that a text can denote.**
* `nodup_ofMembers` — spelled members are made distinct.
* `ofMembers_of_nodup` — members that are distinct already are kept as they are spelled.
* `hasDistinctKeys_of_ofText` — **every value that is read has distinct keys.**
-/

namespace AvroTypes.Json

/-- No object in a value has two members under one key. -/
inductive Value.HasDistinctKeys : Value → Prop
  | scalar {value : Value} (noList : value.kind ≠ .array) (noNode : value.kind ≠ .object) :
      HasDistinctKeys value
  | array {elements : List Value} (each : ∀ element ∈ elements, HasDistinctKeys element) :
      HasDistinctKeys (.array elements)
  | object {members : Members} (distinct : (members.map Prod.fst).Nodup)
      (each : ∀ member ∈ members, HasDistinctKeys member.2) : HasDistinctKeys (.object members)

@[simp] lemma hasDistinctKeys_array {values : List Value} :
    (Value.array values).HasDistinctKeys ↔ ∀ value ∈ values, value.HasDistinctKeys := by
  constructor
  · intro h
    cases h with
    | scalar noList _ => exact absurd rfl noList
    | array each => exact each
  · exact .array

@[simp] lemma hasDistinctKeys_object {members : Members} :
    (Value.object members).HasDistinctKeys ↔
      (members.map Prod.fst).Nodup ∧ ∀ member ∈ members, member.2.HasDistinctKeys := by
  constructor
  · intro h
    cases h with
    | scalar _ noNode => exact absurd rfl noNode
    | object distinct each => exact ⟨distinct, each⟩
  · exact fun ⟨distinct, each⟩ => .object distinct each

/-! ## Putting members together -/

/-- Every member that is there after one has been set was there before, or is the one. -/
lemma mem_of_mem_setMember {key : String} {value : Value} {members : Members}
    {member : String × Value} (h : member ∈ setMember key value members) :
    member = (key, value) ∨ member ∈ members := by
  induction members with
  | nil => exact .inl (List.mem_singleton.mp h)
  | cons first rest ih =>
      obtain ⟨k, v⟩ := first
      rw [setMember] at h
      split_ifs at h
      · rcases List.mem_cons.mp h with h | h
        · exact .inl h
        · exact .inr (List.mem_cons_of_mem _ h)
      · rcases List.mem_cons.mp h with rfl | h
        · exact .inr List.mem_cons_self
        · exact (ih h).imp_right (List.mem_cons_of_mem _)

lemma keys_setMember (key : String) (value : Value) (members : Members) :
    (setMember key value members).map Prod.fst =
      if key ∈ members.map Prod.fst then members.map Prod.fst
      else members.map Prod.fst ++ [key] := by
  induction members with
  | nil => simp [setMember]
  | cons first rest ih =>
      obtain ⟨k, v⟩ := first
      by_cases h : k = key
      · simp [setMember, h]
      · rw [setMember, if_neg h, List.map_cons, ih, List.map_cons]
        simp only [List.mem_cons, Ne.symm h, false_or]
        split_ifs <;> simp

lemma nodup_setMember {key : String} {value : Value} {members : Members}
    (h : (members.map Prod.fst).Nodup) : ((setMember key value members).map Prod.fst).Nodup := by
  rw [keys_setMember]
  split_ifs with known
  · exact h
  · exact List.nodup_append.mpr ⟨h, List.nodup_cons.mpr ⟨List.not_mem_nil, .nil⟩, by
      rintro other hother _ hkey rfl
      exact known (List.mem_singleton.mp hkey ▸ hother)⟩

lemma ofMembers_append_singleton (spelled : List (String × Value)) (key : String) (value : Value) :
    ofMembers (spelled ++ [(key, value)]) = setMember key value (ofMembers spelled) := by
  rw [ofMembers, List.foldl_append]
  rfl

/-- **Spelled members are made distinct**, and no value is made up. -/
lemma nodup_ofMembers (spelled : List (String × Value)) :
    ((ofMembers spelled).map Prod.fst).Nodup ∧
      ∀ member ∈ ofMembers spelled, member ∈ spelled := by
  induction spelled using List.reverseRecOn with
  | nil => exact ⟨List.nodup_nil, fun _ => id⟩
  | append_singleton spelled last ih =>
      obtain ⟨key, value⟩ := last
      rw [ofMembers_append_singleton]
      refine ⟨nodup_setMember ih.1, fun member hmember => ?_⟩
      rcases mem_of_mem_setMember hmember with rfl | hbefore
      · exact List.mem_append_right _ (List.mem_singleton_self _)
      · exact List.mem_append_left _ (ih.2 member hbefore)

lemma setMember_of_not_mem {key : String} {value : Value} {members : Members}
    (fresh : key ∉ members.map Prod.fst) :
    setMember key value members = members ++ [(key, value)] := by
  induction members with
  | nil => rfl
  | cons member rest ih =>
      obtain ⟨k, v⟩ := member
      obtain ⟨other, fresh⟩ := not_or.mp (List.mem_cons.not.mp fresh)
      rw [setMember, if_neg (Ne.symm other), ih fresh, List.cons_append]

/-- Members with distinct keys are put together as they are spelled. -/
lemma ofMembers_of_nodup {members : Members} (distinct : (members.map Prod.fst).Nodup) :
    ofMembers members = members := by
  induction members using List.reverseRecOn with
  | nil => rfl
  | append_singleton members last ih =>
      obtain ⟨key, value⟩ := last
      rw [List.map_append, List.nodup_append] at distinct
      obtain ⟨distinct, -, apart⟩ := distinct
      have fresh : key ∉ members.map Prod.fst := fun hmem => apart key hmem key (by simp) rfl
      rw [ofMembers_append_singleton, ih distinct, setMember_of_not_mem fresh]

/-! ## Reading -/

/-- The objects in a part have distinct keys; among members that are only spelled there may still be
equal ones. -/
def Part.HasDistinctKeys : Part → Prop
  | .value v => v.HasDistinctKeys
  | .elements vs => ∀ v ∈ vs, v.HasDistinctKeys
  | .members ms => ∀ member ∈ ms, member.2.HasDistinctKeys

/-- **What is read from a text has distinct keys**: the members of an object are put together from
those that are spelled. -/
theorem Reads.hasDistinctKeys {depth : Nat} {text left : List Char} {part : Part}
    (h : Reads depth text part left) : part.HasDistinctKeys := by
  induction h with
  | word _ known _ =>
      simp only [wordValues, List.mem_cons, Prod.mk.injEq, List.not_mem_nil, or_false] at known
      obtain ⟨-, -, rfl⟩ | ⟨-, -, rfl⟩ | ⟨-, -, rfl⟩ := known <;>
        exact Value.HasDistinctKeys.scalar (by simp [Value.kind]) (by simp [Value.kind])
  | string => exact Value.HasDistinctKeys.scalar (by simp [Value.kind]) (by simp [Value.kind])
  | number => exact Value.HasDistinctKeys.scalar (by simp [Value.kind]) (by simp [Value.kind])
  | emptyArray => exact Value.HasDistinctKeys.array (by simp)
  | array _ _ ih => exact Value.HasDistinctKeys.array ih
  | emptyObject => exact Value.HasDistinctKeys.object List.nodup_nil (by simp)
  | @object _ _ _ _ spelled _ _ ih =>
      obtain ⟨distinct, origin⟩ := nodup_ofMembers spelled
      exact Value.HasDistinctKeys.object distinct fun member hmember =>
        ih member (origin member hmember)
  | lastElement _ _ ih => simpa [Part.HasDistinctKeys] using ih
  | element _ _ _ ih others => exact List.forall_mem_cons.mpr ⟨ih, others⟩
  | lastMember _ _ _ _ ih => simpa [Part.HasDistinctKeys] using ih
  | member _ _ _ _ _ ih others => exact List.forall_mem_cons.mpr ⟨ih, others⟩

/-- **Every value that is read from a text has distinct keys.** -/
theorem hasDistinctKeys_of_ofText {text : String} {value : Value}
    (h : Value.ofText text = .ok value) : value.HasDistinctKeys := by
  obtain ⟨left, hread, -⟩ := reads_of_ofText h
  exact hread.hasDistinctKeys

end AvroTypes.Json
