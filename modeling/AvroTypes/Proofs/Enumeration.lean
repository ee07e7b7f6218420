import Mathlib.Data.List.Lex
import Mathlib.Data.List.Pairwise
import Mathlib.Tactic.Lemma
import Mathlib.Tactic.SplitIfs

/-!
# Enumerations

A list enumerates a relation between ranks and things if it has every thing that holds at a rank,
once for each of its ranks, in the order of the ranks.  A rank is a list of numbers, compared from
the left, and comes before the longer ones that begin with it.  So the rank of a part is that of
the whole with something behind it, and the parts of a whole come after it and next to each other.

A list that is put together from parts enumerates what the parts do, and each way of putting lists
together has its lemma: one after the other (`Enumerates.append`), behind a number
(`Enumerates.under`), one for each element of a list (`Enumerates.flatMap`), changed
(`Enumerates.map`) and thinned out (`Enumerates.filter`).
-/

namespace AvroTypes

/-- Where something stands, as numbers that are compared from the left. -/
abbrev Rank := List Nat

/-- **A list enumerates what holds at ranks**: what holds can be written down by strictly increasing
ranks, and the list is what is written there. -/
def Enumerates {α : Type} (holds : Rank → α → Prop) (list : List α) : Prop :=
  ∃ entries : List (Rank × α), (∀ rank a, (rank, a) ∈ entries ↔ holds rank a) ∧
    entries.Pairwise (fun first second => first.1 < second.1) ∧ entries.map Prod.snd = list

lemma pairwise_zipIdx {α : Type} (list : List α) :
    list.zipIdx.Pairwise fun first second => first.2 < second.2 := by
  rw [← List.pairwise_map (f := Prod.snd), List.zipIdx_map_snd]
  exact List.pairwise_lt_range'

namespace Enumerates

variable {α β : Type} {holds holds' : Rank → α → Prop} {list list' : List α}

lemma congr (h : Enumerates holds list) (same : ∀ rank a, holds rank a ↔ holds' rank a) :
    Enumerates holds' list := by
  obtain ⟨entries, mem, ordered, rfl⟩ := h
  exact ⟨entries, fun rank a => (mem rank a).trans (same rank a), ordered, rfl⟩

lemma of_false (nothing : ∀ rank a, ¬ holds rank a) : Enumerates holds [] :=
  ⟨[], by simp [nothing], .nil, rfl⟩

/-- One thing, at no depth. -/
lemma singleton (a : α) : Enumerates (fun rank other => rank = [] ∧ other = a) [a] :=
  ⟨[([], a)], by simp, List.pairwise_singleton _ _, rfl⟩

/-- What depends on a condition. -/
lemma ite (condition : Prop) [Decidable condition] (h : condition → Enumerates holds list) :
    Enumerates (fun rank a => condition ∧ holds rank a) (if condition then list else []) := by
  split_ifs with hcondition
  · exact (h hcondition).congr fun rank a => by simp [hcondition]
  · exact of_false fun rank a => by simp [hcondition]

/-- One list after another, if all ranks of the first come before those of the second. -/
lemma append (h : Enumerates holds list) (h' : Enumerates holds' list')
    (apart : ∀ rank a rank' a', holds rank a → holds' rank' a' → rank < rank') :
    Enumerates (fun rank a => holds rank a ∨ holds' rank a) (list ++ list') := by
  obtain ⟨entries, mem, ordered, rfl⟩ := h
  obtain ⟨entries', mem', ordered', rfl⟩ := h'
  refine ⟨entries ++ entries', fun rank a => by rw [List.mem_append, mem, mem'],
    List.pairwise_append.mpr ⟨ordered, ordered', ?_⟩, List.map_append⟩
  rintro ⟨rank, a⟩ hentry ⟨rank', a'⟩ hentry'
  exact apart rank a rank' a' ((mem rank a).mp hentry) ((mem' rank' a').mp hentry')

/-- Behind a number nothing changes. -/
lemma under (n : Nat) (h : Enumerates holds list) :
    Enumerates (fun rank a => ∃ rest, rank = n :: rest ∧ holds rest a) list := by
  obtain ⟨entries, mem, ordered, rfl⟩ := h
  refine ⟨entries.map fun entry => (n :: entry.1, entry.2), fun rank a => ?_,
    List.pairwise_map.mpr (ordered.imp fun less => List.cons_lt_cons_iff.mpr (.inr ⟨rfl, less⟩)),
    by simp [Function.comp_def]⟩
  simp only [List.mem_map, Prod.exists, Prod.mk.injEq, mem]
  constructor
  · rintro ⟨rest, _, h, rfl, rfl⟩
    exact ⟨rest, rfl, h⟩
  · rintro ⟨rest, rfl, h⟩
    exact ⟨rest, a, h, rfl, rfl⟩

/-- One list after another, behind a number that is smaller than those the other has in front. -/
lemma under_append (n : Nat) (h : Enumerates holds list) (h' : Enumerates holds' list')
    (above : ∀ rank a, holds' rank a → ∃ m rest, n < m ∧ rank = m :: rest) :
    Enumerates (fun rank a => (∃ rest, rank = n :: rest ∧ holds rest a) ∨ holds' rank a)
      (list ++ list') := by
  refine (h.under n).append h' ?_
  rintro _ a rank' a' ⟨rest, rfl, -⟩ holds
  obtain ⟨m, rest', less, rfl⟩ := above rank' a' holds
  exact List.cons_lt_cons_iff.mpr (.inl less)

/-- The things are changed and the ranks are not. -/
lemma map (change : α → β) (h : Enumerates holds list) :
    Enumerates (fun rank b => ∃ a, holds rank a ∧ b = change a) (list.map change) := by
  obtain ⟨entries, mem, ordered, rfl⟩ := h
  refine ⟨entries.map fun entry => (entry.1, change entry.2), fun rank b => ?_,
    List.pairwise_map.mpr ordered, by simp [Function.comp_def]⟩
  simp only [List.mem_map, Prod.exists, Prod.mk.injEq, mem]
  constructor
  · rintro ⟨_, a, h, rfl, rfl⟩
    exact ⟨a, h, rfl⟩
  · rintro ⟨a, h, rfl⟩
    exact ⟨rank, a, h, rfl, rfl⟩

/-- What is left out leaves no gap. -/
lemma filter (keep : α → Bool) (h : Enumerates holds list) :
    Enumerates (fun rank a => holds rank a ∧ keep a = true) (list.filter keep) := by
  obtain ⟨entries, mem, ordered, rfl⟩ := h
  refine ⟨entries.filter fun entry => keep entry.2, fun rank a => ?_, ordered.filter _, ?_⟩
  · rw [List.mem_filter, mem]
  · rw [List.filter_map]
    rfl

/-- One list for each element of another, behind a number that the element has. -/
lemma flatMap_keyed {elements : List β} {key : β → Nat} {part : β → List α}
    {inside : β → Rank → α → Prop}
    (ordered : elements.Pairwise fun first second => key first < key second)
    (each : ∀ element ∈ elements, Enumerates (inside element) (part element)) :
    Enumerates (fun rank a => ∃ element ∈ elements, ∃ rest, rank = key element :: rest ∧
      inside element rest a) (elements.flatMap part) := by
  induction elements with
  | nil => exact of_false (by simp)
  | cons first others ih =>
      obtain ⟨before, ordered⟩ := List.pairwise_cons.mp ordered
      have here := (each first List.mem_cons_self).under (key first)
      have further := ih ordered fun element helement =>
        each element (List.mem_cons_of_mem _ helement)
      refine (here.append further ?_).congr fun rank a => by simp
      rintro rank a rank' a' ⟨rest, rfl, -⟩ ⟨element, helement, rest', rfl, -⟩
      exact List.cons_lt_cons_iff.mpr (.inl (before element helement))

/-- One list for each element of another, behind the index of the element. -/
lemma flatMap {elements : List β} {part : β → List α} {inside : β → Rank → α → Prop}
    (each : ∀ element ∈ elements, Enumerates (inside element) (part element)) :
    Enumerates (fun rank a => ∃ i element rest, elements[i]? = some element ∧
      rank = i :: rest ∧ inside element rest a) (elements.flatMap part) := by
  have keyed : Enumerates _ (elements.zipIdx.flatMap fun element => part element.1) :=
    flatMap_keyed (pairwise_zipIdx elements) fun element helement =>
      each element.1 (List.fst_mem_of_mem_zipIdx helement)
  have parts : elements.zipIdx.flatMap (fun element => part element.1) = elements.flatMap part := by
    rw [← List.flatMap_map, List.zipIdx_map_fst]
  refine (parts ▸ keyed).congr fun rank a => ?_
  simp only [Prod.exists, List.mem_zipIdx_iff_getElem?]
  constructor
  · rintro ⟨element, i, found, rest, rfl, h⟩
    exact ⟨i, element, rest, found, rfl, h⟩
  · rintro ⟨i, element, rest, found, rfl, h⟩
    exact ⟨element, i, found, rest, rfl, h⟩

/-- A list enumerates its elements, each at its index. -/
lemma indexed (elements : List α) :
    Enumerates (fun rank a => ∃ i, elements[i]? = some a ∧ rank = [i]) elements := by
  have parts : Enumerates _ (elements.flatMap fun element => [element]) :=
    flatMap fun element _ => singleton element
  rw [List.flatMap_singleton'] at parts
  refine parts.congr fun rank a => ⟨?_, ?_⟩
  · rintro ⟨i, _, _, found, rfl, rfl, rfl⟩
    exact ⟨i, found, rfl⟩
  · rintro ⟨i, found, rfl⟩
    exact ⟨i, a, [], found, rfl, rfl, rfl⟩

/-- What holds at some rank is in the list. -/
lemma mem (h : Enumerates holds list) {rank : Rank} {a : α} (here : holds rank a) : a ∈ list := by
  obtain ⟨entries, mem, -, rfl⟩ := h
  exact List.mem_map_of_mem ((mem rank a).mpr here)

/-- What is in the list holds at some rank. -/
lemma exists_rank (h : Enumerates holds list) {a : α} (ha : a ∈ list) : ∃ rank, holds rank a := by
  obtain ⟨entries, mem, -, rfl⟩ := h
  obtain ⟨⟨rank, _⟩, hentry, rfl⟩ := List.mem_map.mp ha
  exact ⟨rank, (mem rank _).mp hentry⟩

/-- Where everything holds at one rank, there is one thing. -/
lemma eq_singleton (h : Enumerates holds list) {rank : Rank} {a : α} (here : holds rank a)
    (only : ∀ rank' a', holds rank' a' → rank' = rank) : list = [a] := by
  obtain ⟨entries, mem, ordered, rfl⟩ := h
  have hentry := (mem rank a).mpr here
  have same : ∀ entry ∈ entries, entry.1 = rank := fun entry hmem =>
    only entry.1 entry.2 ((mem entry.1 entry.2).mp hmem)
  cases ordered with
  | nil => simp at hentry
  | @cons first rest later _ =>
      have nothing : rest = [] := List.eq_nil_iff_forall_not_mem.mpr fun entry hmem => by
        have less := later entry hmem
        rw [same first List.mem_cons_self, same entry (List.mem_cons_of_mem _ hmem)] at less
        exact lt_irrefl rank less
      subst nothing
      obtain rfl := List.mem_singleton.mp hentry
      rfl

/-- A list is empty exactly if there is nothing to enumerate. -/
lemma eq_nil_iff (h : Enumerates holds list) : list = [] ↔ ∀ rank a, ¬ holds rank a := by
  obtain ⟨entries, mem, -, rfl⟩ := h
  rw [List.map_eq_nil_iff, List.eq_nil_iff_forall_not_mem, Prod.forall]
  simp only [mem]

end Enumerates

end AvroTypes
