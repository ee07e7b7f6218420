import Mathlib.Tactic.Lemma

/-!
# Outcomes

When a step that can fail succeeds and when it fails, and what that says about the steps it is made
of.

Two runs are compared by their outcomes: `Agree` says that both succeed or both fail, with related
results or for related reasons, and is kept by going on in related ways (`Agree.bind`).
-/

namespace AvroTypes

lemma bind_eq_ok_iff {ε α β : Type} {outcome : Except ε α} {next : α → Except ε β} {b : β} :
    (outcome >>= next) = .ok b ↔ ∃ a, outcome = .ok a ∧ next a = .ok b := by
  cases outcome <;> simp [bind, Except.bind]

lemma bind_eq_error_iff {ε α β : Type} {outcome : Except ε α} {next : α → Except ε β} {e : ε} :
    (outcome >>= next) = .error e ↔
      outcome = .error e ∨ ∃ a, outcome = .ok a ∧ next a = .error e := by
  cases outcome <;> simp [bind, Except.bind]

/-- What two steps are put together from fails only if one of them does. -/
lemma eq_error_of_two_steps {ε α β γ : Type} {first : Except ε α} {second : Except ε β}
    {combine : α → β → γ} {e : ε}
    (h : (do let a ← first; let b ← second; return combine a b) = .error e) :
    first = .error e ∨ second = .error e := by
  rcases bind_eq_error_iff.mp h with failed | ⟨a, -, rest⟩
  · exact .inl failed
  · rcases bind_eq_error_iff.mp rest with failed | ⟨b, -, result⟩
    · exact .inr failed
    · cases result

lemma map_eq_error_iff {ε α β : Type} {outcome : Except ε α} {change : α → β} {e : ε} :
    change <$> outcome = .error e ↔ outcome = .error e := by
  cases outcome <;> simp [Functor.map, Except.map]

lemma mapError_eq_ok_iff {ε ε' α : Type} {outcome : Except ε α} {change : ε → ε'} {a : α} :
    outcome.mapError change = .ok a ↔ outcome = .ok a := by
  cases outcome with
  | ok _ =>
      constructor <;> intro h
      · exact congrArg Except.ok (Except.ok.inj h)
      · exact congrArg Except.ok (Except.ok.inj h)
  | error _ => exact iff_of_false nofun nofun

lemma mapError_eq_error_iff {ε ε' α : Type} {outcome : Except ε α} {change : ε → ε'} {e : ε'} :
    outcome.mapError change = .error e ↔ ∃ own, outcome = .error own ∧ e = change own := by
  cases outcome with
  | ok _ => exact iff_of_false nofun nofun
  | error own =>
      constructor
      · intro h
        exact ⟨own, rfl, (Except.error.inj h).symm⟩
      · rintro ⟨_, h, rfl⟩
        obtain rfl := Except.error.inj h
        rfl

/-- A list of steps none of which fails. -/
lemma mapM_eq_some_map {α β : Type} {f : α → Option β} {g : α → β} {list : List α}
    (h : ∀ x ∈ list, f x = some (g x)) : list.mapM f = some (list.map g) := by
  induction list with
  | nil => rfl
  | cons first rest ih =>
      obtain ⟨hfirst, hrest⟩ := List.forall_mem_cons.mp h
      rw [List.mapM_cons, hfirst, ih hrest]
      rfl

/-- A list of steps whose results tell what they were made of. -/
lemma map_eq_of_mapM {α β : Type} {f : α → Option β} {g : β → α} {list : List α}
    {results : List β} (tells : ∀ x ∈ list, ∀ y, f x = some y → g y = x)
    (h : list.mapM f = some results) : results.map g = list := by
  induction list generalizing results with
  | nil =>
      obtain rfl := Option.some.inj h
      rfl
  | cons first rest ih =>
      obtain ⟨hfirst, hrest⟩ := List.forall_mem_cons.mp tells
      rw [List.mapM_cons] at h
      obtain ⟨result, hresult, h⟩ := Option.bind_eq_some_iff.mp h
      obtain ⟨others, hothers, h⟩ := Option.bind_eq_some_iff.mp h
      obtain rfl := Option.some.inj h
      rw [List.map_cons, hfirst _ hresult, ih hrest hothers]

/-! ## Two outcomes -/

/-- **Two outcomes agree**: both are successes with related results, or failures for related
reasons. -/
inductive Agree {ε ε' α α' : Type} (reasons : ε → ε' → Prop) (results : α → α' → Prop) :
    Except ε α → Except ε' α' → Prop
  | ok {a : α} {a' : α'} (related : results a a') : Agree reasons results (.ok a) (.ok a')
  | error {e : ε} {e' : ε'} (related : reasons e e') :
      Agree reasons results (.error e) (.error e')

section

variable {ε ε' α α' β β' : Type} {reasons : ε → ε' → Prop} {results : α → α' → Prop}
  {results' : β → β' → Prop} {outcome : Except ε α} {outcome' : Except ε' α'}

/-- What agrees goes on to agree. -/
lemma Agree.bind {next : α → Except ε β} {next' : α' → Except ε' β'}
    (h : Agree reasons results outcome outcome')
    (further : ∀ {a a'}, outcome = .ok a → outcome' = .ok a' → results a a' →
      Agree reasons results' (next a) (next' a')) :
    Agree reasons results' (outcome >>= next) (outcome' >>= next') := by
  cases h with
  | ok related => exact further rfl rfl related
  | error related => exact .error related

lemma Agree.map {change : α → β} {change' : α' → β'}
    (h : Agree reasons results outcome outcome')
    (keeps : ∀ a a', results a a' → results' (change a) (change' a')) :
    Agree reasons results' (change <$> outcome) (change' <$> outcome') := by
  cases h with
  | ok related => exact .ok (keeps _ _ related)
  | error related => exact .error related

lemma Agree.mapError {δ δ' : Type} {reasons' : δ → δ' → Prop} {change : ε → δ}
    {change' : ε' → δ'} (h : Agree reasons results outcome outcome')
    (keeps : ∀ e e', reasons e e' → reasons' (change e) (change' e')) :
    Agree reasons' results (outcome.mapError change) (outcome'.mapError change') := by
  cases h with
  | ok related => exact .ok related
  | error related => exact .error (keeps _ _ related)

lemma Agree.mono {results' : α → α' → Prop} (h : Agree reasons results outcome outcome')
    (imp : ∀ a a', results a a' → results' a a') : Agree reasons results' outcome outcome' := by
  cases h with
  | ok related => exact .ok (imp _ _ related)
  | error related => exact .error related

end

end AvroTypes
