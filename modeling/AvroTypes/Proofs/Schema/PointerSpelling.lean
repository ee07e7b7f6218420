import AvroTypes.Proofs.Schema.PointerText
import AvroTypes.Proofs.Text.Lines

/-!
# The spelling of a place

A key may hold any characters, tildes and slashes among them.  A tilde is escaped itself, so a key
such as `~1` is told from a slash that was escaped, and an empty key is an empty token behind its
slash.  So the text of a place tells the labels of its steps, and no other text tells the same.
What it does not tell is the kind of a step: the key `2` and the index 2 have the same label.

* `Step.label`, `readText?` — what is written of a step, and what is read in a text.
* `escape_undoEscape` — a token is its name, escaped.
* `readPointer?_eq_some_iff`, `readText?_eq_some_iff` — **the labels of a place are read in its text
  and in no other.**
* `Pointer.text_faithful` — **texts tell places apart by their labels, and going on from a place
  keeps what is written of it.**
-/

namespace AvroTypes.Schema

/-- The label of a step: its key, or its index in decimal digits. -/
def Step.label : Step → String
  | key name => name
  | index i => toString i

/-- **What is read in a text**: behind a number sign, what the tokens of a pointer say. -/
def readText? (text : String) : Option (List String) :=
  match text.toList with
  | '#' :: pointer => (readPointer? pointer).map fun names => names.map String.ofList
  | _ => none

/-! ## One spelling for a name -/

/-- **A token is its name, escaped**: where no slash stands, and a code behind each tilde, nothing
is lost by undoing the escapes. -/
lemma escape_undoEscape {token : List Char} (h : isToken token = true) (slash : '/' ∉ token) :
    (undoEscape '0' '~' (undoEscape '1' '/' token)).flatMap escapeTokenChar = token := by
  induction token using isToken.induct with
  | case1 => rfl
  | case2 code rest ih =>
      rw [isToken, Bool.and_eq_true, Bool.or_eq_true, decide_eq_true_eq, decide_eq_true_eq] at h
      have kept := ih h.2 fun inside =>
        slash (List.mem_cons_of_mem _ (List.mem_cons_of_mem _ inside))
      rcases h.1 with rfl | rfl
      · -- The first pass goes past the tilde and its code, the second one takes both.
        have undone : undoEscape '1' '/' ('~' :: '0' :: rest) =
            '~' :: '0' :: undoEscape '1' '/' rest :=
          congrArg ('~' :: ·) (undoEscape_cons (by decide) rest)
        rw [undone]
        exact congrArg (['~', '0'] ++ ·) kept
      · -- The first pass leaves a slash, which the second one goes past.
        have undone : undoEscape '0' '~' (undoEscape '1' '/' ('~' :: '1' :: rest)) =
            '/' :: undoEscape '0' '~' (undoEscape '1' '/' rest) :=
          undoEscape_cons (by decide) _
        rw [undone]
        exact congrArg (['~', '1'] ++ ·) kept
  | case3 c rest other ih =>
      have tilde : c ≠ '~' := by
        rintro rfl
        cases rest with
        | nil => simp [isToken] at h
        | cons code rest => exact other code rest rfl rfl
      have plain : escapeTokenChar c = [c] := by
        rw [escapeTokenChar, if_neg tilde, if_neg]
        rintro rfl
        exact slash List.mem_cons_self
      rw [isToken_cons tilde] at h
      rw [undoEscape_cons tilde, undoEscape_cons tilde, List.flatMap_cons, plain,
        ih h fun inside => slash (List.mem_cons_of_mem _ inside), List.singleton_append]

lemma escape_of_readToken? {token name : List Char} (slash : '/' ∉ token)
    (h : readToken? token = some name) : name.flatMap escapeTokenChar = token := by
  rw [readToken?] at h
  split_ifs at h with valid
  obtain rfl := Option.some.inj h
  exact escape_undoEscape valid slash

/-! ## One spelling for a place -/

/-- **The names of a place are read in its pointer and in no other.** -/
theorem readPointer?_eq_some_iff {pointer : List Char} {place : Pointer} :
    readPointer? pointer = some (place.map Step.name) ↔ pointer = Pointer.chars place := by
  constructor
  · intro h
    rw [readPointer?.eq_def] at h
    split at h
    · obtain rfl : place = [] := List.map_eq_nil_iff.mp (Option.some.inj h).symm
      rfl
    · rename_i rest
      have tokens : place.map Step.token = rest.splitOn '/' := by
        rw [← map_eq_of_mapM (fun token htoken _ =>
          escape_of_readToken? (Text.mem_of_mem_splitOn htoken).1) h, List.map_map]
        exact List.map_congr_left fun step _ => step.token_eq
      cases place with
      | nil => exact absurd tokens.symm (List.splitOn_ne_nil '/' rest)
      | cons first more =>
          rw [Pointer.chars_eq_intercalate, tokens, List.intercalate_splitOn]
    · cases h
  · rintro rfl
    exact readPointer?_chars place

lemma Step.ofList_name (step : Step) : String.ofList step.name = step.label := by
  cases step with
  | key name => exact String.ofList_toList
  | index i => rfl

/-- **The labels of a place are read in its text and in no other.** -/
theorem readText?_eq_some_iff {text : String} {place : Pointer} :
    readText? text = some (place.map Step.label) ↔ text = place.text := by
  have labels : (place.map Step.name).map String.ofList = place.map Step.label := by
    rw [List.map_map]
    exact List.map_congr_left fun step _ => step.ofList_name
  constructor
  · intro h
    rw [readText?] at h
    split at h
    · rename_i pointer htext
      obtain ⟨names, hnames, same⟩ := Option.map_eq_some_iff.mp h
      rw [← labels, List.map_inj_right fun _ _ => String.ofList_injective] at same
      subst same
      apply String.toList_injective
      rw [htext, readPointer?_eq_some_iff.mp hnames, Pointer.text, String.toList_ofList]
    · cases h
  · rintro rfl
    rw [readText?, Pointer.text, String.toList_ofList, ← labels]
    exact congrArg (Option.map _) (readPointer?_chars place)

/-- **The text of a place is read back as the labels of its steps**: the keys, whatever characters
they hold, and the indices in decimal digits.  Two places are written alike exactly when their
labels agree one by one.  Going on from a place adds what is written of the further steps, and
keeps the labels that were there. -/
theorem Pointer.text_faithful (place : Pointer) :
    readText? place.text = some (place.map Step.label) ∧
      (∀ other : Pointer, other.text = place.text ↔
        other.map Step.label = place.map Step.label) ∧
      ∀ further : Pointer, ∃ added, further.text = "#" ++ added ∧
        Pointer.text (place ++ further) = place.text ++ added ∧
        readText? (Pointer.text (place ++ further)) =
          (readText? place.text).map (· ++ further.map Step.label) := by
  have read (place : Pointer) : readText? place.text = some (place.map Step.label) :=
    readText?_eq_some_iff.mpr rfl
  refine ⟨read place, fun other => ?_, fun further => ?_⟩
  · rw [← readText?_eq_some_iff, read other, Option.some_inj]
  · refine ⟨String.ofList (Pointer.chars further), further.text_eq, ?_, ?_⟩
    · rw [Pointer.text_eq, Pointer.text_eq, Pointer.chars_append, String.ofList_append,
        String.append_assoc]
    · rw [read, read, Option.map_some, List.map_append]

example : Pointer.text [.key "~1", .key "", .key "/~01", .index 10] = "#/~01//~1~001/10" := by
  decide +kernel

end AvroTypes.Schema
