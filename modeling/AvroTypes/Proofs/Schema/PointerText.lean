import AvroTypes.Proofs.Json.Numerals
import AvroTypes.Proofs.Outcome
import AvroTypes.Schema.Fault
import Mathlib.Data.List.Basic

/-!
# Reading a pointer back

A JSON pointer is read by taking it apart at its slashes and undoing the escapes in each token:
first every `~1` becomes a slash, then every `~0` a tilde.  The order matters, as the other one
would turn `~01` into a slash.  What a token means depends on where it is used: in an object it is a
key, in an array an index, in decimal digits without leading zeros.

The text of a place is read back as the names of its steps, and leads to where the steps lead.

* `readToken?`, `readPointer?` — reading, as RFC 6901 has it.
* `Json.Value.child?`, `Json.Value.select?` — what a pointer selects in a document.
* `readPointer?_chars` — **the text of a place is read back as its steps.**
* `Pointer.Selects` — what the steps of a place lead to.
* `Pointer.Selects.select?_eq` — **the text of a place selects what its steps lead to.**
-/

namespace AvroTypes

open AvroTypes.Json (Value Members lookup? digitsValue)

namespace Schema

/-! ## Tokens -/

/-- Puts a character in the place of every tilde that a code follows. -/
def undoEscape (code char : Char) : List Char → List Char
  | [] => []
  | [last] => [last]
  | first :: second :: rest =>
    if first = '~' ∧ second = code then char :: undoEscape code char rest
    else first :: undoEscape code char (second :: rest)

/-- Each tilde of a token is followed by a zero or a one. -/
def isToken : List Char → Bool
  | [] => true
  | '~' :: code :: rest => (code = '0' || code = '1') && isToken rest
  | c :: rest => c != '~' && isToken rest

/-- **What a token says**, once its escapes are undone. -/
def readToken? (token : List Char) : Option (List Char) :=
  if isToken token then some (undoEscape '0' '~' (undoEscape '1' '/' token)) else none

/-- **What a pointer says**: nothing, or behind each slash a token. -/
def readPointer? : List Char → Option (List (List Char))
  | [] => some []
  | '/' :: rest => (rest.splitOn '/').mapM readToken?
  | _ => none

/-- What is to be read back of a step: its key, or the digits of its index. -/
def Step.name : Step → List Char
  | key name => name.toList
  | index i => Nat.toDigits 10 i

lemma undoEscape_cons {code char first : Char} (h : first ≠ '~') (rest : List Char) :
    undoEscape code char (first :: rest) = first :: undoEscape code char rest := by
  cases rest with
  | nil => rfl
  | cons second rest => rw [undoEscape, if_neg fun same => h same.1]

lemma isToken_cons {c : Char} (h : c ≠ '~') (rest : List Char) :
    isToken (c :: rest) = isToken rest := by
  rw [isToken]
  · simp [h]
  · exact fun _ _ tilde _ => h tilde

/-- Undoing the escapes of slashes leaves those of tildes. -/
lemma undoEscape_slash (name : List Char) :
    undoEscape '1' '/' (name.flatMap escapeTokenChar) =
      name.flatMap fun c => if c = '~' then ['~', '0'] else [c] := by
  induction name with
  | nil => rfl
  | cons c rest ih =>
      rw [List.flatMap_cons, List.flatMap_cons, escapeTokenChar, ← ih]
      split_ifs with tilde slash
      · exact congrArg ('~' :: ·) (undoEscape_cons (by decide) _)
      · rw [slash]
        rfl
      · exact undoEscape_cons tilde _

lemma undoEscape_tilde (name : List Char) :
    undoEscape '0' '~' (name.flatMap fun c => if c = '~' then ['~', '0'] else [c]) = name := by
  induction name with
  | nil => rfl
  | cons c rest ih =>
      rw [List.flatMap_cons]
      split_ifs with tilde
      · rw [tilde]
        exact congrArg ('~' :: ·) ih
      · rw [List.singleton_append, undoEscape_cons tilde, ih]

lemma isToken_escape (name : List Char) : isToken (name.flatMap escapeTokenChar) = true := by
  induction name with
  | nil => rfl
  | cons c rest ih =>
      rw [List.flatMap_cons, escapeTokenChar]
      split_ifs with tilde slash
      · exact ih
      · exact ih
      · rwa [List.singleton_append, isToken_cons tilde]

/-- **An escaped name is read back.** -/
lemma readToken?_escape (name : List Char) :
    readToken? (name.flatMap escapeTokenChar) = some name := by
  rw [readToken?, if_pos (isToken_escape name), undoEscape_slash, undoEscape_tilde]

lemma escape_of_isDigit {digits : List Char} (h : ∀ c ∈ digits, c.isDigit = true) :
    digits.flatMap escapeTokenChar = digits := by
  refine (List.flatMap_congr fun c hc => ?_).trans (List.flatMap_singleton' digits)
  have tilde : c ≠ '~' := by
    rintro rfl
    exact absurd (h _ hc) (by decide)
  have slash : c ≠ '/' := by
    rintro rfl
    exact absurd (h _ hc) (by decide)
  rw [escapeTokenChar, if_neg tilde, if_neg slash]

/-- A token is its name, escaped; the digits of an index need no escapes. -/
lemma Step.token_eq (step : Step) : step.token = step.name.flatMap escapeTokenChar := by
  cases step with
  | key name => rfl
  | index i => exact (escape_of_isDigit (Json.isDecimal_toDigits i).all).symm

lemma Step.slash_not_mem_token (step : Step) : '/' ∉ step.token := by
  rw [step.token_eq, List.mem_flatMap]
  rintro ⟨c, -, hc⟩
  rw [escapeTokenChar] at hc
  split_ifs at hc with tilde slash
  · simp at hc
  · simp at hc
  · exact slash (List.mem_singleton.mp hc).symm

/-! ## Pointers -/

lemma Pointer.text_eq (place : Pointer) :
    place.text = "#" ++ String.ofList (Pointer.chars place) := by
  apply String.toList_injective
  simp [Pointer.text]

lemma Pointer.chars_append (place further : Pointer) :
    Pointer.chars (place ++ further) = Pointer.chars place ++ Pointer.chars further :=
  List.flatMap_append

/-- The tokens of a pointer are apart from each other by slashes, and one stands before them. -/
lemma Pointer.chars_eq_intercalate (first : Step) (rest : Pointer) :
    Pointer.chars (first :: rest) =
      '/' :: ['/'].intercalate ((first :: rest).map Step.token) := by
  induction rest generalizing first with
  | nil => simp [Pointer.chars]
  | cons second rest ih =>
      rw [List.map_cons, List.map_cons, List.intercalate_cons_cons, List.append_assoc,
        List.singleton_append, ← List.map_cons, ← ih second]
      rfl

/-- Taking a text apart at its slashes finds the tokens. -/
lemma splitOn_chars (first : Step) (rest : Pointer) :
    (first.token ++ Pointer.chars rest).splitOn '/' = (first :: rest).map Step.token := by
  have joined : first.token ++ Pointer.chars rest =
      ['/'].intercalate ((first :: rest).map Step.token) :=
    (List.cons.inj (Pointer.chars_eq_intercalate first rest)).2
  rw [joined]
  refine List.splitOn_intercalate '/' ?_ (List.cons_ne_nil _ _)
  exact List.forall_mem_map.mpr fun step _ => step.slash_not_mem_token

/-- **The text of a place is read back as the names of its steps.** -/
theorem readPointer?_chars (place : Pointer) :
    readPointer? (Pointer.chars place) = some (place.map Step.name) := by
  cases place with
  | nil => rfl
  | cons first rest =>
      have read : ∀ step : Step, readToken? step.token = some step.name := fun step => by
        rw [step.token_eq, readToken?_escape]
      calc readPointer? (Pointer.chars (first :: rest))
          = ((first.token ++ Pointer.chars rest).splitOn '/').mapM readToken? := rfl
        _ = ((first :: rest).map Step.token).mapM readToken? := by rw [splitOn_chars]
        _ = (first :: rest).mapM (readToken? ∘ Step.token) := List.mapM_map
        _ = some ((first :: rest).map Step.name) := mapM_eq_some_map fun step _ => read step

end Schema

/-! ## What a pointer selects -/

/-- The index that a token spells: zero, or digits without a leading zero. -/
def Schema.indexOf? (token : List Char) : Option Nat :=
  if token = ['0'] ∨ token.head? ≠ some '0' ∧ token ≠ [] ∧ token.all Char.isDigit then
    some (digitsValue token)
  else none

/-- The part of a value that a token selects: the member under a key, or the element at an index. -/
def Json.Value.child? (value : Value) (token : List Char) : Option Value :=
  match value with
  | .object members => lookup? members (String.ofList token)
  | .array elements => (Schema.indexOf? token).bind (elements[·]?)
  | _ => none

/-- **The node of a document that a pointer selects**: token by token, from the document on. -/
def Json.Value.select? (document : Value) (pointer : String) : Option Value :=
  (Schema.readPointer? pointer.toList).bind fun tokens => tokens.foldlM Value.child? document

namespace Schema

lemma indexOf?_toDigits (i : Nat) : indexOf? (Nat.toDigits 10 i) = some i := by
  have decimal := Json.isDecimal_toDigits i
  rw [indexOf?, if_pos, Json.digitsValue_toDigits]
  rcases Nat.eq_zero_or_pos i with rfl | pos
  · exact .inl (Nat.toDigits_zero 10)
  · exact .inr ⟨Json.head?_toDigits_ne_zero i pos, decimal.nonempty,
      List.all_eq_true.mpr decimal.all⟩

/-- **What the steps of a place lead to**: through the members and elements that are there. -/
inductive Pointer.Selects : Pointer → Value → Value → Prop
  | here {value : Value} : Selects [] value value
  | member {key : String} {members : Members} {value node : Value} {rest : Pointer}
      (found : lookup? members key = some value) (further : Selects rest value node) :
      Selects (.key key :: rest) (.object members) node
  | element {i : Nat} {elements : List Value} {value node : Value} {rest : Pointer}
      (found : elements[i]? = some value) (further : Selects rest value node) :
      Selects (.index i :: rest) (.array elements) node

lemma Pointer.Selects.foldlM_child? {place : Pointer} {value node : Value}
    (h : place.Selects value node) :
    (place.map Step.name).foldlM Value.child? value = some node := by
  induction h with
  | here => rfl
  | member found _ ih =>
      rw [List.map_cons, List.foldlM_cons, Value.child?, Step.name, String.ofList_toList, found]
      exact ih
  | element found _ ih =>
      rw [List.map_cons, List.foldlM_cons, Value.child?, Step.name, indexOf?_toDigits,
        Option.bind_some, found]
      exact ih

/-- **The text of a place, without its number sign, selects what the steps lead to.** -/
theorem Pointer.Selects.select?_eq {place : Pointer} {value node : Value}
    (h : place.Selects value node) :
    ∃ pointer, Pointer.text place = "#" ++ pointer ∧ value.select? pointer = some node := by
  refine ⟨String.ofList (Pointer.chars place), place.text_eq, ?_⟩
  rw [Value.select?, String.toList_ofList, readPointer?_chars, Option.bind_some,
    h.foldlM_child?]

end Schema

end AvroTypes
