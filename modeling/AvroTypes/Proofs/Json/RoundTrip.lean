import AvroTypes.Proofs.Json.DistinctKeys
import AvroTypes.Proofs.Json.Numerals

/-!
# Reading what has been printed

A value is printed so that the readers find it again, provided that its numbers are integers that
fit, that its objects have distinct keys, and that it does not nest deeper than a text may.  Exactly
such values come out of a text whose numbers are all plain, so printing and reading them again
changes nothing.

Fuel is counted in characters: two for each character of the printed value are enough.

* `Value.Plain` — **the values that printing keeps.**
* `Reads.plain`, `plain_of_ofText` — the values of a text whose numbers are plain.
* `readChars_flatMap_printChar`, `readValue_print` — strings and values are found again.
* `ofText_print` — **reading what has been printed yields the value.**
-/

namespace AvroTypes.Json

/-! ## The values that printing keeps -/

/-- **A value that printing keeps**, with a number of brackets that may still be opened: every
number is an integer that fits, no object has a key twice, and it does not nest too deep. -/
inductive Value.Plain : Nat → Value → Prop
  | null {depth : Nat} : Plain depth .null
  | bool {depth : Nat} (b : Bool) : Plain depth (.bool b)
  | integer {depth : Nat} {n : Int} (fits : FitsInteger n) : Plain depth (.number (.integer n))
  | string {depth : Nat} (s : String) : Plain depth (.string s)
  | array {depth : Nat} {elements : List Value} (each : ∀ element ∈ elements, Plain depth element) :
      Plain (depth + 1) (.array elements)
  | object {depth : Nat} {members : Members} (distinct : (members.map Prod.fst).Nodup)
      (each : ∀ member ∈ members, Plain depth member.2) : Plain (depth + 1) (.object members)

/-- More brackets do no harm. -/
lemma Value.Plain.succ {depth : Nat} {value : Value} (h : value.Plain depth) :
    value.Plain (depth + 1) := by
  induction h with
  | null => exact .null
  | bool b => exact .bool b
  | integer fits => exact .integer fits
  | string s => exact .string s
  | array _ ih => exact .array ih
  | object distinct _ ih => exact .object distinct ih

/-- What an array holds is kept too. -/
lemma Value.Plain.of_mem_array {depth : Nat} {elements : List Value}
    (h : (Value.array elements).Plain depth) {element : Value} (hmem : element ∈ elements) :
    element.Plain depth := by
  cases h with
  | array each => exact (each element hmem).succ

/-- What an object holds is kept too. -/
lemma Value.Plain.of_mem_object {depth : Nat} {members : Members}
    (h : (Value.object members).Plain depth) {member : String × Value}
    (hmem : member ∈ members) : member.2.Plain depth := by
  cases h with
  | object _ each => exact (each member hmem).succ

/-! ## Strings -/

lemma hexDigit?_digitChar : ∀ n < 16, hexDigit? (Nat.digitChar n) = some n := by decide

/-- A printed character is read as the character. -/
lemma readChars_printChar (c : Char) (text : List Char) :
    readChars (printChar c ++ text) = (readChars text).push c := by
  unfold printChar
  split_ifs with quoted backspace formFeed lineFeed carriageReturn tab control
  · rcases quoted with rfl | rfl <;> rfl
  · subst backspace; rfl
  · subst formFeed; rfl
  · subst lineFeed; rfl
  · subst carriageReturn; rfl
  · subst tab; rfl
  · have unit : hexUnit? '0' '0' (Nat.digitChar (c.toNat / 16)) (Nat.digitChar (c.toNat % 16)) =
        some c.toNat := by
      have high := hexDigit?_digitChar (c.toNat / 16) (by omega)
      have low := hexDigit?_digitChar (c.toNat % 16) (by omega)
      have zero : hexDigit? '0' = some 0 := by decide
      simp only [hexUnit?, high, low, zero, Option.bind_eq_bind, Option.bind_some]
      simp only [pure, Option.some.injEq]
      omega
    have noTrailing : isTrailingUnit c.toNat = false := by
      simp [isTrailingUnit]
      omega
    have noLeading : isLeadingUnit c.toNat = false := by
      simp [isLeadingUnit]
      omega
    simp only [List.cons_append, List.nil_append, readChars, unit, noTrailing, noLeading,
      Bool.false_eq_true, if_false, Char.ofNat_toNat]
  · obtain ⟨noQuote, noBackslash⟩ := not_or.mp quoted
    rw [List.singleton_append, readChars.eq_def]
    split
    case h_7 same =>
      obtain ⟨rfl, rfl⟩ := List.cons.inj same
      exact if_neg control
    all_goals simp_all

/-- **A printed string is read as the string**, up to its closing quote. -/
theorem readChars_flatMap_printChar (said left : List Char) :
    readChars (said.flatMap printChar ++ '"' :: left) = .ok (said, left) := by
  induction said with
  | nil => rfl
  | cons c said ih =>
      rw [List.flatMap_cons, List.append_assoc, readChars_printChar, ih]
      rfl

lemma push_eq_ok_iff {c : Char} {reading : Reading (List Char)} {said left : List Char} :
    reading.push c = .ok (said, left) ↔ ∃ rest, reading = .ok (rest, left) ∧ said = c :: rest := by
  cases reading with
  | error _ => simp [Reading.push, Except.map]
  | ok read =>
      obtain ⟨rest, end'⟩ := read
      simp only [Reading.push, Except.map, Except.ok.injEq, Prod.mk.injEq]
      constructor
      · rintro ⟨rfl, rfl⟩
        exact ⟨rest, ⟨rfl, rfl⟩, rfl⟩
      · rintro ⟨_, ⟨rfl, rfl⟩, rfl⟩
        exact ⟨rfl, rfl⟩

lemma afterString_escape (letter : Char) (left : List Char) :
    afterString ('\\' :: letter :: left) = afterString left := rfl

lemma afterString_cons {c : Char} (noQuote : c ≠ '"') (noBackslash : c ≠ '\\') (left : List Char) :
    afterString (c :: left) = afterString left := by
  rw [afterString.eq_def]
  split <;> simp_all

/-- A hexadecimal digit ends no string. -/
lemma afterString_hexDigit {c : Char} {value : Nat} (h : hexDigit? c = some value)
    (left : List Char) : afterString (c :: left) = afterString left := by
  have noQuote : hexDigit? '"' = none := by decide
  have noBackslash : hexDigit? '\\' = none := by decide
  refine afterString_cons ?_ ?_ left
  · rintro rfl
    simp [noQuote] at h
  · rintro rfl
    simp [noBackslash] at h

lemma afterString_hexUnit {a b c d : Char} {unit : Nat} (h : hexUnit? a b c d = some unit)
    (left : List Char) : afterString (a :: b :: c :: d :: left) = afterString left := by
  simp only [hexUnit?, Option.bind_eq_bind, Option.bind_eq_some_iff] at h
  obtain ⟨_, ha, _, hb, _, hc, _, hd, -⟩ := h
  rw [afterString_hexDigit ha, afterString_hexDigit hb, afterString_hexDigit hc,
    afterString_hexDigit hd]

/-- **A string ends where its reader stops**: no quote ends it that is escaped, and none is hidden
in the digits of a code. -/
lemma afterString_of_readChars {text said left : List Char}
    (h : readChars text = .ok (said, left)) : afterString text = left := by
  fun_induction readChars text generalizing said with
  | case2 => exact congrArg Prod.snd (Except.ok.inj h)
  | case6 _ _ _ _ _ leading _ _ _ _ _ _ _ _ trailing _ ih =>
      obtain ⟨rest, h, -⟩ := push_eq_ok_iff.mp h
      rw [afterString_escape, afterString_hexUnit leading, afterString_escape,
        afterString_hexUnit trailing, ih h]
  | case9 _ _ _ _ _ _ unit _ _ ih =>
      obtain ⟨rest, h, -⟩ := push_eq_ok_iff.mp h
      rw [afterString_escape, afterString_hexUnit unit, ih h]
  | case12 _ _ _ _ _ _ ih =>
      obtain ⟨rest, h, -⟩ := push_eq_ok_iff.mp h
      rw [afterString_escape, ih h]
  | case15 c rest noQuote _ _ alone noEscape _ ih =>
      obtain ⟨rest', h, -⟩ := push_eq_ok_iff.mp h
      have noBackslash : c ≠ '\\' := by
        rintro rfl
        cases rest with
        | nil => exact alone rfl rfl
        | cons letter rest => exact noEscape letter rest rfl rfl
      rw [afterString_cons noQuote noBackslash, ih h]
  | _ => simp at h

/-- What stands behind the blanks and a string. -/
lemma PlainNumerals.afterChars {text rest said left : List Char} (h : PlainNumerals text)
    (opens : Json.skipBlanks text = '"' :: rest) (reads : readChars rest = .ok (said, left)) :
    PlainNumerals left := by
  rwa [PlainNumerals, ← numerals_skipBlanks, opens, numerals_quote,
    afterString_of_readChars reads] at h

/-! ## Values that are read -/

/-- What is read is kept by printing; among members that are only spelled there may still be equal
ones. -/
def Part.Plain (depth : Nat) : Part → Prop
  | .value v => v.Plain depth
  | .elements vs => ∀ v ∈ vs, v.Plain depth
  | .members ms => ∀ member ∈ ms, member.2.Plain depth

/-- **What is read from a text whose numbers are plain is kept by printing**, and the numbers of
what is left are plain as well. -/
theorem Reads.plain {depth : Nat} {text left : List Char} {part : Part}
    (h : Reads depth text part left) (numbers : PlainNumerals text) :
    part.Plain depth ∧ PlainNumerals left := by
  induction h with
  | @word _ _ _ _ word _ _ opens known reads =>
      simp only [wordValues, List.mem_cons, Prod.mk.injEq, List.not_mem_nil, or_false] at known
      obtain ⟨rfl, rfl, rfl⟩ | ⟨rfl, rfl, rfl⟩ | ⟨rfl, rfl, rfl⟩ := known
      · exact ⟨.null, (numbers.after opens (by decide)).readWord (by decide) reads⟩
      · exact ⟨.bool true, (numbers.after opens (by decide)).readWord (by decide) reads⟩
      · exact ⟨.bool false, (numbers.after opens (by decide)).readWord (by decide) reads⟩
  | string opens reads => exact ⟨.string _, numbers.afterChars opens reads⟩
  | number opens starts reads =>
      obtain ⟨⟨n, fits, rfl⟩, rest⟩ := (opens ▸ numbers.skipBlanks).readNumber starts reads
      exact ⟨.integer fits, rest⟩
  | emptyArray opens closes =>
      exact ⟨.array (by simp), (numbers.after opens (by decide)).after closes (by decide)⟩
  | array opens _ ih =>
      obtain ⟨each, rest⟩ := ih (numbers.after opens (by decide)).skipBlanks
      exact ⟨.array each, rest⟩
  | emptyObject opens closes =>
      exact ⟨.object List.nodup_nil (by simp),
        (numbers.after opens (by decide)).after closes (by decide)⟩
  | @object _ _ _ _ spelled opens _ ih =>
      obtain ⟨each, rest⟩ := ih (numbers.after opens (by decide)).skipBlanks
      obtain ⟨distinct, origin⟩ := nodup_ofMembers spelled
      exact ⟨.object distinct fun member hmember => each member (origin member hmember), rest⟩
  | lastElement _ closes ih =>
      obtain ⟨single, rest⟩ := ih numbers
      exact ⟨by simpa [Part.Plain] using single, rest.after closes (by decide)⟩
  | element _ comma _ ih others =>
      obtain ⟨single, rest⟩ := ih numbers
      obtain ⟨each, rest⟩ := others (rest.after comma (by decide)).skipBlanks
      exact ⟨List.forall_mem_cons.mpr ⟨single, each⟩, rest⟩
  | lastMember keyed colon _ closes ih =>
      obtain ⟨single, rest⟩ := ih ((numbers.afterChars rfl keyed).after colon (by decide))
      exact ⟨by simpa [Part.Plain] using single, rest.after closes (by decide)⟩
  | member keyed colon _ comma _ ih others =>
      obtain ⟨single, rest⟩ := ih ((numbers.afterChars rfl keyed).after colon (by decide))
      obtain ⟨each, rest⟩ := others (rest.after comma (by decide)).skipBlanks
      exact ⟨List.forall_mem_cons.mpr ⟨single, each⟩, rest⟩

/-- **The value of a text whose numbers are plain is kept by printing.** -/
theorem plain_of_ofText {text : String} {value : Value} (numbers : PlainNumerals text.toList)
    (h : Value.ofText text = .ok value) : value.Plain depthLimit := by
  obtain ⟨left, hread, -⟩ := reads_of_ofText h
  exact (hread.plain numbers).1

/-! ## Values that are printed -/

/-- **A printed value is found again**, in front of anything that does not go on as a number. -/
def ReadsBack (depth : Nat) (value : Value) : Prop :=
  ∀ {fuel : Nat} {left : List Char}, 2 * value.print.length ≤ fuel → Ends left →
    readValue fuel depth (value.print ++ left) = .ok (value, left)

/-- A text starts with a value: with neither a blank nor a closing bracket. -/
def StartsValue (text : List Char) : Prop :=
  ∃ c rest, text = c :: rest ∧ isJsonBlank c = false ∧ c ≠ ']'

lemma StartsValue.append {text : List Char} (h : StartsValue text) (more : List Char) :
    StartsValue (text ++ more) := by
  obtain ⟨c, rest, rfl, starts⟩ := h
  exact ⟨c, rest ++ more, rfl, starts⟩

lemma skipBlanks_cons {c : Char} (h : isJsonBlank c = false) (rest : List Char) :
    skipBlanks (c :: rest) = c :: rest :=
  List.dropWhile_cons_of_neg (by simp [h])

lemma StartsValue.skipBlanks {text : List Char} (h : StartsValue text) :
    Json.skipBlanks text = text := by
  obtain ⟨c, rest, rfl, blank, -⟩ := h
  exact skipBlanks_cons blank rest

/-- A number does not start with a blank. -/
lemma isJsonBlank_of_starts {c : Char} (h : c = '-' ∨ c.isDigit = true) :
    isJsonBlank c = false := by
  by_contra blank
  obtain ⟨-, noMinus, noDigit⟩ := isIdle_of_isJsonBlank (Bool.not_eq_false _ ▸ blank)
  rcases h with rfl | digit
  · exact noMinus rfl
  · simp [noDigit] at digit

/-- A printed integer starts with a minus or a digit. -/
lemma exists_printInteger (n : Int) :
    ∃ first rest, printInteger n = first :: rest ∧ (first = '-' ∨ first.isDigit = true) := by
  cases n with
  | ofNat n =>
      have decimal := isDecimal_toDigits n
      obtain ⟨first, rest, hdigits⟩ := List.exists_cons_of_ne_nil decimal.nonempty
      exact ⟨first, rest, hdigits, .inr (decimal.all first (hdigits ▸ List.mem_cons_self))⟩
  | negSucc n => exact ⟨'-', _, rfl, .inl rfl⟩

lemma startsValue_print {depth : Nat} {value : Value} (h : value.Plain depth) :
    StartsValue value.print := by
  cases h with
  | null => exact ⟨_, _, rfl, by decide, by decide⟩
  | bool b => cases b <;> exact ⟨_, _, rfl, by decide, by decide⟩
  | @integer _ n fits =>
      obtain ⟨first, rest, hprint, starts⟩ := exists_printInteger n
      refine ⟨first, rest, hprint, isJsonBlank_of_starts starts, ?_⟩
      rintro rfl
      exact absurd starts (by decide)
  | string s => exact ⟨_, _, rfl, by decide, by decide⟩
  | array => exact ⟨_, _, rfl, by decide, by decide⟩
  | object => exact ⟨_, _, rfl, by decide, by decide⟩

lemma ends_cons {c : Char} (h : isNumeralChar c = false) (rest : List Char) : Ends (c :: rest) := by
  intro other hother
  obtain rfl := Option.some.inj hother
  exact h

section

variable {fuel depth : Nat} {text more left : List Char}

/-- It is enough to look at fuel that is not used up. -/
lemma readsBack_of_succ {value : Value} (plain : value.Plain depth)
    (h : ∀ {fuel : Nat} {left : List Char}, 2 * value.print.length ≤ fuel + 1 → Ends left →
      readValue (fuel + 1) depth (value.print ++ left) = .ok (value, left)) :
    ReadsBack depth value := by
  intro fuel left enough ends
  obtain ⟨c, rest, hprint, -⟩ := startsValue_print plain
  have some : fuel ≠ 0 := by
    rw [hprint, List.length_cons] at enough
    omega
  obtain ⟨fuel, rfl⟩ := Nat.exists_eq_add_one_of_ne_zero some
  exact h enough ends

lemma readValue_number {first : Char} {rest : List Char} {n : Number}
    (starts : first = '-' ∨ first.isDigit = true)
    (reads : readNumber (first :: rest) = .ok (n, left)) :
    readValue (fuel + 1) depth (first :: rest) = .ok (.number n, left) := by
  have apart : first ∉ ['n', 't', 'f', '"', '[', '\x7b'] := by
    simp only [List.mem_cons, List.not_mem_nil, or_false]
    rintro (rfl | rfl | rfl | rfl | rfl | rfl) <;> exact absurd starts (by decide)
  simp only [List.mem_cons, List.not_mem_nil, or_false, not_or] at apart
  obtain ⟨noNull, noTrue, noFalse, noString, noArray, noObject⟩ := apart
  rw [readValue, skipBlanks_cons (isJsonBlank_of_starts starts)]
  split
  · next same => simp at same
  · next same => exact absurd (List.cons.inj same).1 noNull
  · next same => exact absurd (List.cons.inj same).1 noTrue
  · next same => exact absurd (List.cons.inj same).1 noFalse
  · next same => exact absurd (List.cons.inj same).1 noString
  · next same => exact absurd (List.cons.inj same).1 noArray
  · next same => exact absurd (List.cons.inj same).1 noObject
  · next same =>
      obtain ⟨rfl, rfl⟩ := List.cons.inj same
      rw [if_pos starts, reads]
      rfl

lemma readValue_printInteger {n : Int} (fits : FitsInteger n) (ends : Ends left) :
    readValue (fuel + 1) depth (printInteger n ++ left) = .ok (.number (.integer n), left) := by
  have reads := readNumber_append (plainNumeral_printInteger fits) ends
  obtain ⟨first, rest, hprint, starts⟩ := exists_printInteger n
  rw [hprint, List.cons_append] at reads ⊢
  exact readValue_number starts reads

lemma printString_append (s : String) (more : List Char) :
    printString s ++ more = '"' :: (s.toList.flatMap printChar ++ '"' :: more) := by
  simp [printString]

lemma readValue_quote (rest : List Char) :
    readValue (fuel + 1) depth ('"' :: rest) = do
      let (said, left) ← readChars rest
      return (.string (String.ofList said), left) := rfl

lemma readValue_printString {s : String} :
    readValue (fuel + 1) depth (printString s ++ left) = .ok (.string s, left) := by
  rw [printString_append, readValue_quote, readChars_flatMap_printChar]
  exact congrArg (fun s => Except.ok (Value.string s, left)) String.ofList_toList

lemma readElements_last {element : Value}
    (first : readValue fuel depth text = .ok (element, ']' :: left)) :
    readElements (fuel + 1) depth text = .ok ([element], left) := by
  rw [readElements, first]
  rfl

lemma readElements_more {element : Value} {elements : List Value}
    (first : readValue fuel depth text = .ok (element, ',' :: more)) (starts : StartsValue more)
    (others : readElements fuel depth more = .ok (elements, left)) :
    readElements (fuel + 1) depth text = .ok (element :: elements, left) := by
  have noBlanks := starts.skipBlanks
  obtain ⟨c, rest, rfl, -, noBracket⟩ := starts
  rw [readElements, first]
  simp only [bind, Except.bind, skipBlanks_cons (show isJsonBlank ',' = false by decide), noBlanks]
  split
  · next closes => exact absurd (List.cons.inj closes).1 noBracket
  · rw [others]
    rfl

lemma readMembers_last {key : String} {value : Value}
    (first : readValue fuel depth more = .ok (value, '\x7d' :: left)) :
    readMembers (fuel + 1) depth (printString key ++ ':' :: more) = .ok ([(key, value)], left) := by
  rw [printString_append, readMembers, readChars_flatMap_printChar]
  simp only [bind, Except.bind, skipBlanks_cons (show isJsonBlank ':' = false by decide), first,
    skipBlanks_cons (show isJsonBlank '\x7d' = false by decide), String.ofList_toList]
  rfl

lemma readMembers_more {key : String} {value : Value} {next : List Char}
    {members : List (String × Value)}
    (first : readValue fuel depth more = .ok (value, ',' :: '"' :: next))
    (others : readMembers fuel depth ('"' :: next) = .ok (members, left)) :
    readMembers (fuel + 1) depth (printString key ++ ':' :: more) =
      .ok ((key, value) :: members, left) := by
  rw [printString_append, readMembers, readChars_flatMap_printChar]
  simp only [bind, Except.bind, skipBlanks_cons (show isJsonBlank ':' = false by decide), first,
    skipBlanks_cons (show isJsonBlank ',' = false by decide),
    skipBlanks_cons (show isJsonBlank '"' = false by decide), String.ofList_toList]
  split
  · next nothing => simp at nothing
  · next closes => simp at closes
  · rw [others]
    rfl

end

lemma startsValue_printElements {first : Value} {rest : List Value}
    (starts : ∀ element ∈ first :: rest, StartsValue element.print) (more : List Char) :
    StartsValue (printElements (first :: rest) ++ more) := by
  have startsFirst := starts first List.mem_cons_self
  cases rest with
  | nil => exact startsFirst.append more
  | cons _ _ => exact (startsFirst.append _).append more

lemma exists_printMembers (first : String × Value) (rest : List (String × Value))
    (more : List Char) : ∃ tail, printMembers (first :: rest) ++ more = '"' :: tail := by
  cases rest <;> exact ⟨_, rfl⟩

/-- The elements of an array are found again, up to the bracket that closes it. -/
lemma readElements_print {depth : Nat} {elements : List Value} (nonempty : elements ≠ [])
    (each : ∀ element ∈ elements, ReadsBack depth element)
    (starts : ∀ element ∈ elements, StartsValue element.print) {fuel : Nat} {left : List Char}
    (enough : 2 * (printElements elements).length + 1 ≤ fuel) :
    readElements fuel depth (printElements elements ++ ']' :: left) = .ok (elements, left) := by
  induction elements generalizing fuel with
  | nil => exact absurd rfl nonempty
  | cons element rest ih =>
      obtain ⟨fuel, rfl⟩ := Nat.exists_eq_add_of_le' (Nat.le_trans (Nat.le_add_left 1 _) enough)
      obtain ⟨first, others⟩ := List.forall_mem_cons.mp each
      obtain ⟨-, startsRest⟩ := List.forall_mem_cons.mp starts
      cases rest with
      | nil =>
          rw [printElements] at enough ⊢
          exact readElements_last (first (by omega) (ends_cons (by decide) _))
      | cons next rest =>
          rw [printElements, List.length_append, List.length_cons] at enough
          rw [printElements, List.append_assoc, List.cons_append]
          exact readElements_more (first (by omega) (ends_cons (by decide) _))
            (startsValue_printElements startsRest _) (ih (by simp) others startsRest (by omega))

/-- The members of an object are found again, up to the bracket that closes it. -/
lemma readMembers_print {depth : Nat} {members : List (String × Value)} (nonempty : members ≠ [])
    (each : ∀ member ∈ members, ReadsBack depth member.2) {fuel : Nat} {left : List Char}
    (enough : 2 * (printMembers members).length + 1 ≤ fuel) :
    readMembers fuel depth (printMembers members ++ '\x7d' :: left) = .ok (members, left) := by
  induction members generalizing fuel with
  | nil => exact absurd rfl nonempty
  | cons member rest ih =>
      obtain ⟨key, value⟩ := member
      obtain ⟨fuel, rfl⟩ := Nat.exists_eq_add_of_le' (Nat.le_trans (Nat.le_add_left 1 _) enough)
      obtain ⟨(first : ReadsBack depth value), others⟩ := List.forall_mem_cons.mp each
      cases rest with
      | nil =>
          rw [printMembers] at enough ⊢
          simp only [List.length_append, List.length_cons] at enough
          rw [List.append_assoc]
          exact readMembers_last (first (by omega) (ends_cons (by decide) _))
      | cons next rest =>
          rw [printMembers] at enough ⊢
          simp only [List.length_append, List.length_cons] at enough
          obtain ⟨tail, htail⟩ := exists_printMembers next rest ('\x7d' :: left)
          have found : readMembers fuel depth (printMembers (next :: rest) ++ '\x7d' :: left) =
              .ok (next :: rest, left) := ih (by simp) others (by omega)
          rw [htail] at found
          simp only [List.append_assoc, List.cons_append, htail]
          exact readMembers_more (first (by omega) (ends_cons (by decide) _)) found

lemma readValue_bracket (fuel depth : Nat) (text : List Char) :
    readValue (fuel + 1) (depth + 1) ('[' :: text) =
      match skipBlanks text with
      | [] => .error (.atEnd .endInList)
      | ']' :: left => .ok (.array [], left)
      | text => do
        let (elements, left) ← readElements fuel depth text
        return (.array elements, left) := rfl

/-- An array is found again if its elements are. -/
lemma readValue_array {fuel depth : Nat} {elements : List Value} {left : List Char}
    (starts : ∀ element ∈ elements, StartsValue element.print)
    (inside : elements ≠ [] →
      readElements fuel depth (printElements elements ++ ']' :: left) = .ok (elements, left)) :
    readValue (fuel + 1) (depth + 1) ((Value.array elements).print ++ left) =
      .ok (.array elements, left) := by
  cases elements with
  | nil => rfl
  | cons first rest =>
      have startsInside := startsValue_printElements starts (']' :: left)
      have noBlanks := startsInside.skipBlanks
      obtain ⟨c, more, hmore, -, noBracket⟩ := startsInside
      have found := inside (by simp)
      rw [hmore] at noBlanks found
      rw [Value.print, List.append_assoc, List.cons_append, List.singleton_append, hmore,
        readValue_bracket, noBlanks]
      split
      · next nothing => simp at nothing
      · next closes => exact absurd (List.cons.inj closes).1 noBracket
      · rw [found]
        rfl

lemma readValue_brace_quote (fuel depth : Nat) (more : List Char) :
    readValue (fuel + 1) (depth + 1) ('\x7b' :: '"' :: more) = do
      let (spelled, left) ← readMembers fuel depth ('"' :: more)
      return (.object (ofMembers spelled), left) := rfl

/-- An object is found again if its members are, unless a key stands there twice. -/
lemma readValue_object {fuel depth : Nat} {members : Members} {left : List Char}
    (distinct : (members.map Prod.fst).Nodup)
    (inside : members ≠ [] →
      readMembers fuel depth (printMembers members ++ '\x7d' :: left) = .ok (members, left)) :
    readValue (fuel + 1) (depth + 1) ((Value.object members).print ++ left) =
      .ok (.object members, left) := by
  cases members with
  | nil => rfl
  | cons first rest =>
      obtain ⟨more, hmore⟩ := exists_printMembers first rest ('\x7d' :: left)
      have found := inside (by simp)
      rw [hmore] at found
      rw [Value.print, List.append_assoc, List.cons_append, List.singleton_append, hmore,
        readValue_brace_quote, found]
      exact congrArg (fun members => Except.ok (Value.object members, left))
        (ofMembers_of_nodup distinct)

/-- **A value that printing keeps is found again**, with two units of fuel for each character. -/
theorem readValue_print {depth : Nat} {value : Value} (h : value.Plain depth) :
    ReadsBack depth value := by
  induction h with
  | null => exact readsBack_of_succ .null fun _ _ => rfl
  | bool b =>
      refine readsBack_of_succ (.bool b) fun _ _ => ?_
      cases b <;> rfl
  | integer fits => exact readsBack_of_succ (.integer fits) fun _ => readValue_printInteger fits
  | string s => exact readsBack_of_succ (.string s) fun _ _ => readValue_printString
  | array each ih =>
      refine readsBack_of_succ (.array each) fun enough _ => ?_
      rw [Value.print, List.length_append, List.length_cons, List.length_singleton] at enough
      have starts := fun element hmem => startsValue_print (each element hmem)
      exact readValue_array starts fun nonempty =>
        readElements_print nonempty ih starts (by omega)
  | object distinct each ih =>
      refine readsBack_of_succ (.object distinct each) fun enough _ => ?_
      rw [Value.print, List.length_append, List.length_cons, List.length_singleton] at enough
      exact readValue_object distinct fun nonempty => readMembers_print nonempty ih (by omega)

/-- **Reading what has been printed yields the value.** -/
theorem ofText_print {value : Value} (h : value.Plain depthLimit) :
    Value.ofText (String.ofList value.print) = .ok value := by
  have reads : readValue (2 * value.print.length + 2) depthLimit (value.print ++ []) =
      .ok (value, []) := readValue_print h (by omega) (by simp [Ends])
  rw [List.append_nil] at reads
  rw [Value.ofText, mapError_eq_ok_iff, readText, String.toList_ofList, reads]
  rfl

end AvroTypes.Json
