import AvroTypes.Proofs.TypeScript.TypeExpressions

/-!
# Type expressions read back

The texts of types are written by a grammar with two rules, alternatives between bars and arrays
between brackets, over words.  Whoever reads one has to know where a word ends and which bar belongs
to which array.  This is settled by the text alone, because no word is empty and none has a bar, a
blank or a bracket in it, whatever the names in the schema are; and because an array that was parsed
has elements.

The reader goes through a text once and keeps a stack of the arrays that are open.  It is shown to
agree with the grammar, and the text of a type to be derived by the grammar with the arrays and the
leaves of that type.

* `TypeTree`, `Spells` — the grammar, with what its texts stand for.
* `Reader`, `readTypes` — the reader and its steps.
* `Spells.read` — what the grammar derives is read, wherever in a text it stands.
* `Reader.HasRead`, `Reader.HasRead.read` — the invariant of the steps, and of a whole run.
* `readTypes_eq_some_iff` — **the reader reads what the grammar derives.**
* `treeOf`, `treesOf`, `spells_unionText` — what the text of a type spells.
* `readTypes_unionText` — **a type expression determines the type.**
-/

namespace AvroTypes.TypeScript

open AvroTypes.Text
open AvroTypes.Schema (isWordChar)

/-! ## The grammar -/

/-- A type as it can be read off a text: an array of alternatives, or a word. -/
inductive TypeTree where
  | leaf (word : List Char)
  | array (elements : List TypeTree)

/-- A character of a word: a letter, a digit, an underscore or a dot. -/
def isLeafChar (c : Char) : Bool := isWordChar c || c = '.'

/-- **The grammar of type expressions**: alternatives are separated by bars, and each of them is an
array of alternatives or a word.  What spells a list of one is an alternative. -/
inductive Spells : List TypeTree → List Char → Prop
  | leaf {word : List Char} (nonempty : word ≠ []) (each : ∀ c ∈ word, isLeafChar c = true) :
      Spells [.leaf word] word
  | array {elements : List TypeTree} {inside : List Char} (h : Spells elements inside) :
      Spells [.array elements] ("Array<".toList ++ inside ++ ['>'])
  | union {first : TypeTree} {rest : List TypeTree} {text others : List Char}
      (hfirst : Spells [first] text) (hrest : Spells rest others) :
      Spells (first :: rest) (text ++ bar ++ others)

lemma Spells.ne_nil {trees : List TypeTree} {text : List Char} (h : Spells trees text) :
    trees ≠ [] := by
  cases h <;> exact List.cons_ne_nil _ _

/-! ## The reader -/

/-- Something has been read of the tree: it is not an empty word. -/
def TypeTree.isBegun : TypeTree → Bool
  | leaf word => !word.isEmpty
  | array _ => true

/-- **A reader in the middle of a text.** -/
structure Reader where
  /-- For every array that is still open, the innermost first, the alternatives before it. -/
  outer : List (List TypeTree)
  /-- The alternatives before the one that is being read. -/
  before : List TypeTree
  /-- The alternative that is being read; an empty word if nothing of it has been. -/
  current : TypeTree

namespace Reader

/-- A reader at the start of a text. -/
def start : Reader := ⟨[], [], .leaf []⟩

/-- One more character of a word. -/
def goOn (c : Char) (reader : Reader) : Option Reader :=
  match reader.current with
  | .leaf word =>
    if isLeafChar c then some { reader with current := .leaf (word ++ [c]) } else none
  | .array _ => none

/-- An opening bracket, which makes an array of the word in front of it. -/
def enter (reader : Reader) : Option Reader :=
  match reader.current with
  | .leaf word =>
    if word = "Array".toList then some ⟨reader.before :: reader.outer, [], .leaf []⟩ else none
  | .array _ => none

/-- A closing bracket. -/
def leave (reader : Reader) : Option Reader :=
  match reader.outer with
  | [] => none
  | before :: outer =>
    if reader.current.isBegun then some ⟨outer, before, .array (reader.before ++ [reader.current])⟩
    else none

/-- A bar between two alternatives. -/
def next (reader : Reader) : Option Reader :=
  if reader.current.isBegun then
    some ⟨reader.outer, reader.before ++ [reader.current], .leaf []⟩
  else none

/-- The end of the text. -/
def finish (reader : Reader) : Option (List TypeTree) :=
  if reader.outer.isEmpty && reader.current.isBegun then some (reader.before ++ [reader.current])
  else none

/-- Reads on to the end of a text. -/
def read (reader : Reader) : List Char → Option (List TypeTree)
  | [] => reader.finish
  | '<' :: text => do (← reader.enter).read text
  | '>' :: text => do (← reader.leave).read text
  | ' ' :: '|' :: ' ' :: text => do (← reader.next).read text
  | c :: text => do (← reader.goOn c).read text

end Reader

/-- **Reading a type expression.** -/
def readTypes (text : List Char) : Option (List TypeTree) := Reader.start.read text

/-! ## What the grammar derives is read -/

section

variable {trees : List TypeTree} {text word : List Char}

lemma Reader.read_cons {c : Char} (hc : isLeafChar c = true) (reader : Reader) (text : List Char) :
    reader.read (c :: text) = (reader.goOn c).bind fun reader => reader.read text := by
  have other : ∀ {d : Char}, isLeafChar d = false → c ≠ d := by
    rintro d hd rfl
    exact Bool.false_ne_true (hd.symm.trans hc)
  exact Reader.read.eq_5 reader c text (other (by decide)) (other (by decide))
    fun _ blank => absurd blank (other (by decide))

/-- A word is read to its end, whatever follows it. -/
lemma Reader.read_word (each : ∀ c ∈ word, isLeafChar c = true) (outer : List (List TypeTree))
    (before : List TypeTree) (front rest : List Char) :
    Reader.read ⟨outer, before, .leaf front⟩ (word ++ rest) =
      Reader.read ⟨outer, before, .leaf (front ++ word)⟩ rest := by
  induction word generalizing front with
  | nil => rw [List.append_nil, List.nil_append]
  | cons c word ih =>
      obtain ⟨hc, each⟩ := List.forall_mem_cons.mp each
      rw [List.cons_append, Reader.read_cons hc]
      simp only [Reader.goOn, hc, if_true, Option.bind_some]
      rw [ih each, List.append_assoc, List.singleton_append]

lemma Reader.read_array_start (outer : List (List TypeTree)) (before : List TypeTree)
    (rest : List Char) :
    Reader.read ⟨outer, before, .leaf []⟩ ("Array<".toList ++ rest) =
      Reader.read ⟨before :: outer, [], .leaf []⟩ rest := by
  have word : ∀ c ∈ "Array".toList, isLeafChar c = true := List.all_eq_true.mp rfl
  exact (Reader.read_word word outer before [] ('<' :: rest)).trans rfl

lemma Reader.read_of_leave {reader reader' : Reader} (h : reader.leave = some reader')
    (rest : List Char) : reader.read ('>' :: rest) = reader'.read rest := by
  rw [Reader.read, h]
  rfl

lemma Reader.read_of_next {reader reader' : Reader} (h : reader.next = some reader')
    (rest : List Char) : reader.read (bar ++ rest) = reader'.read rest := by
  change reader.read (' ' :: '|' :: ' ' :: rest) = _
  rw [Reader.read, h]
  rfl

/-- **Reading something that the grammar derives**, anywhere in a text: behind it the reader is at
the last of its alternatives, with all others before it. -/
theorem Spells.read (h : Spells trees text) :
    (trees.getLast h.ne_nil).isBegun = true ∧ ∀ outer before rest,
      Reader.read ⟨outer, before, .leaf []⟩ (text ++ rest) =
        Reader.read ⟨outer, before ++ trees.dropLast, trees.getLast h.ne_nil⟩ rest := by
  induction h with
  | @leaf word nonempty each =>
      refine ⟨by simpa [TypeTree.isBegun] using nonempty, fun outer before rest => ?_⟩
      rw [Reader.read_word each, List.dropLast_singleton, List.append_nil]
      rfl
  | @array elements inside h ih =>
      obtain ⟨begun, ih⟩ := ih
      refine ⟨rfl, fun outer before rest => ?_⟩
      have leaves : Reader.leave ⟨before :: outer, elements.dropLast, elements.getLast h.ne_nil⟩ =
          some ⟨outer, before, .array elements⟩ := by
        simp [Reader.leave, begun, List.dropLast_concat_getLast]
      rw [List.append_assoc, List.append_assoc, Reader.read_array_start, ih, List.nil_append,
        List.singleton_append, Reader.read_of_leave leaves, List.dropLast_singleton,
        List.append_nil, List.getLast_singleton]
  | @union first others text rest hfirst hothers ihfirst ihothers =>
      obtain ⟨begunFirst, ihfirst⟩ := ihfirst
      obtain ⟨begun, ihothers⟩ := ihothers
      have last := List.getLast_cons hothers.ne_nil (a := first)
      refine ⟨by rwa [last], fun outer before behind => ?_⟩
      -- the reader stands at the first alternative, and the bar moves it on to the others
      have nexts : Reader.next ⟨outer, before, first⟩ =
          some ⟨outer, before ++ [first], .leaf []⟩ := if_pos begunFirst
      rw [List.append_assoc, List.append_assoc, ihfirst, List.dropLast_singleton, List.append_nil,
        List.getLast_singleton, Reader.read_of_next nexts, ihothers, last,
        List.dropLast_cons_of_ne_nil hothers.ne_nil, List.append_assoc, List.singleton_append]

end

/-! ## What is read is derived by the grammar

What a reader has read falls into three parts: what is before the innermost array that is open, the
alternatives before the one that is being read, and what there is of that one.  Each step adds what
it goes over to one of them, or moves what is complete to the part before it.
-/

section

variable {trees : List TypeTree} {text : List Char}

lemma Spells.append {others : List TypeTree} {behind : List Char} (h : Spells trees text)
    (h' : Spells others behind) : Spells (trees ++ others) (text ++ bar ++ behind) := by
  induction h with
  | leaf nonempty each => exact .union (.leaf nonempty each) h'
  | array h _ => exact .union (.array h) h'
  | union hfirst _ _ ih =>
      rw [List.cons_append, List.append_assoc, List.append_assoc, ← List.append_assoc _ bar behind]
      exact .union hfirst ih

/-- What stands before an alternative: others, each with a bar behind it. -/
inductive Before : List TypeTree → List Char → Prop
  | nothing : Before [] []
  | some {trees : List TypeTree} {text : List Char} (h : Spells trees text) :
      Before trees (text ++ bar)

/-- What stands before the innermost array that is still open. -/
inductive Around : List (List TypeTree) → List Char → Prop
  | nothing : Around [] []
  | inside {outer : List (List TypeTree)} {before : List TypeTree} {front text : List Char}
      (h : Around outer front) (hbefore : Before before text) :
      Around (before :: outer) (front ++ text ++ "Array<".toList)

/-- What has been read of an alternative. -/
inductive Partly : TypeTree → List Char → Prop
  | word {word : List Char} (each : ∀ c ∈ word, isLeafChar c = true) : Partly (.leaf word) word
  | array {elements : List TypeTree} {text : List Char} (h : Spells [.array elements] text) :
      Partly (.array elements) text

/-- **What a reader has read** so far, in its three parts. -/
def Reader.HasRead (reader : Reader) (text : List Char) : Prop :=
  ∃ front middle back, text = front ++ middle ++ back ∧
    Around reader.outer front ∧ Before reader.before middle ∧ Partly reader.current back

lemma Before.append {tree : TypeTree} {behind : List Char} (h : Before trees text)
    (h' : Spells [tree] behind) : Spells (trees ++ [tree]) (text ++ behind) := by
  cases h with
  | nothing => exact h'
  | some h => exact h.append h'

lemma Partly.spells {tree : TypeTree} (h : Partly tree text) (begun : tree.isBegun = true) :
    Spells [tree] text := by
  cases h with
  | word each => exact .leaf (by simpa [TypeTree.isBegun] using begun) each
  | array h => exact h

namespace Reader

variable {reader reader' : Reader}

lemma HasRead.goOn {c : Char} (h : reader.HasRead text) (step : reader.goOn c = some reader') :
    reader'.HasRead (text ++ [c]) := by
  obtain ⟨front, middle, back, rfl, around, before, current⟩ := h
  obtain ⟨outer, trees, tree⟩ := reader
  cases current with
  | array _ => exact absurd step (by simp [Reader.goOn])
  | word each =>
      obtain ⟨hc, rfl⟩ : isLeafChar c = true ∧ _ := by simpa [Reader.goOn] using step
      have longer := List.forall_mem_append.mpr ⟨each, List.forall_mem_singleton.mpr hc⟩
      exact ⟨front, middle, back ++ [c], by simp, around, before, .word longer⟩

lemma HasRead.enter (h : reader.HasRead text) (step : reader.enter = some reader') :
    reader'.HasRead (text ++ ['<']) := by
  obtain ⟨front, middle, back, rfl, around, before, current⟩ := h
  obtain ⟨outer, trees, tree⟩ := reader
  cases current with
  | array _ => exact absurd step (by simp [Reader.enter])
  | word _ =>
      obtain ⟨rfl, rfl⟩ : back = "Array".toList ∧ _ := by simpa [Reader.enter] using step
      exact ⟨_, [], [], by simp, .inside around before, .nothing, .word (by simp)⟩

lemma HasRead.leave (h : reader.HasRead text) (step : reader.leave = some reader') :
    reader'.HasRead (text ++ ['>']) := by
  obtain ⟨front, middle, back, rfl, around, before, current⟩ := h
  obtain ⟨outer, trees, tree⟩ := reader
  cases around with
  | nothing => exact absurd step (by simp [Reader.leave])
  | @inside outer others front text around hothers =>
      obtain ⟨begun, rfl⟩ : tree.isBegun = true ∧ _ := by simpa [Reader.leave] using step
      -- what is before the array comes off the stack, and the array is what is being read
      have inside := before.append (current.spells begun)
      exact ⟨front, text, _, by simp, around, hothers, .array (.array inside)⟩

lemma HasRead.next (h : reader.HasRead text) (step : reader.next = some reader') :
    reader'.HasRead (text ++ bar) := by
  obtain ⟨front, middle, back, rfl, around, before, current⟩ := h
  obtain ⟨begun, rfl⟩ : reader.current.isBegun = true ∧ _ := by simpa [Reader.next] using step
  have complete := before.append (current.spells begun)
  exact ⟨front, _, [], by simp, around, .some complete, .word (by simp)⟩

lemma HasRead.finish (h : reader.HasRead text) (step : reader.finish = some trees) :
    Spells trees text := by
  obtain ⟨front, middle, back, rfl, around, before, current⟩ := h
  obtain ⟨⟨closed, begun⟩, rfl⟩ : (reader.outer = [] ∧ reader.current.isBegun = true) ∧ _ := by
    simpa [Reader.finish] using step
  rw [closed] at around
  cases around
  exact before.append (current.spells begun)

/-- **Whatever a reader makes of a text**, the grammar derives from what it has read before together
with the text. -/
theorem HasRead.read (h : reader.HasRead text) {rest : List Char}
    (reads : reader.read rest = some trees) : Spells trees (text ++ rest) := by
  fun_induction Reader.read reader rest generalizing text with
  | case1 reader => simpa using h.finish reads
  | case2 reader rest ih =>
      obtain ⟨inside, step, reads⟩ := Option.bind_eq_some_iff.mp reads
      simpa using ih inside (h.enter step) reads
  | case3 reader rest ih =>
      obtain ⟨outside, step, reads⟩ := Option.bind_eq_some_iff.mp reads
      simpa using ih outside (h.leave step) reads
  | case4 reader rest ih =>
      obtain ⟨behind, step, reads⟩ := Option.bind_eq_some_iff.mp reads
      simpa [bar] using ih behind (h.next step) reads
  | case5 reader c rest _ _ _ ih =>
      obtain ⟨further, step, reads⟩ := Option.bind_eq_some_iff.mp reads
      simpa using ih further (h.goOn step) reads

end Reader

/-- **The reader reads what the grammar derives**, all of it and nothing else. -/
theorem readTypes_eq_some_iff : readTypes text = some trees ↔ Spells trees text := by
  have nothing : Reader.start.HasRead [] :=
    ⟨[], [], [], rfl, .nothing, .nothing, .word (by simp)⟩
  refine ⟨nothing.read, fun h => ?_⟩
  obtain ⟨begun, h'⟩ := h.read
  rw [readTypes, Reader.start, ← List.append_nil text, h', Reader.read, Reader.finish]
  simp [begun, List.dropLast_concat_getLast]

example : readTypes "Array<a | Array<b>> | c".toList =
    some [.array [.leaf ['a'], .array [.leaf ['b']]], .leaf ['c']] := rfl

example : readTypes "Array<a | >".toList = none := rfl

/-- The grammar is unambiguous: a text has at most one reading. -/
theorem Spells.unique {others : List TypeTree} (h : Spells trees text) (h' : Spells others text) :
    trees = others :=
  Option.some_inj.mp
    ((readTypes_eq_some_iff.mpr h).symm.trans (readTypes_eq_some_iff.mpr h'))

end

/-! ## The texts of types -/

mutual

/-- **The tree of a type**: its arrays, and as a leaf what everything else is written as. -/
def treeOf (scope : Scope) : TypeExpr → TypeTree
  | .of .array elements => .array (treesOf scope elements)
  | .of (.reference name) _ => .leaf (scope.referenceText name)
  | .of kind _ => .leaf kind.display.toList

/-- The trees of a list of alternatives. -/
def treesOf (scope : Scope) : List TypeExpr → List TypeTree
  | [] => []
  | first :: rest => treeOf scope first :: treesOf scope rest

end

lemma isLeafChar_of_mem_identifierChars {name : List Char} {c : Char}
    (h : c ∈ identifierChars name) : isLeafChar c = true := by
  simp [isLeafChar, isWordChar_of_mem_identifierChars h]

lemma isLeafChar_of_mem_pathChars {dotted : List Char} {c : Char} (h : c ∈ pathChars dotted) :
    isLeafChar c = true := by
  rcases isWordChar_or_dot_of_mem_pathChars h with word | rfl
  · simp [isLeafChar, word]
  · rfl

/-- A kind that is written as its own word. -/
lemma spells_plain {scope : Scope} {kind : Kind} (noArray : kind ≠ .array)
    (noReference : ∀ name, kind ≠ .reference name) :
    Spells [treeOf scope (.plain kind)] (typeText scope (.plain kind)) := by
  cases kind with
  | array => exact absurd rfl noArray
  | reference name => exact absurd rfl (noReference name)
  | _ => exact .leaf (by decide) (List.all_eq_true.mp rfl)

/-- Alternatives spell their trees if each of them spells its own. -/
lemma Spells.unionText {scope : Scope} {alternatives : List TypeExpr}
    (nonempty : alternatives ≠ [])
    (each : ∀ type ∈ alternatives, Spells [treeOf scope type] (typeText scope type)) :
    Spells (treesOf scope alternatives) (unionText scope alternatives) := by
  induction alternatives with
  | nil => exact absurd rfl nonempty
  | cons first rest ih =>
      obtain ⟨hfirst, each⟩ := List.forall_mem_cons.mp each
      cases rest with
      | nil => simpa [treesOf, TypeScript.unionText, typeTexts] using hfirst
      | cons next rest =>
          have step : TypeScript.unionText scope (first :: next :: rest) =
              typeText scope first ++ bar ++ TypeScript.unionText scope (next :: rest) := by
            simp only [TypeScript.unionText, typeTexts, List.intercalate_cons_cons]
          rw [step]
          exact .union hfirst (ih (List.cons_ne_nil _ _) each)

section

variable {options : Options} {table : List NamedType} {space : String}

/-- A reference that means something is a word, whatever the name of what it means. -/
lemma spells_referenceText (wellFormed : ∀ type ∈ table, type.WellFormed) {name : String}
    (means : ((SymbolIndex.ofTable table).resolve? name space).isSome) :
    let text := (scopeOf options (SymbolIndex.ofTable table) space).referenceText name
    Spells [.leaf text] text := by
  refine .leaf (referenceText_ne_nil wellFormed means) fun c hc => ?_
  obtain ⟨target, -, -, spelled | spelled⟩ := exists_referenceText means
  · exact isLeafChar_of_mem_identifierChars (spelled ▸ hc)
  · exact isLeafChar_of_mem_pathChars (spelled ▸ hc)

/-- **The text of a type spells the tree of the type** if all its references mean something. -/
theorem spells_typeText (wellFormed : ∀ type ∈ table, type.WellFormed) {type : TypeExpr}
    (h : type.WellFormed)
    (means : ∀ name ∈ type.references,
      ((SymbolIndex.ofTable table).resolve? name space).isSome) :
    let scope := scopeOf options (SymbolIndex.ofTable table) space
    Spells [treeOf scope type] (typeText scope type) := by
  induction h with
  | @plain kind simple =>
      cases kind with
      | reference name =>
          exact spells_referenceText wellFormed
            (means name (by simp [TypeExpr.plain, TypeExpr.references]))
      | _ => exact spells_plain simple.noArray fun _ => Kind.noConfusion
  | @arrayOf elements nonempty _ ih =>
      exact .array (.unionText nonempty fun element helement =>
        ih element helement fun name hname =>
          means name (references_subset_referencesIn helement hname))

/-- **The text of what stands in an entry spells its tree**, that of a declaration in the place of a
field included. -/
theorem spells_unionText (wellFormed : ∀ type ∈ table, type.WellFormed)
    {alternatives : List TypeExpr} {symbols : Option (List String)}
    (together : GoTogether alternatives symbols)
    (means : ∀ name ∈ referencesIn alternatives,
      ((SymbolIndex.ofTable table).resolve? name space).isSome) :
    let scope := scopeOf options (SymbolIndex.ofTable table) space
    Spells (treesOf scope alternatives) (unionText scope alternatives) := by
  refine .unionText together.ne_nil fun type htype => ?_
  cases together with
  | record =>
      obtain rfl := List.mem_singleton.mp htype
      exact spells_plain Kind.noConfusion fun _ => Kind.noConfusion
  | enum symbols =>
      obtain rfl := List.mem_singleton.mp htype
      exact spells_plain Kind.noConfusion fun _ => Kind.noConfusion
  | types areTypes =>
      exact spells_typeText wellFormed (areTypes.each type htype) fun name hname =>
        means name (references_subset_referencesIn htype hname)

end

/-- **A type expression determines the type.**  Whatever an entry of a table or one of its fields
has as its type, if all its references mean something in a namespace, then its text there is read
as its tree, and the grammar derives nothing else with that text. -/
theorem readTypes_unionText {document : Json.Value} {around : String} {table : List NamedType}
    (h : Schema.tableOf document around = .ok table) {type : NamedType} (htype : type ∈ table)
    {alternatives : List TypeExpr}
    (stands : alternatives ∈ type.alternatives :: type.fields.map Field.alternatives)
    (options : Options) {space : String}
    (means : ∀ name ∈ referencesIn alternatives,
      ((SymbolIndex.ofTable table).resolve? name space).isSome) :
    let scope := scopeOf options (SymbolIndex.ofTable table) space
    readTypes (unionText scope alternatives) = some (treesOf scope alternatives) ∧
      ∀ trees, Spells trees (unionText scope alternatives) ↔
        trees = treesOf scope alternatives := by
  intro scope
  have wellFormed := Schema.cumulative_wellFormed.tableOf h
  obtain ⟨symbols, together⟩ : ∃ symbols, GoTogether alternatives symbols := by
    rcases List.mem_cons.mp stands with rfl | stands
    · exact ⟨_, (wellFormed type htype).alternatives⟩
    · obtain ⟨field, hfield, rfl⟩ := List.mem_map.mp stands
      exact ⟨_, (wellFormed type htype).fields field hfield⟩
  have spells : Spells (treesOf scope alternatives) (unionText scope alternatives) :=
    spells_unionText wellFormed together means
  refine ⟨readTypes_eq_some_iff.mpr spells, fun trees => ⟨fun h => h.unique spells, ?_⟩⟩
  rintro rfl
  exact spells

/-- A field that may hold records of the kind it is in, read back. -/
theorem readTypes_links :
    let table := [oneFieldEntry linksNode linksField]
    let scope := scopeOf bareOptions (SymbolIndex.ofTable table) ""
    Schema.tableOf (oneFieldDocument linksNode) "" = .ok table ∧
    ((SymbolIndex.ofTable table).resolve? "R" "").isSome ∧
    unionText scope linksField.alternatives = "null | Array<R>".toList ∧
    readTypes "null | Array<R>".toList =
      some [.leaf "null".toList, .array [.leaf "R".toList]] := by
  intro table scope
  have htable : Schema.tableOf (oneFieldDocument linksNode) "" = .ok table := rfl
  have hresolve : (SymbolIndex.ofTable table).resolve? "R" "" =
      some (oneFieldEntry linksNode linksField) := by
    rw [SymbolIndex.resolve?_ofTable]
    rfl
  have spelled : scope.referenceText "R" = "R".toList := by
    simp only [scope, Scope.referenceText, scopeOf, hresolve]
    rfl
  have text : unionText scope linksField.alternatives = "null | Array<R>".toList := by
    simp only [linksField, unionText, typeTexts, typeText, TypeExpr.plain, TypeExpr.arrayOf,
      spelled]
    rfl
  have trees : treesOf scope linksField.alternatives =
      [.leaf "null".toList, .array [.leaf "R".toList]] := by
    simp only [linksField, treesOf, treeOf, TypeExpr.plain, TypeExpr.arrayOf, spelled]
    rfl
  have means : ∀ name ∈ referencesIn linksField.alternatives,
      ((SymbolIndex.ofTable table).resolve? name "").isSome := by
    intro name hname
    obtain rfl : name = "R" := List.mem_singleton.mp hname
    exact Option.isSome_of_eq_some hresolve
  have reads := (readTypes_unionText htable List.mem_cons_self
    (List.mem_cons_of_mem _ List.mem_cons_self) bareOptions means).1
  rw [text, trees] at reads
  exact ⟨htable, Option.isSome_of_eq_some hresolve, text, reads⟩

end AvroTypes.TypeScript
