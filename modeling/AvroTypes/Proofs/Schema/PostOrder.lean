import AvroTypes.Proofs.Schema.Hoisting
import AvroTypes.Proofs.Schema.Members

/-!
# The order of the table

Where an entry stands in the table follows from where its node stands in the document.  A node is
moved out only after everything inside it has been, and what stands side by side is moved out from
the first to the last, so the table lists the named types of the document in post-order.

**Places.**  `Pointer.Precedes` is post-order on places, said without the resolvers: the inside
before the outside, and the smaller index first.

**One level.**  `Site.Ways` lists the ways on from a place in their order.  What a place declares is
what is declared behind each of them, one after the other, and then its own entry
(`Site.Yields.divides`).

**All levels.**  `Lists` says that places are listed in post-order next to their entries.  It is put
together from the ways (`exists_lists_behind`), and holds below every place that resolves
(`Site.Yields.exists_lists`) and of the whole document (`table_in_post_order`).
-/

namespace AvroTypes.Schema

open AvroTypes.Json (Value present?)

/-! ## Places -/

/-- **Post-order on places.**  What is inside comes before what it is in, and of two places that
part the one with the smaller index comes first. -/
inductive Pointer.Precedes : Pointer → Pointer → Prop
  | inside (step : Step) (rest : Pointer) : Precedes (step :: rest) []
  | earlier {i j : Nat} (less : i < j) (rest rest' : Pointer) :
      Precedes (.index i :: rest) (.index j :: rest')
  | deeper (step : Step) {place place' : Pointer} (h : Precedes place place') :
      Precedes (step :: place) (step :: place')

lemma Pointer.Precedes.asymm {place place' : Pointer} (h : place.Precedes place') :
    ¬ place'.Precedes place := by
  induction h with
  | inside => rintro ⟨⟩
  | earlier less =>
      intro h
      cases h with
      | earlier less' => omega
      | deeper => omega
  | deeper step _ ih =>
      intro h
      cases h with
      | earlier less => omega
      | deeper _ h => exact ih h

lemma Pointer.Precedes.append_left (steps : Pointer) {place place' : Pointer}
    (h : place.Precedes place') : Pointer.Precedes (steps ++ place) (steps ++ place') := by
  induction steps with
  | nil => exact h
  | cons step _ ih => exact .deeper step ih

lemma Pointer.precedes_nil {place : Pointer} (h : place ≠ []) : place.Precedes [] := by
  obtain ⟨step, rest, rfl⟩ := List.exists_cons_of_ne_nil h
  exact .inside step rest

/-- Everything behind some steps comes before everything behind some others. -/
def Pointer.PartsBefore (steps steps' : Pointer) : Prop :=
  ∀ rest rest', Pointer.Precedes (steps ++ rest) (steps' ++ rest')

lemma Pointer.partsBefore_index {i j : Nat} (less : i < j) :
    Pointer.PartsBefore [.index i] [.index j] :=
  fun rest rest' => .earlier less rest rest'

lemma Pointer.PartsBefore.append_left (steps : Pointer) {first second : Pointer}
    (h : first.PartsBefore second) : Pointer.PartsBefore (steps ++ first) (steps ++ second) := by
  intro rest rest'
  rw [List.append_assoc, List.append_assoc]
  exact (h rest rest').append_left steps

/-! ## One level -/

/-- **The ways on from a place**, in their order. -/
structure Site.Ways (site : Site) (ways : List (Pointer × Site)) : Prop where
  visits : ∀ {steps next}, (steps, next) ∈ ways ↔ site.Visits steps next
  ordered : ways.Pairwise fun way way' => way.1.PartsBefore way'.1

/-- The entry of a named type, and nothing at any other place. -/
inductive Site.Own : Site → List NamedType → Prop
  | named {site : Site} {entry : NamedType} (registers : site.Registers entry) : Own site [entry]
  | unnamed {site : Site} (unnamed : ∀ name, ¬ site.IsNamed name) : Own site []

lemma Site.ways_nil {site : Site} (none : ∀ steps next, ¬ site.Visits steps next) :
    site.Ways [] :=
  ⟨by simp [none], .nil⟩

lemma Site.ways_singleton {site next : Site} {steps : Pointer}
    (only : ∀ steps' next', site.Visits steps' next' ↔ steps' = steps ∧ next' = next) :
    site.Ways [(steps, next)] :=
  ⟨by simp [only], List.pairwise_singleton _ _⟩

/-- The ways into the elements of a list. -/
def waysInto (steps : Pointer) (role : Role) (space : String) (values : List Value) :
    List (Pointer × Site) :=
  values.mapIdx fun i value => (steps ++ [.index i], ⟨role, value, space⟩)

lemma mem_waysInto {steps : Pointer} {role : Role} {space : String} {values : List Value}
    {place : Pointer} {next : Site} :
    (place, next) ∈ waysInto steps role space values ↔
      ∃ i value, values[i]? = some value ∧ place = steps ++ [.index i] ∧
        next = ⟨role, value, space⟩ := by
  simp only [waysInto, List.mem_mapIdx, Prod.mk.injEq, List.getElem?_eq_some_iff]
  constructor
  · rintro ⟨i, hi, rfl, rfl⟩
    exact ⟨i, values[i], ⟨hi, rfl⟩, rfl, rfl⟩
  · rintro ⟨i, _, ⟨hi, rfl⟩, rfl, rfl⟩
    exact ⟨i, hi, rfl, rfl⟩

lemma pairwise_waysInto (steps : Pointer) (role : Role) (space : String) (values : List Value) :
    (waysInto steps role space values).Pairwise fun way way' => way.1.PartsBefore way'.1 := by
  rw [List.pairwise_iff_getElem]
  intro i j hi hj less
  simp only [waysInto, List.getElem_mapIdx]
  exact (Pointer.partsBefore_index less).append_left steps

/-! ### The ways on from a union and from a node -/

section

variable {role : Role} {node : Node} {around : String} {steps : Pointer} {next : Site}

lemma Site.visits_union_iff {alternatives : List Value} :
    Site.Visits ⟨.type, .array alternatives, around⟩ steps next ↔
      (steps, next) ∈ waysInto [] .type around alternatives := by
  rw [mem_waysInto]
  constructor
  · rintro ⟨leads, -⟩
    cases leads with
    | alternative found => exact ⟨_, _, found, rfl, rfl⟩
  · rintro ⟨i, value, found, rfl, rfl⟩
    exact ⟨.alternative found, .inl rfl⟩

lemma Site.visits_nested_iff {value : Value} (found : present? node "type" = some value)
    (noWord : ∀ word, value ≠ .string word) :
    Site.Visits ⟨role, .object node, around⟩ steps next ↔
      steps = [.key "type"] ∧ next = ⟨.type, value, node.spaceInside around⟩ := by
  constructor
  · intro visits
    cases visits.1 with
    | nested found' _ =>
        obtain rfl := Option.some.inj (found.symm.trans found')
        exact ⟨rfl, rfl⟩
    | items word _ =>
        exact absurd (Option.some.inj (found.symm.trans (present?_of_text? word))) (noWord _)
    | field word _ _ =>
        exact absurd (Option.some.inj (found.symm.trans (present?_of_text? word))) (noWord _)
  · rintro ⟨rfl, rfl⟩
    exact ⟨.nested found noWord, .inr rfl⟩

/-- A node whose type is a word does not lead into its type. -/
lemma Site.Visits.of_word {word : String} (h : Site.Visits ⟨role, .object node, around⟩ steps next)
    (said : node.text? "type" = some word) :
    (word = "array" ∧ ∃ value, present? node "items" = some value ∧ steps = [.key "items"] ∧
        next = ⟨.type, value, node.spaceInside around⟩) ∨
      (word = "record" ∧ role = .type ∧ ∃ fields, node.list? "fields" = some fields ∧
        (steps, next) ∈ waysInto [.key "fields"] .field (node.spaceInside around) fields) := by
  obtain ⟨leads, roles⟩ := h
  cases leads with
  | nested found noWord =>
      exact absurd (Option.some.inj (found.symm.trans (present?_of_text? said))) (noWord _)
  | items word' found =>
      obtain rfl := Option.some.inj (said.symm.trans word')
      exact .inl ⟨rfl, _, found, rfl, rfl⟩
  | field word' listed found =>
      obtain rfl := Option.some.inj (said.symm.trans word')
      exact .inr ⟨rfl, by simpa using roles, _, listed, mem_waysInto.mpr ⟨_, _, found, rfl, rfl⟩⟩

lemma Site.visits_array_iff {value : Value} (word : node.text? "type" = some "array")
    (found : present? node "items" = some value) :
    Site.Visits ⟨role, .object node, around⟩ steps next ↔
      steps = [.key "items"] ∧ next = ⟨.type, value, node.spaceInside around⟩ := by
  constructor
  · intro visits
    obtain ⟨-, value', found', rfl, rfl⟩ | ⟨record, -⟩ := visits.of_word word
    · obtain rfl := Option.some.inj (found.symm.trans found')
      exact ⟨rfl, rfl⟩
    · simp at record
  · rintro ⟨rfl, rfl⟩
    exact ⟨.items word found, .inr rfl⟩

lemma Site.visits_record_iff {fields : List Value} (word : node.text? "type" = some "record")
    (listed : node.list? "fields" = some fields) :
    Site.Visits ⟨.type, .object node, around⟩ steps next ↔
      (steps, next) ∈ waysInto [.key "fields"] .field (node.spaceInside around) fields := by
  constructor
  · intro visits
    obtain ⟨array, -⟩ | ⟨-, -, fields', listed', mem⟩ := visits.of_word word
    · simp at array
    · obtain rfl := Option.some.inj (listed.symm.trans listed')
      exact mem
  · intro mem
    obtain ⟨i, value, found, rfl, rfl⟩ := mem_waysInto.mp mem
    exact ⟨.field word listed found, .inl rfl⟩

end

/-! ### What is declared behind the ways -/

/-- What stands at a place resolves, and declares some entries. -/
def Site.Yields (site : Site) (declared : List NamedType) : Prop :=
  ∃ resolved, site.Resolves resolved ∧ resolved.declared = declared

/-- **Entries divide over the ways on from a place**: they are what is declared behind each of them,
one after the other. -/
def Site.Divides (site : Site) (declared : List NamedType) : Prop :=
  ∃ ways parts, site.Ways ways ∧ List.Forall₂ (fun way part => way.2.Yields part) ways parts ∧
    declared = parts.flatten

lemma forall₂_waysInto {β : Type} {R : Value → β → Prop} {steps : Pointer} {role : Role}
    {space : String} {values : List Value} {parts : List β} (declared : β → List NamedType)
    (h : List.Forall₂ R values parts)
    (yields : ∀ value part, R value part → Site.Yields ⟨role, value, space⟩ (declared part)) :
    List.Forall₂ (fun way part => way.2.Yields part) (waysInto steps role space values)
      (parts.map declared) := by
  rw [List.forall₂_map_right_iff]
  refine List.forall₂_iff_get.mpr ⟨by simp [waysInto, h.length_eq], fun i hi hi' => ?_⟩
  simp only [waysInto, List.get_eq_getElem, List.getElem_mapIdx]
  exact yields _ _ (h.get _ hi')

lemma Site.divides_nil {site : Site} (none : ∀ steps next, ¬ site.Visits steps next) :
    site.Divides [] :=
  ⟨[], [], site.ways_nil none, .nil, rfl⟩

lemma Site.divides_singleton {site next : Site} {steps : Pointer} {part : Resolved}
    (only : ∀ steps' next', site.Visits steps' next' ↔ steps' = steps ∧ next' = next)
    (resolves : next.Resolves part) : site.Divides part.declared :=
  ⟨[(steps, next)], [part.declared], Site.ways_singleton only, .cons ⟨part, resolves, rfl⟩ .nil,
    by simp⟩

section

variable {role : Role} {node : Node} {around : String} {content : Content}

/-- A node whose fields do not count has at most one way on, into its type or its items. -/
lemma Node.ContainsResolved.divides (h : node.ContainsResolved around content)
    (noFields : content.form = .record → role = .field) :
    Site.Divides ⟨role, .object node, around⟩ content.type.declared := by
  obtain ⟨value, found, noWord, resolves⟩ | ⟨value, elements, word, found, resolves, htype⟩ |
    ⟨word, kind, hword, noArray, isRecord, htype⟩ := h.type_cases
  · exact Site.divides_singleton (fun _ _ => Site.visits_nested_iff found noWord) resolves
  · have divides : Site.Divides ⟨role, .object node, around⟩ elements.declared :=
      Site.divides_singleton (fun _ _ => Site.visits_array_iff word found) resolves
    rwa [htype]
  · rw [htype]
    refine Site.divides_nil fun steps next visits => ?_
    obtain ⟨array, -⟩ | ⟨record, isType, -⟩ := visits.of_word hword
    · exact noArray array
    · simp [noFields (isRecord record)] at isType

/-- A record has a way on into each of its fields, and declares nothing in its type. -/
lemma Node.ContainsResolved.divides_record {inner : Option ResolvedFields}
    (h : node.ContainsResolved around content) (record : content.form = .record)
    (hinner : content.form.Inner (resolveFieldsMember node content.space) inner) :
    Site.Divides ⟨.type, .object node, around⟩
      (content.type.declared ++ (inner.map ResolvedFields.declared).getD []) := by
  have typed := h.typed
  have looks := looks_of_form h.form
  rw [record] at typed looks hinner
  obtain ⟨word, -, fields, listed⟩ := looks
  obtain ⟨resolved, hresolved, rfl⟩ := hinner
  rw [resolveFieldsMember_of_list? listed] at hresolved
  obtain ⟨parts, hparts, rfl⟩ := resolveFields_eq_ok_iff.mp hresolved
  refine ⟨waysInto [.key "fields"] .field (node.spaceInside around) fields, parts.map Prod.snd,
    ⟨(Site.visits_record_iff word listed).symm, pairwise_waysInto _ _ _ _⟩, ?_, ?_⟩
  · rw [← h.space_eq]
    exact forall₂_waysInto Prod.snd hparts fun _ _ hfield => ⟨_, .field hfield, rfl⟩
  · rw [show content.type = _ from typed]
    simp [Resolved.plain, List.flatMap_def]

/-- **What a place declares** is what is declared behind its ways, and then its own entry. -/
theorem Site.Yields.divides {site : Site} {declared : List NamedType} (h : site.Yields declared) :
    ∃ behind own, site.Divides behind ∧ site.Own own ∧ declared = behind ++ own := by
  obtain ⟨resolved, h, rfl⟩ := h
  obtain ⟨role, value, around⟩ := site
  cases value with
  | object node =>
      obtain ⟨rfl, name, content, inner, hname, hcontent, hinner, rfl⟩ |
        ⟨unnamed, content, hcontent, rfl⟩ := h.moved_or_content
      · refine ⟨_, _, ?_, .named (.intro hname hcontent hinner), rfl⟩
        by_cases record : content.form = .record
        · exact hcontent.divides_record record hinner
        · obtain rfl : inner = none := by cases hform : content.form <;> simp_all [Form.Inner]
          simpa using hcontent.divides fun isRecord => absurd isRecord record
      · refine ⟨_, [], hcontent.divides fun record => ?_, .unnamed unnamed, by simp⟩
        -- a record has a name, so it stands in the place of a field
        have looks := looks_of_form hcontent.form
        rw [record] at looks
        obtain ⟨name, hname⟩ := Option.isSome_iff_exists.mp looks.2.1
        cases role with
        | type => exact absurd ⟨rfl, node, rfl, hname⟩ (unnamed name)
        | field => rfl
  | array alternatives =>
      cases h with
      | type h =>
          obtain ⟨-, hunion⟩ := resolveType_array_eq_ok_iff.mp h
          obtain ⟨parts, hparts, rfl⟩ := resolveUnion_eq_ok_iff.mp hunion
          refine ⟨_, [], ⟨waysInto [] .type around alternatives, parts.map Resolved.declared,
            ⟨Site.visits_union_iff.symm, pairwise_waysInto _ _ _ _⟩, ?_, rfl⟩,
            .unnamed (by simp [Site.IsNamed]), by simp [List.flatMap_def]⟩
          exact forall₂_waysInto Resolved.declared hparts fun _ part hpart =>
            ⟨part, .type hpart, rfl⟩
      | field h => simp [resolveField] at h
  | string word =>
      cases h with
      | type h =>
          obtain ⟨-, rfl⟩ := resolveWord_eq_ok_iff.mp (by rwa [resolveType] at h)
          exact ⟨[], [], Site.divides_nil (by rintro _ _ ⟨⟨⟩, -⟩),
            .unnamed (by simp [Site.IsNamed]), rfl⟩
      | field h => simp [resolveField] at h
  | _ =>
      cases h with
      | type h => simp [resolveType] at h
      | field h => simp [resolveField] at h

end

/-! ## All levels -/

/-- **Some places are listed in post-order**, next to the entries that are registered there. -/
structure Lists (places : List (Pointer × Site)) (which : Pointer → Site → Prop)
    (table : List NamedType) : Prop where
  mem : ∀ {place site}, (place, site) ∈ places ↔ which place site
  ordered : places.Pairwise fun first second => first.1.Precedes second.1
  registers : List.Forall₂ (fun listed entry => listed.2.Registers entry) places table

lemma Lists.lt_iff {places : List (Pointer × Site)} {which : Pointer → Site → Prop}
    {table : List NamedType} (h : Lists places which table) {i j : Nat}
    {first second : Pointer × Site} (hi : places[i]? = some first)
    (hj : places[j]? = some second) : i < j ↔ first.1.Precedes second.1 := by
  obtain ⟨hi', rfl⟩ := List.getElem?_eq_some_iff.mp hi
  obtain ⟨hj', rfl⟩ := List.getElem?_eq_some_iff.mp hj
  have ordered := List.pairwise_iff_getElem.mp h.ordered
  refine ⟨ordered i j hi' hj', fun precedes => ?_⟩
  by_contra notLess
  rcases Nat.lt_or_eq_of_le (Nat.le_of_not_lt notLess) with less | rfl
  · exact precedes.asymm (ordered j i hj' hi' less)
  · exact precedes.asymm precedes

/-- A named type at or below a place. -/
def Site.NamedBelow (top : Site) (place : Pointer) (site : Site) : Prop :=
  Below Site.Visits top place site ∧ ∃ name, site.IsNamed name

/-- The lists behind several ways, one after the other, are a list again: the ways part. -/
lemma exists_lists_behind {ways : List (Pointer × Site)} {parts : List (List NamedType)}
    (ordered : ways.Pairwise fun way way' => way.1.PartsBefore way'.1)
    (each : List.Forall₂ (fun way part => ∃ places, Lists places way.2.NamedBelow part)
      ways parts) :
    ∃ places, Lists places (fun place site => ∃ way ∈ ways, ∃ rest, place = way.1 ++ rest ∧
      way.2.NamedBelow rest site) parts.flatten := by
  induction each with
  | nil => exact ⟨[], by simp, .nil, .nil⟩
  | @cons way part ways parts first _ ih =>
      obtain ⟨before, ordered⟩ := List.pairwise_cons.mp ordered
      obtain ⟨inside, hinside⟩ := first
      obtain ⟨behind, hbehind⟩ := ih ordered
      refine ⟨inside.map (fun listed => (way.1 ++ listed.1, listed.2)) ++ behind, ?_, ?_, ?_⟩
      · intro place site
        simp only [List.mem_append, List.mem_map, Prod.exists, Prod.mk.injEq, hinside.mem,
          hbehind.mem, List.exists_mem_cons_iff]
        refine or_congr ⟨?_, ?_⟩ Iff.rfl
        · rintro ⟨rest, _, below, rfl, rfl⟩
          exact ⟨rest, rfl, below⟩
        · rintro ⟨rest, rfl, below⟩
          exact ⟨rest, site, below, rfl, rfl⟩
      · refine List.pairwise_append.mpr ⟨List.pairwise_map.mpr ?_, hbehind.ordered, ?_⟩
        · exact hinside.ordered.imp fun h => h.append_left way.1
        · rintro listed hlisted ⟨place, site⟩ hplace
          obtain ⟨at', -, rfl⟩ := List.mem_map.mp hlisted
          obtain ⟨way', hway', rest, rfl, -⟩ := hbehind.mem.mp hplace
          exact before way' hway' _ _
      · refine List.rel_append ?_ hbehind.registers
        rw [List.forall₂_map_left_iff]
        exact hinside.registers

lemma Site.Leads.ne_nil {site next : Site} {steps : Pointer} (h : site.Leads steps next) :
    steps ≠ [] := by
  cases h <;> simp

/-- A place below another is that place, or below the end of one of its ways. -/
lemma below_iff {way : Site → Pointer → Site → Prop} {top site : Site} {place : Pointer} :
    Below way top place site ↔ (place = [] ∧ site = top) ∨
      ∃ steps next rest, way top steps next ∧ place = steps ++ rest ∧ Below way next rest site := by
  constructor
  · intro below
    induction below with
    | here => exact .inl ⟨rfl, rfl⟩
    | @step place steps site next _ goes ih =>
        right
        rcases ih with ⟨rfl, rfl⟩ | ⟨first, middle, rest, goes', rfl, below⟩
        · exact ⟨steps, next, [], goes, by simp, .here⟩
        · exact ⟨first, middle, rest ++ steps, goes', by simp, below.step goes⟩
  · rintro (⟨rfl, rfl⟩ | ⟨steps, next, rest, goes, rfl, below⟩)
    · exact .here
    · exact below.head goes

lemma Site.Ways.namedBelow_iff {site next : Site} {ways : List (Pointer × Site)}
    (h : site.Ways ways) {place : Pointer} :
    site.NamedBelow place next ↔ (∃ way ∈ ways, ∃ rest, place = way.1 ++ rest ∧
        way.2.NamedBelow rest next) ∨
      (place = [] ∧ next = site ∧ ∃ name, site.IsNamed name) := by
  rw [Site.NamedBelow, below_iff, or_and_right, or_comm]
  refine or_congr ⟨?_, ?_⟩ ⟨?_, ?_⟩
  · rintro ⟨⟨steps, middle, rest, goes, rfl, below⟩, named⟩
    exact ⟨(steps, middle), h.visits.mpr goes, rest, rfl, below, named⟩
  · rintro ⟨⟨steps, middle⟩, hway, rest, rfl, below, named⟩
    exact ⟨⟨steps, middle, rest, h.visits.mp hway, rfl, below⟩, named⟩
  · rintro ⟨⟨rfl, rfl⟩, named⟩
    exact ⟨rfl, rfl, named⟩
  · rintro ⟨rfl, rfl, named⟩
    exact ⟨⟨rfl, rfl⟩, named⟩

/-- **Below a place that resolves the named types are listed in post-order.**  The induction is on
the size of what stands at the place, since every way leads to something smaller. -/
theorem Site.Yields.exists_lists {site : Site} {declared : List NamedType}
    (h : site.Yields declared) : ∃ places, Lists places site.NamedBelow declared := by
  induction hsize : sizeOf site.value using Nat.strongRecOn generalizing site declared with
  | _ size ih =>
      obtain ⟨behind, own, ⟨ways, parts, hways, hparts, rfl⟩, hown, hdeclared⟩ := h.divides
      have each : List.Forall₂ (fun way part => ∃ places, Lists places way.2.NamedBelow part)
          ways parts := by
        refine List.forall₂_iff_zip.mpr ⟨hparts.length_eq, fun {way part} hmem => ?_⟩
        have goes := hways.visits.mp (List.of_mem_zip hmem).1
        exact ih _ (hsize ▸ Site.size_lt_of_leads goes.1)
          ((List.forall₂_iff_zip.mp hparts).2 hmem) rfl
      obtain ⟨places, hplaces⟩ := exists_lists_behind hways.ordered each
      rw [hdeclared]
      cases hown with
      | unnamed unnamed =>
          refine ⟨places, fun {place next} => ?_, hplaces.ordered, by simpa using hplaces.registers⟩
          rw [hplaces.mem, hways.namedBelow_iff]
          simp [unnamed]
      | named registers =>
          refine ⟨places ++ [([], site)], fun {place next} => ?_, ?_,
            List.rel_append hplaces.registers (.cons registers .nil)⟩
          · rw [List.mem_append, hplaces.mem, hways.namedBelow_iff, List.mem_singleton,
              Prod.mk.injEq]
            simp [Exists.intro _ registers.isNamed]
          · refine List.pairwise_append.mpr ⟨hplaces.ordered, List.pairwise_singleton _ _, ?_⟩
            rintro ⟨place, next⟩ hplace last hlast
            obtain rfl := List.mem_singleton.mp hlast
            obtain ⟨way, hway, rest, rfl, -⟩ := hplaces.mem.mp hplace
            exact Pointer.precedes_nil (by simp [(hways.visits.mp hway).1.ne_nil])

/-! ## Documents -/

/-- The tops of a document, in their order, with what each of them declares. -/
lemma tops_of_tableOf {document : Value} {around : String} {table : List NamedType}
    (h : tableOf document around = .ok table) :
    ∃ tops parts, (∀ {first top}, (first, top) ∈ tops ↔ Opens document around first top) ∧
      tops.Pairwise (fun top top' => top.1.PartsBefore top'.1) ∧
      List.Forall₂ (fun (top : Pointer × Site) part => top.2.Yields part) tops parts ∧
      table = parts.flatten := by
  have yields : ∀ {document : Value} {declared : List NamedType},
      resolveDocument document around = .ok declared →
      Site.Yields ⟨.type, document, around⟩ declared := by
    intro document declared hdocument
    obtain ⟨node, resolved, rfl, hresolved, rfl⟩ := resolveDocument_eq_ok_iff.mp hdocument
    exact ⟨resolved, .type hresolved, rfl⟩
  obtain ⟨-, hdocument | ⟨documents, tables, rfl, htables, rfl⟩⟩ := tableOf_eq_ok_iff.mp h
  · obtain ⟨node, -, rfl, -⟩ := resolveDocument_eq_ok_iff.mp hdocument
    refine ⟨[([], ⟨.type, .object node, around⟩)], [table], fun {first top} => ⟨?_, ?_⟩,
      List.pairwise_singleton _ _, .cons (yields hdocument) .nil, by simp⟩
    · intro hmem
      obtain ⟨rfl, rfl⟩ := Prod.mk.inj (List.mem_singleton.mp hmem)
      exact .one
    · rintro ⟨⟩
      exact List.mem_singleton_self _
  · refine ⟨waysInto [] .type around documents, tables.map id, fun {first top} => ?_,
      pairwise_waysInto _ _ _ _, forall₂_waysInto id htables fun _ _ => yields, by simp⟩
    rw [mem_waysInto]
    constructor
    · rintro ⟨i, value, found, rfl, rfl⟩
      exact .several found
    · intro opens
      cases opens with
      | several found => exact ⟨_, _, found, rfl, rfl⟩

/-- **The table is in post-order.**  The places of the named types that resolving visits, each once,
can be listed next to the entries of the table, so that an entry stands before another exactly if
its place comes before that of the other: because it is inside it, or because where the two part
its index is the smaller one. -/
theorem table_in_post_order {document : Value} {around : String} {table : List NamedType}
    (h : tableOf document around = .ok table) :
    ∃ places : List (Pointer × Site),
      (∀ place site, (place, site) ∈ places ↔
        Reached Site.Visits document around place site ∧ ∃ name, site.IsNamed name) ∧
      (places.map Prod.fst).Nodup ∧
      List.Forall₂ (fun listed entry => listed.2.Registers entry) places table ∧
      ∀ (i j : Nat) (first second : Pointer × Site), places[i]? = some first →
        places[j]? = some second →
        (i < j ↔ first.1.Precedes second.1) := by
  obtain ⟨tops, parts, htops, ordered, hparts, rfl⟩ := tops_of_tableOf h
  obtain ⟨places, hplaces⟩ :=
    exists_lists_behind ordered (hparts.imp fun _ _ yields => yields.exists_lists)
  refine ⟨places, fun place site => ?_, ?_, hplaces.registers, fun i j first second hi hj => ?_⟩
  · rw [hplaces.mem]
    constructor
    · rintro ⟨top, htop, rest, rfl, below, named⟩
      exact ⟨⟨top.1, top.2, rest, htops.mp htop, below, rfl⟩, named⟩
    · rintro ⟨⟨first, top, rest, opens, below, rfl⟩, named⟩
      exact ⟨(first, top), htops.mpr opens, rest, rfl, below, named⟩
  · refine List.pairwise_map.mpr (hplaces.ordered.imp ?_)
    intro first second precedes same
    rw [same] at precedes
    exact precedes.asymm precedes
  · exact hplaces.lt_iff hi hj

/-- The record with the nested field, and then the enumeration in it once more. -/
def repeatedDocument : Value := .array [.object nestingNode, .object enumNode]

/-- The two entries of the enumeration are equal, but they have places of their own: one inside the
record, before its entry, and one after it. -/
theorem table_in_post_order_repeated :
    tableOf repeatedDocument "" = .ok [enumEntry, nestingEntry, enumEntry] ∧
      ∃ places : List (Pointer × Site), (places.map Prod.fst).Nodup ∧
        List.Forall₂ (fun listed entry => listed.2.Registers entry) places
          [enumEntry, nestingEntry, enumEntry] ∧
        ∀ (i j : Nat) (first second : Pointer × Site), places[i]? = some first →
          places[j]? = some second → (i < j ↔ first.1.Precedes second.1) := by
  have htable : tableOf repeatedDocument "" = .ok [enumEntry, nestingEntry, enumEntry] := by rfl
  obtain ⟨places, -, distinct, registers, ordered⟩ := table_in_post_order htable
  exact ⟨htable, places, distinct, registers, ordered⟩

end AvroTypes.Schema
