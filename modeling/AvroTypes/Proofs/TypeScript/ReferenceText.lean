import AvroTypes.Json.Printer
import AvroTypes.Proofs.Conversion.Success
import AvroTypes.Proofs.Table.Lookup
import AvroTypes.Proofs.Table.References
import AvroTypes.Proofs.TypeScript.Declared

/-!
# What a reference is written as

A reference is written from what it means: from the name alone if the type is in the same
namespace, and otherwise from the name with its namespace.  The first is the identifier of the
declaration.  The second takes a dot in the name for one more part of the path, where the
declaration has dropped it, so it is the path of the declaration only for names without a dot.

* `typeText_home`, `typeText_foreign` — the two cases.
* `typeText_eq_declared_iff` — **where the text of a reference is the path of what it means.**
-/

namespace AvroTypes.TypeScript

section

variable {options : Options} {index : SymbolIndex} {space reference : String}
  {target : NamedType} (elements : List TypeExpr)

/-- A reference to a type of the same namespace is written as its identifier. -/
lemma typeText_home (h : index.resolve? reference space = some target)
    (home : target.space = space) :
    typeText (scopeOf options index space) (.of (.reference reference) elements) =
      identifierFor target := by
  simp [typeText, Scope.referenceText, scopeOf, h, home, identifierFor]

/-- A reference to a type of another namespace is written as the path of its full name. -/
lemma typeText_foreign (blocks : options.namespaceBlocks = true)
    (h : index.resolve? reference space = some target) (foreign : target.space ≠ space) :
    typeText (scopeOf options index space) (.of (.reference reference) elements) =
      pathPrefix target.space ++ pathChars target.name.toList := by
  simp [typeText, Scope.referenceText, scopeOf, h, blocks, foreign, NamedType.fullName,
    pathChars_qualify]

end

lemma mem_of_resolve? {table : List NamedType} {reference space : String} {target : NamedType}
    (h : (SymbolIndex.ofTable table).resolve? reference space = some target) : target ∈ table := by
  obtain ⟨-, before, after, rfl, -⟩ := resolve?_eq_some_iff.mp h
  simp

/-- **A reference is written as the name of what it means, unless that name has a dot.**  Every type
of the table is declared in the output, with references written as they are seen from its
namespace.  One to a type of the same namespace is written as the identifier of the declaration.
One to a type of another namespace is written as the path of the declaration, the name of the block
included, exactly if the name of the type has no dot. -/
theorem typeText_eq_declared_iff {options : Options} (blocks : options.namespaceBlocks = true)
    {text : String} {files : List OutputFile}
    (h : Conversion.filesOfText options text = .ok files) :
    ∃ table, Conversion.tableOfText options text = .ok table ∧
      (∀ type ∈ table, ∃ header identifier, DeclaredAt options files table type header identifier) ∧
      ∀ holder ∈ table, ∀ reference ∈ holder.references, ∀ target,
        (SymbolIndex.ofTable table).resolve? reference holder.space = some target →
        target ∈ table ∧ ∀ header identifier,
          DeclaredAt options files table target header identifier → ∀ elements,
            let written := typeText (scopeOf options (SymbolIndex.ofTable table) holder.space)
              (.of (.reference reference) elements)
            (target.space = holder.space → written = identifier) ∧
            (target.space ≠ holder.space →
              (written = header ++ identifier ↔ '.' ∉ target.name.toList)) := by
  obtain ⟨-, table, htable, hassemble⟩ := Conversion.filesOfText_eq_ok_iff.mp h
  refine ⟨table, htable, fun type htype => ⟨_, _, declaredAt_of_mem blocks hassemble htype⟩,
    fun holder _ reference _ target htarget => ?_⟩
  have hmem := mem_of_resolve? htarget
  refine ⟨hmem, fun header identifier declared elements => ?_⟩
  obtain ⟨rfl, rfl⟩ := declared.unique (declaredAt_of_mem blocks hassemble hmem)
  refine ⟨typeText_home elements htarget, fun foreign => ?_⟩
  rw [typeText_foreign elements blocks htarget foreign, List.append_cancel_left_eq]
  exact pathChars_eq_identifierChars_iff

/-- A number type of a given name in a namespace. -/
def targetDocument (name : String) : Json.Value :=
  .object [("name", .string name), ("namespace", .string "b"), ("type", .string "int")]

/-- A type in another namespace that refers to it. -/
def holderDocument (name : String) : Json.Value :=
  .object [("name", .string "R"), ("namespace", .string "a"), ("type", .string name)]

/-- The two types as one document. -/
def aliasDocument (name : String) : Json.Value :=
  .array [targetDocument name, holderDocument name]

/-- Its text. -/
def aliasText (name : String) : String := (aliasDocument name).compact

/-- The entry of the number type. -/
def targetEntry (name : String) : NamedType :=
  { name, space := "b", alternatives := [.plain .number], schema := targetDocument name }

/-- The table of the document. -/
def aliasTable (name : String) : List NamedType :=
  [targetEntry name,
    { name := "R", space := "a", alternatives := [.plain (.reference name)]
      schema := holderDocument name }]

/-- Options under which references may mean nothing. -/
def aliasOptions : Options := { denyDangling := false }

/-- The text of the reference. -/
def aliasReference (name : String) : List Char :=
  typeText (scopeOf aliasOptions (SymbolIndex.ofTable (aliasTable name)) "a")
    (.plain (.reference name))

lemma exists_files_of_alias {name : String}
    (htable : Conversion.tableOfText aliasOptions (aliasText name) = .ok (aliasTable name))
    (hissues : issues aliasOptions (SymbolIndex.ofTable (aliasTable name)) (aliasTable name) = []) :
    ∃ files, Conversion.filesOfText aliasOptions (aliasText name) = .ok files ∧
      assemble aliasOptions (aliasTable name) = .ok files := by
  have hassemble : assemble aliasOptions (aliasTable name) = .ok _ :=
    assemble_eq_ok_iff.mpr ⟨hissues, rfl⟩
  exact ⟨_, Conversion.filesOfText_eq_ok_iff.mpr ⟨rfl, _, htable, hassemble⟩, hassemble⟩

/-- A type without a dot in its name is referred to by the path of its declaration. -/
theorem typeText_eq_declared_plain :
    ∃ files header identifier,
      Conversion.filesOfText aliasOptions (aliasText "E") = .ok files ∧
      DeclaredAt aliasOptions files (aliasTable "E") (targetEntry "E") header identifier ∧
      aliasReference "E" = header ++ identifier := by
  have htable : Conversion.tableOfText aliasOptions (aliasText "E") = .ok (aliasTable "E") :=
    Conversion.tableOfText_eq_ok_iff.mpr ⟨aliasDocument "E", by cbv, by rfl⟩
  obtain ⟨files, hfiles, -⟩ := exists_files_of_alias htable (by decide +kernel)
  obtain ⟨table, htable', declared, means⟩ := typeText_eq_declared_iff (by rfl) hfiles
  obtain rfl := Except.ok.inj (htable.symm.trans htable')
  obtain ⟨header, identifier, hdeclared⟩ := declared (targetEntry "E") List.mem_cons_self
  have hresolve : (SymbolIndex.ofTable (aliasTable "E")).resolve? "E" "a" =
      some (targetEntry "E") := by
    rw [SymbolIndex.resolve?_ofTable]
    rfl
  have holds := means _ (List.mem_cons_of_mem _ List.mem_cons_self) "E" (by decide) _ hresolve
  exact ⟨files, header, identifier, hfiles, hdeclared,
    (((holds.2 header identifier hdeclared []).2 (by decide)).mpr (by decide))⟩

/-- **A type with a dot in its name is referred to by a path that is not that of its
declaration**: the declaration has dropped the dot. -/
theorem typeText_ne_declared_dotted :
    (∃ files, Conversion.filesOfText aliasOptions (aliasText "x.y") = .ok files ∧
      DeclaredAt aliasOptions files (aliasTable "x.y") (targetEntry "x.y")
        "b.".toList "xY".toList) ∧
    Conversion.tableOfText aliasOptions (aliasText "x.y") = .ok (aliasTable "x.y") ∧
    (SymbolIndex.ofTable (aliasTable "x.y")).resolve? "x.y" "a" = some (targetEntry "x.y") ∧
    aliasReference "x.y" = "b.x.y".toList := by
  have htable : Conversion.tableOfText aliasOptions (aliasText "x.y") = .ok (aliasTable "x.y") :=
    Conversion.tableOfText_eq_ok_iff.mpr ⟨aliasDocument "x.y", by cbv, by rfl⟩
  obtain ⟨files, hfiles, hassemble⟩ := exists_files_of_alias htable (by decide +kernel)
  have hresolve : (SymbolIndex.ofTable (aliasTable "x.y")).resolve? "x.y" "a" =
      some (targetEntry "x.y") := by
    rw [SymbolIndex.resolve?_ofTable]
    rfl
  refine ⟨⟨files, hfiles, declaredAt_of_mem rfl hassemble List.mem_cons_self⟩, htable, hresolve, ?_⟩
  exact typeText_foreign [] rfl hresolve (by decide)

end AvroTypes.TypeScript
