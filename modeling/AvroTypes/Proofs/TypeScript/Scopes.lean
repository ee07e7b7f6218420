import AvroTypes.Proofs.Table.References
import AvroTypes.TypeScript.OutputFile
import Mathlib.Data.List.Basic

/-!
# What a declaration needs of its scope

A declaration looks at the other types of the table only through its references: at what each of
them is written as.  So two scopes in which the references of a type are written alike give it the
same declaration, whatever else is different about them.

* `Scope.AgreeOn` — two scopes write some references alike.
* `typeText_congr`, `declarationLines_congr` — **what is written alike then**: a type, and a whole
  declaration.
* `fileOf_congr` — the same for a file.
-/

namespace AvroTypes.TypeScript

/-- **Two scopes agree on some names**: as references they are written alike. -/
def Scope.AgreeOn (scope scope' : Scope) (names : List String) : Prop :=
  ∀ name ∈ names, scope.referenceText name = scope'.referenceText name

section

variable {scope scope' : Scope}

lemma Scope.AgreeOn.mono {names more : List String} (h : scope.AgreeOn scope' more)
    (sub : names ⊆ more) : scope.AgreeOn scope' names := fun name hname => h name (sub hname)

mutual

/-- **A type is written alike if its references are.** -/
lemma typeText_congr : ∀ type : TypeExpr, scope.AgreeOn scope' type.references →
    typeText scope type = typeText scope' type
  | .of kind elements => fun h => by
      cases kind with
      | array => rw [typeText, typeText, typeTexts_congr elements h]
      | reference name => exact h name List.mem_cons_self
      | _ => rfl

/-- The same for a list of alternatives. -/
lemma typeTexts_congr : ∀ types : List TypeExpr, scope.AgreeOn scope' (referencesIn types) →
    typeTexts scope types = typeTexts scope' types
  | [] => fun _ => rfl
  | first :: rest => fun h => by
      rw [typeTexts, typeTexts, typeText_congr first (h.mono (List.subset_append_left _ _)),
        typeTexts_congr rest (h.mono (List.subset_append_right _ _))]

end

lemma unionText_congr {alternatives : List TypeExpr}
    (h : scope.AgreeOn scope' (referencesIn alternatives)) :
    unionText scope alternatives = unionText scope' alternatives := by
  rw [unionText, unionText, typeTexts_congr alternatives h]

lemma propertyLines_congr {field : Field}
    (h : scope.AgreeOn scope' (referencesIn field.alternatives)) :
    propertyLines scope field = propertyLines scope' field := by
  simp only [propertyLines, propertyText, fieldTypeText, unionText_congr h]

variable {type : NamedType}

lemma aliasLines_congr (h : scope.AgreeOn scope' type.references) :
    aliasLines scope type = aliasLines scope' type := by
  rw [aliasLines, aliasLines, unionText_congr (h.mono (List.subset_append_left _ _))]

lemma recordLines_congr (h : scope.AgreeOn scope' type.references) :
    recordLines scope type = recordLines scope' type := by
  have properties : type.fields.map (propertyLines scope) =
      type.fields.map (propertyLines scope') :=
    List.map_congr_left fun field hfield => propertyLines_congr <| h.mono fun _ hname =>
      List.mem_append_right _ (List.mem_flatMap.mpr ⟨field, hfield, hname⟩)
  rw [recordLines, recordLines, properties]

/-- **A type is declared alike if its references are written alike.** -/
theorem declarationLines_congr (options : Options) (h : scope.AgreeOn scope' type.references) :
    declarationLines options scope type = declarationLines options scope' type := by
  simp only [declarationLines, aliasLines_congr h, recordLines_congr h]

end

/-- Scopes of one namespace agree on what means the same. -/
lemma agreeOn_scopeOf {options : Options} {index index' : SymbolIndex} {space : String}
    {names : List String}
    (same : ∀ name ∈ names, index.resolve? name space = index'.resolve? name space) :
    (scopeOf options index space).AgreeOn (scopeOf options index' space) names := by
  intro name hname
  rw [Scope.referenceText, Scope.referenceText, scopeOf, scopeOf, same name hname]

/-- **A file is the same if the references in it mean the same.** -/
lemma fileOf_congr {options : Options} {index index' : SymbolIndex} {group : Group}
    (same : ∀ type ∈ group.types, ∀ name ∈ type.references,
      index.resolve? name group.space = index'.resolve? name group.space) :
    fileOf options index group = fileOf options index' group := by
  have lines : groupLines options (scopeOf options index group.space) group.types =
      groupLines options (scopeOf options index' group.space) group.types :=
    List.flatMap_congr fun type htype => by
      rw [declarationLines_congr options (agreeOn_scopeOf (same type htype))]
  rw [fileOf, fileOf, fileLines, fileLines, lines]

end AvroTypes.TypeScript
