import AvroTypes.Proofs.TypeScript.LegalNames

/-!
# Identifiers are names, and names are their own identifiers

An identifier can be made from any text.  It is a name, or empty if the text has nothing that a name
could start with, and what is a name already is left as it is.  So making identifiers is a
retraction of texts onto names: once it has been done, doing it again changes nothing.  Paths are
made part by part, and a namespace consists of names.

* `isName_identifierOf`, `identifierOf_of_isName` — into the names, and nothing happens to a name.
* `identifierOf_eq_empty_iff` — when nothing is left.
* `identifierOf_retraction` — **all of it together.**
-/

namespace AvroTypes.TypeScript

open AvroTypes.Schema (HasLetter IsLetter isName isNamespace)

variable {text : String}

/-- An identifier is a name unless it is empty. -/
lemma isName_identifierOf (h : identifierOf text ≠ "") : isName (identifierOf text) = true := by
  have nonempty : identifierChars text.toList ≠ [] := by simpa [identifierOf] using h
  simpa [isName, identifierOf] using isNameChars_identifierChars nonempty

/-- A name is its own identifier. -/
lemma identifierOf_of_isName (h : isName text = true) : identifierOf text = text := by
  rw [identifierOf, identifierChars_of_isNameChars h, String.ofList_toList]

/-- Nothing is left exactly of the texts without a letter. -/
lemma identifierOf_eq_empty_iff : identifierOf text = "" ↔ ¬ HasLetter text := by
  rw [← Schema.isEmpty_identifierOf_iff, Bool.not_eq_false, String.isEmpty_iff]

/-- **The texts that are left as they are**: the names, and the empty text. -/
lemma identifierOf_eq_self_iff : identifierOf text = text ↔ text = "" ∨ isName text = true := by
  constructor
  · intro same
    by_cases empty : text = ""
    · exact .inl empty
    · have name : isName (identifierOf text) = true := isName_identifierOf (by rwa [same])
      rw [same] at name
      exact .inr name
  · rintro (rfl | name)
    · rfl
    · exact identifierOf_of_isName name

/-- **Making identifiers is a retraction onto names.**  What is made from a text is a name, or
nothing; it is nothing exactly if the text has no letter of the alphabet and no underscore; a text
is left as it is exactly if it is empty or a name; so the second time nothing changes.  Of the
dotted names, each namespace is left as it is. -/
theorem identifierOf_retraction (text space : String) :
    (identifierOf text = "" ∨ isName (identifierOf text) = true) ∧
    (identifierOf text = "" ↔ ∀ c ∈ text.toList, c.isAlpha = false ∧ c ≠ '_') ∧
    (identifierOf text = text ↔ text = "" ∨ isName text = true) ∧
    identifierOf (identifierOf text) = identifierOf text ∧
    (isNamespace space = true → pathOf space = space) := by
  have lands : identifierOf text = "" ∨ isName (identifierOf text) = true :=
    or_iff_not_imp_left.mpr isName_identifierOf
  refine ⟨lands, ?_, identifierOf_eq_self_iff, identifierOf_eq_self_iff.mpr lands, fun names => ?_⟩
  · rw [identifierOf_eq_empty_iff]
    simp only [HasLetter, IsLetter, not_exists, not_and, not_or, Bool.not_eq_true]
  · rw [pathOf, pathChars_of_isNamespace names, String.ofList_toList]

/-- A digit at the front and two gaps, one of them a letter outside the alphabet. -/
theorem identifierOf_retraction_accented :
    isNamespace "com.acme_2" = true ∧ pathOf "com.acme_2" = "com.acme_2" ∧
      identifierOf "1.nä-me_2" = "NMe_2" ∧ identifierOf "NMe_2" = "NMe_2" := by
  have namespaceOk : isNamespace "com.acme_2" = true := by decide +kernel
  have made : identifierOf "1.nä-me_2" = "NMe_2" := by decide +kernel
  obtain ⟨-, -, -, again, path⟩ := identifierOf_retraction "1.nä-me_2" "com.acme_2"
  exact ⟨namespaceOk, path namespaceOk, made, made ▸ again⟩

end AvroTypes.TypeScript
