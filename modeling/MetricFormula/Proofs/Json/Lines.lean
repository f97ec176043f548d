import MetricFormula.Proofs.Json.RoundTrip

/-!
# Lines of printed documents

The compact form of a document is a single line, whatever the strings in it: control characters are
escaped, and nothing else that is printed is one.

## Main results

* `Document.isPlain_compact`: the compact form of a document has no control characters.
-/

namespace MetricFormula.Json

namespace Document

mutual

/-- The compact form has no control characters. -/
theorem isPlain_compact (document : Document) (h : HasDigits document.literals) :
    IsPlain document.compact := by
  match document with
  | .null | .boolean true | .boolean false => decide
  | .number literal => exact isPlain_text (h literal (List.mem_singleton_self literal))
  | .string value => exact isPlain_stringLiteral value
  | .array items =>
    exact isPlain_enclosed (isPlain_compactItems items h) (by decide) (by decide)
  | .object members =>
    exact isPlain_enclosed (isPlain_compactMembers members h) (by decide) (by decide)

/-- Nor have the compact forms of items with commas between them. -/
theorem isPlain_compactItems (items : List Document) (h : HasDigits (literalsOfItems items)) :
    IsPlain (compactItems items) := by
  match items with
  | [] => exact isPlain_nil
  | [item] =>
    rw [literalsOfItems, hasDigits_append] at h
    exact isPlain_compact item h.1
  | item :: next :: items =>
    rw [literalsOfItems, hasDigits_append] at h
    have hnext := isPlain_compactItems (next :: items) h.2
    exact isPlain_append.2 ⟨isPlain_compact item h.1, isPlain_cons.2 ⟨by decide, hnext⟩⟩

/-- Nor have the compact forms of members with commas between them. -/
theorem isPlain_compactMembers (members : List (Option String × Document))
    (h : HasDigits (literalsOfMembers members)) : IsPlain (compactMembers members) := by
  match members with
  | [] => exact isPlain_nil
  | [(name, value)] =>
    rw [literalsOfMembers, hasDigits_append] at h
    exact isPlain_append.2 ⟨isPlain_stringLiteral name,
      isPlain_cons.2 ⟨by decide, isPlain_compact value h.1⟩⟩
  | (name, value) :: next :: members =>
    rw [literalsOfMembers, hasDigits_append] at h
    have hmember : IsPlain (stringLiteral name ++ ':' :: value.compact) :=
      isPlain_append.2 ⟨isPlain_stringLiteral name,
        isPlain_cons.2 ⟨by decide, isPlain_compact value h.1⟩⟩
    have hnext := isPlain_compactMembers (next :: members) h.2
    exact isPlain_append.2 ⟨hmember, isPlain_cons.2 ⟨by decide, hnext⟩⟩

end

end Document

end MetricFormula.Json
