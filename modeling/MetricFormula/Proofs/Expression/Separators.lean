import MetricFormula.Proofs.Expression.Splitting

/-!
# Where a text may be cut into two

Scanning a text with a blank, an operator, a parenthesis or a comma in it is scanning what stands in
front of it and what stands behind it: the words of both parts are put together around the one that
the character itself may be, and of two errors the first one counts. No other character is like
that, since all the others go on with a word or make none.

## Main definitions

* `Lexeme.Separates`: the characters that separate words, and the words that they are themselves;
* `Lexeme.Joins`: the outcome of scanning a text, from the outcomes of its two parts.

## Main results

* `Lexeme.separator?_eq_some_iff`: the test for separators, character by character;
* `Lexeme.joins_iff`: the outcome of two parts is determined;
* `Lexeme.scan_distributes_iff`: scanning distributes over the separators and over nothing else.
-/

namespace MetricFormula

namespace Lexeme

/-! ## Separators -/

/-- A character separates words: a blank, which is no word, or an operator, a parenthesis or the
comma, each of which is one. -/
inductive Separates : Char → List Lexeme → Prop
  /-- A blank. -/
  | blank {c : Char} (h : Text.isBlank c) : Separates c []
  /-- An operator. -/
  | operator (operation : Arithmetic) : Separates operation.sign [operation.lexeme]
  /-- An opening parenthesis. -/
  | opening : Separates '(' [.opening]
  /-- A closing parenthesis. -/
  | closing : Separates ')' [.closing]
  /-- A comma. -/
  | comma : Separates ',' [.comma]

variable {c : Char} {words : List Lexeme}

/-- The characters that end every word are the separators. -/
theorem separator?_eq_some_iff : separator? c = some words ↔ Separates c words := by
  constructor
  · intro h
    unfold separator? at h
    split at h
    next hblank =>
      cases h
      exact .blank hblank
    next =>
      obtain ⟨lexeme, hlexeme, rfl⟩ := Option.map_eq_some_iff.1 h
      -- There is one character for each of the words.
      unfold ofChar? at hlexeme
      split at hlexeme <;> cases hlexeme
      · exact .operator .add
      · exact .operator .subtract
      · exact .operator .multiply
      · exact .operator .divide
      · exact .opening
      · exact .closing
      · exact .comma
  · intro h
    cases h with
    | blank hblank => exact separator?_of_isBlank hblank
    | operator operation => cases operation <;> rfl
    | opening => rfl
    | closing => rfl
    | comma => rfl

/-! ## The outcome of two parts -/

/-- The outcome of scanning a text in two parts, with some words between them: if both parts have
words, all of them in order, and otherwise the error of the first part that has none. -/
structure Joins (left : Except SyntaxError (List Lexeme)) (between : List Lexeme)
    (right whole : Except SyntaxError (List Lexeme)) : Prop where
  /-- Both parts have words. -/
  ok : ∀ first last, left = .ok first → right = .ok last → whole = .ok (first ++ between ++ last)
  /-- The first part has none. -/
  first_error : ∀ error, left = .error error → whole = .error error
  /-- Only the second part has none. -/
  last_error : ∀ first error, left = .ok first → right = .error error → whole = .error error

theorem joins_iff {left right whole : Except SyntaxError (List Lexeme)} :
    Joins left words right whole ↔ whole = joined left words right := by
  constructor
  · intro h
    rcases left with error | first
    · exact h.first_error error rfl
    · rcases right with error | last
      · exact h.last_error first error rfl rfl
      · exact h.ok first last rfl rfl
  · rintro rfl
    constructor
    · rintro first last rfl rfl
      rfl
    · rintro error rfl
      rfl
    · rintro first error rfl rfl
      rfl

/-! ## Only separators cut a text -/

/-- A pending word is one word when it is completed. -/
theorem length_of_finish {pending : Pending} (hpending : pending ≠ .nothing)
    (h : pending.finish = .ok words) : words.length = 1 := by
  cases pending with
  | nothing => exact absurd rfl hpending
  | number reversed =>
    rw [Pending.finish] at h
    split at h
    · cases h
      rfl
    · cases h
  | name reversed =>
    cases h
    rfl

/-- A character that begins a word goes on with it, so twice the character is no more than one word,
as the character is. -/
theorem length_scan_of_start {next : Pending} {twice : List Lexeme}
    (hstart : start c = .ok ([], next)) (hnext : next ≠ .nothing) (honce : scan [c] = .ok words)
    (htwice : scan [c, c] = .ok twice) : words.length = 1 ∧ twice.length = 1 := by
  obtain ⟨extended, hextended, hne⟩ : ∃ extended, next.extend? c = some extended ∧
      extended ≠ .nothing := by
    rcases start_eq_ok hstart with ⟨-, rfl⟩ | ⟨-, hc, rfl⟩ | ⟨-, hc, rfl⟩
    · exact absurd rfl hnext
    · exact ⟨.number [c, c], if_pos hc, by simp⟩
    · exact ⟨.name [c, c], if_pos (Text.isIdentifierPart_of_isIdentifierStart hc), by simp⟩
  rw [scan_cons_of_start hstart] at honce htwice
  rw [scanFrom, hextended] at htwice
  exact ⟨length_of_finish hnext honce, length_of_finish hne htwice⟩

/-- A character at which every text falls into two parts is a separator. -/
theorem separates_of_joins
    (h : ∀ u v, Joins (scan u) words (scan v) (scan (u ++ c :: v))) : Separates c words := by
  -- The character stands alone, and it stands behind itself.
  have honce : scan [c] = .ok words := by simpa using (h [] []).ok [] [] rfl rfl
  have htwice : scan [c, c] = .ok (words ++ words) := by
    simpa using (h [c] []).ok words [] honce rfl
  have hword : ∀ next, start c = .ok ([], next) → next = .nothing := by
    intro next hstart
    by_contra hnext
    obtain ⟨hone, htwo⟩ := length_scan_of_start hstart hnext honce htwice
    rw [List.length_append] at htwo
    omega
  rcases hstart : start c with error | ⟨single, next⟩
  · simp [scan, scanFrom, Pending.extend?, Pending.finish, hstart, bind, Except.bind] at honce
  · rcases start_eq_ok hstart with ⟨hseparator, -⟩ | ⟨rfl, -, rfl⟩ | ⟨rfl, -, rfl⟩
    · have hsingle : scan [c] = .ok (single ++ []) := scan_separator_cons hseparator rfl
      rw [List.append_nil, honce] at hsingle
      rw [Except.ok.inj hsingle]
      exact separator?_eq_some_iff.1 hseparator
    · cases hword _ hstart
    · cases hword _ hstart

/-- The words of every text with a character in it are those of what stands in front of the
character, its own and those of what stands behind it, or else there is the first error of the two
parts, exactly if the character is a blank, which has no word of its own, or an operator, a
parenthesis or a comma, which has one. -/
theorem scan_distributes_iff (c : Char) (words : List Lexeme) :
    (∀ u v, Joins (scan u) words (scan v) (scan (u ++ c :: v))) ↔ Separates c words := by
  refine ⟨separates_of_joins, fun h u v => joins_iff.2 ?_⟩
  exact scan_separator (separator?_eq_some_iff.2 h) u v

/-- A comma cuts a call in two, and at a blank the first of two errors counts. -/
theorem scan_distributes_at_comma :
    scan "Sum(a".toList = .ok [.name "Sum", .opening, .name "a"] ∧
      scan "b)".toList = .ok [.name "b", .closing] ∧
      scan ("Sum(a".toList ++ ',' :: "b)".toList) =
        .ok ([.name "Sum", .opening, .name "a"] ++ [.comma] ++ [.name "b", .closing]) ∧
      scan "1..2".toList = .error (.invalidNumber "1..2".toList) ∧
      scan "%".toList = .error (.unexpectedCharacter '%') ∧
      scan ("1..2".toList ++ ' ' :: "%".toList) = .error (.invalidNumber "1..2".toList) := by
  have hfirst : scan "Sum(a".toList = .ok [.name "Sum", .opening, .name "a"] := by decide
  have hlast : scan "b)".toList = .ok [.name "b", .closing] := by decide
  have hnumber : scan "1..2".toList = .error (.invalidNumber "1..2".toList) := by decide
  have hcomma := (scan_distributes_iff ',' _).2 .comma "Sum(a".toList "b)".toList
  have hblank := (scan_distributes_iff ' ' _).2 (.blank (by decide)) "1..2".toList "%".toList
  exact ⟨hfirst, hlast, hcomma.ok _ _ hfirst hlast, hnumber, by decide,
    hblank.first_error _ hnumber⟩

end Lexeme

end MetricFormula
