import MetricFormula.Expression.Lexeme
import MetricFormula.Formula.MetricToken

/-!
# Classes of characters

Which classes of characters exclude each other. The small class of each pair is listed as a table of
ranges, and its members are tested one by one, or its ranges are compared with those of a large
table.

* `Text.RangeTable.forall_of_codes`: what holds of all code points of a table holds of its
  characters;
* `Text.RangeTable.contains_eq_false`: tables that are apart have no character in common;
* `Lexeme.start_eq_blank`, `Lexeme.start_eq_single`, `Lexeme.start_eq_number`,
  `Lexeme.start_eq_name`: which kind of word each character begins.
-/

namespace MetricFormula

namespace Text

/-! ## Tables of ranges -/

/-- All code points of a table. -/
def RangeTable.codes (table : RangeTable) : List Nat :=
  table.flatMap fun (low, high) => List.range' low (high + 1 - low)

/-- The code point of every character in a table is among those of the table. -/
theorem RangeTable.mem_codes {table : RangeTable} {c : Char} (h : table.contains c) :
    c.toNat ∈ table.codes := by
  obtain ⟨⟨low, high⟩, hmem, hrange⟩ := List.any_eq_true.1 h
  obtain ⟨hlow, hhigh⟩ := Bool.and_eq_true_iff.1 hrange
  rw [decide_eq_true_iff] at hlow hhigh
  refine List.mem_flatMap.2 ⟨(low, high), hmem, ?_⟩
  rw [List.mem_range'_1]
  omega

/-- What holds of the characters with the code points of a table holds of all characters in it, so
that it can be tested one by one. -/
theorem RangeTable.forall_of_codes {table : RangeTable} {P : Char → Prop}
    (h : ∀ n ∈ table.codes, P (Char.ofNat n)) {c : Char} (hc : table.contains c) : P c := by
  have hcode := h c.toNat (RangeTable.mem_codes hc)
  rwa [Char.ofNat_toNat] at hcode

/-- No range of one table meets a range of the other. -/
def RangeTable.isApart (table other : RangeTable) : Bool :=
  table.all fun (low, high) => other.all fun (low', high') =>
    Nat.blt high low' || Nat.blt high' low

/-- No character is in two tables that are apart. -/
theorem RangeTable.contains_eq_false {table other : RangeTable} (h : table.isApart other)
    {c : Char} (hc : table.contains c) : other.contains c = false := by
  obtain ⟨⟨low, high⟩, hmem, hrange⟩ := List.any_eq_true.1 hc
  rw [RangeTable.contains, List.any_eq_false]
  rintro ⟨low', high'⟩ hmem' hrange'
  have hapart := List.all_eq_true.1 (List.all_eq_true.1 h _ hmem) _ hmem'
  simp only [Bool.or_eq_true, Nat.blt_eq] at hapart
  simp only [Bool.and_eq_true, decide_eq_true_iff] at hrange hrange'
  omega

/-- The characters of numbers. -/
def numberParts : RangeTable :=
  [(0x2E, 0x2E), (0x30, 0x39)]

/-- The characters of numbers are in their table. -/
theorem contains_numberParts {c : Char} (h : Lexeme.isNumberPart c) : numberParts.contains c := by
  rw [Lexeme.isNumberPart, Bool.or_eq_true, Char.isDigit_iff_toNat, beq_iff_eq] at h
  rw [RangeTable.contains, List.any_eq_true]
  -- The digits are one range, and the point is another one.
  rcases h with ⟨hlow, hhigh⟩ | rfl
  · refine ⟨(0x30, 0x39), by decide, ?_⟩
    rw [Bool.and_eq_true, decide_eq_true_iff, decide_eq_true_iff]
    exact ⟨hlow, hhigh⟩
  · exact ⟨(0x2E, 0x2E), by decide, by decide⟩

/-! ## Blanks, numbers and identifiers -/

/-- Blanks are no part of an identifier. -/
theorem isIdentifierPart_of_isBlank {c : Char} (h : isBlank c) : isIdentifierPart c = false := by
  have hletters : blanks.isApart lettersBeyondAscii := by decide +kernel
  have hnumerals : blanks.isApart numeralsBeyondAscii := by decide +kernel
  -- Blanks of ASCII are none of the letters, digits and signs that are compared directly.
  obtain ⟨halpha, hdigit, hsigns⟩ := RangeTable.forall_of_codes
    (P := fun c => c.isAlpha = false ∧ c.isDigit = false ∧ (c == '_' || c == '$') = false)
    (by decide) h
  have hletter : isLetter c = false := by
    rw [isLetter, halpha, RangeTable.contains_eq_false hletters h, ite_self]
  have hnumeral : isNumeral c = false := by
    rw [isNumeral, hdigit, RangeTable.contains_eq_false hnumerals h, ite_self]
  rw [isIdentifierPart, isIdentifierStart, hletter, hnumeral, Bool.false_or, hsigns, Bool.or_false]

/-- Blanks are no part of a number. -/
theorem isNumberPart_of_isBlank {c : Char} (h : isBlank c) : Lexeme.isNumberPart c = false :=
  RangeTable.forall_of_codes (P := fun c => Lexeme.isNumberPart c = false) (by decide) h

/-- The characters of identifiers are not blank. -/
theorem isBlank_of_isIdentifierPart {c : Char} (h : isIdentifierPart c) : isBlank c = false := by
  rw [Bool.eq_false_iff]
  intro hblank
  rw [isIdentifierPart_of_isBlank hblank] at h
  exact Bool.false_ne_true h

/-- What an identifier may begin with, it may also go on with. -/
theorem isIdentifierPart_of_isIdentifierStart {c : Char} (h : isIdentifierStart c) :
    isIdentifierPart c := by
  rw [isIdentifierPart, h, Bool.true_or]

/-- An identifier consists of identifier characters. -/
theorem isIdentifierPart_of_mem {text : List Char} (h : isIdentifier text) :
    ∀ c ∈ text, isIdentifierPart c := by
  cases text with
  | nil => exact List.forall_mem_nil _
  | cons c rest =>
    obtain ⟨hstart, hrest⟩ := Bool.and_eq_true_iff.1 h
    exact List.forall_mem_cons.2
      ⟨isIdentifierPart_of_isIdentifierStart hstart, List.all_eq_true.1 hrest⟩

/-- An identifier never begins like a number. -/
theorem isNumberPart_of_isIdentifierStart {c : Char} (h : isIdentifierStart c) :
    Lexeme.isNumberPart c = false := by
  rw [Bool.eq_false_iff]
  intro hnumber
  have hstart : isIdentifierStart c = false :=
    RangeTable.forall_of_codes (P := fun c => isIdentifierStart c = false) (by decide)
      (contains_numberParts hnumber)
  rw [h] at hstart
  cases hstart

end Text

namespace Lexeme

/-! ## The beginning of a word -/

/-- The characters that are words by themselves. -/
def signs : List Char :=
  ['+', '-', '*', '/', '(', ')', ',']

/-- A character that is a word by itself is one of the few that are listed. -/
theorem mem_signs_of_ofChar? {c : Char} {lexeme : Lexeme} (h : ofChar? c = some lexeme) :
    c ∈ signs := by
  unfold ofChar? at h
  split at h <;> first | decide | cases h

/-- What holds of the characters that are no words by themselves and of none that are. -/
theorem ofChar?_eq_none {P : Char → Bool} (hsigns : signs.all (!P ·)) {c : Char} (h : P c) :
    ofChar? c = none := by
  rcases hchar : ofChar? c with _ | lexeme
  · rfl
  · have hnot := List.all_eq_true.1 hsigns c (mem_signs_of_ofChar? hchar)
    rw [h] at hnot
    cases hnot

/-- A blank ends a word without being one. -/
theorem start_eq_blank {c : Char} (h : Text.isBlank c) : start c = .ok ([], .nothing) := by
  rw [start, if_pos h]

/-- An operator, a parenthesis or a comma is a word, and nothing is pending behind it. -/
theorem start_eq_single {c : Char} {lexeme : Lexeme} (h : ofChar? c = some lexeme) :
    start c = .ok ([lexeme], .nothing) := by
  have hsigns : signs.all (!Text.isBlank ·) := by decide
  have hblank := List.all_eq_true.1 hsigns c (mem_signs_of_ofChar? h)
  rw [Bool.not_eq_true'] at hblank
  rw [start, if_neg (ne_true_of_eq_false hblank), h]

/-- A digit or a point begins a number. -/
theorem start_eq_number {c : Char} (h : isNumberPart c) : start c = .ok ([], .number [c]) := by
  -- The tests are made in order: blank, sign, part of a number.
  have hblank : ¬Text.isBlank c := fun hblank => by
    rw [Text.isNumberPart_of_isBlank hblank] at h
    cases h
  rw [start, if_neg hblank, ofChar?_eq_none (by decide) h]
  exact if_pos h

/-- A letter, an underscore or a dollar sign begins a name. -/
theorem start_eq_name {c : Char} (h : Text.isIdentifierStart c) :
    start c = .ok ([], .name [c]) := by
  -- Names are what is tried last, so all other classes have to exclude them.
  have hblank := Text.isBlank_of_isIdentifierPart (Text.isIdentifierPart_of_isIdentifierStart h)
  have hnumber := Text.isNumberPart_of_isIdentifierStart h
  rw [start, if_neg (ne_true_of_eq_false hblank), ofChar?_eq_none (by decide) h]
  exact (if_neg (ne_true_of_eq_false hnumber)).trans (if_pos h)

end Lexeme

end MetricFormula
