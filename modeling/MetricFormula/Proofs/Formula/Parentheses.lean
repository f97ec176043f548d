import MetricFormula.Proofs.Expression.Parsing
import MetricFormula.Proofs.Expression.Words
import MetricFormula.Proofs.Formula.Brackets

/-!
# Parentheses of a formula that parses

Parsing reads words, while balance is counted in characters, and in those of the whole formula with
its braces. The two meet in the brackets of a text: scanning turns each parenthesis into a word of
its own and lets no other bracket pass, and every phrase of the grammar closes the parentheses that
it opens. Braces are left out before scanning, and leaving them out does not matter to the count of
other brackets.

## Main definitions

* `Lexeme.brackets`: the brackets among the words of a text.

## Main results

* `Lexeme.filter_eq_brackets_of_scan`: the words have the brackets of the text;
* `Grammar.Expr.isNeutral_brackets`: a derivation closes all parentheses that it opens;
* `Formula.openCount?_of_parse`: in a formula that parses, all brackets but the braces are balanced.
-/

namespace MetricFormula

/-! ## Brackets and words -/

namespace Lexeme

/-- The bracket that a word is. -/
def bracket? : Lexeme → Option Char
  | opening => some '('
  | closing => some ')'
  | _ => none

/-- The brackets among words. -/
def brackets (words : List Lexeme) : List Char :=
  words.filterMap bracket?

@[simp] theorem brackets_append (u v : List Lexeme) :
    brackets (u ++ v) = brackets u ++ brackets v :=
  List.filterMap_append

theorem brackets_cons_of_none {word : Lexeme} (h : word.bracket? = none) (words : List Lexeme) :
    brackets (word :: words) = brackets words :=
  List.filterMap_cons_none h

/-- A word between a text that is read and the rest of it is no bracket. -/
theorem brackets_of_finish {pending : Pending} {words : List Lexeme}
    (h : pending.finish = .ok words) : brackets words = [] := by
  cases pending with
  | nothing =>
    cases h
    rfl
  | number reversed =>
    rw [Pending.finish] at h
    split at h
    next =>
      cases h
      rfl
    next => cases h
  | name reversed =>
    cases h
    rfl

/-- Words go on without brackets. -/
theorem isNoBracket_of_extend? {pending extended : Pending} {c : Char}
    (h : pending.extend? c = some extended) : isNoBracket c := by
  cases pending with
  | nothing => cases h
  | number reversed =>
    rw [Pending.extend?] at h
    split at h
    next hc => exact isNoBracket_of_class (P := isNumberPart) (by decide) hc
    next => cases h
  | name reversed =>
    rw [Pending.extend?] at h
    split at h
    next hc => exact isNoBracket_of_isIdentifierPart hc
    next => cases h

/-- Where no word goes on, a bracket is a word by itself. -/
theorem filter_eq_brackets_of_start {c : Char} {words : List Lexeme} {next : Pending}
    (h : start c = .ok (words, next)) : [c].filter (!isNoBracket ·) = brackets words := by
  have hnone : isNoBracket c → [c].filter (!isNoBracket ·) = [] := by
    intro hc
    rw [List.filter_cons_of_neg (by simp [hc]), List.filter_nil]
  unfold start at h
  split at h
  next hblank =>
    cases h
    exact hnone (isNoBracket_of_class (P := Text.isBlank) (by decide) hblank)
  next =>
    split at h
    next lexeme hchar =>
      -- Signs, commas and parentheses are words of one character.
      cases h
      unfold ofChar? at hchar
      split at hchar <;> cases hchar <;> decide
    next =>
      split at h
      next hnumber =>
        cases h
        exact hnone (isNoBracket_of_class (P := isNumberPart) (by decide) hnumber)
      next =>
        split at h
        next hname =>
          cases h
          exact hnone (isNoBracket_of_isIdentifierPart
            (Text.isIdentifierPart_of_isIdentifierStart hname))
        next => cases h

theorem filter_eq_brackets_of_scanFrom {pending : Pending} {text : List Char}
    {words : List Lexeme} (h : scanFrom pending text = .ok words) :
    text.filter (!isNoBracket ·) = brackets words := by
  induction text generalizing pending words with
  | nil => exact (brackets_of_finish h).symm
  | cons c text ih =>
    rw [scanFrom] at h
    split at h
    next extended hextend =>
      -- The word that is being read goes on.
      have hc := isNoBracket_of_extend? hextend
      rw [List.filter_cons_of_neg (by simp [hc])]
      exact ih h
    next =>
      obtain ⟨finished, hfinish, h⟩ := bind_eq_ok h
      obtain ⟨⟨single, next⟩, hstart, h⟩ := bind_eq_ok h
      obtain ⟨rest, hrest, h⟩ := bind_eq_ok h
      cases h
      -- It ends at `c`, which begins a word or is one.
      rw [brackets_append, brackets_append, brackets_of_finish hfinish,
        ← filter_eq_brackets_of_start hstart, ← ih hrest, List.nil_append, ← List.filter_append]
      rfl

/-- The brackets of a text that has words are those of its words. -/
theorem filter_eq_brackets_of_scan {text : List Char} {words : List Lexeme}
    (h : scan text = .ok words) : text.filter (!isNoBracket ·) = brackets words :=
  filter_eq_brackets_of_scanFrom h

end Lexeme

/-! ## Brackets of derivations -/

namespace Grammar

open Lexeme (brackets brackets_append brackets_cons_of_none)

variable {α : Type} {precedence : Nat} {words : α → List Lexeme}

/-- All phrases close the brackets that they open. -/
def ClosesBrackets (words : α → List Lexeme) : Prop :=
  ∀ tree, IsNeutral (brackets (words tree))

theorem isNeutral_nil : IsNeutral [] :=
  isNeutral_of_isNoBracket (List.forall_mem_nil _)

/-- Phrases, each behind a word that is no bracket. -/
theorem ClosesBrackets.flatMap {β : Type} {word : β → Lexeme} {phrase : β → List Lexeme}
    (h : ClosesBrackets phrase) (hword : ∀ other, (word other).bracket? = none) (others : List β) :
    IsNeutral (brackets (others.flatMap fun other => word other :: phrase other)) := by
  induction others with
  | nil => exact isNeutral_nil
  | cons other others ih =>
    rw [List.flatMap_cons, brackets_append, brackets_cons_of_none (hword other)]
    exact (h other).append ih

theorem ClosesBrackets.chain (h : ClosesBrackets words) :
    ClosesBrackets (Chain.words words : Chain precedence α → List Lexeme) := by
  intro chain
  have hsigns : ∀ other : Sign precedence × α, other.1.1.lexeme.bracket? = none := by
    rintro ⟨⟨op, -⟩, -⟩
    cases op <;> rfl
  rw [Chain.words, brackets_append]
  have hphrases : ClosesBrackets fun other : Sign precedence × α => words other.2 :=
    fun other => h other.2
  exact (h chain.first).append (hphrases.flatMap hsigns chain.others)

/-- Between the parentheses of a call all brackets are closed. -/
theorem ClosesBrackets.arguments (h : ClosesBrackets words) (arguments : List α) :
    ∃ inner, argumentWords words arguments = inner ++ [.closing] ∧
      IsNeutral (brackets inner) := by
  cases arguments with
  | nil => exact ⟨[], rfl, isNeutral_nil⟩
  | cons first others =>
    refine ⟨words first ++ others.flatMap fun other => .comma :: words other, ?_, ?_⟩
    · rw [argumentWords, List.append_assoc]
    · rw [brackets_append]
      exact (h first).append (h.flatMap (fun _ => rfl) others)

/-- Words between parentheses close all brackets if they do without the parentheses. -/
theorem isNeutral_brackets_enclosed {inner : List Lexeme} (h : IsNeutral (brackets inner)) :
    IsNeutral (brackets (.opening :: (inner ++ [.closing]))) := by
  have hparentheses : ('(', ')') ∈ bracketPairs := by decide
  have henclosed := h.enclose hparentheses
  have hbrackets : brackets (.opening :: (inner ++ [.closing])) =
      '(' :: brackets inner ++ [')'] := by
    show '(' :: brackets (inner ++ [.closing]) = _
    rw [brackets_append]
    rfl
  rw [hbrackets]
  exact henclosed

theorem Operand.closesBrackets (levels : Nat) : ClosesBrackets (Operand.words levels) := by
  induction levels with
  | zero => exact fun operand => nomatch (operand : Empty)
  | succ levels ih =>
    have hsum : ClosesBrackets (Sum.words (Operand.words levels)) := ih.chain.chain
    intro operand
    cases (operand : OperandForm (Operand levels)) with
    | positive inner => exact ih inner
    | negative inner => exact ih inner
    | number value => exact isNeutral_nil
    | name id => exact isNeutral_nil
    | call function arguments =>
      obtain ⟨inner, hwords, hinner⟩ := hsum.arguments arguments
      show IsNeutral (brackets (.opening :: argumentWords _ arguments))
      rw [hwords]
      exact isNeutral_brackets_enclosed hinner
    | parenthesized inner => exact isNeutral_brackets_enclosed (hsum inner)

/-- The words of an expression close all brackets that they open. -/
theorem Expr.isNeutral_brackets (tree : Expr 0) : IsNeutral (brackets tree.words) :=
  (Operand.closesBrackets _).chain.chain tree

end Grammar

/-! ## Brackets of formulas -/

namespace Formula

/-- In a formula that parses all brackets but the braces are balanced. -/
theorem openCount?_of_parse {formula : List Char} {expression : Expression}
    (h : parse formula = .ok expression) {pair : Char × Char} (hpair : pair ∈ bracketPairs)
    (hbraces : pair ≠ (openingBrace, closingBrace)) :
    openCount? pair.1 pair.2 0 formula = some 0 := by
  obtain ⟨words, hscan, hread⟩ := exists_scan_of_parse h
  obtain ⟨-, -, tree, rfl, -⟩ := Expression.ofLexemes_eq_ok_iff.1 hread
  rw [Lexeme.scan_withoutBraces] at hscan
  have hbrackets := Lexeme.filter_eq_brackets_of_scan hscan
  -- What is counted is neither a brace nor left out of the brackets.
  have hkept : ((!isBrace pair.1) ∧ (!isBrace pair.2)) ∧
      (!isNoBracket pair.1) ∧ (!isNoBracket pair.2) := by
    revert pair
    decide
  rw [← openCount?_filter (!isBrace ·) hkept.1.1 hkept.1.2,
    ← openCount?_filter (!isNoBracket ·) hkept.2.1 hkept.2.2, hbrackets]
  exact tree.isNeutral_brackets pair hpair 0

end Formula

end MetricFormula
