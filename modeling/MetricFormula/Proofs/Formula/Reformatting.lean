import MetricFormula.Proofs.Calculation.Meaning
import MetricFormula.Proofs.Calculation.Printing
import MetricFormula.Proofs.Formula.Compiling

/-!
# Compiling the formula of a compiled calculation

The formula of a calculation that was compiled from another formula has balanced brackets and refers
to the same metrics, so it compiles again, to the same calculation, unless it has too many words or
nests them too deeply. Both happens: a minus sign before an operation is written with parentheses,
which nest more deeply than the minus signs that were read.

## Main definitions

* `Formula.IsWithinLimits`: the words of a formula are within the limits of parsing.

## Main results

* `Calculation.isNeutral_formula`: the formula of a calculation is balanced;
* `Formula.compile_formula_iff`: when the formula of a compiled calculation compiles to an equal
  calculation.
-/

namespace MetricFormula

/-! ## Brackets of a formula -/

namespace Calculation

theorem isNeutral_tokenText {content : List Char} (h : IsNeutral content) :
    IsNeutral (tokenText content) := by
  have hblank : IsNeutral [' '] := isNeutral_of_isNoBracket (List.all_eq_true.1 (by decide))
  have hbraces : (openingBrace, closingBrace) ∈ bracketPairs := by decide
  have henclosed := ((hblank.append h).append hblank).enclose hbraces
  rw [List.cons_append, List.append_assoc] at henclosed
  exact henclosed

theorem isNeutral_parenthesizeIf (needed : Bool) {text : List Char} (h : IsNeutral text) :
    IsNeutral (parenthesizeIf needed text) := by
  cases needed with
  | false => exact h
  | true =>
    have hparentheses : ('(', ')') ∈ bracketPairs := by decide
    exact h.enclose hparentheses

theorem isNeutral_call (kind : Aggregate) {id : String} (h : Text.isIdentifier id.toList) :
    IsNeutral (kind.call id) := by
  have hname := isNeutral_of_isNoBracket (isNoBracket_of_isIdentifier (isIdentifier_function kind))
  have hid := isNeutral_of_isNoBracket (isNoBracket_of_isIdentifier h)
  have hparentheses : ('(', ')') ∈ bracketPairs := by decide
  rw [Aggregate.call, List.append_assoc]
  exact hname.append (hid.enclose hparentheses)

/-- The formula of a calculation leaves no bracket open. -/
theorem isNeutral_formula {t : Calculation}
    (hids : ∀ id ∈ t.metricIds, Text.isIdentifier id.toList) : IsNeutral t.formula := by
  induction t with
  | constant value => exact isNeutral_of_isNoBracket (isNoBracket_of_mem_formulaText value)
  | metric id =>
    exact isNeutral_tokenText <| isNeutral_of_isNoBracket <|
      isNoBracket_of_isIdentifier (hids id List.mem_cons_self)
  | aggregate kind id =>
    exact isNeutral_tokenText (isNeutral_call kind (hids id List.mem_cons_self))
  | placeholder => exact isNeutral_of_isNoBracket (List.forall_mem_nil _)
  | arithmetic op left right hleft hright =>
    have hl := hleft fun id hid => hids id (List.mem_append_left _ hid)
    have hr := hright fun id hid => hids id (List.mem_append_right _ hid)
    -- Parentheses are neutral around neutral texts, and signs are no brackets.
    rw [formula]
    split
    next =>
      have hminus : IsNeutral ['-'] := isNeutral_of_isNoBracket (List.all_eq_true.1 (by decide))
      exact hminus.append (isNeutral_parenthesizeIf _ hr)
    next =>
      have hsign : IsNeutral [' ', op.sign, ' '] :=
        isNeutral_of_isNoBracket (List.all_eq_true.1 (by cases op <;> decide))
      exact (isNeutral_parenthesizeIf _ hl).append (hsign.append (isNeutral_parenthesizeIf _ hr))

end Calculation

/-! ## Compiled calculations -/

namespace Formula

variable {policy : UnknownFunctions} {formula : List Char} {t : Calculation}

/-- A compiled calculation without placeholders is the meaning of an expression. -/
theorem means_of_compile (h : compile policy formula = .ok t)
    (hplaceholder : t.hasPlaceholder = false) :
    ∃ expression, parse formula = .ok expression ∧ expression.names ≠ [] ∧ expression.Means t := by
  obtain ⟨-, expression, hparse, hnames, hbuild⟩ := compile_eq_ok_iff.1 h
  exact ⟨expression, hparse, hnames, Calculation.ofExpression_eq_ok_iff.1 ⟨hbuild, hplaceholder⟩⟩

/-- The metrics of a compiled calculation are identifiers. -/
theorem isIdentifier_of_compile (h : compile policy formula = .ok t)
    (hplaceholder : t.hasPlaceholder = false) :
    ∀ id ∈ t.metricIds, Text.isIdentifier id.toList := by
  obtain ⟨expression, hparse, -, hmeans⟩ := means_of_compile h hplaceholder
  intro id hid
  rw [hmeans.metricIds_eq, Expression.mem_names_iff] at hid
  exact isScanned_of_parse hparse _ hid

/-- A compiled calculation is in normal form if its constants are finite. -/
theorem isNormal_of_compile (h : compile policy formula = .ok t)
    (hplaceholder : t.hasPlaceholder = false) (hfinite : ∀ value ∈ t.constants, value.isFinite) :
    t.isNormal := by
  obtain ⟨expression, hparse, -, hmeans⟩ := means_of_compile h hplaceholder
  exact hmeans.isNormal (isScanned_of_parse hparse) hfinite

/-! ## Compiling again -/

/-- The formula has words, and they are within the limits of parsing. -/
def IsWithinLimits (formula : List Char) : Prop :=
  ∃ words, Lexeme.scan (withoutBraces formula) = .ok words ∧ Lexeme.IsWithinLimits words

/-- The formula of a compiled calculation compiles to the normal form of the calculation within the
limits of parsing, and is not valid beyond them. -/
theorem compile_formula (h : compile policy formula = .ok t)
    (hplaceholder : t.hasPlaceholder = false) :
    (IsWithinLimits t.formula → compile policy t.formula = .ok t.normalized) ∧
      (¬IsWithinLimits t.formula → compile policy t.formula = .error .notValid) := by
  have hids := isIdentifier_of_compile h hplaceholder
  have hbalanced := (Calculation.isNeutral_formula hids).bracketsBalanced
  -- The printed text has words and an expression that means the normal form.
  obtain ⟨words, expression, hscan, hbuild, hwithin, hbeyond⟩ :=
    Calculation.exists_parse_formula t hplaceholder hids
  refine ⟨?_, fun hlimits => ?_⟩
  · rintro ⟨words', hwords', hlimits⟩
    obtain rfl : words = words' := Except.ok.inj (hscan.symm.trans hwords')
    -- The normal form has the metrics of the calculation, so its expression has names.
    have hmeans := Calculation.ofExpression_eq_ok_iff.1
      ⟨hbuild policy, (Calculation.hasPlaceholder_normalized t).trans hplaceholder⟩
    obtain ⟨original, -, hnames, horiginal⟩ := means_of_compile h hplaceholder
    have hne : expression.names ≠ [] := by
      intro hnil
      have hsubset := t.metricIds_subset_normalized
      rw [hmeans.metricIds_eq, horiginal.metricIds_eq, hnil] at hsubset
      exact hnames (List.subset_nil.1 hsubset)
    exact compile_eq_ok_iff.2 ⟨hbalanced, expression, hwithin hlimits, hne, hbuild policy⟩
  · obtain ⟨error, hparse⟩ := hbeyond fun hwords => hlimits ⟨words, hscan, hwords⟩
    -- Blanks alone would be refused for another reason.
    have hblank : ¬Text.isBlankText t.formula := by
      intro hblank
      rw [parse_of_isBlankText hblank] at hparse
      cases hparse
    rw [compile, if_neg hblank, hbalanced, hparse]
    rfl

/-- Compiling the formula of a compiled calculation without placeholders gives an equal calculation
exactly if no number overflowed and the formula is within the limits of parsing. -/
theorem compile_formula_iff (h : compile policy formula = .ok t)
    (hplaceholder : t.hasPlaceholder = false) :
    (∃ t', compile policy t.formula = .ok t' ∧ t.equals t') ↔
      (∀ value ∈ t.constants, value.isFinite) ∧ IsWithinLimits t.formula := by
  obtain ⟨hwithin, hbeyond⟩ := compile_formula h hplaceholder
  constructor
  · rintro ⟨t', hcompile, hequals⟩
    -- Beyond the limits nothing is compiled at all.
    by_cases hlimits : IsWithinLimits t.formula
    · rw [← Except.ok.inj ((hwithin hlimits).symm.trans hcompile)] at hequals
      exact ⟨Calculation.isFinite_of_equals_normalized hequals, hlimits⟩
    · cases (hbeyond hlimits).symm.trans hcompile
  · rintro ⟨hfinite, hlimits⟩
    have hnormal := isNormal_of_compile h hplaceholder hfinite
    refine ⟨t, ?_, Calculation.equals_self hfinite⟩
    rw [hwithin hlimits, Calculation.normalized_eq_self_iff.2 hnormal]

/-- A quotient of a negated metric and an aggregate is written as it was read. -/
theorem compile_formula_of_quotient :
    let formula := "-{ a } / Sum({ b })".toList
    let t := Calculation.arithmetic .divide (.negation (.metric "a")) (.aggregate .sum "b")
    compile .reject formula = .ok t ∧ t.hasPlaceholder = false ∧
      ∃ t', compile .reject t.formula = .ok t' ∧ t.equals t' := by
  intro formula t
  have hcompile : compile .reject formula = .ok t := by decide +kernel
  have hplaceholder : t.hasPlaceholder = false := rfl
  have hfinite : ∀ value ∈ t.constants, value.isFinite := List.all_eq_true.1 (by decide +kernel)
  have hscan : Lexeme.scan (withoutBraces t.formula) = .ok [.minus, .name "a", .slash,
      .name "Sum", .opening, .name "b", .closing] := by
    decide +kernel
  have hlimits : IsWithinLimits t.formula := ⟨_, hscan, by decide⟩
  exact ⟨hcompile, hplaceholder,
    (compile_formula_iff hcompile hplaceholder).2 ⟨hfinite, hlimits⟩⟩

/-- Minus signs are read without parentheses and written with them, so the formula of more than half
as many negations as may be nested is not valid any more. -/
theorem compile_formula_of_signs :
    let formula := List.replicate 33 '-' ++ "{ a }".toList
    let t := Nat.repeat Calculation.negation 33 (.metric "a")
    compile .reject formula = .ok t ∧ t.hasPlaceholder = false ∧
      compile .reject t.formula = .error .notValid := by
  intro formula t
  have hcompile : compile .reject formula = .ok t := by decide +kernel
  have hplaceholder : t.hasPlaceholder = false := by decide
  have hagain : compile .reject t.formula = .error .notValid := by decide +kernel
  exact ⟨hcompile, hplaceholder, hagain⟩

end Formula

end MetricFormula
