import MetricFormula.Indicator
import MetricFormula.Proofs.Expression.Spelling
import MetricFormula.Proofs.Formula.Parentheses

/-!
# Formulas that compile

A formula compiles if it passes all rules, which are tested one after the other: it is not blank,
its brackets are balanced, it parses, it refers to a metric and every call in it has a meaning. Two
of them say less than it seems. A blank formula would not parse either, and of the brackets of a
formula that parses only the braces can be unbalanced.

## Main results

* `Formula.compile_eq_ok_iff`: the formulas that compile;
* `Formula.compile_eq_ok_iff_braces`: the same, with only the braces counted;
* `Formula.exists_spells_of_compile`: the words of a formula that compiles;
* `IndicatorDraft.compile_of_toIndicator`: the formula of an indicator compiles.
-/

namespace MetricFormula

namespace Formula

variable {policy : UnknownFunctions} {formula : List Char} {t : Calculation}

/-- Blanks and braces alone are no arithmetic. -/
theorem parse_of_isBlankText (h : Text.isBlankText formula) : parse formula = .error .empty := by
  obtain ⟨before, after, -, -, htrim⟩ := Text.exists_blanks_trim formula
  -- What is left of the formula consists of its own characters.
  have hplain : Text.isBlankText (withoutBraces formula) := by
    refine List.all_eq_true.2 fun c hc => List.all_eq_true.1 h c ?_
    have hc : c ∈ Text.trim formula := (List.mem_filter.1 hc).1
    rw [htrim]
    exact List.mem_append_left after (List.mem_append_right before hc)
  rw [parse]
  exact if_pos hplain

/-- A formula compiles if its brackets are balanced and it parses to an expression that refers to a
metric and has a calculation. -/
theorem compile_eq_ok_iff :
    compile policy formula = .ok t ↔
      bracketsBalanced formula ∧ ∃ expression, parse formula = .ok expression ∧
        expression.names ≠ [] ∧ Calculation.ofExpression policy expression = .ok t := by
  rw [compile]
  -- The tests in their order; a blank formula would not parse either.
  by_cases hblank : Text.isBlankText formula
  · rw [if_pos hblank]
    refine iff_of_false nofun ?_
    rintro ⟨-, expression, hparse, -⟩
    rw [parse_of_isBlankText hblank] at hparse
    cases hparse
  rw [if_neg hblank]
  cases hbalanced : bracketsBalanced formula with
  | false => exact iff_of_false nofun nofun
  | true =>
    rcases hparse : parse formula with error | expression
    · exact iff_of_false nofun fun ⟨_, _, h, _⟩ => nomatch h
    · show (if expression.names.isEmpty then _ else _) = _ ↔ _
      by_cases hnames : expression.names = []
      · rw [hnames]
        refine iff_of_false nofun ?_
        rintro ⟨-, expression', hexpression, hne, -⟩
        rw [← Except.ok.inj hexpression] at hne
        exact hne hnames
      · rw [if_neg (mt List.isEmpty_iff.1 hnames), mapError_eq_ok_iff]
        refine ⟨fun h => ⟨rfl, expression, rfl, hnames, h⟩, ?_⟩
        rintro ⟨-, expression', hexpression, -, hbuild⟩
        rwa [Except.ok.inj hexpression]

/-- A formula compiles if its braces are balanced and it parses to an expression that refers to a
metric and has a calculation. -/
theorem compile_eq_ok_iff_braces :
    compile policy formula = .ok t ↔
      openCount? openingBrace closingBrace 0 formula = some 0 ∧
        ∃ expression, parse formula = .ok expression ∧
          expression.names ≠ [] ∧ Calculation.ofExpression policy expression = .ok t := by
  rw [compile_eq_ok_iff]
  constructor
  · rintro ⟨hbalanced, hexpression⟩
    have hbraces : (openingBrace, closingBrace) ∈ bracketPairs := by decide
    exact ⟨bracketsBalanced_iff.1 hbalanced _ hbraces, hexpression⟩
  · rintro ⟨hbraces, expression, hparse, hrest⟩
    refine ⟨bracketsBalanced_iff.2 fun pair hpair => ?_, expression, hparse, hrest⟩
    by_cases heq : pair = (openingBrace, closingBrace)
    · rw [heq]
      exact hbraces
    · exact openCount?_of_parse hparse hpair heq

/-- The words of a formula that compiles spell the expression that its calculation is built of. -/
theorem exists_spells_of_compile (h : compile policy formula = .ok t) :
    ∃ words e, Lexeme.scan (formula.filter (!isBrace ·)) = .ok words ∧ Spells words [e] ∧
      Calculation.ofExpression policy e = .ok t := by
  obtain ⟨-, e, hparse, -, hbuild⟩ := compile_eq_ok_iff.1 h
  obtain ⟨words, hscan, hspells⟩ := exists_spells_of_parse hparse
  exact ⟨words, e, hscan, hspells, hbuild⟩

/-- What is valid compiles. -/
theorem validate_eq_ok_iff :
    validate policy formula = .ok () ↔ ∃ t, compile policy formula = .ok t := by
  rw [validate]
  rcases compile policy formula with violation | t
  · exact iff_of_false nofun nofun
  · exact iff_of_true rfl ⟨t, rfl⟩

end Formula

/-- The calculation of an indicator is that of its formula. -/
theorem IndicatorDraft.compile_of_toIndicator {draft : IndicatorDraft}
    {policy : UnknownFunctions} {scope : IndicatorScope} {indicator : Indicator}
    (h : draft.toIndicator policy scope = .ok indicator) :
    Formula.compile policy indicator.formula.toList = .ok indicator.calculation := by
  unfold toIndicator at h
  dsimp only at h
  split at h
  next => cases h
  next =>
    obtain ⟨-, -, h⟩ := bind_eq_ok h
    obtain ⟨t, hcompile, h⟩ := bind_eq_ok h
    cases h
    exact mapError_eq_ok_iff.1 hcompile

end MetricFormula
