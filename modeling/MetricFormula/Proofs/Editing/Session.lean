import MetricFormula.Editing.Session
import MetricFormula.Proofs.Expression.Leaves
import MetricFormula.Proofs.Formula.Compiling

/-!
# Editing agrees with submitting

While a formula is edited, its session keeps the expression and the calculation of the latest text
and works them out again only when the text changes. When the formula is submitted, it is compiled
from its text alone, under rules of which a session knows nothing. The calculation that the session
shows is the compiled one, and the only formulas with a calculation that do not compile are those
whose braces are not balanced and those that refer to no metric.

## Main definitions

* `Session.Reachable`: the states that a session gets into;
* `Session.IsCurrent`: what a session keeps is worked out from its text.

## Main results

* `Session.Reachable.isCurrent`: sessions are current after every run of edits;
* `Session.Reachable.compile_eq_ok_iff_shown`: when the formula of a session compiles.
-/

namespace MetricFormula

namespace Session

/-! ## Current sessions -/

/-- The states of a session that starts without a formula or with any formula, and is edited in any
way. -/
inductive Reachable : Session → Prop
  /-- A session without a formula. -/
  | empty (options : EditorOptions) (policy : UnknownFunctions) :
      Reachable (Session.empty options policy)
  /-- A session on an existing formula. -/
  | ofFormula (formula : List Char) (options : EditorOptions) (policy : UnknownFunctions) :
      Reachable (Session.ofFormula formula options policy)
  /-- An edit, whether it is refused or not. -/
  | apply {session : Session} (edit : Edit) :
      Reachable session → Reachable (session.apply edit).2

/-- What the session keeps is what would be worked out from its text now. -/
structure IsCurrent (session : Session) : Prop where
  /-- The expression is that of the text. -/
  parsed_eq : session.parsed = Formula.parse session.formula
  /-- The calculation is that of the expression. -/
  built_eq : session.built = build session.policy session.parsed

theorem isCurrent_ofEditor (editor : Editor) (policy : UnknownFunctions) :
    (ofEditor editor policy).IsCurrent :=
  ⟨rfl, rfl⟩

/-- A session keeps its expression and calculation only if its text stays the same. -/
theorem IsCurrent.apply {session : Session} (h : session.IsCurrent) (edit : Edit) :
    (session.apply edit).2.IsCurrent := by
  unfold Session.apply Editor.apply
  cases session.editor.run edit with
  | ok edited =>
    simp only [Outcome.isApplied, Bool.true_and, bne_iff_ne]
    split
    next => exact isCurrent_ofEditor edited session.policy
    next hsame =>
      -- The cursor may have moved, but the text to work with is the same.
      refine ⟨h.parsed_eq.trans ?_, h.built_eq⟩
      show Formula.parse session.editor.text = Formula.parse edited.text
      rw [not_not.1 hsame]
  | error reason => exact h

/-- Every session is current after every run of edits. -/
theorem Reachable.isCurrent {session : Session} (hreach : Reachable session) :
    session.IsCurrent := by
  induction hreach with
  | empty options policy => exact isCurrent_ofEditor _ _
  | ofFormula formula options policy => exact isCurrent_ofEditor _ _
  | apply edit _ ih => exact ih.apply edit

/-! ## Submitting -/

variable {session : Session} {t : Calculation}

/-- A current session shows the calculation of the expression of its text. -/
theorem IsCurrent.calculation?_eq_some_iff (h : session.IsCurrent) :
    session.calculation? = some t ↔ ∃ expression, Formula.parse session.formula = .ok expression ∧
      Calculation.ofExpression session.policy expression = .ok t := by
  rw [calculation?, h.built_eq, h.parsed_eq]
  rcases Formula.parse session.formula with error | expression
  · exact iff_of_false nofun nofun
  · rcases hbuild : Calculation.ofExpression session.policy expression with error | t'
    · simp [build, hbuild]
    · simp [build, hbuild]

/-- The formula of a current session compiles if the session shows its calculation, its braces are
balanced, and it refers to a metric. -/
theorem IsCurrent.compile_eq_ok_iff (h : session.IsCurrent) :
    Formula.compile session.policy session.formula = .ok t ↔
      session.calculation? = some t ∧
        openCount? openingBrace closingBrace 0 session.formula = some 0 ∧
        ∃ expression id, session.parsed = .ok expression ∧ .name id ∈ expression.walk := by
  rw [Formula.compile_eq_ok_iff_braces, h.calculation?_eq_some_iff, h.parsed_eq]
  constructor
  · rintro ⟨hbraces, expression, hparse, hnames, hbuild⟩
    -- The metrics that are counted are the names on a walk through the expression.
    obtain ⟨id, hid⟩ := List.exists_mem_of_ne_nil _ hnames
    exact ⟨⟨expression, hparse, hbuild⟩, hbraces, expression, id, hparse,
      Expression.name_mem_walk_iff.2 hid⟩
  · rintro ⟨⟨expression, hparse, hbuild⟩, hbraces, expression', id, hparse', hid⟩
    obtain rfl : expression = expression' := Except.ok.inj (hparse.symm.trans hparse')
    exact ⟨hbraces, expression, hparse,
      List.ne_nil_of_mem (Expression.name_mem_walk_iff.1 hid), hbuild⟩

/-- The formula of a session compiles to the calculation that the session shows, if its braces are
balanced and it refers to a metric. No other bracket is in the way, and the formula of an indicator
that is edited again shows the calculation of the indicator. -/
theorem Reachable.compile_eq_ok_iff_shown (hreach : Reachable session) :
    (∀ t, Formula.compile session.policy session.formula = .ok t ↔
      session.calculation? = some t ∧
        openCount? openingBrace closingBrace 0 session.formula = some 0 ∧
        ∃ expression id, session.parsed = .ok expression ∧ .name id ∈ expression.walk) ∧
    (∀ expression, session.parsed = .ok expression →
      ∀ pair ∈ bracketPairs, pair ≠ (openingBrace, closingBrace) →
        pairedInOrder (indicesOf pair.1 session.formula) (indicesOf pair.2 session.formula)) ∧
    ∀ (draft : IndicatorDraft) (policy : UnknownFunctions) (scope : IndicatorScope)
      (indicator : Indicator), draft.toIndicator policy scope = .ok indicator →
      ∀ options, (Session.ofFormula indicator.formula.toList options policy).calculation? =
        some indicator.calculation := by
  refine ⟨fun t => hreach.isCurrent.compile_eq_ok_iff, ?_, ?_⟩
  · intro expression hparsed pair hpair hbraces
    rw [hreach.isCurrent.parsed_eq] at hparsed
    rw [pairedInOrder_iff (bracketPairs_ne pair hpair)]
    exact Formula.openCount?_of_parse hparsed hpair hbraces
  · -- An indicator is made by compiling its formula under the same policy.
    intro draft policy scope indicator hindicator options
    have hcurrent : (Session.ofFormula indicator.formula.toList options policy).IsCurrent :=
      isCurrent_ofEditor _ _
    have hcompile := IndicatorDraft.compile_of_toIndicator hindicator
    exact (hcurrent.compile_eq_ok_iff.1 hcompile).1

/-- A formula that is completed by typing compiles to the calculation that is shown, and one with
its braces the wrong way round is shown and does not compile. -/
theorem compile_shown_of_typed_or_turned :
    let typed := ((ofFormula "\x7b a \x7d + ".toList {} .reject).apply (.insertChar none '1')).2
    let sum := Calculation.arithmetic .add (.metric "a") (.constant (.ofInt 1))
    let turned := ofFormula "\x7d a \x7b".toList {} .reject
    (Reachable typed ∧ Formula.compile .reject typed.formula = .ok sum ∧
      typed.calculation? = some sum) ∧
    (Reachable turned ∧ turned.calculation? = some (.metric "a") ∧
      Formula.compile .reject turned.formula ≠ .ok (.metric "a")) := by
  intro typed sum turned
  have htyped : Reachable typed := .apply _ (.ofFormula _ _ _)
  have hturned : Reachable turned := .ofFormula _ _ _
  have hcompile : Formula.compile .reject typed.formula = .ok sum := by decide +kernel
  have hopen : openCount? openingBrace closingBrace 0 turned.formula = none := by decide
  refine ⟨⟨htyped, hcompile, ?_⟩, hturned, by decide +kernel, fun h => ?_⟩
  · exact ((htyped.compile_eq_ok_iff_shown.1 sum).1 hcompile).1
  · have hbraces := ((hturned.compile_eq_ok_iff_shown.1 (.metric "a")).1 h).2.1
    cases hopen.symm.trans hbraces

end Session

end MetricFormula
