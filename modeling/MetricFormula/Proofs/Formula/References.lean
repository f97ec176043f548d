import MetricFormula.Proofs.Formula.Compiling

/-!
# References to metrics

Building neither loses nor repeats nor reorders a reference to a metric: what is read of an
expression by `walk` and what is read of its calculation are the same ids. Placeholders take the
references inside them away and leave the order of the others as it is. A formula that compiles
refers to a metric, so its calculation does.

## Main results

* `Calculation.metricIds_sublist`: a calculation refers to metrics in the order of its expression;
* `Calculation.metricIds_conserved`: if unknown functions are refused, to all of them.
-/

namespace MetricFormula

/-- The names of an expression are as many as the places where a name stands alone. -/
theorem Expression.length_names (e : Expression) :
    e.names.length = e.walk.countP (·.name?.isSome) :=
  List.length_filterMap_eq_countP

namespace Calculation

variable {policy : UnknownFunctions} {e : Expression} {t : Calculation}

/-- The metrics of an operation are those of its operands. -/
theorem metricIds_sublist_arithmetic {op : Arithmetic} {left right : Expression}
    {l r : Calculation} (hleft : l.metricIds.Sublist left.names)
    (hright : r.metricIds.Sublist right.names) :
    (arithmetic op l r).metricIds.Sublist ([left, right].flatMap Expression.names) := by
  rw [metricIds, List.flatMap_cons, List.flatMap_singleton]
  exact hleft.append hright

/-- The metrics of a calculation are names of its expression, in the same order. -/
theorem metricIds_sublist (h : ofExpression policy e = .ok t) :
    t.metricIds.Sublist e.names := by
  replace h := isBuilt_of_ofExpression h
  induction h with
  | number value => exact List.nil_sublist _
  | name id => exact List.Sublist.refl _
  | parenthesized _ ih =>
    rw [Expression.names_parenthesized]
    exact ih
  | aggregate hkind id => exact List.Sublist.refl _
  | call hop _ _ ihleft ihright =>
    rw [Expression.names_call]
    exact metricIds_sublist_arithmetic ihleft ihright
  | binary op _ _ ihleft ihright =>
    rw [Expression.names_operation]
    exact metricIds_sublist_arithmetic ihleft ihright
  | negate _ ih =>
    rw [Expression.names_operation, List.flatMap_singleton]
    exact ih
  | placeholder _ _ =>
    -- Whatever stands inside, a placeholder refers to nothing.
    exact List.nil_sublist _

/-- Building conserves the references to metrics. If unknown functions are refused, a calculation
refers to the names of its expression in the order of `walk`, so to as many as stand there, and a
formula that compiles to one refers to a metric. With placeholders, what a calculation refers to is
a subsequence of these names. -/
theorem metricIds_conserved :
    (∀ e t, ofExpression .reject e = .ok t →
      t.metricIds = e.names ∧ t.metricIds.length = e.walk.countP (·.name?.isSome)) ∧
    (∀ formula t, Formula.compile .reject formula = .ok t → t.metricIds ≠ []) ∧
    ∀ e t, ofExpression .placeholder e = .ok t → t.metricIds.Sublist e.names := by
  have hnames : ∀ e t, ofExpression .reject e = .ok t → t.metricIds = e.names := by
    intro e t h
    exact (means_of_ofExpression h (.inl rfl)).metricIds_eq
  refine ⟨fun e t h => ?_, fun formula t h => ?_, fun e t h => metricIds_sublist h⟩
  · rw [hnames e t h]
    exact ⟨rfl, e.length_names⟩
  · -- A formula without names is refused before anything is built.
    obtain ⟨-, e, -, hne, hbuild⟩ := Formula.compile_eq_ok_iff.1 h
    rw [hnames e t hbuild]
    exact hne

/-- A sum of an aggregate and a metric in parentheses. -/
theorem metricIds_conserved_sum :
    ∃ e t, ofExpression .reject e = .ok t ∧ ofExpression .placeholder e = .ok t ∧
      Formula.compile .reject "add(Sum({a}), ({ b }))".toList = .ok t ∧
      (t.metricIds = e.names ∧ t.metricIds.length = e.walk.countP (·.name?.isSome)) ∧
      t.metricIds ≠ [] ∧ t.metricIds.Sublist e.names := by
  obtain ⟨hreject, hcompile, hplaceholder⟩ := metricIds_conserved
  exact ⟨.call "add" [.call "Sum" [.name "a"], .parenthesized (.name "b")],
    .arithmetic .add (.aggregate .sum "a") (.metric "b"), by decide, by decide, by decide +kernel,
    hreject _ _ (by decide), hcompile "add(Sum({a}), ({ b }))".toList _ (by decide +kernel),
    hplaceholder _ _ (by decide)⟩

/-- With placeholders a formula may compile to a calculation without metrics. -/
example : Formula.compile .placeholder "Max({ a })".toList = .ok .placeholder := by
  decide +kernel

end Calculation

end MetricFormula
