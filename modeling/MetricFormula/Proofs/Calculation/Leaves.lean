import MetricFormula.Proofs.Calculation.Meaning

/-!
# Constants and metrics of a calculation

A calculation takes its constants and metrics from its expression, whatever becomes of unknown
functions: the only constant of its own is the minus one of a negation. Under a policy that leaves
placeholders some of what the expression holds is dropped; without placeholders nothing is.

## Main definitions

* `Calculation.leaves`: the constants and metrics of a calculation, as words.

## Main results

* `Calculation.leaves_subset_of_ofExpression`: they are leaves of the expression or minus one;
* `Expression.Means.leaves_subset`: a meaning has all the leaves of its expression.
-/

namespace MetricFormula

namespace Calculation

/-- The constants and metrics of a calculation, from left to right, as the words that they are read
from. -/
def leaves : Calculation → List Lexeme
  | constant value => [.number value]
  | metric id => [.name id]
  | aggregate _ id => [.name id]
  | arithmetic _ left right => left.leaves ++ right.leaves
  | placeholder => []

theorem mem_metricIds_iff {t : Calculation} {id : String} :
    id ∈ t.metricIds ↔ .name id ∈ t.leaves := by
  induction t with
  | arithmetic op left right ihleft ihright =>
    rw [metricIds, leaves, List.mem_append, List.mem_append, ihleft, ihright]
  | _ => simp [metricIds, leaves]

theorem mem_constants_iff {t : Calculation} {value : Binary64} :
    value ∈ t.constants ↔ .number value ∈ t.leaves := by
  induction t with
  | arithmetic op left right ihleft ihright =>
    rw [constants, leaves, List.mem_append, List.mem_append, ihleft, ihright]
  | _ => simp [constants, leaves]

variable {policy : UnknownFunctions} {e : Expression} {t : Calculation}

/-- What holds of both operands holds of an operation. -/
theorem leaves_subset_arithmetic {op : Arithmetic} {left right : Expression} {l r : Calculation}
    {word : Lexeme} (hleft : l.leaves ⊆ word :: left.leaves)
    (hright : r.leaves ⊆ word :: right.leaves) :
    (arithmetic op l r).leaves ⊆ word :: [left, right].flatMap Expression.leaves := by
  rw [leaves, List.flatMap_cons, List.flatMap_singleton]
  exact List.append_subset.2
    ⟨List.Subset.trans hleft (List.cons_subset_cons word (List.subset_append_left _ _)),
      List.Subset.trans hright (List.cons_subset_cons word (List.subset_append_right _ _))⟩

/-- The constants and metrics of a calculation are leaves of its expression, apart from the minus
one of its negations. -/
theorem leaves_subset_of_ofExpression (h : ofExpression policy e = .ok t) :
    t.leaves ⊆ .number (.ofInt (-1)) :: e.leaves := by
  replace h := isBuilt_of_ofExpression h
  induction h with
  | number value =>
    rw [leaves, Expression.leaves_number]
    exact List.subset_cons_self _ _
  | name id =>
    rw [leaves, Expression.leaves_name]
    exact List.subset_cons_self _ _
  | parenthesized _ ih =>
    rw [Expression.leaves_parenthesized]
    exact ih
  | aggregate hkind id =>
    rw [leaves, Expression.leaves_call, List.flatMap_singleton, Expression.leaves_name]
    exact List.subset_cons_self _ _
  | call hop _ _ ihleft ihright =>
    rw [Expression.leaves_call]
    exact leaves_subset_arithmetic ihleft ihright
  | binary op _ _ ihleft ihright =>
    rw [Expression.leaves_operation]
    exact leaves_subset_arithmetic ihleft ihright
  | negate _ ih =>
    rw [Expression.leaves_operation, List.flatMap_singleton]
    exact List.cons_subset.2 ⟨List.mem_cons_self, ih⟩
  | placeholder _ _ => exact List.nil_subset _

end Calculation

/-- All leaves of an expression are constants and metrics of what it means. -/
theorem Expression.Means.leaves_subset {e : Expression} {t : Calculation} (h : e.Means t) :
    e.leaves ⊆ t.leaves := by
  induction h with
  | number value =>
    rw [Expression.leaves_number]
    exact List.Subset.refl _
  | name id =>
    rw [Expression.leaves_name]
    exact List.Subset.refl _
  | parenthesized _ ih =>
    rw [Expression.leaves_parenthesized]
    exact ih
  | aggregate hkind id =>
    rw [Expression.leaves_call, List.flatMap_singleton, Expression.leaves_name]
    exact List.Subset.refl _
  | call _ _ _ ihleft ihright =>
    rw [Expression.leaves_call, List.flatMap_cons, List.flatMap_singleton]
    exact List.append_subset.2 ⟨List.subset_append_of_subset_left _ ihleft,
      List.subset_append_of_subset_right _ ihright⟩
  | binary op _ _ ihleft ihright =>
    rw [Expression.leaves_operation, List.flatMap_cons, List.flatMap_singleton]
    exact List.append_subset.2 ⟨List.subset_append_of_subset_left _ ihleft,
      List.subset_append_of_subset_right _ ihright⟩
  | negate _ ih =>
    rw [Expression.leaves_operation, List.flatMap_singleton]
    exact List.subset_cons_of_subset _ ih

end MetricFormula
