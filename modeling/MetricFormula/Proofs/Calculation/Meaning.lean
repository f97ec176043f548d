import MetricFormula.Proofs.Calculation.Building
import MetricFormula.Proofs.Calculation.NormalForm
import MetricFormula.Proofs.Expression.Leaves

/-!
# What expressions mean

Building fails, or leaves a placeholder, exactly where an expression has no meaning. Where it has
one, the policy for unknown functions plays no role, so the meaning is a relation between
expressions and calculations.

## Main definitions

* `Expression.Means`: an expression means a calculation.

## Main results

* `Calculation.ofExpression_eq_ok_iff`: building without placeholders is meaning;
* `Expression.Means.metricIds_eq`: the metrics of a calculation are the names of its expression;
* `Expression.Means.isNormal`: the calculation of an expression with scanned numbers is in normal
  form if these numbers are finite.
-/

namespace MetricFormula

/-- An expression means a calculation: parentheses mean nothing of their own, an aggregate function
of a name is an aggregate, a function of two arguments named after an operation is that operation,
and a minus sign is a negation. -/
inductive Expression.Means : Expression → Calculation → Prop
  /-- A number is a constant. -/
  | number (value : Binary64) : Means (.number value) (.constant value)
  /-- A name is a metric. -/
  | name (id : String) : Means (.name id) (.metric id)
  /-- Parentheses only group. -/
  | parenthesized {inner : Expression} {t : Calculation} (h : Means inner t) :
    Means (.parenthesized inner) t
  /-- An aggregate function of a name. -/
  | aggregate {function : String} {kind : Aggregate}
    (hkind : Aggregate.ofFunction? function = some kind) (id : String) :
    Means (.call function [.name id]) (.aggregate kind id)
  /-- A function named after an operation. -/
  | call {function : String} {op : Arithmetic} (hop : Arithmetic.ofName? function = some op)
    {left right : Expression} {l r : Calculation} (hleft : Means left l) (hright : Means right r) :
    Means (.call function [left, right]) (.arithmetic op l r)
  /-- An operation between its operands. -/
  | binary (op : Arithmetic) {left right : Expression} {l r : Calculation} (hleft : Means left l)
    (hright : Means right r) :
    Means (.operation (.binary op) [left, right]) (.arithmetic op l r)
  /-- A minus sign. -/
  | negate {operand : Expression} {t : Calculation} (h : Means operand t) :
    Means (.operation .negate [operand]) t.negation

namespace Calculation

/-! ## Building is meaning -/

variable {policy : UnknownFunctions} {e : Expression} {t : Calculation}

/-- The operands of an operation without placeholders have none. -/
theorem or_hasPlaceholder_eq_false {P : Prop} {op : Arithmetic} {left right : Calculation}
    (h : P ∨ (arithmetic op left right).hasPlaceholder = false) :
    (P ∨ left.hasPlaceholder = false) ∧ (P ∨ right.hasPlaceholder = false) := by
  rw [hasPlaceholder, Bool.or_eq_false_iff] at h
  exact ⟨h.imp_right And.left, h.imp_right And.right⟩

/-- A calculation that is built has the meaning of its expression if calls without meaning are
refused or none was met. -/
theorem means_of_ofExpression (h : ofExpression policy e = .ok t)
    (hplaceholder : policy = .reject ∨ t.hasPlaceholder = false) : e.Means t := by
  replace h := isBuilt_of_ofExpression h
  induction h with
  | number value => exact .number value
  | name id => exact .name id
  | parenthesized _ ih => exact .parenthesized (ih hplaceholder)
  | aggregate hkind id => exact .aggregate hkind id
  | call hop _ _ ihleft ihright =>
    obtain ⟨hleft, hright⟩ := or_hasPlaceholder_eq_false hplaceholder
    exact .call hop (ihleft hleft) (ihright hright)
  | binary op _ _ ihleft ihright =>
    obtain ⟨hleft, hright⟩ := or_hasPlaceholder_eq_false hplaceholder
    exact .binary op (ihleft hleft) (ihright hright)
  | negate _ ih => exact .negate (ih hplaceholder)
  | placeholder hfault hpolicy =>
    -- The policy that leaves a placeholder is excluded, and so is the placeholder.
    rcases hplaceholder with hreject | hnone
    · rw [hpolicy] at hreject
      cases hreject
    · cases hnone

end Calculation

namespace Expression.Means

variable {e : Expression} {t : Calculation}

theorem hasPlaceholder_eq_false (h : e.Means t) : t.hasPlaceholder = false := by
  induction h with
  | number | name | aggregate => rfl
  | parenthesized _ ih => exact ih
  | call _ _ _ ihleft ihright => exact Bool.or_eq_false_iff.2 ⟨ihleft, ihright⟩
  | binary _ _ _ ihleft ihright => exact Bool.or_eq_false_iff.2 ⟨ihleft, ihright⟩
  | negate _ ih => exact Bool.or_eq_false_iff.2 ⟨rfl, ih⟩

theorem ofExpression_eq (h : e.Means t) (policy : UnknownFunctions) :
    Calculation.ofExpression policy e = .ok t := by
  induction h with
  | number | name => rfl
  | parenthesized _ ih => exact ih
  | aggregate hkind id => exact Calculation.ofExpression_aggregate hkind id
  | call hop _ _ ihleft ihright =>
    rw [Calculation.ofExpression_call hop, Calculation.ofExpression, ihleft, ihright]
    rfl
  | binary op _ _ ihleft ihright =>
    rw [Calculation.ofExpression, ihleft, ihright]
    rfl
  | negate _ ih =>
    rw [Calculation.ofExpression, ih]
    rfl

/-- The metrics of the calculation are the names in the expression, in the same order. -/
theorem metricIds_eq (h : e.Means t) : t.metricIds = e.names := by
  induction h with
  | number value => rw [names_number, Calculation.metricIds]
  | name id => rw [names_name, Calculation.metricIds]
  | parenthesized _ ih => rw [names_parenthesized, ih]
  | aggregate hkind id =>
    rw [names_call, List.flatMap_singleton, names_name, Calculation.metricIds]
  | call _ _ _ ihleft ihright =>
    rw [names_call, Calculation.metricIds, ihleft, ihright]
    simp
  | binary _ _ _ ihleft ihright =>
    rw [names_operation, Calculation.metricIds, ihleft, ihright]
    simp
  | negate _ ih => rw [names_operation, List.flatMap_singleton, ← ih]; rfl

theorem isNormal_of_magnitude {x : Option Magnitude}
    (h : (Binary64.ofMagnitude? false x).isFinite) :
    (Calculation.constant (.ofMagnitude? false x)).isNormal := by
  cases x with
  | none => exact absurd h Bool.false_ne_true
  | some x => rfl

/-- An operation is in normal form if its operands are. -/
theorem isNormal_arithmetic (op : Arithmetic) {left right : Expression} {l r : Calculation}
    (hleft : (∀ leaf ∈ left.leaves, leaf.IsScanned) → (∀ value ∈ l.constants, value.isFinite) →
      l.isNormal)
    (hright : (∀ leaf ∈ right.leaves, leaf.IsScanned) → (∀ value ∈ r.constants, value.isFinite) →
      r.isNormal)
    (hscanned : ∀ leaf ∈ [left, right].flatMap leaves, leaf.IsScanned)
    (hfinite : ∀ value ∈ (Calculation.arithmetic op l r).constants, value.isFinite) :
    (Calculation.arithmetic op l r).isNormal := by
  rw [List.flatMap_cons, List.flatMap_singleton, List.forall_mem_append] at hscanned
  rw [Calculation.constants, List.forall_mem_append] at hfinite
  have hl := hleft hscanned.1 hfinite.1
  have hr := hright hscanned.2 hfinite.2
  rw [Calculation.isNormal]
  split
  next => exact hr
  next => exact Bool.and_eq_true_iff.2 ⟨hl, hr⟩

/-- Scanned numbers have no sign, and a minus sign is a product with minus one, so as long as no
number is infinite there is nothing to normalize. -/
theorem isNormal (h : e.Means t) (hscanned : ∀ leaf ∈ e.leaves, leaf.IsScanned)
    (hfinite : ∀ value ∈ t.constants, value.isFinite) : t.isNormal := by
  induction h with
  | number value =>
    rw [leaves_number, List.forall_mem_singleton, Lexeme.IsScanned] at hscanned
    rw [Calculation.constants, List.forall_mem_singleton] at hfinite
    obtain ⟨d, hd⟩ := hscanned
    -- A number that did not overflow is not negative.
    rw [hd, Binary64.ofDecimal] at hfinite ⊢
    exact isNormal_of_magnitude hfinite
  | name | aggregate => rfl
  | parenthesized _ ih =>
    rw [leaves_parenthesized] at hscanned
    exact ih hscanned hfinite
  | call _ _ _ ihleft ihright =>
    rw [leaves_call] at hscanned
    exact isNormal_arithmetic _ ihleft ihright hscanned hfinite
  | binary op _ _ ihleft ihright =>
    rw [leaves_operation] at hscanned
    exact isNormal_arithmetic _ ihleft ihright hscanned hfinite
  | negate _ ih =>
    rw [leaves_operation, List.flatMap_singleton] at hscanned
    have hminus : (Calculation.constant (.ofInt (-1))).isMinusOne := Binary64.isMinusOne_ofInt
    rw [Calculation.negation, Calculation.isNormal, if_pos ⟨rfl, hminus⟩]
    exact ih hscanned fun value hvalue => hfinite value (List.mem_append_right _ hvalue)

end Expression.Means

/-- Building a calculation without placeholders is meaning it, whatever becomes of unknown
functions. -/
theorem Calculation.ofExpression_eq_ok_iff {policy : UnknownFunctions} {e : Expression}
    {t : Calculation} :
    ofExpression policy e = .ok t ∧ t.hasPlaceholder = false ↔ e.Means t :=
  ⟨fun h => means_of_ofExpression h.1 (.inr h.2),
    fun h => ⟨h.ofExpression_eq policy, h.hasPlaceholder_eq_false⟩⟩

end MetricFormula
