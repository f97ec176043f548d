import Mathlib.Data.List.Basic
import MetricFormula.Calculation.Build
import MetricFormula.Proofs.Outcome

/-!
# Where building has no meaning

Whether a call or an operator has a meaning is seen at its own node: by its function, the number of
its arguments and, for an aggregate, whether its argument is a name. Nothing inside a node without
meaning is built. Building is therefore an induction with one case for each way to be built and one
for all nodes without meaning.

## Main definitions

* `Expression.fault?`: why the node at the top has no meaning.

## Main results

* `Expression.building_induction`: induction along what is built;
* `Calculation.ofExpression_of_fault`: what is built of a node without meaning.
-/

namespace MetricFormula

/-- The number of operands that the operator takes. -/
def Operator.arity : Operator → Nat
  | binary _ => 2
  | negate => 1

namespace Expression

/-! ## Nodes without meaning -/

/-- Why the call or operator at the top has no meaning, whatever its arguments mean. A call has one
if it is an aggregate function of a name alone or if its function is named after an operation and
has two arguments, and an operator if it has as many operands as it takes. -/
def fault? : Expression → Option BuildError
  | call function arguments =>
    if arguments.length = 1 ∧ (Aggregate.ofFunction? function).isSome then
      if arguments.all (·.name?.isSome) then none else some (.aggregateArgument function)
    else if arguments.length = 2 ∧ (Arithmetic.ofName? function).isSome then none
    else some (.unknownFunction function arguments.length)
  | operation operator operands =>
    if operands.length = operator.arity then none
    else some (.unknownFunction operator.name operands.length)
  | number _ | name _ | parenthesized _ => none

/-- The argument of an aggregate function has to be a name. -/
theorem fault?_call_singleton {function : String} {kind : Aggregate}
    (hkind : Aggregate.ofFunction? function = some kind) (argument : Expression) :
    (call function [argument]).fault? =
      if argument.name?.isSome then none else some (.aggregateArgument function) := by
  simp [fault?, hkind]

/-- Only aggregate functions have one argument. -/
theorem fault?_call_singleton_of_none {function : String}
    (hkind : Aggregate.ofFunction? function = none) (argument : Expression) :
    (call function [argument]).fault? = some (.unknownFunction function 1) := by
  simp [fault?, hkind]

/-- Only functions that are named after an operation have two arguments. -/
theorem fault?_call_pair (function : String) (left right : Expression) :
    (call function [left, right]).fault? =
      if (Arithmetic.ofName? function).isSome then none
      else some (.unknownFunction function 2) := by
  simp [fault?]

/-- A call with neither one nor two arguments. -/
theorem fault?_call_others {function : String} {arguments : List Expression}
    (hone : ∀ argument, arguments = [argument] → False)
    (htwo : ∀ left right, arguments = [left, right] → False) :
    (call function arguments).fault? = some (.unknownFunction function arguments.length) := by
  have hone : arguments.length ≠ 1 := by
    intro hlength
    obtain ⟨argument, harguments⟩ := List.length_eq_one_iff.1 hlength
    exact hone argument harguments
  have htwo : arguments.length ≠ 2 := by
    intro hlength
    obtain ⟨left, right, harguments⟩ := List.length_eq_two.1 hlength
    exact htwo left right harguments
  rw [fault?, if_neg (mt And.left hone), if_neg (mt And.left htwo)]

/-- An operator with too few or too many operands. -/
theorem fault?_operation_others {operator : Operator} {operands : List Expression}
    (hbinary : ∀ op left right, operator = .binary op → operands = [left, right] → False)
    (hnegate : ∀ operand, operator = .negate → operands = [operand] → False) :
    (operation operator operands).fault? =
      some (.unknownFunction operator.name operands.length) := by
  -- With the right number of operands it would be one of the two.
  refine if_neg fun hlength => ?_
  cases operator with
  | binary op =>
    obtain ⟨left, right, hoperands⟩ := List.length_eq_two.1 hlength
    exact hbinary op left right rfl hoperands
  | negate =>
    obtain ⟨operand, hoperands⟩ := List.length_eq_one_iff.1 hlength
    exact hnegate operand rfl hoperands

/-! ## Induction along what is built -/

/-- Induction with a case for each node that has a meaning and one for all that have none. Nothing
is assumed of the parts of a node without meaning, since they are not built. -/
@[elab_as_elim]
theorem building_induction {motive : Expression → Prop}
    (number : ∀ value, motive (.number value))
    (name : ∀ id, motive (.name id))
    (parenthesized : ∀ inner, motive inner → motive (.parenthesized inner))
    (aggregate : ∀ function kind id, Aggregate.ofFunction? function = some kind →
      motive (.call function [.name id]))
    (call : ∀ function op left right, Arithmetic.ofName? function = some op →
      motive left → motive right → motive (.call function [left, right]))
    (binary : ∀ op left right, motive left → motive right →
      motive (.operation (.binary op) [left, right]))
    (negate : ∀ operand, motive operand → motive (.operation .negate [operand]))
    (fault : ∀ e error, e.fault? = some error → motive e) (e : Expression) : motive e := by
  -- The cases of the recursion, with the nodes that are not built sorted out of them.
  induction e using Calculation.ofExpression.induct with
  | case1 value => exact number value
  | case2 id => exact name id
  | case3 inner ih => exact parenthesized inner ih
  | case4 function argument =>
    rcases hkind : Aggregate.ofFunction? function with _ | kind
    · exact fault _ _ (fault?_call_singleton_of_none hkind argument)
    · cases argument with
      | name id => exact aggregate function kind id hkind
      | _ => exact fault _ _ (fault?_call_singleton hkind _)
  | case5 function left right op hop ihleft ihright =>
    exact call function op left right hop ihleft ihright
  | case6 function left right hop =>
    refine fault _ (.unknownFunction function 2) ?_
    rw [fault?_call_pair, hop]
    rfl
  | case7 function arguments hone htwo => exact fault _ _ (fault?_call_others hone htwo)
  | case8 op left right ihleft ihright => exact binary op left right ihleft ihright
  | case9 operand ih => exact negate operand ih
  | case10 operator operands hbinary hnegate =>
    exact fault _ _ (fault?_operation_others hbinary hnegate)

end Expression

namespace Calculation

variable {policy : UnknownFunctions}

/-- What is built of a node without meaning depends on the policy alone. -/
theorem ofExpression_of_fault {e : Expression} {error : BuildError} (h : e.fault? = some error) :
    ofExpression policy e = unmapped policy error := by
  -- Where something is built there is no fault, and elsewhere the fault is the error.
  fun_cases ofExpression policy e with
  | case1 value => cases h
  | case2 id => cases h
  | case3 inner => cases h
  | case4 function argument =>
    rcases hkind : Aggregate.ofFunction? function with _ | kind
    · rw [Expression.fault?_call_singleton_of_none hkind] at h
      rw [ofAggregate, hkind, ← Option.some.inj h]
    · rw [Expression.fault?_call_singleton hkind] at h
      rw [ofAggregate, hkind]
      cases argument with
      | name id => cases h
      | _ => rw [← Option.some.inj h]
  | case5 function left right op hop =>
    rw [Expression.fault?_call_pair, hop] at h
    cases h
  | case6 function left right hop =>
    rw [Expression.fault?_call_pair, hop] at h
    rw [← Option.some.inj h]
  | case7 function arguments hone htwo =>
    rw [Expression.fault?_call_others hone htwo] at h
    rw [← Option.some.inj h]
  | case8 op left right => cases h
  | case9 operand => cases h
  | case10 operator operands hbinary hnegate =>
    rw [Expression.fault?_operation_others hbinary hnegate] at h
    rw [← Option.some.inj h]

/-! ## What is built of the other nodes -/

/-- An aggregate function of a name is built as such. -/
theorem ofExpression_aggregate {function : String} {kind : Aggregate}
    (hkind : Aggregate.ofFunction? function = some kind) (id : String) :
    ofExpression policy (.call function [.name id]) = .ok (.aggregate kind id) := by
  rw [ofExpression, ofAggregate, hkind]

/-- A function named after an operation is another way to write the operation. -/
theorem ofExpression_call {function : String} {op : Arithmetic}
    (hop : Arithmetic.ofName? function = some op) (left right : Expression) :
    ofExpression policy (.call function [left, right]) =
      ofExpression policy (.operation (.binary op) [left, right]) := by
  rw [ofExpression, hop, ofExpression]

/-- All that building can do: a calculation is built of an expression from what is built of its
parts, or it is a placeholder for a node without meaning, if the policy allows that. -/
inductive IsBuilt (policy : UnknownFunctions) : Expression → Calculation → Prop
  /-- A number is a constant. -/
  | number (value : Binary64) : IsBuilt policy (.number value) (.constant value)
  /-- A name is a metric. -/
  | name (id : String) : IsBuilt policy (.name id) (.metric id)
  /-- Parentheses add nothing. -/
  | parenthesized {inner : Expression} {t : Calculation} (h : IsBuilt policy inner t) :
    IsBuilt policy (.parenthesized inner) t
  /-- An aggregate function of a name. -/
  | aggregate {function : String} {kind : Aggregate}
    (hkind : Aggregate.ofFunction? function = some kind) (id : String) :
    IsBuilt policy (.call function [.name id]) (.aggregate kind id)
  /-- A function named after an operation. -/
  | call {function : String} {op : Arithmetic} (hop : Arithmetic.ofName? function = some op)
    {left right : Expression} {l r : Calculation} (hleft : IsBuilt policy left l)
    (hright : IsBuilt policy right r) :
    IsBuilt policy (.call function [left, right]) (.arithmetic op l r)
  /-- An operation between its operands. -/
  | binary (op : Arithmetic) {left right : Expression} {l r : Calculation}
    (hleft : IsBuilt policy left l) (hright : IsBuilt policy right r) :
    IsBuilt policy (.operation (.binary op) [left, right]) (.arithmetic op l r)
  /-- A minus sign. -/
  | negate {operand : Expression} {t : Calculation} (h : IsBuilt policy operand t) :
    IsBuilt policy (.operation .negate [operand]) t.negation
  /-- A node without meaning. -/
  | placeholder {e : Expression} {error : BuildError} (hfault : e.fault? = some error)
    (hpolicy : policy = .placeholder) : IsBuilt policy e .placeholder

/-- An operation that is built has both its operands built. -/
theorem exists_operands {op : Arithmetic} {left right : Expression} {t : Calculation}
    (h : ofExpression policy (.operation (.binary op) [left, right]) = .ok t) :
    ∃ l r, ofExpression policy left = .ok l ∧ ofExpression policy right = .ok r ∧
      t = .arithmetic op l r := by
  rw [ofExpression] at h
  obtain ⟨l, hleft, h⟩ := bind_eq_ok h
  obtain ⟨r, hright, h⟩ := bind_eq_ok h
  exact ⟨l, r, hleft, hright, (Except.ok.inj h).symm⟩

/-- Building does nothing else. -/
theorem isBuilt_of_ofExpression {e : Expression} {t : Calculation}
    (h : ofExpression policy e = .ok t) : IsBuilt policy e t := by
  induction e using Expression.building_induction generalizing t with
  | number value =>
    rw [ofExpression] at h
    cases h
    exact .number value
  | name id =>
    rw [ofExpression] at h
    cases h
    exact .name id
  | parenthesized inner ih =>
    rw [ofExpression] at h
    exact .parenthesized (ih h)
  | aggregate function kind id hkind =>
    rw [ofExpression_aggregate hkind] at h
    cases h
    exact .aggregate hkind id
  | call function op left right hop ihleft ihright =>
    rw [ofExpression_call hop] at h
    obtain ⟨l, r, hleft, hright, rfl⟩ := exists_operands h
    exact .call hop (ihleft hleft) (ihright hright)
  | binary op left right ihleft ihright =>
    obtain ⟨l, r, hleft, hright, rfl⟩ := exists_operands h
    exact .binary op (ihleft hleft) (ihright hright)
  | negate operand ih =>
    rw [ofExpression] at h
    obtain ⟨inner, hinner, h⟩ := bind_eq_ok h
    cases h
    exact .negate (ih hinner)
  | fault e error hfault =>
    rw [ofExpression_of_fault hfault] at h
    cases policy with
    | reject => cases h
    | placeholder =>
      cases h
      exact .placeholder hfault rfl

end Calculation

end MetricFormula
