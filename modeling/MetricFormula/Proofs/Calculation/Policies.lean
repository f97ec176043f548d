import MetricFormula.Proofs.Calculation.Meaning

/-!
# The two policies for unknown functions

Both policies build the same calculation of an expression in which every call and operator has a
meaning. Of any other expression one leaves placeholders, and the other tells the error of the first
node without meaning. Operands are built from left to right and nothing inside a node without
meaning is built, so this is the first one in the order of `walk`.

## Main definitions

* `Expression.firstFault?`: why the first node without meaning has none.

## Main results

* `Calculation.exists_ofExpression_placeholder`: with placeholders every expression is built;
* `Calculation.ofExpression_reject`: the strict policy told by the other and the first fault;
* `Calculation.policies_agree`: which calculations and which errors the strict policy has.
-/

namespace MetricFormula

namespace Expression

/-- Why the first call or operator without meaning has none, parents before children and from left
to right. -/
def firstFault? (e : Expression) : Option BuildError :=
  e.walk.findSome? fault?

theorem findSome?_walkAll {β : Type} (f : Expression → Option β) (es : List Expression) :
    (walkAll es).findSome? f = es.findSome? fun e => e.walk.findSome? f := by
  induction es with
  | nil => rfl
  | cons e es ih =>
    rw [walkAll, List.findSome?_append, ih, List.findSome?_cons]
    cases e.walk.findSome? f <;> rfl

/-- A node is visited before everything inside it. -/
theorem exists_walk_eq_cons (e : Expression) : ∃ inside, e.walk = e :: inside := by
  cases e <;> exact ⟨_, rfl⟩

theorem firstFault?_of_fault {e : Expression} {error : BuildError} (h : e.fault? = some error) :
    e.firstFault? = some error := by
  obtain ⟨inside, hwalk⟩ := e.exists_walk_eq_cons
  rw [firstFault?, hwalk, List.findSome?_cons, h]

theorem firstFault?_parenthesized (inner : Expression) :
    (parenthesized inner).firstFault? = inner.firstFault? :=
  rfl

/-- The first fault of a call that has a meaning is that of its arguments. -/
theorem firstFault?_call {function : String} {arguments : List Expression}
    (h : (call function arguments).fault? = none) :
    (call function arguments).firstFault? = arguments.findSome? firstFault? := by
  show (call function arguments :: walkAll arguments).findSome? fault? = _
  rw [List.findSome?_cons, h, findSome?_walkAll]
  rfl

/-- The first fault of an operator that has a meaning is that of its operands. -/
theorem firstFault?_operation {operator : Operator} {operands : List Expression}
    (h : (operation operator operands).fault? = none) :
    (operation operator operands).firstFault? = operands.findSome? firstFault? := by
  show (operation operator operands :: walkAll operands).findSome? fault? = _
  rw [List.findSome?_cons, h, findSome?_walkAll]
  rfl

theorem findSome?_pair {α β : Type} (f : α → Option β) (x y : α) :
    [x, y].findSome? f = (f x).or (f y) := by
  rw [List.findSome?_cons, List.findSome?_cons, List.findSome?_nil]
  cases f x <;> cases f y <;> rfl

end Expression

namespace Calculation

/-- With placeholders every expression is built. -/
theorem exists_ofExpression_placeholder (e : Expression) :
    ∃ t, ofExpression .placeholder e = .ok t := by
  induction e using Expression.building_induction with
  | number value => exact ⟨_, rfl⟩
  | name id => exact ⟨_, rfl⟩
  | parenthesized inner ih => exact ih
  | aggregate function kind id hkind => exact ⟨_, ofExpression_aggregate hkind id⟩
  | call function op left right hop ihleft ihright =>
    obtain ⟨l, hleft⟩ := ihleft
    obtain ⟨r, hright⟩ := ihright
    rw [ofExpression_call hop, ofExpression, hleft, hright]
    exact ⟨_, rfl⟩
  | binary op left right ihleft ihright =>
    obtain ⟨l, hleft⟩ := ihleft
    obtain ⟨r, hright⟩ := ihright
    rw [ofExpression, hleft, hright]
    exact ⟨_, rfl⟩
  | negate operand ih =>
    obtain ⟨inner, hoperand⟩ := ih
    rw [ofExpression, hoperand]
    exact ⟨_, rfl⟩
  | fault e error hfault => exact ⟨_, ofExpression_of_fault hfault⟩

/-- Of the operands of an operation the left one is built first. -/
theorem ofExpression_reject_binary {op : Arithmetic} {left right : Expression}
    (hleft : ofExpression .reject left =
      left.firstFault?.elim (ofExpression .placeholder left) .error)
    (hright : ofExpression .reject right =
      right.firstFault?.elim (ofExpression .placeholder right) .error) :
    ofExpression .reject (.operation (.binary op) [left, right]) =
      (left.firstFault?.or right.firstFault?).elim
        (ofExpression .placeholder (.operation (.binary op) [left, right])) .error := by
  obtain ⟨l, hl⟩ := exists_ofExpression_placeholder left
  rw [ofExpression, ofExpression, hleft, hright, hl]
  -- A fault on the right counts only if there is none on the left.
  cases left.firstFault? with
  | some error => rfl
  | none => cases right.firstFault? <;> rfl

/-- If calls without meaning are refused, the first fault is the error, and without a fault the
same is built as with placeholders. -/
theorem ofExpression_reject (e : Expression) :
    ofExpression .reject e = e.firstFault?.elim (ofExpression .placeholder e) .error := by
  induction e using Expression.building_induction with
  | number value => rfl
  | name id => rfl
  | parenthesized inner ih =>
    rw [Expression.firstFault?_parenthesized, ofExpression, ofExpression]
    exact ih
  | aggregate function kind id hkind =>
    have hnone : (Expression.call function [.name id]).fault? = none :=
      Expression.fault?_call_singleton hkind _
    rw [Expression.firstFault?_call hnone, ofExpression_aggregate hkind,
      ofExpression_aggregate hkind]
    rfl
  | call function op left right hop ihleft ihright =>
    have hnone : (Expression.call function [left, right]).fault? = none := by
      rw [Expression.fault?_call_pair, hop]
      rfl
    rw [Expression.firstFault?_call hnone, Expression.findSome?_pair, ofExpression_call hop,
      ofExpression_call hop]
    exact ofExpression_reject_binary ihleft ihright
  | binary op left right ihleft ihright =>
    rw [Expression.firstFault?_operation rfl, Expression.findSome?_pair]
    exact ofExpression_reject_binary ihleft ihright
  | negate operand ih =>
    rw [Expression.firstFault?_operation rfl, List.findSome?_singleton, ofExpression,
      ofExpression, ih]
    cases operand.firstFault? <;> rfl
  | fault e error hfault =>
    -- The node itself comes before everything inside it.
    rw [Expression.firstFault?_of_fault hfault]
    exact ofExpression_of_fault hfault

/-- The two policies agree. With placeholders an expression is always built. If nothing in the
result is a placeholder, the strict policy builds the same, and otherwise its error is that of the
first call or operator without meaning. -/
theorem policies_agree (e : Expression) :
    ∃ t, ofExpression .placeholder e = .ok t ∧
      (∀ t', ofExpression .reject e = .ok t' ↔ t.hasPlaceholder = false ∧ t' = t) ∧
      ∀ error, ofExpression .reject e = .error error ↔
        t.hasPlaceholder = true ∧ e.firstFault? = some error := by
  obtain ⟨t, ht⟩ := exists_ofExpression_placeholder e
  have hok : ∀ t', ofExpression .reject e = .ok t' ↔ t.hasPlaceholder = false ∧ t' = t := by
    intro t'
    constructor
    · intro h
      -- What is built of an expression with a meaning does not depend on the policy.
      have hmeans := means_of_ofExpression h (.inl rfl)
      rw [hmeans.ofExpression_eq] at ht
      rw [← Except.ok.inj ht]
      exact ⟨hmeans.hasPlaceholder_eq_false, rfl⟩
    · rintro ⟨hnone, rfl⟩
      exact (means_of_ofExpression ht (.inr hnone)).ofExpression_eq .reject
  refine ⟨t, ht, hok, fun error => ?_⟩
  -- The strict policy tells the first fault, so without one it has no error.
  have hreject := ofExpression_reject e
  cases hfault : e.firstFault? with
  | none =>
    rw [hfault, Option.elim_none, ht] at hreject
    rw [hreject]
    exact iff_of_false nofun nofun
  | some error' =>
    rw [hfault, Option.elim_some] at hreject
    -- Having told an error, it cannot have built what there would be without placeholders.
    have htrue : t.hasPlaceholder = true := by
      by_contra hnone
      have h := (hok t).2 ⟨Bool.eq_false_iff.2 hnone, rfl⟩
      rw [hreject] at h
      cases h
    rw [hreject, Except.error.injEq, Option.some.injEq]
    exact (and_iff_right htrue).symm

/-- A call without meaning hides those inside it and those behind it. -/
example : ofExpression .reject (.call "add" [.call "Sum" [.call "Max" [.name "a"]],
    .call "Min" [.name "b"]]) = .error (.aggregateArgument "Sum") := by
  decide

end Calculation

end MetricFormula
