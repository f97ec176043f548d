import Mathlib.Data.List.Forall2
import MetricFormula.Proofs.Calculation.Leaves

/-!
# Negations of a built calculation

Numbers are read without a sign, so whatever is negative in a calculation comes from a minus sign
of its formula. Building turns the minus sign into a product with minus one, whether it stands
before a number, a name or parentheses, and makes minus one nowhere else. So the products with minus
one are the minus signs, one for one and in the same order, apart from those inside calls without
meaning, of which nothing is built.

## Main definitions

* `Binary64.isNonnegative`: a number without a minus sign;
* `Calculation.placedConstants`: the constants, each with where it stands;
* `Calculation.negatedParts`: what is multiplied by minus one in a calculation;
* `Expression.negatedOperands`: what has a minus sign in front and is built.

## Main results

* `Calculation.placed_of_isBuilt`: constants are not negative, apart from the minus one to the left
  of a product;
* `Calculation.forall₂_negatedParts`: every minus sign is one product with minus one;
* `Calculation.normal_form_of_parse`: the form of what is built of a text.
-/

namespace MetricFormula

/-- The number is zero or above it, without a minus sign. -/
def Binary64.isNonnegative : Binary64 → Bool
  | nan => false
  | infinity negative => !negative
  | finite negative _ => !negative

/-- A number that is read without a sign is not negative, also if it is too large. -/
theorem Binary64.isNonnegative_ofDecimal (d : Decimal) : (ofDecimal false d).isNonnegative := by
  rw [ofDecimal]
  cases Magnitude.ofDecimal? d <;> rfl

/-- Minus one is negative. -/
theorem Binary64.isNonnegative_ofInt_neg_one : (ofInt (-1)).isNonnegative = false := by
  rw [ofInt_neg_one]
  rfl

namespace Expression

mutual

/-- What has a minus sign in front, from left to right, outside of calls without meaning. -/
def negatedOperands : Expression → List Expression
  | .number _ => []
  | .name _ => []
  | .parenthesized inner => inner.negatedOperands
  | .call function arguments =>
    if (call function arguments).fault?.isSome then [] else negatedOperandsOfAll arguments
  | .operation operator operands =>
    if (operation operator operands).fault?.isSome then []
    else if operator = .negate then operands ++ negatedOperandsOfAll operands
    else negatedOperandsOfAll operands

/-- What has a minus sign in front in a list of expressions. -/
def negatedOperandsOfAll : List Expression → List Expression
  | [] => []
  | e :: es => e.negatedOperands ++ negatedOperandsOfAll es

end

variable {e left right : Expression} {function : String}

theorem negatedOperandsOfAll_pair (left right : Expression) :
    negatedOperandsOfAll [left, right] = left.negatedOperands ++ right.negatedOperands := by
  rw [negatedOperandsOfAll, negatedOperandsOfAll, negatedOperandsOfAll, List.append_nil]

/-- Nothing is built of what is inside a node without meaning. -/
theorem negatedOperands_of_fault {error : BuildError} (h : e.fault? = some error) :
    e.negatedOperands = [] := by
  cases e with
  | number value => cases h
  | name id => cases h
  | parenthesized inner => cases h
  | call function arguments => rw [negatedOperands, h, Option.isSome_some, if_pos rfl]
  | operation operator operands => rw [negatedOperands, h, Option.isSome_some, if_pos rfl]

/-- The operands of a function that is named after an operation count one after the other. -/
theorem negatedOperands_call {op : Arithmetic} (hop : Arithmetic.ofName? function = some op) :
    (call function [left, right]).negatedOperands =
      left.negatedOperands ++ right.negatedOperands := by
  rw [negatedOperands, fault?_call_pair, hop, negatedOperandsOfAll_pair]
  rfl

/-- So do the operands of the operation itself. -/
theorem negatedOperands_binary (op : Arithmetic) :
    (operation (.binary op) [left, right]).negatedOperands =
      left.negatedOperands ++ right.negatedOperands := by
  rw [negatedOperands, negatedOperandsOfAll_pair]
  rfl

/-- A minus sign counts its operand first, and then what is negated in it. -/
theorem negatedOperands_negate (e : Expression) :
    (operation .negate [e]).negatedOperands = e :: e.negatedOperands := by
  rw [negatedOperands, negatedOperandsOfAll, negatedOperandsOfAll, List.append_nil]
  rfl

end Expression

namespace Calculation

/-- The constants of a calculation, from left to right, each with whether it is the left operand of
a product. -/
def placedConstants (leftOfProduct : Bool) : Calculation → List (Bool × Binary64)
  | constant value => [(leftOfProduct, value)]
  | arithmetic op left right =>
    left.placedConstants (op = .multiply) ++ right.placedConstants false
  | _ => []

/-- The right operands of the products with minus one on the left, from left to right. -/
def negatedParts : Calculation → List Calculation
  | arithmetic op left right =>
    (if op = .multiply ∧ left = constant (.ofInt (-1)) then [right] else []) ++
      left.negatedParts ++ right.negatedParts
  | _ => []

/-- What is built of a minus sign counts its operand first, too. -/
theorem negatedParts_negation (t : Calculation) :
    t.negation.negatedParts = t :: t.negatedParts := by
  have hminus : Arithmetic.multiply = .multiply ∧
      constant (.ofInt (-1)) = constant (.ofInt (-1)) := ⟨rfl, rfl⟩
  rw [negation, negatedParts, if_pos hminus]
  rfl

variable {policy : UnknownFunctions} {e : Expression} {t : Calculation}

/-! ## Constants -/

/-- The constant is not negative, or it is minus one to the left of a product. -/
inductive IsPlaced : Bool × Binary64 → Prop
  /-- A constant without a minus sign, wherever it stands. -/
  | nonnegative (leftOfProduct : Bool) {value : Binary64} (h : value.isNonnegative) :
    IsPlaced (leftOfProduct, value)
  /-- Minus one to the left of a product. -/
  | minusOne : IsPlaced (true, .ofInt (-1))

/-- Minus one stands only to the left of a product. -/
theorem not_isPlaced_minusOne : ¬IsPlaced (false, .ofInt (-1)) := by
  intro h
  cases h with
  | nonnegative _ hsign =>
    rw [Binary64.isNonnegative_ofInt_neg_one] at hsign
    exact Bool.false_ne_true hsign

/-- What is built of scanned numbers has no negative constants, apart from minus one to the left of
a product. -/
theorem placed_of_isBuilt (h : IsBuilt policy e t) (hscanned : ∀ leaf ∈ e.leaves, leaf.IsScanned)
    (leftOfProduct : Bool) : ∀ placed ∈ t.placedConstants leftOfProduct, IsPlaced placed := by
  induction h generalizing leftOfProduct with
  | number value =>
    rw [Expression.leaves_number, List.forall_mem_singleton, Lexeme.IsScanned] at hscanned
    obtain ⟨d, hd⟩ := hscanned
    rw [placedConstants, List.forall_mem_singleton, hd]
    exact .nonnegative leftOfProduct (Binary64.isNonnegative_ofDecimal d)
  | name id => exact List.forall_mem_nil _
  | parenthesized _ ih =>
    rw [Expression.leaves_parenthesized] at hscanned
    exact ih hscanned leftOfProduct
  | aggregate hkind id => exact List.forall_mem_nil _
  | call hop _ _ ihleft ihright =>
    rw [Expression.leaves_call, List.flatMap_cons, List.flatMap_singleton,
      List.forall_mem_append] at hscanned
    exact List.forall_mem_append.2 ⟨ihleft hscanned.1 _, ihright hscanned.2 _⟩
  | binary op _ _ ihleft ihright =>
    rw [Expression.leaves_operation, List.flatMap_cons, List.flatMap_singleton,
      List.forall_mem_append] at hscanned
    exact List.forall_mem_append.2 ⟨ihleft hscanned.1 _, ihright hscanned.2 _⟩
  | negate _ ih =>
    rw [Expression.leaves_operation, List.flatMap_singleton] at hscanned
    rw [negation, placedConstants, placedConstants, List.forall_mem_append,
      List.forall_mem_singleton]
    -- The minus one of a negation stands left in a product, the operand right of it.
    exact ⟨.minusOne, ih hscanned false⟩
  | placeholder hfault hpolicy => exact List.forall_mem_nil _

/-- So nothing that is built is minus one itself. -/
theorem ne_minusOne_of_isBuilt (h : IsBuilt policy e t)
    (hscanned : ∀ leaf ∈ e.leaves, leaf.IsScanned) : t ≠ constant (.ofInt (-1)) := by
  intro heq
  have hplaced := placed_of_isBuilt h hscanned false
  rw [heq, placedConstants, List.forall_mem_singleton] at hplaced
  exact not_isPlaced_minusOne hplaced

/-! ## Minus signs -/

/-- What is built is the value of building. -/
theorem IsBuilt.ofExpression_eq (h : IsBuilt policy e t) : ofExpression policy e = .ok t := by
  induction h with
  | number | name => rfl
  | parenthesized _ ih => exact ih
  | aggregate hkind id => exact ofExpression_aggregate hkind id
  | call hop _ _ ihleft ihright =>
    rw [ofExpression_call hop, ofExpression, ihleft, ihright]
    rfl
  | binary op _ _ ihleft ihright =>
    rw [ofExpression, ihleft, ihright]
    rfl
  | negate _ ih =>
    rw [ofExpression, ih]
    rfl
  | placeholder hfault hpolicy =>
    rw [ofExpression_of_fault hfault, hpolicy]
    rfl

/-- An operation between operands of which none is minus one adds no negation. -/
theorem negatedParts_arithmetic {left : Calculation} (hleft : left ≠ constant (.ofInt (-1)))
    (op : Arithmetic) (right : Calculation) :
    (arithmetic op left right).negatedParts = left.negatedParts ++ right.negatedParts := by
  rw [negatedParts, if_neg fun hminus => hleft hminus.2, List.nil_append]

/-- Every minus sign is one product with minus one: what stands behind the sign is built as the
other factor. -/
theorem forall₂_negatedParts (h : IsBuilt policy e t)
    (hscanned : ∀ leaf ∈ e.leaves, leaf.IsScanned) :
    List.Forall₂ (fun operand part => ofExpression policy operand = .ok part) e.negatedOperands
      t.negatedParts := by
  induction h with
  | number | name => exact .nil
  | parenthesized _ ih =>
    rw [Expression.leaves_parenthesized] at hscanned
    exact ih hscanned
  | @aggregate function kind hkind id =>
    have hnone : (Expression.call function [.name id]).fault? = none :=
      Expression.fault?_call_singleton hkind _
    rw [Expression.negatedOperands, hnone]
    exact .nil
  | call hop hleft _ ihleft ihright =>
    rw [Expression.leaves_call, List.flatMap_cons, List.flatMap_singleton,
      List.forall_mem_append] at hscanned
    rw [Expression.negatedOperands_call hop,
      negatedParts_arithmetic (ne_minusOne_of_isBuilt hleft hscanned.1)]
    exact List.rel_append (ihleft hscanned.1) (ihright hscanned.2)
  | binary op hleft _ ihleft ihright =>
    rw [Expression.leaves_operation, List.flatMap_cons, List.flatMap_singleton,
      List.forall_mem_append] at hscanned
    rw [Expression.negatedOperands_binary,
      negatedParts_arithmetic (ne_minusOne_of_isBuilt hleft hscanned.1)]
    exact List.rel_append (ihleft hscanned.1) (ihright hscanned.2)
  | negate hoperand ih =>
    rw [Expression.leaves_operation, List.flatMap_singleton] at hscanned
    rw [Expression.negatedOperands_negate, negatedParts_negation]
    exact .cons hoperand.ofExpression_eq (ih hscanned)
  | placeholder hfault hpolicy =>
    rw [Expression.negatedOperands_of_fault hfault]
    exact .nil

/-! ## Texts -/

/-- The form of whatever is built of a text. Its metrics are identifiers, its constants are not
negative or are the minus one to the left of a product, and it has a placeholder only if the policy
leaves some. Its products with minus one are the minus signs of the expression outside of calls
without meaning, one for one and in the same order. -/
theorem normal_form_of_parse {text : List Char}
    (hparse : Expression.parse text = .ok e ∨ Formula.parse text = .ok e)
    (hbuild : ofExpression policy e = .ok t) :
    (∀ id ∈ t.metricIds, Text.isIdentifier id.toList) ∧
      (∀ leftOfProduct value, (leftOfProduct, value) ∈ t.placedConstants false →
        value.isNonnegative ∨ value = .ofInt (-1) ∧ leftOfProduct = true) ∧
      (t.hasPlaceholder → policy = .placeholder) ∧
      List.Forall₂ (fun operand part => ofExpression policy operand = .ok part) e.negatedOperands
        t.negatedParts := by
  have hscanned : ∀ leaf ∈ e.leaves, leaf.IsScanned :=
    hparse.elim Expression.isScanned_of_parse Formula.isScanned_of_parse
  have hbuilt := isBuilt_of_ofExpression hbuild
  refine ⟨fun id hid => ?_, fun leftOfProduct value hmem => ?_, fun hplaceholder => ?_,
    forall₂_negatedParts hbuilt hscanned⟩
  · -- A metric is a leaf of the expression, since it is not the minus one of a negation.
    have hleaf := leaves_subset_of_ofExpression hbuild (mem_metricIds_iff.1 hid)
    rcases List.mem_cons.1 hleaf with hone | hleaf
    · cases hone
    · exact hscanned _ hleaf
  · cases placed_of_isBuilt hbuilt hscanned false _ hmem with
    | nonnegative _ hsign => exact .inl hsign
    | minusOne => exact .inr ⟨rfl, rfl⟩
  · cases policy with
    | placeholder => rfl
    | reject =>
      have hmeans := means_of_ofExpression hbuild (.inl rfl)
      rw [hmeans.hasPlaceholder_eq_false] at hplaceholder
      cases hplaceholder

/-- Four minus signs, one of them inside a call without meaning, are three products with minus one:
before the call, before parentheses and before a number. -/
theorem normal_form_of_nested_signs :
    let formula := "-Max(-\x7b a \x7d) / -(-2)".toList
    let call : Expression := .call "Max" [.operation .negate [.name "a"]]
    let two : Expression := .number (.ofInt 2)
    let signed : Expression := .operation .negate [two]
    let e : Expression := .operation (.binary .divide)
      [.operation .negate [call], .operation .negate [.parenthesized signed]]
    let part := negation (constant (.ofInt 2))
    let t := arithmetic .divide (negation placeholder) (negation part)
    Formula.parse formula = .ok e ∧ ofExpression .placeholder e = .ok t ∧
      (∀ leftOfProduct value, (leftOfProduct, value) ∈ t.placedConstants false →
        value.isNonnegative ∨ value = .ofInt (-1) ∧ leftOfProduct = true) ∧
      List.Forall₂ (fun operand part => ofExpression .placeholder operand = .ok part)
        [call, .parenthesized signed, two] [placeholder, part, constant (.ofInt 2)] := by
  intro formula call two signed e part t
  have hparse : Formula.parse formula = .ok e := rfl
  -- The function is unknown, so the placeholder stands for the whole call.
  have hcall : IsBuilt .placeholder call placeholder :=
    .placeholder (Expression.fault?_call_singleton_of_none (by decide) _) rfl
  have hbuild : ofExpression .placeholder e = .ok t :=
    (IsBuilt.binary .divide hcall.negate
      (IsBuilt.number _).negate.parenthesized.negate).ofExpression_eq
  obtain ⟨-, hplaced, -, hnegated⟩ := normal_form_of_parse (.inr hparse) hbuild
  have hoperands : e.negatedOperands = [call, .parenthesized signed, two] := by
    rw [Expression.negatedOperands_binary, Expression.negatedOperands_negate,
      Expression.negatedOperands_negate]
    rfl
  have hparts : t.negatedParts = [placeholder, part, constant (.ofInt 2)] := by
    rw [negatedParts_arithmetic Calculation.noConfusion, negatedParts_negation,
      negatedParts_negation, negatedParts_negation]
    rfl
  rw [hoperands, hparts] at hnegated
  exact ⟨hparse, hbuild, hplaced, hnegated⟩

end Calculation

end MetricFormula
