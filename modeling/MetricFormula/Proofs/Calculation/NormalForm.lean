import MetricFormula.Calculation.Text
import MetricFormula.Proofs.Number.ReadBack

/-!
# The normal form of calculations

Formulas have no negative literals: a minus sign before a number is an operation. So a calculation
and its formula agree up to the negative constants, which are read back as products with minus one.
The minus one to the left of a product is that operation already and stays as it is.

## Main definitions

* `Calculation.normalized`: what the formula of a calculation says;
* `Calculation.isNormal`: there is nothing to normalize.

## Main results

* `Calculation.normalized_eq_self_iff`: the calculations that are their own normal forms;
* `Calculation.isFinite_of_equals_normalized`: a calculation that equals its normal form has finite
  constants.
-/

namespace MetricFormula

namespace Calculation

/-- The constants of a calculation, from left to right. -/
def constants : Calculation → List Binary64
  | constant value => [value]
  | arithmetic _ left right => left.constants ++ right.constants
  | _ => []

/-- What the text of a constant says: a minus sign before a number is an operation, zero has no
sign, and infinities and NaN are names. -/
def ofConstant : Binary64 → Calculation
  | .nan => metric "NaN"
  | .infinity negative => if negative then negation (metric "inf") else metric "inf"
  | .finite negative x =>
    if negative && !x.isZero then negation (constant (.finite false x))
    else constant (.finite false x)

/-- The calculation with every constant replaced by what its text says, apart from the minus ones
on the left of products. -/
def normalized : Calculation → Calculation
  | constant value => ofConstant value
  | arithmetic op left right =>
    if op = .multiply ∧ left.isMinusOne then arithmetic op left right.normalized
    else arithmetic op left.normalized right.normalized
  | other => other

/-- No constant is negative, a negative zero or not finite, apart from the minus ones on the left
of products. -/
def isNormal : Calculation → Bool
  | constant (.finite negative _) => !negative
  | constant _ => false
  | arithmetic op left right =>
    if op = .multiply ∧ left.isMinusOne then right.isNormal else left.isNormal && right.isNormal
  | _ => true

theorem ofConstant_eq_self_iff {value : Binary64} :
    ofConstant value = constant value ↔ (constant value).isNormal := by
  cases value with
  | nan => simp [ofConstant, isNormal]
  | infinity negative => cases negative <;> simp [ofConstant, isNormal, negation]
  | finite negative x =>
    cases negative
    · simp [ofConstant, isNormal]
    · -- A minus sign is an operation before a number and dropped before zero.
      by_cases hzero : x.isZero <;> simp [ofConstant, isNormal, hzero, negation]

/-- A calculation is its own normal form exactly if there is nothing to normalize. -/
theorem normalized_eq_self_iff {t : Calculation} : t.normalized = t ↔ t.isNormal := by
  induction t with
  | constant value => exact ofConstant_eq_self_iff
  | metric id => exact iff_of_true rfl rfl
  | aggregate kind id => exact iff_of_true rfl rfl
  | placeholder => exact iff_of_true rfl rfl
  | arithmetic op left right hleft hright =>
    rw [normalized, isNormal]
    split
    next => rw [arithmetic.injEq, ← hright, eq_self, eq_self, true_and, true_and]
    next => rw [arithmetic.injEq, Bool.and_eq_true, ← hleft, ← hright, eq_self, true_and]

/-! ## What normalizing keeps -/

theorem hasPlaceholder_normalized (t : Calculation) :
    t.normalized.hasPlaceholder = t.hasPlaceholder := by
  induction t with
  | constant value =>
    cases value with
    | nan => rfl
    | infinity negative => cases negative <;> rfl
    | finite negative x =>
      rw [normalized, ofConstant]
      split <;> rfl
  | metric id => rfl
  | aggregate kind id => rfl
  | placeholder => rfl
  | arithmetic op left right hleft hright =>
    rw [normalized]
    split
    next => rw [hasPlaceholder, hasPlaceholder, hright]
    next => rw [hasPlaceholder, hasPlaceholder, hleft, hright]

/-- No metric is lost. -/
theorem metricIds_subset_normalized (t : Calculation) : t.metricIds ⊆ t.normalized.metricIds := by
  induction t with
  | constant value => exact List.nil_subset _
  | metric id => exact List.Subset.refl _
  | aggregate kind id => exact List.Subset.refl _
  | placeholder => exact List.Subset.refl _
  | arithmetic op left right hleft hright =>
    have happend {l : Calculation} (hl : left.metricIds ⊆ l.metricIds) :
        (arithmetic op left right).metricIds ⊆ (arithmetic op l right.normalized).metricIds :=
      List.append_subset.2 ⟨List.subset_append_of_subset_left _ hl,
        List.subset_append_of_subset_right _ hright⟩
    rw [normalized]
    split
    next => exact happend (List.Subset.refl _)
    next => exact happend hleft

/-! ## Finite constants -/

/-- Only NaN differs from itself. -/
theorem equals_self {t : Calculation} (h : ∀ value ∈ t.constants, value.isFinite) : t.equals t := by
  induction t with
  | constant value =>
    cases value with
    | finite negative x => simp [equals, Binary64.equals]
    | _ => exact absurd (h _ List.mem_cons_self) Bool.false_ne_true
  | metric id => exact beq_self_eq_true id
  | aggregate kind id => simp [equals]
  | placeholder => rfl
  | arithmetic op left right hleft hright =>
    rw [equals, hleft fun value hvalue => h value (List.mem_append_left _ hvalue),
      hright fun value hvalue => h value (List.mem_append_right _ hvalue), beq_self_eq_true]
    rfl

/-- The text of a constant that is not finite is a name, so a calculation that equals its normal
form has none. -/
theorem isFinite_of_equals_normalized {t : Calculation} (h : t.equals t.normalized) :
    ∀ value ∈ t.constants, value.isFinite := by
  induction t with
  | constant value =>
    intro value' hvalue'
    rw [List.mem_singleton.1 hvalue']
    cases value with
    -- Only a finite constant equals itself once it is normalized.
    | nan => exact absurd h Bool.false_ne_true
    | infinity negative => cases negative <;> exact absurd h Bool.false_ne_true
    | finite negative x => rfl
  | metric id => exact List.forall_mem_nil _
  | aggregate kind id => exact List.forall_mem_nil _
  | placeholder => exact List.forall_mem_nil _
  | arithmetic op left right hleft hright =>
    intro value hvalue
    rw [normalized] at h
    split at h
    next hminus =>
      rcases List.mem_append.1 hvalue with hvalue | hvalue
      · -- The minus one itself is finite.
        cases left with
        | constant minusOne =>
          rw [List.mem_singleton.1 hvalue, Binary64.eq_of_isMinusOne hminus.2,
            Binary64.ofInt_neg_one]
          rfl
        | _ => exact absurd hminus.2 Bool.false_ne_true
      · exact hright (Bool.and_eq_true_iff.1 h).2 value hvalue
    next =>
      obtain ⟨hl, hr⟩ := Bool.and_eq_true_iff.1 h
      rcases List.mem_append.1 hvalue with hvalue | hvalue
      · exact hleft (Bool.and_eq_true_iff.1 hl).2 value hvalue
      · exact hright hr value hvalue

end Calculation

end MetricFormula
