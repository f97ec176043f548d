import MetricFormula.Calculation.Build
import MetricFormula.Proofs.Calculation.NormalForm
import MetricFormula.Proofs.Expression.Nesting
import MetricFormula.Proofs.Expression.Words
import MetricFormula.Proofs.Formula.Brackets

/-!
# Reading back the formula of a calculation

The formula of a calculation without its braces is arithmetic. Each rule that writes a part of it
(a number, a name, a sign, parentheses, an operation) has a counterpart that derives what was
written, and the parentheses stand exactly where the derivation needs them.

## Main definitions

* `Calculation.Writes`: a text is derived from a phrase of the grammar and means a calculation.

## Main results

* `Calculation.exists_writes_formula`: the formula of a calculation means its normal form;
* `Calculation.parse_formula_eq_normalized`: it parses to that normal form within the limits on the
  number of words and on their nesting, and is refused beyond them.
-/

namespace MetricFormula

open Grammar

namespace Calculation

variable {α : Type} {words : α → List Lexeme} {expression : α → Expression} {precedence : Nat}

/-! ## The rules of writing -/

/-- The text is derived from a phrase, and the expression of that phrase means `t`. -/
def Writes (words : α → List Lexeme) (expression : α → Expression) (text : List Char)
    (t : Calculation) : Prop :=
  ∃ tree, Lexeme.scan text = .ok (words tree) ∧
    ∀ policy, ofExpression policy (expression tree) = .ok t

/-- A text derived from an operand with some levels of nesting. -/
abbrev WritesOperand (levels : Nat) : List Char → Calculation → Prop :=
  Writes (Operand.words levels) (Operand.expression levels)

/-- A text derived from a product of operands. -/
abbrev WritesProduct (levels : Nat) : List Char → Calculation → Prop :=
  Writes (Chain.words (Operand.words levels) : Chain 2 (Operand levels) → List Lexeme)
    (Chain.expression (Operand.expression levels))

/-- A text derived from a sum of products. -/
abbrev WritesSum (levels : Nat) : List Char → Calculation → Prop :=
  Writes (Sum.words (Operand.words levels)) (Sum.expression (Operand.expression levels))

/-- A phrase alone is a chain. -/
theorem Writes.chain {text : List Char} {t : Calculation} (h : Writes words expression text t) :
    Writes (Chain.words words : Chain precedence α → List Lexeme) (Chain.expression expression)
      text t := by
  obtain ⟨tree, hscan, hmeans⟩ := h
  refine ⟨⟨tree, []⟩, ?_, hmeans⟩
  rw [hscan, Chain.words, Chain.tailWords, List.flatMap_nil, List.append_nil]

/-- An operand alone is a product. -/
theorem WritesOperand.product {levels : Nat} {text : List Char} {t : Calculation}
    (h : WritesOperand levels text t) : WritesProduct levels text t :=
  Writes.chain h

/-- A product alone is a sum. -/
theorem WritesProduct.sum {levels : Nat} {text : List Char} {t : Calculation}
    (h : WritesProduct levels text t) : WritesSum levels text t :=
  Writes.chain h

/-- The sign of an operation between blanks is one word. -/
theorem scan_sign {op : Arithmetic} {left right : List Char} {leftWords rightWords : List Lexeme}
    (hleft : Lexeme.scan left = .ok leftWords) (hright : Lexeme.scan right = .ok rightWords) :
    Lexeme.scan (left ++ ' ' :: op.sign :: ' ' :: right) =
      .ok (leftWords ++ op.lexeme :: rightWords) := by
  have hblank : Lexeme.separator? ' ' = some [] := by decide
  have hsign : Lexeme.separator? op.sign = some [op.lexeme] := by cases op <;> decide
  have hoperand := Lexeme.scan_separator_cons hblank hright
  rw [Lexeme.scan_separator_ok hblank hleft (Lexeme.scan_separator_cons hsign hoperand)]
  simp

/-- An operation on a chain and a phrase goes on with the chain. -/
theorem Writes.operation {op : Arithmetic} (hop : op.precedence = precedence)
    {left right : List Char} {l r : Calculation}
    (hleft : Writes (Chain.words words : Chain precedence α → List Lexeme)
      (Chain.expression expression) left l)
    (hright : Writes words expression right r) :
    Writes (Chain.words words : Chain precedence α → List Lexeme) (Chain.expression expression)
      (left ++ ' ' :: op.sign :: ' ' :: right) (arithmetic op l r) := by
  obtain ⟨⟨first, others⟩, hscan, hmeans⟩ := hleft
  obtain ⟨last, hscan', hmeans'⟩ := hright
  -- The chain gets one more phrase at its end.
  refine ⟨⟨first, others ++ [(⟨op, hop⟩, last)]⟩, ?_, fun policy => ?_⟩
  · rw [scan_sign hscan hscan']
    simp [Chain.words, Chain.tailWords]
  · have hlast : Chain.expression expression ⟨first, others ++ [(⟨op, hop⟩, last)]⟩ =
        .operation (.binary op) [Chain.expression expression ⟨first, others⟩, expression last] := by
      simp [Chain.expression, Chain.applyTail]
    rw [hlast, ofExpression, hmeans policy, hmeans' policy]
    rfl

/-- A sum in parentheses is an operand, one level further out. -/
theorem Writes.parenthesized {levels : Nat} {text : List Char} {t : Calculation}
    (h : WritesSum levels text t) : WritesOperand (levels + 1) ('(' :: text ++ [')']) t := by
  obtain ⟨tree, hscan, hmeans⟩ := h
  refine ⟨OperandForm.parenthesized tree, ?_, fun policy => ?_⟩
  · have hopening : Lexeme.separator? '(' = some [.opening] := by decide
    have hclosing : Lexeme.separator? ')' = some [.closing] := by decide
    have hinner := Lexeme.scan_separator_cons hopening hscan
    rw [Lexeme.scan_separator_ok hclosing hinner rfl, List.append_nil]
    rfl
  · exact hmeans policy

/-- An operand with a minus sign is one, too, and means the negation. -/
theorem Writes.negative {levels : Nat} {text : List Char} {t : Calculation}
    (h : WritesOperand levels text t) : WritesOperand (levels + 1) ('-' :: text) (negation t) := by
  obtain ⟨tree, hscan, hmeans⟩ := h
  refine ⟨OperandForm.negative tree, ?_, fun policy => ?_⟩
  · have hminus : Lexeme.separator? '-' = some [.minus] := by decide
    exact Lexeme.scan_separator_cons hminus hscan
  · show ofExpression policy (.operation .negate [Operand.expression levels tree]) = _
    rw [ofExpression, hmeans policy]
    rfl

/-- Blanks around an operand change nothing. -/
theorem Writes.padded {text : List Char} {t : Calculation} (h : Writes words expression text t) :
    Writes words expression (' ' :: text ++ [' ']) t := by
  have hblank : ∀ c ∈ [' '], Text.isBlank c := List.all_eq_true.1 (by decide)
  obtain ⟨tree, hscan, hmeans⟩ := h
  refine ⟨tree, ?_, hmeans⟩
  rw [Lexeme.scan_append_blanks hblank]
  exact (Lexeme.scan_blanks_append hblank text).trans hscan

/-- A name is an operand that means the metric. -/
theorem writes_name (levels : Nat) {text : List Char} (h : Text.isIdentifier text) :
    WritesOperand (levels + 1) text (metric (String.ofList text)) :=
  ⟨OperandForm.name (String.ofList text), Lexeme.scan_identifier h, fun _ => rfl⟩

/-- The text of a number without a sign is read back as the number. -/
theorem writes_number (levels : Nat) (x : Magnitude) :
    WritesOperand (levels + 1) (Binary64.finite false x).formulaText
      (constant (.finite false x)) := by
  obtain ⟨d, hread, hvalue⟩ := Binary64.ofDecimal_formulaText x
  obtain ⟨hne, hchars⟩ := Decimal.chars_of_ofPositional? hread
  have hparts : ∀ c ∈ (Binary64.finite false x).formulaText, Lexeme.isNumberPart c := by
    intro c hc
    rw [Lexeme.isNumberPart, Bool.or_eq_true, beq_iff_eq]
    exact hchars c hc
  have hscan := Lexeme.scan_number hne hparts hread
  rw [hvalue] at hscan
  exact ⟨OperandForm.number (.finite false x), hscan, fun _ => rfl⟩

/-- The text of a constant means the normal form of the constant. -/
theorem writes_constant (levels : Nat) (value : Binary64) :
    WritesOperand (levels + 2) value.formulaText (ofConstant value) := by
  have hnan : Text.isIdentifier "NaN".toList := by decide
  have hinf : Text.isIdentifier "inf".toList := by decide
  cases value with
  | nan => exact writes_name _ hnan
  | infinity negative =>
    cases negative with
    | false => exact writes_name _ hinf
    | true => exact (writes_name levels hinf).negative
  | finite negative x =>
    rw [Binary64.formulaText_finite, ofConstant]
    -- A negative number other than zero is written with a minus sign.
    by_cases hsign : negative && !x.isZero
    · rw [if_pos hsign, if_pos hsign]
      exact (writes_number levels x).negative
    · rw [if_neg hsign, if_neg hsign]
      exact writes_number (levels + 1) x

/-- The names of aggregate functions are identifiers. -/
theorem isIdentifier_function (kind : Aggregate) : Text.isIdentifier kind.function.toList := by
  cases kind <;> decide

/-- The words of the call of an aggregate function. -/
theorem scan_call (kind : Aggregate) {id : String} (h : Text.isIdentifier id.toList) :
    Lexeme.scan (kind.call id) = .ok [.name kind.function, .opening, .name id, .closing] := by
  have hopening : Lexeme.separator? '(' = some [.opening] := by decide
  have hclosing : Lexeme.separator? ')' = some [.closing] := by decide
  have hnothing : Lexeme.scan [] = .ok [] := rfl
  have hargument := Lexeme.scan_separator_ok hclosing (Lexeme.scan_identifier h) hnothing
  have hcall := Lexeme.scan_separator_ok hopening
    (Lexeme.scan_identifier (isIdentifier_function kind)) hargument
  rw [String.ofList_toList, String.ofList_toList] at hcall
  rw [Aggregate.call, List.append_assoc, List.cons_append]
  exact hcall

/-- The call of an aggregate function is one operand. -/
theorem writes_aggregate (levels : Nat) (kind : Aggregate) {id : String}
    (h : Text.isIdentifier id.toList) :
    WritesOperand (levels + 2) (kind.call id) (aggregate kind id) := by
  have hkind : Aggregate.ofFunction? kind.function = some kind := by cases kind <;> decide
  -- The argument is a name alone: a sum of one product of one operand.
  refine ⟨OperandForm.call kind.function [⟨⟨OperandForm.name id, []⟩, []⟩], scan_call kind h,
    fun policy => ?_⟩
  show ofAggregate policy kind.function (.name id) = _
  rw [ofAggregate, hkind]

/-! ## The formula of a calculation -/

/-- The formula of a calculation without its braces. -/
def plainFormula (t : Calculation) : List Char :=
  t.formula.filter (!isBrace ·)

/-- Parentheses are no braces. -/
theorem filter_parenthesizeIf (needed : Bool) (text : List Char) :
    (parenthesizeIf needed text).filter (!isBrace ·) =
      parenthesizeIf needed (text.filter (!isBrace ·)) := by
  cases needed with
  | false => rfl
  | true =>
    rw [parenthesizeIf, parenthesizeIf, if_pos rfl, if_pos rfl, List.filter_append,
      List.filter_cons_of_pos (by decide)]
    rfl

/-- Without its braces a metric token is its content between blanks. -/
theorem filter_tokenText {content : List Char} (h : ∀ c ∈ content, !isBrace c) :
    (tokenText content).filter (!isBrace ·) = ' ' :: content ++ [' '] := by
  have hcontent := List.filter_eq_self.2 h
  rw [tokenText, List.filter_append, List.filter_cons_of_neg (by decide),
    List.filter_cons_of_pos (by decide), hcontent]
  rfl

/-- Braces are brackets. -/
theorem isBrace_of_isNoBracket {c : Char} (h : isNoBracket c) : !isBrace c := by
  have hbraces := List.all_eq_true.1 h (openingBrace, closingBrace) (by decide)
  rw [Bool.and_eq_true, bne_iff_ne, bne_iff_ne] at hbraces
  rw [isBrace, beq_eq_false_iff_ne.2 hbraces.1, beq_eq_false_iff_ne.2 hbraces.2]
  rfl

theorem isBrace_of_mem_call (kind : Aggregate) {id : String} (h : Text.isIdentifier id.toList) :
    ∀ c ∈ kind.call id, !isBrace c := by
  have hfunction := isIdentifier_function kind
  intro c hc
  rcases List.mem_append.1 hc with hc | hc
  · rcases List.mem_append.1 hc with hc | hc
    · exact isBrace_of_isNoBracket (isNoBracket_of_isIdentifier hfunction c hc)
    · rcases List.mem_cons.1 hc with rfl | hc
      · decide
      · exact isBrace_of_isNoBracket (isNoBracket_of_isIdentifier h c hc)
  · rw [List.mem_singleton.1 hc]
    decide

/-- There are no brackets in the text of a number. -/
theorem isNoBracket_of_mem_formulaText (value : Binary64) :
    ∀ c ∈ value.formulaText, isNoBracket c := by
  cases value with
  | nan => exact List.all_eq_true.1 (by decide)
  | infinity negative => cases negative <;> exact List.all_eq_true.1 (by decide)
  | finite negative x =>
    intro c hc
    rw [Binary64.formulaText_finite] at hc
    rcases List.mem_append.1 hc with hc | hc
    · split at hc
      · rw [List.mem_singleton.1 hc]
        decide
      · cases hc
    · obtain ⟨d, hread, -⟩ := Binary64.ofDecimal_formulaText x
      have hpart : Lexeme.isNumberPart c := by
        rw [Lexeme.isNumberPart, Bool.or_eq_true, beq_iff_eq]
        exact (Decimal.chars_of_ofPositional? hread).2 c hc
      exact Text.RangeTable.forall_of_codes (P := fun c => isNoBracket c) (by decide)
        (Text.contains_numberParts hpart)

/-- Leaving out the braces of an operation is leaving out those of its operands. -/
theorem plainFormula_arithmetic (op : Arithmetic) (left right : Calculation) :
    (arithmetic op left right).plainFormula =
      if op = .multiply ∧ left.isMinusOne then
        '-' :: parenthesizeIf right.precedence?.isSome right.plainFormula
      else
        parenthesizeIf (left.precedence?.any (· < op.precedence)) left.plainFormula ++
          ' ' :: op.sign :: ' ' ::
          parenthesizeIf (right.precedence?.any (· ≤ op.precedence)) right.plainFormula := by
  have hsign : !isBrace op.sign := by cases op <;> decide
  rw [plainFormula, formula]
  split
  next =>
    rw [List.filter_cons_of_pos (by decide), filter_parenthesizeIf]
    rfl
  next =>
    rw [List.filter_append, List.filter_cons_of_pos (by decide),
      List.filter_cons_of_pos (p := (!isBrace ·)) hsign, List.filter_cons_of_pos (by decide),
      filter_parenthesizeIf, filter_parenthesizeIf]
    rfl

/-- What is written for a calculation in each position: a sum may stand everywhere a calculation is
written without parentheses, a product where no sum may, and an operand where nothing but an operand
may. -/
structure IsWritten (levels : Nat) (t : Calculation) : Prop where
  /-- As a sum. -/
  sum : WritesSum levels t.plainFormula t.normalized
  /-- As a product, unless it is a sum. -/
  product : t.precedence? ≠ some 1 → WritesProduct levels t.plainFormula t.normalized
  /-- As an operand, unless it is an operation. -/
  operand : t.precedence? = none → WritesOperand levels t.plainFormula t.normalized

/-- An operand may stand everywhere. -/
theorem IsWritten.of_operand {levels : Nat} {t : Calculation}
    (h : WritesOperand levels t.plainFormula t.normalized) : IsWritten levels t :=
  ⟨h.product.sum, fun _ => h.product, fun _ => h⟩

/-- There are two precedences. -/
theorem precedence?_cases (t : Calculation) :
    t.precedence? = none ∨ t.precedence? = some 1 ∨ t.precedence? = some 2 := by
  cases t with
  | arithmetic op left right => cases op <;> simp [precedence?, Arithmetic.precedence]
  | _ => exact .inl rfl

section Parentheses

variable {levels : Nat} {t : Calculation} {needed : Nat → Bool}

/-- Without parentheses around any operation there are sums. -/
theorem IsWritten.sum_of_needed (h : IsWritten levels t) (hneeded : ∀ n, needed n ↔ n < 1) :
    WritesSum levels (parenthesizeIf (t.precedence?.any needed) t.plainFormula) t.normalized := by
  have hnot : t.precedence?.any needed = false := by
    rw [Bool.eq_false_iff]
    rcases t.precedence?_cases with ht | ht | ht <;> simp [ht, hneeded]
  rw [hnot]
  exact h.sum

/-- Parentheses around sums make products. -/
theorem IsWritten.product_of_needed (h : IsWritten levels t) (h' : IsWritten (levels + 1) t)
    (hneeded : ∀ n, needed n ↔ n < 2) :
    WritesProduct (levels + 1) (parenthesizeIf (t.precedence?.any needed) t.plainFormula)
      t.normalized := by
  rcases t.precedence?_cases with ht | ht | ht
  · rw [ht]
    exact h'.product (by simp [ht])
  · have hsum : t.precedence?.any needed := by simp [ht, hneeded]
    rw [hsum]
    exact WritesOperand.product h.sum.parenthesized
  · have hnot : t.precedence?.any needed = false := by
      rw [Bool.eq_false_iff]
      simp [ht, hneeded]
    rw [hnot]
    exact h'.product (by simp [ht])

/-- Parentheses around all operations make operands. -/
theorem IsWritten.operand_of_needed (h : IsWritten levels t) (h' : IsWritten (levels + 1) t)
    (hneeded : ∀ n, needed n ↔ n < 3) :
    WritesOperand (levels + 1) (parenthesizeIf (t.precedence?.any needed) t.plainFormula)
      t.normalized := by
  rcases hprecedence : t.precedence? with _ | precedence
  · exact h'.operand hprecedence
  · have hsome : t.precedence?.any needed := by
      rcases t.precedence?_cases with ht | ht | ht
      · rw [ht] at hprecedence
        cases hprecedence
      · simp [ht, hneeded]
      · simp [ht, hneeded]
    rw [← hprecedence, hsome]
    exact h.sum.parenthesized

end Parentheses

/-- A product with minus one is written as a negation. -/
theorem IsWritten.of_minusOne {levels : Nat} {left right : Calculation} (hminus : left.isMinusOne)
    (h : IsWritten levels right) (h' : IsWritten (levels + 1) right) :
    IsWritten (levels + 2) (arithmetic .multiply left right) := by
  obtain ⟨value, rfl⟩ : ∃ value, left = constant value := by
    cases left with
    | constant value => exact ⟨value, rfl⟩
    | _ => cases hminus
  -- No precedence is three, so the operand gets parentheses if it is any operation.
  have hneeded : right.precedence?.isSome = right.precedence?.any (· < 3) := by
    rcases right.precedence?_cases with hr | hr | hr <;> simp [hr]
  have hoperand : WritesOperand (levels + 1)
      (parenthesizeIf right.precedence?.isSome right.plainFormula) right.normalized := by
    rw [hneeded]
    exact h.operand_of_needed h' fun _ => decide_eq_true_iff
  have hplain := plainFormula_arithmetic .multiply (constant value) right
  have hnormalized : (arithmetic .multiply (constant value) right).normalized =
      negation right.normalized := by
    rw [normalized, if_pos ⟨rfl, hminus⟩, Binary64.eq_of_isMinusOne hminus]
    rfl
  refine .of_operand ?_
  rw [hplain, if_pos ⟨rfl, hminus⟩, hnormalized]
  exact hoperand.negative

/-- Any other operation is written with its sign between its operands. -/
theorem IsWritten.operation {levels : Nat} {op : Arithmetic} {left right : Calculation}
    (hnot : ¬(op = .multiply ∧ left.isMinusOne)) (hleft : IsWritten levels left)
    (hleft' : IsWritten (levels + 1) left) (hright : IsWritten levels right)
    (hright' : IsWritten (levels + 1) right) :
    IsWritten (levels + 1) (arithmetic op left right) := by
  have hplain := plainFormula_arithmetic op left right
  rw [if_neg hnot] at hplain
  have hnormalized : (arithmetic op left right).normalized =
      arithmetic op left.normalized right.normalized := by
    rw [normalized, if_neg hnot]
  have hprecedence : (arithmetic op left right).precedence? = some op.precedence := rfl
  -- Sums and products differ in what may stand on either side without parentheses.
  obtain hop | hop : op.precedence = 1 ∨ op.precedence = 2 := by
    cases op <;> simp [Arithmetic.precedence]
  · have hsum : WritesSum (levels + 1) (arithmetic op left right).plainFormula
        (arithmetic op left right).normalized := by
      rw [hplain, hnormalized, hop]
      exact Writes.operation hop (hleft'.sum_of_needed fun _ => decide_eq_true_iff)
        (hright.product_of_needed hright' fun _ => decide_eq_true_iff.trans Nat.lt_succ_iff.symm)
    exact ⟨hsum, fun h => absurd (hprecedence.trans (congrArg some hop)) h,
      fun h => by rw [hprecedence] at h; cases h⟩
  · have hproduct : WritesProduct (levels + 1) (arithmetic op left right).plainFormula
        (arithmetic op left right).normalized := by
      rw [hplain, hnormalized, hop]
      exact Writes.operation hop (hleft.product_of_needed hleft' fun _ => decide_eq_true_iff)
        (hright.operand_of_needed hright' fun _ => decide_eq_true_iff.trans Nat.lt_succ_iff.symm)
    exact ⟨hproduct.sum, fun _ => hproduct, fun h => by rw [hprecedence] at h; cases h⟩

/-- The formula of a calculation is written in enough levels of nesting. -/
theorem exists_isWritten (t : Calculation) (hplaceholder : t.hasPlaceholder = false)
    (hids : ∀ id ∈ t.metricIds, Text.isIdentifier id.toList) :
    ∃ bound, ∀ levels, bound ≤ levels → IsWritten levels t := by
  induction t with
  | placeholder => cases hplaceholder
  | constant value =>
    refine ⟨2, fun levels hlevels => ?_⟩
    obtain ⟨levels, rfl⟩ : ∃ n, levels = n + 2 := ⟨levels - 2, by omega⟩
    have hvalue := writes_constant levels value
    rw [← List.filter_eq_self.2 fun c hc =>
      isBrace_of_isNoBracket (isNoBracket_of_mem_formulaText value c hc)] at hvalue
    exact .of_operand hvalue
  | metric id =>
    refine ⟨1, fun levels hlevels => ?_⟩
    obtain ⟨levels, rfl⟩ : ∃ n, levels = n + 1 := ⟨levels - 1, by omega⟩
    have hid := hids id List.mem_cons_self
    have hplain : ∀ c ∈ id.toList, !isBrace c := fun c hc =>
      isBrace_of_isNoBracket (isNoBracket_of_isIdentifier hid c hc)
    have hname := (writes_name levels hid).padded
    rw [String.ofList_toList, ← filter_tokenText hplain] at hname
    exact .of_operand hname
  | aggregate kind id =>
    refine ⟨2, fun levels hlevels => ?_⟩
    obtain ⟨levels, rfl⟩ : ∃ n, levels = n + 2 := ⟨levels - 2, by omega⟩
    have hid := hids id List.mem_cons_self
    have hcall := (writes_aggregate levels kind hid).padded
    rw [← filter_tokenText (isBrace_of_mem_call kind hid)] at hcall
    exact .of_operand hcall
  | arithmetic op left right ihleft ihright =>
    obtain ⟨hleftPlaceholder, hrightPlaceholder⟩ := Bool.or_eq_false_iff.1 hplaceholder
    obtain ⟨leftBound, hleft⟩ :=
      ihleft hleftPlaceholder fun id hid => hids id (List.mem_append_left _ hid)
    obtain ⟨rightBound, hright⟩ :=
      ihright hrightPlaceholder fun id hid => hids id (List.mem_append_right _ hid)
    -- Parentheses around an operand take one more level, and a minus sign before them another one.
    refine ⟨max leftBound rightBound + 2, fun levels hlevels => ?_⟩
    obtain ⟨levels, rfl⟩ : ∃ n, levels = n + 2 := ⟨levels - 2, by omega⟩
    by_cases hnegation : op = .multiply ∧ left.isMinusOne
    · obtain ⟨rfl, hminus⟩ := hnegation
      exact .of_minusOne hminus (hright levels (by omega)) (hright (levels + 1) (by omega))
    · exact .operation hnegation (hleft (levels + 1) (by omega)) (hleft (levels + 2) (by omega))
        (hright (levels + 1) (by omega)) (hright (levels + 2) (by omega))

/-! ## Parsing the formula -/

/-- The formula of a calculation has words and an expression, and parses to that expression exactly
within the limits. -/
theorem exists_parse_formula (t : Calculation) (hplaceholder : t.hasPlaceholder = false)
    (hids : ∀ id ∈ t.metricIds, Text.isIdentifier id.toList) :
    ∃ words expression, Lexeme.scan (Formula.withoutBraces t.formula) = .ok words ∧
      (∀ policy, ofExpression policy expression = .ok t.normalized) ∧
      (Lexeme.IsWithinLimits words → Formula.parse t.formula = .ok expression) ∧
      (¬Lexeme.IsWithinLimits words →
        ∃ error, Formula.parse t.formula = .error (.syntactic error)) := by
  obtain ⟨levels, hwritten⟩ := exists_isWritten t hplaceholder hids
  obtain ⟨tree, hscan, hmeans⟩ := (hwritten levels (Nat.le_refl levels)).sum
  rw [plainFormula, ← Lexeme.scan_withoutBraces] at hscan
  -- A derivation has a first word.
  have hne : Sum.words (Operand.words levels) tree ≠ [] := by
    obtain ⟨lexeme, rest, hstart, -⟩ := (Operand.startsOpen levels).chain.chain tree
    rw [Sum.words, hstart]
    exact List.cons_ne_nil _ _
  obtain ⟨hwithin, hbeyond⟩ := Expression.ofLexemes_of_derivation tree
  refine ⟨_, _, hscan, hmeans, fun hlimits => ?_, fun hlimits => ?_⟩
  · rw [Formula.parse_eq_of_scan hscan hne, hwithin hlimits]
    rfl
  · obtain ⟨error, herror⟩ := hbeyond hlimits
    rw [Formula.parse_eq_of_scan hscan hne, herror]
    exact ⟨error, rfl⟩

/-- Printing, parsing and building: the formula of a calculation has words, and within the limits on
them it is read back as the normal form of the calculation, whatever is done with unknown functions.
Beyond the limits it is no arithmetic. A calculation in normal form comes back as it was. -/
theorem parse_formula_eq_normalized (t : Calculation) (hplaceholder : t.hasPlaceholder = false)
    (hids : ∀ id ∈ t.metricIds, Text.isIdentifier id.toList) :
    ∃ words, Lexeme.scan (Formula.withoutBraces t.formula) = .ok words ∧
      (Lexeme.IsWithinLimits words → ∃ expression, Formula.parse t.formula = .ok expression ∧
        ∀ policy, ofExpression policy expression = .ok t.normalized) ∧
      (¬Lexeme.IsWithinLimits words →
        ∃ error, Formula.parse t.formula = .error (.syntactic error)) ∧
      (t.isNormal → t.normalized = t) := by
  obtain ⟨words, expression, hscan, hmeans, hwithin, hbeyond⟩ :=
    exists_parse_formula t hplaceholder hids
  exact ⟨words, hscan, fun hlimits => ⟨expression, hwithin hlimits, hmeans⟩, hbeyond,
    normalized_eq_self_iff.2⟩

/-- A difference of a metric and a negated aggregate is within the limits and in normal form, so it
comes back. -/
theorem parse_formula_of_difference :
    let t := arithmetic .subtract (metric "a") (negation (aggregate .sum "b"))
    t.hasPlaceholder = false ∧ (∀ id ∈ t.metricIds, Text.isIdentifier id.toList) ∧
      ∃ expression, Formula.parse t.formula = .ok expression ∧
        ∀ policy, ofExpression policy expression = .ok t := by
  intro t
  have hplaceholder : t.hasPlaceholder = false := rfl
  have hids : ∀ id ∈ t.metricIds, Text.isIdentifier id.toList := by decide
  obtain ⟨words, hscan, hwithin, -, hnormal⟩ := parse_formula_eq_normalized t hplaceholder hids
  have hwords : (Lexeme.scan (Formula.withoutBraces t.formula)).toOption =
      some [.name "a", .minus, .minus, .name "Sum", .opening, .name "b", .closing] := by
    decide +kernel
  rw [hscan] at hwords
  obtain rfl := Option.some.inj hwords
  obtain ⟨expression, hparse, hbuild⟩ := hwithin (by decide)
  rw [hnormal (by decide +kernel)] at hbuild
  exact ⟨hplaceholder, hids, expression, hparse, hbuild⟩

end Calculation

end MetricFormula
