import MetricFormula.Proofs.Calculation.Meaning
import MetricFormula.Proofs.Expression.Nesting

/-!
# Grouping operands

Operands with operations between them are grouped without parentheses: multiplication and division
before addition and subtraction, and from the left among themselves. In the grammar this is built
into the trees, which are sums of products. So there is exactly one sum of products for every
sequence of operands and operations, and its calculation applies the operations from left to right,
first in each product and then to the products.

## Main definitions

* `Grammar.Sum.flatten`: the operands and operations of a sum of products, in their order;
* `Grammar.group`: the sum of products of operands and operations;
* `Grammar.Sum.calculation`: the operations of a sum of products applied from the left.

## Main results

* `Grammar.group_eq_iff`: the only sum of products with given operands and operations;
* `Grammar.Sum.words_eq`: its words are those of the operands and operations in their order;
* `Grammar.Sum.means`: its expression means its calculation.
-/

namespace MetricFormula

namespace Grammar

variable {α : Type} {precedence : Nat}

/-! ## Sums of products -/

/-- The phrases of a chain but the first one, each with the operation in front of it. -/
def Chain.tail (others : List (Sign precedence × α)) : List (Arithmetic × α) :=
  others.map fun other => (other.1.1, other.2)

/-- The operands of a sum of products in their order: the first one, and the other ones, each with
the operation in front of it. -/
def Sum.flatten (sum : Sum α) : α × List (Arithmetic × α) :=
  (sum.first.first, Chain.tail sum.first.others ++
    sum.others.flatMap fun other => (other.1.1, other.2.first) :: Chain.tail other.2.others)

/-- An operation is one of sums if it is none of products. -/
theorem precedence_eq_one {op : Arithmetic} (h : op.precedence ≠ 2) : op.precedence = 1 := by
  cases op <;> simp [Arithmetic.precedence] at h ⊢

/-- The sum of products of a first operand and others, each with the operation in front of it. An
operation of products goes on with the first product, any other one ends it. -/
def group (first : α) : List (Arithmetic × α) → Sum α
  | [] => ⟨⟨first, []⟩, []⟩
  | (op, next) :: rest =>
    let sum := group next rest
    if h : op.precedence = 2 then
      ⟨⟨first, (⟨op, h⟩, sum.first.first) :: sum.first.others⟩, sum.others⟩
    else ⟨⟨first, []⟩, (⟨op, precedence_eq_one h⟩, sum.first) :: sum.others⟩

theorem flatten_group (first : α) (others : List (Arithmetic × α)) :
    (group first others).flatten = (first, others) := by
  induction others generalizing first with
  | nil => rfl
  | cons other rest ih =>
    obtain ⟨op, next⟩ := other
    obtain ⟨hnext, hrest⟩ := Prod.mk.inj (ih next)
    -- Either way the operation stands in front of the first operand of the others.
    have hothers : (op, (group next rest).first.first) :: (group next rest).flatten.2 =
        (op, next) :: rest := by
      rw [Sum.flatten, hnext, hrest]
    rw [group]
    split
    · exact Prod.ext rfl hothers
    · exact Prod.ext rfl hothers

/-- A product in front of a sum that goes on with an operation of sums. -/
theorem group_tail_append {rest : List (Arithmetic × α)} {sums : List (Sign 1 × Chain 2 α)}
    (hrest : ∀ first, group first rest = ⟨⟨first, []⟩, sums⟩) (first : α)
    (others : List (Sign 2 × α)) :
    group first (Chain.tail others ++ rest) = ⟨⟨first, others⟩, sums⟩ := by
  induction others generalizing first with
  | nil => exact hrest first
  | cons other others ih =>
    obtain ⟨⟨op, hop⟩, next⟩ := other
    have hcons : Chain.tail ((⟨op, hop⟩, next) :: others) ++ rest =
        (op, next) :: (Chain.tail others ++ rest) := rfl
    rw [hcons, group, ih next, dif_pos hop]

theorem group_flatten (sum : Sum α) : group sum.flatten.1 sum.flatten.2 = sum := by
  obtain ⟨⟨first, others⟩, sums⟩ := sum
  induction sums generalizing first others with
  | nil => exact group_tail_append (fun first => rfl) first others
  | cons other sums ih =>
    obtain ⟨⟨op, hop⟩, ⟨next, nexts⟩⟩ := other
    refine group_tail_append (fun first => ?_) first others
    -- The next product is grouped with the sums behind it, and its operation is none of products.
    have hne : op.precedence ≠ 2 := by rw [hop]; decide
    have hnext : group next (Chain.tail nexts ++ sums.flatMap fun other =>
        (other.1.1, other.2.first) :: Chain.tail other.2.others) = ⟨⟨next, nexts⟩, sums⟩ :=
      ih next nexts
    rw [List.flatMap_cons, List.cons_append, group, hnext, dif_neg hne]

/-- There is one sum of products with given operands and operations. -/
theorem group_eq_iff {first : α} {others : List (Arithmetic × α)} {sum : Sum α} :
    group first others = sum ↔ sum.flatten = (first, others) := by
  constructor
  · rintro rfl
    exact flatten_group first others
  · intro hflatten
    have hgroup := group_flatten sum
    rwa [hflatten] at hgroup

/-- The words of a sum of products are those of its operands and operations in their order. -/
theorem Sum.words_eq (words : α → List Lexeme) (sum : Sum α) :
    Sum.words words sum = words sum.flatten.1 ++
      sum.flatten.2.flatMap fun other => other.1.lexeme :: words other.2 := by
  have htail : ∀ {precedence : Nat} (others : List (Sign precedence × α)),
      Chain.tailWords words others =
        (Chain.tail others).flatMap fun other => other.1.lexeme :: words other.2 := by
    intro precedence others
    rw [Chain.tail, List.flatMap_map]
    rfl
  have hproduct : ∀ other : Sign 1 × Chain 2 α,
      other.1.1.lexeme :: Chain.words words other.2 =
        ((other.1.1, other.2.first) :: Chain.tail other.2.others).flatMap
          fun other => other.1.lexeme :: words other.2 := by
    intro other
    rw [List.flatMap_cons, ← htail]
    rfl
  rw [Sum.words, Chain.words, Chain.tailWords, Chain.words, htail, Sum.flatten, List.flatMap_append,
    List.flatMap_assoc, List.append_assoc]
  exact congrArg _ (congrArg _ (congrArg sum.others.flatMap (funext hproduct)))

/-! ## Applying the operations -/

/-- The operations of a chain applied from left to right. -/
def Chain.calculation (calculation : α → Calculation) (chain : Chain precedence α) : Calculation :=
  chain.others.foldl (fun left other => .arithmetic other.1.1 left (calculation other.2))
    (calculation chain.first)

/-- The operations of a sum of products applied from left to right, first in the products and then
to them. -/
def Sum.calculation (calculation : α → Calculation) (sum : Sum α) : Calculation :=
  Chain.calculation (Chain.calculation calculation) sum

variable {expression : α → Expression} {calculation : α → Calculation}

/-- The expression of a chain means its calculation if those of its phrases mean theirs. -/
theorem Chain.means (h : ∀ phrase, (expression phrase).Means (calculation phrase))
    (chain : Chain precedence α) :
    (Chain.expression expression chain).Means (Chain.calculation calculation chain) := by
  obtain ⟨first, others⟩ := chain
  have happly : ∀ {left : Expression} {l : Calculation}, left.Means l →
      (Chain.applyTail expression left others).Means (others.foldl
        (fun left other => .arithmetic other.1.1 left (calculation other.2)) l) := by
    induction others with
    | nil => exact fun hleft => hleft
    | cons other others ih => exact fun hleft => ih (.binary other.1.1 hleft (h other.2))
  exact happly (h first)

theorem Sum.means (h : ∀ operand, (expression operand).Means (calculation operand))
    (sum : Sum α) : (Sum.expression expression sum).Means (Sum.calculation calculation sum) :=
  Chain.means (Chain.means h) sum

/-- The metrics of a chain are those of its phrases. -/
theorem Chain.metricIds_calculation (chain : Chain precedence α) :
    (Chain.calculation calculation chain).metricIds = (calculation chain.first).metricIds ++
      chain.others.flatMap fun other => (calculation other.2).metricIds := by
  obtain ⟨first, others⟩ := chain
  have hfold : ∀ t : Calculation, (others.foldl
      (fun left other => .arithmetic other.1.1 left (calculation other.2)) t).metricIds =
        t.metricIds ++ others.flatMap fun other => (calculation other.2).metricIds := by
    induction others with
    | nil => simp
    | cons other others ih => simp [ih, Calculation.metricIds]
  exact hfold (calculation first)

end Grammar

end MetricFormula
