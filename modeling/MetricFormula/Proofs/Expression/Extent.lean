import MetricFormula.Proofs.Calculation.Building
import MetricFormula.Proofs.Expression.Spelling

/-!
# How large expressions get

Every node of an expression takes at least one word to write, so the number of words bounds the
number of nodes, whatever shape the expression has. How deeply it nests is bounded apart from that:
each level of parentheses, calls and minus signs uses up one of the levels that the grammar allows.
Building adds one node for each minus sign and none for any other node, so a calculation has less
than twice as many nodes as its expression.

## Main definitions

* `Expression.inside`: the parts of a node;
* `Expression.walkBelow`: a walk that remembers the ancestors of each node;
* `Expression.IsShallow`: no node has too many ancestors that nest;
* `Calculation.size`: the number of nodes of a calculation.

## Main results

* `Expression.map_fst_walkBelow`: walks with and without ancestors visit the same nodes;
* `Spells.length_walk_le`: an expression has no more nodes than words;
* `Grammar.Operand.isShallow`: an operand is as shallow as its levels allow;
* `Calculation.size_lt_of_ofExpression`: the nodes of what is built;
* `Expression.extent_of_parse`: all bounds for a text that parses.
-/

namespace MetricFormula

namespace Expression

/-! ## Walks -/

/-- The parts of the node at the top. -/
def inside : Expression → List Expression
  | number _ | name _ => []
  | call _ arguments => arguments
  | operation _ operands => operands
  | parenthesized inner => [inner]

/-- A node and then everything in its parts. -/
theorem walk_eq (e : Expression) : e.walk = e :: e.inside.flatMap walk := by
  cases e with
  | number value => rfl
  | name id => rfl
  | call function arguments => rw [walk, walkAll_eq_flatMap, inside]
  | operation operator operands => rw [walk, walkAll_eq_flatMap, inside]
  | parenthesized inner => rw [walk, inside, List.flatMap_singleton]

theorem length_walk (e : Expression) :
    e.walk.length = (e.inside.flatMap walk).length + 1 := by
  rw [walk_eq, List.length_cons]

theorem mem_walk_iff {node e : Expression} :
    node ∈ e.walk ↔ node = e ∨ node ∈ e.inside.flatMap walk := by
  rw [walk_eq, List.mem_cons]

theorem flatMap_walk_pair (left right : Expression) :
    [left, right].flatMap walk = left.walk ++ right.walk := by
  rw [List.flatMap_cons, List.flatMap_singleton]

mutual

/-- The nodes in the order of `walk`, each with its ancestors, the nearest one first, where
`ancestors` are those of the whole expression. -/
def walkBelow (ancestors : List Expression) : Expression → List (Expression × List Expression)
  | .number value => [(.number value, ancestors)]
  | .name id => [(.name id, ancestors)]
  | .call function arguments =>
    (.call function arguments, ancestors) ::
      walkAllBelow (.call function arguments :: ancestors) arguments
  | .operation operator operands =>
    (.operation operator operands, ancestors) ::
      walkAllBelow (.operation operator operands :: ancestors) operands
  | .parenthesized inner =>
    (.parenthesized inner, ancestors) :: walkBelow (.parenthesized inner :: ancestors) inner

/-- What `walkBelow` visits in a list of expressions with the same ancestors. -/
def walkAllBelow (ancestors : List Expression) :
    List Expression → List (Expression × List Expression)
  | [] => []
  | e :: es => walkBelow ancestors e ++ walkAllBelow ancestors es

end

theorem walkAllBelow_eq_flatMap (ancestors es : List Expression) :
    walkAllBelow ancestors es = es.flatMap (walkBelow ancestors) := by
  induction es with
  | nil => rfl
  | cons e es ih => rw [walkAllBelow, ih, List.flatMap_cons]

theorem walkBelow_eq (ancestors : List Expression) (e : Expression) :
    e.walkBelow ancestors = (e, ancestors) :: e.inside.flatMap (walkBelow (e :: ancestors)) := by
  cases e with
  | number value => rfl
  | name id => rfl
  | call function arguments => rw [walkBelow, walkAllBelow_eq_flatMap, inside]
  | operation operator operands => rw [walkBelow, walkAllBelow_eq_flatMap, inside]
  | parenthesized inner => rw [walkBelow, inside, List.flatMap_singleton]

mutual

/-- The nodes are visited in the order of `walk`. -/
theorem map_fst_walkBelow (ancestors : List Expression) :
    ∀ e : Expression, (e.walkBelow ancestors).map Prod.fst = e.walk
  | .number _ => rfl
  | .name _ => rfl
  | .call _ arguments => congrArg _ (map_fst_walkAllBelow _ arguments)
  | .operation _ operands => congrArg _ (map_fst_walkAllBelow _ operands)
  | .parenthesized inner => congrArg _ (map_fst_walkBelow _ inner)

theorem map_fst_walkAllBelow (ancestors : List Expression) :
    ∀ es : List Expression, (walkAllBelow ancestors es).map Prod.fst = walkAll es
  | [] => rfl
  | e :: es => by
    rw [walkAllBelow, walkAll, List.map_append, map_fst_walkBelow ancestors e,
      map_fst_walkAllBelow ancestors es]

end

/-! ## Nesting of nodes -/

/-- A node that uses up a level of nesting: a call, a minus sign or parentheses. -/
def nests : Expression → Bool
  | call _ _ | operation .negate _ | parenthesized _ => true
  | _ => false

/-- Every node has fewer than `levels` ancestors in the expression that nest. -/
def IsShallow (levels : Nat) (e : Expression) : Prop :=
  ∀ ancestors, ∀ visit ∈ e.walkBelow ancestors,
    visit.2.countP nests < ancestors.countP nests + levels

variable {levels : Nat} {e : Expression}

/-- The node at the top leaves at least one level. -/
theorem IsShallow.pos (h : e.IsShallow levels) : 0 < levels := by
  have hself : (e, []) ∈ e.walkBelow [] := by
    rw [walkBelow_eq]
    exact List.mem_cons_self
  have hlt := h [] _ hself
  rw [List.countP_nil, Nat.zero_add] at hlt
  exact hlt

/-- Around shallow parts a node that nests takes one more level. -/
theorem IsShallow.of_inside {allowed : Nat} (hpos : 0 < allowed)
    (hinside : ∀ part ∈ e.inside, part.IsShallow levels)
    (hallowed : levels + (if e.nests then 1 else 0) ≤ allowed) : e.IsShallow allowed := by
  intro ancestors visit hvisit
  rw [walkBelow_eq, List.mem_cons, List.mem_flatMap] at hvisit
  rcases hvisit with rfl | ⟨part, hpart, hvisit⟩
  · exact Nat.lt_add_of_pos_right hpos
  · have hlt := hinside part hpart (e :: ancestors) visit hvisit
    rw [List.countP_cons] at hlt
    omega

theorem IsShallow.mono {allowed : Nat} (h : e.IsShallow levels) (hle : levels ≤ allowed) :
    e.IsShallow allowed :=
  fun ancestors visit hvisit =>
    Nat.lt_of_lt_of_le (h ancestors visit hvisit) (Nat.add_le_add_left hle _)

end Expression

/-! ## Nesting of derivations -/

namespace Grammar

open Expression (IsShallow)

variable {α : Type} {precedence levels : Nat} {expression : α → Expression}

/-- Signs between phrases do not nest. -/
theorem Chain.isShallow (h : ∀ tree, (expression tree).IsShallow levels)
    (chain : Chain precedence α) : (Chain.expression expression chain).IsShallow levels := by
  have htail : ∀ (others : List (Sign precedence × α)) (left : Expression),
      left.IsShallow levels → (Chain.applyTail expression left others).IsShallow levels := by
    intro others
    induction others with
    | nil => exact fun left hleft => hleft
    | cons other others ih =>
      intro left hleft
      -- The operator between them takes no level, so neither does any chain of them.
      refine ih _ (.of_inside hleft.pos ?_ (Nat.le_refl levels))
      exact List.forall_mem_cons.2 ⟨hleft, List.forall_mem_singleton.2 (h other.2)⟩
  exact htail chain.others _ (h chain.first)

/-- No node of an operand has as many ancestors that nest as there are levels. -/
theorem Operand.isShallow (levels : Nat) (operand : Operand levels) :
    (Operand.expression levels operand).IsShallow levels := by
  induction levels with
  | zero => exact nomatch (operand : Empty)
  | succ levels ih =>
    -- What stands inside has one level less, which the node around it may use up.
    have hsum : ∀ sum : Sum (Operand levels),
        (Sum.expression (Operand.expression levels) sum).IsShallow levels :=
      Chain.isShallow (Chain.isShallow ih)
    have hpos : 0 < levels + 1 := Nat.succ_pos levels
    cases (operand : OperandForm (Operand levels)) with
    | positive inner => exact (ih inner).mono (Nat.le_succ levels)
    | negative inner =>
      exact .of_inside hpos (List.forall_mem_singleton.2 (ih inner)) (Nat.le_refl _)
    | number value => exact .of_inside hpos (List.forall_mem_nil _) (Nat.le_succ levels)
    | name id => exact .of_inside hpos (List.forall_mem_nil _) (Nat.le_succ levels)
    | call function arguments =>
      refine .of_inside hpos (fun part hpart => ?_) (Nat.le_refl _)
      obtain ⟨argument, -, rfl⟩ := List.mem_map.1 hpart
      exact hsum argument
    | parenthesized inner =>
      exact .of_inside hpos (List.forall_mem_singleton.2 (hsum inner)) (Nat.le_refl _)

end Grammar

/-! ## Words and nodes -/

namespace Spells

variable {words : List Lexeme} {es : List Expression}

/-- Every node takes at least one word. -/
theorem length_walk_le (h : Spells words es) :
    (es.flatMap Expression.walk).length ≤ words.length := by
  induction h with
  | number value => exact Nat.le_refl 1
  | name id => exact Nat.le_refl 1
  | nothing => exact Nat.le_refl 0
  | positive _ ih =>
    -- A plus sign in front is a word without a node.
    exact Nat.le_succ_of_le ih
  | negative _ ih =>
    rw [List.flatMap_singleton, Expression.length_walk, Expression.inside]
    exact Nat.succ_le_succ ih
  | binary op _ _ ihleft ihright =>
    rw [List.flatMap_singleton] at ihleft ihright
    rw [List.flatMap_singleton, Expression.length_walk, Expression.inside,
      Expression.flatMap_walk_pair, List.length_append, List.length_append, List.length_cons]
    omega
  | parenthesized _ ih =>
    rw [List.flatMap_singleton, Expression.length_walk, Expression.inside, List.length_cons,
      List.length_append]
    omega
  | call function _ ih =>
    rw [List.flatMap_singleton, Expression.length_walk, Expression.inside, List.length_cons,
      List.length_cons, List.length_append]
    omega
  | comma _ _ _ ihfirst ihothers =>
    rw [List.flatMap_singleton] at ihfirst
    rw [List.flatMap_cons, List.length_append, List.length_append, List.length_cons]
    omega

/-- Every operator has as many operands as it takes. -/
theorem length_operands (h : Spells words es) {operator : Operator} {operands : List Expression}
    (hmem : .operation operator operands ∈ es.flatMap Expression.walk) :
    operands.length = operator.arity := by
  induction h with
  | number value => cases List.mem_singleton.1 hmem
  | name id => cases List.mem_singleton.1 hmem
  | nothing => cases hmem
  | positive _ ih => exact ih hmem
  | negative _ ih =>
    rw [List.flatMap_singleton, Expression.mem_walk_iff] at hmem
    rcases hmem with heq | hmem
    · cases heq
      rfl
    · exact ih hmem
  | binary op _ _ ihleft ihright =>
    rw [List.flatMap_singleton] at ihleft ihright
    rw [List.flatMap_singleton, Expression.mem_walk_iff] at hmem
    rcases hmem with heq | hmem
    · cases heq
      rfl
    · rw [Expression.inside, Expression.flatMap_walk_pair, List.mem_append] at hmem
      exact hmem.elim ihleft ihright
  | parenthesized _ ih =>
    rw [List.flatMap_singleton, Expression.mem_walk_iff] at hmem
    exact ih (hmem.resolve_left nofun)
  | call function _ ih =>
    rw [List.flatMap_singleton, Expression.mem_walk_iff] at hmem
    exact ih (hmem.resolve_left nofun)
  | comma _ _ _ ihfirst ihothers =>
    rw [List.flatMap_singleton] at ihfirst
    rw [List.flatMap_cons, List.mem_append] at hmem
    exact hmem.elim ihfirst ihothers

end Spells

/-! ## Nodes of calculations -/

namespace Calculation

/-- The number of nodes. -/
def size : Calculation → Nat
  | constant _ | metric _ | aggregate _ _ | placeholder => 1
  | arithmetic _ left right => left.size + right.size + 1

variable {policy : UnknownFunctions} {e : Expression} {t : Calculation}

/-- Both operands of an operation and the operation itself. -/
theorem size_arithmetic_lt {op : Arithmetic} {left right : Expression} {l r : Calculation}
    (hleft : l.size < 2 * left.walk.length) (hright : r.size < 2 * right.walk.length)
    (hinside : e.inside = [left, right]) : (arithmetic op l r).size < 2 * e.walk.length := by
  rw [size, Expression.length_walk, hinside, Expression.flatMap_walk_pair, List.length_append]
  omega

/-- A minus sign takes two nodes, a product and its minus one, and every other node one at most. -/
theorem size_lt_of_ofExpression (h : ofExpression policy e = .ok t) :
    t.size < 2 * e.walk.length := by
  replace h := isBuilt_of_ofExpression h
  induction h with
  | number value => exact Nat.one_lt_two
  | name id => exact Nat.one_lt_two
  | parenthesized _ ih =>
    rw [Expression.length_walk, Expression.inside, List.flatMap_singleton]
    omega
  | aggregate hkind id =>
    show 1 < 2 * 2
    decide
  | call hop _ _ ihleft ihright => exact size_arithmetic_lt ihleft ihright rfl
  | binary op _ _ ihleft ihright => exact size_arithmetic_lt ihleft ihright rfl
  | negate _ ih =>
    rw [negation, size, size, Expression.length_walk, Expression.inside, List.flatMap_singleton]
    omega
  | placeholder _ _ =>
    rw [size, Expression.length_walk]
    omega

end Calculation

/-! ## Bounds -/

/-- An expression that a text makes has no more nodes than the text has words, which are limited.
None of its nodes has more ancestors that nest than there are levels of nesting, and every operator
has as many operands as it takes. What is built of it, under either policy, has less than twice as
many nodes as there may be words. -/
theorem Expression.extent_of_parse {text : List Char} {e : Expression} (h : parse text = .ok e) :
    (∃ words, Lexeme.scan text = .ok words ∧ e.walk.length ≤ words.length ∧
      words.length ≤ lexemeLimit) ∧
    (∀ visit ∈ e.walkBelow [], visit.2.countP nests ≤ nestingLimit) ∧
    (∀ operator operands, .operation operator operands ∈ e.walk →
      operands.length = operator.arity) ∧
    ∀ policy t, Calculation.ofExpression policy e = .ok t → t.size < 2 * lexemeLimit := by
  obtain ⟨words, hscan, hread⟩ := bind_eq_ok h
  obtain ⟨-, hlimit, tree, rfl, rfl⟩ := ofLexemes_eq_ok_iff.1 hread
  -- The words are those of one sum, whose operands have all levels.
  have hspells := tree.spells
  have hwalk := hspells.length_walk_le
  rw [List.flatMap_singleton] at hwalk
  refine ⟨⟨_, hscan, hwalk, hlimit⟩, fun visit hvisit => ?_, fun operator operands hmem => ?_,
    fun policy t hbuild => ?_⟩
  · have hshallow := Grammar.Chain.isShallow (Grammar.Chain.isShallow
      (Grammar.Operand.isShallow (nestingLimit + 1))) tree
    have hlt := hshallow [] visit hvisit
    rw [List.countP_nil, Nat.zero_add] at hlt
    exact Nat.le_of_lt_succ hlt
  · refine hspells.length_operands ?_
    rw [List.flatMap_singleton]
    exact hmem
  · have hsize := Calculation.size_lt_of_ofExpression hbuild
    omega

/-- Twelve words make eight nodes here, one of them three levels deep. -/
theorem Expression.extent_of_parse_of_product :
    let text := "-(a + AVG(b)) * +2".toList
    let sum : Expression := .operation (.binary .add) [.name "a", .call "AVG" [.name "b"]]
    let e : Expression := .operation (.binary .multiply)
      [.operation .negate [.parenthesized sum], .number (.ofInt 2)]
    parse text = .ok e ∧ (Lexeme.scan text).map List.length = .ok 12 ∧
      (e.walkBelow []).map (fun visit => visit.2.countP nests) = [0, 0, 1, 2, 2, 2, 3, 0] ∧
      (∃ words, Lexeme.scan text = .ok words ∧ e.walk.length ≤ words.length ∧
        words.length ≤ lexemeLimit) ∧
      (∀ visit ∈ e.walkBelow [], visit.2.countP nests ≤ nestingLimit) ∧
      (∀ operator operands, .operation operator operands ∈ e.walk →
        operands.length = operator.arity) ∧
      ∀ policy t, Calculation.ofExpression policy e = .ok t → t.size < 2 * lexemeLimit := by
  intro text sum e
  have hparse : parse text = .ok e := rfl
  exact ⟨hparse, rfl, rfl, extent_of_parse hparse⟩

end MetricFormula
