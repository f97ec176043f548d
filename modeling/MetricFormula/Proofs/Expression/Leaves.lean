import MetricFormula.Proofs.Expression.Parsing
import MetricFormula.Proofs.Expression.Words

/-!
# Numbers and names of an expression

The numbers and names that stand alone in an expression are words of its text. Scanning makes
numbers without a sign and names that are identifiers, so parsing does, too.

## Main definitions

* `Expression.leaves`: the numbers and names in an expression, as words;
* `Lexeme.IsScanned`: words as scanning makes them.

## Main results

* `Grammar.Expr.leaves_subset`: the leaves of an expression are words of its derivation;
* `Lexeme.isScanned_of_scan`, `Expression.isScanned_of_parse`, `Formula.isScanned_of_parse`: what
  scanning and parsing make.
-/

namespace MetricFormula

namespace Expression

/-! ## Leaves -/

/-- The word of a number or of a name that stands alone. -/
def leaf? : Expression → Option Lexeme
  | number value => some (.number value)
  | name id => some (.name id)
  | _ => none

/-- The numbers and names in an expression, from left to right, without the names of called
functions. -/
def leaves (e : Expression) : List Lexeme :=
  e.walk.filterMap leaf?

/-- The nodes of several expressions are those of each, one expression after the other. -/
theorem walkAll_eq_flatMap (es : List Expression) : walkAll es = es.flatMap walk := by
  induction es with
  | nil => rfl
  | cons e es ih => rw [walkAll, ih, List.flatMap_cons]

section Walk

variable {β : Type} (f : Expression → Option β)

/-- What is found among the nodes of a call is found in its arguments, unless it is the call. -/
theorem filterMap_walk_call (function : String) (arguments : List Expression)
    (h : f (call function arguments) = none) :
    (call function arguments).walk.filterMap f =
      arguments.flatMap fun argument => argument.walk.filterMap f := by
  rw [walk, walkAll_eq_flatMap, List.filterMap_cons_none h, List.filterMap_flatMap]

/-- What is found among the nodes of an operation is found in its operands, unless it is the
operation. -/
theorem filterMap_walk_operation (operator : Operator) (operands : List Expression)
    (h : f (operation operator operands) = none) :
    (operation operator operands).walk.filterMap f =
      operands.flatMap fun operand => operand.walk.filterMap f := by
  rw [walk, walkAll_eq_flatMap, List.filterMap_cons_none h, List.filterMap_flatMap]

/-- What is found among the nodes of parentheses is found inside, unless it is the parentheses. -/
theorem filterMap_walk_parenthesized (inner : Expression) (h : f (parenthesized inner) = none) :
    (parenthesized inner).walk.filterMap f = inner.walk.filterMap f := by
  rw [walk, List.filterMap_cons_none h]

end Walk

/-- A number that stands alone is its only leaf. -/
@[simp]
theorem leaves_number (value : Binary64) : (number value).leaves = [.number value] :=
  rfl

/-- A name that stands alone is its only leaf. -/
@[simp]
theorem leaves_name (id : String) : (name id).leaves = [.name id] :=
  rfl

/-- The name of a called function is no leaf, so those of a call are those of its arguments. -/
@[simp]
theorem leaves_call (function : String) (arguments : List Expression) :
    (call function arguments).leaves = arguments.flatMap leaves :=
  filterMap_walk_call leaf? function arguments rfl

/-- The leaves of an operation are those of its operands, in their order. -/
@[simp]
theorem leaves_operation (operator : Operator) (operands : List Expression) :
    (operation operator operands).leaves = operands.flatMap leaves :=
  filterMap_walk_operation leaf? operator operands rfl

/-- Parentheses do not change the leaves. -/
@[simp]
theorem leaves_parenthesized (inner : Expression) :
    (parenthesized inner).leaves = inner.leaves :=
  filterMap_walk_parenthesized leaf? inner rfl

/-- No name stands in a number. -/
@[simp]
theorem names_number (value : Binary64) : (number value).names = [] :=
  rfl

/-- A name that stands alone is the only one. -/
@[simp]
theorem names_name (id : String) : (name id).names = [id] :=
  rfl

/-- The name of a called function does not count among the names of a call. -/
@[simp]
theorem names_call (function : String) (arguments : List Expression) :
    (call function arguments).names = arguments.flatMap names :=
  filterMap_walk_call name? function arguments rfl

/-- The names of an operation are those of its operands, in their order. -/
@[simp]
theorem names_operation (operator : Operator) (operands : List Expression) :
    (operation operator operands).names = operands.flatMap names :=
  filterMap_walk_operation name? operator operands rfl

/-- Parentheses do not change the names. -/
@[simp]
theorem names_parenthesized (inner : Expression) : (parenthesized inner).names = inner.names :=
  filterMap_walk_parenthesized name? inner rfl

/-- The names of an expression are the nodes that are names. -/
theorem name_mem_walk_iff {e : Expression} {id : String} : .name id ∈ e.walk ↔ id ∈ e.names := by
  rw [names, List.mem_filterMap]
  constructor
  · intro hmem
    exact ⟨.name id, hmem, rfl⟩
  · rintro ⟨inner, hmem, hname⟩
    cases inner with
    | name id' =>
      cases hname
      exact hmem
    | _ => cases hname

/-- The names that stand alone are the leaves that are names. -/
theorem mem_names_iff {e : Expression} {id : String} : id ∈ e.names ↔ .name id ∈ e.leaves := by
  rw [names, leaves, List.mem_filterMap, List.mem_filterMap]
  refine exists_congr fun inner => and_congr_right fun _ => ?_
  cases inner <;> simp [name?, leaf?]

end Expression

namespace Grammar

variable {α : Type} {precedence : Nat}

/-- The leaves of what a tree means are words of the tree. -/
def ShowsLeaves (words : α → List Lexeme) (expression : α → Expression) : Prop :=
  ∀ tree, (expression tree).leaves ⊆ words tree

/-- If the leaves of the first operand are among some words, those of a whole chain are among these
words and the words of the other operands. -/
theorem ShowsLeaves.tail {words : α → List Lexeme} {expression : α → Expression}
    (h : ShowsLeaves words expression) (others : List (Sign precedence × α)) {left : Expression}
    {leftWords : List Lexeme} (hleft : left.leaves ⊆ leftWords) :
    (Chain.applyTail expression left others).leaves ⊆
      leftWords ++ Chain.tailWords words others := by
  induction others generalizing left leftWords with
  | nil => exact fun leaf hleaf => List.mem_append_left _ (hleft hleaf)
  | cons other others ih =>
    -- The operation on the next operand is what stands to the left of all others.
    have hnext : (Expression.operation (.binary other.1.1) [left, expression other.2]).leaves ⊆
        leftWords ++ other.1.1.lexeme :: words other.2 := by
      rw [Expression.leaves_operation, List.flatMap_cons, List.flatMap_cons, List.flatMap_nil,
        List.append_nil]
      exact List.append_subset.2 ⟨List.subset_append_of_subset_left _ hleft,
        List.subset_append_of_subset_right _ (List.subset_cons_of_subset _ (h other.2))⟩
    have htail := ih hnext
    rw [List.append_assoc] at htail
    exact htail

/-- What shows its leaves shows them in a chain, too. -/
theorem ShowsLeaves.chain {words : α → List Lexeme} {expression : α → Expression}
    (h : ShowsLeaves words expression) :
    ShowsLeaves (Chain.words words : Chain precedence α → List Lexeme)
      (Chain.expression expression) :=
  fun chain => h.tail chain.others (h chain.first)

/-- The leaves of all arguments are among the words of a call, which has commas between them. -/
theorem ShowsLeaves.arguments {words : α → List Lexeme} {expression : α → Expression}
    (h : ShowsLeaves words expression) (arguments : List α) :
    (arguments.map expression).flatMap Expression.leaves ⊆ argumentWords words arguments := by
  -- Behind the first argument the others follow, each after a comma.
  have hothers : ∀ others : List α, (others.map expression).flatMap Expression.leaves ⊆
      others.flatMap fun other => .comma :: words other := by
    intro others
    induction others with
    | nil => exact List.nil_subset _
    | cons other others ih =>
      rw [List.map_cons, List.flatMap_cons, List.flatMap_cons]
      exact List.append_subset.2 ⟨List.subset_append_of_subset_left _
        (List.subset_cons_of_subset _ (h other)), List.subset_append_of_subset_right _ ih⟩
  cases arguments with
  | nil => exact List.nil_subset _
  | cons first others =>
    rw [List.map_cons, List.flatMap_cons, argumentWords]
    exact List.append_subset.2 ⟨List.subset_append_of_subset_left _ (h first),
      List.subset_append_of_subset_right _ (List.subset_append_of_subset_left _ (hothers others))⟩

/-- The leaves of an operand are words of it, however deep it nests. -/
theorem Operand.leaves_subset (levels : Nat) :
    ShowsLeaves (Operand.words levels) (Operand.expression levels) := by
  induction levels with
  | zero => exact fun operand => nomatch (operand : Empty)
  | succ levels ih =>
    -- Arguments and what stands in parentheses are sums of products of operands one level deeper.
    have hsum : ShowsLeaves (Sum.words (Operand.words levels))
        (Sum.expression (Operand.expression levels)) := ih.chain.chain
    intro operand
    cases (operand : OperandForm (Operand levels)) with
    | positive inner => exact List.subset_cons_of_subset _ (ih inner)
    | negative inner =>
      show (Expression.operation .negate [Operand.expression levels inner]).leaves ⊆ _
      rw [Expression.leaves_operation, List.flatMap_cons, List.flatMap_nil, List.append_nil]
      exact List.subset_cons_of_subset _ (ih inner)
    | number value =>
      show (Expression.number value).leaves ⊆ [.number value]
      rw [Expression.leaves_number]
      exact List.Subset.refl _
    | name id =>
      show (Expression.name id).leaves ⊆ [.name id]
      rw [Expression.leaves_name]
      exact List.Subset.refl _
    | call function arguments =>
      show (Expression.call function (arguments.map _)).leaves ⊆
        .name function :: .opening :: argumentWords _ arguments
      rw [Expression.leaves_call]
      exact List.subset_cons_of_subset _ (List.subset_cons_of_subset _ (hsum.arguments arguments))
    | parenthesized inner =>
      show (Expression.parenthesized (Sum.expression _ inner)).leaves ⊆
        .opening :: (Sum.words _ inner ++ [.closing])
      rw [Expression.leaves_parenthesized]
      exact List.subset_cons_of_subset _ (List.subset_append_of_subset_left _ (hsum inner))

/-- The leaves of the expression of a derivation are words of the derivation. -/
theorem Expr.leaves_subset (tree : Expr 0) : tree.expression.leaves ⊆ tree.words :=
  (Operand.leaves_subset _).chain.chain tree

end Grammar

/-! ## Scanned words -/

namespace Lexeme

/-- A number is read without a sign, and a name is an identifier. -/
def IsScanned : Lexeme → Prop
  | number value => ∃ d, value = Binary64.ofDecimal false d
  | name id => Text.isIdentifier id.toList
  | _ => True

/-- What is read of a name is an identifier already. -/
def Pending.IsScanned : Pending → Prop
  | name reversed => Text.isIdentifier reversed.reverse
  | _ => True

/-- A pending word is completed to a number without a sign or to an identifier. -/
theorem isScanned_of_finish {pending : Pending} (hpending : pending.IsScanned)
    {words : List Lexeme} (h : pending.finish = .ok words) : ∀ word ∈ words, word.IsScanned := by
  cases pending with
  | nothing =>
    cases h
    exact List.forall_mem_nil _
  | number reversed =>
    rw [Pending.finish] at h
    rcases hread : Decimal.ofPositional? reversed.reverse with _ | d
    · rw [hread] at h
      cases h
    · rw [hread] at h
      rw [← Except.ok.inj h]
      exact List.forall_mem_singleton.2 ⟨d, rfl⟩
  | name reversed =>
    rw [← Except.ok.inj h]
    refine List.forall_mem_singleton.2 ?_
    rw [IsScanned, String.toList_ofList]
    exact hpending

/-- A name stays an identifier with every character that it goes on with. -/
theorem isScanned_of_extend? {pending extended : Pending} {c : Char}
    (hpending : pending.IsScanned) (h : pending.extend? c = some extended) :
    extended.IsScanned := by
  cases pending with
  | nothing => cases h
  | number reversed =>
    rw [Pending.extend?] at h
    split at h
    next =>
      cases h
      trivial
    next => cases h
  | name reversed =>
    rw [Pending.extend?] at h
    split at h
    next hc =>
      cases h
      show Text.isIdentifier (c :: reversed).reverse
      have hname : Text.isIdentifier reversed.reverse := hpending
      -- The character is added at the end, so the name still begins as it did.
      rw [List.reverse_cons]
      rcases hreversed : reversed.reverse with _ | ⟨first, rest⟩
      · rw [hreversed] at hname
        cases hname
      · rw [hreversed, Text.isIdentifier, Bool.and_eq_true] at hname
        rw [List.cons_append, Text.isIdentifier, List.all_append, hname.1, hname.2, List.all_cons,
          hc]
        rfl
    next => cases h

/-- The word that a character is by itself is scanned, and so is the one that it leaves pending. -/
theorem isScanned_of_start {c : Char} {words : List Lexeme} {next : Pending}
    (h : start c = .ok (words, next)) : (∀ word ∈ words, word.IsScanned) ∧ next.IsScanned := by
  -- The tests are made in order: blank, sign, part of a number, beginning of a name.
  unfold start at h
  split at h
  next =>
    cases h
    exact ⟨List.forall_mem_nil _, trivial⟩
  next =>
    split at h
    next lexeme hchar =>
      cases h
      refine ⟨List.forall_mem_singleton.2 ?_, trivial⟩
      unfold ofChar? at hchar
      split at hchar <;> cases hchar <;> trivial
    next =>
      split at h
      next =>
        cases h
        exact ⟨List.forall_mem_nil _, trivial⟩
      next =>
        split at h
        next hstart =>
          cases h
          refine ⟨List.forall_mem_nil _, ?_⟩
          show Text.isIdentifier [c]
          rw [Text.isIdentifier, hstart]
          rfl
        next => cases h

/-- From a pending word that is scanned, only scanned words are made. -/
theorem isScanned_of_scanFrom {pending : Pending} (hpending : pending.IsScanned)
    {text : List Char} {words : List Lexeme} (h : scanFrom pending text = .ok words) :
    ∀ word ∈ words, word.IsScanned := by
  induction text generalizing pending words with
  | nil => exact isScanned_of_finish hpending h
  | cons c text ih =>
    rw [scanFrom] at h
    split at h
    next extended hextend => exact ih (isScanned_of_extend? hpending hextend) h
    next =>
      obtain ⟨finished, hfinish, h⟩ := bind_eq_ok h
      obtain ⟨⟨single, next⟩, hstart, h⟩ := bind_eq_ok h
      obtain ⟨rest, hrest, h⟩ := bind_eq_ok h
      cases h
      obtain ⟨hsingle, hnext⟩ := isScanned_of_start hstart
      -- A word is the one that was pending, that of the character, or one of the rest.
      intro word hword
      rcases List.mem_append.1 hword with hword | hword
      · rcases List.mem_append.1 hword with hword | hword
        · exact isScanned_of_finish hpending hfinish word hword
        · exact hsingle word hword
      · exact ih hnext hrest word hword

/-- The words of a text are scanned, since nothing is pending at its start. -/
theorem isScanned_of_scan {text : List Char} {words : List Lexeme} (h : scan text = .ok words) :
    ∀ word ∈ words, word.IsScanned := by
  have hpending : Pending.nothing.IsScanned := trivial
  exact isScanned_of_scanFrom hpending h

end Lexeme

/-- The numbers of an expression that a text makes have no sign, and its names are identifiers. -/
theorem Expression.isScanned_of_parse {text : List Char} {expression : Expression}
    (h : parse text = .ok expression) : ∀ leaf ∈ expression.leaves, leaf.IsScanned := by
  obtain ⟨words, hscan, hread⟩ := bind_eq_ok h
  obtain ⟨-, -, tree, hwords, rfl⟩ := ofLexemes_eq_ok_iff.1 hread
  intro leaf hleaf
  exact Lexeme.isScanned_of_scan hscan leaf (hwords ▸ tree.leaves_subset hleaf)

/-- So it is for a formula that parses. -/
theorem Formula.isScanned_of_parse {formula : List Char} {expression : Expression}
    (h : parse formula = .ok expression) : ∀ leaf ∈ expression.leaves, leaf.IsScanned := by
  obtain ⟨words, hscan, hread⟩ := exists_scan_of_parse h
  have hplain : Expression.parse (withoutBraces formula) = .ok expression := by
    rw [Expression.parse, hscan]
    exact hread
  exact Expression.isScanned_of_parse hplain

end MetricFormula
