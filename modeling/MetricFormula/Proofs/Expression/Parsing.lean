import MetricFormula.Proofs.Expression.Grammar
import MetricFormula.Proofs.Outcome

/-!
# The parser reads the grammar

Every reader of the parser reads the trees of one nonterminal: it accepts the words of each tree,
stops behind them, and returns what the tree means, and it accepts nothing else. One lemma for each
combinator carries this over from the phrases to the chains, calls and operands that are made of
them, and an induction on the levels of nesting closes the circle.

## Main definitions

* `Grammar.Reads`: a reader reads the trees of a nonterminal.

## Main results

* `Grammar.reads_chain`, `Grammar.reads_arguments`, `Grammar.reads_operand`: the readers of the
  parser;
* `Expression.parse_eq_ok_iff_derivation`: the texts that parse are those of the grammar, within
  the limits, and each has one derivation tree.
-/

namespace MetricFormula

namespace Grammar

open Expression (Reader)

variable {α β : Type}

/-- A reader reads the trees of a nonterminal: the words of a tree that are followed by what may
follow, and only such words. -/
structure Reads (reader : Reader β) (words : α → List Lexeme) (meaning : α → β)
    (follows : Lexeme → Prop) : Prop where
  /-- Every tree is read, and nothing behind it. -/
  complete : ∀ tree rest, Ends follows rest →
    reader (words tree ++ rest) = .ok (meaning tree, rest)
  /-- Whatever is read is a tree. -/
  sound : ∀ {lexemes value rest}, reader lexemes = .ok (value, rest) →
    ∃ tree, lexemes = words tree ++ rest ∧ value = meaning tree

/-! ## Chains -/

/-- An operator test that accepts the signs of one precedence. -/
def IsSignTest (operator? : Lexeme → Option Arithmetic) (precedence : Nat) : Prop :=
  ∀ lexeme op, operator? lexeme = some op ↔ op.precedence = precedence ∧ lexeme = op.lexeme

theorem isSignTest_additive : IsSignTest Expression.additive? 1 := by
  intro lexeme op
  cases lexeme <;> cases op <;>
    simp [Expression.additive?, Arithmetic.precedence, Arithmetic.lexeme]

theorem isSignTest_multiplicative : IsSignTest Expression.multiplicative? 2 := by
  intro lexeme op
  cases lexeme <;> cases op <;>
    simp [Expression.multiplicative?, Arithmetic.precedence, Arithmetic.lexeme]

variable {operand : Reader Expression} {words : α → List Lexeme} {meaning : α → Expression}
  {follows : Lexeme → Prop} {operator? : Lexeme → Option Arithmetic} {precedence : Nat}

/-- What follows a chain is no operator of it. -/
theorem operator?_eq_none (htest : IsSignTest operator? precedence) {lexeme : Lexeme}
    (hfollows : ChainFollows precedence follows lexeme) : operator? lexeme = none := by
  rcases h : operator? lexeme with _ | op
  · rfl
  · obtain ⟨hprecedence, hlexeme⟩ := (htest lexeme op).1 h
    exact absurd hlexeme (hfollows.2 op hprecedence)

/-- The other phrases of a chain are applied to the first one, and reading stops behind them. -/
theorem chainFrom_complete (hreads : Reads operand words meaning follows)
    (htest : IsSignTest operator? precedence)
    (hsigns : ∀ op : Arithmetic, op.precedence = precedence → follows op.lexeme)
    (others : List (Sign precedence × α)) {rounds : Nat} (hrounds : others.length ≤ rounds)
    (left : Expression) {rest : List Lexeme} (hends : Ends (ChainFollows precedence follows) rest) :
    Expression.chainFrom operand operator? rounds left (Chain.tailWords words others ++ rest) =
      .ok (Chain.applyTail meaning left others, rest) := by
  induction others generalizing rounds left with
  | nil =>
    cases rounds with
    | zero => rfl
    | succ rounds =>
      cases rest with
      | nil => rfl
      | cons lexeme rest =>
        -- Reading stops at a word that is no operator of the chain.
        have hnone := operator?_eq_none htest (ends_cons.1 hends)
        simp only [Chain.tailWords, List.flatMap_nil, List.nil_append, Expression.chainFrom, hnone]
        rfl
  | cons other others ih =>
    obtain ⟨⟨op, hop⟩, tree⟩ := other
    cases rounds with
    | zero => simp at hrounds
    | succ rounds =>
      have hsome : operator? op.lexeme = some op := (htest _ _).2 ⟨hop, rfl⟩
      have hphrase := hreads.complete tree (Chain.tailWords words others ++ rest)
        (ends_tailWords words hsigns others hends)
      -- The next phrase joins what was read so far on its left.
      have hothers := ih (by simpa using hrounds)
        (.operation (.binary op) [left, meaning tree])
      simp only [Chain.tailWords, List.flatMap_cons, List.cons_append, List.append_assoc,
        Expression.chainFrom, hsome] at hphrase hothers ⊢
      rw [hphrase]
      exact hothers

/-- Whatever is read after the first phrase of a chain is its other phrases. -/
theorem chainFrom_sound (hreads : Reads operand words meaning follows)
    (htest : IsSignTest operator? precedence) {rounds : Nat} {left value : Expression}
    {lexemes rest : List Lexeme}
    (h : Expression.chainFrom operand operator? rounds left lexemes = .ok (value, rest)) :
    ∃ others : List (Sign precedence × α), lexemes = Chain.tailWords words others ++ rest ∧
      value = Chain.applyTail meaning left others := by
  induction rounds generalizing left lexemes with
  | zero =>
    cases h
    exact ⟨[], rfl, rfl⟩
  | succ rounds ih =>
    cases lexemes with
    | nil =>
      cases h
      exact ⟨[], rfl, rfl⟩
    | cons lexeme lexemes =>
      rw [Expression.chainFrom] at h
      split at h
      next =>
        cases h
        exact ⟨[], rfl, rfl⟩
      next op hop =>
        -- A sign was read, then a phrase, then the rest of the chain.
        obtain ⟨⟨right, middle⟩, hright, hothers⟩ := bind_eq_ok h
        obtain ⟨tree, rfl, rfl⟩ := hreads.sound hright
        obtain ⟨others, rfl, rfl⟩ := ih hothers
        obtain ⟨hprecedence, rfl⟩ := (htest lexeme op).1 hop
        exact ⟨(⟨op, hprecedence⟩, tree) :: others, by simp [Chain.tailWords], rfl⟩

/-- Lists that each put a word in front are no fewer than their words. -/
theorem length_le_length_flatMap {γ : Type} (word : γ → Lexeme) (tail : γ → List Lexeme)
    (items : List γ) :
    items.length ≤ (items.flatMap fun item => word item :: tail item).length := by
  induction items with
  | nil => exact Nat.zero_le _
  | cons item items ih =>
    simp only [List.flatMap_cons, List.length_append, List.length_cons]
    omega

/-- The readers of chains read chains. -/
theorem reads_chain (hreads : Reads operand words meaning follows)
    (htest : IsSignTest operator? precedence)
    (hsigns : ∀ op : Arithmetic, op.precedence = precedence → follows op.lexeme) :
    Reads (Expression.chain operand operator?)
      (Chain.words words : Chain precedence α → List Lexeme) (Chain.expression meaning)
      (ChainFollows precedence follows) where
  complete := by
    rintro ⟨first, others⟩ rest hends
    have hfirst := hreads.complete first (Chain.tailWords words others ++ rest)
      (ends_tailWords words hsigns others hends)
    -- There is a round for every other phrase, since each has a sign of its own.
    have hrounds : others.length ≤ (Chain.tailWords words others ++ rest).length := by
      rw [List.length_append]
      exact Nat.le_add_right_of_le (length_le_length_flatMap _ _ others)
    rw [Chain.words, List.append_assoc, Expression.chain, hfirst]
    exact chainFrom_complete hreads htest hsigns others hrounds _ hends
  sound := by
    intro lexemes value rest h
    obtain ⟨⟨left, middle⟩, hleft, hothers⟩ := bind_eq_ok h
    obtain ⟨first, rfl, rfl⟩ := hreads.sound hleft
    obtain ⟨others, rfl, rfl⟩ := chainFrom_sound hreads htest hothers
    exact ⟨⟨first, others⟩, by simp [Chain.words], rfl⟩

/-- The reader of sums reads sums. -/
theorem reads_sum (hreads : Reads operand words meaning OperandFollows) :
    Reads (Expression.sum operand) (Sum.words words) (Sum.expression meaning) SumFollows :=
  reads_chain (reads_chain hreads isSignTest_multiplicative fun op _ => operandFollows_sign op)
    isSignTest_additive fun _ hop => productFollows_sign hop

/-! ## Calls -/

/-- Arguments are read up to the closing parenthesis. -/
theorem argumentsFrom_complete (hreads : Reads operand words meaning follows)
    (hcomma : follows .comma) (hclosing : follows .closing) (first : α) (others : List α)
    {rounds : Nat} (hrounds : others.length < rounds) (rest : List Lexeme) :
    Expression.argumentsFrom operand rounds
        (words first ++ (others.flatMap (fun other => .comma :: words other) ++
          .closing :: rest)) =
      .ok ((first :: others).map meaning, rest) := by
  induction others generalizing first rounds with
  | nil =>
    obtain ⟨rounds, rfl⟩ : ∃ r, rounds = r + 1 := ⟨rounds - 1, by omega⟩
    rw [Expression.argumentsFrom,
      hreads.complete first _ (ends_argumentTail hcomma hclosing words [] rest)]
    rfl
  | cons other others ih =>
    obtain ⟨rounds, rfl⟩ : ∃ r, rounds = r + 1 := ⟨rounds - 1, by omega⟩
    have hothers := ih other (by simpa using hrounds)
    rw [Expression.argumentsFrom,
      hreads.complete first _ (ends_argumentTail hcomma hclosing words (other :: others) rest)]
    simp only [List.flatMap_cons, List.cons_append, List.append_assoc, bind, Except.bind, hothers,
      List.map_cons]

/-- Whatever is read up to the closing parenthesis is arguments. -/
theorem argumentsFrom_sound (hreads : Reads operand words meaning follows) {rounds : Nat}
    {lexemes rest : List Lexeme} {values : List Expression}
    (h : Expression.argumentsFrom operand rounds lexemes = .ok (values, rest)) :
    ∃ first others, lexemes = words first ++
        (others.flatMap (fun other => .comma :: words other) ++ .closing :: rest) ∧
      values = (first :: others).map meaning := by
  induction rounds generalizing lexemes values with
  | zero => cases h
  | succ rounds ih =>
    obtain ⟨⟨value, middle⟩, hfirst, hothers⟩ := bind_eq_ok h
    obtain ⟨first, rfl, rfl⟩ := hreads.sound hfirst
    dsimp only at hothers
    -- An argument is followed by the closing parenthesis or by a comma and further arguments.
    split at hothers
    next =>
      cases hothers
      exact ⟨first, [], rfl, rfl⟩
    next =>
      obtain ⟨⟨values, middle⟩, hrest, hresult⟩ := bind_eq_ok hothers
      cases hresult
      obtain ⟨second, others, rfl, rfl⟩ := ih hrest
      exact ⟨first, second :: others, by simp, rfl⟩
    next => cases hothers
    next => cases hothers

/-- The reader of arguments reads arguments, whatever follows. -/
theorem reads_arguments (hreads : Reads operand words meaning follows) (hstart : StartsOpen words)
    (hcomma : follows .comma) (hclosing : follows .closing) :
    Reads (Expression.arguments operand) (argumentWords words) (List.map meaning)
      fun _ => True where
  complete := by
    intro arguments rest _
    cases arguments with
    | nil => rfl
    | cons first others =>
      obtain ⟨lexeme, tail, hfirst, hne⟩ := hstart first
      simp only [argumentWords, List.append_assoc, List.singleton_append]
      -- The first argument does not begin with the closing parenthesis, so the call is not empty.
      rw [Expression.arguments.eq_2]
      · refine argumentsFrom_complete hreads hcomma hclosing first others ?_ rest
        have hle := length_le_length_flatMap (fun _ : α => Lexeme.comma) words others
        simp only [List.length_append]
        omega
      · intro rest' heq
        rw [hfirst] at heq
        exact hne (List.cons.inj heq).1
  sound := by
    intro lexemes values rest h
    unfold Expression.arguments at h
    split at h
    next =>
      cases h
      exact ⟨[], rfl, rfl⟩
    next =>
      obtain ⟨first, others, rfl, rfl⟩ := argumentsFrom_sound hreads h
      exact ⟨first :: others, by simp [argumentWords], rfl⟩

/-! ## Operands -/

section Operand

variable {count levels : Nat}
  (hreads : Reads (Expression.operand count levels) (Operand.words levels)
    (Operand.expression levels) OperandFollows)
include hreads

/-- Every production is read, and nothing behind it. -/
theorem operand_complete (operand : OperandForm (Operand levels)) {rest : List Lexeme}
    (hends : Ends OperandFollows rest) :
    Expression.operand count (levels + 1)
        (OperandForm.words (Operand.words levels) operand ++ rest) =
      .ok (OperandForm.expression (Operand.expression levels) operand, rest) := by
  have hsum := reads_sum hreads
  have harguments := reads_arguments hsum (Operand.startsOpen levels).chain.chain
    sumFollows_comma sumFollows_closing
  cases operand with
  | positive inner => exact hreads.complete inner rest hends
  | negative inner =>
    have hinner := hreads.complete inner rest hends
    simp only [OperandForm.words, List.cons_append, Expression.operand, hinner, bind, Except.bind]
    rfl
  | number value => rfl
  | name id =>
    -- A name with an opening parenthesis behind it would be a call.
    cases rest with
    | nil => rfl
    | cons lexeme rest =>
      have hne : OperandFollows lexeme := ends_cons.1 hends
      cases lexeme <;> first | rfl | exact absurd rfl hne
  | call function arguments =>
    have hinner := harguments.complete arguments rest fun _ _ => trivial
    simp only [OperandForm.words, List.cons_append, Expression.operand, hinner, bind, Except.bind]
    rfl
  | parenthesized inner =>
    have hinner := hsum.complete inner (.closing :: rest) (ends_cons.2 sumFollows_closing)
    simp only [OperandForm.words, List.cons_append, List.append_assoc, List.nil_append,
      Expression.operand, hinner, bind, Except.bind]
    rfl

/-- Whatever is read is a production. -/
theorem operand_sound {lexemes rest : List Lexeme} {value : Expression}
    (h : Expression.operand count (levels + 1) lexemes = .ok (value, rest)) :
    ∃ operand, lexemes = OperandForm.words (Operand.words levels) operand ++ rest ∧
      value = OperandForm.expression (Operand.expression levels) operand := by
  have hsum := reads_sum hreads
  have harguments := reads_arguments hsum (Operand.startsOpen levels).chain.chain
    sumFollows_comma sumFollows_closing
  -- The cases are the branches of the reader, told apart by the first word.
  unfold Expression.operand at h
  split at h
  next => cases h
  next rest' =>
    obtain ⟨inner, rfl, rfl⟩ := hreads.sound h
    exact ⟨.positive inner, rfl, rfl⟩
  next rest' =>
    obtain ⟨⟨inner, middle⟩, hinner, hresult⟩ := bind_eq_ok h
    obtain ⟨inner, rfl, rfl⟩ := hreads.sound hinner
    cases hresult
    exact ⟨.negative inner, rfl, rfl⟩
  next value' rest' =>
    cases h
    exact ⟨.number value', rfl, rfl⟩
  next function rest' =>
    obtain ⟨⟨values, middle⟩, hvalues, hresult⟩ := bind_eq_ok h
    obtain ⟨arguments, rfl, rfl⟩ := harguments.sound hvalues
    cases hresult
    exact ⟨.call function arguments, rfl, rfl⟩
  next id rest' _ =>
    cases h
    exact ⟨.name id, rfl, rfl⟩
  next rest' =>
    obtain ⟨⟨inner, middle⟩, hinner, hresult⟩ := bind_eq_ok h
    obtain ⟨inner, rfl, rfl⟩ := hsum.sound hinner
    dsimp only at hresult
    unfold Expression.close at hresult
    split at hresult
    next =>
      cases hresult
      exact ⟨.parenthesized inner, by simp [OperandForm.words], rfl⟩
    next => cases hresult
    next => cases hresult
  next => cases h

end Operand

/-- The reader of operands reads operands: one step for each level of nesting. -/
theorem reads_operand (count levels : Nat) :
    Reads (Expression.operand count levels) (Operand.words levels) (Operand.expression levels)
      OperandFollows := by
  induction levels with
  | zero =>
    exact ⟨fun operand => (nomatch (operand : Empty)), fun h => by cases h⟩
  | succ levels ih =>
    exact ⟨fun operand rest hends => operand_complete ih operand hends, fun h => operand_sound ih h⟩

end Grammar

namespace Expression

/-- A list of words makes an expression if it is within the limits and the grammar derives it. -/
theorem ofLexemes_eq_ok_iff {lexemes : List Lexeme} {expression : Expression} :
    ofLexemes lexemes = .ok expression ↔
      1 ≤ lexemes.length ∧ lexemes.length ≤ lexemeLimit ∧
        ∃ tree : Grammar.Expr 0, tree.words = lexemes ∧ tree.expression = expression := by
  have hreads := Grammar.reads_sum (Grammar.reads_operand lexemes.length (nestingLimit + 1))
  unfold ofLexemes
  by_cases hempty : lexemes.length = 0
  · simp [hempty, bind, Except.bind, throw, throwThe, MonadExceptOf.throw]
  by_cases hlong : lexemeLimit < lexemes.length
  · have hnot : ¬lexemes.length ≤ lexemeLimit := by omega
    simp [hempty, hlong, hnot, bind, Except.bind, throw, throwThe, MonadExceptOf.throw]
  simp only [hempty, hlong, ↓reduceIte, bind, Except.bind, pure, Except.pure]
  constructor
  · intro h
    split at h
    next => cases h
    next result hsum =>
      obtain ⟨value, rest⟩ := result
      dsimp only at h
      -- Nothing may be left behind the sum.
      split at h
      next =>
        cases h
        obtain ⟨tree, hwords, hvalue⟩ := hreads.sound hsum
        rw [List.append_nil] at hwords
        exact ⟨by omega, by omega, tree, hwords.symm, hvalue.symm⟩
      next => cases h
  · rintro ⟨_, _, tree, rfl, rfl⟩
    have hsum := hreads.complete tree [] (Grammar.ends_nil _)
    rw [List.append_nil] at hsum
    change sum _ tree.words = _ at hsum
    rw [hsum]
    rfl

/-- A text parses exactly if its words are within the limits and the grammar derives them, and its
expression is what the derivation tree means. No text has two derivation trees, at any depth. -/
theorem parse_eq_ok_iff_derivation :
    (∀ (text : List Char) (expression : Expression),
      parse text = .ok expression ↔
        ∃ lexemes, Lexeme.scan text = .ok lexemes ∧
          1 ≤ lexemes.length ∧ lexemes.length ≤ lexemeLimit ∧
          ∃ tree : Grammar.Expr 0, tree.words = lexemes ∧ tree.expression = expression) ∧
      ∀ depth, Function.Injective (Grammar.Expr.words : Grammar.Expr depth → List Lexeme) := by
  refine ⟨fun text expression => ?_, Grammar.Expr.words_injective⟩
  rcases hscan : Lexeme.scan text with error | lexemes
  · simp [parse, hscan, bind, Except.bind]
  · simp only [parse, hscan, bind, Except.bind, ofLexemes_eq_ok_iff, Except.ok.injEq]
    simp

end Expression

end MetricFormula
