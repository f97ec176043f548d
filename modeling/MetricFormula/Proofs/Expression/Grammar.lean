import Mathlib.Logic.IsEmpty.Basic
import MetricFormula.Expression.Parser

/-!
# The grammar of arithmetic

The derivation trees of arithmetic texts, apart from any parser. With `d` for the number of
parentheses, calls and signs around a phrase, the productions are

* `Expr(d) = Term(d) (('+' | '-') Term(d))*`
* `Term(d) = Unary(d) (('*' | '/') Unary(d))*`
* `Unary(d) = '+' Unary(d + 1) | '-' Unary(d + 1) | Primary(d)`, only for `d` up to the limit
* `Primary(d) = Number | Name | Name '(' ')' | Name '(' Expr(d + 1) (',' Expr(d + 1))* ')'
  | '(' Expr(d + 1) ')'`

The trees of `Unary(d)` are a type that is defined by recursion on the levels of nesting that are
left, so that all statements about trees are inductions on a number, with one step for each
production.

## Main definitions

* `Grammar.Chain`: phrases with signs of one precedence between them;
* `Grammar.OperandForm`: the productions of operands, over the phrases one level deeper;
* `Grammar.Unary` and `Grammar.Expr`: the derivation trees at a depth;
* `words` and `expression` of each: the text that a tree derives and the expression that it means.

## Main results

* `Grammar.unary_eq`, `Grammar.isEmpty_unary`: the productions at a depth;
* `Grammar.Expr.words_injective`: no text has two derivation trees.
-/

namespace MetricFormula

/-- The word of the sign of an operation. -/
def Arithmetic.lexeme : Arithmetic → Lexeme
  | add => .plus
  | subtract => .minus
  | multiply => .star
  | divide => .slash

theorem Arithmetic.lexeme_injective : Function.Injective Arithmetic.lexeme := by
  intro op op' h
  cases op <;> cases op' <;> first | rfl | cases h

namespace Grammar

/-! ## Derivation trees -/

/-- The operations of one precedence. -/
abbrev Sign (precedence : Nat) : Type :=
  { op : Arithmetic // op.precedence = precedence }

/-- Phrases with signs of one precedence between them: a first one and any number of others, each
with the sign in front of it. -/
structure Chain (precedence : Nat) (Phrase : Type) where
  /-- The first phrase. -/
  first : Phrase
  /-- The other phrases with their signs. -/
  others : List (Sign precedence × Phrase)

/-- Sums of products of operands. -/
abbrev Sum (Operand : Type) : Type :=
  Chain 1 (Chain 2 Operand)

/-- The productions of operands, over the operands one level deeper. -/
inductive OperandForm (Inner : Type)
  /-- A plus sign before an operand. -/
  | positive (inner : Inner)
  /-- A minus sign before an operand. -/
  | negative (inner : Inner)
  /-- A number. -/
  | number (value : Binary64)
  /-- A name that is not called. -/
  | name (id : String)
  /-- A call. -/
  | call (function : String) (arguments : List (Sum Inner))
  /-- An expression in parentheses. -/
  | parenthesized (inner : Sum Inner)

/-- Operands in which `levels` levels of nesting are left, of which their own is one. -/
def Operand : Nat → Type
  | 0 => Empty
  | levels + 1 => OperandForm (Operand levels)

/-- Operands at a depth. -/
def Unary (depth : Nat) : Type :=
  Operand (nestingLimit + 1 - depth)

/-- Expressions at a depth. -/
abbrev Expr (depth : Nat) : Type :=
  Sum (Unary depth)

/-- Up to the limit, operands at a depth are made from those one level deeper. -/
theorem unary_eq {depth : Nat} (h : depth ≤ nestingLimit) :
    Unary depth = OperandForm (Unary (depth + 1)) := by
  have hlevels : nestingLimit + 1 - depth = nestingLimit + 1 - (depth + 1) + 1 := by omega
  rw [Unary, hlevels]
  rfl

/-- There is no operand beyond the limit. -/
theorem isEmpty_unary {depth : Nat} (h : nestingLimit < depth) : IsEmpty (Unary depth) := by
  have hlevels : nestingLimit + 1 - depth = 0 := by omega
  rw [Unary, hlevels]
  exact inferInstanceAs (IsEmpty Empty)

/-! ## The text and the meaning of a tree -/

variable {α : Type} {precedence : Nat}

/-- The words of the other phrases of a chain. -/
def Chain.tailWords (words : α → List Lexeme) (others : List (Sign precedence × α)) :
    List Lexeme :=
  others.flatMap fun other => other.1.1.lexeme :: words other.2

/-- The words of a chain. -/
def Chain.words (words : α → List Lexeme) (chain : Chain precedence α) : List Lexeme :=
  words chain.first ++ Chain.tailWords words chain.others

/-- The operators of a chain applied from left to right. -/
def Chain.applyTail (expression : α → Expression) (left : Expression)
    (others : List (Sign precedence × α)) : Expression :=
  others.foldl (fun left other => .operation (.binary other.1.1) [left, expression other.2]) left

/-- The expression of a chain. -/
def Chain.expression (expression : α → Expression) (chain : Chain precedence α) : Expression :=
  Chain.applyTail expression (expression chain.first) chain.others

/-- The words of a sum of products. -/
def Sum.words (words : α → List Lexeme) (sum : Sum α) : List Lexeme :=
  Chain.words (Chain.words words) sum

/-- The expression of a sum of products. -/
def Sum.expression (expression : α → Expression) (sum : Sum α) : Expression :=
  Chain.expression (Chain.expression expression) sum

/-- The words of the arguments of a call, with commas between them, and of the parenthesis that
closes it. -/
def argumentWords (words : α → List Lexeme) : List α → List Lexeme
  | [] => [.closing]
  | first :: others =>
    words first ++ (others.flatMap (fun other => .comma :: words other) ++ [.closing])

/-- The words of an operand. -/
def OperandForm.words (words : α → List Lexeme) : OperandForm α → List Lexeme
  | positive inner => .plus :: words inner
  | negative inner => .minus :: words inner
  | number value => [.number value]
  | name id => [.name id]
  | call function arguments =>
    .name function :: .opening :: argumentWords (Sum.words words) arguments
  | parenthesized inner => .opening :: (Sum.words words inner ++ [.closing])

/-- The expression of an operand. A plus sign means nothing. -/
def OperandForm.expression (expression : α → Expression) : OperandForm α → Expression
  | positive inner => expression inner
  | negative inner => .operation .negate [expression inner]
  | number value => .number value
  | name id => .name id
  | call function arguments => .call function (arguments.map (Sum.expression expression))
  | parenthesized inner => .parenthesized (Sum.expression expression inner)

/-- The words of an operand in which some levels of nesting are left. -/
def Operand.words : (levels : Nat) → Operand levels → List Lexeme
  | 0, operand => nomatch (operand : Empty)
  | levels + 1, operand => OperandForm.words (Operand.words levels) operand

/-- The expression of an operand in which some levels of nesting are left. -/
def Operand.expression : (levels : Nat) → Operand levels → Expression
  | 0, operand => nomatch (operand : Empty)
  | levels + 1, operand => OperandForm.expression (Operand.expression levels) operand

/-- The words that a derivation tree derives. -/
def Expr.words {depth : Nat} (tree : Expr depth) : List Lexeme :=
  Sum.words (Operand.words _) tree

/-- The expression that a derivation tree means. -/
def Expr.expression {depth : Nat} (tree : Expr depth) : Expression :=
  Sum.expression (Operand.expression _) tree

/-! ## Unambiguity -/

/-- A text goes on with a word that may follow, or ends. -/
def Ends (follows : Lexeme → Prop) (rest : List Lexeme) : Prop :=
  ∀ lexeme ∈ rest.head?, follows lexeme

/-- Where a tree ends in a text, and which tree it is, is determined by the text. -/
def Unambiguous (words : α → List Lexeme) (follows : Lexeme → Prop) : Prop :=
  ∀ tree tree' rest rest', Ends follows rest → Ends follows rest' →
    words tree ++ rest = words tree' ++ rest' → tree = tree' ∧ rest = rest'

/-- The words that may follow a chain: no sign of its precedence, and none that a phrase of it could
go on with. -/
def ChainFollows (precedence : Nat) (follows : Lexeme → Prop) (lexeme : Lexeme) : Prop :=
  follows lexeme ∧ ∀ op : Arithmetic, op.precedence = precedence → lexeme ≠ op.lexeme

/-- The words that may follow an operand: a name goes on with an opening parenthesis. -/
def OperandFollows (lexeme : Lexeme) : Prop :=
  lexeme ≠ .opening

/-- The words that may follow a sum. -/
abbrev SumFollows : Lexeme → Prop :=
  ChainFollows 1 (ChainFollows 2 OperandFollows)

theorem ends_nil (follows : Lexeme → Prop) : Ends follows [] := by
  simp [Ends]

theorem ends_cons {follows : Lexeme → Prop} {lexeme : Lexeme} {rest : List Lexeme} :
    Ends follows (lexeme :: rest) ↔ follows lexeme := by
  simp [Ends]

/-- What may follow a chain may follow its last phrase. -/
theorem Ends.of_chain {follows : Lexeme → Prop} {rest : List Lexeme}
    (h : Ends (ChainFollows precedence follows) rest) : Ends follows rest :=
  fun lexeme hmem => (h lexeme hmem).1

/-- A phrase of a chain is followed by a sign or by what follows the chain. -/
theorem ends_tailWords {follows : Lexeme → Prop} (words : α → List Lexeme)
    (hsigns : ∀ op : Arithmetic, op.precedence = precedence → follows op.lexeme)
    (others : List (Sign precedence × α)) {rest : List Lexeme}
    (hends : Ends (ChainFollows precedence follows) rest) :
    Ends follows (Chain.tailWords words others ++ rest) := by
  -- Without other phrases the chain ends here; otherwise the next word is a sign.
  cases others with
  | nil => exact hends.of_chain
  | cons other others => exact ends_cons.2 (hsigns other.1.1 other.1.2)

/-- The signs of the other phrases of a chain determine where they begin. -/
theorem tailWords_unique {words : α → List Lexeme} {follows : Lexeme → Prop}
    (hwords : Unambiguous words follows)
    (hsigns : ∀ op : Arithmetic, op.precedence = precedence → follows op.lexeme)
    {others others' : List (Sign precedence × α)} {rest rest' : List Lexeme}
    (hends : Ends (ChainFollows precedence follows) rest)
    (hends' : Ends (ChainFollows precedence follows) rest')
    (heq : Chain.tailWords words others ++ rest = Chain.tailWords words others' ++ rest') :
    others = others' ∧ rest = rest' := by
  induction others generalizing others' with
  | nil =>
    cases others' with
    | nil => exact ⟨rfl, heq⟩
    | cons other' others' =>
      -- The rest would begin with a sign of the chain.
      obtain rfl : rest = _ := heq
      exact absurd rfl ((ends_cons.1 hends).2 other'.1.1 other'.1.2)
  | cons other others ih =>
    cases others' with
    | nil =>
      -- The other rest would begin with a sign of the chain.
      obtain rfl : _ = rest' := heq
      exact absurd rfl ((ends_cons.1 hends').2 other.1.1 other.1.2)
    | cons other' others' =>
      obtain ⟨⟨op, hop⟩, tree⟩ := other
      obtain ⟨⟨op', hop'⟩, tree'⟩ := other'
      simp only [Chain.tailWords, List.flatMap_cons, List.cons_append, List.append_assoc,
        List.cons.injEq] at heq
      obtain ⟨hsign, hrest⟩ := heq
      obtain rfl := Arithmetic.lexeme_injective hsign
      obtain ⟨rfl, htail⟩ := hwords _ _ _ _ (ends_tailWords words hsigns others hends)
        (ends_tailWords words hsigns others' hends') hrest
      obtain ⟨rfl, rfl⟩ := ih htail
      exact ⟨rfl, rfl⟩

/-- Chains of unambiguous phrases are unambiguous, if no phrase could go on with a sign. -/
theorem Unambiguous.chain {words : α → List Lexeme} {follows : Lexeme → Prop}
    (hwords : Unambiguous words follows)
    (hsigns : ∀ op : Arithmetic, op.precedence = precedence → follows op.lexeme) :
    Unambiguous (Chain.words words : Chain precedence α → List Lexeme)
      (ChainFollows precedence follows) := by
  rintro ⟨first, others⟩ ⟨first', others'⟩ rest rest' hends hends' heq
  simp only [Chain.words, List.append_assoc] at heq
  obtain ⟨rfl, htail⟩ := hwords _ _ _ _ (ends_tailWords words hsigns others hends)
    (ends_tailWords words hsigns others' hends') heq
  obtain ⟨rfl, rfl⟩ := tailWords_unique hwords hsigns hends hends' htail
  exact ⟨rfl, rfl⟩

theorem operandFollows_sign (op : Arithmetic) : OperandFollows op.lexeme := by
  cases op <;> simp [OperandFollows, Arithmetic.lexeme]

/-- A product is followed by the signs of sums, which are none of its own. -/
theorem productFollows_sign {op : Arithmetic} (hop : op.precedence = 1) :
    ChainFollows 2 OperandFollows op.lexeme := by
  refine ⟨operandFollows_sign op, fun op' hop' hsign => ?_⟩
  rw [Arithmetic.lexeme_injective hsign, hop'] at hop
  cases hop

/-- Sums of unambiguous operands are unambiguous. -/
theorem Unambiguous.sum {words : α → List Lexeme} (hwords : Unambiguous words OperandFollows) :
    Unambiguous (Sum.words words) SumFollows :=
  (hwords.chain fun op _ => operandFollows_sign op).chain fun _ hop => productFollows_sign hop

/-- The words of a tree begin with one that closes nothing. -/
def StartsOpen (words : α → List Lexeme) : Prop :=
  ∀ tree, ∃ lexeme rest, words tree = lexeme :: rest ∧ lexeme ≠ .closing

/-- A chain begins with what its first phrase begins with. -/
theorem StartsOpen.chain {words : α → List Lexeme} (hwords : StartsOpen words) :
    StartsOpen (Chain.words words : Chain precedence α → List Lexeme) := by
  intro chain
  obtain ⟨lexeme, rest, heq, hne⟩ := hwords chain.first
  exact ⟨lexeme, rest ++ Chain.tailWords words chain.others, by simp [Chain.words, heq], hne⟩

/-- Operands begin with a sign, a number, a name or an opening parenthesis. -/
theorem Operand.startsOpen (levels : Nat) : StartsOpen (Operand.words levels) := by
  cases levels with
  | zero => exact fun operand => nomatch (operand : Empty)
  | succ levels =>
    intro operand
    cases (operand : OperandForm (Operand levels)) <;> exact ⟨_, _, rfl, by simp⟩

/-- An argument of a call is followed by a comma or by the closing parenthesis. -/
theorem ends_argumentTail {follows : Lexeme → Prop} (hcomma : follows .comma)
    (hclosing : follows .closing) (words : α → List Lexeme) (others : List α)
    (rest : List Lexeme) :
    Ends follows (others.flatMap (fun other => .comma :: words other) ++ .closing :: rest) := by
  cases others with
  | nil => exact ends_cons.2 hclosing
  | cons other others => exact ends_cons.2 hcomma

/-- The other arguments of a call, each after a comma, up to the closing parenthesis. -/
theorem argumentTail_unique {words : α → List Lexeme} {follows : Lexeme → Prop}
    (hwords : Unambiguous words follows) (hcomma : follows .comma) (hclosing : follows .closing)
    {others others' : List α} {rest rest' : List Lexeme}
    (heq : others.flatMap (fun other => .comma :: words other) ++ .closing :: rest =
      others'.flatMap (fun other => .comma :: words other) ++ .closing :: rest') :
    others = others' ∧ rest = rest' := by
  have hends := ends_argumentTail hcomma hclosing words
  induction others generalizing others' with
  | nil =>
    cases others' with
    | nil => exact ⟨rfl, by simpa using heq⟩
    | cons other' others' => simp at heq
  | cons other others ih =>
    cases others' with
    | nil => simp at heq
    | cons other' others' =>
      simp only [List.flatMap_cons, List.cons_append, List.append_assoc, List.cons.injEq,
        true_and] at heq
      obtain ⟨rfl, htail⟩ := hwords _ _ _ _ (hends _ _) (hends _ _) heq
      obtain ⟨rfl, rfl⟩ := ih htail
      exact ⟨rfl, rfl⟩

/-- The arguments of a call and the end of the call are determined by the text. -/
theorem argumentWords_unique {words : α → List Lexeme} {follows : Lexeme → Prop}
    (hwords : Unambiguous words follows) (hstart : StartsOpen words)
    (hcomma : follows .comma) (hclosing : follows .closing)
    {arguments arguments' : List α} {rest rest' : List Lexeme}
    (heq : argumentWords words arguments ++ rest = argumentWords words arguments' ++ rest') :
    arguments = arguments' ∧ rest = rest' := by
  have hends := ends_argumentTail hcomma hclosing words
  cases arguments with
  | nil =>
    cases arguments' with
    | nil => exact ⟨rfl, by simpa [argumentWords] using heq⟩
    | cons first' others' =>
      -- An argument does not begin with the closing parenthesis that ends an empty call.
      obtain ⟨lexeme, tail, hfirst, hne⟩ := hstart first'
      simp only [argumentWords, hfirst, List.cons_append, List.cons.injEq] at heq
      exact absurd heq.1.symm hne
  | cons first others =>
    cases arguments' with
    | nil =>
      obtain ⟨lexeme, tail, hfirst, hne⟩ := hstart first
      simp only [argumentWords, hfirst, List.cons_append, List.cons.injEq] at heq
      exact absurd heq.1 hne
    | cons first' others' =>
      simp only [argumentWords, List.append_assoc, List.singleton_append] at heq
      obtain ⟨rfl, htail⟩ := hwords _ _ _ _ (hends _ _) (hends _ _) heq
      obtain ⟨rfl, rfl⟩ := argumentTail_unique hwords hcomma hclosing htail
      exact ⟨rfl, rfl⟩

/-- A sum is followed by whatever neither opens a call nor is a sign. -/
theorem sumFollows_of_ne {lexeme : Lexeme} (hopening : lexeme ≠ .opening)
    (hsigns : ∀ op : Arithmetic, lexeme ≠ op.lexeme) : SumFollows lexeme :=
  ⟨⟨hopening, fun op _ => hsigns op⟩, fun op _ => hsigns op⟩

theorem sumFollows_closing : SumFollows .closing :=
  sumFollows_of_ne nofun fun op => by cases op <;> simp [Arithmetic.lexeme]

theorem sumFollows_comma : SumFollows .comma :=
  sumFollows_of_ne nofun fun op => by cases op <;> simp [Arithmetic.lexeme]

/-- Operands over unambiguous operands are unambiguous: the first word tells the production, up to
the opening parenthesis that tells a call from a name. -/
theorem Unambiguous.operandForm {words : α → List Lexeme}
    (hwords : Unambiguous words OperandFollows) (hstart : StartsOpen words) :
    Unambiguous (OperandForm.words words) OperandFollows := by
  intro operand operand' rest rest' hends hends' heq
  cases operand with
  | positive inner =>
    cases operand' with
    | positive inner' =>
      obtain ⟨rfl, rfl⟩ := hwords _ _ _ _ hends hends' (List.cons.inj heq).2
      exact ⟨rfl, rfl⟩
    | _ => simp [OperandForm.words] at heq
  | negative inner =>
    cases operand' with
    | negative inner' =>
      obtain ⟨rfl, rfl⟩ := hwords _ _ _ _ hends hends' (List.cons.inj heq).2
      exact ⟨rfl, rfl⟩
    | _ => simp [OperandForm.words] at heq
  | number value =>
    cases operand' <;> simp_all [OperandForm.words]
  | name id =>
    cases operand' with
    | call function arguments =>
      -- A name is not followed by what opens a call.
      simp only [OperandForm.words, List.cons_append, List.nil_append, List.cons.injEq] at heq
      exact absurd rfl (ends_cons.1 (heq.2 ▸ hends))
    | _ => simp_all [OperandForm.words]
  | call function arguments =>
    cases operand' with
    | name id =>
      simp only [OperandForm.words, List.cons_append, List.nil_append, List.cons.injEq] at heq
      exact absurd rfl (ends_cons.1 (heq.2.symm ▸ hends'))
    | call function' arguments' =>
      simp only [OperandForm.words, List.cons_append, List.cons.injEq, Lexeme.name.injEq,
        true_and] at heq
      obtain ⟨rfl, htail⟩ := heq
      obtain ⟨rfl, rfl⟩ := argumentWords_unique hwords.sum hstart.chain.chain sumFollows_comma
        sumFollows_closing htail
      exact ⟨rfl, rfl⟩
    | _ => simp [OperandForm.words] at heq
  | parenthesized inner =>
    cases operand' with
    | parenthesized inner' =>
      simp only [OperandForm.words, List.cons_append, List.append_assoc, List.cons.injEq,
        true_and] at heq
      obtain ⟨rfl, htail⟩ := hwords.sum _ _ _ _ (ends_cons.2 sumFollows_closing)
        (ends_cons.2 sumFollows_closing) heq
      exact ⟨rfl, (List.cons.inj htail).2⟩
    | _ => simp [OperandForm.words] at heq

/-- Operands are unambiguous, however many levels of nesting they have. -/
theorem Operand.unambiguous (levels : Nat) :
    Unambiguous (Operand.words levels) OperandFollows := by
  induction levels with
  | zero => exact fun operand => nomatch (operand : Empty)
  | succ levels ih => exact ih.operandForm (Operand.startsOpen levels)

/-- No text has two derivation trees. -/
theorem Expr.words_injective (depth : Nat) :
    Function.Injective (Expr.words : Expr depth → List Lexeme) := by
  intro tree tree' h
  refine ((Operand.unambiguous _).sum tree tree' [] [] (ends_nil _) (ends_nil _) ?_).1
  rw [List.append_nil, List.append_nil]
  exact h

end Grammar

end MetricFormula
