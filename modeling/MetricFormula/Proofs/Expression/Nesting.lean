import MetricFormula.Proofs.Expression.Parsing

/-!
# Nesting

How many parentheses, calls and signs stand around each number and each name of a text. This is
read off the words alone, and a derivation tree with any number of levels can be rebuilt within the
limit exactly if its words nest within the limit.

## Main definitions

* `Lexeme.nestings`: the nesting of every number and name of a list of words;
* `Lexeme.IsWithinLimits`: the limits on the number of words and on their nesting;
* `Grammar.Operand.nestings`: the same for a derivation tree.

## Main results

* `Grammar.nestings_words`: both agree;
* `Grammar.Expr.exists_of_nestings`: a tree of any levels is within the limit if its words are;
* `Expression.ofLexemes_of_derivation`: so words with a tree of any levels parse exactly within the
  limits.
-/

namespace MetricFormula

namespace Lexeme

/-! ## Nesting in a list of words -/

/-- Where a reader of words stands. -/
structure Place where
  /-- The parentheses, calls and signs around the phrases at this place. -/
  depth : Nat
  /-- The same for the phrases around each open parenthesis, the innermost one first. -/
  outer : List Nat
  /-- The signs in front of the operand that is due or has been read last. -/
  signs : Nat
  /-- An operand is due, so a plus or minus is its sign. -/
  due : Bool

/-- The place before the first word. -/
def Place.start : Place :=
  ⟨0, [], 0, true⟩

/-- The place after one more word. -/
def Place.step (place : Place) : Lexeme → Place
  | .number _ | .name _ => { place with due := false }
  | .plus | .minus =>
    if place.due then { place with signs := place.signs + 1 }
    else { place with signs := 0, due := true }
  | .star | .slash | .comma => { place with signs := 0, due := true }
  | .opening => ⟨place.depth + place.signs + 1, place.depth :: place.outer, 0, true⟩
  | .closing =>
    match place.outer with
    | depth :: outer => ⟨depth, outer, 0, false⟩
    | [] => { place with due := false }

/-- The nesting of the numbers and names from a place on. -/
def nestingsFrom (place : Place) : List Lexeme → List Nat
  | [] => []
  | .number value :: rest =>
    (place.depth + place.signs) :: nestingsFrom (place.step (.number value)) rest
  | .name id :: rest => (place.depth + place.signs) :: nestingsFrom (place.step (.name id)) rest
  | lexeme :: rest => nestingsFrom (place.step lexeme) rest

/-- For every number and every name, how many parentheses, calls and signs stand around it. -/
def nestings (lexemes : List Lexeme) : List Nat :=
  nestingsFrom .start lexemes

/-- There are not too many words, and no number or name stands inside too many parentheses, calls
and signs. -/
def IsWithinLimits (lexemes : List Lexeme) : Prop :=
  lexemes.length ≤ lexemeLimit ∧ ∀ n ∈ nestings lexemes, n ≤ nestingLimit

instance (lexemes : List Lexeme) : Decidable (IsWithinLimits lexemes) :=
  inferInstanceAs (Decidable (_ ∧ _))

end Lexeme

namespace Grammar

variable {α β : Type} {precedence : Nat}

/-! ## Nesting in a derivation tree -/

/-- The nesting of the numbers and names in a chain. -/
def Chain.nestings (nestings : α → List Nat) (chain : Chain precedence α) : List Nat :=
  nestings chain.first ++ chain.others.flatMap fun other => nestings other.2

/-- The nesting of the numbers and names in a sum of products. -/
def Sum.nestings (nestings : α → List Nat) (sum : Sum α) : List Nat :=
  Chain.nestings (Chain.nestings nestings) sum

/-- The nesting of the numbers and names in an operand at a depth. -/
def OperandForm.nestings (nestings : Nat → α → List Nat) (depth : Nat) : OperandForm α → List Nat
  | positive inner | negative inner => nestings (depth + 1) inner
  | number _ | name _ => [depth]
  | call _ arguments => depth :: arguments.flatMap (Sum.nestings (nestings (depth + 1)))
  | parenthesized inner => Sum.nestings (nestings (depth + 1)) inner

/-- The nesting of the numbers and names in an operand with some levels left. -/
def Operand.nestings : (levels depth : Nat) → Operand levels → List Nat
  | 0, _, operand => nomatch (operand : Empty)
  | levels + 1, depth, operand => OperandForm.nestings (Operand.nestings levels) depth operand

/-! ## The words of a tree nest like the tree -/

/-- Reading the words of a tree where an operand is due gives the nesting of the tree and goes on
behind it, outside all parentheses that were opened in it. -/
def Traced (words : α → List Lexeme) (nestings : Nat → α → List Nat) : Prop :=
  ∀ tree depth outer rest, ∃ signs,
    Lexeme.nestingsFrom ⟨depth, outer, 0, true⟩ (words tree ++ rest) =
      nestings depth tree ++ Lexeme.nestingsFrom ⟨depth, outer, signs, false⟩ rest

/-- Behind the sign of an operation an operand is due, and the signs in front of it are counted
anew. -/
theorem nestingsFrom_sign (op : Arithmetic) (depth : Nat) (outer : List Nat) (signs : Nat)
    (rest : List Lexeme) :
    Lexeme.nestingsFrom ⟨depth, outer, signs, false⟩ (op.lexeme :: rest) =
      Lexeme.nestingsFrom ⟨depth, outer, 0, true⟩ rest := by
  cases op <;> rfl

/-- Reading goes on over the phrases behind the first one, with the signs between them. -/
theorem Traced.tail {words : α → List Lexeme} {nestings : Nat → α → List Nat}
    (h : Traced words nestings) (others : List (Sign precedence × α)) (depth : Nat)
    (outer : List Nat) (signs : Nat) (rest : List Lexeme) :
    ∃ signs', Lexeme.nestingsFrom ⟨depth, outer, signs, false⟩
        (Chain.tailWords words others ++ rest) =
      (others.flatMap fun other => nestings depth other.2) ++
        Lexeme.nestingsFrom ⟨depth, outer, signs', false⟩ rest := by
  induction others generalizing signs with
  | nil => exact ⟨signs, rfl⟩
  | cons other others ih =>
    -- After a sign the next phrase is read as if it were the first one.
    obtain ⟨signs', hphrase⟩ := h other.2 depth outer (Chain.tailWords words others ++ rest)
    obtain ⟨signs'', hothers⟩ := ih signs'
    refine ⟨signs'', ?_⟩
    rw [Chain.tailWords, List.flatMap_cons, List.flatMap_cons, List.cons_append,
      List.cons_append, nestingsFrom_sign, List.append_assoc, List.append_assoc, ← hothers]
    exact hphrase

/-- If the words of phrases nest like their trees, so do those of a chain of them. -/
theorem Traced.chain {words : α → List Lexeme} {nestings : Nat → α → List Nat}
    (h : Traced words nestings) :
    Traced (Chain.words words : Chain precedence α → List Lexeme)
      fun depth => Chain.nestings (nestings depth) := by
  intro chain depth outer rest
  obtain ⟨signs, hfirst⟩ :=
    h chain.first depth outer (Chain.tailWords words chain.others ++ rest)
  obtain ⟨signs', hothers⟩ := h.tail chain.others depth outer signs rest
  refine ⟨signs', ?_⟩
  show Lexeme.nestingsFrom _ (Chain.words words chain ++ rest) =
    Chain.nestings (nestings depth) chain ++ _
  rw [Chain.words, Chain.nestings, List.append_assoc, List.append_assoc, hfirst, hothers]

/-- The arguments of a call, up to and with its closing parenthesis. -/
theorem Traced.arguments {words : α → List Lexeme} {nestings : Nat → α → List Nat}
    (h : Traced words nestings) (arguments : List α) (depth depth' : Nat) (outer : List Nat)
    (rest : List Lexeme) :
    Lexeme.nestingsFrom ⟨depth, depth' :: outer, 0, true⟩
        (argumentWords words arguments ++ rest) =
      arguments.flatMap (nestings depth) ++
        Lexeme.nestingsFrom ⟨depth', outer, 0, false⟩ rest := by
  -- Behind the first argument the others follow, each after a comma.
  have htail : ∀ (others : List α) (signs : Nat),
      Lexeme.nestingsFrom ⟨depth, depth' :: outer, signs, false⟩
          (others.flatMap (fun other => .comma :: words other) ++ .closing :: rest) =
        others.flatMap (nestings depth) ++
          Lexeme.nestingsFrom ⟨depth', outer, 0, false⟩ rest := by
    intro others
    induction others with
    | nil => exact fun _ => rfl
    | cons other others ih =>
      intro signs
      obtain ⟨signs', hother⟩ := h other depth (depth' :: outer)
        (others.flatMap (fun other => .comma :: words other) ++ .closing :: rest)
      rw [List.flatMap_cons, List.flatMap_cons, List.cons_append, List.cons_append,
        List.append_assoc, List.append_assoc, ← ih signs']
      exact hother
  cases arguments with
  | nil => rfl
  | cons first others =>
    obtain ⟨signs, hfirst⟩ := h first depth (depth' :: outer)
      (others.flatMap (fun other => .comma :: words other) ++ .closing :: rest)
    rw [argumentWords, List.append_assoc, List.append_assoc, List.singleton_append, hfirst, htail,
      List.flatMap_cons, List.append_assoc]

/-- Operands are read where some signs have been read already. -/
theorem nestingsFrom_operand (levels : Nat) (operand : Operand levels) (depth : Nat)
    (outer : List Nat) (signs : Nat) (rest : List Lexeme) :
    ∃ signs', Lexeme.nestingsFrom ⟨depth, outer, signs, true⟩
        (Operand.words levels operand ++ rest) =
      Operand.nestings levels (depth + signs) operand ++
        Lexeme.nestingsFrom ⟨depth, outer, signs', false⟩ rest := by
  induction levels generalizing depth outer signs rest with
  | zero => exact nomatch (operand : Empty)
  | succ levels ih =>
    -- Phrases inside parentheses begin without signs.
    have hsum : Traced (Sum.words (Operand.words levels))
        fun depth => Sum.nestings (Operand.nestings levels depth) :=
      Traced.chain (Traced.chain fun tree depth outer rest => ih tree depth outer 0 rest)
    cases (operand : OperandForm (Operand levels)) with
    | positive inner => exact ih inner depth outer (signs + 1) rest
    | negative inner => exact ih inner depth outer (signs + 1) rest
    | number value => exact ⟨signs, rfl⟩
    | name id => exact ⟨signs, rfl⟩
    | call function arguments =>
      refine ⟨0, congrArg ((depth + signs) :: ·) ?_⟩
      exact hsum.arguments arguments (depth + signs + 1) depth outer rest
    | parenthesized inner =>
      -- The closing parenthesis goes back to the depth that the opening one remembered.
      obtain ⟨signs', hinner⟩ := hsum inner (depth + signs + 1) (depth :: outer)
        (.closing :: rest)
      refine ⟨0, ?_⟩
      show Lexeme.nestingsFrom _ (.opening :: (Sum.words _ inner ++ [.closing]) ++ rest) = _
      rw [List.cons_append, List.append_assoc]
      exact hinner

/-- The words of a sum nest like its tree. -/
theorem nestings_words {levels : Nat} (tree : Sum (Operand levels)) :
    Lexeme.nestings (Sum.words (Operand.words levels) tree) =
      Sum.nestings (Operand.nestings levels 0) tree := by
  have hsum : Traced (Sum.words (Operand.words levels))
      fun depth => Sum.nestings (Operand.nestings levels depth) :=
    Traced.chain (Traced.chain fun tree depth outer rest =>
      nestingsFrom_operand levels tree depth outer 0 rest)
  obtain ⟨signs, htree⟩ := hsum tree 0 [] []
  rw [List.append_nil] at htree
  exact htree.trans (List.append_nil _)

/-! ## Trees within a limit -/

/-- What holds of the nesting in all phrases holds of that in a chain. -/
theorem Chain.forall_nestings {nestings : α → List Nat} {P : Nat → Prop}
    (h : ∀ tree, ∀ n ∈ nestings tree, P n) (chain : Chain precedence α) :
    ∀ n ∈ Chain.nestings nestings chain, P n := by
  intro n hn
  rcases List.mem_append.1 hn with hn | hn
  · exact h _ n hn
  · obtain ⟨other, -, hn⟩ := List.mem_flatMap.1 hn
    exact h _ n hn

/-- Numbers and names nest at least as deeply as their operand, and less deeply than its levels
allow. -/
theorem nestings_operand_bounds (levels depth : Nat) (operand : Operand levels) :
    ∀ n ∈ Operand.nestings levels depth operand, depth ≤ n ∧ n < depth + levels := by
  induction levels generalizing depth with
  | zero => exact nomatch (operand : Empty)
  | succ levels ih =>
    -- One level deeper there is one level less.
    have hinner : ∀ inner : Operand levels, ∀ n ∈ Operand.nestings levels (depth + 1) inner,
        depth ≤ n ∧ n < depth + (levels + 1) := by
      intro inner n hn
      have := ih (depth + 1) inner n hn
      omega
    have hsum : ∀ sum : Sum (Operand levels),
        ∀ n ∈ Sum.nestings (Operand.nestings levels (depth + 1)) sum,
          depth ≤ n ∧ n < depth + (levels + 1) :=
      Chain.forall_nestings (Chain.forall_nestings hinner)
    intro n hn
    cases (operand : OperandForm (Operand levels)) with
    | positive inner => exact hinner inner n hn
    | negative inner => exact hinner inner n hn
    | number value =>
      obtain rfl := List.mem_singleton.1 hn
      omega
    | name id =>
      obtain rfl := List.mem_singleton.1 hn
      omega
    | call function arguments =>
      rcases List.mem_cons.1 hn with rfl | hn
      · omega
      · obtain ⟨argument, -, hn⟩ := List.mem_flatMap.1 hn
        exact hsum argument n hn
    | parenthesized inner => exact hsum inner n hn

/-- There is a number or a name in every operand. -/
theorem nestings_operand_ne_nil (levels depth : Nat) (operand : Operand levels) :
    Operand.nestings levels depth operand ≠ [] := by
  induction levels generalizing depth with
  | zero => exact nomatch (operand : Empty)
  | succ levels ih =>
    cases (operand : OperandForm (Operand levels)) with
    | positive inner => exact ih (depth + 1) inner
    | negative inner => exact ih (depth + 1) inner
    | number value => exact List.cons_ne_nil _ _
    | name id => exact List.cons_ne_nil _ _
    | call function arguments => exact List.cons_ne_nil _ _
    | parenthesized inner =>
      exact List.append_ne_nil_of_left_ne_nil
        (List.append_ne_nil_of_left_ne_nil (ih (depth + 1) inner.first.first) _) _

/-- Every tree that nests below a limit has a copy among other trees: one with the same words and
the same expression. -/
def Copied (words : α → List Lexeme) (expression : α → Expression) (nestings : α → List Nat)
    (words' : β → List Lexeme) (expression' : β → Expression) (limit : Nat) : Prop :=
  ∀ tree, (∀ n ∈ nestings tree, n < limit) →
    ∃ copy, words' copy = words tree ∧ expression' copy = expression tree

section Copied

variable {words : α → List Lexeme} {expression : α → Expression} {nestings : α → List Nat}
  {words' : β → List Lexeme} {expression' : β → Expression} {limit : Nat}

/-- Phrases behind the first one are copied one by one. -/
theorem Copied.tail (h : Copied words expression nestings words' expression' limit)
    (others : List (Sign precedence × α))
    (hlimit : ∀ n ∈ others.flatMap fun other => nestings other.2, n < limit) :
    ∃ copies : List (Sign precedence × β),
      Chain.tailWords words' copies = Chain.tailWords words others ∧
      ∀ left, Chain.applyTail expression' left copies =
        Chain.applyTail expression left others := by
  induction others with
  | nil => exact ⟨[], rfl, fun _ => rfl⟩
  | cons other others ih =>
    obtain ⟨sign, tree⟩ := other
    rw [List.flatMap_cons] at hlimit
    obtain ⟨copy, hwords, hexpression⟩ := h tree fun n hn => hlimit n (List.mem_append_left _ hn)
    obtain ⟨copies, htail, happly⟩ := ih fun n hn => hlimit n (List.mem_append_right _ hn)
    refine ⟨(sign, copy) :: copies, ?_, fun left => ?_⟩
    · rw [Chain.tailWords, List.flatMap_cons, hwords]
      exact congrArg _ htail
    · show Chain.applyTail expression' (.operation (.binary sign.1) [left, expression' copy])
        copies = _
      rw [happly, hexpression]
      rfl

/-- If all phrases have copies, so has a chain of them. -/
theorem Copied.chain (h : Copied words expression nestings words' expression' limit) :
    Copied (Chain.words words : Chain precedence α → List Lexeme) (Chain.expression expression)
      (Chain.nestings nestings) (Chain.words words' : Chain precedence β → List Lexeme)
      (Chain.expression expression') limit := by
  rintro ⟨first, others⟩ hlimit
  obtain ⟨copy, hwords, hexpression⟩ := h first fun n hn => hlimit n (List.mem_append_left _ hn)
  obtain ⟨copies, htail, happly⟩ :=
    h.tail others fun n hn => hlimit n (List.mem_append_right _ hn)
  refine ⟨⟨copy, copies⟩, ?_, ?_⟩
  · rw [Chain.words, Chain.words, hwords, htail]
  · rw [Chain.expression, Chain.expression, hexpression, happly]

/-- If all phrases have copies, so have the arguments of a call. -/
theorem Copied.arguments (h : Copied words expression nestings words' expression' limit)
    (arguments : List α) (hlimit : ∀ n ∈ arguments.flatMap nestings, n < limit) :
    ∃ copies : List β, argumentWords words' copies = argumentWords words arguments ∧
      copies.map expression' = arguments.map expression := by
  -- The words of arguments depend on the words of each argument only.
  suffices hcopies : ∃ copies : List β, copies.map words' = arguments.map words ∧
      copies.map expression' = arguments.map expression by
    obtain ⟨copies, hwords, hexpression⟩ := hcopies
    refine ⟨copies, ?_, hexpression⟩
    have hlist : ∀ {γ : Type} (text : γ → List Lexeme) (items : List γ),
        argumentWords text items = argumentWords id (items.map text) := by
      intro γ text items
      cases items with
      | nil => rfl
      | cons first others =>
        rw [List.map_cons, argumentWords, argumentWords, List.flatMap_map]
        rfl
    rw [hlist, hlist words, hwords]
  induction arguments with
  | nil => exact ⟨[], rfl, rfl⟩
  | cons first others ih =>
    rw [List.flatMap_cons] at hlimit
    obtain ⟨copy, hwords, hexpression⟩ := h first fun n hn => hlimit n (List.mem_append_left _ hn)
    obtain ⟨copies, hrest, hvalues⟩ := ih fun n hn => hlimit n (List.mem_append_right _ hn)
    refine ⟨copy :: copies, ?_, ?_⟩
    · rw [List.map_cons, List.map_cons, hwords, hrest]
    · rw [List.map_cons, List.map_cons, hexpression, hvalues]

end Copied

/-- An operand has a copy with as many levels as its nesting takes. -/
theorem copied_operand (levels levels' depth : Nat) :
    Copied (Operand.words levels) (Operand.expression levels) (Operand.nestings levels depth)
      (Operand.words levels') (Operand.expression levels') (depth + levels') := by
  induction levels generalizing levels' depth with
  | zero => exact fun operand => nomatch (operand : Empty)
  | succ levels ih =>
    intro operand hlimit
    cases levels' with
    | zero =>
      -- No number or name nests less deeply than its operand.
      obtain ⟨n, hn⟩ := List.exists_mem_of_ne_nil _ (nestings_operand_ne_nil _ depth operand)
      have := (nestings_operand_bounds _ depth operand n hn).1
      have := hlimit n hn
      omega
    | succ levels' =>
      -- Both the depth and the levels left change by one, so the limit stays.
      have hinner := ih levels' (depth + 1)
      rw [Nat.add_right_comm, Nat.add_assoc] at hinner
      have hsum : Copied (Sum.words (Operand.words levels))
          (Sum.expression (Operand.expression levels))
          (Sum.nestings (Operand.nestings levels (depth + 1)))
          (Sum.words (Operand.words levels')) (Sum.expression (Operand.expression levels')) _ :=
        hinner.chain.chain
      cases (operand : OperandForm (Operand levels)) with
      | positive inner =>
        obtain ⟨copy, hwords, hexpression⟩ := hinner inner hlimit
        exact ⟨OperandForm.positive copy, congrArg (Lexeme.plus :: ·) hwords, hexpression⟩
      | negative inner =>
        obtain ⟨copy, hwords, hexpression⟩ := hinner inner hlimit
        exact ⟨OperandForm.negative copy, congrArg (Lexeme.minus :: ·) hwords,
          congrArg (Expression.operation .negate [·]) hexpression⟩
      | number value => exact ⟨OperandForm.number value, rfl, rfl⟩
      | name id => exact ⟨OperandForm.name id, rfl, rfl⟩
      | call function arguments =>
        obtain ⟨copies, hwords, hexpression⟩ :=
          hsum.arguments arguments fun n hn => hlimit n (List.mem_cons_of_mem _ hn)
        exact ⟨OperandForm.call function copies,
          congrArg (Lexeme.name function :: .opening :: ·) hwords,
          congrArg (Expression.call function) hexpression⟩
      | parenthesized inner =>
        obtain ⟨copy, hwords, hexpression⟩ := hsum inner hlimit
        exact ⟨OperandForm.parenthesized copy,
          congrArg (fun words => Lexeme.opening :: (words ++ [Lexeme.closing])) hwords,
          congrArg Expression.parenthesized hexpression⟩

/-- The words of an expression nest within the limit. -/
theorem Expr.nestings_le (tree : Expr 0) :
    ∀ n ∈ Lexeme.nestings tree.words, n ≤ nestingLimit := by
  intro n hn
  have hwords : Lexeme.nestings tree.words = _ := nestings_words tree
  rw [hwords] at hn
  -- At depth zero the levels are one more than the limit.
  have hbounds := Chain.forall_nestings
    (Chain.forall_nestings (nestings_operand_bounds (nestingLimit + 1) 0)) tree n hn
  omega

/-- A tree of any levels is an expression within the limit if its words nest within the limit. -/
theorem Expr.exists_of_nestings {levels : Nat} (tree : Sum (Operand levels))
    (h : ∀ n ∈ Lexeme.nestings (Sum.words (Operand.words levels) tree), n ≤ nestingLimit) :
    ∃ copy : Expr 0, copy.words = Sum.words (Operand.words levels) tree ∧
      copy.expression = Sum.expression (Operand.expression levels) tree := by
  rw [nestings_words] at h
  refine (copied_operand levels (nestingLimit + 1) 0).chain.chain tree fun n hn => ?_
  have := h n hn
  omega

end Grammar

namespace Expression

/-- Words with a derivation tree of any levels make an expression exactly within the limits. -/
theorem ofLexemes_of_derivation {levels : Nat} (tree : Grammar.Sum (Grammar.Operand levels)) :
    let words := Grammar.Sum.words (Grammar.Operand.words levels) tree
    (Lexeme.IsWithinLimits words → ofLexemes words =
        .ok (Grammar.Sum.expression (Grammar.Operand.expression levels) tree)) ∧
      (¬Lexeme.IsWithinLimits words → ∃ error, ofLexemes words = .error error) := by
  intro words
  constructor
  · rintro ⟨hlength, hnestings⟩
    obtain ⟨copy, hwords, hexpression⟩ := Grammar.Expr.exists_of_nestings tree hnestings
    obtain ⟨lexeme, rest, hstart, -⟩ := (Grammar.Operand.startsOpen levels).chain.chain tree
    have hpos : 1 ≤ words.length := by
      show 1 ≤ (Grammar.Sum.words (Grammar.Operand.words levels) tree).length
      rw [Grammar.Sum.words, hstart, List.length_cons]
      omega
    exact ofLexemes_eq_ok_iff.2 ⟨hpos, hlength, copy, hwords, hexpression⟩
  · intro hbeyond
    rcases hresult : ofLexemes words with error | expression
    · exact ⟨error, rfl⟩
    · obtain ⟨-, hlength, copy, hwords, -⟩ := ofLexemes_eq_ok_iff.1 hresult
      refine absurd ⟨hlength, ?_⟩ hbeyond
      rw [← hwords]
      exact copy.nestings_le

end Expression

end MetricFormula
