import Mathlib.Data.List.Chain
import MetricFormula.Proofs.Calculation.Meaning

/-!
# How expressions are spelled

Which words spell an expression, as one relation without depths, signs of precedence or chains: the
shape of a derivation is forgotten, and what remains is how the words of an expression are put
together from those of its parts. Every derivation spells its expression, so whatever holds of all
spellings is proved by one induction and then holds of everything that parses.

## Main definitions

* `Spells`: words spell expressions, with commas between them;
* `Lexeme.MayPrecede`: a word may stand right in front of another one;
* `Lexeme.nameUses`: the names among words, each with whether it is called.

## Main results

* `Formula.exists_spells_of_parse`: what parses is spelled;
* `Spells.isChain`: where one operand ends another one never begins, except that a name is called;
* `Spells.names_eq`: the names of an expression are the ones that are not called;
* `Spells.number_mem_iff`: the numbers of an expression are those of its words;
* `Spells.isSome_ofFunction?`: without commas only aggregate functions are called.
-/

namespace MetricFormula

/-- Words spell expressions, one after the other with commas between them. -/
inductive Spells : List Lexeme → List Expression → Prop
  /-- A number. -/
  | number (value : Binary64) : Spells [.number value] [.number value]
  /-- A name that is not called. -/
  | name (id : String) : Spells [.name id] [.name id]
  /-- A plus sign, which means nothing. -/
  | positive {words : List Lexeme} {e : Expression} (h : Spells words [e]) :
    Spells (.plus :: words) [e]
  /-- A minus sign. -/
  | negative {words : List Lexeme} {e : Expression} (h : Spells words [e]) :
    Spells (.minus :: words) [.operation .negate [e]]
  /-- A sign between two operands. -/
  | binary (op : Arithmetic) {u v : List Lexeme} {left right : Expression}
    (hleft : Spells u [left]) (hright : Spells v [right]) :
    Spells (u ++ op.lexeme :: v) [.operation (.binary op) [left, right]]
  /-- Parentheses. -/
  | parenthesized {words : List Lexeme} {e : Expression} (h : Spells words [e]) :
    Spells (.opening :: (words ++ [.closing])) [.parenthesized e]
  /-- A call. -/
  | call (function : String) {words : List Lexeme} {arguments : List Expression}
    (h : Spells words arguments) :
    Spells (.name function :: .opening :: (words ++ [.closing])) [.call function arguments]
  /-- Nothing. -/
  | nothing : Spells [] []
  /-- A comma between an expression and others. -/
  | comma {u v : List Lexeme} {first : Expression} {others : List Expression}
    (hfirst : Spells u [first]) (hne : others ≠ []) (hothers : Spells v others) :
    Spells (u ++ .comma :: v) (first :: others)

/-! ## Derivations are spellings -/

namespace Grammar

variable {α : Type} {precedence : Nat} {words : α → List Lexeme} {expression : α → Expression}

/-- The words of every tree spell what it means. -/
def SpellsTrees (words : α → List Lexeme) (expression : α → Expression) : Prop :=
  ∀ tree, Spells (words tree) [expression tree]

/-- The words of a first operand and of the others behind it spell the operations on them, from the
left. -/
theorem SpellsTrees.tail (h : SpellsTrees words expression) (others : List (Sign precedence × α))
    {left : Expression} {leftWords : List Lexeme} (hleft : Spells leftWords [left]) :
    Spells (leftWords ++ Chain.tailWords words others)
      [Chain.applyTail expression left others] := by
  induction others generalizing left leftWords with
  | nil =>
    rw [Chain.tailWords, List.flatMap_nil, List.append_nil]
    exact hleft
  | cons other others ih =>
    have htail := ih (.binary other.1.1 hleft (h other.2))
    rw [List.append_assoc] at htail
    exact htail

/-- If the words of phrases spell what they mean, so do those of a chain of them. -/
theorem SpellsTrees.chain (h : SpellsTrees words expression) :
    SpellsTrees (Chain.words words : Chain precedence α → List Lexeme)
      (Chain.expression expression) :=
  fun chain => h.tail chain.others (h chain.first)

/-- The arguments of a call are spelled in front of its closing parenthesis. -/
theorem SpellsTrees.arguments (h : SpellsTrees words expression) (arguments : List α) :
    ∃ inner, argumentWords words arguments = inner ++ [.closing] ∧
      Spells inner (arguments.map expression) := by
  -- The first argument stands in front of the others, each of which has a comma.
  have hfirst : ∀ (others : List α) (first : α),
      Spells (words first ++ others.flatMap fun other => .comma :: words other)
        (expression first :: others.map expression) := by
    intro others
    induction others with
    | nil =>
      intro first
      rw [List.flatMap_nil, List.append_nil]
      exact h first
    | cons other others ih => exact fun first => .comma (h first) (List.cons_ne_nil _ _) (ih other)
  cases arguments with
  | nil => exact ⟨[], rfl, .nothing⟩
  | cons first others => exact ⟨_, (List.append_assoc _ _ _).symm, hfirst others first⟩

/-- The words of an operand spell its expression, however deep it nests. -/
theorem Operand.spells (levels : Nat) :
    SpellsTrees (Operand.words levels) (Operand.expression levels) := by
  induction levels with
  | zero => exact fun operand => nomatch (operand : Empty)
  | succ levels ih =>
    have hsum : SpellsTrees (Sum.words (Operand.words levels))
        (Sum.expression (Operand.expression levels)) := ih.chain.chain
    intro operand
    cases (operand : OperandForm (Operand levels)) with
    | positive inner => exact .positive (ih inner)
    | negative inner => exact .negative (ih inner)
    | number value => exact .number value
    | name id => exact .name id
    | call function arguments =>
      obtain ⟨inner, hwords, hinner⟩ := hsum.arguments arguments
      show Spells (.name function :: .opening :: argumentWords _ arguments)
        [.call function (arguments.map _)]
      rw [hwords]
      exact .call function hinner
    | parenthesized inner => exact .parenthesized (hsum inner)

/-- The words of a derivation spell its expression. -/
theorem Expr.spells (tree : Expr 0) : Spells tree.words [tree.expression] :=
  (Operand.spells _).chain.chain tree

end Grammar

/-- A formula that parses has words that spell its expression. -/
theorem Formula.exists_spells_of_parse {formula : List Char} {e : Expression}
    (h : parse formula = .ok e) :
    ∃ words, Lexeme.scan (formula.filter (!isBrace ·)) = .ok words ∧ Spells words [e] := by
  obtain ⟨words, hscan, hread⟩ := exists_scan_of_parse h
  obtain ⟨-, -, tree, rfl, rfl⟩ := Expression.ofLexemes_eq_ok_iff.1 hread
  rw [Lexeme.scan_withoutBraces] at hscan
  exact ⟨_, hscan, tree.spells⟩

/-! ## Neighbours -/

namespace Lexeme

/-- An operand may begin with the word. Signs in front of operands are left out. -/
def beginsOperand : Lexeme → Bool
  | number _ | name _ | opening => true
  | _ => false

/-- An operand may end with the word. -/
def endsOperand : Lexeme → Bool
  | number _ | name _ | closing => true
  | _ => false

/-- The word is a name. -/
def isName : Lexeme → Bool
  | name _ => true
  | _ => false

/-- The first word may stand right in front of the second one: where an operand ends no other one
begins, except that a name is called. -/
def MayPrecede (word next : Lexeme) : Prop :=
  word.endsOperand → next.beginsOperand → word.isName ∧ next = opening

end Lexeme

open Lexeme (MayPrecede)

/-- No operand ends with the sign of an operation. -/
theorem endsOperand_lexeme (op : Arithmetic) : op.lexeme.endsOperand = false := by
  cases op <;> rfl

/-- No operand begins with the sign of an operation, which is not that in front of an operand. -/
theorem beginsOperand_lexeme (op : Arithmetic) : op.lexeme.beginsOperand = false := by
  cases op <;> rfl

/-- Spellings stay spellings of neighbours around a word that neither begins nor ends an operand. -/
theorem isChain_append_cons {u v : List Lexeme} {word : Lexeme} (hu : u.IsChain MayPrecede)
    (hv : v.IsChain MayPrecede) (hends : word.endsOperand = false)
    (hbegins : word.beginsOperand = false) : (u ++ word :: v).IsChain MayPrecede := by
  refine List.isChain_append.2 ⟨hu, List.isChain_cons.2 ⟨fun next _ h => ?_, hv⟩, ?_⟩
  · rw [hends] at h
    cases h
  · intro last _ next hnext _ h
    cases hnext
    rw [hbegins] at h
    cases h

/-- Parentheses may stand around any words. -/
theorem isChain_enclosed {words : List Lexeme} (h : words.IsChain MayPrecede) :
    (Lexeme.opening :: (words ++ [.closing])).IsChain MayPrecede := by
  have hclosed : (words ++ [Lexeme.closing]).IsChain MayPrecede := by
    refine List.isChain_append.2 ⟨h, List.isChain_singleton _, fun _ _ next hnext _ hbegins => ?_⟩
    cases hnext
    cases hbegins
  refine List.isChain_cons.2 ⟨fun _ _ hends => ?_, hclosed⟩
  cases hends

namespace Spells

variable {words : List Lexeme} {es : List Expression} {e : Expression}

/-- In a spelling no operand follows another one without a sign or a comma between them. -/
theorem isChain (h : Spells words es) : words.IsChain MayPrecede := by
  induction h with
  | number | name => exact List.isChain_singleton _
  | nothing => exact List.isChain_nil
  | positive _ ih => exact isChain_append_cons List.isChain_nil ih rfl rfl
  | negative _ ih => exact isChain_append_cons List.isChain_nil ih rfl rfl
  | binary op _ _ ihleft ihright =>
    exact isChain_append_cons ihleft ihright (endsOperand_lexeme op) (beginsOperand_lexeme op)
  | parenthesized _ ih => exact isChain_enclosed ih
  | call function _ ih =>
    refine List.isChain_cons.2 ⟨fun next hnext _ _ => ?_, isChain_enclosed ih⟩
    cases hnext
    exact ⟨rfl, rfl⟩
  | comma _ _ _ ihfirst ihothers => exact isChain_append_cons ihfirst ihothers rfl rfl

end Spells

/-! ## Uses of names -/

namespace Lexeme

/-- The names among words, each with whether it is called, that is, whether an opening parenthesis
follows it. -/
def nameUses : List Lexeme → List (String × Bool)
  | [] => []
  | name id :: rest => (id, rest.head? == some opening) :: nameUses rest
  | _ :: rest => nameUses rest

/-- The names in uses of names that are not called. -/
def uncalled (uses : List (String × Bool)) : List String :=
  (uses.filter (!·.2)).map (·.1)

@[simp]
theorem uncalled_append (u v : List (String × Bool)) :
    uncalled (u ++ v) = uncalled u ++ uncalled v := by
  rw [uncalled, List.filter_append, List.map_append, uncalled, uncalled]

/-- A word that is no name is no use of one. -/
theorem nameUses_cons_of_not_isName {word : Lexeme} (h : word.isName = false)
    (rest : List Lexeme) : nameUses (word :: rest) = nameUses rest := by
  cases word <;> first | rfl | cases h

/-- Whether the names in front of a word are called does not depend on it unless it is an opening
parenthesis. -/
theorem nameUses_append_cons {word : Lexeme} (h : word ≠ opening) (u v : List Lexeme) :
    nameUses (u ++ word :: v) = nameUses u ++ nameUses (word :: v) := by
  induction u with
  | nil => rfl
  | cons first u ih =>
    rw [List.cons_append]
    cases first with
    | name id =>
      rw [nameUses, nameUses, ih, List.cons_append]
      cases u with
      | nil => simp [h]
      | cons second u => rfl
    | _ => rw [nameUses_cons_of_not_isName rfl, nameUses_cons_of_not_isName rfl, ih]

/-- What is used as a name is one of the words. -/
theorem mem_of_mem_nameUses {words : List Lexeme} {use : String × Bool}
    (h : use ∈ nameUses words) : name use.1 ∈ words := by
  induction words with
  | nil => cases h
  | cons word rest ih =>
    cases word with
    | name id =>
      rw [nameUses, List.mem_cons] at h
      rcases h with rfl | h
      · exact List.mem_cons_self
      · exact List.mem_cons_of_mem _ (ih h)
    | _ =>
      rw [nameUses_cons_of_not_isName rfl] at h
      exact List.mem_cons_of_mem _ (ih h)

/-- Words without names in front of others have no uses of names. -/
theorem nameUses_append_of_not_isName {u : List Lexeme} (h : ∀ word ∈ u, word.isName = false)
    (v : List Lexeme) : nameUses (u ++ v) = nameUses v := by
  induction u with
  | nil => rfl
  | cons word u ih =>
    rw [List.forall_mem_cons] at h
    rw [List.cons_append, nameUses_cons_of_not_isName h.1, ih h.2]

end Lexeme

open Lexeme (nameUses uncalled uncalled_append nameUses_cons_of_not_isName nameUses_append_cons)

theorem nameUses_lexeme_cons (op : Arithmetic) (words : List Lexeme) :
    nameUses (op.lexeme :: words) = nameUses words := by
  cases op <;> rfl

theorem lexeme_ne_opening (op : Arithmetic) : op.lexeme ≠ .opening := by
  cases op <;> nofun

/-- Parentheses around words do not change the uses of names in them. -/
theorem nameUses_enclosed (words : List Lexeme) :
    nameUses (.opening :: (words ++ [.closing])) = nameUses words := by
  have hclosing : Lexeme.closing ≠ .opening := nofun
  rw [nameUses_cons_of_not_isName rfl, nameUses_append_cons hclosing]
  exact List.append_nil _

namespace Spells

variable {words : List Lexeme} {es : List Expression} {e : Expression}

/-- The names that stand alone in what words spell are those that are not called. -/
theorem names_eq (h : Spells words es) :
    es.flatMap Expression.names = uncalled (nameUses words) := by
  induction h with
  | number value => simp [nameUses, uncalled]
  | name id => simp [nameUses, uncalled]
  | nothing => rfl
  | positive _ ih => exact ih
  | negative _ ih =>
    rw [List.flatMap_singleton, Expression.names_operation]
    exact ih
  | binary op _ _ ihleft ihright =>
    rw [nameUses_append_cons (lexeme_ne_opening op), nameUses_lexeme_cons, uncalled_append,
      ← ihleft, ← ihright]
    simp
  | parenthesized _ ih =>
    rw [nameUses_enclosed, ← ih]
    simp
  | call function _ ih =>
    rw [nameUses, nameUses_enclosed]
    simpa [uncalled] using ih
  | comma _ _ _ ihfirst ihothers =>
    have hne : Lexeme.comma ≠ .opening := nofun
    rw [nameUses_append_cons hne, nameUses_cons_of_not_isName rfl, uncalled_append, ← ihfirst,
      ← ihothers]
    simp

/-- The names that stand alone in what words spell are among the words. -/
theorem name_mem (h : Spells words es) {id : String} (hmem : id ∈ es.flatMap Expression.names) :
    .name id ∈ words := by
  rw [h.names_eq, uncalled, List.mem_map] at hmem
  obtain ⟨use, huse, rfl⟩ := hmem
  exact Lexeme.mem_of_mem_nameUses (List.mem_of_mem_filter huse)

/-- The numbers in what words spell are all the numbers among the words. -/
theorem number_mem_iff (h : Spells words es) {value : Binary64} :
    .number value ∈ words ↔ .number value ∈ es.flatMap Expression.leaves := by
  induction h with
  | number | name | nothing => simp
  | positive _ ih => simpa using ih
  | negative _ ih => simpa using ih
  | binary op _ _ ihleft ihright =>
    have hsign : Lexeme.number value ≠ op.lexeme := by cases op <;> nofun
    simpa [hsign] using or_congr ihleft ihright
  | parenthesized _ ih => simpa using ih
  | call _ _ ih => simpa using ih
  | comma _ _ _ ihfirst ihothers => simpa using or_congr ihfirst ihothers

/-- Without commas at most one expression is spelled. -/
theorem length_le_one (h : Spells words es) (hcomma : Lexeme.comma ∉ words) : es.length ≤ 1 := by
  cases h with
  | comma hfirst hne hothers => exact absurd (by simp) hcomma
  | nothing => exact Nat.zero_le 1
  | _ => exact Nat.le_refl 1

/-- In a spelling without commas that means something, only aggregate functions are called. -/
theorem isSome_ofFunction? (h : Spells words es) (hcomma : Lexeme.comma ∉ words)
    (hmeans : ∀ e ∈ es, ∃ t, e.Means t) {function : String}
    (hcalled : (function, true) ∈ nameUses words) : (Aggregate.ofFunction? function).isSome := by
  induction h with
  | number value => cases hcalled
  | name id => simp [nameUses] at hcalled
  | nothing => cases hcalled
  | positive _ ih => exact ih (List.not_mem_of_not_mem_cons hcomma) hmeans hcalled
  | negative _ ih =>
    obtain ⟨_, hmeans⟩ := List.forall_mem_singleton.1 hmeans
    cases hmeans with
    | negate hinner =>
      exact ih (List.not_mem_of_not_mem_cons hcomma) (List.forall_mem_singleton.2 ⟨_, hinner⟩)
        hcalled
  | binary op _ _ ihleft ihright =>
    rw [List.mem_append, List.mem_cons, not_or, not_or] at hcomma
    -- No name is called in front of an operator, so the uses are those of the two sides.
    rw [nameUses_append_cons (lexeme_ne_opening op), nameUses_lexeme_cons, List.mem_append]
      at hcalled
    obtain ⟨_, hmeans⟩ := List.forall_mem_singleton.1 hmeans
    cases hmeans with
    | binary _ hleft hright =>
      rcases hcalled with hcalled | hcalled
      · exact ihleft hcomma.1 (List.forall_mem_singleton.2 ⟨_, hleft⟩) hcalled
      · exact ihright hcomma.2.2 (List.forall_mem_singleton.2 ⟨_, hright⟩) hcalled
  | parenthesized _ ih =>
    rw [nameUses_enclosed] at hcalled
    obtain ⟨_, hmeans⟩ := List.forall_mem_singleton.1 hmeans
    cases hmeans with
    | parenthesized hinner =>
      exact ih (by simpa using hcomma) (List.forall_mem_singleton.2 ⟨_, hinner⟩) hcalled
  | @call name words arguments harguments ih =>
    rw [nameUses, nameUses_enclosed, List.mem_cons] at hcalled
    have hinner : Lexeme.comma ∉ words := by simpa using hcomma
    obtain ⟨_, hmeans⟩ := List.forall_mem_singleton.1 hmeans
    cases hmeans with
    | aggregate hkind id =>
      rcases hcalled with heq | hcalled
      · cases heq
        rw [hkind]
        rfl
      · exact ih hinner (List.forall_mem_singleton.2 ⟨_, .name id⟩) hcalled
    -- Two arguments would need a comma.
    | call hop hleft hright => exact absurd (harguments.length_le_one hinner) (by simp)
  | comma _ _ _ _ _ => exact absurd (by simp) hcomma

end Spells

end MetricFormula
