import MetricFormula.Proofs.Expression.Parsing

/-!
# The parser makes progress

Every reader of the parser that succeeds has taken at least one word and leaves words of the list
it was given. So the loops over operators and over arguments have no more rounds than there are
words, and the number of rounds that they are allowed is never what ends them. Nesting takes a word
for each level, too, so reading gives up for depth only where there are as many words as levels, and
otherwise more levels make no difference.

## Main definitions

* `Expression.Reader.Advances`: a reader goes on in every list of words;
* `Expression.primary`: operands without signs;
* `Expression.Reader.LimitedBy`: a reader that does as another one unless it gives up for depth.

## Main results

* `Expression.advances_operand`, `Expression.advances_arguments`: the readers go on;
* `Expression.chain_eq_of_le`, `Expression.argumentsFrom_eq_of_lt`: rounds do not limit the loops;
* `Expression.limitedBy_operand`: nesting is limited by the check of the depth alone;
* `Expression.reading_advances`: all of this, for every reader at every depth.
-/

namespace MetricFormula

namespace Expression

variable {α β : Type}

/-! ## Progress -/

/-- The reader goes on: wherever it reads in a list of words, what it reads ends at a later position
of the list. -/
def Reader.Advances (reader : Reader α) : Prop :=
  ∀ (words : List Lexeme) (position : Nat) (value : α) (rest : List Lexeme),
    reader (words.drop position) = .ok (value, rest) →
      ∃ next, position < next ∧ next ≤ words.length ∧ rest = words.drop next

/-- A reader that takes words from the front goes on if it takes any. -/
theorem Reader.advances_of_taken {reader : Reader α}
    (h : ∀ lexemes value rest, reader lexemes = .ok (value, rest) →
      ∃ taken, taken ≠ [] ∧ lexemes = taken ++ rest) : reader.Advances := by
  intro words position value rest hread
  obtain ⟨taken, hne, htaken⟩ := h _ _ _ hread
  have hpos := List.length_pos_iff.2 hne
  have hlength := congrArg List.length htaken
  rw [List.length_drop, List.length_append] at hlength
  refine ⟨position + taken.length, by omega, by omega, ?_⟩
  rw [← List.drop_drop, htaken, List.drop_left]

/-- What is left is shorter. -/
theorem Reader.Advances.length_lt {reader : Reader α} (h : reader.Advances)
    {lexemes rest : List Lexeme} {value : α} (hread : reader lexemes = .ok (value, rest)) :
    rest.length < lexemes.length := by
  obtain ⟨next, hnext, hle, rfl⟩ := h lexemes 0 value rest hread
  rw [List.length_drop]
  omega

/-- A reader of trees goes on if every tree has a word. -/
theorem advances_of_reads {reader : Reader β} {words : α → List Lexeme} {meaning : α → β}
    {follows : Lexeme → Prop} (hreads : Grammar.Reads reader words meaning follows)
    (hne : ∀ tree, words tree ≠ []) : reader.Advances := by
  refine Reader.advances_of_taken fun lexemes value rest hread => ?_
  obtain ⟨tree, hlexemes, -⟩ := hreads.sound hread
  exact ⟨words tree, hne tree, hlexemes⟩

/-- A tree that begins with a word has one. -/
theorem words_ne_nil {words : α → List Lexeme} (hstart : Grammar.StartsOpen words) (tree : α) :
    words tree ≠ [] := by
  obtain ⟨lexeme, rest, hwords, -⟩ := hstart tree
  rw [hwords]
  exact List.cons_ne_nil _ _

section Levels

variable (count levels : Nat)

theorem advances_operand : (operand count levels).Advances :=
  advances_of_reads (Grammar.reads_operand count levels)
    (words_ne_nil (Grammar.Operand.startsOpen levels))

theorem advances_product : (product (operand count levels)).Advances :=
  advances_of_reads
    (Grammar.reads_chain (Grammar.reads_operand count levels) Grammar.isSignTest_multiplicative
      fun op _ => Grammar.operandFollows_sign op)
    (words_ne_nil (Grammar.Operand.startsOpen levels).chain)

theorem advances_sum : (sum (operand count levels)).Advances :=
  advances_of_reads (Grammar.reads_sum (Grammar.reads_operand count levels))
    (words_ne_nil (Grammar.Operand.startsOpen levels).chain.chain)

/-- Arguments end with the parenthesis that closes the call. -/
theorem advances_arguments : (arguments (sum (operand count levels))).Advances := by
  have hreads := Grammar.reads_arguments
    (Grammar.reads_sum (Grammar.reads_operand count levels))
    (Grammar.Operand.startsOpen levels).chain.chain Grammar.sumFollows_comma
    Grammar.sumFollows_closing
  refine advances_of_reads hreads fun trees => ?_
  cases trees <;> simp [Grammar.argumentWords]

end Levels

/-! ## Operands without signs -/

/-- An operand that begins with no sign, when `levels` levels of nesting are left inside it and the
whole text has `count` words. -/
def primary (count levels : Nat) : Reader Expression
  | [] => .error .unexpectedEnd
  | .number value :: rest => .ok (.number value, rest)
  | .name function :: .opening :: rest => do
    let (args, rest) ← arguments (sum (operand count levels)) rest
    .ok (.call function args, rest)
  | .name id :: rest => .ok (.name id, rest)
  | .opening :: rest => do
    let (inner, rest) ← sum (operand count levels) rest
    close inner rest
  | lexeme :: rest => .error (.unexpected lexeme (count - (rest.length + 1)))

/-- The word is a sign in front of an operand. -/
def isSign : Lexeme → Bool
  | .plus | .minus => true
  | _ => false

/-- An operand that does not begin with a sign is read without looking for one. -/
theorem operand_eq_primary (count levels : Nat) {lexemes : List Lexeme}
    (h : ∀ lexeme ∈ lexemes.head?, isSign lexeme = false) :
    operand count (levels + 1) lexemes = primary count levels lexemes := by
  cases lexemes with
  | nil => rfl
  | cons lexeme rest =>
    have hlexeme := h lexeme rfl
    cases lexeme with
    | plus => cases hlexeme
    | minus => cases hlexeme
    | name id =>
      -- Only a name depends on the word behind it.
      cases rest with
      | nil => rfl
      | cons next rest => cases next <;> rfl
    | _ => rfl

/-- A sign is no operand. -/
theorem head?_of_primary {count levels : Nat} {lexemes rest : List Lexeme} {value : Expression}
    (h : primary count levels lexemes = .ok (value, rest)) :
    ∀ lexeme ∈ lexemes.head?, isSign lexeme = false := by
  intro lexeme hlexeme
  cases lexemes with
  | nil => cases h
  | cons first lexemes =>
    obtain rfl := Option.some.inj hlexeme
    cases first with
    | plus => cases h
    | minus => cases h
    | _ => rfl

theorem advances_primary (count levels : Nat) : (primary count levels).Advances := by
  intro words position value rest hread
  rw [← operand_eq_primary count levels (head?_of_primary hread)] at hread
  exact advances_operand count (levels + 1) words position value rest hread

/-! ## The loops end by themselves -/

/-- A loop over operators that may have a round for every word may as well have any other number of
them. -/
theorem chainFrom_eq_of_le {reader : Reader Expression} (hreader : reader.Advances)
    (operator? : Lexeme → Option Arithmetic) {rounds rounds' : Nat} {lexemes : List Lexeme}
    (hrounds : lexemes.length ≤ rounds) (hrounds' : lexemes.length ≤ rounds')
    (left : Expression) :
    chainFrom reader operator? rounds left lexemes =
      chainFrom reader operator? rounds' left lexemes := by
  induction rounds generalizing rounds' lexemes left with
  | zero =>
    obtain rfl := List.length_eq_zero_iff.1 (Nat.le_zero.1 hrounds)
    cases rounds' <;> rfl
  | succ rounds ih =>
    cases lexemes with
    | nil => cases rounds' <;> rfl
    | cons lexeme rest =>
      cases rounds' with
      | zero => cases hrounds'
      | succ rounds' =>
        rw [List.length_cons] at hrounds hrounds'
        rw [chainFrom, chainFrom]
        rcases operator? lexeme with _ | op
        · rfl
        · -- A round takes the operator and at least one word more.
          rcases hright : reader rest with error | ⟨right, behind⟩
          · rfl
          · have hlt := hreader.length_lt hright
            exact ih (by omega) (by omega) _

/-- A chain of operators is its first operand and then the loop, with a round for every word or with
more of them. -/
theorem chain_eq_of_le {reader : Reader Expression} (hreader : reader.Advances)
    (operator? : Lexeme → Option Arithmetic) {rounds : Nat} {lexemes : List Lexeme}
    (hrounds : lexemes.length ≤ rounds) :
    chain reader operator? lexemes =
      reader lexemes >>= fun first => chainFrom reader operator? rounds first.1 first.2 := by
  rw [chain]
  rcases hfirst : reader lexemes with error | ⟨left, rest⟩
  · rfl
  · have hlt := hreader.length_lt hfirst
    exact chainFrom_eq_of_le hreader operator? (Nat.le_refl _) (by omega) left

/-- The same for the loop over arguments, which takes a round even where nothing follows. -/
theorem argumentsFrom_eq_of_lt {reader : Reader Expression} (hreader : reader.Advances)
    {rounds rounds' : Nat} {lexemes : List Lexeme} (hrounds : lexemes.length < rounds)
    (hrounds' : lexemes.length < rounds') :
    argumentsFrom reader rounds lexemes = argumentsFrom reader rounds' lexemes := by
  induction rounds generalizing rounds' lexemes with
  | zero => cases hrounds
  | succ rounds ih =>
    obtain ⟨rounds', rfl⟩ : ∃ r, rounds' = r + 1 := ⟨rounds' - 1, by omega⟩
    rw [argumentsFrom, argumentsFrom]
    rcases hfirst : reader lexemes with error | ⟨first, rest⟩
    · rfl
    · have hlt := hreader.length_lt hfirst
      -- Only a comma leads to another round, and it is one more word.
      cases rest with
      | nil => rfl
      | cons lexeme rest =>
        rw [List.length_cons] at hlt
        cases lexeme with
        | comma =>
          have hrest : argumentsFrom reader rounds rest = argumentsFrom reader rounds' rest :=
            ih (by omega) (by omega)
          simp only [bind, Except.bind, hrest]
        | _ => rfl

/-- The arguments of a call that is not empty are read by the loop. -/
theorem arguments_eq_argumentsFrom (reader : Reader Expression) {lexemes : List Lexeme}
    (hclosing : lexemes.head? ≠ some .closing) :
    arguments reader lexemes = argumentsFrom reader (lexemes.length + 1) lexemes := by
  rw [arguments.eq_2]
  rintro rest rfl
  exact hclosing rfl

/-- The same with one round more than there are words, or with more of them. -/
theorem arguments_eq_of_le {reader : Reader Expression} (hreader : reader.Advances)
    {rounds : Nat} {lexemes : List Lexeme} (hclosing : lexemes.head? ≠ some .closing)
    (hrounds : lexemes.length ≤ rounds) :
    arguments reader lexemes = argumentsFrom reader (rounds + 1) lexemes := by
  rw [arguments_eq_argumentsFrom reader hclosing]
  exact argumentsFrom_eq_of_lt hreader (Nat.lt_succ_self _) (Nat.lt_succ_of_le hrounds)

/-! ## Nesting is limited by the check of the depth -/

/-- An outcome of reading some words with a number of levels of nesting, beside the outcome with
other levels: it is to give up for depth, with as many words as levels, or else both are the same
and neither of them is to give up. -/
def IsLimited (levels : Nat) (lexemes : List Lexeme) (outcome other : Except SyntaxError α) :
    Prop :=
  (outcome = .error .tooDeep ∧ levels ≤ lexemes.length) ∨
    (outcome ≠ .error .tooDeep ∧ other = outcome)

/-- The reader has a number of levels of nesting, and it does as the other one unless it gives up
for depth. -/
def Reader.LimitedBy (levels : Nat) (reader other : Reader α) : Prop :=
  ∀ lexemes, IsLimited levels lexemes (reader lexemes) (other lexemes)

section Limited

variable {levels : Nat} {lexemes : List Lexeme}

/-- An outcome that levels do not matter for. -/
theorem isLimited_of_ne {outcome : Except SyntaxError α} (h : outcome ≠ .error .tooDeep) :
    IsLimited levels lexemes outcome outcome :=
  .inr ⟨h, rfl⟩

/-- Fewer levels and more words. -/
theorem IsLimited.mono {levels' : Nat} {lexemes' : List Lexeme}
    {outcome other : Except SyntaxError α} (h : IsLimited levels lexemes outcome other)
    (hle : levels' + lexemes.length ≤ levels + lexemes'.length) :
    IsLimited levels' lexemes' outcome other :=
  h.imp_left fun hdeep => ⟨hdeep.1, by have := hdeep.2; omega⟩

/-- Reading on. -/
theorem IsLimited.bind {outcome other : Except SyntaxError α}
    {next next' : α → Except SyntaxError β} (h : IsLimited levels lexemes outcome other)
    (hnext : ∀ value, outcome = .ok value →
      IsLimited levels lexemes (next value) (next' value)) :
    IsLimited levels lexemes (outcome >>= next) (other >>= next') := by
  rcases h with ⟨rfl, hlevels⟩ | ⟨hne, rfl⟩
  · exact .inl ⟨rfl, hlevels⟩
  · cases other with
    | error error =>
      refine .inr ⟨fun heq => hne ?_, rfl⟩
      exact congrArg Except.error (Except.error.inj heq)
    | ok value => exact hnext value rfl

variable {reader other : Reader Expression}

theorem Reader.LimitedBy.chainFrom (h : reader.LimitedBy levels other) (hreader : reader.Advances)
    (operator? : Lexeme → Option Arithmetic) (rounds : Nat) (left : Expression) :
    Reader.LimitedBy levels (Expression.chainFrom reader operator? rounds left)
      (Expression.chainFrom other operator? rounds left) := by
  induction rounds generalizing left with
  | zero => exact fun lexemes => isLimited_of_ne (by rintro ⟨⟩)
  | succ rounds ih =>
    intro lexemes
    cases lexemes with
    | nil => exact isLimited_of_ne (by rintro ⟨⟩)
    | cons lexeme rest =>
      rw [Expression.chainFrom, Expression.chainFrom]
      rcases operator? lexeme with _ | op
      · exact isLimited_of_ne (by rintro ⟨⟩)
      · refine ((h rest).mono (by simp)).bind fun read hread => ?_
        have hlt := hreader.length_lt hread
        exact (ih _ read.2).mono (by rw [List.length_cons]; omega)

theorem Reader.LimitedBy.chain (h : reader.LimitedBy levels other) (hreader : reader.Advances)
    (operator? : Lexeme → Option Arithmetic) :
    Reader.LimitedBy levels (Expression.chain reader operator?)
      (Expression.chain other operator?) := by
  intro lexemes
  refine (h lexemes).bind fun read hread => ?_
  have hlt := hreader.length_lt hread
  exact (h.chainFrom hreader operator? _ read.1 read.2).mono (by omega)

theorem Reader.LimitedBy.argumentsFrom (h : reader.LimitedBy levels other)
    (hreader : reader.Advances) (rounds : Nat) :
    Reader.LimitedBy levels (Expression.argumentsFrom reader rounds)
      (Expression.argumentsFrom other rounds) := by
  induction rounds with
  | zero => exact fun lexemes => isLimited_of_ne (by rintro ⟨⟩)
  | succ rounds ih =>
    intro lexemes
    rw [Expression.argumentsFrom, Expression.argumentsFrom]
    refine (h lexemes).bind fun read hread => ?_
    have hlt := hreader.length_lt hread
    obtain ⟨first, rest⟩ := read
    cases rest with
    | nil => exact isLimited_of_ne (by rintro ⟨⟩)
    | cons lexeme rest =>
      rw [List.length_cons] at hlt
      cases lexeme with
      | comma => exact ((ih rest).mono (by omega)).bind fun _ _ => isLimited_of_ne (by rintro ⟨⟩)
      | _ => exact isLimited_of_ne (by rintro ⟨⟩)

theorem Reader.LimitedBy.arguments (h : reader.LimitedBy levels other)
    (hreader : reader.Advances) :
    Reader.LimitedBy levels (Expression.arguments reader) (Expression.arguments other) := by
  intro lexemes
  by_cases hclosing : lexemes.head? = some .closing
  · obtain ⟨rest, rfl⟩ := List.head?_eq_some_iff.1 hclosing
    exact isLimited_of_ne (by rintro ⟨⟩)
  · rw [arguments_eq_argumentsFrom reader hclosing, arguments_eq_argumentsFrom other hclosing]
    exact h.argumentsFrom hreader _ lexemes

end Limited

section Operands

variable (count : Nat) {levels levels' : Nat}

/-- Whether a parenthesis is closed does not depend on the depth. -/
theorem close_ne_tooDeep (inner : Expression) (lexemes : List Lexeme) :
    close inner lexemes ≠ .error .tooDeep := by
  intro hclose
  unfold close at hclose
  split at hclose <;> cases hclose

/-- Sums are limited as their operands are. -/
theorem limitedBy_sum (h : (operand count levels).LimitedBy levels (operand count levels')) :
    (sum (operand count levels)).LimitedBy levels (sum (operand count levels')) :=
  (h.chain (advances_operand count levels) multiplicative?).chain (advances_product count levels)
    additive?

/-- Operands without signs have a level and a word more than what is inside them. -/
theorem limitedBy_primary
    (h : (operand count levels).LimitedBy levels (operand count levels')) :
    (primary count levels).LimitedBy (levels + 1) (primary count levels') := by
  have hsum := limitedBy_sum count h
  have harguments := hsum.arguments (advances_sum count levels)
  intro lexemes
  cases lexemes with
  | nil => exact isLimited_of_ne (by rintro ⟨⟩)
  | cons lexeme rest =>
    cases lexeme with
    | name id =>
      cases rest with
      | nil => exact isLimited_of_ne (by rintro ⟨⟩)
      | cons next rest =>
        cases next with
        | opening =>
          refine ((harguments rest).mono ?_).bind fun _ _ => isLimited_of_ne (by rintro ⟨⟩)
          simp only [List.length_cons]
          omega
        | _ => exact isLimited_of_ne (by rintro ⟨⟩)
    | opening =>
      have hinner : IsLimited (levels + 1) (.opening :: rest) (sum (operand count levels) rest)
          (sum (operand count levels') rest) :=
        (hsum rest).mono (by rw [List.length_cons]; omega)
      exact hinner.bind fun read _ => isLimited_of_ne (close_ne_tooDeep read.1 read.2)
    | _ => exact isLimited_of_ne (by rintro ⟨⟩)

/-- Every level of nesting takes a word, so reading an operand gives up for depth only where there
are as many words as levels, and otherwise more levels make no difference. -/
theorem limitedBy_operand (hle : levels ≤ levels') :
    (operand count levels).LimitedBy levels (operand count levels') := by
  induction levels generalizing levels' with
  | zero => exact fun lexemes => .inl ⟨rfl, Nat.zero_le _⟩
  | succ levels ih =>
    obtain ⟨levels', rfl⟩ : ∃ n, levels' = n + 1 := ⟨levels' - 1, by omega⟩
    have hinner := ih (Nat.le_of_succ_le_succ hle)
    intro lexemes
    by_cases hsign : ∀ lexeme ∈ lexemes.head?, isSign lexeme = false
    · rw [operand_eq_primary count levels hsign, operand_eq_primary count levels' hsign]
      exact limitedBy_primary count hinner lexemes
    · -- A sign is a level of its own.
      cases lexemes with
      | nil => exact absurd (fun lexeme hmem => by cases hmem) hsign
      | cons lexeme rest =>
        have hrest : IsLimited (levels + 1) (lexeme :: rest) (operand count levels rest)
            (operand count levels' rest) :=
          (hinner rest).mono (by rw [List.length_cons]; omega)
        cases lexeme with
        | plus => exact hrest
        | minus => exact hrest.bind fun _ _ => isLimited_of_ne (by rintro ⟨⟩)
        | _ => exact absurd (fun lexeme hmem => by cases hmem; rfl) hsign

end Operands

/-- Wherever a reader of the parser reads in a list of words, at whatever depth, it ends at a later
position of the list if it succeeds. What its loops read does not depend on how many rounds they are
allowed, as long as there is one for every word; and what it reads does not depend on how many
levels of nesting are allowed, unless it gives up for depth, for which it takes a word for every
level. -/
theorem reading_advances (count depth : Nat) :
    let levels := nestingLimit + 1 - depth
    let unary := operand count levels
    (∀ lexemes, depth ≤ nestingLimit → (∀ lexeme ∈ lexemes.head?, isSign lexeme = false) →
      unary lexemes = primary count (nestingLimit - depth) lexemes) ∧
    ((sum unary).Advances ∧ (product unary).Advances ∧ unary.Advances ∧
      (primary count (nestingLimit - depth)).Advances ∧ (arguments (sum unary)).Advances) ∧
    (∀ lexemes rounds, lexemes.length ≤ rounds →
      sum unary lexemes = (product unary lexemes >>= fun first =>
        chainFrom (product unary) additive? rounds first.1 first.2) ∧
      product unary lexemes = (unary lexemes >>= fun first =>
        chainFrom unary multiplicative? rounds first.1 first.2) ∧
      (lexemes.head? ≠ some .closing →
        arguments (sum unary) lexemes = argumentsFrom (sum unary) (rounds + 1) lexemes)) ∧
    ∀ levels', levels ≤ levels' →
      (sum unary).LimitedBy levels (sum (operand count levels')) ∧
      (product unary).LimitedBy levels (product (operand count levels')) ∧
      unary.LimitedBy levels (operand count levels') ∧
      (primary count (nestingLimit - depth)).LimitedBy levels (primary count (levels' - 1)) ∧
      (arguments (sum unary)).LimitedBy levels (arguments (sum (operand count levels'))) := by
  intro levels unary
  have hunary : unary.Advances := advances_operand count levels
  have hproduct : (product unary).Advances := advances_product count levels
  have hsum : (sum unary).Advances := advances_sum count levels
  refine ⟨fun lexemes hdepth hsign => ?_,
    ⟨hsum, hproduct, hunary, advances_primary count _, advances_arguments count levels⟩,
    fun lexemes rounds hrounds => ⟨chain_eq_of_le hproduct additive? hrounds,
      chain_eq_of_le hunary multiplicative? hrounds,
      fun hclosing => arguments_eq_of_le hsum hclosing hrounds⟩,
    fun levels' hle => ?_⟩
  · have hlevels : levels = nestingLimit - depth + 1 := Nat.sub_add_comm hdepth
    rw [← operand_eq_primary count _ hsign, ← hlevels]
  -- Each reader stays within the limit of the operands that it is made of.
  · have hinner : nestingLimit - depth ≤ levels' - 1 := by omega
    have hoperand := limitedBy_operand count hle
    have hlimited := limitedBy_sum count hoperand
    refine ⟨hlimited, hoperand.chain hunary multiplicative?, hoperand, fun lexemes => ?_,
      hlimited.arguments hsum⟩
    refine (limitedBy_primary count (limitedBy_operand count hinner) lexemes).mono ?_
    omega

/-- In the middle of a text, behind the parenthesis that opens a call, the arguments of the call
are read up to its closing parenthesis. They are the same without a limit to the rounds and with
more levels of nesting. -/
theorem reading_advances_in_call :
    let words : List Lexeme :=
      [.name "f", .opening, .name "a", .comma, .minus, .name "b", .closing, .star, .name "c"]
    let reader := arguments (sum (operand words.length (nestingLimit + 1 - 1)))
    reader (words.drop 2) =
        .ok ([.name "a", .operation .negate [.name "b"]], words.drop 7) ∧
      (∃ next, 2 < next ∧ next ≤ words.length ∧ words.drop 7 = words.drop next) ∧
      reader (words.drop 2) =
        argumentsFrom (sum (operand words.length (nestingLimit + 1 - 1))) 101 (words.drop 2) ∧
      IsLimited (nestingLimit + 1 - 1) (words.drop 2) (reader (words.drop 2))
        (arguments (sum (operand words.length 100)) (words.drop 2)) := by
  intro words reader
  obtain ⟨-, ⟨-, -, -, -, hadvances⟩, hrounds, hlimited⟩ := reading_advances words.length 1
  have hread : reader (words.drop 2) =
      .ok ([.name "a", .operation .negate [.name "b"]], words.drop 7) := rfl
  have hlevels : nestingLimit + 1 - 1 ≤ 100 := by decide
  have hlength : (words.drop 2).length ≤ 100 := by decide
  exact ⟨hread, hadvances words 2 _ _ hread, (hrounds _ 100 hlength).2.2 nofun,
    (hlimited 100 hlevels).2.2.2.2 _⟩

end Expression

end MetricFormula
