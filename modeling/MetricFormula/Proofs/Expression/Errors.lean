import MetricFormula.Proofs.Expression.Words

/-!
# Errors in words

An arithmetic text is refused either because some of its characters make no word or because its
words stand in the wrong places. Parsing never complains of characters: once a text is split into
words, every error that follows is about their order, their number or their nesting. So a formula
that is refused for a character has no words.

## Main definitions

* `SyntaxError.isLexical`: the error is one in characters;
* `Expression.Reader.IsStructural`: a reader that complains of the order of words alone.

## Main results

* `Expression.isStructural_operand`: operands are read so, however deeply they nest;
* `Expression.ofLexemes_of_lexemeLimit_lt`: too many words are refused for their number;
* `Formula.scan_of_parse_eq_error`: a formula that is refused for its characters has no words.
-/

namespace MetricFormula

/-- The error is found in the characters of a text, before there are words. -/
def SyntaxError.isLexical : SyntaxError → Bool
  | invalidNumber _ | unexpectedCharacter _ => true
  | _ => false

namespace Expression

/-- The reader never complains of characters. -/
def Reader.IsStructural {α : Type} (reader : Reader α) : Prop :=
  ∀ lexemes error, reader lexemes = .error error → error.isLexical = false

variable {α β : Type} {reader : Reader α}

/-- Reading on with what was read. -/
theorem Reader.IsStructural.bind (h : reader.IsStructural) {lexemes : List Lexeme}
    {next : α × List Lexeme → Except SyntaxError β}
    (hnext : ∀ value rest error, next (value, rest) = .error error → error.isLexical = false)
    {error : SyntaxError} (herror : reader lexemes >>= next = .error error) :
    error.isLexical = false := by
  rcases bind_eq_error herror with hfirst | ⟨⟨value, rest⟩, -, hsecond⟩
  · exact h lexemes error hfirst
  · exact hnext value rest error hsecond

/-! ## Chains of operators -/

/-- The loop over operators has no errors but those of its operands. -/
theorem isStructural_chainFrom {operand : Reader Expression} (h : operand.IsStructural)
    (operator? : Lexeme → Option Arithmetic) (rounds : Nat) (left : Expression) :
    (chainFrom operand operator? rounds left).IsStructural := by
  induction rounds generalizing left with
  | zero =>
    intro lexemes error herror
    cases herror
  | succ rounds ih =>
    intro lexemes error herror
    cases lexemes with
    | nil => cases herror
    | cons lexeme rest =>
      rw [chainFrom] at herror
      split at herror
      next => cases herror
      next op _ => exact h.bind (fun right rest => ih _ rest) herror

/-- Neither has a chain of operators. -/
theorem isStructural_chain {operand : Reader Expression} (h : operand.IsStructural)
    (operator? : Lexeme → Option Arithmetic) : (chain operand operator?).IsStructural :=
  fun _ _ herror => h.bind (fun left rest => isStructural_chainFrom h operator? _ left rest) herror

theorem isStructural_sum {operand : Reader Expression} (h : operand.IsStructural) :
    (sum operand).IsStructural :=
  isStructural_chain (isStructural_chain h multiplicative?) additive?

/-! ## Arguments and parentheses -/

/-- The loop over arguments complains of what stands between two arguments, or of the end of the
words. -/
theorem isStructural_argumentsFrom {argument : Reader Expression} (h : argument.IsStructural)
    (rounds : Nat) : (argumentsFrom argument rounds).IsStructural := by
  induction rounds with
  | zero =>
    intro lexemes error herror
    cases herror
    rfl
  | succ rounds ih =>
    intro lexemes error herror
    rw [argumentsFrom] at herror
    refine h.bind (fun first rest error herror => ?_) herror
    -- What follows an argument is a parenthesis, a comma or wrong.
    dsimp only at herror
    split at herror
    next => cases herror
    next => exact ih.bind (fun others rest error herror => by cases herror) herror
    next =>
      cases herror
      rfl
    next =>
      cases herror
      rfl

/-- Arguments are read by the loop, unless there are none. -/
theorem isStructural_arguments {argument : Reader Expression} (h : argument.IsStructural) :
    (arguments argument).IsStructural := by
  intro lexemes error herror
  unfold arguments at herror
  split at herror
  next => cases herror
  next => exact isStructural_argumentsFrom h _ _ error herror

/-- Where a parenthesis is not closed, another word is found or none. -/
theorem isStructural_close (inner : Expression) : (close inner).IsStructural := by
  intro lexemes error herror
  unfold close at herror
  split at herror <;> cases herror <;> rfl

/-! ## Operands -/

/-- Reading operands never complains of characters, however deeply they nest. -/
theorem isStructural_operand (count levels : Nat) : (operand count levels).IsStructural := by
  induction levels with
  | zero =>
    intro lexemes error herror
    cases herror
    rfl
  | succ levels ih =>
    intro lexemes error herror
    unfold operand at herror
    -- The first words tell which operand is read; the readers inside have structural errors only.
    split at herror
    next =>
      cases herror
      rfl
    next => exact ih _ error herror
    next => exact ih.bind (fun inner rest error herror => by cases herror) herror
    next => cases herror
    next =>
      exact (isStructural_arguments (isStructural_sum ih)).bind
        (fun args rest error herror => by cases herror) herror
    next => cases herror
    next =>
      exact (isStructural_sum ih).bind (fun inner rest => isStructural_close inner rest) herror
    next =>
      cases herror
      rfl

/-- Words are never refused for their characters. -/
theorem isLexical_of_ofLexemes {lexemes : List Lexeme} {error : SyntaxError}
    (h : ofLexemes lexemes = .error error) : error.isLexical = false := by
  unfold ofLexemes at h
  dsimp only at h
  split at h
  next =>
    cases h
    rfl
  next =>
    split at h
    next =>
      cases h
      rfl
    next =>
      refine (isStructural_sum (isStructural_operand _ _)).bind (fun e rest error herror => ?_) h
      split at herror
      next => cases herror
      next =>
        cases herror
        rfl

/-- Too many words are refused for their number, whatever they are. -/
theorem ofLexemes_of_lexemeLimit_lt {lexemes : List Lexeme} (h : lexemeLimit < lexemes.length) :
    ofLexemes lexemes = .error (.tooLong lexemes.length) := by
  have hlength : lexemes.length ≠ 0 := Nat.ne_of_gt (Nat.lt_of_le_of_lt (Nat.zero_le _) h)
  unfold ofLexemes
  dsimp only
  rw [if_neg hlength, if_pos h]
  rfl

end Expression

/-- A formula that is refused for its characters has no words. -/
theorem Formula.scan_of_parse_eq_error {formula : List Char} {error : SyntaxError}
    (h : parse formula = .error (.syntactic error)) (hlexical : error.isLexical) :
    Lexeme.scan (formula.filter (!isBrace ·)) = .error error := by
  rw [← Lexeme.scan_withoutBraces]
  unfold parse at h
  dsimp only at h
  split at h
  next => cases h
  next =>
    obtain ⟨error', herror, heq⟩ := mapError_eq_error h
    cases heq
    rcases bind_eq_error herror with hscan | ⟨words, -, hwords⟩
    · exact hscan
    · cases hlexical.symm.trans (Expression.isLexical_of_ofLexemes hwords)

end MetricFormula
