import MetricFormula.Formula.Parsing
import MetricFormula.Proofs.Outcome
import MetricFormula.Proofs.Text.Classes

/-!
# Words of a text in parts

How the words of an arithmetic text depend on its parts. A separator (a blank, a sign, a parenthesis
or a comma) ends every word, so what stands before it and what stands after it are scanned on their
own. Texts of one kind of characters are single words.

## Main definitions

* `Lexeme.separator?`: the words that a separator contributes.

## Main results

* `Lexeme.scan_separator`: scanning distributes over a separator;
* `Lexeme.scan_number` and `Lexeme.scan_identifier`: a number and an identifier are one word each;
* `Lexeme.scan_withoutBraces`: blanks at the ends of a formula make no words.
-/

namespace MetricFormula

namespace Lexeme

/-! ## Separators -/

/-- The words that a character contributes if it ends every word: none if it is blank, one if it is
a word by itself. -/
def separator? (c : Char) : Option (List Lexeme) :=
  if Text.isBlank c then some [] else (ofChar? c).map ([·])

/-- A blank separates words without being one. -/
theorem separator?_of_isBlank {c : Char} (h : Text.isBlank c) : separator? c = some [] :=
  if_pos h

/-- A separator makes its own words and leaves nothing pending. -/
theorem start_eq_of_separator? {c : Char} {words : List Lexeme} (h : separator? c = some words) :
    start c = .ok (words, .nothing) := by
  unfold separator? at h
  split at h
  next hblank =>
    cases h
    exact start_eq_blank hblank
  next =>
    obtain ⟨lexeme, hlexeme, rfl⟩ := Option.map_eq_some_iff.1 h
    exact start_eq_single hlexeme

/-- No word goes on with a separator. -/
theorem extend?_eq_none_of_separator? {c : Char} {words : List Lexeme}
    (h : separator? c = some words) (pending : Pending) : pending.extend? c = none := by
  -- Neither blanks nor signs are parts of numbers or identifiers.
  have hparts : isNumberPart c = false ∧ Text.isIdentifierPart c = false := by
    unfold separator? at h
    split at h
    next hblank =>
      exact ⟨Text.isNumberPart_of_isBlank hblank, Text.isIdentifierPart_of_isBlank hblank⟩
    next =>
      obtain ⟨lexeme, hlexeme, -⟩ := Option.map_eq_some_iff.1 h
      have hsigns : signs.all fun c => !isNumberPart c && !Text.isIdentifierPart c := by decide
      have hparts := List.all_eq_true.1 hsigns c (mem_signs_of_ofChar? hlexeme)
      rwa [Bool.and_eq_true, Bool.not_eq_true', Bool.not_eq_true'] at hparts
  cases pending with
  | nothing => rfl
  | number reversed => exact if_neg (ne_true_of_eq_false hparts.1)
  | name reversed => exact if_neg (ne_true_of_eq_false hparts.2)

/-- The words of two texts with the words of a separator between them. -/
def joined (left : Except SyntaxError (List Lexeme)) (words : List Lexeme)
    (right : Except SyntaxError (List Lexeme)) : Except SyntaxError (List Lexeme) := do
  let left ← left
  let right ← right
  return left ++ words ++ right

/-- A pending word ends at the separator at the latest. -/
theorem scanFrom_separator {c : Char} {words : List Lexeme} (h : separator? c = some words)
    (pending : Pending) (u v : List Char) :
    scanFrom pending (u ++ c :: v) = joined (scanFrom pending u) words (scan v) := by
  induction u generalizing pending with
  | nil =>
    simp only [List.nil_append, scanFrom, extend?_eq_none_of_separator? h,
      start_eq_of_separator? h, joined, scan]
    rfl
  | cons d u ih =>
    rw [List.cons_append, scanFrom, scanFrom]
    rcases pending.extend? d with _ | extended
    · -- The words that end before `d` come first on both sides.
      rcases pending.finish with _ | finished
      · rfl
      rcases start d with _ | ⟨single, next⟩
      · rfl
      simp only [ih, joined, bind, Except.bind, pure, Except.pure]
      rcases scanFrom next u with _ | left
      · rfl
      rcases scan v with _ | right
      · rfl
      simp only [List.append_assoc]
    · exact ih extended

/-- Scanning distributes over a separator. -/
theorem scan_separator {c : Char} {words : List Lexeme} (h : separator? c = some words)
    (u v : List Char) : scan (u ++ c :: v) = joined (scan u) words (scan v) :=
  scanFrom_separator h .nothing u v

/-- A separator in front of a text adds its words in front. -/
theorem scan_separator_cons {c : Char} {words left : List Lexeme} {v : List Char}
    (h : separator? c = some words) (hv : scan v = .ok left) :
    scan (c :: v) = .ok (words ++ left) := by
  have hscan := scan_separator h [] v
  rw [List.nil_append, hv] at hscan
  exact hscan

/-- A separator between two texts that have words adds its own between them. -/
theorem scan_separator_ok {c : Char} {words left right : List Lexeme} {u v : List Char}
    (h : separator? c = some words) (hu : scan u = .ok left) (hv : scan v = .ok right) :
    scan (u ++ c :: v) = .ok (left ++ words ++ right) := by
  rw [scan_separator h, hu, hv]
  rfl

/-- A text with words is scanned in two parts around a separator. -/
theorem exists_of_scan_separator {c : Char} {words result : List Lexeme} {u v : List Char}
    (h : separator? c = some words) (hscan : scan (u ++ c :: v) = .ok result) :
    ∃ left right, scan u = .ok left ∧ scan v = .ok right ∧ result = left ++ words ++ right := by
  rw [scan_separator h, joined] at hscan
  obtain ⟨left, hleft, hscan⟩ := bind_eq_ok hscan
  obtain ⟨right, hright, hscan⟩ := bind_eq_ok hscan
  exact ⟨left, right, hleft, hright, (Except.ok.inj hscan).symm⟩

/-! ## Single words -/

/-- A character that begins a word leaves it pending. -/
theorem scan_cons_of_start {c : Char} {next : Pending} (h : start c = .ok ([], next))
    (text : List Char) : scan (c :: text) = scanFrom next text := by
  simp only [scan, scanFrom, Pending.extend?, Pending.finish, h, bind, Except.bind, pure,
    Except.pure]
  rcases scanFrom next text <;> rfl

/-- A pending number goes on to the end of its characters. -/
theorem scanFrom_number {text : List Char} (h : ∀ c ∈ text, isNumberPart c)
    (reversed : List Char) :
    scanFrom (.number reversed) text = (Pending.number (text.reverse ++ reversed)).finish := by
  induction text generalizing reversed with
  | nil => rfl
  | cons c text ih =>
    have hextend : (Pending.number reversed).extend? c = some (.number (c :: reversed)) :=
      if_pos (h c List.mem_cons_self)
    rw [scanFrom, hextend]
    rw [List.reverse_cons, List.append_assoc]
    exact ih (fun d hd => h d (List.mem_cons_of_mem c hd)) (c :: reversed)

/-- A pending name goes on to the end of its characters. -/
theorem scanFrom_name {text : List Char} (h : ∀ c ∈ text, Text.isIdentifierPart c)
    (reversed : List Char) :
    scanFrom (.name reversed) text =
      .ok [.name (String.ofList (reversed.reverse ++ text))] := by
  induction text generalizing reversed with
  | nil =>
    rw [List.append_nil]
    rfl
  | cons c text ih =>
    have hextend : (Pending.name reversed).extend? c = some (.name (c :: reversed)) :=
      if_pos (h c List.mem_cons_self)
    rw [scanFrom, hextend]
    refine (ih (fun d hd => h d (List.mem_cons_of_mem c hd)) (c :: reversed)).trans ?_
    rw [List.reverse_cons, List.append_assoc]
    rfl

/-- The text of a number is one word. -/
theorem scan_number {text : List Char} {d : Decimal} (hne : text ≠ [])
    (hparts : ∀ c ∈ text, isNumberPart c) (hread : Decimal.ofPositional? text = some d) :
    scan text = .ok [.number (.ofDecimal false d)] := by
  cases text with
  | nil => exact absurd rfl hne
  | cons c text =>
    rw [scan_cons_of_start (start_eq_number (hparts c List.mem_cons_self)),
      scanFrom_number fun d hd => hparts d (List.mem_cons_of_mem c hd)]
    have hreverse : (text.reverse ++ [c]).reverse = c :: text := by simp
    rw [Pending.finish, hreverse, hread]

/-- An identifier is one word. -/
theorem scan_identifier {text : List Char} (h : Text.isIdentifier text) :
    scan text = .ok [.name (String.ofList text)] := by
  cases text with
  | nil => cases h
  | cons c text =>
    obtain ⟨hstart, hparts⟩ := Bool.and_eq_true_iff.1 h
    rw [scan_cons_of_start (start_eq_name hstart),
      scanFrom_name fun d hd => List.all_eq_true.1 hparts d hd]
    rfl

/-! ## Blanks at the ends -/

theorem scan_blanks_append {blanks : List Char} (h : ∀ c ∈ blanks, Text.isBlank c)
    (text : List Char) : scan (blanks ++ text) = scan text := by
  induction blanks with
  | nil => rfl
  | cons c blanks ih =>
    rw [List.cons_append, ← ih fun d hd => h d (List.mem_cons_of_mem c hd)]
    have hscan := scan_separator (separator?_of_isBlank (h c List.mem_cons_self)) []
      (blanks ++ text)
    rw [List.nil_append] at hscan
    rw [hscan]
    rcases scan (blanks ++ text) <;> rfl

theorem scan_append_blanks {blanks : List Char} (h : ∀ c ∈ blanks, Text.isBlank c)
    (text : List Char) : scan (text ++ blanks) = scan text := by
  cases blanks with
  | nil => rw [List.append_nil]
  | cons c blanks =>
    -- The first blank separates the text from nothing.
    have hrest := scan_blanks_append (fun d hd => h d (List.mem_cons_of_mem c hd)) []
    rw [List.append_nil] at hrest
    rw [scan_separator (separator?_of_isBlank (h c List.mem_cons_self)), hrest]
    rcases scan text with _ | words
    · rfl
    · show Except.ok (words ++ [] ++ []) = Except.ok words
      rw [List.append_nil, List.append_nil]

end Lexeme

namespace Text

/-- A text is its trimmed text between blanks. -/
theorem exists_blanks_trim (text : List Char) :
    ∃ before after, (∀ c ∈ before, isBlank c) ∧ (∀ c ∈ after, isBlank c) ∧
      text = before ++ trim text ++ after := by
  have hstart := List.takeWhile_append_dropWhile (p := isBlank) (l := text)
  have hend := List.takeWhile_append_dropWhile (p := isBlank) (l := (trimStart text).reverse)
  refine ⟨text.takeWhile isBlank, ((trimStart text).reverse.takeWhile isBlank).reverse,
    fun c hc => List.all_eq_true.1 List.all_takeWhile c hc,
    fun c hc => List.all_eq_true.1 List.all_takeWhile c (List.mem_reverse.1 hc), ?_⟩
  have htrimmed : trimStart text =
      trim text ++ ((trimStart text).reverse.takeWhile isBlank).reverse := by
    rw [trim, trimEnd, ← List.reverse_append, hend, List.reverse_reverse]
  rw [List.append_assoc, ← htrimmed]
  exact hstart.symm

/-- The trimmed text is empty only if all of the text is blank. -/
theorem trim_ne_nil {text : List Char} (h : isBlankText text = false) : trim text ≠ [] := by
  intro hnil
  obtain ⟨before, after, hbefore, hafter, heq⟩ := exists_blanks_trim text
  rw [hnil, List.append_nil] at heq
  have hblank : ∀ c ∈ text, isBlank c := by
    rw [heq]
    exact List.forall_mem_append.2 ⟨hbefore, hafter⟩
  rw [isBlankText, List.all_eq_true.2 hblank] at h
  cases h

end Text

/-- Blanks at the ends of a formula make no words. -/
theorem Lexeme.scan_withoutBraces (formula : List Char) :
    scan (Formula.withoutBraces formula) = scan (formula.filter (!isBrace ·)) := by
  obtain ⟨before, after, hbefore, hafter, heq⟩ := Text.exists_blanks_trim formula
  have hfilter : formula.filter (!isBrace ·) =
      before.filter (!isBrace ·) ++ (Formula.withoutBraces formula ++
        after.filter (!isBrace ·)) := by
    conv => lhs; rw [heq]
    rw [List.filter_append, List.filter_append, List.append_assoc]
    rfl
  rw [hfilter, scan_blanks_append fun c hc => hbefore c (List.mem_filter.1 hc).1,
    scan_append_blanks fun c hc => hafter c (List.mem_filter.1 hc).1]

/-- A formula that parses has words, and they make its expression. -/
theorem Formula.exists_scan_of_parse {formula : List Char} {expression : Expression}
    (h : parse formula = .ok expression) :
    ∃ words, Lexeme.scan (withoutBraces formula) = .ok words ∧
      Expression.ofLexemes words = .ok expression := by
  unfold parse at h
  dsimp only at h
  split at h
  next => cases h
  next => exact bind_eq_ok (mapError_eq_ok_iff.1 h)

/-- A formula with words is parsed word by word. -/
theorem Formula.parse_eq_of_scan {formula : List Char} {words : List Lexeme}
    (hscan : Lexeme.scan (withoutBraces formula) = .ok words) (hne : words ≠ []) :
    parse formula = (Expression.ofLexemes words).mapError .syntactic := by
  have hblank : ¬Text.isBlankText (withoutBraces formula) := by
    intro hblank
    -- Blanks alone have no words.
    have hnothing := Lexeme.scan_blanks_append (List.all_eq_true.1 hblank) []
    rw [List.append_nil, hscan] at hnothing
    exact hne (Except.ok.inj hnothing)
  rw [parse, if_neg hblank, Expression.parse, hscan]
  rfl

end MetricFormula
