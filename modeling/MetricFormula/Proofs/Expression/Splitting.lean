import MetricFormula.Proofs.Expression.Spelling

/-!
# How a text splits into words

Scanning reads character by character with a word pending. Seen from its result, a text splits into
separators and longest runs: every separator contributes what it is, and every number and every name
is a run of characters of its kind that the next character does not go on with. In a text that
spells an expression no two runs touch, so a name stands alone between characters of other kinds.

## Main definitions

* `Lexeme.Splits`: a text splits into words;
* `Text.IsMaximalRun`: a text stands in another one as a longest run of identifier characters;
* `Text.opensParenthesis`: a text begins with an opening parenthesis.

## Main results

* `Lexeme.splits_of_scan`: scanning splits a text;
* `Lexeme.Splits.isMaximalRun`: the names among spelled words are longest runs of the text;
* `Lexeme.Splits.exists_infix_of_number_mem`: the numbers among words are read from the text;
* `Lexeme.Splits.forall_of_typed`: without letters and commas there are no names and commas;
* `Lexeme.Splits.head?_eq_opening_iff`: when the first word opens a parenthesis.
-/

namespace MetricFormula

/-- The text stands in another one as a longest run of identifier characters: the characters next to
it, if there are any, are of other kinds. -/
def Text.IsMaximalRun (run text : List Char) : Prop :=
  run ≠ [] ∧ (∀ c ∈ run, isIdentifierPart c) ∧
    ∃ before after, text = before ++ (run ++ after) ∧
      (∀ c ∈ before.getLast?, isIdentifierPart c = false) ∧
      ∀ c ∈ after.head?, isIdentifierPart c = false

/-- The text begins with an opening parenthesis, apart from blanks. -/
def Text.opensParenthesis (text : List Char) : Bool :=
  (trimStart text).head? == some '('

/-- The first character decides, unless it is blank. -/
theorem Text.opensParenthesis_cons (c : Char) (text : List Char) :
    opensParenthesis (c :: text) = if isBlank c then opensParenthesis text else c == '(' := by
  rw [opensParenthesis, trimStart, List.dropWhile_cons]
  split <;> rfl

theorem Text.opensParenthesis_of_isIdentifierStart {c : Char} (h : isIdentifierStart c)
    (text : List Char) : opensParenthesis (c :: text) = false := by
  have hblank := isBlank_of_isIdentifierPart (isIdentifierPart_of_isIdentifierStart h)
  rw [opensParenthesis_cons, if_neg (ne_true_of_eq_false hblank), beq_eq_false_iff_ne]
  rintro rfl
  cases h

namespace Lexeme

/-- A text splits into words: separators contribute what they are, and numbers and names are runs of
their characters that end where another character follows. -/
inductive Splits : List Char → List Lexeme → Prop
  /-- There are no words in nothing. -/
  | nil : Splits [] []
  /-- A separator. -/
  | separator {c : Char} {single : List Lexeme} (h : separator? c = some single) {text : List Char}
    {words : List Lexeme} (hrest : Splits text words) : Splits (c :: text) (single ++ words)
  /-- A number. -/
  | number {run : List Char} {d : Decimal} (hne : run ≠ []) (hrun : ∀ c ∈ run, isNumberPart c)
    (hread : Decimal.ofPositional? run = some d) {text : List Char} {words : List Lexeme}
    (hends : ∀ c ∈ text.head?, isNumberPart c = false) (hrest : Splits text words) :
    Splits (run ++ text) (.number (.ofDecimal false d) :: words)
  /-- A name. -/
  | name {run : List Char} (hrun : Text.isIdentifier run) {text : List Char}
    {words : List Lexeme} (hends : ∀ c ∈ text.head?, Text.isIdentifierPart c = false)
    (hrest : Splits text words) : Splits (run ++ text) (.name (String.ofList run) :: words)

/-! ## Scanning splits -/

/-- The characters of the pending word. -/
def Pending.chars : Pending → List Char
  | nothing => []
  | number reversed | name reversed => reversed.reverse

/-- The pending word is a run of characters of its kind. -/
def Pending.IsRun : Pending → Prop
  | nothing => True
  | number reversed => reversed ≠ [] ∧ ∀ c ∈ reversed, isNumberPart c
  | name reversed => Text.isIdentifier reversed.reverse

/-- A character separates words, or it begins a number or a name. -/
theorem start_eq_ok {c : Char} {single : List Lexeme} {next : Pending}
    (h : start c = .ok (single, next)) :
    (separator? c = some single ∧ next = .nothing) ∨
      (single = [] ∧ isNumberPart c ∧ next = .number [c]) ∨
      (single = [] ∧ Text.isIdentifierStart c ∧ next = .name [c]) := by
  unfold start at h
  split at h
  next hblank =>
    cases h
    exact .inl ⟨separator?_of_isBlank hblank, rfl⟩
  next hblank =>
    split at h
    next lexeme hchar =>
      cases h
      refine .inl ⟨?_, rfl⟩
      rw [separator?, if_neg hblank, hchar]
      rfl
    next =>
      split at h
      next hnumber =>
        cases h
        exact .inr (.inl ⟨rfl, hnumber, rfl⟩)
      next =>
        split at h
        next hname =>
          cases h
          exact .inr (.inr ⟨rfl, hname, rfl⟩)
        next => cases h

/-- A character that the pending word goes on with is one more of its run. -/
theorem Pending.IsRun.extend? {pending extended : Pending} {c : Char} (hpending : pending.IsRun)
    (h : pending.extend? c = some extended) :
    extended.IsRun ∧ extended.chars = pending.chars ++ [c] := by
  cases pending with
  | nothing => cases h
  | number reversed =>
    rw [Pending.extend?] at h
    split at h
    next hc =>
      cases h
      exact ⟨⟨List.cons_ne_nil _ _, List.forall_mem_cons.2 ⟨hc, hpending.2⟩⟩, List.reverse_cons⟩
    next => cases h
  | name reversed =>
    -- What is read of a name is an identifier all along.
    have hscanned : (Pending.name reversed).IsScanned := hpending
    have hextended := isScanned_of_extend? hscanned h
    rw [Pending.extend?] at h
    split at h
    next =>
      cases h
      exact ⟨hextended, List.reverse_cons⟩
    next => cases h

/-- A pending word that is completed is a run if the next character does not go on with it. -/
theorem Pending.IsRun.finish {pending : Pending} (hpending : pending.IsRun)
    {finished : List Lexeme} (h : pending.finish = .ok finished) {text : List Char}
    (hends : ∀ c ∈ text.head?, pending.extend? c = none) {words : List Lexeme}
    (hrest : Splits text words) : Splits (pending.chars ++ text) (finished ++ words) := by
  cases pending with
  | nothing =>
    cases h
    exact hrest
  | number reversed =>
    rw [Pending.finish] at h
    split at h
    next d hread =>
      cases h
      refine .number (by simpa using hpending.1) (by simpa using hpending.2) hread ?_ hrest
      intro c hc
      simpa [Pending.extend?] using hends c hc
    next => cases h
  | name reversed =>
    cases h
    refine .name hpending (fun c hc => ?_) hrest
    simpa [Pending.extend?] using hends c hc

theorem splits_of_scanFrom {pending : Pending} (hpending : pending.IsRun) {text : List Char}
    {words : List Lexeme} (h : scanFrom pending text = .ok words) :
    Splits (pending.chars ++ text) words := by
  induction text generalizing pending words with
  | nil =>
    simpa only [List.append_nil] using hpending.finish h (by simp) .nil
  | cons c text ih =>
    rw [scanFrom] at h
    split at h
    next extended hextend =>
      -- The word that is being read goes on.
      obtain ⟨hrun, hchars⟩ := hpending.extend? hextend
      have hsplits := ih hrun h
      rwa [hchars, List.append_assoc] at hsplits
    next hextend =>
      obtain ⟨finished, hfinish, h⟩ := bind_eq_ok h
      obtain ⟨⟨single, next⟩, hstart, h⟩ := bind_eq_ok h
      obtain ⟨rest, hrest, h⟩ := bind_eq_ok h
      cases h
      -- It ends here, and `c` separates it from the next one or begins that.
      have hnext : Splits (c :: text) (single ++ rest) := by
        rcases start_eq_ok hstart with ⟨hseparator, rfl⟩ | ⟨rfl, hc, rfl⟩ | ⟨rfl, hc, rfl⟩
        · have hnothing : Pending.nothing.IsRun := trivial
          exact .separator hseparator (ih hnothing hrest)
        · have hnumber : (Pending.number [c]).IsRun :=
            ⟨List.cons_ne_nil _ _, List.forall_mem_singleton.2 hc⟩
          exact ih hnumber hrest
        · have hname : (Pending.name [c]).IsRun := Bool.and_eq_true_iff.2 ⟨hc, rfl⟩
          exact ih hname hrest
      rw [List.append_assoc]
      refine hpending.finish hfinish (fun d hd => ?_) hnext
      cases hd
      exact hextend

/-- Scanning splits a text into its words. -/
theorem splits_of_scan {text : List Char} {words : List Lexeme} (h : scan text = .ok words) :
    Splits text words := by
  have hnothing : Pending.nothing.IsRun := trivial
  exact splits_of_scanFrom hnothing h

/-! ## Names are longest runs -/

theorem isIdentifierPart_of_separator? {c : Char} {single : List Lexeme}
    (h : separator? c = some single) : Text.isIdentifierPart c = false := by
  have hextend := extend?_eq_none_of_separator? h (.name [])
  simpa [Pending.extend?] using hextend

/-- Words that are separators are those of single characters. -/
theorem ofChar?_of_mem_separator? {c : Char} {single : List Lexeme}
    (h : separator? c = some single) : ∀ word ∈ single, ofChar? c = some word := by
  unfold separator? at h
  split at h
  next =>
    cases h
    exact List.forall_mem_nil _
  next =>
    obtain ⟨lexeme, hlexeme, rfl⟩ := Option.map_eq_some_iff.1 h
    exact List.forall_mem_singleton.2 hlexeme

theorem isName_of_separator? {c : Char} {single : List Lexeme} (h : separator? c = some single) :
    ∀ word ∈ single, word.isName = false := by
  intro word hword
  have hchar := ofChar?_of_mem_separator? h word hword
  unfold ofChar? at hchar
  split at hchar <;> cases hchar <;> rfl

namespace Splits

variable {text : List Char} {words : List Lexeme}

/-- Every name among the words of a text in which no operands touch is a run of it between other
characters, and a run at the very beginning is the first word. -/
theorem exists_append_of_mem (h : Splits text words) (hchain : words.IsChain MayPrecede)
    {id : String} (hmem : Lexeme.name id ∈ words) :
    ∃ before after, text = before ++ (id.toList ++ after) ∧
      (∀ c ∈ before.getLast?, Text.isIdentifierPart c = false) ∧
      (∀ c ∈ after.head?, Text.isIdentifierPart c = false) ∧
      (before = [] → words.head? = some (.name id)) := by
  induction h with
  | nil => cases hmem
  | @separator c single hseparator text words hrest ih =>
    have hmem : Lexeme.name id ∈ words := by
      rcases List.mem_append.1 hmem with hmem | hmem
      · cases isName_of_separator? hseparator _ hmem
      · exact hmem
    obtain ⟨before, after, rfl, hbefore, hafter, -⟩ := ih (List.isChain_append.1 hchain).2.1 hmem
    refine ⟨c :: before, after, rfl, fun d hd => ?_, hafter, nofun⟩
    -- In front of the run stands what stands there in the rest, or else the separator.
    cases before with
    | nil =>
      cases hd
      exact isIdentifierPart_of_separator? hseparator
    | cons first before => exact hbefore d (by rwa [List.getLast?_cons_cons] at hd)
  | @number run d hne hrun hread text words hends hrest ih =>
    have hmem : Lexeme.name id ∈ words := by simpa using hmem
    obtain ⟨hnext, hchain⟩ := List.isChain_cons.1 hchain
    obtain ⟨before, after, rfl, hbefore, hafter, hfirst⟩ := ih hchain hmem
    -- A name does not follow a number.
    have hbeforene : before ≠ [] := fun hnil => by
      obtain ⟨hname, -⟩ := hnext _ (hfirst hnil) rfl rfl
      cases hname
    refine ⟨run ++ before, after, (List.append_assoc _ _ _).symm, ?_, hafter, ?_⟩
    · rwa [List.getLast?_append_of_ne_nil _ hbeforene]
    · exact fun hnil => absurd (List.append_eq_nil_iff.1 hnil).2 hbeforene
  | @name run hrun text words hends hrest ih =>
    obtain ⟨hnext, hchain⟩ := List.isChain_cons.1 hchain
    rcases List.mem_cons.1 hmem with heq | hmem
    · cases heq
      exact ⟨[], text, by simp, by simp, hends, fun _ => rfl⟩
    · obtain ⟨before, after, rfl, hbefore, hafter, hfirst⟩ := ih hchain hmem
      -- Nor does it follow another name.
      have hbeforene : before ≠ [] := fun hnil => by
        obtain ⟨-, hopening⟩ := hnext _ (hfirst hnil) rfl rfl
        cases hopening
      refine ⟨run ++ before, after, (List.append_assoc _ _ _).symm, ?_, hafter, ?_⟩
      · rwa [List.getLast?_append_of_ne_nil _ hbeforene]
      · exact fun hnil => absurd (List.append_eq_nil_iff.1 hnil).2 hbeforene

/-- The names among the words of a text in which no operands touch are longest runs of it. -/
theorem isMaximalRun (h : Splits text words) (hchain : words.IsChain MayPrecede)
    (hscanned : ∀ word ∈ words, word.IsScanned) {id : String} (hmem : Lexeme.name id ∈ words) :
    Text.IsMaximalRun id.toList text := by
  obtain ⟨before, after, htext, hbefore, hafter, -⟩ := h.exists_append_of_mem hchain hmem
  have hid : Text.isIdentifier id.toList := hscanned _ hmem
  have hne : id.toList ≠ [] := fun hnil => by
    rw [hnil] at hid
    cases hid
  exact ⟨hne, Text.isIdentifierPart_of_mem hid, before, after, htext, hbefore, hafter⟩

/-- A number among the words of a text is read from a part of it. -/
theorem exists_infix_of_number_mem (h : Splits text words) {value : Binary64}
    (hmem : .number value ∈ words) :
    ∃ run d, run <:+: text ∧ Decimal.ofPositional? run = some d ∧ value = .ofDecimal false d := by
  induction h with
  | nil => cases hmem
  | @separator c single hseparator text words _ ih =>
    have hnumber : .number value ∉ single := fun hmem => by
      have hchar := ofChar?_of_mem_separator? hseparator _ hmem
      unfold ofChar? at hchar
      split at hchar <;> cases hchar
    obtain ⟨run, d, hpart, hread⟩ := ih ((List.mem_append.1 hmem).resolve_left hnumber)
    exact ⟨run, d, hpart.trans (List.suffix_cons c text).isInfix, hread⟩
  | @number run d _ _ hread text words _ _ ih =>
    rcases List.mem_cons.1 hmem with heq | hmem
    · exact ⟨run, d, (List.prefix_append run text).isInfix, hread, Lexeme.number.inj heq⟩
    · obtain ⟨other, d, hpart, hread⟩ := ih hmem
      exact ⟨other, d, hpart.trans (List.suffix_append run text).isInfix, hread⟩
  | @name run _ text words _ _ ih =>
    have hmem : .number value ∈ words := by simpa using hmem
    obtain ⟨other, d, hpart, hread⟩ := ih hmem
    exact ⟨other, d, hpart.trans (List.suffix_append run text).isInfix, hread⟩

/-! ## Words of texts of other kinds -/

/-- The words of a text that begins no identifier and has no comma are no names and no commas. -/
theorem forall_of_typed (h : Splits text words)
    (htyped : ∀ c ∈ text, Text.isIdentifierStart c = false ∧ c ≠ ',') :
    ∀ word ∈ words, word.isName = false ∧ word ≠ comma := by
  induction h with
  | nil => exact List.forall_mem_nil _
  | @separator c single hseparator text words _ ih =>
    obtain ⟨hc, htyped⟩ := List.forall_mem_cons.1 htyped
    refine List.forall_mem_append.2 ⟨fun word hword => ?_, ih htyped⟩
    refine ⟨isName_of_separator? hseparator word hword, ?_⟩
    rintro rfl
    -- Only a comma is a comma.
    have hchar := ofChar?_of_mem_separator? hseparator _ hword
    unfold ofChar? at hchar
    split at hchar <;> first | exact hc.2 rfl | cases hchar
  | number hne hrun hread hends _ ih =>
    exact List.forall_mem_cons.2 ⟨⟨rfl, nofun⟩, ih (List.forall_mem_append.1 htyped).2⟩
  | @name run hrun text words _ _ _ =>
    -- A name begins like an identifier.
    cases run with
    | nil => cases hrun
    | cons c run =>
      rw [Text.isIdentifier, Bool.and_eq_true] at hrun
      have hc := (htyped c (List.mem_append_left _ List.mem_cons_self)).1
      rw [hrun.1] at hc
      cases hc

/-- The first word of a text opens a parenthesis exactly if its first character does. -/
theorem head?_eq_opening_iff (h : Splits text words) :
    words.head? = some opening ↔ Text.opensParenthesis text := by
  induction h with
  | nil => simp [Text.opensParenthesis, Text.trimStart]
  | @separator c single hseparator text words _ ih =>
    rw [Text.opensParenthesis_cons]
    unfold separator? at hseparator
    split at hseparator
    next hblank =>
      cases hseparator
      rw [List.nil_append, if_pos hblank, ih]
    next hblank =>
      obtain ⟨lexeme, hlexeme, rfl⟩ := Option.map_eq_some_iff.1 hseparator
      rw [if_neg hblank]
      unfold ofChar? at hlexeme
      split at hlexeme <;> cases hlexeme <;> simp
  | @number run d hne hrun _ text words _ _ _ =>
    cases run with
    | nil => exact absurd rfl hne
    | cons c run =>
      have hpart := hrun c List.mem_cons_self
      -- The first character of a number is neither blank nor a parenthesis.
      have hblank : ¬Text.isBlank c := fun hblank => by
        rw [Text.isNumberPart_of_isBlank hblank] at hpart
        cases hpart
      have hc : (c == '(') = false := by
        rw [beq_eq_false_iff_ne]
        rintro rfl
        cases hpart
      rw [List.cons_append, Text.opensParenthesis_cons, if_neg hblank, hc]
      simp
  | @name run hrun text words _ _ _ =>
    cases run with
    | nil => cases hrun
    | cons c run =>
      rw [Text.isIdentifier, Bool.and_eq_true] at hrun
      rw [List.cons_append, Text.opensParenthesis_of_isIdentifierStart hrun.1]
      simp

end Splits

end Lexeme

end MetricFormula
