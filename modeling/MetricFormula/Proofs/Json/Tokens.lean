import Mathlib.Data.List.TakeWhile
import MetricFormula.Proofs.Json.Spellings

/-!
# Tokens of JSON texts

A JSON text is a row of tokens (punctuation marks, strings, numbers and words) with gaps between
them, and which document it holds depends on the tokens alone. Reading it does not make the tokens,
but each part of a document that is read stands for a row of tokens, and each row of tokens that
forms a part of a document is read as that part. What changes the gaps of a text only does not
change the document.

## Main definitions

* `IsGapText`: gaps between tokens;
* `Token`, `Token.IsText`: tokens and how they are written;
* `StartsWith`: a text starts with the given tokens;
* `Forms`: the tokens of a document or of a part of one.

## Main results

* `Forms.isReadFrom`: tokens that form a document are read as the document;
* `Document.parse?_eq_some_iff`: a text holds a document if it consists of tokens that form it.
-/

namespace MetricFormula.Json

/-! ## Gaps -/

/-- The text is a gap between parts of a document. -/
def IsGapText (text : List Char) : Prop :=
  ∀ c ∈ text, isGap c

/-- There may be no gap at all. -/
theorem isGapText_nil : IsGapText [] :=
  List.forall_mem_nil _

/-- Gaps are skipped up to the beginning of what they stand in front of. -/
theorem skipGaps_append {gap : List Char} (hgap : IsGapText gap) {c : Char} (hc : isGap c = false)
    (rest : List Char) : skipGaps (gap ++ c :: rest) = c :: rest := by
  have hdrop := @List.dropWhile_append_of_pos _ isGap gap (c :: rest) hgap
  rw [skipGaps, hdrop]
  exact List.dropWhile_cons_of_neg (by simp [hc])

/-- No number goes on with a gap. -/
theorem startsWithout_gap_append {gap rest : List Char} (hgap : IsGapText gap)
    (hrest : StartsWithout continuesNumber rest) :
    StartsWithout continuesNumber (gap ++ rest) := by
  cases gap with
  | nil => exact hrest
  | cons d gap =>
    refine startsWithout_cons ?_ _
    have hd := hgap d List.mem_cons_self
    simp only [isGap, Bool.or_eq_true, beq_iff_eq] at hd
    rcases hd with ((rfl | rfl) | rfl) | rfl <;> decide

/-- No number goes on with a gap at the end of a text. -/
theorem IsGapText.startsWithout {gap : List Char} (h : IsGapText gap) :
    StartsWithout continuesNumber gap := by
  have happend := startsWithout_gap_append h (startsWithout_nil continuesNumber)
  rwa [List.append_nil] at happend

/-- A number that ends at a gap or at the character behind it does not go on. -/
theorem startsWithout_gap {gap : List Char} (hgap : IsGapText gap) {c : Char}
    (hc : continuesNumber c = false) (rest : List Char) :
    StartsWithout continuesNumber (gap ++ c :: rest) :=
  startsWithout_gap_append hgap (startsWithout_cons hc rest)

/-! ## Tokens -/

/-- A part of a JSON text that holds no gaps between parts. -/
inductive Token
  /-- The literal `null`. -/
  | null
  /-- The literals `true` and `false`. -/
  | boolean (value : Bool)
  /-- A number. -/
  | number (literal : NumberLiteral)
  /-- A string. -/
  | string (value : Option String)
  /-- A punctuation mark. -/
  | mark (c : Char)

/-- The punctuation marks. -/
def marks : List Char :=
  ['\x7b', '\x7d', '[', ']', ',', ':']

/-- A token begins with the character. -/
def beginsToken (c : Char) : Bool :=
  c.isDigit || ['-', '"', 'n', 't', 'f'].contains c || marks.contains c

/-- What holds of all digits and of the other characters that tokens begin with. -/
theorem beginsToken_induction {P : Char → Bool} (hdigit : ∀ c, c.isDigit → P c)
    (hothers : (['-', '"', 'n', 't', 'f'] ++ marks).all P) {c : Char} (h : beginsToken c) :
    P c := by
  rw [beginsToken, Bool.or_assoc, Bool.or_eq_true, ← List.contains_append,
    List.contains_iff_mem] at h
  exact h.elim (hdigit c) (List.all_eq_true.1 hothers c)

/-- No token begins with a gap. -/
theorem isGap_eq_false_of_beginsToken {c : Char} (h : beginsToken c) : isGap c = false := by
  rw [← Bool.not_eq_true']
  refine beginsToken_induction (P := fun c => !isGap c) (fun c hc => ?_) (by decide) h
  rw [Bool.not_eq_true', Bool.eq_false_iff]
  intro hgap
  simp only [isGap, Bool.or_eq_true, beq_iff_eq] at hgap
  rcases hgap with ((rfl | rfl) | rfl) | rfl <;> exact absurd hc (by decide)

namespace Token

/-- The text is one way to write the token. -/
inductive IsText : Token → List Char → Prop
  /-- The literal `null`. -/
  | null : IsText .null ['n', 'u', 'l', 'l']
  /-- The literals `true` and `false`. -/
  | boolean (value : Bool) : IsText (.boolean value)
      (if value then ['t', 'r', 'u', 'e'] else ['f', 'a', 'l', 's', 'e'])
  /-- A number begins with a minus sign or a digit. -/
  | number {literal : NumberLiteral} {c : Char} {text : List Char} :
      (c = '-' ∨ c.isDigit) → Takes readNumber continuesNumber (c :: text) literal →
      IsText (.number literal) (c :: text)
  /-- A string begins with a quote. -/
  | string {value : Option String} {text : List Char} :
      Takes readString (fun _ => false) text value → IsText (.string value) ('"' :: text)
  /-- A punctuation mark is a single character. -/
  | mark {c : Char} : c ∈ marks → IsText (.mark c) [c]

/-- The token may stand in front of the text. A number does not go on there. -/
def StandsBefore : Token → List Char → Prop
  | .number _, rest => StartsWithout continuesNumber rest
  | _, _ => True

/-- Every token may stand in front of a text that no number goes on with. -/
theorem standsBefore (token : Token) {rest : List Char}
    (h : StartsWithout continuesNumber rest) : token.StandsBefore rest := by
  cases token with
  | number => exact h
  | _ => trivial

/-- What is printed for a number is a way to write it. -/
theorem isText_text {literal : NumberLiteral} (h : literal.HasDigits) :
    (Token.number literal).IsText literal.text := by
  have htakes := takes_text h
  obtain ⟨c, rest, htext, hc⟩ := exists_text_eq_cons literal
  rw [htext] at htakes ⊢
  exact .number hc htakes

/-- What is printed for a string is a way to write it. -/
theorem isText_stringLiteral (value : Option String) :
    (Token.string value).IsText (stringLiteral value) := by
  obtain ⟨body, hbody, htakes⟩ := takes_stringLiteral value
  rw [hbody]
  exact .string htakes

/-- The first character of a token tells that a token begins. -/
theorem IsText.exists_eq_cons {token : Token} {text : List Char} (h : token.IsText text) :
    ∃ c rest, text = c :: rest ∧ beginsToken c := by
  cases h with
  | null => exact ⟨_, _, rfl, by decide⟩
  | boolean value => cases value <;> exact ⟨_, _, rfl, by decide⟩
  | number hc _ =>
    refine ⟨_, _, rfl, ?_⟩
    rcases hc with rfl | hc
    · decide
    · rw [beginsToken, hc, Bool.true_or, Bool.true_or]
  | string _ => exact ⟨_, _, rfl, by decide⟩
  | mark hc => exact ⟨_, _, rfl, by rw [beginsToken, List.contains_iff_mem.2 hc, Bool.or_true]⟩

/-- Another token than a punctuation mark begins with another character. -/
theorem IsText.exists_ne {token : Token} {text : List Char} (h : token.IsText text) {d : Char}
    (hd : d ∈ marks) (hne : token ≠ .mark d) : ∃ c rest, text = c :: rest ∧ c ≠ d := by
  cases h with
  | null => exact ⟨_, _, rfl, ne_of_mem_of_not_mem hd (by decide) |>.symm⟩
  | boolean value =>
    cases value <;> exact ⟨_, _, rfl, ne_of_mem_of_not_mem hd (by decide) |>.symm⟩
  | number hc _ =>
    refine ⟨_, _, rfl, ?_⟩
    rcases hc with rfl | hc
    · exact ne_of_mem_of_not_mem hd (by decide) |>.symm
    · have hmarks : marks.all (!Char.isDigit ·) := by decide
      have hdigit := List.all_eq_true.1 hmarks d hd
      rintro rfl
      rw [hc] at hdigit
      cases hdigit
  | string _ => exact ⟨_, _, rfl, ne_of_mem_of_not_mem hd (by decide) |>.symm⟩
  | mark hc => exact ⟨_, _, rfl, fun heq => hne (congrArg Token.mark heq)⟩

/-- No token holds control characters. -/
theorem IsText.isPlain {token : Token} {text : List Char} (h : token.IsText text) :
    IsPlain text := by
  cases h with
  | null => decide
  | boolean value => cases value <;> decide
  | number _ htakes => exact htakes.isPlain
  | string htakes => exact isPlain_cons.2 ⟨by decide, htakes.isPlain⟩
  | mark hc =>
    have hmarks : IsPlain marks := by decide
    exact List.forall_mem_singleton.2 (hmarks _ hc)

end Token

/-- The text starts with the tokens, gaps in front of each of them; the rest stands behind them. -/
inductive StartsWith : List Token → List Char → List Char → Prop
  /-- No tokens. -/
  | nil (rest : List Char) : StartsWith [] rest rest
  /-- A token in front of others. -/
  | cons {token : Token} {tokens : List Token} {gap text behind rest : List Char} :
      IsGapText gap → token.IsText text → token.StandsBefore behind →
      StartsWith tokens behind rest → StartsWith (token :: tokens) (gap ++ (text ++ behind)) rest

/-- A document or a part of one. -/
inductive Part
  /-- A value. -/
  | value (document : Document)
  /-- The items of an array and the bracket behind them. -/
  | items (items : List Document)
  /-- The members of an object and the brace behind them. -/
  | members (members : List (Option String × Document))

/-- The tokens form the part of a document. -/
inductive Forms : Part → List Token → Prop
  /-- The literal `null`. -/
  | null : Forms (.value .null) [.null]
  /-- The literals `true` and `false`. -/
  | boolean (value : Bool) : Forms (.value (.boolean value)) [.boolean value]
  /-- A number. -/
  | number (literal : NumberLiteral) : Forms (.value (.number literal)) [.number literal]
  /-- A string. -/
  | string (value : Option String) : Forms (.value (.string value)) [.string value]
  /-- An array without items. -/
  | emptyArray : Forms (.value (.array [])) [.mark '[', .mark ']']
  /-- An array with items. -/
  | array {items : List Document} {tokens : List Token} :
      Forms (.items items) tokens → Forms (.value (.array items)) (.mark '[' :: tokens)
  /-- An object without members. -/
  | emptyObject : Forms (.value (.object [])) [.mark '\x7b', .mark '\x7d']
  /-- An object with members. -/
  | object {members : List (Option String × Document)} {tokens : List Token} :
      Forms (.members members) tokens →
      Forms (.value (.object members)) (.mark '\x7b' :: tokens)
  /-- The last item. -/
  | lastItem {item : Document} {tokens : List Token} :
      Forms (.value item) tokens → Forms (.items [item]) (tokens ++ [.mark ']'])
  /-- An item before others. -/
  | nextItem {item : Document} {items : List Document} {tokens others : List Token} :
      Forms (.value item) tokens → Forms (.items items) others →
      Forms (.items (item :: items)) (tokens ++ .mark ',' :: others)
  /-- The last member. -/
  | lastMember (name : Option String) {value : Document} {tokens : List Token} :
      Forms (.value value) tokens →
      Forms (.members [(name, value)]) (.string name :: .mark ':' :: (tokens ++ [.mark '\x7d']))
  /-- A member before others. -/
  | nextMember (name : Option String) {value : Document}
      {members : List (Option String × Document)} {tokens others : List Token} :
      Forms (.value value) tokens → Forms (.members members) others →
      Forms (.members ((name, value) :: members))
        (.string name :: .mark ':' :: (tokens ++ .mark ',' :: others))

/-! ## Rows of tokens -/

section Rows

variable {token : Token} {tokens others : List Token} {text behind rest : List Char}

/-- A mark stands in front of any row, since no character goes on with it. -/
theorem StartsWith.cons_mark {gap : List Char} (hgap : IsGapText gap) {c : Char} (hc : c ∈ marks)
    (h : StartsWith tokens behind rest) :
    StartsWith (.mark c :: tokens) (gap ++ c :: behind) rest :=
  .cons hgap (.mark hc) trivial h

/-- A row of tokens stands behind another one. -/
theorem StartsWith.append (h : StartsWith tokens text behind)
    (hothers : StartsWith others behind rest) : StartsWith (tokens ++ others) text rest := by
  induction h with
  | nil => exact hothers
  | cons hgap htext hbefore _ ih => exact .cons hgap htext hbefore (ih hothers)

/-- A text of two rows is cut where the first one ends. -/
theorem startsWith_append (h : StartsWith (tokens ++ others) text rest) :
    ∃ behind, StartsWith tokens text behind ∧ StartsWith others behind rest := by
  induction tokens generalizing text with
  | nil => exact ⟨text, .nil text, h⟩
  | cons token tokens ih =>
    cases h with
    | cons hgap htext hbefore h =>
      obtain ⟨behind, htokens, hothers⟩ := ih h
      exact ⟨behind, .cons hgap htext hbefore htokens, hothers⟩

/-- Each token takes at least one character. -/
theorem StartsWith.length_le (h : StartsWith tokens text rest) :
    tokens.length + rest.length ≤ text.length := by
  induction h with
  | nil => exact Nat.le_of_eq (Nat.zero_add _)
  | @cons token tokens gap text behind rest _ htext _ _ ih =>
    obtain ⟨c, tail, rfl, -⟩ := htext.exists_eq_cons
    simp only [List.length_append, List.length_cons]
    omega

/-- Behind its gap, the text begins with the first token. -/
theorem StartsWith.skipGaps_eq (h : StartsWith (token :: tokens) text rest) :
    ∃ written behind, skipGaps text = written ++ behind ∧ token.IsText written ∧
      token.StandsBefore behind ∧ StartsWith tokens behind rest := by
  cases h with
  | @cons _ _ gap written behind _ hgap htext hbefore h =>
    obtain ⟨c, tail, rfl, hc⟩ := htext.exists_eq_cons
    exact ⟨c :: tail, behind, skipGaps_append hgap (isGap_eq_false_of_beginsToken hc) _, htext,
      hbefore, h⟩

/-- A gap may stand in front of the first token. -/
theorem StartsWith.of_skipGaps (h : StartsWith (token :: tokens) (Json.skipGaps text) rest) :
    StartsWith (token :: tokens) text rest := by
  -- The gap that was skipped is put together with the one that is left.
  have hbefore : IsGapText (text.takeWhile isGap) := List.all_eq_true.1 List.all_takeWhile
  have heq : text = text.takeWhile isGap ++ Json.skipGaps text :=
    List.takeWhile_append_dropWhile.symm
  generalize Json.skipGaps text = skipped at h heq
  rw [heq]
  cases h with
  | cons hgap htext hstands h =>
    rw [← List.append_assoc]
    exact .cons (List.forall_mem_append.2 ⟨hbefore, hgap⟩) htext hstands h

/-- A token that a text begins with behind its gap is the first one of a row. -/
theorem StartsWith.of_skipGaps_eq {written : List Char} (htext : token.IsText written)
    (hskip : Json.skipGaps text = written ++ behind) (hbefore : token.StandsBefore behind)
    (h : StartsWith tokens behind rest) : StartsWith (token :: tokens) text rest := by
  refine .of_skipGaps ?_
  rw [hskip]
  exact .cons isGapText_nil htext hbefore h

/-- So is a mark behind the gap. -/
theorem StartsWith.of_skipGaps_mark {c : Char} (hc : c ∈ marks)
    (hskip : Json.skipGaps text = c :: behind) (h : StartsWith tokens behind rest) :
    StartsWith (.mark c :: tokens) text rest :=
  .of_skipGaps_eq (.mark hc) hskip trivial h

/-- So is a string that is read behind its opening quote. -/
theorem StartsWith.of_skipGaps_string {value : Option String} {inner : List Char}
    (hskip : Json.skipGaps text = '"' :: inner) (hread : readString inner = some (value, behind))
    (h : StartsWith tokens behind rest) : StartsWith (.string value :: tokens) text rest := by
  obtain ⟨part, rfl, hpart⟩ := exists_takes_readString hread
  exact .of_skipGaps_eq (.string hpart) hskip trivial h

/-- The gap in front of the first token does not belong to it. -/
theorem StartsWith.skipGaps (h : StartsWith (token :: tokens) text rest) :
    StartsWith (token :: tokens) (skipGaps text) rest := by
  obtain ⟨written, behind, hskip, htext, hbefore, h⟩ := h.skipGaps_eq
  rw [hskip]
  exact .cons isGapText_nil htext hbefore h

/-- Behind its gap, the text begins with the mark that is its first token. -/
theorem StartsWith.skipGaps_mark {c : Char} (h : StartsWith (.mark c :: tokens) text rest) :
    ∃ behind, Json.skipGaps text = c :: behind ∧ StartsWith tokens behind rest := by
  obtain ⟨written, behind, hskip, htext, -, h⟩ := h.skipGaps_eq
  cases htext
  exact ⟨behind, hskip, h⟩

/-- Behind its gap, the text does not begin with a mark that is not its first token. -/
theorem StartsWith.exists_skipGaps_eq_cons {d : Char} (h : StartsWith (token :: tokens) text rest)
    (hd : d ∈ marks) (hne : token ≠ .mark d) :
    ∃ c tail, Json.skipGaps text = c :: tail ∧ c ≠ d := by
  obtain ⟨written, behind, hskip, htext, -, -⟩ := h.skipGaps_eq
  obtain ⟨c, tail, rfl, hc⟩ := htext.exists_ne hd hne
  exact ⟨c, tail ++ behind, hskip, hc⟩

/-- Behind an opening mark stands the first of the tokens inside, if it is not the closing mark. -/
theorem StartsWith.skipGaps_inside {c d : Char}
    (h : StartsWith (.mark c :: token :: tokens) text rest) (hd : d ∈ marks)
    (hne : token ≠ .mark d) :
    ∃ tail first inner, Json.skipGaps text = c :: tail ∧ Json.skipGaps tail = first :: inner ∧
      first ≠ d ∧ StartsWith (token :: tokens) (first :: inner) rest := by
  obtain ⟨tail, hskip, hstart⟩ := h.skipGaps_mark
  obtain ⟨first, inner, hinner, hfirst⟩ := hstart.exists_skipGaps_eq_cons hd hne
  have hbehind := hstart.skipGaps
  rw [hinner] at hbehind
  exact ⟨tail, first, inner, hskip, hinner, hfirst, hbehind⟩

/-- A text of two rows with a mark between them is cut in front of the mark and behind it. -/
theorem startsWith_append_mark {c : Char}
    (h : StartsWith (tokens ++ .mark c :: others) text rest) :
    ∃ behind after, StartsWith tokens text behind ∧ Json.skipGaps behind = c :: after ∧
      StartsWith others after rest := by
  obtain ⟨behind, htokens, hmark⟩ := startsWith_append h
  obtain ⟨after, hskip, hothers⟩ := hmark.skipGaps_mark
  exact ⟨behind, after, htokens, hskip, hothers⟩

/-- Behind its gap, the text begins with a quote, and the string that is its first token is read. -/
theorem StartsWith.skipGaps_string {value : Option String}
    (h : StartsWith (.string value :: tokens) text rest) :
    ∃ inner behind, Json.skipGaps text = '"' :: inner ∧ readString inner = some (value, behind) ∧
      StartsWith tokens behind rest := by
  obtain ⟨written, behind, hskip, htext, -, h⟩ := h.skipGaps_eq
  cases htext with
  | string htakes =>
    exact ⟨_, behind, hskip, htakes.read_append behind fun _ _ => rfl, h⟩

end Rows

/-! ## From tokens to documents -/

/-- The part is read from the text, up to the rest. -/
def Part.IsRead (fuel : Nat) (text rest : List Char) : Part → Prop
  | .value document => readValue fuel text = some (document, rest)
  | .items all => readItems fuel text = some (all, rest)
  | .members all => readMembers fuel text = some (all, rest)

section Reading

variable {fuel : Nat} {part : Part} {tokens : List Token} {text behind rest : List Char}

/-- What begins with a minus sign or a digit is read as a number. -/
theorem readValue_number {c : Char} {tail : List Char} (hc : c = '-' ∨ c.isDigit)
    (h : skipGaps text = c :: tail) :
    readValue (fuel + 1) text =
      (readNumber (c :: tail)).map fun (literal, rest) => (.number literal, rest) := by
  rw [readValue, h]
  -- No other kind of value begins with such a character.
  split
  case h_7 => rfl
  all_goals
    next heq =>
      cases heq
      exact absurd hc (by decide)

/-- Behind an opening bracket items are read, unless a closing one follows. -/
theorem readValue_array {c : Char} {tail inner : List Char} (h : skipGaps text = '[' :: tail)
    (hinner : skipGaps tail = c :: inner) (hc : c ≠ ']') :
    readValue (fuel + 1) text =
      (readItems fuel (c :: inner)).map fun (items, rest) => (.array items, rest) := by
  rw [readValue, h]
  simp only [hinner]
  split
  next heq => exact absurd (List.cons.inj heq).1 hc
  next => rfl

/-- Behind an opening brace members are read, unless a closing one follows. -/
theorem readValue_object {c : Char} {tail inner : List Char} (h : skipGaps text = '\x7b' :: tail)
    (hinner : skipGaps tail = c :: inner) (hc : c ≠ '\x7d') :
    readValue (fuel + 1) text =
      (readMembers fuel (c :: inner)).map fun (members, rest) => (.object members, rest) := by
  rw [readValue, h]
  simp only [hinner]
  split
  next heq => exact absurd (List.cons.inj heq).1 hc
  next => rfl

/-- Read what follows the value of a member. -/
def readNextMembers (fuel : Nat) (member : Option String × Document) (text : List Char) :
    Option (List (Option String × Document) × List Char) :=
  match skipGaps text with
  | '\x7d' :: rest => return ([member], rest)
  | ',' :: rest => do
    let (members, rest) ← readMembers fuel rest
    return (member :: members, rest)
  | _ => none

/-- Reading members begins with a name and the value behind its colon. -/
theorem readMembers_eq {inner behind before after : List Char} {name : Option String}
    {value : Document} (hquote : skipGaps text = '"' :: inner)
    (hname : readString inner = some (name, behind)) (hcolon : skipGaps behind = ':' :: before)
    (hvalue : readValue fuel before = some (value, after)) :
    readMembers (fuel + 1) text = readNextMembers fuel (name, value) after := by
  rw [readMembers]
  simp only [hquote, hname, hcolon, hvalue, Option.bind_eq_bind, Option.bind_some]
  rfl

/-- Members are read only where a name, a colon and a value stand. -/
theorem readMembers_cases {members : List (Option String × Document)}
    (h : readMembers (fuel + 1) text = some (members, rest)) :
    ∃ inner behind before after name value, skipGaps text = '"' :: inner ∧
      readString inner = some (name, behind) ∧ skipGaps behind = ':' :: before ∧
      readValue fuel before = some (value, after) ∧
      readNextMembers fuel (name, value) after = some (members, rest) := by
  rw [readMembers] at h
  split at h
  next inner hquote =>
    obtain ⟨⟨name, behind⟩, hname, h⟩ := Option.bind_eq_some_iff.1 h
    dsimp only at h
    split at h
    next before hcolon =>
      obtain ⟨⟨value, after⟩, hvalue, h⟩ := Option.bind_eq_some_iff.1 h
      exact ⟨inner, behind, before, after, name, value, hquote, hname, hcolon, hvalue, h⟩
    next => cases h
  next => cases h

/-- The first token of a part is no closing bracket or brace. -/
theorem Forms.exists_eq_cons (h : Forms part tokens) :
    ∃ token others, tokens = token :: others ∧ token ≠ .mark ']' ∧ token ≠ .mark '\x7d' := by
  induction h with
  | lastItem _ ih | nextItem _ _ ih _ =>
    obtain ⟨token, others, rfl, hne⟩ := ih
    exact ⟨token, _, rfl, hne⟩
  | _ => exact ⟨_, _, rfl, nofun, nofun⟩

/-- No number goes on with a mark. -/
theorem startsWithout_of_skipGaps {c : Char} (h : skipGaps text = c :: rest)
    (hc : continuesNumber c = false) : StartsWithout continuesNumber text := by
  have hgap : IsGapText (text.takeWhile isGap) := List.all_eq_true.1 List.all_takeWhile
  have heq : text = text.takeWhile isGap ++ skipGaps text :=
    List.takeWhile_append_dropWhile.symm
  rw [heq, h]
  exact startsWithout_gap hgap hc rest

/-! ### One lemma for each form -/

/-- Wherever a text starts with the tokens, they are read as the part, with a step of recursion for
each of them. -/
def Part.IsReadFrom (part : Part) (tokens : List Token) : Prop :=
  ∀ {fuel text rest}, tokens.length ≤ fuel → StartsWith tokens text rest →
    part.IsRead fuel text rest

section Forms

variable {items : List Document} {members : List (Option String × Document)} {item value : Document}
  {name : Option String} {others : List Token}

/-- One of the tokens gives the first step of recursion, and the others give the steps inside it. -/
theorem Part.isReadFrom_of_length {n : Nat} (hlength : tokens.length = n + 1)
    (h : ∀ {fuel text rest}, n ≤ fuel → StartsWith tokens text rest →
      part.IsRead (fuel + 1) text rest) : part.IsReadFrom tokens := by
  intro fuel text rest hfuel hstart
  rw [hlength] at hfuel
  obtain ⟨fuel, rfl⟩ := Nat.exists_eq_add_one.2 (Nat.zero_lt_of_lt hfuel)
  exact h (Nat.le_of_succ_le_succ hfuel) hstart

/-- The literal `null` is read from its letters. -/
theorem isReadFrom_null : (Part.value .null).IsReadFrom [.null] := by
  refine Part.isReadFrom_of_length rfl fun _ hstart => ?_
  obtain ⟨written, behind, hskip, htext, -, ⟨⟩⟩ := hstart.skipGaps_eq
  cases htext
  rw [Part.IsRead, readValue, hskip]
  rfl

/-- The literals `true` and `false` are read from their letters. -/
theorem isReadFrom_boolean (value : Bool) :
    (Part.value (.boolean value)).IsReadFrom [.boolean value] := by
  refine Part.isReadFrom_of_length rfl fun _ hstart => ?_
  obtain ⟨written, behind, hskip, htext, -, ⟨⟩⟩ := hstart.skipGaps_eq
  cases htext
  rw [Part.IsRead, readValue, hskip]
  cases value <;> rfl

/-- A number is read up to the text that it does not go on with. -/
theorem isReadFrom_number (literal : NumberLiteral) :
    (Part.value (.number literal)).IsReadFrom [.number literal] := by
  refine Part.isReadFrom_of_length rfl fun _ hstart => ?_
  obtain ⟨written, behind, hskip, htext, hbefore, ⟨⟩⟩ := hstart.skipGaps_eq
  cases htext with
  | number hc htakes =>
    have hread := htakes.read_append _ hbefore
    rw [List.cons_append] at hskip hread
    rw [Part.IsRead, readValue_number hc hskip, hread]
    rfl

/-- A string is read up to its closing quote. -/
theorem isReadFrom_string (value : Option String) :
    (Part.value (.string value)).IsReadFrom [.string value] := by
  refine Part.isReadFrom_of_length rfl fun _ hstart => ?_
  obtain ⟨inner, behind, hskip, hread, ⟨⟩⟩ := hstart.skipGaps_string
  rw [Part.IsRead, readValue, hskip]
  show (readString inner).map _ = _
  rw [hread]
  rfl

/-- A bracket right behind the opening one makes an array without items. -/
theorem isReadFrom_emptyArray : (Part.value (.array [])).IsReadFrom [.mark '[', .mark ']'] := by
  refine Part.isReadFrom_of_length rfl fun _ hstart => ?_
  obtain ⟨inner, hskip, hstart⟩ := hstart.skipGaps_mark
  obtain ⟨behind, hinner, ⟨⟩⟩ := hstart.skipGaps_mark
  rw [Part.IsRead, readValue, hskip]
  simp only [hinner]

/-- A brace right behind the opening one makes an object without members. -/
theorem isReadFrom_emptyObject :
    (Part.value (.object [])).IsReadFrom [.mark '\x7b', .mark '\x7d'] := by
  refine Part.isReadFrom_of_length rfl fun _ hstart => ?_
  obtain ⟨inner, hskip, hstart⟩ := hstart.skipGaps_mark
  obtain ⟨behind, hinner, ⟨⟩⟩ := hstart.skipGaps_mark
  rw [Part.IsRead, readValue, hskip]
  simp only [hinner]

/-- An array is read from the tokens of its items, which do not begin with a bracket. -/
theorem isReadFrom_array (hforms : Forms (.items items) tokens)
    (h : (Part.items items).IsReadFrom tokens) :
    (Part.value (.array items)).IsReadFrom (.mark '[' :: tokens) := by
  refine Part.isReadFrom_of_length rfl fun {fuel _ _} hfuel hstart => ?_
  obtain ⟨token, others, rfl, hne, -⟩ := hforms.exists_eq_cons
  obtain ⟨tail, c, inner, hskip, hinner, hc, hstart⟩ := hstart.skipGaps_inside (by decide) hne
  have hread : readItems fuel (c :: inner) = _ := h hfuel hstart
  rw [Part.IsRead, readValue_array hskip hinner hc, hread]
  rfl

/-- An object is read from the tokens of its members, which do not begin with a brace. -/
theorem isReadFrom_object (hforms : Forms (.members members) tokens)
    (h : (Part.members members).IsReadFrom tokens) :
    (Part.value (.object members)).IsReadFrom (.mark '\x7b' :: tokens) := by
  refine Part.isReadFrom_of_length rfl fun {fuel _ _} hfuel hstart => ?_
  obtain ⟨token, others, rfl, -, hne⟩ := hforms.exists_eq_cons
  obtain ⟨tail, c, inner, hskip, hinner, hc, hstart⟩ := hstart.skipGaps_inside (by decide) hne
  have hread : readMembers fuel (c :: inner) = _ := h hfuel hstart
  rw [Part.IsRead, readValue_object hskip hinner hc, hread]
  rfl

/-- The bracket behind an item makes it the last one. -/
theorem isReadFrom_lastItem (h : (Part.value item).IsReadFrom tokens) :
    (Part.items [item]).IsReadFrom (tokens ++ [.mark ']']) := by
  refine Part.isReadFrom_of_length List.length_append fun {fuel text _} hfuel hstart => ?_
  obtain ⟨behind, rest, hitem, hskip, ⟨⟩⟩ := startsWith_append_mark hstart
  have hread : readValue fuel text = _ := h hfuel hitem
  rw [Part.IsRead, readItems, hread]
  simp only [Option.bind_eq_bind, Option.bind_some, hskip]
  rfl

/-- The items behind a comma are read after the item in front of it. -/
theorem isReadFrom_nextItem (h : (Part.value item).IsReadFrom tokens)
    (hitems : (Part.items items).IsReadFrom others) :
    (Part.items (item :: items)).IsReadFrom (tokens ++ .mark ',' :: others) := by
  refine Part.isReadFrom_of_length List.length_append fun {fuel text _} hfuel hstart => ?_
  obtain ⟨behind, inner, hitem, hskip, hothers⟩ := startsWith_append_mark hstart
  have hread : readValue fuel text = _ := h (Nat.le_of_add_right_le hfuel) hitem
  have hreadItems : readItems fuel inner = _ := hitems (Nat.le_of_add_left_le hfuel) hothers
  rw [Part.IsRead, readItems, hread]
  simp only [Option.bind_eq_bind, Option.bind_some, hskip, hreadItems]
  rfl

/-- A name, a colon and the tokens of a value are read as the next member, and reading goes on
behind the value. -/
theorem exists_readMembers_eq {fuel : Nat} (h : (Part.value value).IsReadFrom tokens)
    (hfuel : tokens.length ≤ fuel)
    (hstart : StartsWith (.string name :: .mark ':' :: (tokens ++ others)) text rest) :
    ∃ after, readMembers (fuel + 1) text = readNextMembers fuel (name, value) after ∧
      StartsWith others after rest := by
  obtain ⟨inner, behind, hquote, hname, hstart⟩ := hstart.skipGaps_string
  obtain ⟨before, hcolon, hstart⟩ := hstart.skipGaps_mark
  obtain ⟨after, hvalue, hothers⟩ := startsWith_append hstart
  have hread : readValue fuel before = _ := h hfuel hvalue
  exact ⟨after, readMembers_eq hquote hname hcolon hread, hothers⟩

/-- The brace behind a member makes it the last one. -/
theorem isReadFrom_lastMember (h : (Part.value value).IsReadFrom tokens) :
    (Part.members [(name, value)]).IsReadFrom
      (.string name :: .mark ':' :: (tokens ++ [.mark '\x7d'])) := by
  refine Part.isReadFrom_of_length rfl fun {fuel _ _} hfuel hstart => ?_
  simp only [List.length_cons, List.length_append] at hfuel
  have hvalue : tokens.length ≤ fuel := by omega
  obtain ⟨after, hread, hend⟩ := exists_readMembers_eq h hvalue hstart
  obtain ⟨rest, hskip, ⟨⟩⟩ := hend.skipGaps_mark
  rw [Part.IsRead, hread, readNextMembers, hskip]
  rfl

/-- The members behind a comma are read after the member in front of it. -/
theorem isReadFrom_nextMember (h : (Part.value value).IsReadFrom tokens)
    (hmembers : (Part.members members).IsReadFrom others) :
    (Part.members ((name, value) :: members)).IsReadFrom
      (.string name :: .mark ':' :: (tokens ++ .mark ',' :: others)) := by
  refine Part.isReadFrom_of_length rfl fun {fuel _ _} hfuel hstart => ?_
  simp only [List.length_cons, List.length_append] at hfuel
  have hvalue : tokens.length ≤ fuel := by omega
  obtain ⟨after, hread, hnext⟩ := exists_readMembers_eq h hvalue hstart
  obtain ⟨inner, hskip, hothers⟩ := hnext.skipGaps_mark
  have hreadMembers : readMembers fuel inner = _ := hmembers (by omega) hothers
  rw [Part.IsRead, hread, readNextMembers, hskip]
  simp only [hreadMembers, Option.bind_eq_bind, Option.bind_some]
  rfl

end Forms

/-- Tokens that form a part of a document are read as that part. -/
theorem Forms.isReadFrom (h : Forms part tokens) : part.IsReadFrom tokens := by
  induction h with
  | null => exact isReadFrom_null
  | boolean value => exact isReadFrom_boolean value
  | number literal => exact isReadFrom_number literal
  | string value => exact isReadFrom_string value
  | emptyArray => exact isReadFrom_emptyArray
  | array hitems ih => exact isReadFrom_array hitems ih
  | emptyObject => exact isReadFrom_emptyObject
  | object hmembers ih => exact isReadFrom_object hmembers ih
  | lastItem _ ih => exact isReadFrom_lastItem ih
  | nextItem _ _ ih ihItems => exact isReadFrom_nextItem ih ihItems
  | lastMember name _ ih => exact isReadFrom_lastMember ih
  | nextMember name _ _ ih ihMembers => exact isReadFrom_nextMember ih ihMembers

/-! ## From documents to tokens -/

/-- With some fuel, the parts that are read are read from tokens that form them, if no number goes
on behind the tokens. -/
def IsFormed (fuel : Nat) : Prop :=
  ∀ {part text rest}, Part.IsRead fuel text rest part → StartsWithout continuesNumber rest →
    ∃ tokens, Forms part tokens ∧ StartsWith tokens text rest

/-- The items behind an opening bracket are read from tokens that form the array with it. -/
theorem IsFormed.array_of_items (ih : IsFormed fuel) {items : List Document} {inner : List Char}
    (hskip : skipGaps text = '[' :: inner)
    (hitems : readItems fuel (skipGaps inner) = some (items, rest))
    (hrest : StartsWithout continuesNumber rest) :
    ∃ tokens, Forms (.value (.array items)) tokens ∧ StartsWith tokens text rest := by
  have hread : Part.IsRead fuel (skipGaps inner) rest (.items items) := hitems
  obtain ⟨tokens, hforms, hstart⟩ := ih hread hrest
  -- There are tokens, so the gap that was skipped belongs to the first of them.
  obtain ⟨token, others, rfl, -⟩ := hforms.exists_eq_cons
  exact ⟨_, .array hforms, .of_skipGaps_mark (by decide) hskip hstart.of_skipGaps⟩

/-- The members behind an opening brace are read from tokens that form the object with it. -/
theorem IsFormed.object_of_members (ih : IsFormed fuel)
    {members : List (Option String × Document)} {inner : List Char}
    (hskip : skipGaps text = '\x7b' :: inner)
    (hmembers : readMembers fuel (skipGaps inner) = some (members, rest))
    (hrest : StartsWithout continuesNumber rest) :
    ∃ tokens, Forms (.value (.object members)) tokens ∧ StartsWith tokens text rest := by
  have hread : Part.IsRead fuel (skipGaps inner) rest (.members members) := hmembers
  obtain ⟨tokens, hforms, hstart⟩ := ih hread hrest
  obtain ⟨token, others, rfl, -⟩ := hforms.exists_eq_cons
  exact ⟨_, .object hforms, .of_skipGaps_mark (by decide) hskip hstart.of_skipGaps⟩

/-- One more step of recursion reads one more value. -/
theorem IsFormed.value_succ (ih : IsFormed fuel) {document : Document}
    (h : readValue (fuel + 1) text = some (document, rest))
    (hrest : StartsWithout continuesNumber rest) :
    ∃ tokens, Forms (.value document) tokens ∧ StartsWith tokens text rest := by
  rw [readValue] at h
  -- The first character tells what the value is.
  split at h
  case h_1 inner hskip =>
    split at h
    next behind hinner =>
      cases h
      exact ⟨_, .emptyObject, .of_skipGaps_mark (by decide) hskip
        (.of_skipGaps_mark (by decide) hinner (.nil rest))⟩
    next =>
      obtain ⟨⟨members, last⟩, hmembers, heq⟩ := Option.map_eq_some_iff.1 h
      cases heq
      exact ih.object_of_members hskip hmembers hrest
  case h_2 inner hskip =>
    split at h
    next behind hinner =>
      cases h
      exact ⟨_, .emptyArray, .of_skipGaps_mark (by decide) hskip
        (.of_skipGaps_mark (by decide) hinner (.nil rest))⟩
    next =>
      obtain ⟨⟨items, last⟩, hitems, heq⟩ := Option.map_eq_some_iff.1 h
      cases heq
      exact ih.array_of_items hskip hitems hrest
  case h_3 inner hskip =>
    obtain ⟨⟨value, last⟩, hvalue, heq⟩ := Option.map_eq_some_iff.1 h
    cases heq
    exact ⟨_, .string value, .of_skipGaps_string hskip hvalue (.nil rest)⟩
  case h_4 behind hskip =>
    cases h
    exact ⟨_, .null, .of_skipGaps_eq .null hskip trivial (.nil rest)⟩
  case h_5 behind hskip =>
    cases h
    exact ⟨_, .boolean true, .of_skipGaps_eq (.boolean true) hskip trivial (.nil rest)⟩
  case h_6 behind hskip =>
    cases h
    exact ⟨_, .boolean false, .of_skipGaps_eq (.boolean false) hskip trivial (.nil rest)⟩
  case h_7 =>
    obtain ⟨⟨literal, last⟩, hliteral, heq⟩ := Option.map_eq_some_iff.1 h
    cases heq
    obtain ⟨c, part, hskip, hc, hpart⟩ := exists_takes_readNumber hliteral
    exact ⟨_, .number literal, .of_skipGaps_eq (.number hc hpart) hskip hrest (.nil rest)⟩

/-- One more step of recursion reads one more item. -/
theorem IsFormed.items_succ (ih : IsFormed fuel) {items : List Document}
    (h : readItems (fuel + 1) text = some (items, rest))
    (hrest : StartsWithout continuesNumber rest) :
    ∃ tokens, Forms (.items items) tokens ∧ StartsWith tokens text rest := by
  rw [readItems] at h
  obtain ⟨⟨item, behind⟩, hitem, h⟩ := Option.bind_eq_some_iff.1 h
  have hread : Part.IsRead fuel text behind (.value item) := hitem
  dsimp only at h
  -- A bracket or a comma follows, so a number does not go on behind the item.
  split at h
  next last hskip =>
    cases h
    obtain ⟨tokens, hforms, hstart⟩ := ih hread (startsWithout_of_skipGaps hskip (by decide))
    exact ⟨_, .lastItem hforms, hstart.append (.of_skipGaps_mark (by decide) hskip (.nil _))⟩
  next inner hskip =>
    obtain ⟨⟨others, last⟩, hothers, h⟩ := Option.bind_eq_some_iff.1 h
    cases h
    have hreadOthers : Part.IsRead fuel inner last (.items others) := hothers
    obtain ⟨tokens, hforms, hstart⟩ := ih hread (startsWithout_of_skipGaps hskip (by decide))
    obtain ⟨tokensOthers, hformsOthers, hstartOthers⟩ := ih hreadOthers hrest
    exact ⟨_, .nextItem hforms hformsOthers,
      hstart.append (.of_skipGaps_mark (by decide) hskip hstartOthers)⟩
  next => cases h

/-- One more step of recursion reads one more member. -/
theorem IsFormed.members_succ (ih : IsFormed fuel) {members : List (Option String × Document)}
    (h : readMembers (fuel + 1) text = some (members, rest))
    (hrest : StartsWithout continuesNumber rest) :
    ∃ tokens, Forms (.members members) tokens ∧ StartsWith tokens text rest := by
  obtain ⟨quoted, behind, before, after, name, value, hquote, hname, hcolon, hvalue, h⟩ :=
    readMembers_cases h
  have hread : Part.IsRead fuel before after (.value value) := hvalue
  have hbefore : ∀ {tokens rest}, StartsWith tokens before rest →
      StartsWith (.string name :: .mark ':' :: tokens) text rest := fun h =>
    .of_skipGaps_string hquote hname (.of_skipGaps_mark (by decide) hcolon h)
  unfold readNextMembers at h
  split at h
  next last hskip =>
    cases h
    obtain ⟨tokens, hforms, hstart⟩ := ih hread (startsWithout_of_skipGaps hskip (by decide))
    exact ⟨_, .lastMember name hforms,
      hbefore (hstart.append (.of_skipGaps_mark (by decide) hskip (.nil _)))⟩
  next inner hskip =>
    obtain ⟨⟨others, last⟩, hothers, h⟩ := Option.bind_eq_some_iff.1 h
    cases h
    have hreadOthers : Part.IsRead fuel inner rest (.members others) := hothers
    obtain ⟨tokens, hforms, hstart⟩ := ih hread (startsWithout_of_skipGaps hskip (by decide))
    obtain ⟨tokensOthers, hformsOthers, hstartOthers⟩ := ih hreadOthers hrest
    exact ⟨_, .nextMember name hforms hformsOthers,
      hbefore (hstart.append (.of_skipGaps_mark (by decide) hskip hstartOthers))⟩
  next => cases h

/-- What reading gets from a text, it gets from tokens that form it. -/
theorem isFormed (fuel : Nat) : IsFormed fuel := by
  induction fuel with
  | zero =>
    intro part text rest h
    cases part <;> cases h
  | succ fuel ih =>
    intro part text rest h hrest
    cases part with
    | value document => exact ih.value_succ h hrest
    | items items => exact ih.items_succ h hrest
    | members members => exact ih.members_succ h hrest

/-- A text holds a document exactly if it consists of tokens that form it, with gaps around them. -/
theorem Document.parse?_eq_some_iff {document : Document} :
    parse? text = some document ↔
      ∃ tokens rest, Forms (.value document) tokens ∧ StartsWith tokens text rest ∧
        IsGapText rest := by
  have hgaps : ∀ rest, (skipGaps rest).isEmpty ↔ IsGapText rest := fun rest => by
    rw [List.isEmpty_iff, skipGaps, List.dropWhile_eq_nil_iff, IsGapText]
  constructor
  · intro h
    obtain ⟨⟨read, rest⟩, hread, h⟩ := Option.bind_eq_some_iff.1 h
    dsimp only at h
    split at h
    next hgap =>
      cases h
      have hrest := (hgaps rest).1 hgap
      have hvalue : Part.IsRead (text.length + 1) text rest (.value document) := hread
      obtain ⟨tokens, hforms, hstart⟩ := isFormed _ hvalue hrest.startsWithout
      exact ⟨tokens, rest, hforms, hstart, hrest⟩
    next => cases h
  · rintro ⟨tokens, rest, hforms, hstart, hrest⟩
    -- Each token takes a character, so the fuel is enough.
    have hlength : tokens.length ≤ text.length + 1 :=
      Nat.le_succ_of_le (Nat.le_of_add_right_le hstart.length_le)
    have hread : readValue (text.length + 1) text = some (document, rest) :=
      hforms.isReadFrom hlength hstart
    rw [parse?, hread]
    exact if_pos ((hgaps rest).2 hrest)

/-- Texts of the same tokens hold the same document. -/
theorem Document.parse?_of_startsWith {text' : List Char} {document : Document}
    (h : parse? text = some document)
    (htokens : ∀ tokens rest, StartsWith tokens text rest → IsGapText rest →
      ∃ rest', StartsWith tokens text' rest' ∧ IsGapText rest') :
    parse? text' = some document := by
  obtain ⟨tokens, rest, hforms, hstart, hrest⟩ := parse?_eq_some_iff.1 h
  obtain ⟨rest', hstart', hrest'⟩ := htokens tokens rest hstart hrest
  exact parse?_eq_some_iff.2 ⟨tokens, rest', hforms, hstart', hrest'⟩

end Reading

end MetricFormula.Json
