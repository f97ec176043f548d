import MetricFormula.Proofs.Json.Tokens

/-!
# Reading back JSON documents

Both printed forms of a document are ways to write it that differ only in the gaps between its
parts, so both consist of the same tokens. Reading gets the document back from any of them, and it
does not matter which of the two was printed.

## Main definitions

* `Writes`, `WritesItems`, `WritesMembers`: the texts that write a document, whatever gaps there are
  between its parts;
* `IsSpelled`: a text consists of the tokens of a part of a document;
* `Document.literals`: the number literals in a document.

## Main results

* `Writes.isSpelled`: what writes a document consists of its tokens;
* `Writes.parse?_append`: what writes a document is read back as the document;
* `Document.writes_compact`, `Document.writes_indentedAt`: the printed forms write the document;
* `Document.parse?_print`: the printed forms are read back.
-/

namespace MetricFormula.Json

/-! ## Texts of a document -/

mutual

/-- The text writes the document, from its first to its last character. -/
inductive Writes : Document → List Char → Prop
  /-- The literal `null`. -/
  | null : Writes .null "null".toList
  /-- The literal `true`. -/
  | true : Writes (.boolean true) "true".toList
  /-- The literal `false`. -/
  | false : Writes (.boolean false) "false".toList
  /-- A number. -/
  | number {literal : NumberLiteral} : literal.HasDigits → Writes (.number literal) literal.text
  /-- A string. -/
  | string (value : Option String) : Writes (.string value) (stringLiteral value)
  /-- An array without items. -/
  | emptyArray : Writes (.array []) ['[', ']']
  /-- An array with items. -/
  | array {gap text : List Char} {items : List Document} :
      IsGapText gap → WritesItems items text → Writes (.array items) ('[' :: (gap ++ text))
  /-- An object without members. -/
  | emptyObject : Writes (.object []) ['\x7b', '\x7d']
  /-- An object with members. -/
  | object {gap text : List Char} {members : List (Option String × Document)} :
      IsGapText gap → WritesMembers members text →
      Writes (.object members) ('\x7b' :: (gap ++ text))

/-- The text writes the items of an array and the bracket behind them. -/
inductive WritesItems : List Document → List Char → Prop
  /-- The last item. -/
  | last {item : Document} {text gap : List Char} :
      Writes item text → IsGapText gap → WritesItems [item] (text ++ (gap ++ [']']))
  /-- An item before others. -/
  | next {item : Document} {items : List Document} {text gap rest : List Char} :
      Writes item text → IsGapText gap → WritesItems items rest →
      WritesItems (item :: items) (text ++ ',' :: (gap ++ rest))

/-- The text writes the members of an object and the brace behind them. -/
inductive WritesMembers : List (Option String × Document) → List Char → Prop
  /-- The last member. -/
  | last (name : Option String) {value : Document} {before text gap : List Char} :
      IsGapText before → Writes value text → IsGapText gap →
      WritesMembers [(name, value)]
        (stringLiteral name ++ ':' :: (before ++ (text ++ (gap ++ ['\x7d']))))
  /-- A member before others. -/
  | next (name : Option String) {value : Document}
      {members : List (Option String × Document)} {before text gap rest : List Char} :
      IsGapText before → Writes value text → IsGapText gap → WritesMembers members rest →
      WritesMembers ((name, value) :: members)
        (stringLiteral name ++ ':' :: (before ++ (text ++ ',' :: (gap ++ rest))))

end

/-! ## Tokens of such texts -/

/-- The text consists of tokens that form the part of a document, with gaps in front of each but the
first of them. -/
def IsSpelled (part : Part) (text : List Char) : Prop :=
  ∃ tokens, Forms part tokens ∧ ∀ {gap rest}, IsGapText gap → StartsWithout continuesNumber rest →
    StartsWith tokens (gap ++ (text ++ rest)) rest

/-- A part that is a single token is spelled by every text of the token. -/
theorem isSpelled_of_isText {part : Part} {token : Token} {text : List Char}
    (h : Forms part [token]) (htext : token.IsText text) : IsSpelled part text :=
  ⟨[token], h, fun hgap hrest => .cons hgap htext (token.standsBefore hrest) (.nil _)⟩

mutual

/-- What writes a document consists of its tokens. -/
theorem Writes.isSpelled {document : Document} {text : List Char} (h : Writes document text) :
    IsSpelled (.value document) text := by
  cases h with
  | null => exact isSpelled_of_isText .null .null
  | true => exact isSpelled_of_isText (.boolean true) (.boolean true)
  | false => exact isSpelled_of_isText (.boolean false) (.boolean false)
  | number hdigits => exact isSpelled_of_isText (.number _) (Token.isText_text hdigits)
  | string value => exact isSpelled_of_isText (.string value) (Token.isText_stringLiteral value)
  | emptyArray =>
    refine ⟨_, .emptyArray, fun hgap _ => ?_⟩
    exact .cons_mark hgap (by decide) (.cons_mark isGapText_nil (by decide) (.nil _))
  -- The gap behind an opening mark belongs to the first token inside.
  | @array inner text items hinner hitems =>
    obtain ⟨tokens, hforms, hstart⟩ := hitems.isSpelled
    refine ⟨_, .array hforms, fun {gap rest} hgap hrest => ?_⟩
    rw [List.cons_append, List.append_assoc]
    exact .cons_mark hgap (by decide) (hstart hinner hrest)
  | emptyObject =>
    refine ⟨_, .emptyObject, fun hgap _ => ?_⟩
    exact .cons_mark hgap (by decide) (.cons_mark isGapText_nil (by decide) (.nil _))
  | @object inner text members hinner hmembers =>
    obtain ⟨tokens, hforms, hstart⟩ := hmembers.isSpelled
    refine ⟨_, .object hforms, fun {gap rest} hgap hrest => ?_⟩
    rw [List.cons_append, List.append_assoc]
    exact .cons_mark hgap (by decide) (hstart hinner hrest)

/-- What writes the items of an array consists of their tokens and of the bracket. -/
theorem WritesItems.isSpelled {items : List Document} {text : List Char}
    (h : WritesItems items text) : IsSpelled (.items items) text := by
  cases h with
  | @last item text after hitem hafter =>
    obtain ⟨tokens, hforms, hstart⟩ := hitem.isSpelled
    refine ⟨_, .lastItem hforms, fun {gap rest} hgap _ => ?_⟩
    rw [List.append_assoc, List.append_assoc]
    -- A number as the last item ends at the gap or at the bracket.
    exact (hstart hgap (startsWithout_gap hafter (by decide) rest)).append
      (.cons_mark hafter (by decide) (.nil rest))
  | @next item items text after others hitem hafter hitems =>
    obtain ⟨tokens, hforms, hstart⟩ := hitem.isSpelled
    obtain ⟨tokensOthers, hformsOthers, hstartOthers⟩ := hitems.isSpelled
    refine ⟨_, .nextItem hforms hformsOthers, fun {gap rest} hgap hrest => ?_⟩
    rw [List.append_assoc, List.cons_append, List.append_assoc]
    exact (hstart hgap (startsWithout_cons (by decide) _)).append
      (.cons_mark isGapText_nil (by decide) (hstartOthers hafter hrest))

/-- What writes the members of an object consists of their tokens and of the brace. -/
theorem WritesMembers.isSpelled {members : List (Option String × Document)} {text : List Char}
    (h : WritesMembers members text) : IsSpelled (.members members) text := by
  cases h with
  | @last name value before text after hbefore hvalue hafter =>
    obtain ⟨tokens, hforms, hstart⟩ := hvalue.isSpelled
    refine ⟨_, .lastMember name hforms, fun {gap rest} hgap _ => ?_⟩
    simp only [List.append_assoc, List.cons_append]
    exact .cons hgap (Token.isText_stringLiteral name) trivial
      (.cons_mark isGapText_nil (by decide)
        ((hstart hbefore (startsWithout_gap hafter (by decide) rest)).append
          (.cons_mark hafter (by decide) (.nil rest))))
  | @next name value members before text after others hbefore hvalue hafter hmembers =>
    obtain ⟨tokens, hforms, hstart⟩ := hvalue.isSpelled
    obtain ⟨tokensOthers, hformsOthers, hstartOthers⟩ := hmembers.isSpelled
    refine ⟨_, .nextMember name hforms hformsOthers, fun {gap rest} hgap hrest => ?_⟩
    simp only [List.append_assoc, List.cons_append]
    exact .cons hgap (Token.isText_stringLiteral name) trivial
      (.cons_mark isGapText_nil (by decide)
        ((hstart hbefore (startsWithout_cons (by decide) _)).append
          (.cons_mark isGapText_nil (by decide) (hstartOthers hafter hrest))))

end

/-- A text that writes a document is read back as the document, with or without a gap behind it. -/
theorem Writes.parse?_append {document : Document} {text : List Char} (h : Writes document text)
    {gap : List Char} (hgap : IsGapText gap) :
    Document.parse? (text ++ gap) = some document := by
  obtain ⟨tokens, hforms, hstart⟩ := h.isSpelled
  exact Document.parse?_eq_some_iff.2
    ⟨tokens, gap, hforms, hstart isGapText_nil hgap.startsWithout, hgap⟩

/-! ## Printed forms -/

namespace Document

mutual

/-- The number literals in a document. -/
def literals : Document → List NumberLiteral
  | .number literal => [literal]
  | .array items => literalsOfItems items
  | .object members => literalsOfMembers members
  | _ => []

/-- The number literals in array items. -/
def literalsOfItems : List Document → List NumberLiteral
  | [] => []
  | item :: items => item.literals ++ literalsOfItems items

/-- The number literals in the values of object members. -/
def literalsOfMembers : List (Option String × Document) → List NumberLiteral
  | [] => []
  | (_, value) :: members => value.literals ++ literalsOfMembers members

end

/-- The fractions of all numbers consist of digits. -/
def HasDigits (literals : List NumberLiteral) : Prop :=
  ∀ literal ∈ literals, literal.HasDigits

/-- The fractions in two parts of a document consist of digits if those in each part do. -/
theorem hasDigits_append {u v : List NumberLiteral} :
    HasDigits (u ++ v) ↔ HasDigits u ∧ HasDigits v :=
  List.forall_mem_append

/-- A natural number has no fraction. -/
theorem hasDigits_nat (n : Nat) : HasDigits (nat n).literals :=
  List.forall_mem_singleton.2 (List.forall_mem_nil _)

/-- The numbers of an array are those of its items. -/
theorem hasDigits_array {items : List Document} (h : ∀ item ∈ items, HasDigits item.literals) :
    HasDigits (array items).literals := by
  rw [literals]
  induction items with
  | nil => exact List.forall_mem_nil _
  | cons item items ih =>
    obtain ⟨hitem, hitems⟩ := List.forall_mem_cons.1 h
    exact hasDigits_append.2 ⟨hitem, ih hitems⟩

/-- The numbers of a record are those of its values. -/
theorem hasDigits_record {members : List (String × Document)}
    (h : ∀ member ∈ members, HasDigits member.2.literals) :
    HasDigits (record members).literals := by
  rw [record, literals]
  induction members with
  | nil => exact List.forall_mem_nil _
  | cons member members ih =>
    obtain ⟨hmember, hmembers⟩ := List.forall_mem_cons.1 h
    exact hasDigits_append.2 ⟨hmember, ih hmembers⟩

mutual

/-- The compact form writes the document. -/
theorem writes_compact (document : Document) (h : HasDigits document.literals) :
    Writes document document.compact := by
  match document with
  | .null => exact .null
  | .boolean true => exact .true
  | .boolean false => exact .false
  | .number literal => exact .number (h literal (List.mem_singleton_self literal))
  | .string value => exact .string value
  | .array [] => exact .emptyArray
  | .array (item :: items) =>
    have hitems := writesItems_compact (item :: items) (List.cons_ne_nil _ _) h
    have harray := Writes.array isGapText_nil hitems
    exact harray
  | .object [] => exact .emptyObject
  | .object (member :: members) =>
    have hmembers := writesMembers_compact (member :: members) (List.cons_ne_nil _ _) h
    have hobject := Writes.object isGapText_nil hmembers
    exact hobject

/-- The compact forms of items with commas between them write the items. -/
theorem writesItems_compact (items : List Document) (hne : items ≠ [])
    (h : HasDigits (literalsOfItems items)) :
    WritesItems items (compactItems items ++ [']']) := by
  match items with
  | [] => exact absurd rfl hne
  | [item] =>
    rw [literalsOfItems, hasDigits_append] at h
    exact .last (writes_compact item h.1) isGapText_nil
  | item :: next :: items =>
    rw [literalsOfItems, hasDigits_append] at h
    have hnext := writesItems_compact (next :: items) (List.cons_ne_nil _ _) h.2
    rw [compactItems, List.append_assoc, List.cons_append]
    have hitems := WritesItems.next (writes_compact item h.1) isGapText_nil hnext
    exact hitems

/-- The compact forms of members with commas between them write the members. -/
theorem writesMembers_compact (members : List (Option String × Document)) (hne : members ≠ [])
    (h : HasDigits (literalsOfMembers members)) :
    WritesMembers members (compactMembers members ++ ['\x7d']) := by
  match members with
  | [] => exact absurd rfl hne
  | [(name, value)] =>
    rw [literalsOfMembers, hasDigits_append] at h
    rw [compactMembers, List.append_assoc, List.cons_append]
    exact .last name isGapText_nil (writes_compact value h.1) isGapText_nil
  | (name, value) :: next :: members =>
    rw [literalsOfMembers, hasDigits_append] at h
    have hnext := writesMembers_compact (next :: members) (List.cons_ne_nil _ _) h.2
    rw [compactMembers, List.append_assoc, List.append_assoc, List.cons_append, List.cons_append]
    have hmembers := WritesMembers.next name isGapText_nil (writes_compact value h.1)
      isGapText_nil hnext
    exact hmembers

end

/-- A line feed with the indentation behind it is a gap. -/
theorem isGapText_newLine (level : Nat) : IsGapText (newLine level) := by
  refine List.forall_mem_cons.2 ⟨by decide, fun c hc => ?_⟩
  rw [List.eq_of_mem_replicate hc]
  decide

mutual

/-- The indented form writes the document. -/
theorem writes_indentedAt (document : Document) (level : Nat) (h : HasDigits document.literals) :
    Writes document (document.indentedAt level) := by
  match document with
  | .null => exact .null
  | .boolean true => exact .true
  | .boolean false => exact .false
  | .number literal => exact .number (h literal (List.mem_singleton_self literal))
  | .string value => exact .string value
  | .array [] => exact .emptyArray
  | .array (item :: items) =>
    rw [literals, literalsOfItems, hasDigits_append] at h
    have hitems := writesItems_indented items (level + 1) (isGapText_newLine level) h.2
      (writes_indentedAt item (level + 1) h.1)
    -- The line of the closing bracket is indented one level less than the items.
    rw [indentedAt]
    simp only [List.append_assoc, List.cons_append]
    exact .array (isGapText_newLine (level + 1)) hitems
  | .object [] => exact .emptyObject
  | .object ((name, value) :: members) =>
    rw [literals, literalsOfMembers, hasDigits_append] at h
    have hmembers := writesMembers_indented members (level + 1) (isGapText_newLine level) h.2 name
      (writes_indentedAt value (level + 1) h.1)
    rw [indentedAt]
    simp only [List.append_assoc, List.cons_append]
    exact .object (isGapText_newLine (level + 1)) hmembers

/-- A text of the first item and the indented forms of the others behind it write all items. The gap
is that in front of the bracket. -/
theorem writesItems_indented (items : List Document) (level : Nat) {gap : List Char}
    (hgap : IsGapText gap) (h : HasDigits (literalsOfItems items)) {item : Document}
    {text : List Char} (hitem : Writes item text) :
    WritesItems (item :: items) (text ++ (indentedItems level items ++ (gap ++ [']']))) := by
  match items with
  | [] => exact .last hitem hgap
  | next :: items =>
    rw [literalsOfItems, hasDigits_append] at h
    have hnext := writesItems_indented items level hgap h.2 (writes_indentedAt next level h.1)
    rw [indentedItems]
    simp only [List.append_assoc, List.cons_append]
    exact .next hitem (isGapText_newLine level) hnext

/-- A text of the first value and the indented forms of the other members behind it write all
members. The gap is that in front of the brace. -/
theorem writesMembers_indented (members : List (Option String × Document)) (level : Nat)
    {gap : List Char} (hgap : IsGapText gap) (h : HasDigits (literalsOfMembers members))
    (name : Option String) {value : Document} {text : List Char} (hvalue : Writes value text) :
    WritesMembers ((name, value) :: members) (stringLiteral name ++
      ':' :: ' ' :: (text ++ (indentedMembers level members ++ (gap ++ ['\x7d'])))) := by
  -- The indented form has a blank behind the colon of every member.
  have hblank : IsGapText [' '] := List.forall_mem_singleton.2 (by decide)
  match members with
  | [] =>
    have hlast := WritesMembers.last name hblank hvalue hgap
    exact hlast
  | (name', value') :: members =>
    rw [literalsOfMembers, hasDigits_append] at h
    have hnext := writesMembers_indented members level hgap h.2 name'
      (writes_indentedAt value' level h.1)
    rw [indentedMembers]
    simp only [List.append_assoc, List.cons_append]
    have hmembers := WritesMembers.next name hblank hvalue (isGapText_newLine level) hnext
    exact hmembers

end

/-- Both printed forms of a document are read back as the document, with a gap behind them or
without. -/
theorem parse?_print_append (document : Document) (h : HasDigits document.literals)
    {gap : List Char} (hgap : IsGapText gap) :
    ∀ print ∈ [compact, indented], parse? (print document ++ gap) = some document := by
  simp only [List.mem_cons, List.not_mem_nil, or_false, forall_eq_or_imp, forall_eq]
  exact ⟨(writes_compact document h).parse?_append hgap,
    (writes_indentedAt document 0 h).parse?_append hgap⟩

/-- Nothing has to stand behind a printed form. -/
theorem parse?_print (document : Document) (h : HasDigits document.literals) :
    ∀ print ∈ [compact, indented], parse? (print document) = some document := by
  intro print hprint
  have hread := parse?_print_append document h isGapText_nil print hprint
  rw [List.append_nil] at hread
  exact hread

end Document

end MetricFormula.Json
