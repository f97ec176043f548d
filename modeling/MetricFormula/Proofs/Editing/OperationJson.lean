import MetricFormula.Editing.OperationJson
import MetricFormula.Proofs.Calculation.Wire
import MetricFormula.Proofs.Json.Records

/-!
# Reading back edits

An edit that is written in JSON is read back as it was. In an object, the member `op` says which
members the edit uses and how: neither their order nor members of other names change the edit. Other
members are still part of the document, so one that is not read as a value, such as a number that
overflows, makes the whole object unreadable.

## Main definitions

* `Edit.fieldValues`: the values of the fields of an edit;
* `Edit.usedNames`: the names of members that the edit of an object uses.

## Main results

* `Edit.ofJson?_print`: a written edit is read back;
* `Edit.ofDocument?_perm`, `Edit.ofDocument?_append`: which members of an object count.
-/

namespace MetricFormula.Edit

open Json (Document)

/-! ## Reading back -/

/-- The position that an edit holds, if there is one. -/
def position? : Edit → Option Nat
  | insertChar position _ | deleteBackward position | deleteForward position
  | insertMetric position _ _ => position
  | moveCursor position => some position
  | moveLeft | moveRight | clear => none

/-- The values of the fields of an edit, in order. -/
def fieldValues : Edit → List (Option Document)
  | insertChar position char => [position.map .nat, some (.text (String.singleton char))]
  | deleteBackward position | deleteForward position => [position.map .nat]
  | insertMetric position id aggregate =>
    [position.map .nat, some (.text id), aggregate.map fun kind => .text kind.key]
  | moveCursor position => [some (.nat position)]
  | moveLeft | moveRight | clear => []

variable {edit : Edit}

/-- A position that is left out or is an index is read back. -/
theorem toOptional?_nat {position : Option Nat} (h : ∀ n ∈ position, n < UInt64.size) :
    Document.toOptional? Document.toIndex? (position.map .nat) = some position := by
  cases position with
  | none => rfl
  | some n => exact congrArg (Option.map some) (Json.NumberLiteral.toIndex?_ofNat (h n rfl))

/-- A function that is left out or is named by its key is read back. -/
theorem toOptional?_key (aggregate : Option Aggregate) :
    Document.toOptional? Aggregate.ofDocument? (aggregate.map fun kind => .text kind.key) =
      some aggregate := by
  cases aggregate with
  | none => rfl
  | some kind => exact congrArg (Option.map some) kind.ofKey?_key

/-- A text of one character is read as the character. -/
theorem toChar?_singleton (c : Char) : (Document.text (String.singleton c)).toChar? = some c := by
  simp [Document.toChar?, Document.text, Document.toText?]

/-- An edit is what its name and the values of its fields say. -/
theorem ofFields?_fieldValues (h : ∀ n ∈ edit.position?, n < UInt64.size) :
    ofFields? edit.name edit.fieldValues = some edit := by
  cases edit with
  | insertChar position c =>
    have hposition : ∀ n ∈ position, n < UInt64.size := h
    rw [name, fieldValues, ofFields?, toOptional?_nat hposition]
    simp only [Option.bind_eq_bind, Option.bind_some, toChar?_singleton]
    rfl
  | deleteBackward position =>
    have hposition : ∀ n ∈ position, n < UInt64.size := h
    rw [name, fieldValues, ofFields?, toOptional?_nat hposition, Option.map_some]
  | deleteForward position =>
    have hposition : ∀ n ∈ position, n < UInt64.size := h
    rw [name, fieldValues, ofFields?, toOptional?_nat hposition, Option.map_some]
  | insertMetric position id aggregate =>
    have hposition : ∀ n ∈ position, n < UInt64.size := h
    rw [name, fieldValues, ofFields?, toOptional?_nat hposition]
    simp only [Option.bind_eq_bind, Option.bind_some, toOptional?_key]
    rfl
  | moveCursor position =>
    have hindex := Json.NumberLiteral.toIndex?_ofNat (h position rfl)
    rw [name, fieldValues, ofFields?, Option.bind_eq_bind, Option.bind_some, Document.nat,
      Document.toIndex?, hindex]
    rfl
  | moveLeft | moveRight | clear => rfl

/-- The values of the fields are found by name. -/
theorem ofRecord?_toDocument (edit : Edit) :
    ofRecord? edit.toDocument = ofFields? edit.name edit.fieldValues := by
  cases edit with
  | insertChar position | deleteBackward position | deleteForward position =>
    cases position <;> rfl
  | insertMetric position id aggregate => cases position <;> cases aggregate <;> rfl
  | moveCursor | moveLeft | moveRight | clear => rfl

/-- Each member that is written is a text or the position. -/
theorem forall_members (edit : Edit) {P : Document → Prop} (htext : ∀ value, P (.text value))
    (hnat : ∀ n ∈ edit.position?, P (.nat n)) :
    ∀ member ∈ ("op", Document.text edit.name) :: edit.members, P member.2 := by
  have hposition : ∀ position : Option Nat, (∀ n ∈ position, P (.nat n)) →
      ∀ member ∈ positionMember position, P member.2 := by
    intro position h member hmember
    obtain ⟨n, hn, rfl⟩ := Option.map_eq_some_iff.1 (Option.mem_toList.1 hmember)
    exact h n hn
  refine List.forall_mem_cons.2 ⟨htext _, ?_⟩
  cases edit with
  | insertChar position c =>
    exact List.forall_mem_append.2
      ⟨hposition position hnat, List.forall_mem_singleton.2 (htext _)⟩
  | deleteBackward position | deleteForward position => exact hposition _ hnat
  | insertMetric position id aggregate =>
    refine List.forall_mem_append.2
      ⟨hposition position hnat, List.forall_mem_cons.2 ⟨htext id, fun member hmember => ?_⟩⟩
    obtain ⟨kind, -, rfl⟩ := Option.map_eq_some_iff.1 (Option.mem_toList.1 hmember)
    exact htext kind.key
  | moveCursor position => exact List.forall_mem_singleton.2 (hnat position rfl)
  | moveLeft | moveRight | clear => exact List.forall_mem_nil _

/-- A written edit is read as a whole if its position is an index. -/
theorem isReadable_toDocument (h : ∀ n ∈ edit.position?, n < UInt64.size) :
    edit.toDocument.isReadable :=
  Document.isReadable_record <| edit.forall_members (P := Document.IsReadableInside)
    Document.isReadableInside_text fun n hn => Document.isReadableInside_nat (h n hn)

/-- No number in a written edit has a fraction. -/
theorem hasDigits_toDocument (edit : Edit) : Document.HasDigits edit.toDocument.literals :=
  Document.hasDigits_record <| edit.forall_members
    (P := fun value => Document.HasDigits value.literals) (fun _ => List.forall_mem_nil _)
    fun n _ => Document.hasDigits_nat n

/-- An edit is read from documents that are read as a whole, and from no others. -/
theorem ofDocument?_eq (document : Document) :
    ofDocument? document = if document.isReadable then ofRecord? document else none :=
  rfl

/-- A written edit is read back. -/
theorem ofJson?_print (h : ∀ n ∈ edit.position?, n < UInt64.size) :
    ∀ print ∈ [Document.compact, Document.indented],
      ofJson? (print edit.toDocument) = some edit := by
  intro print hprint
  rw [ofJson?, Document.parse?_print _ edit.hasDigits_toDocument print hprint, Option.bind_eq_bind,
    Option.bind_some, ofDocument?_eq, if_pos (isReadable_toDocument h), ofRecord?_toDocument,
    ofFields?_fieldValues h]

/-! ## Objects -/

/-- The name of the edit of an object. -/
def tag? (members : List (Option String × Document)) : Option String := do
  (← (← Document.uniqueValue? members "op")).toText?

/-- The names of the members that the edit of an object uses: that of the tag, and those of the
fields of the edit that the tag names. -/
def usedNames (members : List (Option String × Document)) : List String :=
  "op" :: ((tag? members).bind fieldsOf?).getD []

variable {members others extra : List (Option String × Document)}

/-- First the tag is looked up, and then the fields that it asks for. -/
theorem ofRecord?_object (members : List (Option String × Document)) :
    ofRecord? (.object members) = (tag? members).bind fun name =>
      (fieldsOf? name).bind fun fields =>
        (Document.fieldsOfMembers? fields members).bind (ofFields? name) := by
  rw [ofRecord?, tag?]
  simp only [Option.bind_eq_bind, Option.bind_assoc]

/-- The edit of an object depends on the values of the names that it uses. -/
theorem ofRecord?_congr (hmembers : (Document.object members).isReadable)
    (hothers : (Document.object others).isReadable)
    (h : ∀ name ∈ usedNames members,
      Document.uniqueValue? others name = Document.uniqueValue? members name) :
    ofRecord? (.object others) = ofRecord? (.object members) := by
  have htag : tag? others = tag? members := by
    rw [tag?, tag?, h "op" List.mem_cons_self]
  rw [ofRecord?_object, ofRecord?_object, htag]
  rcases hname : tag? members with _ | name
  · rfl
  rw [Option.bind_some, Option.bind_some]
  rcases hfields : fieldsOf? name with _ | fields
  · rfl
  -- The fields of the edit that the tag names are names that it uses.
  have hvalues : ∀ field ∈ fields,
      Document.uniqueValue? others field = Document.uniqueValue? members field := by
    intro field hfield
    apply h
    rw [usedNames, hname, Option.bind_some, hfields, Option.getD_some]
    exact List.mem_cons_of_mem _ hfield
  rw [Option.bind_some, Option.bind_some, Document.fieldsOfMembers?_congr hothers hmembers hvalues]

/-- The order of members does not count. -/
theorem ofDocument?_perm (h : others.Perm members) :
    ofDocument? (.object others) = ofDocument? (.object members) := by
  have hreadable := Document.isReadable_object_perm h
  rw [ofDocument?_eq, ofDocument?_eq, hreadable]
  split
  next hmembers =>
    exact ofRecord?_congr hmembers (hreadable.trans hmembers) fun name _ =>
      Document.uniqueValue?_perm h name
  next => rfl

/-- Members of other names do not count if they are read as values. -/
theorem ofDocument?_append
    (h : ∀ member ∈ extra, ∀ name ∈ usedNames members, member.1 ≠ some name) :
    ofDocument? (.object (members ++ extra)) =
      if (Document.object extra).isReadable then ofDocument? (.object members) else none := by
  have hvalues : ∀ name ∈ usedNames members,
      Document.uniqueValue? (members ++ extra) name = Document.uniqueValue? members name :=
    fun name hname => Document.uniqueValue?_append fun member hmember => h member hmember name hname
  rw [ofDocument?_eq, ofDocument?_eq]
  -- An object is read if both of its parts are.
  by_cases happend : (Document.object (members ++ extra)).isReadable
  · obtain ⟨hmembers, hextra⟩ := Document.isReadable_object_append.1 happend
    rw [if_pos happend, if_pos hextra, if_pos hmembers, ofRecord?_congr hmembers happend hvalues]
  · rw [if_neg happend]
    split
    next hextra =>
      have hmembers : ¬(Document.object members).isReadable := fun hmembers =>
        happend (Document.isReadable_object_append.2 ⟨hmembers, hextra⟩)
      rw [if_neg hmembers]
    next => rfl

/-- What is read from the fields of a name is an edit of that name. -/
theorem name_of_ofFields? {name : String} {values : List (Option Document)}
    (h : ofFields? name values = some edit) : edit.name = name := by
  unfold ofFields? at h
  split at h
  next =>
    obtain ⟨position, -, h⟩ := Option.bind_eq_some_iff.1 h
    obtain ⟨value, -, h⟩ := Option.bind_eq_some_iff.1 h
    obtain ⟨c, -, h⟩ := Option.bind_eq_some_iff.1 h
    rw [← Option.some.inj h]
    rfl
  next =>
    obtain ⟨position, -, rfl⟩ := Option.map_eq_some_iff.1 h
    rfl
  next =>
    obtain ⟨position, -, rfl⟩ := Option.map_eq_some_iff.1 h
    rfl
  next =>
    obtain ⟨position, -, h⟩ := Option.bind_eq_some_iff.1 h
    obtain ⟨value, -, h⟩ := Option.bind_eq_some_iff.1 h
    obtain ⟨id, -, h⟩ := Option.bind_eq_some_iff.1 h
    obtain ⟨aggregate, -, h⟩ := Option.bind_eq_some_iff.1 h
    rw [← Option.some.inj h]
    rfl
  next =>
    obtain ⟨value, -, h⟩ := Option.bind_eq_some_iff.1 h
    obtain ⟨position, -, h⟩ := Option.bind_eq_some_iff.1 h
    rw [← Option.some.inj h]
    rfl
  case h_6 | h_7 | h_8 =>
    rw [← Option.some.inj h]
    rfl
  next => cases h

/-- The tag of an object is the name of its edit. -/
theorem tag?_of_ofDocument? (h : ofDocument? (.object members) = some edit) :
    tag? members = some edit.name := by
  rw [ofDocument?_eq] at h
  split at h
  next =>
    rw [ofRecord?_object] at h
    obtain ⟨name, hname, h⟩ := Option.bind_eq_some_iff.1 h
    obtain ⟨fields, -, h⟩ := Option.bind_eq_some_iff.1 h
    obtain ⟨values, -, h⟩ := Option.bind_eq_some_iff.1 h
    rw [hname, name_of_ofFields? h]
  next => cases h

/-- A written edit is read back, and the edit of an object does not depend on the order of its
members nor on members that it does not use, as long as these are read as values. -/
theorem ofJson?_reads_used_members :
    (∀ edit : Edit, (∀ n ∈ edit.position?, n < UInt64.size) →
      ∀ print ∈ [Document.compact, Document.indented],
        ofJson? (print edit.toDocument) = some edit) ∧
    ∀ text text' members members', Document.parse? text = some (.object members) →
      Document.parse? text' = some (.object members') →
      (∀ edit, ofJson? text = some edit → tag? members = some edit.name) ∧
      (members'.Perm members → ofJson? text' = ofJson? text) ∧
      ∀ extra, members'.Perm (members ++ extra) →
        (∀ member ∈ extra, ∀ name ∈ usedNames members, member.1 ≠ some name) →
        ofJson? text' = if (Document.object extra).isReadable then ofJson? text else none := by
  refine ⟨fun edit h => ofJson?_print h, fun text text' members members' htext htext' => ?_⟩
  have hread : ofJson? text = ofDocument? (.object members) := by
    rw [ofJson?, htext, Option.bind_eq_bind, Option.bind_some]
  have hread' : ofJson? text' = ofDocument? (.object members') := by
    rw [ofJson?, htext', Option.bind_eq_bind, Option.bind_some]
  rw [hread, hread']
  refine ⟨fun edit => tag?_of_ofDocument?, ofDocument?_perm, fun extra hperm hextra => ?_⟩
  rw [ofDocument?_perm hperm, ofDocument?_append hextra]

theorem ofJson?_of_rearranged_members :
    ofJson? (insertMetric (some 18446744073709551615) "\"é" (some .sum)).toDocument.compact =
      some (insertMetric (some 18446744073709551615) "\"é" (some .sum)) ∧
    ofJson? "\x7b\"position\":4,\"note\":null,\"op\":\"move_cursor\"\x7d".toList =
      some (moveCursor 4) := by
  obtain ⟨hprint, hobject⟩ := ofJson?_reads_used_members
  refine ⟨hprint _ (fun n hn => ?_) Document.compact List.mem_cons_self, ?_⟩
  · cases hn
    decide
  -- The written form of the edit, and its members between which another one stands.
  let position : Option String × Document := (some "position", .nat 4)
  let note : Option String × Document := (some "note", .null)
  let op : Option String × Document := (some "op", .text "move_cursor")
  have hread := hprint (moveCursor 4) (fun n hn => by cases hn; decide)
    Document.compact List.mem_cons_self
  have hwritten := Document.parse?_print (.object [op, position])
    (List.forall_mem_singleton.2 (List.forall_mem_nil _)) Document.compact List.mem_cons_self
  have hgiven := Document.parse?_print (.object [position, note, op])
    (List.forall_mem_singleton.2 (List.forall_mem_nil _)) Document.compact List.mem_cons_self
  have hperm : ([position, note] ++ [op]).Perm ([op] ++ [position, note]) := List.perm_append_comm
  obtain ⟨-, -, hextra⟩ := hobject _ _ _ _ hwritten hgiven
  have hnote := hextra [note] hperm (List.forall_mem_singleton.2 (by decide))
  exact hnote.trans hread

/-- Where a number overflows, the object is refused, also if its edit does not use the number. -/
theorem ofJson?_refuses_overflowing_member :
    Document.parse? "\x7b\"op\":\"clear\"\x7d".toList =
      some (.object [(some "op", .text "clear")]) ∧
    Document.parse? "\x7b\"op\":\"clear\",\"note\":1e+999\x7d".toList =
      some (.object [(some "op", .text "clear"), (some "note", .number ⟨false, 1, [], some 999⟩)]) ∧
    "note" ∉ usedNames [(some "op", .text "clear")] ∧
    ofJson? "\x7b\"op\":\"clear\"\x7d".toList = some clear ∧
    ofJson? "\x7b\"op\":\"clear\",\"note\":1e+999\x7d".toList = none := by
  have hread := fun document hdigits =>
    Document.parse?_print document hdigits Document.compact List.mem_cons_self
  have hclear := hread (.object [(some "op", .text "clear")]) (List.forall_mem_nil _)
  have hnoted := hread
    (.object [(some "op", .text "clear"), (some "note", .number ⟨false, 1, [], some 999⟩)])
    (List.forall_mem_singleton.2 (List.forall_mem_nil _))
  exact ⟨hclear, hnoted, by decide, by decide +kernel, by decide +kernel⟩

end MetricFormula.Edit
