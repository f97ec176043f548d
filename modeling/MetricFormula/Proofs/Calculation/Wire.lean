import MetricFormula.Calculation.Wire
import MetricFormula.Proofs.Calculation.NormalForm
import MetricFormula.Proofs.Json.Numbers
import MetricFormula.Proofs.Json.RoundTrip
import MetricFormula.Proofs.Outcome

/-!
# Reading back calculations

Writing a calculation has no limit of depth, while reading refuses deeply nested texts. An operation
takes an object and an array within it, so a calculation is read back if it has at most 63
operations on top of each other. What is read differs from what was written in two ways that are
written alike: a metric alone is read as a sum, and zero has no sign.

## Main definitions

* `Calculation.height`: how many operations are on top of each other;
* `Calculation.wireForm`: what is read of a written calculation;
* `Calculation.isReadable`: the calculations that documents hold.

## Main results

* `Calculation.depth_toDocument`: how deeply the document of a calculation is nested;
* `Calculation.ofDocument?_eq_some_iff`: when the document of a calculation is read as its wire
  form;
* `Calculation.isReadable_of_ofJson?`, `Calculation.height_le_of_ofJson?`: what is read has no
  placeholders, finite constants and at most 63 operations on top of each other;
* `Calculation.ofJson?_print`: when the text of a calculation is read at all;
* `Calculation.exists_toDocument_ofJson?`: writing a calculation and reading it again.
-/

namespace MetricFormula

open Json (Document NumberLiteral)

theorem Arithmetic.ofName?_name (op : Arithmetic) : ofName? op.name = some op := by
  cases op <;> decide

theorem Aggregate.ofKey?_key (kind : Aggregate) : ofKey? kind.key = some kind := by
  cases kind <;> decide

namespace Calculation

/-- The greatest number of operations on a path from the calculation to one of its leaves. -/
def height : Calculation → Nat
  | arithmetic _ left right => max left.height right.height + 1
  | _ => 0

/-- The calculation with every metric that stands alone replaced by its sum, and without the sign of
zero. -/
def wireForm : Calculation → Calculation
  | constant value => constant value.dropZeroSign
  | metric id => aggregate .sum id
  | arithmetic op left right => arithmetic op left.wireForm right.wireForm
  | other => other

/-! ## Documents -/

variable {t : Calculation} {document : Document}

/-- The document of a constant. -/
theorem toDocument_constant {value : Binary64} :
    (constant value).toDocument = .ok document ↔
      ∃ literal, NumberLiteral.ofBinary64? value = some literal ∧
        document = .record [("constant", .number literal)] := by
  rw [toDocument]
  rcases NumberLiteral.ofBinary64? value with _ | literal
  · simp
  · simp [eq_comm]

/-- The document of an operation. -/
theorem toDocument_arithmetic {op : Arithmetic} {left right : Calculation} :
    (arithmetic op left right).toDocument = .ok document ↔
      ∃ l r, left.toDocument = .ok l ∧ right.toDocument = .ok r ∧
        document = .record [(op.name, .array [l, r])] := by
  rw [toDocument]
  rcases left.toDocument with _ | l
  · simp [bind, Except.bind]
  · rcases right.toDocument with _ | r
    · simp [bind, Except.bind]
    · simp [bind, Except.bind, pure, Except.pure, eq_comm]

/-- Calculations are written as objects. -/
theorem exists_toDocument_eq_object (h : t.toDocument = .ok document) :
    ∃ members, document = .object members := by
  cases t with
  | constant value =>
    obtain ⟨literal, -, rfl⟩ := toDocument_constant.1 h
    exact ⟨_, rfl⟩
  | arithmetic op left right =>
    obtain ⟨l, r, -, -, rfl⟩ := toDocument_arithmetic.1 h
    exact ⟨_, rfl⟩
  | _ =>
    cases h
    exact ⟨_, rfl⟩

/-- Only finite constants are written. -/
theorem isFinite_of_toDocument (h : t.toDocument = .ok document) :
    ∀ value ∈ t.constants, value.isFinite := by
  induction t generalizing document with
  | constant value =>
    obtain ⟨literal, hliteral, -⟩ := toDocument_constant.1 h
    rw [constants, List.forall_mem_singleton, ← NumberLiteral.ofBinary64?_isSome, hliteral]
    rfl
  | metric | aggregate | placeholder => exact List.forall_mem_nil _
  | arithmetic op left right ihleft ihright =>
    obtain ⟨l, r, hleft, hright, -⟩ := toDocument_arithmetic.1 h
    exact List.forall_mem_append.2 ⟨ihleft hleft, ihright hright⟩

/-- A calculation is refused for one of its constants that is not finite. -/
theorem exists_mem_constants_of_toDocument {error : WireError} (h : t.toDocument = .error error) :
    ∃ value ∈ t.constants, value.isFinite = false ∧ error = .nonFinite value := by
  induction t with
  | constant value =>
    refine ⟨value, List.mem_singleton_self value, ?_⟩
    rw [← NumberLiteral.ofBinary64?_isSome]
    rw [toDocument] at h
    split at h
    next => cases h
    next hliteral =>
      rw [hliteral]
      exact ⟨rfl, (Except.error.inj h).symm⟩
  | metric | aggregate | placeholder => cases h
  | arithmetic op left right ihleft ihright =>
    rw [toDocument] at h
    rcases hleft : left.toDocument with error' | l
    · rw [hleft] at h
      obtain ⟨value, hmem, hvalue⟩ := ihleft (hleft.trans h)
      exact ⟨value, List.mem_append_left _ hmem, hvalue⟩
    · rcases hright : right.toDocument with error' | r
      · rw [hleft, hright] at h
        obtain ⟨value, hmem, hvalue⟩ := ihright (hright.trans h)
        exact ⟨value, List.mem_append_right _ hmem, hvalue⟩
      · rw [hleft, hright] at h
        cases h

/-- Calculations with finite constants are written. -/
theorem exists_toDocument (hfinite : ∀ value ∈ t.constants, value.isFinite) :
    ∃ document, t.toDocument = .ok document := by
  rcases h : t.toDocument with error | document
  · obtain ⟨value, hmem, hvalue, -⟩ := exists_mem_constants_of_toDocument h
    rw [hfinite value hmem] at hvalue
    cases hvalue
  · exact ⟨document, rfl⟩

/-- A calculation and its wire form are written alike. -/
theorem toDocument_wireForm (h : t.toDocument = .ok document) :
    t.wireForm.toDocument = .ok document := by
  induction t generalizing document with
  | constant value =>
    rw [wireForm, toDocument_constant, NumberLiteral.ofBinary64?_dropZeroSign]
    exact toDocument_constant.1 h
  | metric | aggregate | placeholder => exact h
  | arithmetic op left right ihleft ihright =>
    obtain ⟨l, r, hleft, hright, rfl⟩ := toDocument_arithmetic.1 h
    exact toDocument_arithmetic.2 ⟨l, r, ihleft hleft, ihright hright, rfl⟩

/-- The document of an operation is the object with its name, around the array of its operands. -/
theorem depth_arithmetic (op : Arithmetic) (l r : Document) :
    (Document.record [(op.name, .array [l, r])]).depth = max l.depth r.depth + 2 := by
  have hdepth : (Document.record [(op.name, .array [l, r])]).depth =
      max (max l.depth (max r.depth 0) + 1) 0 + 1 := rfl
  omega

/-- Each operation takes two levels of nesting, and a leaf takes one. -/
theorem depth_toDocument (h : t.toDocument = .ok document) :
    document.depth = 2 * t.height + 1 := by
  induction t generalizing document with
  | constant value =>
    obtain ⟨literal, -, rfl⟩ := toDocument_constant.1 h
    rfl
  | metric | aggregate | placeholder =>
    cases h
    rfl
  | arithmetic op left right ihleft ihright =>
    obtain ⟨l, r, hleft, hright, rfl⟩ := toDocument_arithmetic.1 h
    rw [depth_arithmetic, ihleft hleft, ihright hright, height]
    omega

/-- The numbers of a written calculation have digits alone in their fractions. -/
theorem hasDigits_toDocument (h : t.toDocument = .ok document) :
    Document.HasDigits document.literals := by
  induction t generalizing document with
  | constant value =>
    obtain ⟨literal, hliteral, rfl⟩ := toDocument_constant.1 h
    show Document.HasDigits ([literal] ++ [])
    rw [List.append_nil]
    exact List.forall_mem_singleton.2 (NumberLiteral.hasDigits_of_ofBinary64? hliteral)
  | metric | aggregate | placeholder =>
    cases h
    exact List.forall_mem_nil _
  | arithmetic op left right ihleft ihright =>
    obtain ⟨l, r, hleft, hright, rfl⟩ := toDocument_arithmetic.1 h
    show Document.HasDigits (l.literals ++ (r.literals ++ []) ++ [])
    rw [List.append_nil, List.append_nil]
    exact Document.hasDigits_append.2 ⟨ihleft hleft, ihright hright⟩

/-! ## Reading -/

theorem ofDocument?_arithmetic (op : Arithmetic) (left right : Document) :
    ofDocument? (.record [(op.name, .array [left, right])]) = do
      return arithmetic op (← ofDocument? left) (← ofDocument? right) := by
  show (do
    let op ← Arithmetic.ofName? op.name
    return arithmetic op (← ofDocument? left) (← ofDocument? right)) = _
  rw [Arithmetic.ofName?_name]
  rfl

theorem ofDocument?_aggregate (kind : Aggregate) (id : String) :
    ofDocument? (.record [(kind.key, .text id)]) = some (aggregate kind id) := by
  show (do
    let kind ← Aggregate.ofKey? kind.key
    return aggregate kind id) = _
  rw [Aggregate.ofKey?_key]
  rfl

/-- The document of a calculation is read as its wire form if its constants are read back. -/
theorem ofDocument?_eq_some_iff (h : t.toDocument = .ok document)
    (hplaceholder : t.hasPlaceholder = false) :
    ofDocument? document = some t.wireForm ↔ ∀ value ∈ t.constants, value.IsReadBack := by
  induction t generalizing document with
  | constant value =>
    obtain ⟨literal, hliteral, rfl⟩ := toDocument_constant.1 h
    rw [constants, List.forall_mem_singleton, ← NumberLiteral.value?_eq_some_iff hliteral]
    show literal.value?.bind (fun value => some (constant value)) =
      some (constant value.dropZeroSign) ↔ _
    rcases literal.value? with _ | value'
    · simp
    · simp
  | metric id =>
    cases h
    exact iff_of_true (ofDocument?_aggregate .sum id) (List.forall_mem_nil _)
  | aggregate kind id =>
    cases h
    exact iff_of_true (ofDocument?_aggregate kind id) (List.forall_mem_nil _)
  | placeholder => cases hplaceholder
  | arithmetic op left right ihleft ihright =>
    obtain ⟨l, r, hleft, hright, rfl⟩ := toDocument_arithmetic.1 h
    obtain ⟨hl, hr⟩ := Bool.or_eq_false_iff.1 hplaceholder
    rw [constants, List.forall_mem_append, ← ihleft hleft hl, ← ihright hright hr,
      ofDocument?_arithmetic, wireForm]
    -- The operation is read if both of its operands are.
    rcases ofDocument? l with _ | left'
    · simp
    · rcases ofDocument? r with _ | right'
      · simp
      · simp

/-! ## What is read -/

/-- The calculation is one that documents hold: no metric stands alone, nothing is left open and all
constants are finite. -/
def isReadable : Calculation → Bool
  | constant value => value.isFinite
  | aggregate _ _ => true
  | arithmetic _ left right => left.isReadable && right.isReadable
  | metric _ | placeholder => false

theorem hasPlaceholder_of_isReadable (h : t.isReadable) : t.hasPlaceholder = false := by
  induction t with
  | constant | metric | aggregate => rfl
  | placeholder => cases h
  | arithmetic op left right ihleft ihright =>
    obtain ⟨hleft, hright⟩ := Bool.and_eq_true_iff.1 h
    exact Bool.or_eq_false_iff.2 ⟨ihleft hleft, ihright hright⟩

theorem isFinite_of_isReadable (h : t.isReadable) : ∀ value ∈ t.constants, value.isFinite := by
  induction t with
  | constant value => exact List.forall_mem_singleton.2 h
  | metric | aggregate | placeholder => exact List.forall_mem_nil _
  | arithmetic op left right ihleft ihright =>
    obtain ⟨hleft, hright⟩ := Bool.and_eq_true_iff.1 h
    exact List.forall_mem_append.2 ⟨ihleft hleft, ihright hright⟩

/-- A document that holds a calculation says an aggregate, an operation on what two documents inside
it hold, or a constant. -/
theorem ofDocument?_cases (h : ofDocument? document = some t) :
    (∃ kind id, document = .record [(kind.key, .text id)] ∧ t = aggregate kind id) ∨
      (∃ op l r left right, document = .record [(op.name, .array [l, r])] ∧
        ofDocument? l = some left ∧ ofDocument? r = some right ∧ t = arithmetic op left right) ∨
      ∃ literal value, document = .record [("constant", .number literal)] ∧
        literal.value? = some value ∧ t = constant value := by
  unfold ofDocument? at h
  split at h
  next key value =>
    simp only [Option.bind_eq_bind, Option.bind_eq_some_iff, Option.pure_def,
      Option.some.injEq] at h
    obtain ⟨kind, hkind, id, rfl, rfl⟩ := h
    obtain rfl : kind.key = key := by simpa using List.find?_some hkind
    exact .inl ⟨kind, id, rfl, rfl⟩
  next key l r =>
    simp only [Option.bind_eq_bind, Option.bind_eq_some_iff, Option.pure_def,
      Option.some.injEq] at h
    obtain ⟨op, hop, left, hleft, right, hright, rfl⟩ := h
    obtain rfl : op.name = key := by simpa using List.find?_some hop
    exact .inr (.inl ⟨op, l, r, left, right, rfl, hleft, hright, rfl⟩)
  next literal =>
    simp only [Option.bind_eq_bind, Option.bind_eq_some_iff, Option.pure_def,
      Option.some.injEq] at h
    obtain ⟨value, hvalue, rfl⟩ := h
    exact .inr (.inr ⟨literal, value, rfl, hvalue, rfl⟩)
  next => cases h

/-- What a document holds can be read. -/
theorem isReadable_of_ofDocument? (h : ofDocument? document = some t) : t.isReadable := by
  induction t generalizing document with
  | constant value =>
    obtain ⟨_, _, _, heq⟩ | ⟨_, _, _, _, _, _, _, _, heq⟩ | ⟨literal, _, -, hvalue, heq⟩ :=
      ofDocument?_cases h <;> cases heq
    exact NumberLiteral.isFinite_of_value? hvalue
  | metric id | placeholder =>
    obtain ⟨_, _, _, heq⟩ | ⟨_, _, _, _, _, _, _, _, heq⟩ | ⟨_, _, _, _, heq⟩ :=
      ofDocument?_cases h <;> cases heq
  | aggregate kind id => rfl
  | arithmetic op left right ihleft ihright =>
    obtain ⟨_, _, _, heq⟩ | ⟨_, l, r, _, _, -, hleft, hright, heq⟩ | ⟨_, _, _, _, heq⟩ :=
      ofDocument?_cases h <;> cases heq
    exact Bool.and_eq_true_iff.2 ⟨ihleft hleft, ihright hright⟩

/-- So can what is read of a JSON text. -/
theorem isReadable_of_ofJson? {text : List Char} (h : ofJson? text = some t) : t.isReadable := by
  obtain ⟨document, -, hread⟩ := Option.bind_eq_some_iff.1 h
  split at hread
  next => exact isReadable_of_ofDocument? hread
  next => cases hread

/-- A document is as deep as what is written of the calculation that it holds: there is no room in
it for anything else. -/
theorem depth_of_ofDocument? (h : ofDocument? document = some t) :
    document.depth = 2 * t.height + 1 := by
  induction t generalizing document with
  | constant | metric | aggregate | placeholder =>
    obtain ⟨_, _, rfl, heq⟩ | ⟨_, _, _, _, _, -, -, -, heq⟩ | ⟨_, _, rfl, -, heq⟩ :=
      ofDocument?_cases h <;> cases heq <;> rfl
  | arithmetic op left right ihleft ihright =>
    obtain ⟨_, _, -, heq⟩ | ⟨_, l, r, _, _, rfl, hleft, hright, heq⟩ | ⟨_, _, -, -, heq⟩ :=
      ofDocument?_cases h <;> cases heq
    rw [depth_arithmetic, ihleft hleft, ihright hright, height]
    omega

/-- So what is read of a JSON text has at most 63 operations on top of each other. -/
theorem height_le_of_ofJson? {text : List Char} (h : ofJson? text = some t) : t.height ≤ 63 := by
  obtain ⟨document, -, hread⟩ := Option.bind_eq_some_iff.1 h
  split at hread
  next hdepth =>
    rw [depth_of_ofDocument? hread, Json.depthLimit] at hdepth
    omega
  next => cases hread

/-- What can be read equals its wire form, since the two zeros are equal. -/
theorem equals_wireForm (h : t.isReadable) : t.wireForm.equals t := by
  induction t with
  | constant value =>
    cases value with
    | finite negative x =>
      cases hzero : x.isZero <;>
        simp [wireForm, equals, Binary64.dropZeroSign, Binary64.equals, hzero]
    | _ => cases h
  | metric | placeholder => cases h
  | aggregate kind id => simp [wireForm, equals]
  | arithmetic op left right ihleft ihright =>
    obtain ⟨hleft, hright⟩ := Bool.and_eq_true_iff.1 h
    simp [wireForm, equals, ihleft hleft, ihright hright]

/-! ## Texts -/

/-- Both printed forms of a calculation are read up to 63 operations on top of each other. -/
theorem ofJson?_print (h : t.toDocument = .ok document) :
    ∀ print ∈ [Document.compact, Document.indented],
      ofJson? (print document) = if t.height ≤ 63 then ofDocument? document else none := by
  intro print hprint
  have hread := Document.parse?_print document (hasDigits_toDocument h) print hprint
  -- The limit of 127 levels is that of 63 operations and a leaf.
  have hdepth : document.depth ≤ Json.depthLimit ↔ t.height ≤ 63 := by
    rw [depth_toDocument h, Json.depthLimit]
    omega
  rw [ofJson?, hread]
  show (if document.depth ≤ Json.depthLimit then ofDocument? document else none) = _
  simp only [hdepth]

/-- A calculation without placeholders whose constants are finite is written. If the numbers that it
writes are read back, then what is read of its text is its wire form as long as no path has more
than 63 operations, and nothing beyond that, and the wire form is written as the same text. -/
theorem exists_toDocument_ofJson? (hplaceholder : t.hasPlaceholder = false)
    (hfinite : ∀ value ∈ t.constants, value.isFinite)
    (hread : ∀ value ∈ t.constants, value.IsReadBack) :
    ∃ document, t.toDocument = .ok document ∧ t.wireForm.toDocument = .ok document ∧
      ∀ print ∈ [Document.compact, Document.indented],
        ofJson? (print document) = if t.height ≤ 63 then some t.wireForm else none := by
  obtain ⟨document, hdocument⟩ := exists_toDocument hfinite
  refine ⟨document, hdocument, toDocument_wireForm hdocument, fun print hprint => ?_⟩
  rw [ofJson?_print hdocument print hprint,
    (ofDocument?_eq_some_iff hdocument hplaceholder).2 hread]

/-- A metric with a quote in its id, a fraction and a negative zero are read as written, up to the
sum and the sign. -/
theorem exists_toDocument_of_quoted_metric :
    let half := Binary64.ofDecimal false ⟨5, -1⟩
    let t := arithmetic .add (metric "\"é\"\n")
      (arithmetic .divide (constant half) (constant (.finite true .zero)))
    t.hasPlaceholder = false ∧ (∀ value ∈ t.constants, value.isFinite) ∧
      (∀ value ∈ t.constants, value.IsReadBack) ∧
      ∃ document, t.toDocument = .ok document ∧ t.wireForm.toDocument = .ok document ∧
        ∀ print ∈ [Document.compact, Document.indented],
          ofJson? (print document) = some (arithmetic .add (aggregate .sum "\"é\"\n")
            (arithmetic .divide (constant half) (constant (.finite false .zero)))) := by
  intro half t
  have hplaceholder : t.hasPlaceholder = false := rfl
  have hfinite : ∀ value ∈ t.constants, value.isFinite := by decide +kernel
  have hread : ∀ value ∈ t.constants, value.IsReadBack := by decide +kernel
  have hwire : t.wireForm = arithmetic .add (aggregate .sum "\"é\"\n")
      (arithmetic .divide (constant half) (constant (.finite false .zero))) := by decide +kernel
  refine ⟨hplaceholder, hfinite, hread, ?_⟩
  rw [← hwire]
  exact exists_toDocument_ofJson? hplaceholder hfinite hread

end Calculation

end MetricFormula
