import MetricFormula.Proofs.Formula.Brackets

/-!
# Balance of prefixes

Brackets are paired by rank, which is the usual check of balance: reading from left to right there
are never more closing than opening brackets of a kind, and in the end there are as many of both.
What is compared are positions of single brackets, so it does not matter whether positions are
counted in characters or in the bytes of the encoded text.

## Main definitions

* `byteOffset`: a position, counted in bytes.

## Main results

* `openCount?_eq_some_iff`: the number of open brackets is what prefixes count;
* `bracketsBalanced_iff_forall_prefix`: brackets are balanced exactly if all prefixes say so;
* `bracketsBalanced_eq_byteOffset`: brackets may be paired by their bytes.
-/

namespace MetricFormula

/-! ## Counting in prefixes -/

variable {opening closing : Char}

/-- The prefixes of a text are the empty one and those that begin with its first character. -/
theorem forall_prefix_cons_iff {P : List Char → Prop} {c : Char} {text : List Char} :
    (∀ start, start <+: c :: text → P start) ↔
      P [] ∧ ∀ start, start <+: text → P (c :: start) := by
  constructor
  · intro h
    exact ⟨h [] List.nil_prefix, fun start hstart => h _ (List.cons_prefix_cons.2 ⟨rfl, hstart⟩)⟩
  · rintro ⟨hnil, hcons⟩ start hstart
    rcases List.prefix_cons_iff.1 hstart with rfl | ⟨rest, rfl, hrest⟩
    · exact hnil
    · exact hcons rest hrest

/-- The number of brackets that a text leaves open is that of its opening brackets less that of its
closing ones, if no prefix of it closes more than are open. -/
theorem openCount?_eq_some_iff (hne : opening ≠ closing) (text : List Char) {count result : Nat} :
    openCount? opening closing count text = some result ↔
      (∀ start, start <+: text → start.count closing ≤ count + start.count opening) ∧
        count + text.count opening = result + text.count closing := by
  induction text generalizing count with
  | nil => simp [openCount?]
  | cons c text ih =>
    rw [openCount?_cons, openStep?, forall_prefix_cons_iff, List.count_nil,
      and_iff_right (Nat.zero_le _)]
    by_cases hopening : c = opening
    · -- One more bracket is open from here on.
      obtain rfl := hopening
      rw [if_pos rfl, Option.bind_some, ih]
      simp only [List.count_cons_self, List.count_cons_of_ne hne]
      refine and_congr (forall₂_congr fun start _ => ?_) ?_ <;> omega
    rw [if_neg hopening]
    by_cases hclosing : c = closing
    · obtain rfl := hclosing
      rw [if_pos rfl]
      simp only [List.count_cons_self, List.count_cons_of_ne hne.symm]
      cases count with
      | zero =>
        -- The prefix that ends here closes a bracket that is not open.
        refine iff_of_false (by simp) fun h => ?_
        exact Nat.not_succ_le_zero _ (h.1 [] List.nil_prefix)
      | succ count =>
        rw [if_neg (Nat.succ_ne_zero count), Option.bind_some, ih, Nat.add_sub_cancel]
        refine and_congr (forall₂_congr fun start _ => ?_) ?_ <;> omega
    · rw [if_neg hclosing, Option.bind_some, ih]
      simp only [List.count_cons_of_ne hopening, List.count_cons_of_ne hclosing]

/-- Brackets are balanced exactly if, for each kind on its own, no prefix of the text has more
closing than opening brackets and the whole text has as many of both. -/
theorem bracketsBalanced_iff_forall_prefix (text : List Char) :
    bracketsBalanced text ↔ ∀ pair ∈ bracketPairs,
      (∀ start, start <+: text → start.count pair.2 ≤ start.count pair.1) ∧
        text.count pair.1 = text.count pair.2 := by
  rw [bracketsBalanced_iff]
  refine forall₂_congr fun pair hpair => ?_
  rw [openCount?_eq_some_iff (bracketPairs_ne pair hpair)]
  simp only [Nat.zero_add]

/-- Three kinds of brackets may overlap, and none may be closed before it is opened. -/
example : bracketsBalanced "([)]".toList ∧ ¬bracketsBalanced ")(".toList := by
  decide

/-! ## Positions in bytes -/

/-- Pairing by rank depends on the order of positions only. -/
theorem pairedInOrder_map {position : Nat → Nat} {opening closing : List Nat}
    (h : ∀ i ∈ opening, ∀ j ∈ closing, position i < position j ↔ i < j) :
    pairedInOrder (opening.map position) (closing.map position) =
      pairedInOrder opening closing := by
  induction opening generalizing closing with
  | nil => cases closing <;> rfl
  | cons i opening ih =>
    cases closing with
    | nil => rfl
    | cons j closing =>
      have hfirst := h i List.mem_cons_self j List.mem_cons_self
      have hrest := ih fun i' hi' j' hj' =>
        h i' (List.mem_cons_of_mem i hi') j' (List.mem_cons_of_mem j hj')
      rw [List.map_cons, List.map_cons, pairedInOrder, pairedInOrder, hrest,
        decide_eq_decide.2 hfirst]

/-- The number of bytes in front of a position. -/
def byteOffset (text : List Char) (position : Nat) : Nat :=
  (String.ofList (text.take position)).utf8ByteSize

theorem byteOffset_lt_byteOffset {text : List Char} {i j : Nat} (hlt : i < j)
    (hj : j ≤ text.length) : byteOffset text i < byteOffset text j := by
  -- The text in front of the second position is longer by at least one character.
  have hsplit : text.take j = text.take i ++ (text.take j).drop i := by
    have htake := List.take_append_drop i (text.take j)
    rw [List.take_take, Nat.min_eq_left (Nat.le_of_lt hlt)] at htake
    exact htake.symm
  have hne : String.ofList ((text.take j).drop i) ≠ "" := by
    rw [Ne, String.ofList_eq_empty_iff, ← List.length_eq_zero_iff, List.length_drop,
      List.length_take]
    omega
  have hpos := Nat.pos_of_ne_zero (mt String.utf8ByteSize_eq_zero_iff.1 hne)
  rw [byteOffset, byteOffset, hsplit, String.ofList_append, String.utf8ByteSize_append]
  omega

theorem byteOffset_lt_iff {text : List Char} {i j : Nat} (hi : i ≤ text.length)
    (hj : j ≤ text.length) : byteOffset text i < byteOffset text j ↔ i < j := by
  refine ⟨fun h => ?_, fun hlt => byteOffset_lt_byteOffset hlt hj⟩
  rcases Nat.lt_trichotomy i j with hlt | rfl | hlt
  · exact hlt
  · exact absurd h (Nat.lt_irrefl _)
  · exact absurd h (Nat.lt_asymm (byteOffset_lt_byteOffset hlt hi))

theorem lt_length_of_mem_indicesOf {c : Char} {text : List Char} {i : Nat}
    (h : i ∈ indicesOf c text) : i < text.length := by
  obtain ⟨⟨d, j⟩, hmem, heq⟩ := List.mem_filterMap.1 h
  have hlt := (List.getElem?_eq_some_iff.1 (List.mem_zipIdx_iff_getElem?.1 hmem)).1
  dsimp only at heq
  split at heq
  next =>
    cases heq
    exact hlt
  next => cases heq

/-- Brackets may as well be paired by their positions in bytes, in which characters differ in
width. -/
theorem bracketsBalanced_eq_byteOffset (text : List Char) :
    bracketsBalanced text = bracketPairs.all fun pair =>
      pairedInOrder ((indicesOf pair.1 text).map (byteOffset text))
        ((indicesOf pair.2 text).map (byteOffset text)) := by
  refine congrArg bracketPairs.all (funext fun pair => ?_)
  refine (pairedInOrder_map fun i hi j hj => ?_).symm
  exact byteOffset_lt_iff (Nat.le_of_lt (lt_length_of_mem_indicesOf hi))
    (Nat.le_of_lt (lt_length_of_mem_indicesOf hj))

end MetricFormula
