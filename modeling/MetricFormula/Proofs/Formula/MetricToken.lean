import MetricFormula.Formula.MetricToken

/-!
# Scanning and splicing

How the metric tokens of a text depend on its parts. Scanning reads from left to right and
remembers at most one open brace, so the tokens of `u ++ v` are those of `u` followed by those of
`v` read with the brace that `u` leaves open.

## Main definitions

* `MetricToken.openAfter`: the brace that a text leaves open;
* `MetricToken.IsBoundary`: no token of the text would be split at a position;
* `MetricToken.shiftFrom`, `MetricToken.shiftBack`: where a token is after text in front of it was
  inserted or removed.

## Main results

* `MetricToken.scan_append` and `MetricToken.scan_append_of_open`: the tokens of a text that is cut
  at a boundary;
* `MetricToken.openAfter_ne_none_iff`: the texts that leave a brace open;
* `MetricToken.pairwise_scan`: the tokens of a text stand one behind the other;
* `MetricToken.isBoundary_iff`: at a boundary either no brace is open or the open one is never
  closed.
-/

namespace MetricFormula

namespace MetricToken

/-! ## Reading a text in two parts -/

/-- A character of a text stands between two parts of it. -/
theorem exists_append_cons {text : List Char} {index : Nat} {c : Char}
    (h : text[index]? = some c) : ∃ u v, text = u ++ c :: v ∧ u.length = index := by
  obtain ⟨hlt, rfl⟩ := List.getElem?_eq_some_iff.1 h
  refine ⟨text.take index, text.drop (index + 1), ?_, List.length_take_of_le (Nat.le_of_lt hlt)⟩
  rw [List.getElem_cons_drop, List.take_append_drop]

/-- The position of the opening brace that still waits for its closing brace after `text`. -/
def openAfter (position : Nat) (opened : Option Nat) : List Char → Option Nat
  | [] => opened
  | c :: rest =>
    match opened with
    | none => openAfter (position + 1) (if c = openingBrace then some position else none) rest
    | some opening =>
      openAfter (position + 1) (if c = closingBrace then none else some opening) rest

/-- The tokens of a text in two parts: the second part is read with the brace that the first one
leaves open. -/
theorem scanFrom_append (position : Nat) (opened : Option Nat) (u v : List Char) :
    scanFrom position opened (u ++ v) =
      scanFrom position opened u ++
        scanFrom (position + u.length) (openAfter position opened u) v := by
  induction u generalizing position opened with
  | nil => rfl
  | cons c u ih =>
    -- The second part begins at the same position, one step later.
    have hlength : position + (c :: u).length = position + 1 + u.length := by
      simp only [List.length_cons]
      omega
    rw [List.cons_append, hlength]
    cases opened with
    | none => exact ih _ _
    | some opening =>
      -- A closing brace adds a token on both sides, any other character adds none.
      by_cases hc : c = closingBrace
      · simp only [scanFrom, openAfter, hc, ↓reduceIte, List.cons_append, ih]
      · simp only [scanFrom, openAfter, hc, ↓reduceIte, ih]

/-- The brace that a text in two parts leaves open. -/
theorem openAfter_append (position : Nat) (opened : Option Nat) (u v : List Char) :
    openAfter position opened (u ++ v) =
      openAfter (position + u.length) (openAfter position opened u) v := by
  induction u generalizing position opened with
  | nil => rfl
  | cons c u ih =>
    have hlength : position + (c :: u).length = position + 1 + u.length := by
      simp only [List.length_cons]
      omega
    rw [List.cons_append, hlength]
    cases opened <;> exact ih _ _

/-- Without a closing brace there is no token. -/
theorem scanFrom_eq_nil {text : List Char} (hclosing : closingBrace ∉ text) (position : Nat)
    (opened : Option Nat) : scanFrom position opened text = [] := by
  induction text generalizing position opened with
  | nil => rfl
  | cons c text ih =>
    rw [List.mem_cons, not_or] at hclosing
    cases opened with
    | none => exact ih hclosing.2 _ _
    | some opening =>
      rw [scanFrom, if_neg (Ne.symm hclosing.1)]
      exact ih hclosing.2 _ _

/-- An open brace stays open over a text without a closing brace. -/
theorem openAfter_some {text : List Char} (hclosing : closingBrace ∉ text)
    (position opening : Nat) : openAfter position (some opening) text = some opening := by
  induction text generalizing position with
  | nil => rfl
  | cons c text ih =>
    rw [List.mem_cons, not_or] at hclosing
    rw [openAfter, if_neg (Ne.symm hclosing.1)]
    exact ih hclosing.2 _

/-- No brace is open after a text without an opening brace. -/
theorem openAfter_none {text : List Char} (hopening : openingBrace ∉ text) (position : Nat) :
    openAfter position none text = none := by
  induction text generalizing position with
  | nil => rfl
  | cons c text ih =>
    rw [List.mem_cons, not_or] at hopening
    rw [openAfter, if_neg (Ne.symm hopening.1)]
    exact ih hopening.2 _

/-- A brace that is open after a text was open before it or stands in it, with no closing brace
behind it. -/
theorem exists_of_openAfter {position opening : Nat} {opened : Option Nat} {text : List Char}
    (hopen : openAfter position opened text = some opening) :
    (opened = some opening ∧ closingBrace ∉ text) ∨
      ∃ u v, text = u ++ openingBrace :: v ∧ closingBrace ∉ v := by
  induction text generalizing position opened with
  | nil => exact .inl ⟨hopen, List.not_mem_nil⟩
  | cons c text ih =>
    cases opened with
    | none =>
      rw [openAfter] at hopen
      rcases ih hopen with ⟨hopened, hnever⟩ | ⟨u, v, rfl, hv⟩
      · -- Something is open behind this character only if it is an opening brace.
        by_cases hc : c = openingBrace
        · exact .inr ⟨[], text, by rw [hc, List.nil_append], hnever⟩
        · rw [if_neg hc] at hopened
          cases hopened
      · exact .inr ⟨c :: u, v, rfl, hv⟩
    | some earlier =>
      rw [openAfter] at hopen
      rcases ih hopen with ⟨hopened, hnever⟩ | ⟨u, v, rfl, hv⟩
      · by_cases hc : c = closingBrace
        · rw [if_pos hc] at hopened
          cases hopened
        · rw [if_neg hc] at hopened
          exact .inl ⟨hopened, List.not_mem_cons_of_ne_of_not_mem (Ne.symm hc) hnever⟩
      · exact .inr ⟨c :: u, v, rfl, hv⟩

/-- A brace is open after a text exactly if no closing brace follows one of its opening braces. -/
theorem openAfter_ne_none_iff {text : List Char} :
    openAfter 0 none text ≠ none ↔
      ∃ u v, text = u ++ openingBrace :: v ∧ closingBrace ∉ v := by
  constructor
  · intro hopen
    obtain ⟨opening, hopening⟩ := Option.ne_none_iff_exists'.1 hopen
    rcases exists_of_openAfter hopening with ⟨hopened, -⟩ | hparts
    · cases hopened
    · exact hparts
  · rintro ⟨u, v, rfl, hv⟩
    -- The brace opens unless another one is open there, and nothing closes the one that is open.
    rw [openAfter_append]
    cases openAfter 0 none u with
    | none =>
      rw [openAfter, if_pos rfl, openAfter_some hv]
      exact Option.some_ne_none _
    | some opening =>
      rw [openAfter, if_neg (by decide), openAfter_some hv]
      exact Option.some_ne_none _

/-- An open brace and the next closing brace make a token, and nothing is open after it. -/
theorem scanFrom_some_append {u : List Char} (hclosing : closingBrace ∉ u)
    (position opening : Nat) (v : List Char) :
    scanFrom position (some opening) (u ++ closingBrace :: v) =
      ⟨opening, position + u.length⟩ :: scanFrom (position + u.length + 1) none v := by
  rw [scanFrom_append, scanFrom_eq_nil hclosing, openAfter_some hclosing]
  simp [scanFrom]

/-! ## Positions -/

/-- The token `n` characters further to the right. -/
def shift (n : Nat) (token : MetricToken) : MetricToken :=
  ⟨token.opening + n, token.closing + n⟩

/-- Positions count from where the text starts. -/
theorem scanFrom_add (position n : Nat) (opened : Option Nat) (text : List Char) :
    scanFrom (position + n) (opened.map (· + n)) text =
      (scanFrom position opened text).map (shift n) := by
  induction text generalizing position opened with
  | nil => rfl
  | cons c text ih =>
    have hnext : position + n + 1 = position + 1 + n := by omega
    cases opened with
    | none =>
      by_cases hc : c = openingBrace
      · simpa [scanFrom, hc, hnext] using ih (position + 1) (some position)
      · simpa [scanFrom, hc, hnext] using ih (position + 1) none
    | some opening =>
      by_cases hc : c = closingBrace
      · simpa [scanFrom, hc, hnext, shift] using ih (position + 1) none
      · simpa [scanFrom, hc, hnext] using ih (position + 1) (some opening)

/-- The tokens of a text that starts at a position. -/
theorem scanFrom_none (position : Nat) (text : List Char) :
    scanFrom position none text = (scan text).map (shift position) := by
  simpa [scan] using scanFrom_add 0 position none text

/-- The bounds of the tokens of a text that is read from a position on: the opening brace may be
the one that was open before, everything else lies in the text. -/
theorem bounds_of_mem_scanFrom {position : Nat} {opened : Option Nat} {text : List Char}
    {token : MetricToken} (hmem : token ∈ scanFrom position opened text)
    (hopened : ∀ opening ∈ opened, opening < position) :
    (opened = some token.opening ∨ position ≤ token.opening) ∧
      token.opening < token.closing ∧ position ≤ token.closing ∧
        token.closing < position + text.length := by
  induction text generalizing position opened with
  | nil => simp [scanFrom] at hmem
  | cons c text ih =>
    rw [List.length_cons]
    cases opened with
    | none =>
      rw [scanFrom] at hmem
      -- The brace that opens here is in front of whatever follows.
      have hbounds := ih hmem (by grind)
      grind
    | some opening =>
      have hlt : opening < position := hopened opening rfl
      rw [scanFrom] at hmem
      split at hmem
      · -- The token ends here, or it is one of those behind.
        rcases List.mem_cons.1 hmem with rfl | hmem
        · simp only [true_or, true_and]
          omega
        · have hbounds := ih hmem (by simp)
          grind
      · have hbounds := ih hmem (by grind)
        grind

/-- A token opens before it closes, inside the text. -/
theorem bounds_of_mem_scan {text : List Char} {token : MetricToken} (hmem : token ∈ scan text) :
    token.opening < token.closing ∧ token.closing < text.length := by
  have hbounds := bounds_of_mem_scanFrom hmem (by simp)
  omega

/-- Every token ends before the next one begins, and so before all later ones. -/
theorem pairwise_scanFrom {position : Nat} {opened : Option Nat} {text : List Char}
    (hopened : ∀ opening ∈ opened, opening < position) :
    (scanFrom position opened text).Pairwise fun token later => token.closing < later.opening := by
  induction text generalizing position opened with
  | nil => exact .nil
  | cons c text ih =>
    cases opened with
    | none =>
      rw [scanFrom]
      exact ih (by grind)
    | some opening =>
      have hlt : opening < position := hopened opening rfl
      rw [scanFrom]
      split
      · -- What follows the token that ends here is read from the next position on.
        refine List.pairwise_cons.2 ⟨fun later hlater => ?_, ih (by simp)⟩
        have hbounds := bounds_of_mem_scanFrom hlater (by simp)
        simp only [reduceCtorEq, false_or] at hbounds
        simp only
        omega
      · exact ih (by grind)

/-- The tokens of a text stand one behind the other. -/
theorem pairwise_scan (text : List Char) :
    (scan text).Pairwise fun token later => token.closing < later.opening :=
  pairwise_scanFrom (by simp)

/-- An open brace stands in the text. -/
theorem openAfter_lt {position opening : Nat} {opened : Option Nat} {text : List Char}
    (hopen : openAfter position opened text = some opening)
    (hopened : ∀ earlier ∈ opened, earlier < position) : opening < position + text.length := by
  induction text generalizing position opened with
  | nil => exact hopened opening hopen
  | cons c text ih =>
    have hlength : position + (c :: text).length = position + 1 + text.length := by
      simp only [List.length_cons]
      omega
    rw [hlength]
    cases opened with
    | none => exact ih hopen (by grind)
    | some earlier =>
      -- The brace is either the one that was open before or stands further on.
      have hlt : earlier < position := hopened earlier rfl
      exact ih hopen (by grind)

/-! ## Boundaries -/

/-- No token of the text would be split by an edit at the position. -/
def IsBoundary (text : List Char) (position : Nat) : Prop :=
  containing? (scan text) position = none

/-- A position that no token is around is a boundary. -/
theorem isBoundary_iff_forall {text : List Char} {position : Nat} :
    IsBoundary text position ↔
      ∀ token ∈ scan text, position ≤ token.opening ∨ token.closing < position := by
  simp only [IsBoundary, containing?, List.find?_eq_none]
  refine forall₂_congr fun token _ => ?_
  simp only [contains, Bool.and_eq_true, decide_eq_true_eq, not_and, Nat.not_le]
  omega

/-- A character lies in no token if no token ends right behind it or is around the position behind
it. -/
theorem outside_of_endingAt?_eq_none {tokens : List MetricToken} {index : Nat}
    (hending : endingAt? tokens (index + 1) = none)
    (hinside : containing? tokens (index + 1) = none) :
    ∀ token ∈ tokens, index < token.opening ∨ token.closing < index := by
  intro token hmem
  have hnotEnding := List.find?_eq_none.1 hending token hmem
  have hnotInside := List.find?_eq_none.1 hinside token hmem
  simp only [after, contains, beq_iff_eq, Bool.and_eq_true, decide_eq_true_eq, not_and]
    at hnotEnding hnotInside
  omega

/-- A character lies in no token if no token starts at it or is around the position in front of
it. -/
theorem outside_of_startingAt?_eq_none {tokens : List MetricToken} {position : Nat}
    (hstarting : startingAt? tokens position = none)
    (hinside : containing? tokens position = none) :
    ∀ token ∈ tokens, position < token.opening ∨ token.closing < position := by
  intro token hmem
  have hnotStarting := List.find?_eq_none.1 hstarting token hmem
  have hnotInside := List.find?_eq_none.1 hinside token hmem
  simp only [contains, beq_iff_eq, Bool.and_eq_true, decide_eq_true_eq, not_and]
    at hnotStarting hnotInside
  omega

/-- At a boundary either no brace is open or the open one is never closed. -/
theorem isBoundary_iff {u v : List Char} :
    IsBoundary (u ++ v) u.length ↔ openAfter 0 none u = none ∨ closingBrace ∉ v := by
  rw [isBoundary_iff_forall, scan, scanFrom_append, Nat.zero_add]
  constructor
  · intro hboundary
    rcases hopen : openAfter 0 none u with _ | opening
    · exact Or.inl rfl
    · right
      intro hclosing
      -- Together with the first closing brace behind it, an open brace is a token around the cut.
      obtain ⟨w, rest, rfl, hw⟩ := List.eq_append_cons_of_mem hclosing
      have hlt : opening < 0 + u.length := openAfter_lt hopen (by simp)
      have htoken := hboundary ⟨opening, u.length + w.length⟩ (by
        rw [hopen, scanFrom_some_append hw]
        simp)
      simp only at htoken
      omega
  · intro hcut token hmem
    -- Tokens of the first part end before the cut. Those of the second part begin behind it, or
    -- there are none.
    rcases List.mem_append.1 hmem with hmem | hmem
    · have hbounds := bounds_of_mem_scan hmem
      omega
    · rcases hcut with hopen | hclosing
      · rw [hopen] at hmem
        have hbounds := bounds_of_mem_scanFrom hmem (by simp)
        simp only [reduceCtorEq, false_or] at hbounds
        omega
      · simp [scanFrom_eq_nil hclosing] at hmem

/-- The tokens of a text that is cut where no brace is open. -/
theorem scan_append {u : List Char} (hopen : openAfter 0 none u = none) (v : List Char) :
    scan (u ++ v) = scan u ++ (scan v).map (shift u.length) := by
  rw [scan, scanFrom_append, hopen, Nat.zero_add, scanFrom_none u.length v, ← scan]

/-- Where an open brace is never closed there are no further tokens. -/
theorem scan_append_of_notMem (u : List Char) {v : List Char} (hclosing : closingBrace ∉ v) :
    scan (u ++ v) = scan u := by
  rw [scan, scanFrom_append, scanFrom_eq_nil hclosing, List.append_nil, ← scan]

/-- At a boundary the tokens of the first part are followed by tokens that begin behind it. -/
theorem exists_scan_append {u v : List Char} (hboundary : IsBoundary (u ++ v) u.length) :
    ∃ later, scan (u ++ v) = scan u ++ later ∧ ∀ token ∈ later, u.length ≤ token.opening := by
  rcases isBoundary_iff.1 hboundary with hopen | hnever
  · refine ⟨_, scan_append hopen v, fun token hmem => ?_⟩
    obtain ⟨original, -, rfl⟩ := List.mem_map.1 hmem
    exact Nat.le_add_left _ _
  · exact ⟨[], by rw [scan_append_of_notMem u hnever, List.append_nil], List.forall_mem_nil _⟩

/-- A token begins where no brace is open and ends with the next closing brace. -/
theorem exists_of_mem_scanFrom {position : Nat} {opened : Option Nat} {text : List Char}
    {token : MetricToken} (hmem : token ∈ scanFrom position opened text) :
    (∃ w v, text = w ++ closingBrace :: v ∧ closingBrace ∉ w ∧
        opened = some token.opening ∧ token.closing = position + w.length) ∨
      ∃ u w v, text = u ++ openingBrace :: (w ++ closingBrace :: v) ∧ closingBrace ∉ w ∧
        openAfter position opened u = none ∧
        token = ⟨position + u.length, position + u.length + w.length + 1⟩ := by
  induction text generalizing position opened with
  | nil => simp [scanFrom] at hmem
  | cons c text ih =>
    cases opened with
    | none =>
      rw [scanFrom] at hmem
      -- A token that was open at this character opens here if it is a brace.
      rcases ih hmem with ⟨w, v, rfl, hw, hopened, hclosing⟩ | ⟨u, w, v, rfl, hw, hopen, rfl⟩
      · by_cases hc : c = openingBrace
        · subst hc
          simp only [↓reduceIte, Option.some.injEq] at hopened
          refine Or.inr ⟨[], w, v, rfl, hw, rfl, ?_⟩
          cases token
          simp_all
          omega
        · simp [hc] at hopened
      · refine Or.inr ⟨c :: u, w, v, rfl, hw, hopen, ?_⟩
        simp only [List.length_cons, mk.injEq]
        omega
    | some opening =>
      rw [scanFrom] at hmem
      -- The open brace is closed here or stays open.
      split at hmem
      next hc =>
        subst hc
        rcases List.mem_cons.1 hmem with rfl | hmem
        · exact Or.inl ⟨[], text, rfl, by simp, rfl, by simp⟩
        · rcases ih hmem with ⟨w, v, rfl, hw, hopened, hclosing⟩ | ⟨u, w, v, rfl, hw, hopen, rfl⟩
          · simp at hopened
          · refine Or.inr ⟨closingBrace :: u, w, v, rfl, hw, by simpa [openAfter] using hopen, ?_⟩
            simp only [List.length_cons, mk.injEq]
            omega
      next hc =>
        rcases ih hmem with ⟨w, v, rfl, hw, hopened, hclosing⟩ | ⟨u, w, v, rfl, hw, hopen, rfl⟩
        · refine Or.inl ⟨c :: w, v, rfl, by simp [Ne.symm hc, hw], hopened, ?_⟩
          simp only [List.length_cons]
          omega
        · refine Or.inr ⟨c :: u, w, v, rfl, hw, by simpa [openAfter, hc] using hopen, ?_⟩
          simp only [List.length_cons, mk.injEq]
          omega

/-- A text around one of its tokens. -/
theorem exists_of_mem_scan {text : List Char} {token : MetricToken} (hmem : token ∈ scan text) :
    ∃ u w v, text = u ++ openingBrace :: (w ++ closingBrace :: v) ∧ closingBrace ∉ w ∧
      openAfter 0 none u = none ∧ token = ⟨u.length, u.length + w.length + 1⟩ := by
  rcases exists_of_mem_scanFrom hmem with ⟨_, _, _, _, hopened, _⟩ | ⟨u, w, v, h⟩
  · simp at hopened
  · exact ⟨u, w, v, by simpa using h⟩

/-- A token ends with a closing brace. -/
theorem getElem?_closing {text : List Char} {token : MetricToken} (hmem : token ∈ scan text) :
    text[token.closing]? = some closingBrace := by
  obtain ⟨u, w, v, rfl, -, -, rfl⟩ := exists_of_mem_scan hmem
  have hsplit : u ++ openingBrace :: (w ++ closingBrace :: v) =
      (u ++ openingBrace :: w) ++ closingBrace :: v := by simp
  have hlength : u.length + w.length + 1 = (u ++ openingBrace :: w).length := by
    simp only [List.length_append, List.length_cons]
    omega
  rw [hsplit, hlength, List.getElem?_append_right (Nat.le_refl _), Nat.sub_self]
  rfl

/-- The token that ends right before the position behind a token is this token. -/
theorem endingAt?_after {text : List Char} {token : MetricToken} (hmem : token ∈ scan text) :
    endingAt? (scan text) token.after = some token := by
  obtain ⟨earlier, later, hscan⟩ := List.append_of_mem hmem
  have horder := (List.pairwise_append.1 (hscan ▸ pairwise_scan text)).2.2
  -- The tokens in front of it end earlier.
  have hearlier : earlier.find? (·.after == token.after) = none := by
    refine List.find?_eq_none.2 fun other hother hafter => ?_
    have hbefore := horder other hother token List.mem_cons_self
    have hbounds := bounds_of_mem_scan hmem
    have hclosing : other.closing = token.closing := Nat.succ.inj (beq_iff_eq.1 hafter)
    omega
  rw [endingAt?, hscan, List.find?_append, hearlier, Option.none_or]
  exact List.find?_cons_of_pos (beq_self_eq_true _)

/-- A brace, text without a closing brace, and a closing brace are one token. -/
theorem scan_token {w : List Char} (hclosing : closingBrace ∉ w) :
    scan (openingBrace :: (w ++ [closingBrace])) = [⟨0, w.length + 1⟩] := by
  rw [scan, scanFrom, if_pos rfl, scanFrom_some_append hclosing]
  simp [scanFrom, Nat.add_comm]

/-- Nothing is open after a token. -/
theorem openAfter_token {w : List Char} (hclosing : closingBrace ∉ w) (position : Nat) :
    openAfter position none (openingBrace :: (w ++ [closingBrace])) = none := by
  rw [openAfter, if_pos rfl, openAfter_append, openAfter_some hclosing]
  simp [openAfter]

/-! ## Splicing -/

/-- Where a token is after `n` characters were inserted at a position. -/
def shiftFrom (position n : Nat) (token : MetricToken) : MetricToken :=
  if position ≤ token.opening then token.shift n else token

/-- Where a token is after the `n` characters from a position on were removed. -/
def shiftBack (position n : Nat) (token : MetricToken) : MetricToken :=
  if position ≤ token.opening then ⟨token.opening - n, token.closing - n⟩ else token

/-- What a token says does not depend on the text after it. -/
theorem text_append {u : List Char} {token : MetricToken} (hbounds : token.closing < u.length)
    (horder : token.opening < token.closing) (v : List Char) :
    token.text (u ++ v) = token.text u := by
  have hlength : token.length ≤ (u.drop token.opening).length := by
    simp only [length, List.length_drop]
    omega
  rw [text, List.drop_append_of_le_length (by omega), List.take_append_of_le_length hlength, ← text]

/-- What a token says does not depend on the text before it. -/
theorem text_shift_append (u v : List Char) (token : MetricToken) :
    (token.shift u.length).text (u ++ v) = token.text v := by
  have hlength : (token.shift u.length).length = token.length := by
    simp only [length, shift]
    omega
  rw [text, hlength, shift, Nat.add_comm token.opening, ← List.drop_drop, List.drop_left, ← text]

/-- Tokens in front of a position stay where they are. -/
theorem shiftFrom_of_lt {position : Nat} {token : MetricToken} (h : token.opening < position)
    (n : Nat) : token.shiftFrom position n = token :=
  if_neg (by omega)

/-- Tokens in front of a position stay where they are. -/
theorem shiftBack_of_lt {position : Nat} {token : MetricToken} (h : token.opening < position)
    (n : Nat) : token.shiftBack position n = token :=
  if_neg (by omega)

/-- Tokens from a position on move to the right. -/
@[simp]
theorem shiftFrom_shift (position n : Nat) (token : MetricToken) :
    (token.shift position).shiftFrom position n = token.shift (position + n) := by
  simp only [shiftFrom, shift, Nat.le_add_left, ↓reduceIte, Nat.add_assoc]

/-- Tokens from a position on move to the left. -/
@[simp]
theorem shiftBack_shift (position n : Nat) (token : MetricToken) :
    (token.shift (position + n)).shiftBack position n = token.shift position := by
  have hle : position ≤ token.opening + (position + n) := by omega
  simp only [shiftBack, shift, hle, ↓reduceIte, mk.injEq]
  omega

/-- A token from a position on is a token of the text that starts there. -/
theorem eq_shift_of_le {n : Nat} {token : MetricToken} (hopening : n ≤ token.opening)
    (hclosing : n ≤ token.closing) :
    token = shift n ⟨token.opening - n, token.closing - n⟩ := by
  cases token
  simp only [shift, mk.injEq] at *
  omega

/-- The tokens of the first part of a text stay when something is inserted behind it. -/
theorem map_shiftFrom_scan (u : List Char) (n : Nat) :
    (scan u).map (shiftFrom u.length n) = scan u := by
  refine (List.map_congr_left fun token hmem => ?_).trans (List.map_id _)
  have hbounds := bounds_of_mem_scan hmem
  exact shiftFrom_of_lt (by omega) n

/-- The tokens of the first part of a text stay when something is removed behind it. -/
theorem map_shiftBack_scan (u : List Char) (n : Nat) :
    (scan u).map (shiftBack u.length n) = scan u := by
  refine (List.map_congr_left fun token hmem => ?_).trans (List.map_id _)
  have hbounds := bounds_of_mem_scan hmem
  exact shiftBack_of_lt (by omega) n

/-- A token says the part of the text that it spans. -/
theorem text_eq_of_span {u w v : List Char} {token : MetricToken}
    (hopening : token.opening = u.length) (hlength : token.length = w.length) :
    token.text (u ++ (w ++ v)) = w := by
  rw [text, hopening, hlength, List.drop_left, List.take_left]

/-- Every token says the same after an insertion at a boundary. -/
theorem text_shiftFrom {u v : List Char} (hboundary : IsBoundary (u ++ v) u.length)
    (w : List Char) {token : MetricToken} (hmem : token ∈ scan (u ++ v)) :
    (token.shiftFrom u.length w.length).text (u ++ (w ++ v)) = token.text (u ++ v) := by
  have hbounds := bounds_of_mem_scan hmem
  -- A token lies behind the cut, and the text in front of it got longer, or in front of the cut,
  -- and the text behind it did.
  rcases isBoundary_iff_forall.1 hboundary token hmem with hafter | hbefore
  · rw [eq_shift_of_le hafter (by omega), shiftFrom_shift, ← List.length_append,
      ← List.append_assoc, text_shift_append, text_shift_append]
  · rw [shiftFrom_of_lt (by omega), text_append hbefore hbounds.1, text_append hbefore hbounds.1]

/-- Every token outside a part of the text says the same after that part was removed. -/
theorem text_shiftBack {u w v : List Char} {token : MetricToken}
    (hmem : token ∈ scan (u ++ (w ++ v)))
    (houtside : u.length + w.length ≤ token.opening ∨ token.closing < u.length) :
    (token.shiftBack u.length w.length).text (u ++ v) = token.text (u ++ (w ++ v)) := by
  have hbounds := bounds_of_mem_scan hmem
  rcases houtside with hafter | hbefore
  · rw [eq_shift_of_le hafter (by omega), shiftBack_shift, ← List.length_append,
      ← List.append_assoc, text_shift_append, text_shift_append]
  · rw [shiftBack_of_lt (by omega), text_append hbefore hbounds.1, text_append hbefore hbounds.1]

/-- Where no brace is open, text that leaves no brace open adds its tokens between those before
and those after it. -/
theorem scan_insert {u w : List Char} (hu : openAfter 0 none u = none)
    (hw : openAfter 0 none w = none) (v : List Char) :
    scan (u ++ (w ++ v)) =
      scan u ++ ((scan w).map (shift u.length) ++
        (scan v).map (shift (u.length + w.length))) := by
  rw [scan_append hu, scan_append hw, List.map_append, List.map_map]
  refine congrArg (fun tokens => scan u ++ (_ ++ tokens)) (List.map_congr_left fun token _ => ?_)
  simp only [Function.comp_apply, shift, Nat.add_comm, Nat.add_left_comm]

/-- Where no brace is open, text that is one token adds this token and moves those after it. -/
theorem scan_insert_single {u w : List Char} {token : MetricToken}
    (hu : openAfter 0 none u = none) (hw : openAfter 0 none w = none) (hscan : scan w = [token])
    (v : List Char) :
    scan (u ++ (w ++ v)) =
      scan u ++ token.shift u.length ::
        ((scan v).map (shift u.length)).map (shiftFrom u.length w.length) := by
  rw [scan_insert hu hw, hscan, List.map_singleton, List.singleton_append, List.map_map]
  refine congrArg (scan u ++ _ :: ·) (List.map_congr_left fun later _ => ?_)
  rw [Function.comp_apply, shiftFrom_shift]

/-- Inserting text without braces at a boundary moves the tokens after it. -/
theorem scan_insert_plain {u v : List Char} (hboundary : IsBoundary (u ++ v) u.length)
    {w : List Char} (hopening : openingBrace ∉ w) (hclosing : closingBrace ∉ w) :
    scan (u ++ (w ++ v)) = (scan (u ++ v)).map (shiftFrom u.length w.length) := by
  -- Behind a brace that is never closed there are no tokens to move.
  rcases isBoundary_iff.1 hboundary with hopen | hnever
  · have hw : scan w = [] := scanFrom_eq_nil hclosing 0 none
    rw [scan_insert hopen (openAfter_none hopening 0), scan_append hopen, hw, List.map_append,
      map_shiftFrom_scan, List.map_map]
    refine congrArg (scan u ++ ·) (List.map_congr_left fun token _ => ?_)
    rw [Function.comp_apply, shiftFrom_shift]
  · rw [scan_append_of_notMem u hnever,
      scan_append_of_notMem u (List.not_mem_append hclosing hnever), map_shiftFrom_scan]

/-- A token between texts without braces is the only token. -/
theorem scan_padded {before w after : List Char}
    (hbefore : openingBrace ∉ before ∧ closingBrace ∉ before) (hclosing : closingBrace ∉ w)
    (hafter : closingBrace ∉ after) :
    scan (before ++ (openingBrace :: (w ++ [closingBrace]) ++ after)) =
      [⟨before.length, before.length + w.length + 1⟩] := by
  have hb : scan before = [] := scanFrom_eq_nil hbefore.2 0 none
  rw [scan_append (openAfter_none hbefore.1 0), scan_append_of_notMem _ hafter, hb,
    scan_token hclosing]
  simp only [shift, List.map_cons, List.map_nil, List.nil_append, List.cons.injEq, mk.injEq,
    and_true]
  omega

/-- Nothing is open after a token between texts without braces. -/
theorem openAfter_padded {before w after : List Char} (hbefore : openingBrace ∉ before)
    (hclosing : closingBrace ∉ w) (hafter : openingBrace ∉ after) (position : Nat) :
    openAfter position none (before ++ (openingBrace :: (w ++ [closingBrace]) ++ after)) =
      none := by
  rw [openAfter_append, openAfter_none hbefore, openAfter_append, openAfter_token hclosing,
    openAfter_none hafter]

/-- An open brace takes the first closing brace behind it. -/
theorem scan_append_of_open {u : List Char} {opening : Nat}
    (hopen : openAfter 0 none u = some opening) {w rest : List Char} (hw : closingBrace ∉ w)
    (hrest : closingBrace ∉ rest) :
    scan (u ++ (w ++ closingBrace :: rest)) = scan u ++ [⟨opening, u.length + w.length⟩] := by
  rw [scan, scanFrom_append, hopen, Nat.zero_add, scanFrom_some_append hw, scanFrom_eq_nil hrest,
    ← scan]

/-- Behind a brace that nothing closes, new braces make another token than the one that they span:
if they make that one, no brace is open. -/
theorem openAfter_eq_none_of_mem {u v left inner right : List Char}
    (hboundary : IsBoundary (u ++ v) u.length) (hleft : closingBrace ∉ left)
    (hinner : closingBrace ∉ inner) (hright : closingBrace ∉ right) {closing : Nat}
    (hmem : ⟨u.length + left.length, closing⟩ ∈
      scan (u ++ (left ++ (openingBrace :: (inner ++ [closingBrace]) ++ right) ++ v))) :
    openAfter 0 none u = none := by
  rcases isBoundary_iff.1 hboundary with hopen | hnever
  · exact hopen
  · rcases hopen : openAfter 0 none u with _ | opening
    · rfl
    · have hlt : opening < 0 + u.length := openAfter_lt hopen (by simp)
      -- If a brace were open, it would take the closing brace that was inserted.
      have hsplit : left ++ (openingBrace :: (inner ++ [closingBrace]) ++ right) ++ v =
          (left ++ openingBrace :: inner) ++ closingBrace :: (right ++ v) := by simp
      have hbefore : closingBrace ∉ left ++ openingBrace :: inner :=
        List.not_mem_append hleft (List.not_mem_cons_of_ne_of_not_mem (by decide) hinner)
      rw [hsplit, scan_append_of_open hopen hbefore (List.not_mem_append hright hnever),
        List.mem_append] at hmem
      -- The token in question is neither an earlier one nor the one that begins at the open brace.
      rcases hmem with hearlier | hswallowed
      · have hbounds := bounds_of_mem_scan hearlier
        simp only at hbounds
        omega
      · simp only [List.mem_singleton, mk.injEq] at hswallowed
        omega

/-- Removing a character that lies in no token moves the tokens after it. -/
theorem scan_remove_char {u v : List Char} {c : Char}
    (houtside : ∀ token ∈ scan (u ++ (c :: v)),
      u.length < token.opening ∨ token.closing < u.length) :
    scan (u ++ v) = (scan (u ++ (c :: v))).map (shiftBack u.length 1) := by
  have hboundary : IsBoundary (u ++ (c :: v)) u.length :=
    isBoundary_iff_forall.2 fun token hmem => (houtside token hmem).imp_left Nat.le_of_lt
  -- An open brace that nothing closes hides whatever follows, so both texts end their tokens there.
  have hhidden (hnever : closingBrace ∉ c :: v) :
      scan (u ++ v) = (scan (u ++ (c :: v))).map (shiftBack u.length 1) := by
    rw [scan_append_of_notMem u hnever,
      scan_append_of_notMem u (fun h => hnever (List.mem_cons_of_mem c h)), map_shiftBack_scan]
  rcases isBoundary_iff.1 hboundary with hopen | hnever
  · by_cases hc : c = openingBrace
    · -- An opening brace that lies in no token is never closed.
      refine hhidden ?_
      have hnext : IsBoundary ((u ++ [c]) ++ v) (u ++ [c]).length := by
        rw [List.append_assoc, List.length_append]
        exact isBoundary_iff_forall.2 fun token hmem =>
          (houtside token hmem).imp Nat.succ_le_of_lt Nat.lt_succ_of_lt
      rcases isBoundary_iff.1 hnext with hclosed | hnever
      · simp [openAfter_append, hopen, openAfter, hc] at hclosed
      · simpa [hc, openingBrace, closingBrace] using hnever
    · -- Any other character was inserted between the two parts without a token of its own.
      have hw : scan [c] = [] := by simp [scan, scanFrom]
      have hcons : u ++ c :: v = u ++ ([c] ++ v) := rfl
      rw [hcons, scan_insert hopen (openAfter_none (by simpa using Ne.symm hc) 0),
        scan_append hopen, hw, List.map_nil, List.nil_append, List.map_append, map_shiftBack_scan,
        List.map_map]
      refine congrArg (scan u ++ ·) (List.map_congr_left fun token _ => ?_)
      rw [Function.comp_apply, List.length_singleton, shiftBack_shift]
  · exact hhidden hnever

/-- Removing a token leaves the tokens before it and moves those after it, and each of them says
what it said. -/
theorem exists_scan_remove {text : List Char} {token : MetricToken} (hmem : token ∈ scan text) :
    ∃ before after, scan text = before ++ token :: after ∧
      scan (text.take token.opening ++ text.drop token.after) =
        (before ++ after).map (shiftBack token.opening token.length) ∧
      ∀ other ∈ before ++ after,
        (other.shiftBack token.opening token.length).text
          (text.take token.opening ++ text.drop token.after) = other.text text := by
  obtain ⟨u, inner, v, htext, hclosing, hopen, rfl⟩ := exists_of_mem_scan hmem
  -- The text is what stands before the token, the token itself and what stands behind it.
  let w := openingBrace :: (inner ++ [closingBrace])
  have hw : w.length = inner.length + 2 := by simp [w]
  have hparts : text = u ++ (w ++ v) := by simp [w, htext]
  have htoken : shift u.length ⟨0, inner.length + 1⟩ =
      ⟨u.length, u.length + inner.length + 1⟩ := by
    simp only [shift, mk.injEq]
    omega
  -- The tokens are those before, this one, and those behind it, moved by its length.
  have hscan : scan text =
      scan u ++ ⟨u.length, u.length + inner.length + 1⟩ ::
        (scan v).map (shift (u.length + w.length)) := by
    rw [hparts, scan_insert hopen (openAfter_token hclosing 0), scan_token hclosing,
      List.map_singleton, htoken, List.singleton_append]
  have hlength : u.length + inner.length + 1 - u.length + 1 = w.length := by omega
  have hafter : u.length + inner.length + 1 + 1 = u.length + w.length := by omega
  -- Without the token the two parts stand next to each other.
  have hremoved : text.take u.length ++ text.drop (u.length + w.length) = u ++ v := by
    rw [hparts, List.take_left, ← List.drop_drop, List.drop_left, List.drop_left]
  refine ⟨_, _, hscan, ?_, fun other hother => ?_⟩
  · simp only [after, length, hlength, hafter, hremoved]
    rw [scan_append hopen, List.map_append, map_shiftBack_scan, List.map_map]
    refine congrArg (scan u ++ ·) (List.map_congr_left fun token _ => ?_)
    rw [Function.comp_apply, shiftBack_shift]
  · simp only [after, length, hlength, hafter, hremoved]
    rw [hparts]
    refine text_shiftBack (hparts ▸ hscan ▸ ?_) ?_
    · exact List.mem_append.2 ((List.mem_append.1 hother).imp_right (List.mem_cons_of_mem _))
    · rcases List.mem_append.1 hother with hbefore | hafter
      · exact Or.inr (bounds_of_mem_scan hbefore).2
      · obtain ⟨original, _, rfl⟩ := List.mem_map.1 hafter
        exact Or.inl (Nat.le_add_left _ _)

end MetricToken

end MetricFormula
