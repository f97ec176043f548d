import Mathlib.Data.List.Pairwise
import Mathlib.Order.Bounds.Basic
import MetricFormula.Proofs.Formula.MetricToken

/-!
# What the tokens of a formula are

The tokens of a formula, said without scanning it: from the end of one token on the next one starts
at the first opening brace and ends with the first closing brace behind that, and there is no
further token where one of the two is missing. Only one list of tokens is like that, however many
stray, nested and unclosed braces there are. Since its tokens stand one behind the other, no
position belongs to two of them in the same way, and looking for the token of a position finds it.

## Main definitions

* `MetricToken.places`: where a character stands in a text;
* `MetricToken.IsExact`: the tokens of a formula from a position on.

## Main results

* `MetricToken.IsExact.unique`, `MetricToken.isExact_scan`: scanning finds the only such list;
* `MetricToken.scan_exact`: so it does, and the token of a position is found without doubt.
-/

namespace MetricFormula

namespace MetricToken

/-- The indices from a position on at which `c` stands in the text. -/
def places (text : List Char) (c : Char) (position : Nat) : Set Nat :=
  {index | position ≤ index ∧ text[index]? = some c}

/-- Where the last of the tokens ends, or the position from which they are looked for. -/
def resume (position : Nat) (tokens : List MetricToken) : Nat :=
  (tokens.getLast?.map after).getD position

/-- From the position on there is no opening brace, or the first one is never closed. -/
def IsDone (formula : List Char) (position : Nat) : Prop :=
  places formula openingBrace position = ∅ ∨
    ∃ opening, IsLeast (places formula openingBrace position) opening ∧
      places formula closingBrace (opening + 1) = ∅

/-- The tokens of a formula from a position on. -/
structure IsExact (formula : List Char) (position : Nat) (tokens : List MetricToken) : Prop where
  /-- The tokens are in order and have no index in common. -/
  inOrder : tokens.Pairwise fun token later => token.closing < later.opening
  /-- Every token starts with an opening brace and ends with the first closing brace behind it. -/
  braces : ∀ token ∈ tokens, formula[token.opening]? = some openingBrace ∧
    IsLeast (places formula closingBrace (token.opening + 1)) token.closing
  /-- Every token starts at the first opening brace behind the tokens before it. -/
  starts : ∀ earlier token later, tokens = earlier ++ token :: later →
    IsLeast (places formula openingBrace (resume position earlier)) token.opening
  /-- Behind the last token there is no other. -/
  stops : IsDone formula (resume position tokens)

variable {formula : List Char} {position : Nat} {token : MetricToken} {tokens : List MetricToken}

/-! ## One token after the other -/

theorem resume_cons (position : Nat) (token : MetricToken) (tokens : List MetricToken) :
    resume position (token :: tokens) = resume token.after tokens := by
  rw [resume, resume, List.getLast?_cons]
  cases tokens.getLast? <;> rfl

/-- The first token ends in front of the others. -/
theorem IsExact.head (h : IsExact formula position (token :: tokens)) :
    IsLeast (places formula openingBrace position) token.opening ∧
      IsLeast (places formula closingBrace (token.opening + 1)) token.closing :=
  ⟨h.starts [] token tokens rfl, (h.braces token List.mem_cons_self).2⟩

/-- The others are the tokens from its end on. -/
theorem IsExact.tail (h : IsExact formula position (token :: tokens)) :
    IsExact formula token.after tokens where
  inOrder := (List.pairwise_cons.1 h.inOrder).2
  braces := (List.forall_mem_cons.1 h.braces).2
  starts earlier next later heq := by
    have hstart := h.starts (token :: earlier) next later (congrArg (token :: ·) heq)
    rwa [resume_cons] at hstart
  stops := by
    have hstops := h.stops
    rwa [resume_cons] at hstops

/-- No token starts in front of the position. -/
theorem IsExact.le_opening (h : IsExact formula position tokens) :
    ∀ token ∈ tokens, position ≤ token.opening := by
  induction tokens generalizing position with
  | nil => exact List.forall_mem_nil _
  | cons first tokens ih =>
    obtain ⟨hopening, hclosing⟩ := h.head
    refine List.forall_mem_cons.2 ⟨hopening.1.1, fun token hmem => ?_⟩
    have hnext := ih h.tail token hmem
    have hfirst := hopening.1.1
    have hlast := hclosing.1.1
    rw [after] at hnext
    omega

/-- A token in front of the tokens from its end on. -/
theorem IsExact.cons (hopening : IsLeast (places formula openingBrace position) token.opening)
    (hclosing : IsLeast (places formula closingBrace (token.opening + 1)) token.closing)
    (h : IsExact formula token.after tokens) : IsExact formula position (token :: tokens) where
  inOrder := List.pairwise_cons.2 ⟨h.le_opening, h.inOrder⟩
  braces := List.forall_mem_cons.2 ⟨⟨hopening.1.2, hclosing⟩, h.braces⟩
  starts earlier next later heq := by
    cases earlier with
    | nil =>
      obtain ⟨rfl, -⟩ := List.cons.inj heq
      exact hopening
    | cons first earlier =>
      obtain ⟨rfl, hrest⟩ := List.cons.inj heq
      rw [resume_cons]
      exact h.starts earlier next later hrest
  stops := by
    rw [resume_cons]
    exact h.stops

/-- No token at all. -/
theorem isExact_nil (h : IsDone formula position) : IsExact formula position [] where
  inOrder := .nil
  braces := List.forall_mem_nil _
  starts earlier token later heq := by simp at heq
  stops := h

/-! ## There is one such list -/

/-- Where there is no further token none starts. -/
theorem IsDone.false_of_isLeast (h : IsDone formula position)
    (hopening : IsLeast (places formula openingBrace position) token.opening)
    (hclosing : IsLeast (places formula closingBrace (token.opening + 1)) token.closing) :
    False := by
  rcases h with hempty | ⟨opening, hfirst, hempty⟩
  · exact Set.notMem_empty _ (hempty ▸ hopening.1)
  · obtain rfl := hfirst.unique hopening
    exact Set.notMem_empty _ (hempty ▸ hclosing.1)

/-- The tokens of a formula from a position on are determined. -/
theorem IsExact.unique {others : List MetricToken} (h : IsExact formula position tokens)
    (hothers : IsExact formula position others) : tokens = others := by
  induction tokens generalizing position others with
  | nil =>
    cases others with
    | nil => rfl
    | cons other others => exact (h.stops.false_of_isLeast hothers.head.1 hothers.head.2).elim
  | cons token tokens ih =>
    obtain ⟨hopening, hclosing⟩ := h.head
    cases others with
    | nil => exact (hothers.stops.false_of_isLeast hopening hclosing).elim
    | cons other others =>
      -- Both braces are the first of their kind.
      obtain ⟨hopening', hclosing'⟩ := hothers.head
      have hstart := hopening.unique hopening'
      rw [← hstart] at hclosing'
      have htoken : token = other := by
        cases token
        cases other
        rw [mk.injEq]
        exact ⟨hstart, hclosing.unique hclosing'⟩
      subst htoken
      rw [ih h.tail hothers.tail]

/-! ## Scanning finds it -/

section Scanning

variable {u v w : List Char} {c : Char}

/-- A character that is missing in the rest of a text stands nowhere behind its beginning. -/
theorem places_eq_empty (hformula : formula = u ++ v) (hposition : position = u.length)
    (hmissing : c ∉ v) : places formula c position = ∅ := by
  subst hformula hposition
  refine Set.eq_empty_of_forall_notMem fun index hindex => hmissing ?_
  obtain ⟨hle, hget⟩ := hindex
  rw [List.getElem?_append_right hle] at hget
  exact List.mem_of_getElem? hget

/-- The first place of a character is behind what it is missing in. -/
theorem isLeast_places (hformula : formula = u ++ (w ++ c :: v)) (hposition : position = u.length)
    (hmissing : c ∉ w) : IsLeast (places formula c position) (position + w.length) := by
  subst hformula hposition
  constructor
  · refine ⟨Nat.le_add_right _ _, ?_⟩
    rw [List.getElem?_append_right (Nat.le_add_right _ _), Nat.add_sub_cancel_left,
      List.getElem?_append_right (Nat.le_refl _), Nat.sub_self]
    rfl
  · rintro index ⟨hle, hget⟩
    by_contra hlt
    have hinside : index - u.length < w.length := by omega
    rw [List.getElem?_append_right hle, List.getElem?_append_left hinside] at hget
    exact hmissing (List.mem_of_getElem? hget)

/-- Up to the first opening brace there is nothing to find. -/
theorem scanFrom_of_notMem (hopening : openingBrace ∉ w) (position : Nat)
    (rest : List Char) :
    scanFrom position none (w ++ rest) = scanFrom (position + w.length) none rest := by
  induction w generalizing position with
  | nil => rfl
  | cons c w ih =>
    have hlength : position + (c :: w).length = position + 1 + w.length := by
      rw [List.length_cons]
      omega
    rw [List.mem_cons, not_or] at hopening
    rw [List.cons_append, scanFrom, if_neg (Ne.symm hopening.1), ih hopening.2, hlength]

/-- Scanning the rest of a formula finds its tokens from there on. -/
theorem isExact_scanFrom (hformula : formula = u ++ v) (hposition : position = u.length) :
    IsExact formula position (scanFrom position none v) := by
  -- By induction on the length of the rest, from which a token is taken as a whole.
  induction hlength : v.length using Nat.strongRecOn generalizing u v position with
  | _ n ih =>
    by_cases hopening : openingBrace ∈ v
    · obtain ⟨w, rest, rfl, hw⟩ := List.eq_append_cons_of_mem hopening
      have hfirst := isLeast_places hformula hposition hw
      have hbrace : position + w.length + 1 = (u ++ w ++ [openingBrace]).length := by
        simp only [List.length_append, List.length_singleton, hposition]
      rw [scanFrom_of_notMem hw, scanFrom, if_pos rfl]
      by_cases hclosing : closingBrace ∈ rest
      · -- The two braces are a token, and what follows is shorter.
        obtain ⟨b, rest, rfl, hb⟩ := List.eq_append_cons_of_mem hclosing
        have hinside : formula = u ++ w ++ [openingBrace] ++ (b ++ closingBrace :: rest) := by
          simp [hformula]
        have hbehind : formula = u ++ w ++ [openingBrace] ++ b ++ [closingBrace] ++ rest := by
          simp [hformula]
        have hafter : position + w.length + 1 + b.length + 1 =
            (u ++ w ++ [openingBrace] ++ b ++ [closingBrace]).length := by
          simp only [List.length_append, List.length_singleton, hposition]
        have hshorter : rest.length < n := by
          simp only [List.length_append, List.length_cons] at hlength
          omega
        have hlast := isLeast_places hinside hbrace hb
        have hnext := ih _ hshorter hbehind hafter rfl
        rw [scanFrom_some_append hb]
        exact IsExact.cons hfirst hlast hnext
      · -- The brace is never closed.
        have hinside : formula = u ++ w ++ [openingBrace] ++ rest := by simp [hformula]
        have hnever := places_eq_empty hinside hbrace hclosing
        rw [scanFrom_eq_nil hclosing]
        exact isExact_nil (.inr ⟨_, hfirst, hnever⟩)
    · have hnone := scanFrom_of_notMem hopening position []
      rw [List.append_nil] at hnone
      rw [hnone]
      exact isExact_nil (.inl (places_eq_empty hformula hposition hopening))

end Scanning

theorem isExact_scan (formula : List Char) : IsExact formula 0 (scan formula) :=
  isExact_scanFrom (List.nil_append formula).symm rfl

/-! ## The token of a position -/

/-- Looking for the first of the tokens finds the only one. -/
theorem find?_eq_some_iff_of_unique {P : MetricToken → Bool}
    (hunique : ∀ token ∈ tokens, ∀ other ∈ tokens, P token → P other → token = other) :
    tokens.find? P = some token ↔ token ∈ tokens ∧ P token := by
  constructor
  · intro hfind
    exact ⟨List.mem_of_find?_eq_some hfind, List.find?_some hfind⟩
  · rintro ⟨hmem, htoken⟩
    rcases hfind : tokens.find? P with _ | found
    · exact absurd htoken (List.find?_eq_none.1 hfind token hmem)
    · rw [hunique found (List.mem_of_find?_eq_some hfind) token hmem (List.find?_some hfind) htoken]

/-- The index is that of a character of the token. -/
def Covers (token : MetricToken) (index : Nat) : Prop :=
  token.opening ≤ index ∧ index ≤ token.closing

/-- No character belongs to two tokens. -/
theorem eq_of_covers {other : MetricToken} {index : Nat} (htoken : token ∈ scan formula)
    (hother : other ∈ scan formula) (hleft : token.Covers index) (hright : other.Covers index) :
    token = other := by
  let Apart (token other : MetricToken) : Prop :=
    token.Covers index → other.Covers index → token = other
  have : Std.Symm Apart := ⟨fun _ _ hapart hleft hright => (hapart hright hleft).symm⟩
  have hpairwise : (scan formula).Pairwise Apart := by
    refine (pairwise_scan formula).imp fun hlt hleft hright => ?_
    exact absurd (Nat.lt_of_le_of_lt hleft.2 hlt) (Nat.not_lt.2 hright.1)
  exact hpairwise.forall_of_forall (fun _ _ _ _ => rfl) htoken hother hleft hright

theorem covers_opening (htoken : token ∈ scan formula) : token.Covers token.opening :=
  ⟨Nat.le_refl _, Nat.le_of_lt (bounds_of_mem_scan htoken).1⟩

theorem covers_closing (htoken : token ∈ scan formula) : token.Covers token.closing :=
  ⟨Nat.le_of_lt (bounds_of_mem_scan htoken).1, Nat.le_refl _⟩

theorem contains_iff : token.contains position ↔ token.opening < position ∧
    position ≤ token.closing := by
  rw [contains, Bool.and_eq_true, decide_eq_true_eq, decide_eq_true_eq]

/-- The tokens that scanning finds are the only list that, read from left to right, has each token
start at the first opening brace behind the one before and end with the first closing brace behind
that, up to where one of the two is missing. So a position is inside one token at most, at the end
of one at most and at the start of one at most, which is the one that is found; and where it is
inside of one, none ends or starts. -/
theorem scan_exact (formula : List Char) :
    (∀ tokens, IsExact formula 0 tokens ↔ tokens = scan formula) ∧
      ∀ position token,
        (containing? (scan formula) position = some token ↔
          token ∈ scan formula ∧ token.contains position) ∧
        (endingAt? (scan formula) position = some token ↔
          token ∈ scan formula ∧ token.after = position) ∧
        (startingAt? (scan formula) position = some token ↔
          token ∈ scan formula ∧ token.opening = position) ∧
        (token ∈ scan formula → token.contains position →
          endingAt? (scan formula) position = none ∧
            startingAt? (scan formula) position = none) := by
  refine ⟨fun tokens => ⟨fun h => h.unique (isExact_scan formula), ?_⟩, fun position token => ?_⟩
  · rintro rfl
    exact isExact_scan formula
  · refine ⟨?_, ?_, ?_, fun htoken hinside => ?_⟩
    · refine find?_eq_some_iff_of_unique fun token htoken other hother hleft hright => ?_
      -- The character behind the position belongs to both.
      obtain ⟨hlt, hle⟩ := contains_iff.1 hleft
      obtain ⟨hlt', hle'⟩ := contains_iff.1 hright
      exact eq_of_covers htoken hother ⟨Nat.le_of_lt hlt, hle⟩ ⟨Nat.le_of_lt hlt', hle'⟩
    · rw [← beq_iff_eq (a := token.after)]
      refine find?_eq_some_iff_of_unique fun token htoken other hother hleft hright => ?_
      have hclosing : token.closing = other.closing :=
        Nat.succ.inj ((beq_iff_eq.1 hleft).trans (beq_iff_eq.1 hright).symm)
      exact eq_of_covers htoken hother (covers_closing htoken) (hclosing ▸ covers_closing hother)
    · rw [← beq_iff_eq (a := token.opening)]
      refine find?_eq_some_iff_of_unique fun token htoken other hother hleft hright => ?_
      have hopening : token.opening = other.opening :=
        (beq_iff_eq.1 hleft).trans (beq_iff_eq.1 hright).symm
      exact eq_of_covers htoken hother (covers_opening htoken) (hopening ▸ covers_opening hother)
    · -- A token that ended or started inside would be the token itself.
      obtain ⟨hlt, hle⟩ := contains_iff.1 hinside
      refine ⟨List.find?_eq_none.2 fun other hother hafter => ?_,
        List.find?_eq_none.2 fun other hother hopening => ?_⟩
      · have hlast : other.closing + 1 = position := beq_iff_eq.1 hafter
        have heq := eq_of_covers htoken hother ⟨by omega, by omega⟩ (covers_closing hother)
        rw [← heq] at hlast
        omega
      · have hfirst : other.opening = position := beq_iff_eq.1 hopening
        have heq := eq_of_covers htoken hother ⟨by omega, by omega⟩ (covers_opening hother)
        rw [← heq] at hfirst
        omega

/-- Among stray, nested and unclosed braces two tokens touch: the position between them is the end
of the one and the start of the other, and inside the first one there is no end and no start, though
a brace opens there. -/
theorem scan_exact_of_touching_tokens :
    let formula := "\x7d\x7b a\x7b\x7d\x7bb\x7d\x7b".toList
    IsExact formula 0 [⟨1, 5⟩, ⟨6, 8⟩] ∧
      endingAt? (scan formula) 6 = some ⟨1, 5⟩ ∧ startingAt? (scan formula) 6 = some ⟨6, 8⟩ ∧
      (⟨1, 5⟩ : MetricToken) ∈ scan formula ∧ MetricToken.contains ⟨1, 5⟩ 4 ∧
      containing? (scan formula) 4 = some ⟨1, 5⟩ ∧
      endingAt? (scan formula) 4 = none ∧ startingAt? (scan formula) 4 = none := by
  intro formula
  obtain ⟨hexact, hfound⟩ := scan_exact formula
  obtain ⟨-, hending, -, -⟩ := hfound 6 ⟨1, 5⟩
  obtain ⟨-, -, hstarting, -⟩ := hfound 6 ⟨6, 8⟩
  obtain ⟨hcontaining, -, -, hinside⟩ := hfound 4 ⟨1, 5⟩
  have hmem : (⟨1, 5⟩ : MetricToken) ∈ scan formula := by decide
  have hcontains : MetricToken.contains ⟨1, 5⟩ 4 := by decide
  exact ⟨(hexact _).2 (by decide), hending.2 ⟨hmem, rfl⟩, hstarting.2 ⟨by decide, rfl⟩, hmem,
    hcontains, hcontaining.2 ⟨hmem, hcontains⟩, hinside hmem hcontains⟩

end MetricToken

end MetricFormula
