import Mathlib.Data.List.Induction
import MetricFormula.Proofs.Formula.Compiling
import MetricFormula.Proofs.Formula.MetricToken

/-!
# Delimiters of validated formulas

Braces are looked at in two ways. Validation counts them, and counting accepts braces within braces.
Scanning does not nest, so it takes an opening brace inside a token for plain text, and the closing
brace that counting pairs with it is left over. In a validated formula this is all that can be wrong
with the delimiters: every opening brace is at the beginning of a token or inside one, and if none
is inside, then every closing brace ends a token.

## Main definitions

* `Formula.IsDelimited`: every brace begins or ends a token;
* `Formula.IsUnnested`: no token has an opening brace inside.

## Main results

* `Formula.isDelimited_iff_isUnnested`: in a formula with balanced braces, the two agree;
* `Formula.isDelimited_of_validate`: the delimiters of a formula that is valid.
-/

namespace MetricFormula

open MetricToken

namespace Formula

/-! ## Well-formed delimiters -/

/-- Every opening brace of the formula begins a token and every closing brace ends one. -/
def IsDelimited (formula : List Char) : Prop :=
  ∀ index,
    (formula[index]? = some openingBrace → ∃ token ∈ scan formula, token.opening = index) ∧
      (formula[index]? = some closingBrace → ∃ token ∈ scan formula, token.closing = index)

/-- No token of the formula has an opening brace between its own braces. -/
def IsUnnested (formula : List Char) : Prop :=
  ∀ token ∈ scan formula, ∀ index < token.closing,
    token.opening < index → formula[index]? ≠ some openingBrace

instance (formula : List Char) : Decidable (IsUnnested formula) :=
  inferInstanceAs (Decidable (∀ token ∈ scan formula, _))

/-! ## Counting and scanning -/

variable {u v formula : List Char}

/-- The number of open braces between two parts of a text in which braces are balanced. -/
theorem exists_openCount?_append {opening closing : Char} {count last : Nat}
    (h : openCount? opening closing count (u ++ v) = some last) :
    ∃ middle, openCount? opening closing count u = some middle ∧
      openCount? opening closing middle v = some last := by
  rw [openCount?_append] at h
  exact Option.bind_eq_some_iff.1 h

/-- Without a closing brace, open braces stay open. -/
theorem le_of_openCount? {opening closing : Char} {count last : Nat} (hnever : closing ∉ v)
    (h : openCount? opening closing count v = some last) : count ≤ last := by
  induction v generalizing count with
  | nil => exact Nat.le_of_eq (Option.some.inj h)
  | cons c v ih =>
    rw [List.mem_cons, not_or] at hnever
    rw [openCount?_cons, openStep?, if_neg (Ne.symm hnever.1)] at h
    split at h
    next => exact Nat.le_of_succ_le (ih hnever.2 h)
    next => exact ih hnever.2 h

/-- In a formula with balanced braces, an opening brace stands in a token: it begins one, or it is
inside the one that is open there. -/
theorem exists_token_of_opening
    (hbalanced : openCount? openingBrace closingBrace 0 (u ++ openingBrace :: v) = some 0) :
    ∃ token ∈ scan (u ++ openingBrace :: v), u.length < token.closing ∧
      token.opening = (openAfter 0 none u).getD u.length := by
  -- Something closes the brace, since it would be left open otherwise.
  have hclosing : closingBrace ∈ v := by
    obtain ⟨count, -, hcount⟩ := exists_openCount?_append hbalanced
    rw [openCount?_cons, openStep?, if_pos rfl] at hcount
    by_contra hnever
    exact absurd (le_of_openCount? hnever hcount) (Nat.not_succ_le_zero count)
  obtain ⟨w, rest, rfl, hw⟩ := List.eq_append_cons_of_mem hclosing
  rw [scan, scanFrom_append, Nat.zero_add]
  rcases openAfter 0 none u with _ | opening
  · -- The token begins at the brace.
    refine ⟨⟨u.length, u.length + 1 + w.length⟩, List.mem_append_right _ ?_, by simp only; omega,
      rfl⟩
    rw [scanFrom, if_pos rfl, scanFrom_some_append hw]
    exact List.mem_cons_self
  · -- The brace is a character like any other in the token that is open.
    have hinner : closingBrace ∉ openingBrace :: w :=
      List.not_mem_cons_of_ne_of_not_mem (by decide) hw
    refine ⟨⟨opening, u.length + (w.length + 1)⟩, List.mem_append_right _ ?_, by simp only; omega,
      rfl⟩
    rw [← List.cons_append, scanFrom_some_append hinner]
    exact List.mem_cons_self

/-- As long as no brace opens while another one is open, at most one brace is open: the one that
scanning remembers. -/
theorem openCount?_eq_of_flat
    (hflat : ∀ before after, u = before ++ openingBrace :: after → openAfter 0 none before = none)
    {count : Nat} (hcount : openCount? openingBrace closingBrace 0 u = some count) :
    count = if (openAfter 0 none u).isSome then 1 else 0 := by
  -- The induction adds one character at the end, since the state behind it is what matters.
  induction u using List.reverseRecOn generalizing count with
  | nil => exact (Option.some.inj hcount).symm
  | append_singleton u c ih =>
    obtain ⟨before, hbefore, hstep⟩ := exists_openCount?_append hcount
    have hearlier := ih (fun x y h => hflat x (y ++ [c]) (by rw [h]; simp)) hbefore
    rw [openCount?_cons, openStep?] at hstep
    rw [openAfter_append]
    by_cases hopening : c = openingBrace
    · -- Nothing was open in front of this brace.
      subst hopening
      have hnone := hflat u [] rfl
      rw [hnone] at hearlier ⊢
      rw [if_pos rfl, hearlier] at hstep
      exact (Option.some.inj hstep).symm
    · rw [if_neg hopening] at hstep
      rcases hopen : openAfter 0 none u with _ | opening
      · rw [hopen] at hearlier
        rw [hearlier] at hstep
        rw [openAfter, if_neg hopening]
        split at hstep
        next => cases hstep
        next => exact (Option.some.inj hstep).symm
      · rw [hopen] at hearlier
        rw [hearlier] at hstep
        rw [openAfter]
        split at hstep
        next hclosing =>
          rw [if_pos hclosing]
          exact (Option.some.inj hstep).symm
        next hclosing =>
          rw [if_neg hclosing]
          exact (Option.some.inj hstep).symm

/-- In a formula with balanced braces, of which none opens while another one is open, every closing
brace ends a token. -/
theorem exists_token_of_closing
    (hbalanced : openCount? openingBrace closingBrace 0 (u ++ closingBrace :: v) = some 0)
    (hflat : ∀ before after, u = before ++ openingBrace :: after →
      openAfter 0 none before = none) :
    ∃ token ∈ scan (u ++ closingBrace :: v), token.closing = u.length := by
  obtain ⟨count, hcount, hrest⟩ := exists_openCount?_append hbalanced
  rw [openCount?_cons, openStep?, if_neg (by decide), if_pos rfl] at hrest
  rcases hopen : openAfter 0 none u with _ | opening
  · -- A closing brace without an open one would not be counted.
    rw [openCount?_eq_of_flat hflat hcount, hopen] at hrest
    cases hrest
  · refine ⟨⟨opening, u.length⟩, ?_, rfl⟩
    rw [scan, scanFrom_append, hopen, Nat.zero_add, scanFrom, if_pos rfl]
    exact List.mem_append_right _ List.mem_cons_self

/-! ## Nesting -/

/-- No brace opens in a token if each of them begins one. -/
theorem IsDelimited.isUnnested (h : IsDelimited formula) : IsUnnested formula := by
  intro token hmem index hclosing hopening hbrace
  obtain ⟨other, hother, rfl⟩ := (h index).1 hbrace
  -- A token begins at a boundary, and so not inside another one.
  obtain ⟨u, w, v, rfl, -, hopen, rfl⟩ := exists_of_mem_scan hother
  have hcases := isBoundary_iff_forall.1 (isBoundary_iff.2 (.inl hopen)) token hmem
  simp only at hcases hclosing hopening
  omega

/-- In a formula with balanced braces and without nesting, nothing is open where a brace opens. -/
theorem IsUnnested.openAfter_eq_none (h : IsUnnested (u ++ openingBrace :: v))
    (hbalanced : openCount? openingBrace closingBrace 0 (u ++ openingBrace :: v) = some 0) :
    openAfter 0 none u = none := by
  obtain ⟨token, hmem, hclosing, hopening⟩ := exists_token_of_opening hbalanced
  rcases hopen : openAfter 0 none u with _ | opening
  · rfl
  · rw [hopen] at hopening
    have hlt : token.opening < 0 + u.length :=
      openAfter_lt (hopen.trans (congrArg some hopening.symm)) (by simp)
    exact absurd (by simp) (h token hmem u.length hclosing (by omega))

/-- In a formula with balanced braces, every brace begins or ends a token exactly if no token has an
opening brace inside. -/
theorem isDelimited_iff_isUnnested
    (hbalanced : openCount? openingBrace closingBrace 0 formula = some 0) :
    IsDelimited formula ↔ IsUnnested formula := by
  refine ⟨IsDelimited.isUnnested, fun hunnested index => ⟨fun hopening => ?_, fun hclosing => ?_⟩⟩
  · obtain ⟨u, v, rfl, rfl⟩ := exists_append_cons hopening
    obtain ⟨token, hmem, -, htoken⟩ := exists_token_of_opening hbalanced
    rw [hunnested.openAfter_eq_none hbalanced] at htoken
    exact ⟨token, hmem, htoken⟩
  · obtain ⟨u, v, rfl, rfl⟩ := exists_append_cons hclosing
    refine exists_token_of_closing hbalanced ?_
    rintro before after rfl
    -- Braces of the first part are braces of the formula.
    rw [List.append_assoc, List.cons_append] at hunnested hbalanced
    exact hunnested.openAfter_eq_none hbalanced

/-! ## Validated formulas -/

variable {policy : UnknownFunctions}

/-- The braces of a valid formula are balanced, every opening one stands in a token, and the braces
are the ends of the tokens if and only if no token has another opening brace inside. -/
theorem isDelimited_of_validate (h : validate policy formula = .ok ()) :
    openCount? openingBrace closingBrace 0 formula = some 0 ∧
      (∀ index, formula[index]? = some openingBrace →
        ∃ token ∈ scan formula, token.opening ≤ index ∧ index < token.closing) ∧
      (IsDelimited formula ↔ IsUnnested formula) := by
  obtain ⟨t, hcompile⟩ := validate_eq_ok_iff.1 h
  have hbalanced := (compile_eq_ok_iff_braces.1 hcompile).1
  refine ⟨hbalanced, fun index hopening => ?_, isDelimited_iff_isUnnested hbalanced⟩
  obtain ⟨u, v, rfl, rfl⟩ := exists_append_cons hopening
  obtain ⟨token, hmem, hclosing, htoken⟩ := exists_token_of_opening hbalanced
  refine ⟨token, hmem, ?_, hclosing⟩
  rcases hopen : openAfter 0 none u with _ | opening
  · rw [htoken, hopen]
    exact Nat.le_refl _
  · have hlt : opening < 0 + u.length := openAfter_lt hopen (by simp)
    rw [htoken, hopen, Option.getD_some]
    omega

/-- The tokens of a valid formula, one of them in parentheses, are all of its braces. -/
theorem isDelimited_of_validate_quotient :
    let formula := "\x7b Sum(a) \x7d / (\x7bCount(b)\x7d - 1)".toList
    validate .reject formula = .ok () ∧ IsDelimited formula := by
  intro formula
  have hvalid : validate .reject formula = .ok () := by decide +kernel
  exact ⟨hvalid, (isDelimited_of_validate hvalid).2.2.2 (by decide)⟩

/-- Braces within braces are valid, although the inner one begins no token. -/
theorem not_isDelimited_of_nested_braces :
    let formula := "\x7b\x7ba\x7d\x7d".toList
    validate .reject formula = .ok () ∧ ¬IsDelimited formula := by
  intro formula
  have hvalid : validate .reject formula = .ok () := by decide +kernel
  refine ⟨hvalid, fun hdelimited => ?_⟩
  have hnested : ¬IsUnnested formula := by decide
  exact hnested hdelimited.isUnnested

end Formula

end MetricFormula
