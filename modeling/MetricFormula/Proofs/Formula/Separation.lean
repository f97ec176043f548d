import Mathlib.Data.List.Infix
import MetricFormula.Proofs.Calculation.Leaves
import MetricFormula.Proofs.Expression.Splitting
import MetricFormula.Proofs.Formula.Compiling

/-!
# Metrics of compiled formulas

The metrics of a compiled formula are longest runs of identifier characters, but of the formula
without its braces: braces are left out before the text is split into words, so they separate
nothing. A run of the text without braces is a run of the formula as well unless braces alone stand
between two of its characters.

## Main definitions

* `Formula.IsSeparated`: braces alone never stand between two identifier characters.

## Main results

* `Text.IsMaximalRun.of_filter`: runs of the text without braces that are runs of the formula;
* `Formula.isMaximalRun_of_compile`: the metrics of a formula that compiles.
-/

namespace MetricFormula

namespace Formula

/-- The text begins with an identifier character, braces, and another identifier character. -/
def joinsFirst : List Char → Bool
  | c :: b :: rest =>
    Text.isIdentifierPart c && isBrace b &&
      (rest.dropWhile isBrace).head?.any Text.isIdentifierPart
  | _ => false

/-- Nowhere in the formula do braces alone stand between two identifier characters. -/
def IsSeparated (formula : List Char) : Prop :=
  ∀ rest ∈ formula.tails, joinsFirst rest = false

instance (formula : List Char) : Decidable (IsSeparated formula) :=
  inferInstanceAs (Decidable (∀ rest ∈ formula.tails, _))

/-- What is separated is separated from any place on. -/
theorem IsSeparated.of_append {u v : List Char} (h : IsSeparated (u ++ v)) : IsSeparated v := by
  intro rest hrest
  rw [List.mem_tails] at hrest
  exact h rest ((List.mem_tails _ _).2 (hrest.trans (List.suffix_append u v)))

theorem isIdentifierPart_of_isBrace {c : Char} (h : isBrace c) :
    Text.isIdentifierPart c = false := by
  rw [isBrace, Bool.or_eq_true, beq_iff_eq, beq_iff_eq] at h
  rcases h with rfl | rfl <;> decide

/-- An identifier character and braces that another one follows. -/
theorem joinsFirst_of_braces {c d : Char} {braces rest : List Char}
    (hc : Text.isIdentifierPart c) (hd : Text.isIdentifierPart d) (hne : braces ≠ [])
    (hbraces : ∀ b ∈ braces, isBrace b) : joinsFirst (c :: (braces ++ d :: rest)) := by
  cases braces with
  | nil => exact absurd rfl hne
  | cons b braces =>
    obtain ⟨hb, hbraces⟩ := List.forall_mem_cons.1 hbraces
    have hdbrace : ¬isBrace d := fun h => by
      rw [isIdentifierPart_of_isBrace h] at hd
      cases hd
    rw [List.cons_append, joinsFirst, hc, hb, List.dropWhile_append_of_pos hbraces,
      List.dropWhile_cons_of_neg hdbrace]
    exact hd

/-- In a separated formula, text that consists of identifier characters without its braces has
braces only in front of these characters and behind them. -/
theorem IsSeparated.exists_braces_append {written after id : List Char}
    (h : IsSeparated (written ++ after)) (hid : ∀ c ∈ id, Text.isIdentifierPart c)
    (hfilter : written.filter (!isBrace ·) = id) :
    ∃ left right, written = left ++ (id ++ right) ∧ (∀ b ∈ left, isBrace b) ∧
      ∀ b ∈ right, isBrace b := by
  induction written generalizing id with
  | nil =>
    cases hfilter
    exact ⟨[], [], rfl, List.forall_mem_nil _, List.forall_mem_nil _⟩
  | cons c written ih =>
    have hrest : IsSeparated (written ++ after) := h.of_append (u := [c])
    by_cases hc : isBrace c
    · rw [List.filter_cons_of_neg (by simp [hc])] at hfilter
      obtain ⟨left, right, rfl, hleft, hright⟩ := ih hrest hid hfilter
      exact ⟨c :: left, right, rfl, List.forall_mem_cons.2 ⟨hc, hleft⟩, hright⟩
    · rw [List.filter_cons_of_pos (by simp [hc])] at hfilter
      rcases id with _ | ⟨first, id⟩
      · cases hfilter
      obtain ⟨rfl, htail⟩ := List.cons.inj hfilter
      obtain ⟨hpart, hid⟩ := List.forall_mem_cons.1 hid
      obtain ⟨left, right, rfl, hleft, hright⟩ := ih hrest hid htail
      -- The braces behind the first character are behind the last one, too, or there are none.
      cases id with
      | nil => exact ⟨[], left ++ right, rfl, List.forall_mem_nil _,
          List.forall_mem_append.2 ⟨hleft, hright⟩⟩
      | cons second id =>
        by_cases hnone : left = []
        · subst hnone
          exact ⟨[], right, rfl, List.forall_mem_nil _, hright⟩
        · have hnot := h _ ((List.mem_tails _ _).2 List.suffix_rfl)
          simp only [List.cons_append, List.append_assoc] at hnot
          rw [joinsFirst_of_braces hpart (hid second List.mem_cons_self) hnone hleft] at hnot
          cases hnot

end Formula

/-! ## Runs of the text without braces -/

/-- The last character is of a kind if the last one without the braces is, and braces are. -/
theorem forall_getLast?_of_filter {P : Char → Prop} (hbraces : ∀ c, isBrace c → P c)
    {text : List Char} (h : ∀ c ∈ (text.filter (!isBrace ·)).getLast?, P c) :
    ∀ c ∈ text.getLast?, P c := by
  intro c hc
  obtain ⟨rest, rfl⟩ := List.getLast?_eq_some_iff.1 hc
  by_cases hbrace : isBrace c
  · exact hbraces c hbrace
  · exact h c (by simp [hbrace])

/-- The first character is of a kind if the first one without the braces is, and braces are. -/
theorem forall_head?_of_filter {P : Char → Prop} (hbraces : ∀ c, isBrace c → P c)
    {text : List Char} (h : ∀ c ∈ (text.filter (!isBrace ·)).head?, P c) :
    ∀ c ∈ text.head?, P c := by
  intro c hc
  obtain ⟨rest, rfl⟩ := List.head?_eq_some_iff.1 hc
  by_cases hbrace : isBrace c
  · exact hbraces c hbrace
  · exact h c (by simp [hbrace])

/-- A longest run of the text without braces is one of a separated formula. -/
theorem Text.IsMaximalRun.of_filter {run formula : List Char}
    (h : IsMaximalRun run (formula.filter (!isBrace ·)))
    (hseparated : Formula.IsSeparated formula) :
    IsMaximalRun run formula := by
  obtain ⟨hne, hparts, before, after, hfilter, hbefore, hafter⟩ := h
  obtain ⟨u, rest, rfl, hu, hrest⟩ := List.filter_eq_append_iff.1 hfilter
  obtain ⟨written, v, rfl, hwritten, hv⟩ := List.filter_eq_append_iff.1 hrest
  obtain ⟨left, right, rfl, hleft, hright⟩ :=
    hseparated.of_append.exists_braces_append hparts hwritten
  have hbraces : ∀ c, isBrace c → isIdentifierPart c = false :=
    fun c => Formula.isIdentifierPart_of_isBrace
  have hleft : left.filter (!isBrace ·) = [] := by simpa using hleft
  have hright : right.filter (!isBrace ·) = [] := by simpa using hright
  refine ⟨hne, hparts, u ++ left, right ++ v, by simp, ?_, ?_⟩
  · refine forall_getLast?_of_filter hbraces ?_
    rwa [List.filter_append, hu, hleft, List.append_nil]
  · refine forall_head?_of_filter hbraces ?_
    rwa [List.filter_append, hright, hv]

namespace Formula

variable {policy : UnknownFunctions} {formula : List Char} {t : Calculation}

/-- The metrics of a formula that compiles are longest runs of identifier characters of the formula
without its braces, and they are longest runs of the formula itself if nowhere in it braces alone
stand between two identifier characters. -/
theorem isMaximalRun_of_compile (h : compile policy formula = .ok t) :
    ∀ id ∈ t.metricIds,
      Text.IsMaximalRun id.toList (formula.filter (!isBrace ·)) ∧
        (IsSeparated formula → Text.IsMaximalRun id.toList formula) := by
  intro id hid
  obtain ⟨words, e, hscan, hspells, hbuild⟩ := exists_spells_of_compile h
  -- A metric of the calculation is a name of the expression, and so one of the words.
  have hleaf : .name id ∈ e.leaves := by
    have hmem := Calculation.leaves_subset_of_ofExpression hbuild
      (Calculation.mem_metricIds_iff.1 hid)
    simpa using hmem
  have hname : id ∈ [e].flatMap Expression.names := by
    simpa using Expression.mem_names_iff.2 hleaf
  have hrun := (Lexeme.splits_of_scan hscan).isMaximalRun hspells.isChain
    (Lexeme.isScanned_of_scan hscan) (hspells.name_mem hname)
  exact ⟨hrun, hrun.of_filter⟩

/-- The metrics of a product of tokens and a call. -/
theorem isMaximalRun_of_compile_product :
    let formula := "\x7b net_2 \x7d*\x7b1\x7d / Avg(\x7bb\x7d)".toList
    let t := Calculation.arithmetic .divide
      (.arithmetic .multiply (.metric "net_2") (.constant (.ofInt 1))) (.aggregate .average "b")
    compile .reject formula = .ok t ∧ IsSeparated formula ∧
      ∀ id ∈ ["net_2", "b"], Text.IsMaximalRun id.toList formula := by
  intro formula t
  have hcompile : compile .reject formula = .ok t := by decide +kernel
  have hseparated : IsSeparated formula := by decide +kernel
  exact ⟨hcompile, hseparated, fun id hid => (isMaximalRun_of_compile hcompile id hid).2 hseparated⟩

/-- Two tokens without blanks are one metric that is written nowhere, while with blanks they are
refused. -/
theorem compile_of_touching_tokens :
    let touching := "\x7ba\x7d\x7bb\x7d".toList
    compile .reject touching = .ok (.metric "ab") ∧ ¬Text.IsMaximalRun "ab".toList touching ∧
      compile .reject "\x7b a \x7d \x7b b \x7d".toList = .error .notValid := by
  intro touching
  refine ⟨by decide +kernel, ?_, by decide +kernel⟩
  rintro ⟨-, -, before, after, htext, -⟩
  have hinfix : "ab".toList <:+: touching := ⟨before, after, by rw [htext, List.append_assoc]⟩
  revert hinfix
  decide

end Formula

end MetricFormula
