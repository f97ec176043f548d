import MetricFormula.Formula.Brackets
import MetricFormula.Proofs.Text.Classes

/-!
# Balanced brackets by counting

Pairing the brackets of a text by rank is the same as counting: reading from left to right, no
bracket is closed before it was opened, and in the end none is left open. In this form balance is
composed from the balance of the parts of a text.

## Main definitions

* `openCount?`: the number of open brackets after a text;
* `IsNeutral`: the text leaves as many brackets of each kind open as it finds.

## Main results

* `pairedInOrder_iff`, `bracketsBalanced_iff`: pairing by rank is counting;
* `IsNeutral.bracketsBalanced`: neutral texts are balanced;
* `IsNeutral.append`, `IsNeutral.enclose`: putting neutral texts together.
-/

namespace MetricFormula

/-! ## Counting -/

/-- The number of open brackets after one more character; nothing if it closes a bracket that is not
open. -/
def openStep? (opening closing : Char) (count : Nat) (c : Char) : Option Nat :=
  if c = opening then some (count + 1)
  else if c = closing then if count = 0 then none else some (count - 1)
  else some count

/-- The number of open brackets after a text, when `count` are open before it. -/
def openCount? (opening closing : Char) (count : Nat) (text : List Char) : Option Nat :=
  text.foldlM (openStep? opening closing) count

variable {opening closing : Char}

/-- The count goes on behind the first character. -/
theorem openCount?_cons (count : Nat) (c : Char) (text : List Char) :
    openCount? opening closing count (c :: text) =
      (openStep? opening closing count c).bind (openCount? opening closing · text) :=
  List.foldlM_cons

/-- The count goes on behind a first part. -/
theorem openCount?_append (count : Nat) (u v : List Char) :
    openCount? opening closing count (u ++ v) =
      (openCount? opening closing count u).bind (openCount? opening closing · v) :=
  List.foldlM_append

/-- Only the brackets that are counted matter. -/
theorem openCount?_filter (p : Char → Bool) (hopening : p opening) (hclosing : p closing)
    (count : Nat) (text : List Char) :
    openCount? opening closing count (text.filter p) = openCount? opening closing count text := by
  induction text generalizing count with
  | nil => rfl
  | cons c text ih =>
    rw [List.filter_cons, openCount?_cons]
    split
    next =>
      rw [openCount?_cons]
      exact congrArg _ (funext ih)
    next hc =>
      -- What is left out is neither of the two brackets.
      have hne : c ≠ opening ∧ c ≠ closing :=
        ⟨fun h => hc (h ▸ hopening), fun h => hc (h ▸ hclosing)⟩
      rw [openStep?, if_neg hne.1, if_neg hne.2, Option.bind_some, ih]

/-- The indices at which `c` stands in a text that begins at a position. -/
def indicesFrom (position : Nat) (c : Char) (text : List Char) : List Nat :=
  (text.zipIdx position).filterMap fun (d, i) => if d = c then some i else none

/-- The first character stands at the position itself, and the others behind it. -/
theorem indicesFrom_cons (position : Nat) (c d : Char) (text : List Char) :
    indicesFrom position c (d :: text) =
      if d = c then position :: indicesFrom (position + 1) c text
      else indicesFrom (position + 1) c text := by
  rw [indicesFrom, List.zipIdx_cons, List.filterMap_cons]
  by_cases h : d = c <;> simp [h, indicesFrom]

/-- No index lies in front of the position. -/
theorem le_of_mem_indicesFrom {position i : Nat} {c : Char} {text : List Char}
    (h : i ∈ indicesFrom position c text) : position ≤ i := by
  induction text generalizing position with
  | nil => cases h
  | cons d text ih =>
    rw [indicesFrom_cons] at h
    split at h
    next =>
      rcases List.mem_cons.1 h with rfl | h
      · exact Nat.le_refl i
      · exact Nat.le_of_succ_le (ih h)
    next => exact Nat.le_of_succ_le (ih h)

/-- Brackets that are open already pair with the first ones that close. -/
theorem pairedInOrder_append_iff (hne : opening ≠ closing) (text : List Char) {position : Nat}
    {pending : List Nat} (hpending : ∀ i ∈ pending, i < position) :
    pairedInOrder (pending ++ indicesFrom position opening text)
        (indicesFrom position closing text) ↔
      openCount? opening closing pending.length text = some 0 := by
  induction text generalizing position pending with
  | nil => cases pending <;> simp [indicesFrom, pairedInOrder, openCount?]
  | cons c text ih =>
    rw [indicesFrom_cons, indicesFrom_cons, openCount?_cons, openStep?]
    by_cases hopening : c = opening
    · -- One more bracket is pending.
      have hclosing : c ≠ closing := fun h => hne (hopening.symm.trans h)
      rw [if_pos hopening, if_neg hclosing, if_pos hopening]
      have hnext : ∀ i ∈ pending ++ [position], i < position + 1 := by
        intro i hi
        rcases List.mem_append.1 hi with hi | hi
        · exact Nat.lt_succ_of_lt (hpending i hi)
        · rw [List.mem_singleton.1 hi]
          exact Nat.lt_succ_self position
      have hiff := ih hnext
      rwa [List.append_assoc, List.length_append] at hiff
    · rw [if_neg hopening, if_neg hopening]
      by_cases hclosing : c = closing
      · -- The bracket closes the first one that is pending.
        rw [if_pos hclosing, if_pos hclosing]
        cases pending with
        | nil =>
          -- All brackets that open from here on stand after this one that closes.
          refine iff_of_false ?_ (by simp)
          rw [List.nil_append]
          rcases hrest : indicesFrom (position + 1) opening text with _ | ⟨i, rest⟩
          · exact Bool.false_ne_true
          · have hle : position + 1 ≤ i :=
              le_of_mem_indicesFrom (hrest ▸ List.mem_cons_self)
            simp only [pairedInOrder, Bool.and_eq_true, decide_eq_true_iff]
            omega
        | cons i pending =>
          have hi : i < position := hpending i List.mem_cons_self
          rw [List.cons_append, pairedInOrder, decide_eq_true hi, Bool.true_and]
          exact ih fun j hj => Nat.lt_succ_of_lt (hpending j (List.mem_cons_of_mem i hj))
      · rw [if_neg hclosing, if_neg hclosing]
        exact ih fun i hi => Nat.lt_succ_of_lt (hpending i hi)

/-- Pairing brackets by rank is counting them. -/
theorem pairedInOrder_iff (hne : opening ≠ closing) (text : List Char) :
    pairedInOrder (indicesOf opening text) (indicesOf closing text) ↔
      openCount? opening closing 0 text = some 0 := by
  have hpending : ∀ i ∈ ([] : List Nat), i < 0 := nofun
  exact pairedInOrder_append_iff hne text hpending

theorem bracketPairs_ne : ∀ pair ∈ bracketPairs, pair.1 ≠ pair.2 := by
  simp [bracketPairs]

/-- Brackets are balanced if each kind is when it is counted. -/
theorem bracketsBalanced_iff {text : List Char} :
    bracketsBalanced text ↔ ∀ pair ∈ bracketPairs, openCount? pair.1 pair.2 0 text = some 0 := by
  rw [bracketsBalanced, List.all_eq_true]
  exact forall₂_congr fun pair hpair => pairedInOrder_iff (bracketPairs_ne pair hpair) text

/-! ## Neutral texts -/

/-- The text leaves as many brackets of each kind open as it finds. -/
def IsNeutral (text : List Char) : Prop :=
  ∀ pair ∈ bracketPairs, ∀ count, openCount? pair.1 pair.2 count text = some count

/-- A neutral text is balanced, as no bracket is open in front of it. -/
theorem IsNeutral.bracketsBalanced {text : List Char} (h : IsNeutral text) :
    bracketsBalanced text :=
  bracketsBalanced_iff.2 fun pair hpair => h pair hpair 0

/-- Neutral texts may stand one behind the other. -/
theorem IsNeutral.append {u v : List Char} (hu : IsNeutral u) (hv : IsNeutral v) :
    IsNeutral (u ++ v) := by
  intro pair hpair count
  rw [openCount?_append, hu pair hpair]
  exact hv pair hpair count

/-- Any character but the brackets. -/
def isNoBracket (c : Char) : Bool :=
  bracketPairs.all fun pair => c != pair.1 && c != pair.2

/-- A text without brackets is neutral. -/
theorem isNeutral_of_isNoBracket {text : List Char} (h : ∀ c ∈ text, isNoBracket c) :
    IsNeutral text := by
  intro pair hpair count
  induction text with
  | nil => rfl
  | cons c text ih =>
    have hc := List.all_eq_true.1 (h c List.mem_cons_self) pair hpair
    rw [Bool.and_eq_true, bne_iff_ne, bne_iff_ne] at hc
    rw [openCount?_cons, openStep?, if_neg hc.1, if_neg hc.2]
    exact ih fun d hd => h d (List.mem_cons_of_mem c hd)

/-- A class of characters without brackets, each of which is tested. -/
theorem isNoBracket_of_class {P : Char → Bool}
    (hclass : bracketPairs.all fun pair => !P pair.1 && !P pair.2) {c : Char} (h : P c) :
    isNoBracket c := by
  refine List.all_eq_true.2 fun pair hpair => ?_
  have hpair := List.all_eq_true.1 hclass pair hpair
  rw [Bool.and_eq_true, Bool.not_eq_true', Bool.not_eq_true'] at hpair
  rw [Bool.and_eq_true, bne_iff_ne, bne_iff_ne]
  constructor
  · rintro rfl
    exact absurd (h.symm.trans hpair.1) Bool.noConfusion
  · rintro rfl
    exact absurd (h.symm.trans hpair.2) Bool.noConfusion

theorem isNoBracket_of_isIdentifierPart {c : Char} (h : Text.isIdentifierPart c) :
    isNoBracket c :=
  isNoBracket_of_class (by decide) h

/-- There are no brackets in an identifier. -/
theorem isNoBracket_of_isIdentifier {text : List Char} (h : Text.isIdentifier text) :
    ∀ c ∈ text, isNoBracket c :=
  fun c hc => isNoBracket_of_isIdentifierPart (Text.isIdentifierPart_of_mem h c hc)

/-- A neutral text between the brackets of a pair is neutral. -/
theorem IsNeutral.enclose {text : List Char} (h : IsNeutral text) {pair : Char × Char}
    (hpair : pair ∈ bracketPairs) : IsNeutral (pair.1 :: text ++ [pair.2]) := by
  intro pair' hpair' count
  -- The brackets are those of the pair that is counted, or none of them.
  have hcases : pair' = pair ∧ pair.2 ≠ pair.1 ∨
      pair.1 ≠ pair'.1 ∧ pair.1 ≠ pair'.2 ∧ pair.2 ≠ pair'.1 ∧ pair.2 ≠ pair'.2 := by
    revert pair pair'
    simp [bracketPairs]
  rw [List.cons_append, openCount?_cons, openStep?]
  rcases hcases with ⟨rfl, hne⟩ | ⟨h1, h2, h3, h4⟩
  · rw [if_pos rfl, Option.bind_some, openCount?_append, h pair' hpair']
    simp [openCount?, openStep?, hne]
  · rw [if_neg h1, if_neg h2, Option.bind_some, openCount?_append, h pair' hpair']
    simp [openCount?, openStep?, h3, h4]

end MetricFormula
