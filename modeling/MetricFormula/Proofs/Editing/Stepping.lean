import Mathlib.Data.List.Defs
import Mathlib.Data.Nat.Dist
import Mathlib.Order.Bounds.Basic
import MetricFormula.Proofs.Editing.Cursor

/-!
# Moving between stops

The cursor is only ever placed at stops. A position inside a token is moved to one of its ends, and
a step goes over a whole token or over one character. That these are the nearest stop and the next
one follows from a single fact: no stop of the text lies between the ends of a token, whatever other
tokens and braces stand around it.

## Main definitions

* `Editor.IsNearestStop`: the stop at which the cursor is placed for a position;
* `Editor.stopsFrom`: the stops from a position on.

## Main results

* `Editor.isNearestStop_snap`: the cursor is placed at the nearest stop;
* `Editor.isLeast_moveRight`, `Editor.isGreatest_moveLeft`: a step goes to the next stop;
* `Editor.moveLeft_moveRight`, `Editor.moveRight_moveLeft`: a step back undoes a step;
* `Editor.map_cursor_iterate_moveRight`: steps to the right visit all stops behind the cursor;
* `Editor.Reachable.moves_between_stops`: moving the cursor in every state that an editor gets into.
-/

namespace MetricFormula

namespace Editor

open MetricToken

variable {editor : Editor} {text : List Char} {position : Nat}

/-! ## Placing the cursor -/

/-- Of the stops of a text, the one nearest to a position, and the first of two that are equally
near. -/
structure IsNearestStop (text : List Char) (position stop : Nat) : Prop where
  /-- It is a stop. -/
  isStop : IsStop text stop
  /-- No stop is nearer. -/
  dist_le : ∀ other, IsStop text other → stop.dist position ≤ other.dist position
  /-- No stop in front of it is as near. -/
  le_of_dist_eq : ∀ other, IsStop text other → other.dist position = stop.dist position →
    stop ≤ other

/-- No stop lies between the ends of a token. -/
theorem IsStop.le_opening_or_after_le {stop : Nat} (hstop : IsStop text stop)
    {token : MetricToken} (hmem : token ∈ scan text) :
    stop ≤ token.opening ∨ token.after ≤ stop :=
  isBoundary_iff_forall.1 hstop.2 token hmem

/-- The cursor is placed at the nearest stop: of a position inside a token, that is one of the ends
of the token. -/
theorem isNearestStop_snap (hle : position ≤ text.length) :
    IsNearestStop text position (snap (scan text) position) := by
  unfold snap
  split
  next token htoken =>
    -- All other stops are at least as far away as the end of the token on their side.
    have hmem := List.mem_of_find?_eq_some htoken
    obtain ⟨hopening, hafter⟩ : token.opening < position ∧ position < token.after := by
      have hinside := List.find?_some htoken
      simpa [contains, after, Nat.lt_succ_iff] using hinside
    have hends : ∀ other, IsStop text other → other ≤ token.opening ∨ token.after ≤ other :=
      fun other hother => hother.le_opening_or_after_le hmem
    by_cases hnear : position - token.opening ≤ token.after - position
    · -- Half way the beginning of the token is chosen, the stop that comes first.
      rw [if_pos hnear]
      refine ⟨isStop_opening hmem, fun other hother => ?_, fun other hother heq => ?_⟩
      · have hside := hends other hother
        unfold Nat.dist
        omega
      · have hside := hends other hother
        unfold Nat.dist at heq
        omega
    · rw [if_neg hnear]
      refine ⟨isStop_after hmem, fun other hother => ?_, fun other hother heq => ?_⟩
      · have hside := hends other hother
        unfold Nat.dist
        omega
      · have hside := hends other hother
        unfold Nat.dist at heq
        omega
  next hnone =>
    -- Outside of all tokens the position is a stop itself.
    refine ⟨⟨hle, hnone⟩, fun other _ => ?_, fun other _ heq => ?_⟩
    · rw [Nat.dist_self]
      exact Nat.zero_le _
    · rw [Nat.dist_self] at heq
      exact Nat.le_of_eq (Nat.eq_of_dist_eq_zero heq).symm

/-! ## One step -/

/-- A step to the right goes to the next stop, the least one behind the cursor. -/
theorem isLeast_moveRight (hscanned : editor.IsScanned) (hstop : IsStop editor.text editor.cursor)
    (hlt : editor.cursor < editor.text.length) :
    IsLeast {stop | IsStop editor.text stop ∧ editor.cursor < stop} editor.moveRight.cursor := by
  have hnext := isStop_moveRight hscanned hstop
  rcases moveRight_of_lt hlt with ⟨token, hstarting, hmove⟩ | ⟨-, hmove⟩
  · have hmem : token ∈ scan editor.text := hscanned ▸ List.mem_of_find?_eq_some hstarting
    have hopening : token.opening = editor.cursor := by simpa using List.find?_some hstarting
    have hlonger : token.opening < token.after :=
      Nat.lt_succ_of_lt (bounds_of_mem_scan hmem).1
    rw [hmove] at hnext ⊢
    refine ⟨⟨hnext, hopening ▸ hlonger⟩, fun stop hother => ?_⟩
    -- Any stop that is not in front of the token is behind it.
    exact (hother.1.le_opening_or_after_le hmem).resolve_left
      (Nat.not_le_of_lt (hopening ▸ hother.2))
  · rw [hmove] at hnext ⊢
    exact ⟨⟨hnext, Nat.lt_succ_self _⟩, fun stop hother => hother.2⟩

/-- A step to the left goes to the stop before, the greatest one in front of the cursor. -/
theorem isGreatest_moveLeft (hscanned : editor.IsScanned) (hstop : IsStop editor.text editor.cursor)
    (hpos : 0 < editor.cursor) :
    IsGreatest {stop | IsStop editor.text stop ∧ stop < editor.cursor} editor.moveLeft.cursor := by
  have hnext := isStop_moveLeft hscanned hstop
  rcases moveLeft_of_pos hpos with ⟨token, hending, hmove⟩ | ⟨-, hmove⟩
  · have hmem : token ∈ scan editor.text := hscanned ▸ List.mem_of_find?_eq_some hending
    have hafter : token.after = editor.cursor := by simpa using List.find?_some hending
    have hlonger : token.opening < token.after :=
      Nat.lt_succ_of_lt (bounds_of_mem_scan hmem).1
    rw [hmove] at hnext ⊢
    refine ⟨⟨hnext, hafter ▸ hlonger⟩, fun stop hother => ?_⟩
    -- Any stop that is not behind the token is in front of it.
    exact (hother.1.le_opening_or_after_le hmem).resolve_right
      (Nat.not_le_of_lt (hafter ▸ hother.2))
  · rw [hmove] at hnext ⊢
    exact ⟨⟨hnext, Nat.sub_lt hpos Nat.one_pos⟩, fun stop hother => Nat.le_sub_one_of_lt hother.2⟩

/-! ## Back again -/

/-- Two steps that bring the cursor back leave the editor as it was. -/
theorem eq_of_cursor_eq {moved back : Editor} (hmove : ∃ cursor, moved = { editor with cursor })
    (hback : ∃ cursor, back = { moved with cursor }) (hcursor : back.cursor = editor.cursor) :
    back = editor := by
  obtain ⟨next, rfl⟩ := hmove
  obtain ⟨cursor, rfl⟩ := hback
  exact congrArg (fun cursor => { editor with cursor }) hcursor

/-- A step to the left takes back a step to the right. -/
theorem moveLeft_moveRight (hscanned : editor.IsScanned) (hstop : IsStop editor.text editor.cursor)
    (hlt : editor.cursor < editor.text.length) : editor.moveRight.moveLeft = editor := by
  have hright := isLeast_moveRight hscanned hstop hlt
  -- The cursor was the last stop in front of the one that it went to.
  have hlast : IsGreatest {stop | IsStop editor.text stop ∧ stop < editor.moveRight.cursor}
      editor.cursor :=
    ⟨⟨hstop, hright.1.2⟩, fun stop hother => Nat.le_of_not_lt fun hbehind =>
      Nat.not_le_of_lt hother.2 (hright.2 ⟨hother.1, hbehind⟩)⟩
  have hmoved : editor.moveRight.IsScanned := hscanned.apply .moveRight
  have hleft := isGreatest_moveLeft hmoved (isStop_moveRight hscanned hstop)
    (Nat.zero_lt_of_lt hright.1.2)
  rw [(moveRight_text_tokens editor).1] at hleft
  exact eq_of_cursor_eq (exists_moveRight_eq _) (exists_moveLeft_eq _) (hleft.unique hlast)

/-- A step to the right takes back a step to the left. -/
theorem moveRight_moveLeft (hscanned : editor.IsScanned) (hstop : IsStop editor.text editor.cursor)
    (hpos : 0 < editor.cursor) : editor.moveLeft.moveRight = editor := by
  have hleft := isGreatest_moveLeft hscanned hstop hpos
  -- The cursor was the first stop behind the one that it went to.
  have hfirst : IsLeast {stop | IsStop editor.text stop ∧ editor.moveLeft.cursor < stop}
      editor.cursor :=
    ⟨⟨hstop, hleft.1.2⟩, fun stop hother => Nat.le_of_not_lt fun hbefore =>
      Nat.not_le_of_lt hother.2 (hleft.2 ⟨hother.1, hbefore⟩)⟩
  have htext := (moveLeft_text_tokens editor).1
  have hmoved : editor.moveLeft.IsScanned := hscanned.apply .moveLeft
  have hlt : editor.moveLeft.cursor < editor.moveLeft.text.length :=
    htext ▸ Nat.lt_of_lt_of_le hleft.1.2 hstop.1
  have hright := isLeast_moveRight hmoved (isStop_moveLeft hscanned hstop) hlt
  rw [htext] at hright
  exact eq_of_cursor_eq (exists_moveLeft_eq _) (exists_moveRight_eq _) (hright.unique hfirst)

/-! ## Many steps -/

instance decidableIsStop (text : List Char) (position : Nat) : Decidable (IsStop text position) :=
  inferInstanceAs (Decidable (position ≤ text.length ∧ containing? (scan text) position = none))

/-- The stops of a text from a position on, in increasing order. -/
def stopsFrom (text : List Char) (first : Nat) : List Nat :=
  (List.range' first (text.length + 1 - first)).filter fun position => IsStop text position

theorem pairwise_stopsFrom (text : List Char) (first : Nat) :
    (stopsFrom text first).Pairwise (· < ·) :=
  (List.pairwise_lt_range' 1).filter _

/-- From the beginning on, these are all stops. -/
theorem mem_stopsFrom_zero {stop : Nat} : stop ∈ stopsFrom text 0 ↔ IsStop text stop := by
  rw [stopsFrom, List.mem_filter, List.mem_range'_1, decide_eq_true_iff]
  refine and_iff_right_of_imp fun hstop => ?_
  have hle := hstop.1
  omega

/-- The end is the last stop. -/
theorem stopsFrom_length (text : List Char) : stopsFrom text text.length = [text.length] := by
  rw [stopsFrom, Nat.add_sub_cancel_left, List.range'_one]
  exact List.filter_cons_of_pos (decide_eq_true (isStop_length text))

/-- Behind a stop come the stops from the next one on. -/
theorem stopsFrom_eq_cons {stop next : Nat} (hstop : IsStop text stop)
    (hnext : IsLeast {other | IsStop text other ∧ stop < other} next) :
    stopsFrom text stop = stop :: stopsFrom text next := by
  obtain ⟨⟨hle, -⟩, hlt⟩ := hnext.1
  -- The positions are the stop, those in front of the next stop, and the others.
  have hpositions : List.range' stop (text.length + 1 - stop) =
      stop :: (List.range' (stop + 1) (next - (stop + 1)) ++
        List.range' next (text.length + 1 - next)) := by
    have hcount : text.length + 1 - stop = (next - (stop + 1) + (text.length + 1 - next)) + 1 := by
      omega
    have hmiddle : stop + 1 + (next - (stop + 1)) = next := by omega
    rw [hcount, List.range'_succ, ← List.range'_append_1, hmiddle]
  -- None of those in front of the next stop is one.
  have hnone : (List.range' (stop + 1) (next - (stop + 1))).filter
      (fun position => IsStop text position) = [] := by
    refine List.filter_eq_nil_iff.2 fun position hmem hother => ?_
    obtain ⟨hlow, hhigh⟩ := List.mem_range'_1.1 hmem
    have hleast := hnext.2 ⟨of_decide_eq_true hother, hlow⟩
    omega
  rw [stopsFrom, hpositions, List.filter_cons, if_pos (decide_eq_true hstop), List.filter_append,
    hnone, List.nil_append, stopsFrom]

/-- As many states as there are stops from the cursor on, each one step to the right of the last,
have the cursor at these stops, one after the other. -/
theorem map_cursor_iterate_moveRight {count : Nat} (hscanned : editor.IsScanned)
    (hstop : IsStop editor.text editor.cursor)
    (hcount : (stopsFrom editor.text editor.cursor).length = count) :
    (List.iterate moveRight editor count).map cursor = stopsFrom editor.text editor.cursor := by
  -- By induction on the number of stops, since each step leaves one of them behind.
  induction count generalizing editor with
  | zero => exact (List.length_eq_zero_iff.1 hcount).symm
  | succ count ih =>
    rw [List.iterate, List.map_cons]
    rcases Nat.eq_or_lt_of_le hstop.1 with hend | hlt
    · -- At the end the end itself is the only stop left.
      rw [hend, stopsFrom_length] at hcount ⊢
      rw [← Nat.succ.inj hcount]
      rfl
    · have hnext := stopsFrom_eq_cons hstop (isLeast_moveRight hscanned hstop hlt)
      have hmoved : editor.moveRight.IsScanned := hscanned.apply .moveRight
      rw [hnext, ← (moveRight_text_tokens editor).1] at hcount ⊢
      rw [ih hmoved (isStop_moveRight hscanned hstop) (Nat.succ.inj hcount)]

/-- In every state that an editor gets into, the cursor is placed at the stop nearest to the given
position, and a step takes it to the next stop on that side, if there is one. So steps to the right
from the beginning visit every stop once and in order, and a step back undoes a step. -/
theorem Reachable.moves_between_stops (hreach : Reachable editor) :
    (∀ position, ∃ stop, editor.setCursor position = { editor with cursor := stop } ∧
      IsNearestStop editor.text (min position editor.text.length) stop) ∧
    (editor.cursor < editor.text.length →
      ∃ next, editor.moveRight = { editor with cursor := next } ∧
        IsLeast {stop | IsStop editor.text stop ∧ editor.cursor < stop} next) ∧
    (editor.cursor = editor.text.length → editor.moveRight = editor) ∧
    (0 < editor.cursor →
      ∃ next, editor.moveLeft = { editor with cursor := next } ∧
        IsGreatest {stop | IsStop editor.text stop ∧ stop < editor.cursor} next) ∧
    (editor.cursor = 0 → editor.moveLeft = editor) ∧
    (editor.cursor = 0 → ∃ count,
      ((List.iterate moveRight editor count).map cursor).Pairwise (· < ·) ∧
        ∀ stop, stop ∈ (List.iterate moveRight editor count).map cursor ↔
          IsStop editor.text stop) ∧
    (editor.moveRight ≠ editor → editor.moveRight.moveLeft = editor) ∧
    (editor.moveLeft ≠ editor → editor.moveLeft.moveRight = editor) := by
  have hscanned : editor.IsScanned := hreach.tokens_eq
  have hstop := hreach.isStop
  refine ⟨fun position => ?_, fun hlt => ?_, fun hend => moveRight_of_le (Nat.le_of_eq hend.symm),
    fun hpos => ?_, moveLeft_of_eq, fun hbegin => ?_, fun hmoved => ?_, fun hmoved => ?_⟩
  · refine ⟨_, rfl, ?_⟩
    rw [hscanned]
    exact isNearestStop_snap (Nat.min_le_right _ _)
  · obtain ⟨next, hmove⟩ := exists_moveRight_eq editor
    have hleast := isLeast_moveRight hscanned hstop hlt
    rw [hmove] at hleast
    exact ⟨next, hmove, hleast⟩
  · obtain ⟨next, hmove⟩ := exists_moveLeft_eq editor
    have hgreatest := isGreatest_moveLeft hscanned hstop hpos
    rw [hmove] at hgreatest
    exact ⟨next, hmove, hgreatest⟩
  -- From the beginning, one step right leads to each of the stops in turn.
  · refine ⟨(stopsFrom editor.text editor.cursor).length, ?_⟩
    rw [map_cursor_iterate_moveRight hscanned hstop rfl, hbegin]
    exact ⟨pairwise_stopsFrom _ _, fun stop => mem_stopsFrom_zero⟩
  · refine moveLeft_moveRight hscanned hstop (Nat.lt_of_not_le fun hle => hmoved ?_)
    exact moveRight_of_le hle
  · exact moveRight_moveLeft hscanned hstop (Nat.pos_of_ne_zero fun hzero => hmoved
      (moveLeft_of_eq hzero))

/-- Between a stray brace and one that is never closed stand an empty token and a token of a metric:
the middle of the empty one is as near to its beginning as to its end, and from between the two a
step goes over one of them. -/
theorem moves_between_stops_of_empty_token :
    let editor := ofText "\x7d\x7b\x7d\x7b a \x7d\x7b".toList {}
    let first := (editor.apply (.moveCursor 0)).2
    let between := (editor.apply (.moveCursor 3)).2
    Reachable first ∧ first.cursor = 0 ∧
      (∃ count, ((List.iterate moveRight first count).map cursor).Pairwise (· < ·) ∧
        ∀ stop, stop ∈ (List.iterate moveRight first count).map cursor ↔ IsStop first.text stop) ∧
      (List.iterate moveRight first 5).map cursor = [0, 1, 3, 8, 9] ∧
      Reachable between ∧ between.cursor = 3 ∧ between.text.length = 9 ∧
      IsNearestStop between.text (min 2 9) 1 ∧
      IsLeast {stop | IsStop between.text stop ∧ 3 < stop} 8 ∧
      IsGreatest {stop | IsStop between.text stop ∧ stop < 3} 1 ∧
      between.moveRight ≠ between ∧ between.moveRight.moveLeft = between ∧
      between.moveLeft ≠ between ∧ between.moveLeft.moveRight = between := by
  intro editor first between
  have hfirst : Reachable first := .apply _ (.ofText _ _)
  have hbetween : Reachable between := .apply _ (.ofText _ _)
  obtain ⟨-, -, -, -, -, hvisits, -, -⟩ := hfirst.moves_between_stops
  obtain ⟨hplace, hright, -, hleft, -, -, hback, hforth⟩ := hbetween.moves_between_stops
  obtain ⟨stop, hplaced, hnearest⟩ := hplace 2
  obtain ⟨next, hnext, hleast⟩ := hright (by decide)
  obtain ⟨last, hlast, hgreatest⟩ := hleft (by decide)
  -- Where the cursor goes is found by running the three moves.
  have hstop : stop = 1 := (congrArg cursor hplaced).symm.trans (by decide)
  have hnext : next = 8 := (congrArg cursor hnext).symm.trans (by decide)
  have hlast : last = 1 := (congrArg cursor hlast).symm.trans (by decide)
  have hmovesRight : between.moveRight ≠ between := by decide
  have hmovesLeft : between.moveLeft ≠ between := by decide
  exact ⟨hfirst, by decide, hvisits (by decide), by decide, hbetween, by decide, by decide,
    hstop ▸ hnearest, hnext ▸ hleast, hlast ▸ hgreatest, hmovesRight, hback hmovesRight, hmovesLeft,
    hforth hmovesLeft⟩

end Editor

end MetricFormula
