import Mathlib.Data.List.DropRight
import Schemata.Source.Lines

/-!
# Offsets and their positions

Reading a text byte by byte leads from its start to the position of each offset
(`Lines.position_ofBytes`), and each byte leads forwards. So the line of an offset is the number of
line feeds before it, and its column is counted from the last of them.

A position is found among the starts of lines and not by reading. What ties the two together is
`Lines.start_le_iff`: the lines that start at an offset or before it are the first ones, as many as
there are line feeds before the offset, and one. However these starts are searched, this is the
place to which the search comes.
-/

namespace Schemata

/-- What the first elements of a list have, and no others, is counted by their number. -/
theorem countP_eq_of_iff_lt {α : Type} {xs : List α} {q : α → Bool} {n : Nat} (hn : n ≤ xs.length)
    (h : ∀ i x, xs[i]? = some x → (q x = true ↔ i < n)) : xs.countP q = n := by
  have htake : (xs.take n).countP q = n := by
    rw [List.countP_eq_length.2, List.length_take, min_eq_left hn]
    intro x hx
    obtain ⟨i, hi⟩ := List.mem_iff_getElem?.1 hx
    rw [List.getElem?_take] at hi
    split at hi
    · rename_i hlt
      exact (h i x hi).2 hlt
    · cases hi
  have hdrop : (xs.drop n).countP q = 0 := by
    refine List.countP_eq_zero.2 fun x hx hq ↦ ?_
    obtain ⟨i, hi⟩ := List.mem_iff_getElem?.1 hx
    rw [List.getElem?_drop] at hi
    have hlt := (h _ x hi).1 hq
    omega
  rw [← List.take_append_drop n xs, List.countP_append, htake, hdrop, Nat.add_zero]

/-! ### Reading byte by byte -/

namespace Position

/-- The position after one more byte. -/
def next (p : Position) (b : UInt8) : Position :=
  if b = 10 then ⟨p.line + 1, 0⟩ else ⟨p.line, p.column + 1⟩

/-- The position to which some bytes lead from the start of a text. -/
def after (bytes : List UInt8) : Position := bytes.foldl next ⟨0, 0⟩

theorem after_append_singleton (bytes : List UInt8) (b : UInt8) :
    after (bytes ++ [b]) = (after bytes).next b := by
  rw [after, List.foldl_concat]
  rfl

theorem before_trans {p q r : Position} (hpq : p.before q) (hqr : q.before r) : p.before r := by
  unfold before at *
  omega

/-- A byte leads forwards. -/
theorem before_next (p : Position) (b : UInt8) : p.before (p.next b) := by
  rw [next]
  split
  · exact .inl (Nat.lt_succ_self _)
  · exact .inr ⟨rfl, Nat.lt_succ_self _⟩

/-- So do some bytes. -/
theorem before_after_append (bytes : List UInt8) {more : List UInt8} (h : more ≠ []) :
    (after bytes).before (after (bytes ++ more)) := by
  induction more using List.reverseRecOn with
  | nil => exact absurd rfl h
  | append_singleton more b ih =>
    rw [← List.append_assoc, after_append_singleton]
    by_cases hmore : more = []
    · rw [hmore, List.append_nil]
      exact before_next _ b
    · exact before_trans (ih hmore) (before_next _ b)

end Position

namespace Lines

variable {bytes : List UInt8} {i o p start : Nat}

/-- Where the last line of some bytes starts: just after the last line feed, or at zero if there is
none. -/
def lastStart (bytes : List UInt8) : Nat := (bytes.rdropWhile (· != 10)).length

theorem lastStart_append_singleton (bytes : List UInt8) (b : UInt8) :
    lastStart (bytes ++ [b]) = if b = 10 then bytes.length + 1 else lastStart bytes := by
  rw [lastStart, List.rdropWhile_concat]
  by_cases hb : b = 10
  · simp [hb]
  · simp [hb, lastStart]

theorem lastStart_le (bytes : List UInt8) : lastStart bytes ≤ bytes.length :=
  (List.rdropWhile_prefix _ bytes).length_le

/-- Bytes lead to the line that is counted by their line feeds, and in it to the column that is
counted from its start. -/
theorem after_eq (bytes : List UInt8) :
    Position.after bytes = ⟨bytes.count 10, bytes.length - lastStart bytes⟩ := by
  induction bytes using List.reverseRecOn with
  | nil => rfl
  | append_singleton bytes b ih =>
    have hle := lastStart_le bytes
    rw [Position.after_append_singleton, ih, Position.next, lastStart_append_singleton,
      List.count_append, List.length_append, List.length_singleton]
    by_cases hb : b = 10
    · simp [hb]
    · rw [if_neg hb, if_neg hb, List.count_singleton, if_neg (by simpa using hb), Nat.add_zero,
        Nat.sub_add_comm hle]
      rfl

/-! ### Where lines start -/

/-- After the first, the lines start just after the line feeds, in their order. -/
theorem getElem?_startsAfter_iff {offset : Nat} :
    (startsAfter offset bytes)[i]? = some start ↔
      ∃ k, bytes[k]? = some 10 ∧ (bytes.take k).count 10 = i ∧ start = offset + k + 1 := by
  induction bytes generalizing offset i with
  | nil => simp [startsAfter]
  | cons b bytes ih =>
    -- the first byte, or one of the others
    have hcons : (∃ k, (b :: bytes)[k]? = some 10 ∧ ((b :: bytes).take k).count 10 = i ∧
        start = offset + k + 1) ↔ (b = 10 ∧ i = 0 ∧ start = offset + 1) ∨
          ∃ k, bytes[k]? = some 10 ∧ (bytes.take k).count 10 + (if b = 10 then 1 else 0) = i ∧
            start = offset + 1 + k + 1 := by
      constructor
      · rintro ⟨k, hk, hcount, hstart⟩
        cases k with
        | zero => exact .inl ⟨by simpa using hk, by simpa using hcount.symm, hstart⟩
        | succ k =>
          refine .inr ⟨k, hk, ?_, by omega⟩
          rw [List.take_succ_cons, List.count_cons] at hcount
          simpa using hcount
      · rintro (⟨rfl, rfl, hstart⟩ | ⟨k, hk, hcount, hstart⟩)
        · exact ⟨0, rfl, rfl, hstart⟩
        · refine ⟨k + 1, hk, ?_, by omega⟩
          rw [List.take_succ_cons, List.count_cons]
          simpa using hcount
    rw [hcons, startsAfter]
    by_cases hb : b = 10
    · rw [if_pos hb]
      cases i with
      | zero => simp [hb, eq_comm]
      | succ i => simp [hb, ih]
    · simp [hb, ih]

/-- The lines up to that of an offset start at it or before it, and the others start after it. -/
theorem start_le_iff (h : (ofBytes bytes).starts[i]? = some start) :
    start ≤ p ↔ i ≤ (bytes.take p).count 10 := by
  cases i with
  | zero =>
    obtain rfl : 0 = start := Option.some.inj h
    simp
  | succ i =>
    obtain ⟨k, hk, rfl, rfl⟩ := getElem?_startsAfter_iff.1 h
    have hnext : (bytes.take (k + 1)).count 10 = (bytes.take k).count 10 + 1 := by
      simp [List.take_add_one, hk]
    constructor
    · intro hle
      rw [← hnext]
      exact (List.take_sublist_take_left (by omega)).count_le 10
    · intro hle
      by_contra hlt
      have hcount : (bytes.take p).count 10 ≤ (bytes.take k).count 10 :=
        (List.take_sublist_take_left (by omega)).count_le 10
      omega

theorem count_lt_length_starts (bytes : List UInt8) (p : Nat) :
    (bytes.take p).count 10 < (ofBytes bytes).starts.length := by
  have hcount := count_ofBytes bytes
  have hle : (bytes.take p).count 10 ≤ bytes.count 10 := (List.take_sublist p bytes).count_le 10
  rw [count] at hcount
  omega

/-- The line that is counted by the line feeds before an offset starts after the last of them. -/
theorem getElem?_starts_count (bytes : List UInt8) (p : Nat) :
    (ofBytes bytes).starts[(bytes.take p).count 10]? = some (lastStart (bytes.take p)) := by
  induction p with
  | zero => rfl
  | succ p ih =>
    rw [List.take_add_one]
    cases hb : bytes[p]? with
    | none => simpa using ih
    | some b =>
      have hlength : (bytes.take p).length = p := by
        have hlt := (List.getElem?_eq_some_iff.1 hb).1
        rw [List.length_take]
        omega
      rw [Option.toList_some, lastStart_append_singleton, List.count_append, hlength]
      by_cases h10 : b = 10
      · subst h10
        exact getElem?_startsAfter_iff.2 ⟨p, hb, rfl, by simp⟩
      · rw [if_neg h10, List.count_singleton, if_neg (by simpa using h10)]
        exact ih

/-- **The position of an offset** is the one to which the bytes before it lead. -/
theorem position_ofBytes (bytes : List UInt8) (o : Nat) :
    (ofBytes bytes).position o = Position.after (bytes.take o) := by
  have hlines : (ofBytes bytes).starts.countP (· ≤ min o bytes.length) =
      (bytes.take (min o bytes.length)).count 10 + 1 := by
    refine countP_eq_of_iff_lt (count_lt_length_starts _ _) fun i start h ↦ ?_
    rw [decide_eq_true_iff, start_le_iff h, Nat.lt_succ_iff]
  have hposition : (ofBytes bytes).position o =
      ⟨(ofBytes bytes).starts.countP (· ≤ min o bytes.length) - 1, min o bytes.length -
        (ofBytes bytes).starts.getD
          ((ofBytes bytes).starts.countP (· ≤ min o bytes.length) - 1) 0⟩ := rfl
  rw [hposition, hlines, Nat.add_sub_cancel, List.getD_eq_getElem?_getD, getElem?_starts_count,
    Option.getD_some, ← List.take_eq_take_min, after_eq, List.length_take]

/-! ### Offsets and back -/

theorem offset?_eq_some_iff {lc : Position} :
    (ofBytes bytes).offset? lc = some o ↔ ∃ start, (ofBytes bytes).starts[lc.line]? = some start ∧
      start + lc.column = o ∧ o ≤ bytes.length := by
  rw [offset?]
  cases (ofBytes bytes).starts[lc.line]? with
  | none => simp
  | some start =>
    show (if start + lc.column ≤ bytes.length then some (start + lc.column) else none) = some o ↔ _
    rw [Option.ite_none_right_eq_some, Option.some.injEq, and_comm]
    simp only [Option.some.injEq, exists_eq_left']
    exact and_congr_right fun h ↦ by rw [h]

/-- The position of an offset leads back to it, or to the end of the text if it is beyond. -/
theorem offset?_position (bytes : List UInt8) (o : Nat) :
    (ofBytes bytes).offset? ((ofBytes bytes).position o) = some (min o bytes.length) := by
  have hle := lastStart_le (bytes.take o)
  rw [position_ofBytes, after_eq]
  refine offset?_eq_some_iff.2 ⟨_, getElem?_starts_count bytes o, ?_, Nat.min_le_right _ _⟩
  rw [← List.length_take]
  exact Nat.add_sub_of_le hle

/-- A later offset within the text has a later position. -/
theorem before_position {o o' : Nat} (hlt : o < o') (hle : o' ≤ bytes.length) :
    ((ofBytes bytes).position o).before ((ofBytes bytes).position o') := by
  obtain ⟨k, rfl⟩ : ∃ k, o' = o + (k + 1) := ⟨o' - o - 1, by omega⟩
  rw [position_ofBytes, position_ofBytes, List.take_add]
  refine Position.before_after_append _ (List.ne_nil_of_length_pos ?_)
  rw [List.length_take, List.length_drop]
  omega

/-- An offset beyond the end stands for the end. -/
theorem position_min (bytes : List UInt8) (o : Nat) :
    (ofBytes bytes).position (min o bytes.length) = (ofBytes bytes).position o := by
  rw [position_ofBytes, position_ofBytes, ← List.take_eq_take_min]

theorem position_le {o o' : Nat} (hle : o ≤ o') :
    (ofBytes bytes).position o = (ofBytes bytes).position o' ∨
      ((ofBytes bytes).position o).before ((ofBytes bytes).position o') := by
  rw [← position_min bytes o, ← position_min bytes o']
  rcases Nat.lt_or_ge (min o bytes.length) (min o' bytes.length) with hlt | hge
  · exact .inr (before_position hlt (Nat.min_le_right _ _))
  · exact .inl (congrArg _ (by omega))

/-- **Offsets and positions of a text.** The line of an offset is the number of line feeds before
it, and its column is counted from just after the last of them. This line is the last that starts at
the offset or before it, so that a search among the starts of lines comes to it. The position leads
back to the offset. A later offset within the text has a later position, and one beyond the end has
that of the end. For a text of fewer bytes than thirty-two bits can count, neither line nor column
needs more bits. -/
theorem position_ofText (text : String) :
    let bytes := text.toUTF8.data.toList
    let ls := ofText text
    (∀ o, ls.position o = ⟨(bytes.take (min o bytes.length)).count 10,
          min o bytes.length - lastStart (bytes.take (min o bytes.length))⟩ ∧
        (ls.position o).line < ls.count ∧
        (∀ i start, ls.starts[i]? = some start →
          (start ≤ min o bytes.length ↔ i ≤ (ls.position o).line)) ∧
        ls.offset? (ls.position o) = some (min o bytes.length) ∧
        (bytes.length < UInt32.size →
          (ls.position o).line < UInt32.size ∧ (ls.position o).column < UInt32.size)) ∧
      (∀ o o', o ≤ o' →
        ls.position o = ls.position o' ∨ (ls.position o).before (ls.position o')) ∧
      (∀ r : Range, r.start ≤ r.stop → (ls.positions r).start = (ls.positions r).stop ∨
        (ls.positions r).start.before (ls.positions r).stop) ∧
      ∀ o o', o ≤ bytes.length → o' ≤ bytes.length → ls.position o = ls.position o' → o = o' := by
  intro bytes ls
  refine ⟨fun o ↦ ?_, fun o o' hle ↦ position_le hle, fun r hle ↦ position_le hle,
    fun o o' ho ho' heq ↦ ?_⟩
  · have hposition : ls.position o = ⟨(bytes.take (min o bytes.length)).count 10,
        min o bytes.length - lastStart (bytes.take (min o bytes.length))⟩ := by
      rw [show ls = ofBytes bytes from rfl, position_ofBytes, after_eq, ← List.take_eq_take_min,
        List.length_take]
    have hline : (bytes.take (min o bytes.length)).count 10 ≤ bytes.length :=
      ((List.take_sublist _ bytes).count_le 10).trans List.count_le_length
    refine ⟨hposition, ?_, fun i start h ↦ ?_, offset?_position bytes o, fun hlt ↦ ?_⟩
    · rw [hposition]
      exact count_lt_length_starts _ _
    · rw [hposition]
      exact start_le_iff h
    · rw [hposition]
      dsimp only
      omega
  · -- the two positions lead back to the two offsets
    have hback := offset?_position bytes o
    rw [show (ofBytes bytes).position o = (ofBytes bytes).position o' from heq,
      offset?_position bytes o', Option.some.injEq] at hback
    omega

/-- In a text of two lines the second byte of the second line is on it, and the range around its
line feed goes from one line to the next. -/
theorem position_ofText_ofTwoLines :
    (ofText "a\nbc").position 3 = ⟨1, 1⟩ ∧ (ofText "a\nbc").offset? ⟨1, 1⟩ = some 3 ∧
      ((ofText "a\nbc").positions ⟨1, 2⟩).start.before
        ((ofText "a\nbc").positions ⟨1, 2⟩).stop := by
  obtain ⟨hposition, -, hrange, -⟩ := position_ofText "a\nbc"
  obtain ⟨-, -, -, hback, -⟩ := hposition 3
  have hthree : (ofText "a\nbc").position 3 = ⟨1, 1⟩ := by decide +kernel
  refine ⟨hthree, ?_, ?_⟩
  · rw [← hthree, hback]
    decide +kernel
  · exact (hrange ⟨1, 2⟩ (by decide)).resolve_left (by decide +kernel)

end Lines

end Schemata
