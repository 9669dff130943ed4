import Schemata.Proofs.LinePositions
import Schemata.Text.Segments

/-!
# Positions that are in a text

The lines of a text are the segments between its line feeds, and a position is in the text if its
line is there and its column does not pass the end of that line (`Position.IsIn`). These are the
positions of offsets. A position is converted to an offset by the start of its line and its column,
and the length of the line is not looked at, only that of the text. So some positions that are not
in the text have an offset too, on a later line (`Lines.readsBack_iff`).
-/

namespace Schemata

/-- Whether a position is in a text: its line is there, and its column does not pass the end of that
line. -/
def Position.IsIn (lc : Position) (bytes : List UInt8) : Prop :=
  ∃ line, (Text.segments 10 bytes)[lc.line]? = some line ∧ lc.column ≤ line.length

namespace Lines

variable {bytes : List UInt8} {i o start : Nat}

/-! ### Starts and ends of lines -/

/-- Where lines start that follow one another from `start`, with a line feed between each two. -/
def startsOf (start : Nat) : List (List UInt8) → List Nat
  | [] => []
  | line :: lines => start :: startsOf (start + line.length + 1) lines

theorem length_startsOf (start : Nat) (lines : List (List UInt8)) :
    (startsOf start lines).length = lines.length := by
  induction lines generalizing start with
  | nil => rfl
  | cons line lines ih => rw [startsOf, List.length_cons, ih, List.length_cons]

/-- The lines of a text are the segments between its line feeds. -/
theorem cons_startsAfter (offset : Nat) (bytes : List UInt8) :
    offset :: startsAfter offset bytes = startsOf offset (Text.segments 10 bytes) := by
  induction bytes generalizing offset with
  | nil => rfl
  | cons b bytes ih =>
    rw [startsAfter, Text.segments]
    by_cases hb : b = 10
    · rw [if_pos hb, if_pos hb, ih]
      rfl
    · -- the byte is the first of the line that goes on
      have hrest := ih (offset + 1)
      rw [if_neg hb, if_neg hb]
      cases hsegments : Text.segments 10 bytes with
      | nil => exact absurd hsegments (Text.segments_ne_nil _ _)
      | cons line lines =>
        rw [hsegments, startsOf, List.cons.injEq] at hrest
        rw [hrest.2]
        dsimp only
        rw [startsOf, List.length_cons, ← Nat.add_assoc, Nat.add_right_comm offset]

/-- A line ends one before the next starts, and the last where all of them end. -/
theorem getElem?_startsOf {first : Nat} {lines : List (List UInt8)} {line : List UInt8}
    (hstart : (startsOf first lines)[i]? = some start) (hline : lines[i]? = some line) :
    (startsOf first lines)[i + 1]? = some (start + line.length + 1) ∨
      (startsOf first lines)[i + 1]? = none ∧
        start + line.length = first + ([10].intercalate lines).length := by
  induction lines generalizing first i with
  | nil => cases hline
  | cons head lines ih =>
    cases i with
    | zero =>
      obtain rfl : first = start := Option.some.inj hstart
      obtain rfl : head = line := Option.some.inj hline
      cases lines with
      | nil => exact .inr ⟨rfl, by simp⟩
      | cons => exact .inl rfl
    | succ i =>
      refine (ih hstart hline).imp id fun ⟨hnone, hend⟩ ↦ ⟨hnone, ?_⟩
      cases lines with
      | nil => cases hline
      | cons =>
        rw [hend, List.intercalate_cons_cons]
        simp only [List.length_append, List.length_singleton]
        omega

theorem starts_eq_startsOf (bytes : List UInt8) :
    (ofBytes bytes).starts = startsOf 0 (Text.segments 10 bytes) :=
  cons_startsAfter 0 bytes

theorem exists_start {line : List UInt8} (h : (Text.segments 10 bytes)[i]? = some line) :
    ∃ start, (ofBytes bytes).starts[i]? = some start := by
  have hlt := (List.getElem?_eq_some_iff.1 h).1
  rw [← length_startsOf 0, ← starts_eq_startsOf] at hlt
  exact ⟨_, List.getElem?_eq_getElem hlt⟩

theorem exists_line (h : (ofBytes bytes).starts[i]? = some start) :
    ∃ line, (Text.segments 10 bytes)[i]? = some line := by
  have hlt := (List.getElem?_eq_some_iff.1 h).1
  rw [starts_eq_startsOf, length_startsOf] at hlt
  exact ⟨_, List.getElem?_eq_getElem hlt⟩

/-- The next line starts one after the end of a line, and the last line ends with the text. -/
theorem getElem?_starts_succ {line : List UInt8} (hstart : (ofBytes bytes).starts[i]? = some start)
    (hline : (Text.segments 10 bytes)[i]? = some line) :
    (ofBytes bytes).starts[i + 1]? = some (start + line.length + 1) ∨
      (ofBytes bytes).starts[i + 1]? = none ∧ start + line.length = bytes.length := by
  rw [starts_eq_startsOf] at hstart ⊢
  simpa only [Text.intercalate_segments, Nat.zero_add] using getElem?_startsOf hstart hline

/-- A line ends within the text. -/
theorem start_add_length_le {line : List UInt8} (hstart : (ofBytes bytes).starts[i]? = some start)
    (hline : (Text.segments 10 bytes)[i]? = some line) : start + line.length ≤ bytes.length := by
  rcases getElem?_starts_succ hstart hline with hnext | ⟨-, hend⟩
  · obtain ⟨k, hk, -, hnext⟩ := getElem?_startsAfter_iff.1 hnext
    have hlt := (List.getElem?_eq_some_iff.1 hk).1
    omega
  · exact hend.le

/-- The offset of a position is on the line of the position exactly if its column does not pass the
end of that line. Otherwise it is on a later line. -/
theorem line_position_eq_iff {lc : Position} {line : List UInt8}
    (hstart : (ofBytes bytes).starts[lc.line]? = some start)
    (hline : (Text.segments 10 bytes)[lc.line]? = some line)
    (hle : start + lc.column ≤ bytes.length) :
    ((ofBytes bytes).position (start + lc.column)).line = lc.line ↔ lc.column ≤ line.length := by
  have hfirst := (start_le_iff hstart (p := start + lc.column)).1 (Nat.le_add_right _ _)
  rw [position_ofBytes, after_eq]
  dsimp only
  rcases getElem?_starts_succ hstart hline with hnext | ⟨hnone, hend⟩
  · have hsecond := start_le_iff hnext (p := start + lc.column)
    omega
  · -- there is no later line
    have hlast := count_lt_length_starts bytes (start + lc.column)
    rw [List.getElem?_eq_none_iff] at hnone
    omega

/-! ### Real and other positions -/

theorem position_eq_iff_isIn {lc : Position} (h : (ofBytes bytes).offset? lc = some o) :
    (ofBytes bytes).position o = lc ↔ lc.IsIn bytes := by
  obtain ⟨start, hstart, rfl, hle⟩ := offset?_eq_some_iff.1 h
  obtain ⟨line, hline⟩ := exists_line hstart
  have hisIn : lc.IsIn bytes ↔ lc.column ≤ line.length := by
    simp only [Position.IsIn, hline, Option.some.injEq, exists_eq_left']
  rw [hisIn, ← line_position_eq_iff hstart hline hle]
  refine ⟨congrArg _, fun heq ↦ ?_⟩
  -- on that line the column is counted from the same start
  rw [position_ofBytes, after_eq] at heq ⊢
  dsimp only at heq
  have hsame := getElem?_starts_count bytes (start + lc.column)
  rw [heq, hstart, Option.some.injEq] at hsame
  rw [heq, ← hsame, List.length_take, min_eq_left hle, Nat.add_sub_cancel_left]

theorem exists_offset?_of_isIn {lc : Position} (h : lc.IsIn bytes) :
    ∃ o, (ofBytes bytes).offset? lc = some o := by
  obtain ⟨line, hline, hle⟩ := h
  obtain ⟨start, hstart⟩ := exists_start hline
  have hend := start_add_length_le hstart hline
  exact ⟨_, offset?_eq_some_iff.2 ⟨start, hstart, rfl, by omega⟩⟩

/-- The positions of offsets are those that are in the text. -/
theorem exists_position_iff_isIn {lc : Position} :
    (∃ o, (ofBytes bytes).position o = lc) ↔ lc.IsIn bytes := by
  constructor
  · rintro ⟨o, rfl⟩
    exact (position_eq_iff_isIn (offset?_position bytes o)).1 (position_min bytes o)
  · intro h
    obtain ⟨o, ho⟩ := exists_offset?_of_isIn h
    exact ⟨o, (position_eq_iff_isIn ho).2 h⟩

/-- Whether a position is taken for what it is: it has an offset only if it is the position of that
offset, and then it is in the text. -/
structure ReadsBack (text : String) (lc : Position) : Prop where
  position_eq : ∀ o, (ofText text).offset? lc = some o → (ofText text).position o = lc
  exists_iff : (∃ o, (ofText text).offset? lc = some o) ↔ ∃ o, (ofText text).position o = lc
  eq_none : ∀ line, (Text.segments 10 text.toUTF8.data.toList)[lc.line]? = some line →
    line.length < lc.column → (ofText text).offset? lc = none

/-- **Which positions are taken for what they are.** Those of offsets are the positions in the text,
and they all are. Of the others, those whose line is not there and those that pass the end of the
text are refused. A column that passes the end of its line but not that of the text is not: it has
an offset, and the position of that offset is on a later line. -/
theorem readsBack_iff (text : String) (lc : Position) :
    let bytes := text.toUTF8.data.toList
    let ls := ofText text
    ((∃ o, ls.position o = lc) ↔ lc.IsIn bytes) ∧
      (lc.IsIn bytes ↔ ∃ o, ls.offset? lc = some o ∧ ls.position o = lc) ∧
      (∀ o, ls.offset? lc = some o → lc.IsIn bytes ∨ lc.line < (ls.position o).line) ∧
      (ReadsBack text lc ↔ ∀ line start, (Text.segments 10 bytes)[lc.line]? = some line →
        ls.starts[lc.line]? = some start → line.length < lc.column →
          bytes.length < start + lc.column) := by
  intro bytes ls
  have hsome {o : Nat} (ho : ls.offset? lc = some o) : ls.position o = lc ↔ lc.IsIn bytes :=
    position_eq_iff_isIn ho
  refine ⟨exists_position_iff_isIn, ⟨fun h ↦ ?_, fun ⟨o, ho, heq⟩ ↦ (hsome ho).1 heq⟩,
    fun o ho ↦ ?_, fun h line start hline hstart hlt ↦ ?_, fun h ↦ ?_⟩
  · obtain ⟨o, ho⟩ := exists_offset?_of_isIn h
    exact ⟨o, ho, (hsome ho).2 h⟩
  · obtain ⟨start, hstart, rfl, hle⟩ := offset?_eq_some_iff.1 ho
    obtain ⟨line, hline⟩ := exists_line hstart
    have hline' := line_position_eq_iff hstart hline hle
    have hfirst : lc.line ≤ (ls.position (start + lc.column)).line := by
      rw [show ls = ofBytes bytes from rfl, position_ofBytes, after_eq]
      exact (start_le_iff hstart).1 (Nat.le_add_right _ _)
    rcases Nat.eq_or_lt_of_le hfirst with heq | hlt
    · exact .inl ⟨line, hline, hline'.1 heq.symm⟩
    · exact .inr hlt
  · by_contra hle
    have ho : ls.offset? lc = some (start + lc.column) :=
      offset?_eq_some_iff.2 ⟨start, hstart, rfl, Nat.le_of_not_lt hle⟩
    cases ho.symm.trans (h.eq_none line hline hlt)
  · -- what is accepted does not pass the end of its line
    have hisIn {o : Nat} (ho : ls.offset? lc = some o) : lc.IsIn bytes := by
      obtain ⟨start, hstart, rfl, hle⟩ := offset?_eq_some_iff.1 ho
      obtain ⟨line, hline⟩ := exists_line hstart
      refine ⟨line, hline, Nat.le_of_not_lt fun hlt ↦ ?_⟩
      exact absurd hle (Nat.not_le.2 (h line start hline hstart hlt))
    refine ⟨fun o ho ↦ (hsome ho).2 (hisIn ho), ?_, fun line hline hlt ↦ ?_⟩
    · exact ⟨fun ⟨o, ho⟩ ↦ exists_position_iff_isIn.2 (hisIn ho),
        fun ho ↦ exists_offset?_of_isIn (exists_position_iff_isIn.1 ho)⟩
    · rw [Option.eq_none_iff_forall_ne_some]
      intro o ho
      obtain ⟨line', hline', hle⟩ := hisIn ho
      rw [show (Text.segments 10 bytes)[lc.line]? = some line from hline, Option.some.injEq]
        at hline'
      exact absurd hle (hline' ▸ Nat.not_le.2 hlt)

/-- On the last line a column beyond the end is refused, and on an empty line the first column is
there. -/
theorem readsBack_iff_ofBlankLine :
    ReadsBack "a\n\nbc" ⟨2, 3⟩ ∧ ∃ o, (ofText "a\n\nbc").offset? ⟨1, 0⟩ = some o ∧
      (ofText "a\n\nbc").position o = ⟨1, 0⟩ := by
  refine ⟨(readsBack_iff _ ⟨2, 3⟩).2.2.2.2 fun line start _ hstart _ ↦ ?_,
    (readsBack_iff _ ⟨1, 0⟩).2.1.1 ⟨[], by decide +kernel, Nat.le_refl 0⟩⟩
  have hfour : (ofText "a\n\nbc").starts[2]? = some 3 := by decide +kernel
  obtain rfl : 3 = start := Option.some.inj (hfour.symm.trans hstart)
  decide +kernel

/-- The second column after the first line of two is taken for the start of the second. -/
theorem not_readsBack_beyond_line : (ofText "a\nb").offset? ⟨0, 2⟩ = some 2 ∧
    (ofText "a\nb").position 2 = ⟨1, 0⟩ ∧ ¬ ReadsBack "a\nb" ⟨0, 2⟩ := by
  have ho : (ofText "a\nb").offset? ⟨0, 2⟩ = some 2 := by decide +kernel
  have hposition : (ofText "a\nb").position 2 = ⟨1, 0⟩ := by decide +kernel
  refine ⟨ho, hposition, fun h ↦ ?_⟩
  cases hposition.symm.trans (h.position_eq 2 ho)

end Lines

end Schemata
