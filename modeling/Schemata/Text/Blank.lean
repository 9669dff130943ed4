/-!
# Blank text

A text is blank when it holds white space alone; the empty text is blank. White space is the Unicode
property `White_Space`, which is wider than the white space of `Char.isWhitespace`
(`isWhiteSpace_of_isWhitespace`).
-/

namespace Schemata.Text

/-- The code points of the Unicode property `White_Space`, as inclusive ranges. -/
def whiteSpaces : List (Nat × Nat) :=
  [(0x9, 0xD), (0x20, 0x20), (0x85, 0x85), (0xA0, 0xA0), (0x1680, 0x1680), (0x2000, 0x200A),
   (0x2028, 0x2029), (0x202F, 0x202F), (0x205F, 0x205F), (0x3000, 0x3000)]

/-- Whether a code point lies in one of the inclusive ranges. -/
def inRanges (ranges : List (Nat × Nat)) (n : Nat) : Bool :=
  ranges.any fun r ↦ r.1 ≤ n && n ≤ r.2

/-- Whether a character has the property `White_Space`. -/
def isWhiteSpace (c : Char) : Bool :=
  inRanges whiteSpaces c.toNat

/-- Whether a text consists of white space alone. -/
def isBlank (s : String) : Bool :=
  s.toList.all isWhiteSpace

theorem isBlank_iff {s : String} : isBlank s = true ↔ ∀ c ∈ s.toList, isWhiteSpace c = true := by
  simp [isBlank]

/-- Every character that core calls white space is white space here. -/
theorem isWhiteSpace_of_isWhitespace {c : Char} (h : c.isWhitespace = true) :
    isWhiteSpace c = true := by
  simp only [Char.isWhitespace, Bool.or_eq_true, decide_eq_true_eq] at h
  rcases h with ((rfl | rfl) | rfl) | rfl <;> decide

end Schemata.Text
