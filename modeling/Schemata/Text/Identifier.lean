import Schemata.Text.Blank
import Schemata.Text.Segments

/-!
# Identifiers

A name is an identifier: a low line or a character of `XID_Start`, then characters of
`XID_Continue`. The name of a document is qualified: identifiers separated by full stops.

Which characters have these properties is not said here. Each version of Unicode adds to them, so
they are a parameter, `IdentifierClasses`, with what every version says of them as its laws.
-/

namespace Schemata.Text

/-- The characters of the properties `XID_Start` and `XID_Continue`. -/
class IdentifierClasses where
  isStart : Char → Bool
  isContinue : Char → Bool
  /-- White space does not open an identifier. -/
  isWhiteSpace_eq_false : ∀ c, isStart c = true → isWhiteSpace c = false
  /-- A full stop does not open an identifier. -/
  isStart_stop : isStart '.' = false
  /-- A full stop does not continue an identifier. -/
  isContinue_stop : isContinue '.' = false

variable [classes : IdentifierClasses]

/-- Whether a character may open an identifier. -/
def isIdentifierStart (c : Char) : Bool := c == '_' || classes.isStart c

/-- Whether a character may follow in an identifier. -/
def isIdentifierContinue (c : Char) : Bool := classes.isContinue c

/-- Whether a sequence of characters spells an identifier. -/
def spellsIdentifier : List Char → Bool
  | [] => false
  | c :: cs => isIdentifierStart c && cs.all isIdentifierContinue

/-- Whether a text is an identifier. -/
def isIdentifier (s : String) : Bool :=
  spellsIdentifier s.toList

/-- Whether a text is a qualified name: every segment between full stops is an identifier. -/
def isQualifiedName (s : String) : Bool :=
  (segments '.' s.toList).all spellsIdentifier

@[simp] theorem spellsIdentifier_nil : spellsIdentifier [] = false := rfl

theorem spellsIdentifier_cons {c : Char} {cs : List Char} :
    spellsIdentifier (c :: cs) = true ↔
      isIdentifierStart c = true ∧ ∀ d ∈ cs, isIdentifierContinue d = true := by
  simp [spellsIdentifier]

theorem isQualifiedName_iff {s : String} :
    isQualifiedName s = true ↔ ∀ t ∈ segments '.' s.toList, spellsIdentifier t = true := by
  simp [isQualifiedName]

/-! ### Names are not blank -/

/-- White space does not open an identifier. -/
theorem isWhiteSpace_eq_false_of_isIdentifierStart {c : Char} (h : isIdentifierStart c = true) :
    isWhiteSpace c = false := by
  rw [isIdentifierStart, Bool.or_eq_true] at h
  rcases h with h | h
  · rw [eq_of_beq h]
    decide
  · exact classes.isWhiteSpace_eq_false c h

theorem isBlank_eq_false_of_head {s : String} {c : Char} {cs : List Char}
    (hs : s.toList = c :: cs) (h : isIdentifierStart c = true) : isBlank s = false := by
  rw [isBlank, hs, List.all_cons, isWhiteSpace_eq_false_of_isIdentifierStart h, Bool.false_and]

theorem isBlank_eq_false_of_isIdentifier {s : String} (h : isIdentifier s = true) :
    isBlank s = false := by
  rw [isIdentifier] at h
  cases hs : s.toList with
  | nil => simp [hs] at h
  | cons c cs =>
    rw [hs, spellsIdentifier_cons] at h
    exact isBlank_eq_false_of_head hs h.1

/-- The first segment of a qualified name begins the name. -/
theorem isBlank_eq_false_of_isQualifiedName {s : String} (h : isQualifiedName s = true) :
    isBlank s = false := by
  rw [isQualifiedName_iff] at h
  cases hs : s.toList with
  | nil => simp [hs, segments] at h
  | cons c cs =>
    rw [hs, segments] at h
    refine isBlank_eq_false_of_head hs ?_
    split at h
    · simp at h
    · split at h
      · exact (spellsIdentifier_cons.1 (h [c] (by simp))).1
      · exact (spellsIdentifier_cons.1 (h _ List.mem_cons_self)).1

end Schemata.Text
