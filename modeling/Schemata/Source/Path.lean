import Schemata.Text.Segments

/-!
# Paths

Two spellings name the same path when their steps agree. Repeated and trailing slashes do not count,
nor does a step `.` except at the head of a relative path; a step `..` is kept, since what it leads
to is for the file system to say.
-/

namespace Schemata

/-- A path by what distinguishes it: whether it starts at the root, and its steps. -/
structure Path where
  isAbsolute : Bool
  steps : List (List Char)
  deriving DecidableEq, Repr

namespace Path

/-- Whether a segment between slashes is a step. -/
def isStep (segment : List Char) : Bool := segment != [] && segment != ['.']

/-- The path that a sequence of characters spells. -/
def ofChars (cs : List Char) : Path :=
  let segments := Text.segments '/' cs
  let steps := segments.filter isStep
  match cs with
  | '/' :: _ => ⟨true, steps⟩
  | _ => ⟨false, if segments.head? = some ['.'] then ['.'] :: steps else steps⟩

/-- The path that a text spells. -/
def ofText (s : String) : Path := ofChars s.toList

/-- Whether two spellings name the same path. -/
def same (s t : String) : Bool := ofText s == ofText t

@[simp] theorem same_self (s : String) : same s s = true := by simp [same]

theorem same_iff {s t : String} : same s t = true ↔ ofText s = ofText t := by simp [same]

end Path

end Schemata
