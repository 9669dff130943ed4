import Schemata.Source.Range

/-!
# The lines of a text

`Lines` holds where the lines of one text start, and converts between offsets and positions. A line
feed ends a line and belongs to it, so a text has one more line than line feeds.
-/

namespace Schemata

/-- The starts of the lines of a text, in order, and its length in bytes. -/
structure Lines where
  starts : List Nat
  length : Nat
  deriving DecidableEq, Repr

namespace Lines

/-- The offsets just after each line feed, for bytes that begin at `offset`. -/
def startsAfter (offset : Nat) : List UInt8 → List Nat
  | [] => []
  | b :: bytes =>
    if b = 10 then (offset + 1) :: startsAfter (offset + 1) bytes
    else startsAfter (offset + 1) bytes

/-- The lines of a sequence of bytes. -/
def ofBytes (bytes : List UInt8) : Lines :=
  ⟨0 :: startsAfter 0 bytes, bytes.length⟩

/-- The lines of a text. -/
def ofText (text : String) : Lines :=
  ofBytes text.toUTF8.data.toList

/-- The number of lines, never zero for a text. -/
def count (ls : Lines) : Nat := ls.starts.length

def isEmpty (ls : Lines) : Bool := ls.length == 0

/-- The position of an offset; an offset beyond the end stands for the end. -/
def position (ls : Lines) (offset : Nat) : Position :=
  let offset := min offset ls.length
  let line := ls.starts.countP (· ≤ offset) - 1
  ⟨line, offset - ls.starts.getD line 0⟩

/-- The positions of the ends of a range. -/
def positions (ls : Lines) (r : Range) : PositionRange :=
  ⟨ls.position r.start, ls.position r.stop⟩

/-- The offset of a position: the start of its line plus its column, if the line exists and the sum
does not pass the end of the text. -/
def offset? (ls : Lines) (p : Position) : Option Nat := do
  let start ← ls.starts[p.line]?
  if start + p.column ≤ ls.length then some (start + p.column) else none

@[simp] theorem starts_ofBytes (bytes : List UInt8) :
    (ofBytes bytes).starts = 0 :: startsAfter 0 bytes := rfl

@[simp] theorem length_ofBytes (bytes : List UInt8) : (ofBytes bytes).length = bytes.length := rfl

/-- There is one more line than there are line feeds. -/
theorem count_ofBytes (bytes : List UInt8) : (ofBytes bytes).count = bytes.count 10 + 1 := by
  have key : ∀ offset, (startsAfter offset bytes).length = bytes.count 10 := by
    induction bytes with
    | nil => simp [startsAfter]
    | cons b bytes ih =>
      intro offset
      by_cases h : b = 10 <;> simp [startsAfter, h, ih]
  simp [count, key]

end Lines

end Schemata
