/-!
# Ranges and positions in a source text

Offsets and columns count bytes of the UTF-8 encoding. Lines and columns count from zero and are
shown to a reader from one.
-/

namespace Schemata

/-- The bytes from `start` up to, not including, `stop`. -/
structure Range where
  start : Nat
  stop : Nat
  deriving DecidableEq, Repr, Inhabited

/-- The empty range at the start of a text. -/
def Range.empty : Range := ⟨0, 0⟩

/-- A line and a column within it, both from zero. -/
structure Position where
  line : Nat
  column : Nat
  deriving DecidableEq, Repr, Inhabited

namespace Position

/-- The order of a text: by line, then by column. -/
def before (p q : Position) : Prop := p.line < q.line ∨ (p.line = q.line ∧ p.column < q.column)

/-- The position as shown to a reader. Both counts have thirty-two bits and wrap. -/
def text (p : Position) : String :=
  let shown (n : Nat) := toString ((n + 1) % UInt32.size)
  shown p.line ++ ":" ++ shown p.column

end Position

/-- A range by its positions. -/
structure PositionRange where
  start : Position
  stop : Position
  deriving DecidableEq, Repr

end Schemata
