/-!
# Cardinalities

A member may bound how many values it holds. `ArrayBounds` says how the size of an array is judged
by the bounds of its member.
-/

namespace Schemata

/-- The bounds of a member as written, and whether it holds an array of values. -/
structure Cardinality where
  lower : Option UInt64
  upper : Option UInt64
  isArray : Bool
  deriving DecidableEq, Repr, Inhabited

namespace Cardinality

/-- The greatest count, which stands for no bound. -/
def unbounded : UInt64 := UInt64.ofNat (UInt64.size - 1)

/-- The lower bound, zero if there is none. -/
def min (c : Cardinality) : UInt64 := c.lower.getD 0

/-- The upper bound, `unbounded` if there is none. -/
def max (c : Cardinality) : UInt64 := c.upper.getD unbounded

end Cardinality

/-- How the admitted sizes of an array follow from the bounds of its member. -/
inductive ArrayBounds where
  /-- The bounds are taken as written. -/
  | declared
  /-- A bound of zero counts as missing. Unless the member holds an array, a single bound stands for
  both. -/
  | exactWhenUnbound
  deriving DecidableEq, Repr, Inhabited

namespace ArrayBounds

/-- The least and the greatest admitted size. -/
def limits : ArrayBounds → Cardinality → UInt64 × UInt64
  | .declared, c => (c.min, c.max)
  | .exactWhenUnbound, c =>
    let lower := c.lower.filter (· != 0)
    let upper := c.upper.filter (· != 0)
    let (least, greatest) :=
      if c.isArray then (lower, upper) else (lower.or upper, upper.or lower)
    (least.getD 0, greatest.getD Cardinality.unbounded)

end ArrayBounds

end Schemata
