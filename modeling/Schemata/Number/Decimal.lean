/-!
# Decimals and the shortest decimal of an interval

`Decimal.text` writes a decimal positionally, never with an exponent. `Decimal.shortest?` finds, for
a value inside an interval, a decimal of the interval with the fewest digits, and of those the
nearest to the value: it runs through the grids of multiples of a power of ten, from the coarsest
down, and stops at the first grid with a point in the interval. If a grid has such a point then one
of the value's two neighbours on the grid is one, so only these two are tried.
-/

namespace Schemata

/-- The number `digits * 10 ^ exponent`. -/
structure Decimal where
  digits : Nat
  exponent : Int
  deriving DecidableEq, Repr

namespace Decimal

/-- The positional text: no exponent, no point in a whole number, a zero before a leading point. -/
def text (d : Decimal) : String :=
  let ds := Nat.toDigits 10 d.digits
  match d.exponent with
  | .ofNat n => String.ofList (ds ++ List.replicate n '0')
  | .negSucc n =>
    let places := n + 1
    if places < ds.length then
      String.ofList (ds.take (ds.length - places) ++ '.' :: ds.drop (ds.length - places))
    else
      String.ofList ('0' :: '.' :: List.replicate (places - ds.length) '0' ++ ds)

/-- An interval around a value, all three in units of `2 ^ exponent`. -/
structure Interval where
  low : Nat
  value : Nat
  high : Nat
  /-- Whether the two ends belong to the interval. -/
  closed : Bool
  exponent : Int

/-- The multiple of `10 ^ k` in the interval that is nearest to its value, the greater one of two
equally near. Both sides of each comparison are cleared of negative powers. -/
def Interval.gridPoint? (i : Interval) (k : Int) : Option Decimal :=
  let unit := Nat.pow 2 i.exponent.toNat * Nat.pow 10 (-k).toNat
  let step := Nat.pow 10 k.toNat * Nat.pow 2 (-i.exponent).toNat
  let inside (d : Nat) : Bool :=
    if i.closed then i.low * unit ≤ d * step && d * step ≤ i.high * unit
    else i.low * unit < d * step && d * step < i.high * unit
  let below := i.value * unit / step
  let gapBelow := i.value * unit - below * step
  let gapAbove := (below + 1) * step - i.value * unit
  match inside below, inside (below + 1) with
  | true, true => some ⟨if gapBelow < gapAbove then below else below + 1, k⟩
  | true, false => some ⟨below, k⟩
  | false, true => some ⟨below + 1, k⟩
  | false, false => none

/-- The point of the coarsest grid that meets the interval, among the grids from `10 ^ top` down to
`10 ^ (top - count + 1)`. -/
def shortest? (i : Interval) (top : Int) (count : Nat) : Option Decimal :=
  (List.range count).findSome? fun (n : Nat) ↦ i.gridPoint? (top - n)

end Decimal

end Schemata
