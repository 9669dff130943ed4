import Schemata.Number.Binary64

/-!
# Numerals of JSON

A numeral is kept by its digits. `overflows` says when its value is out of the range of binary64;
the rule keeps as many leading digits as fit sixty-four bits and moves the exponent for the rest, so
it decides the same numerals for every spelling of the digits beyond.
-/

namespace Schemata.Json

/-- The parts of a numeral, digits in reading order. -/
structure Number where
  negative : Bool
  whole : List Nat
  /-- Empty when there is no point. -/
  fraction : List Nat
  /-- The sign, true if negative, and the digits. -/
  exponent : Option (Bool × List Nat)
  deriving DecidableEq, Repr

namespace Number

/-- The value of a decimal digit. -/
def digit? (c : Char) : Option Nat :=
  if c.isDigit then some (c.toNat - '0'.toNat) else none

/-- The longest run of leading digits, and what follows it. -/
def takeDigits : List Char → List Nat × List Char
  | [] => ([], [])
  | c :: cs =>
    match digit? c with
    | some d => let (ds, rest) := takeDigits cs; (d :: ds, rest)
    | none => ([], c :: cs)

/-- A zero stands alone; any other whole part starts with another digit. -/
def isWholePart : List Nat → Bool
  | [] => false
  | [_] => true
  | d :: _ => d != 0

/-- The exponent part, or nothing; then the text must end. -/
def exponentPart? : List Char → Option (Option (Bool × List Nat))
  | [] => some none
  | c :: cs =>
    if c == 'e' || c == 'E' then
      let (negative, cs) := match cs with
        | '-' :: cs => (true, cs)
        | '+' :: cs => (false, cs)
        | cs => (false, cs)
      match takeDigits cs with
      | ([], _) => none
      | (ds, []) => some (some (negative, ds))
      | (_, _ :: _) => none
    else none

/-- The numeral spelled by a sequence of characters. -/
def ofChars? (cs : List Char) : Option Number := do
  let (negative, cs) := match cs with
    | '-' :: cs => (true, cs)
    | cs => (false, cs)
  let (whole, cs) := takeDigits cs
  if !isWholePart whole then none
  else match cs with
    | '.' :: cs =>
      match takeDigits cs with
      | ([], _) => none
      | (fraction, cs) => return ⟨negative, whole, fraction, ← exponentPart? cs⟩
    | cs => return ⟨negative, whole, [], ← exponentPart? cs⟩

/-- The value of a sequence of digits. -/
def ofDigits (ds : List Nat) : Nat := ds.foldl (fun n d ↦ 10 * n + d) 0

/-- A significand of at most sixty-four bits and the power of ten that belongs to it. -/
structure Scaled where
  significand : Nat
  exponent : Int
  /-- Whether a digit has been left out of the significand. -/
  full : Bool

/-- Takes a digit before the point: once the significand is full, each further digit only counts. -/
def Scaled.pushWhole (s : Scaled) (d : Nat) : Scaled :=
  if s.full || UInt64.size ≤ 10 * s.significand + d then
    { s with exponent := s.exponent + 1, full := true }
  else { s with significand := 10 * s.significand + d }

/-- Takes a digit after the point: once the significand is full, further digits are dropped. -/
def Scaled.pushFraction (s : Scaled) (d : Nat) : Scaled :=
  if s.full || UInt64.size ≤ 10 * s.significand + d then { s with full := true }
  else { s with significand := 10 * s.significand + d, exponent := s.exponent - 1 }

/-- The digits of a numeral without its exponent part. The fraction fills the significand afresh. -/
def mantissa (n : Number) : Scaled :=
  let whole := n.whole.foldl Scaled.pushWhole ⟨0, 0, false⟩
  n.fraction.foldl Scaled.pushFraction { whole with full := false }

/-- Whether the product of the significand and the power of ten, each rounded to a binary64 and
multiplied as such, is infinite. No power beyond `10 ^ 308` is tried: it is out of range unless the
significand is zero. -/
def Scaled.overflows (s : Scaled) : Bool :=
  s.significand != 0 &&
    (308 < s.exponent ||
      (0 ≤ s.exponent &&
        Binary64.overflows (Binary64.roundSignificand s.significand *
          Binary64.roundSignificand (Nat.pow 10 s.exponent.toNat))))

/-- Whether the value of the numeral is out of range. An exponent of more than thirty-one bits
overflows if it is positive and vanishes if it is negative. -/
def overflows (n : Number) : Bool :=
  let m := n.mantissa
  match n.exponent with
  | none => m.overflows
  | some (negative, ds) =>
    let e := ofDigits ds
    if Nat.pow 2 31 ≤ e then !negative && m.significand != 0
    else Scaled.overflows { m with exponent := m.exponent + (if negative then -(e : Int) else e) }

end Number

end Schemata.Json
