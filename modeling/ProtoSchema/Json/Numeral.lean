/-!
Numbers in JSON text, as they are written and as they are understood. A numeral without fraction and
exponent is an integer if 64 bits hold it, and every other numeral is a floating point number.
-/

namespace ProtoSchema.Json

/-- A numeral as written: digits are listed as their values. -/
structure Numeral where
  negative : Bool := false
  whole : List Nat
  fraction : List Nat := []
  exponent : Option Int := none
  deriving DecidableEq, Repr

inductive Number where
  | integer (i : Int)
  | real (x : Float)

namespace Numeral

/-- Appends digits to a significand for as long as 64 bits hold it: the significand, and the number
of digits left out. -/
def gather (significand : Nat) : List Nat → Nat × Nat
  | [] => (significand, 0)
  | d :: ds =>
      if significand * 10 + d < UInt64.size then gather (significand * 10 + d) ds
      else (significand, ds.length + 1)

/-- The floating point number `significand · 10 ^ exponent`, found by one multiplication or by
divisions by at most `10 ^ 308` each. There is none beyond the largest finite number. `fuel` bounds
the number of divisions that leave something other than zero. -/
def scaled (fuel : Nat) (x : Float) (exponent : Int) : Option Float :=
  if exponent.natAbs ≤ 308 then
    let power := Float.ofScientific 1 false exponent.natAbs
    if exponent < 0 then some (x / power)
    else if (x * power).isInf then none else some (x * power)
  else
    match fuel with
    | 0 => some 0
    | fuel + 1 =>
        if x == 0 then some x
        else if exponent ≥ 0 then none
        else scaled fuel (x / Float.ofScientific 1 false 308) (exponent + 308)

/-- What the numeral stands for, unless that is too large. -/
def number? (n : Numeral) : Option Number :=
  let (w, dropped) := gather 0 n.whole
  -- A negative zero has no integer, and becomes a floating point number.
  let isSmall := dropped == 0 && (!n.negative || 0 < w && w ≤ UInt64.size / 2)
  if n.fraction.isEmpty && n.exponent.isNone && isSmall then
    some (.integer (if n.negative then -(w : Int) else w))
  else
    let (s, unread) := gather w n.fraction
    let shift : Int := (dropped : Int) - (n.fraction.length - unread : Nat)
    let x := scaled 4 (UInt64.ofNat s).toFloat (shift + n.exponent.getD 0)
    x.map fun x => .real (if n.negative then -x else x)

end Numeral

end ProtoSchema.Json
