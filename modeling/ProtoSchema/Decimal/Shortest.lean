/-!
The shortest decimal that reads back as a given floating point number. A finite positive number is
`m · 2 ^ q`; the reals that round to it form an interval around it, and the coarsest decimal grid
with a point in that interval is the one that is written.
-/

namespace ProtoSchema.Decimal

/-- The interval of the reals that round to a number, and the number itself, as numerators over one
denominator. -/
structure Rounding where
  low : Nat
  value : Nat
  high : Nat
  denominator : Nat
  closed : Bool

/-- The interval around `m · 2 ^ q`. Below a power of two the neighbour is half as far away. -/
def Rounding.of (m : Nat) (q : Int) (half : Bool) : Rounding :=
  -- The ends of the interval are half and quarter steps away, hence the factor four.
  let scale := Nat.pow 2 (q - 2).toNat
  { low := (4 * m - if half then 1 else 2) * scale
    value := 4 * m * scale
    high := (4 * m + 2) * scale
    denominator := Nat.pow 2 (2 - q).toNat
    closed := m % 2 == 0 }

def Rounding.holds (r : Rounding) (k : Nat) (e : Int) : Bool :=
  let x := k * Nat.pow 10 e.toNat * r.denominator
  let y := Nat.pow 10 (-e).toNat
  if r.closed then r.low * y ≤ x && x ≤ r.high * y else r.low * y < x && x < r.high * y

/-- The point of the grid of step `10 ^ e` that lies in the interval, the nearer one of two. -/
def Rounding.pointOn? (r : Rounding) (e : Int) : Option Nat :=
  let step := Nat.pow 10 e.toNat * r.denominator
  let y := Nat.pow 10 (-e).toNat
  let k := r.value * y / step
  match r.holds k e, r.holds (k + 1) e with
  | true, true =>
      let below := r.value * y - k * step
      let above := (k + 1) * step - r.value * y
      some (if below < above || below == above && k % 2 == 0 then k else k + 1)
  | true, false => some k
  | false, true => some (k + 1)
  | false, false => none

/-- Tries ever finer grids, beginning with that of step `10 ^ e`: the digits and their exponent. -/
def Rounding.search (r : Rounding) (e : Int) : Nat → Nat × Int
  | 0 => (0, 0)
  | fuel + 1 =>
      match r.pointOn? e with
      | some k => (k, e)
      | none => r.search (e - 1) fuel

/-- The bit that the mantissa of a normal number has in front of those it stores. -/
def hiddenBit : Nat := Nat.pow 2 52

/-- The decimal digits `k` and the exponent `e` of a finite positive number. No grid is coarser than
`10 ^ 309` or finer than `10 ^ -325`. -/
def shortest (x : Float) : Nat × Int :=
  let bits := x.toBits.toNat
  let exponent : Nat := bits / hiddenBit % 2048
  let mantissa := bits % hiddenBit
  let r :=
    -- A subnormal number has no hidden bit, and the scale of the least normal ones.
    if exponent = 0 then Rounding.of mantissa (-1074) false
    else
      Rounding.of (hiddenBit + mantissa) ((exponent : Int) - 1075) (mantissa == 0 && 1 < exponent)
  r.search 309 640

/-- Writes `k · 10 ^ e`. The point stands among the digits, or up to four zeros before or up to
fifteen behind them; otherwise one digit stands before the point and a signed exponent follows. -/
def digitsText (k : Nat) (e : Int) : String :=
  let digits := (toString k).toList
  let before := digits.length + e
  if 0 ≤ e ∧ before ≤ 16 then
    String.ofList (digits ++ List.replicate e.toNat '0' ++ ['.', '0'])
  else if 0 < before ∧ before ≤ 16 then
    String.ofList (digits.take before.toNat ++ '.' :: digits.drop before.toNat)
  else if -5 < before ∧ before ≤ 0 then
    String.ofList ('0' :: '.' :: List.replicate (-before).toNat '0' ++ digits)
  else
    let fraction := digits.drop 1
    String.ofList (digits.take 1 ++ (if fraction.isEmpty then [] else '.' :: fraction)) ++
      (if 0 < before then "e+" else "e") ++ toString (before - 1)

def text (x : Float) : String :=
  if x == 0 then if x.toBits = 0 then "0.0" else "-0.0"
  else
    let (k, e) := shortest x
    if x < 0 then "-" ++ digitsText k e else digitsText k e

end ProtoSchema.Decimal
