-- Decimal text of floating-point numbers: the fewest digits that read back, and the value
-- of a written decimal.
import WireSchema.Number.Binary

namespace WireSchema

namespace Decimal

/-- How many decimal digits a number has. Zero has one. -/
def digitCount (n : Nat) : Nat := (Nat.toDigits 10 n).length

/-- The exponent of the leading digit of the fraction `num / den`, which is positive. -/
def leading (num den : Nat) : Int :=
  let guess : Int := (digitCount num : Int) - (digitCount den : Int)
  let (n, d) := if guess ≥ 0 then (num, den * 10 ^ guess.toNat)
    else (num * 10 ^ (-guess).toNat, den)
  if n ≥ d then guess else guess - 1

/-- The decimals that read back as a number: its value and the ends of the interval, all over
one denominator, and whether the ends belong to it. -/
structure Interval where
  value : Nat
  low : Nat
  high : Nat
  den : Nat
  closed : Bool

/-- The fraction `num / den` lies in the interval. -/
def Interval.holds (i : Interval) (num den : Nat) : Bool :=
  let x := num * i.den
  if i.closed then i.low * den ≤ x && x ≤ i.high * den
  else i.low * den < x && x < i.high * den

/-- The interval of a finite number that is not zero. Below a power of two the numbers lie
twice as close. -/
def interval (x : Binary64) : Interval :=
  let (m, e) := x.parts
  let edge := m == 2 ^ (52 : Nat) && e > -1074
  let value := 4 * m
  let low := if edge then value - 1 else value - 2
  let power := e - 2
  let up : Nat := if power ≥ 0 then 2 ^ power.toNat else 1
  let den : Nat := if power ≥ 0 then 1 else 2 ^ (-power).toNat
  ⟨value * up, low * up, (value + 2) * up, den, m % 2 == 0⟩

/-- The decimal of `count` digits that reads back and lies nearest to the value, as a number
of units and the exponent of the unit. A tie goes to the even number. -/
def withDigits (i : Interval) (lead : Int) (count : Nat) : Option (Nat × Int) :=
  let unit : Int := lead - (count : Int) + 1
  let up : Nat := if unit ≥ 0 then 10 ^ unit.toNat else 1
  let down : Nat := if unit ≥ 0 then 1 else 10 ^ (-unit).toNat
  -- the value lies between `a` and `a + 1` units of `up / down`
  let num := i.value * down
  let den := i.den * up
  let a := num / den
  let below := i.holds (a * up) down
  let above := i.holds ((a + 1) * up) down
  if below && above then
    some (BinaryShape.roundDiv num den, unit)
  else if below then some (a, unit)
  else if above then some (a + 1, unit)
  else none

/-- Moves the zeros at the end of a number into the exponent. -/
def strip : Nat → Nat → Int → Nat × Int
  | 0, n, e => (n, e)
  | fuel + 1, n, e => if n != 0 && n % 10 == 0 then strip fuel (n / 10) (e + 1) else (n, e)

/-- The fewest digits that read back as the finite number `x`, which is not zero, and the
exponent of the last one. Seventeen digits always do. -/
def shortest (x : Binary64) : Nat × Int :=
  let i := interval x
  let lead := leading i.value i.den
  match (List.range 17).findSome? fun n => withDigits i lead (n + 1) with
  | some (n, e) => strip 20 n e
  | none => (0, 0)

/-- Exponents of the leading digit that are written out without an exponent. -/
def plainFrom : Int := -5

/-- The first exponent past `plainFrom` that is not written out. -/
def plainUntil : Int := 16

/-- Digits and the exponent of the first one as text: positional with a point where the
exponent allows, else with an exponent and its sign. -/
def layOut (digits : List Char) (lead : Int) : String :=
  if plainFrom ≤ lead && lead < plainUntil then
    if lead < 0 then
      "0." ++ String.ofList (List.replicate (-lead - 1).toNat '0' ++ digits)
    else
      let whole := lead.toNat + 1
      let front := digits.take whole ++ List.replicate (whole - digits.length) '0'
      let back := digits.drop whole
      String.ofList front ++ "." ++ (if back.isEmpty then "0" else String.ofList back)
  else
    let mark := if lead < 0 then "e-" else "e+"
    let power := mark ++ toString lead.natAbs
    match digits with
    | [] => "0" ++ power
    | [d] => d.toString ++ power
    | d :: rest => d.toString ++ "." ++ String.ofList rest ++ power

/-- The text of a finite number. -/
def text (x : Binary64) : String :=
  let sign := if x.isNegative then "-" else ""
  if x.magnitude == 0 then sign ++ "0.0"
  else
    let (n, e) := shortest x
    let digits := Nat.toDigits 10 n
    sign ++ layOut digits (e + (digits.length : Int) - 1)

/-- The number nearest to `digits * 10 ^ exponent`, or `none` when it is too large. -/
def value? (negative : Bool) (digits : Nat) (exponent : Int) : Option Binary64 :=
  let lead := exponent + (digitCount digits : Int)
  if digits == 0 || lead < -400 then some (Binary64.ofParts negative 0)
  else if lead > 400 then none
  else
    let x := if exponent ≥ 0 then Binary64.ofFraction negative (digits * 10 ^ exponent.toNat) 1
      else Binary64.ofFraction negative digits (10 ^ (-exponent).toNat)
    if x.isFinite then some x else none

end Decimal

end WireSchema
