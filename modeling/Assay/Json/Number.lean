/-
Module: Assay.Json.Number
Purpose: What a written number means. Without point and exponent it is an integer, if it fits 64
  bits; otherwise it is a float, computed in one or two float operations from at most nineteen or
  twenty digits. The float is therefore the nearest one for short numbers and may be a neighbour of
  it for long ones. A number beyond the largest float has no value.
Main exports: Number, Numeral.value?
-/
import Assay.Json.Basic
import Assay.Text.Scan

namespace Assay

inductive Number where
  /-- An integer of 64 bits, signed if negative and unsigned otherwise. -/
  | int (value : Int)
  | float (value : Float)

namespace Numeral

/-- Extends a significand by digits as long as it stays below `2 ^ 64`; what no longer fits is
left. -/
def extend (significand : Nat) : List Char → Nat × List Char
  | [] => (significand, [])
  | c :: rest =>
    let next := significand * 10 + Text.digitValue c
    if next < UInt64.size then extend next rest else (significand, c :: rest)

/-- The power of ten as a float; exact up to the 22nd and the nearest float beyond. -/
def powerOfTen (n : Nat) : Float :=
  Float.ofScientific 1 false n

/-- A float times a power of ten, or nothing if that is beyond the largest float. Powers that no
float holds are divided out in steps. -/
def scale? (x : Float) (exponent : Int) : Option Float :=
  if exponent.natAbs ≤ 308 then
    if 0 ≤ exponent then
      let product := x * powerOfTen exponent.toNat
      if product.isInf then none else some product
    else some (x / powerOfTen exponent.natAbs)
  else if x == 0 then some x
  else if 0 ≤ exponent then none
  else scale? (x / powerOfTen 308) (exponent + 308)
termination_by exponent.natAbs
decreasing_by omega

/-- A significand below `2 ^ 64` times a power of ten as a float. -/
def float? (negative : Bool) (significand : Nat) (exponent : Int) : Option Number :=
  (scale? (UInt64.ofNat significand).toFloat exponent).map fun magnitude =>
    .float (if negative then -magnitude else magnitude)

/-- The largest exponent that is still computed with. -/
def maxExponent : Nat := 2147483647

/-- Applies the written exponent to a significand whose point stands `place` places to the right of
where it is written. -/
def withExponent? (negative : Bool) (significand : Nat) (place : Int) :
    Bool × List Char → Option Number
  | (_, []) => float? negative significand place
  | (down, digits) =>
    let written := Text.natOfDigits digits
    if maxExponent < written then
      if significand ≠ 0 ∧ ¬down then none
      else some (.float (if negative then -0.0 else 0.0))
    else float? negative significand (if down then place - written else place + written)

/-- The value of a number as written. Digits that no longer fit the significand count as places
before the point and are dropped behind it. -/
def value? (numeral : Numeral) : Option Number :=
  let (significand, tooMany) := extend 0 numeral.whole
  if tooMany = [] ∧ numeral.fraction = [] ∧ numeral.exponent.2 = [] then
    if ¬numeral.negative then some (.int significand)
    else if significand = 0 ∨ -(significand : Int) < Int64.minValue.toInt then
      some (.float (-(UInt64.ofNat significand).toFloat))
    else some (.int (-significand))
  else
    let (refined, dropped) := extend significand numeral.fraction
    let places := numeral.fraction.length - dropped.length
    withExponent? numeral.negative refined ((tooMany.length : Int) - places) numeral.exponent

end Numeral

end Assay
