/-
Module: Assay.Decimal.Layout
Purpose: How numbers are laid out once their digits are chosen. The three layouts this library
  writes differ in where positional writing ends, in whether a whole number shows a point, in the
  sign of the exponent and in the choice between two equally near decimals.
Main exports: Layout, Layout.plain, Layout.detailed, Layout.json, Layout.render
-/
import Assay.Decimal.Shortest

namespace Assay.Decimal

/-- The decisions of one number format. -/
structure Layout where
  /-- Whether a number whose leading digit stands at `10 ^ e` is written positionally. -/
  positional : Int → Bool
  /-- Whether a whole number is written with a point and a zero. -/
  pointZero : Bool
  exponentPlus : Bool
  /-- Which of two equally near decimals is taken. -/
  tie : Tie

namespace Layout

/-- Numbers in running text: always positional, whole numbers without a point. -/
def plain : Layout where
  positional _ := true
  pointZero := false
  exponentPlus := false
  tie := .up

/-- Numbers in descriptions of values: positional from a ten-thousandth to below `10 ^ 16`, and told
apart from integers by a point or an exponent. -/
def detailed : Layout where
  positional e := -4 ≤ e ∧ e < 16
  pointZero := true
  exponentPlus := false
  tie := .up

/-- Numbers in JSON: positional from a hundred-thousandth to below `10 ^ 16`. -/
def json : Layout where
  positional e := -5 ≤ e ∧ e < 16
  pointZero := true
  exponentPlus := true
  tie := .toEven

/-- So many zeros. -/
def zeros (n : Nat) : List Char :=
  List.replicate n '0'

/-- Writes digits positionally; the point stands `place` places behind the first digit. -/
def positionally (layout : Layout) (digits : List Char) (place : Int) : List Char :=
  if place ≤ 0 then ['0', '.'] ++ zeros (-place).toNat ++ digits
  else if digits.length ≤ place.toNat then
    digits ++ zeros (place.toNat - digits.length) ++ (if layout.pointZero then ['.', '0'] else [])
  else digits.take place.toNat ++ '.' :: digits.drop place.toNat

/-- Writes digits with the point behind the first one, and the exponent. -/
def scientifically (layout : Layout) (digits : List Char) (exponent : Int) : List Char :=
  let mantissa := digits.take 1 ++ (if digits.length ≤ 1 then [] else '.' :: digits.drop 1)
  let sign := if exponent < 0 then ['-'] else if layout.exponentPlus then ['+'] else []
  mantissa ++ 'e' :: sign ++ Nat.toDigits 10 exponent.natAbs

/-- Writes a magnitude; zero has no leading digit and is written as such. -/
def magnitude (layout : Layout) (x : Binary) : List Char :=
  if x.m = 0 then '0' :: (if layout.pointZero then ['.', '0'] else [])
  else
    let chosen := shortest x layout.tie
    let digits := Nat.toDigits 10 chosen.digits
    let exponent := chosen.exp + digits.length - 1
    if layout.positional exponent then layout.positionally digits (exponent + 1)
    else layout.scientifically digits exponent

/-- The text of a number: the sign, also of zero, and the magnitude. -/
def render (layout : Layout) (x : Float) : String :=
  if x.isNaN then "NaN"
  else
    let sign := if x.toBits >>> 63 = 1 then "-" else ""
    if x.isInf then sign ++ "inf"
    else sign ++ String.ofList (layout.magnitude (Binary.ofBits x.toBits))

end Layout

end Assay.Decimal
