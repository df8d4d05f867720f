/-
Module: Assay.Decimal.Shortest
Purpose: The shortest decimal that names a binary64 value. A decimal names a value when it lies in
  the interval of reals that round to it; among the decimals with the fewest digits in that interval
  the one nearest to the value is taken. All comparisons are exact, on naturals.
Main exports: Binary, Binary.ofBits, Binary.names, Tie, Digits, shortest
-/

namespace Assay.Decimal

/-- The magnitude of a finite binary64 value, `m * 2 ^ q`. -/
structure Binary where
  /-- The significand. -/
  m : Nat
  q : Int
  /-- Whether the gap to the value below is half the gap to the value above. -/
  narrowBelow : Bool
deriving DecidableEq, Repr

/-- The magnitude that the bits of a finite value stand for. -/
def Binary.ofBits (bits : UInt64) : Binary :=
  let exponent := ((bits >>> 52) &&& 0x7FF).toNat
  let fraction := (bits &&& 0xFFFFFFFFFFFFF).toNat
  if exponent = 0 then ⟨fraction, -1074, false⟩
  else ⟨0x10000000000000 + fraction, (exponent : Int) - 1075, fraction = 0 ∧ exponent > 1⟩

/-- The numerator of `m * 2 ^ q` over powers of ten: `m * 2 ^ q / 10 ^ e` is `scaledNum /
scaledDen`. -/
def Binary.scaledNum (x : Binary) (e : Int) : Nat :=
  x.m * Nat.pow 2 x.q.toNat * Nat.pow 10 (-e).toNat

/-- The denominator that goes with `scaledNum`. -/
def Binary.scaledDen (x : Binary) (e : Int) : Nat :=
  Nat.pow 2 (-x.q).toNat * Nat.pow 10 e.toNat

/-- Whether `digits * 10 ^ e` lies among the reals that round to `x`, ends included exactly when
the significand is even. Both ends of the interval are a quarter of a step away from `m`, or half a
one. -/
def Binary.names (x : Binary) (digits : Nat) (e : Int) : Bool :=
  let lower := if x.narrowBelow then 4 * x.m - 1 else 4 * x.m - 2
  let upper := 4 * x.m + 2
  let scale := x.q - 2
  let side := digits * Nat.pow 10 e.toNat * Nat.pow 2 (-scale).toNat
  let below := lower * Nat.pow 2 scale.toNat * Nat.pow 10 (-e).toNat
  let above := upper * Nat.pow 2 scale.toNat * Nat.pow 10 (-e).toNat
  if x.m % 2 = 0 then below ≤ side ∧ side ≤ above else below < side ∧ side < above

/-- What to take of two neighbouring decimals that are equally near. -/
inductive Tie where
  /-- The one with the even last digit. -/
  | toEven
  | up
deriving DecidableEq, Repr

/-- The value `digits * 10 ^ exp`. -/
structure Digits where
  digits : Nat
  /-- The power of ten of the last digit. -/
  exp : Int
deriving DecidableEq, Repr

/-- The least `k` with `x < 10 ^ k`, for a positive `x`. No magnitude needs more than 400 places
behind the point to show its first digit. -/
def Binary.scale (x : Binary) : Int :=
  ((Nat.toDigits 10 (x.scaledNum (-400) / x.scaledDen (-400))).length : Int) - 400

/-- The nearest decimal with last digit at `10 ^ e` that names `x`, if one does. -/
def Binary.onGrid? (x : Binary) (tie : Tie) (e : Int) : Option Digits :=
  let num := x.scaledNum e
  let den := x.scaledDen e
  let low := num / den
  match x.names low e, x.names (low + 1) e with
  | false, false => none
  | true, false => some ⟨low, e⟩
  | false, true => some ⟨low + 1, e⟩
  | true, true =>
    match compare (2 * num) ((2 * low + 1) * den), tie with
    | .lt, _ => some ⟨low, e⟩
    | .gt, _ => some ⟨low + 1, e⟩
    | .eq, .up => some ⟨low + 1, e⟩
    | .eq, .toEven => some ⟨if low % 2 = 0 then low else low + 1, e⟩

/-- Moves the zeros at the end of the digits into the exponent, at most `bound` of them. -/
def Digits.strip : (bound : Nat) → Digits → Digits
  | 0, d => d
  | bound + 1, d =>
    if d.digits ≠ 0 ∧ d.digits % 10 = 0 then strip bound ⟨d.digits / 10, d.exp + 1⟩ else d

/-- The shortest decimal that names a positive magnitude, nearest to it among those of its length.
Seventeen digits name every value; should none do, the exact value is written. -/
def shortest (x : Binary) (tie : Tie) : Digits :=
  let k := x.scale
  let found := (List.range 17).findSome? fun (n : Nat) => x.onGrid? tie (k - ((n : Int) + 1))
  let exact : Digits :=
    if x.q < 0 then ⟨x.m * Nat.pow 5 (-x.q).toNat, x.q⟩
    else ⟨x.m * Nat.pow 2 x.q.toNat, 0⟩
  (found.getD exact).strip 400

end Assay.Decimal
