/-
Module: Assay.Pool.Statistics
Purpose: What a pool counts: how many objects were rented, how many of these were idle ones and how
  many newly made, and how many objects given back were kept and how many turned away.
Main exports: Statistics, Statistics.rent, Statistics.giveBack, Statistics.hitRate
-/

namespace Assay

structure Statistics where
  rented : Nat := 0
  /-- Objects handed out that had been idle. -/
  hits : Nat := 0
  /-- Objects handed out that were newly made. -/
  created : Nat := 0
  /-- Objects given back and kept. -/
  returned : Nat := 0
  /-- Objects given back and turned away. -/
  declined : Nat := 0
deriving DecidableEq, Repr, Inhabited

namespace Statistics

/-- Counts a renting; `hit` tells whether the object had been idle. -/
def rent (counts : Statistics) (hit : Bool) : Statistics :=
  { counts with
    rented := counts.rented + 1
    hits := counts.hits + (if hit then 1 else 0)
    created := counts.created + (if hit then 0 else 1) }

/-- Counts an object given back; `kept` tells whether it stays. -/
def giveBack (counts : Statistics) (kept : Bool) : Statistics :=
  { counts with
    returned := counts.returned + (if kept then 1 else 0)
    declined := counts.declined + (if kept then 0 else 1) }

/-- The share of rentings that were served by an idle object; zero before the first one. -/
def hitRate (counts : Statistics) : Float :=
  if counts.rented = 0 then 0.0
  else (UInt64.ofNat counts.hits).toFloat / (UInt64.ofNat counts.rented).toFloat

end Statistics

end Assay
