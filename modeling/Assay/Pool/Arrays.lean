/-
Module: Assay.Pool.Arrays
Purpose: A pool of buffers in size classes. A class holds buffers of one capacity, a power of two,
  and hands them out in the order in which they came back. A request is served from the smallest
  class that is large enough; one beyond all classes gets a buffer of exactly its size, which no
  class takes back.
Main exports: ArrayPoolConfig, ArrayPool, ArrayPool.rent, ArrayPool.giveBack, ceilLog2
-/
import Assay.Pool.Buffer
import Assay.Pool.Statistics
import Assay.Text.Quoted

namespace Assay

/-- The exponent of the least power of two that is at least `n`. -/
def ceilLog2 (n : Nat) : Nat :=
  if n ≤ 1 then 0 else (n - 1).log2 + 1

theorem le_shiftLeft_ceilLog2 (n : Nat) : n ≤ 1 <<< ceilLog2 n := by
  rw [Nat.one_shiftLeft]
  unfold ceilLog2
  split
  · simpa using ‹n ≤ 1›
  · have := Nat.lt_log2_self (n := n - 1)
    omega

/-- No smaller power of two is large enough. -/
theorem ceilLog2_le_of_le_shiftLeft {n k : Nat} (enough : n ≤ 1 <<< k) : ceilLog2 n ≤ k := by
  rw [Nat.one_shiftLeft] at enough
  unfold ceilLog2
  split
  · exact Nat.zero_le _
  · exact Nat.succ_le_of_lt ((Nat.log2_lt (by omega)).2 (by omega))

structure ArrayPoolConfig where
  /-- The capacity of the smallest class, rounded up to a power of two. -/
  minLength : Nat := 16
  /-- The capacity of the largest class, rounded up to a power of two. -/
  maxLength : Nat := 1 <<< 20
  /-- How many idle buffers a class keeps; at least one. -/
  perClass : Nat := 32
deriving DecidableEq, Repr, Inhabited

structure ArrayPool (α : Type) where
  /-- The exponent of the smallest class. -/
  minShift : Nat
  /-- How many idle buffers a class keeps. -/
  perClass : Nat
  /-- The idle buffers of each class, smallest class first, oldest buffer first. -/
  classes : List (List (Buffer α))
  statistics : Statistics := {}

namespace ArrayPool

variable {α : Type}

/-- A pool with all its classes empty. -/
def ofConfig (config : ArrayPoolConfig) : ArrayPool α :=
  let least := ceilLog2 (max config.minLength 1)
  let greatest := ceilLog2 (max config.maxLength (1 <<< least))
  { minShift := least
    perClass := max config.perClass 1
    classes := List.replicate (greatest - least + 1) [] }

def minLength (pool : ArrayPool α) : Nat :=
  1 <<< pool.minShift

/-- The capacity of the buffers of a class. -/
def classLength (pool : ArrayPool α) (index : Nat) : Nat :=
  1 <<< (pool.minShift + index)

/-- The smallest class whose buffers hold `n` items, if there is one. -/
def classForRequest? (pool : ArrayPool α) (n : Nat) : Option Nat :=
  let index := max (ceilLog2 n) pool.minShift - pool.minShift
  if index < pool.classes.length then some index else none

/-- The class of the buffers of that capacity, if there is one. -/
def classForReturn? (pool : ArrayPool α) (capacity : Nat) : Option Nat :=
  let index := capacity.log2 - pool.minShift
  if capacity = pool.classLength index ∧ index < pool.classes.length then some index else none

/-- Rents an empty buffer that holds at least `n` items. -/
def rent (pool : ArrayPool α) (n : Nat) : Buffer α × ArrayPool α :=
  match pool.classForRequest? n with
  | none => (.withCapacity n, { pool with statistics := pool.statistics.rent false })
  | some index =>
    match pool.classes[index]? with
    | some (buffer :: idle) =>
      (buffer,
        { pool with
          classes := pool.classes.set index idle
          statistics := pool.statistics.rent true })
    | _ =>
      (.withCapacity (pool.classLength index),
        { pool with statistics := pool.statistics.rent false })

/-- Takes a buffer back, emptied, or turns it away if its class is full or if it has none. -/
def giveBack (pool : ArrayPool α) (buffer : Buffer α) : ArrayPool α :=
  match pool.classForReturn? buffer.capacity with
  | none => { pool with statistics := pool.statistics.giveBack false }
  | some index =>
    let idle := pool.classes[index]?.getD []
    if idle.length < pool.perClass then
      { pool with
        classes := pool.classes.set index (idle ++ [buffer.clear])
        statistics := pool.statistics.giveBack true }
    else { pool with statistics := pool.statistics.giveBack false }

def describe (pool : ArrayPool α) : String :=
  Text.record "BucketArrayPool" [
    ("classes", toString pool.classes.length), ("min_shift", toString pool.minShift)]

def idleCount (pool : ArrayPool α) : Nat :=
  pool.classes.foldr (fun idle count => idle.length + count) 0

end ArrayPool

end Assay
