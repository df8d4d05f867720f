/-
Module: Assay.Pool.Objects
Purpose: A pool of like objects. Idle objects are handed out in the order in which they came back;
  when none is idle a new one is made. An object that is given back is kept, reset, if it may be
  used again and the pool has room for it.
Main exports: Poolable, PoolConfig, ObjectPool, ObjectPool.rent, ObjectPool.giveBack
-/
import Assay.Pool.Buffer
import Assay.Pool.Statistics
import Assay.Text.Quoted

namespace Assay

/-- Objects that can be kept for later use. -/
class Poolable (α : Type) where
  /-- The object as it is handed out again. -/
  reset : α → α
  /-- Whether the object is worth keeping. -/
  isReusable : α → Bool
  /-- The bytes that the object takes. -/
  footprint : α → Nat

structure PoolConfig where
  /-- How many idle objects are kept. -/
  maxRetained : Nat := 8
  /-- Whether the pool starts full. -/
  preWarm : Bool := false
deriving DecidableEq, Repr, Inhabited

structure ObjectPool (α : Type) where
  /-- The idle objects, oldest first. -/
  idle : List α
  /-- How many idle objects are kept. -/
  maxRetained : Nat
  /-- What the factory makes, counted from zero. -/
  fresh : Nat → α
  /-- How many objects the factory has made. -/
  made : Nat
  statistics : Statistics := {}

namespace ObjectPool

variable {α : Type}

/-- A pool that makes its objects with `fresh`, the first one with `fresh 0`. -/
def ofConfig (config : PoolConfig) (fresh : Nat → α) : ObjectPool α :=
  let warm := if config.preWarm then config.maxRetained else 0
  { idle := (List.range warm).map fresh
    maxRetained := config.maxRetained
    fresh := fresh
    made := warm }

def available (pool : ObjectPool α) : Nat :=
  pool.idle.length

def rent (pool : ObjectPool α) : α × ObjectPool α :=
  match pool.idle with
  | object :: idle => (object, { pool with idle, statistics := pool.statistics.rent true })
  | [] =>
    (pool.fresh pool.made,
      { pool with made := pool.made + 1, statistics := pool.statistics.rent false })

/-- Whether the pool keeps an object that is given back. -/
def keeps [Poolable α] (pool : ObjectPool α) (object : α) : Bool :=
  Poolable.isReusable object && pool.idle.length < pool.maxRetained

/-- Takes an object back; what the pool does not keep is dropped. -/
def giveBack [Poolable α] (pool : ObjectPool α) (object : α) : ObjectPool α :=
  let kept := pool.keeps object
  { pool with
    idle := if kept then pool.idle ++ [Poolable.reset object] else pool.idle
    statistics := pool.statistics.giveBack kept }

def describe (pool : ObjectPool α) : String :=
  Text.record "SharedPool" [
    ("available", toString pool.available),
    ("capacity", toString pool.maxRetained),
    ("factory", Text.quoted "<function>")]

/-- Drops all idle objects. -/
def clear (pool : ObjectPool α) : ObjectPool α :=
  { pool with idle := [] }

end ObjectPool

/-! ### Poolable types -/

/-- The bytes that the header of a growable array takes. -/
def headerSize : Nat := 24

/-- A growable text: its characters and the bytes it has room for. -/
structure TextBuffer where
  text : String
  /-- The bytes there is room for. -/
  capacity : Nat
deriving DecidableEq, Inhabited

/-- Texts are emptied, and kept below a million bytes of room. -/
instance : Poolable TextBuffer where
  reset buffer := { buffer with text := "" }
  isReusable buffer := buffer.capacity < 1000000
  footprint buffer := headerSize + buffer.capacity

/-- Items of a known size in bytes. -/
class ItemSize (α : Type) where
  /-- The bytes that one item takes. -/
  bytes : Nat

instance : ItemSize UInt32 := ⟨4⟩

/-- Buffers are emptied, and kept below a hundred thousand items of room. -/
instance {α : Type} [ItemSize α] : Poolable (Buffer α) where
  reset buffer := buffer.clear
  isReusable buffer := buffer.capacity < 100000
  footprint buffer := headerSize + buffer.capacity * ItemSize.bytes α

/-- An object behind a reference, which is pooled as the object itself. -/
structure Boxed (α : Type) where
  content : α

instance {α : Type} [Poolable α] : Poolable (Boxed α) where
  reset boxed := ⟨Poolable.reset boxed.content⟩
  isReusable boxed := Poolable.isReusable boxed.content
  footprint boxed := Poolable.footprint boxed.content

end Assay
