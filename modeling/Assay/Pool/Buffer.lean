/-
Module: Assay.Pool.Buffer
Purpose: Arrays of a fixed capacity. Whoever fills a buffer keeps what still fits and drops the
  rest, so that the capacity, and not the number of items offered, bounds what is held.
Main exports: Buffer, Buffer.offer, Buffer.overflow, Buffer.Fits
-/

namespace Assay

/-- An array of a fixed capacity with the items it holds, first one first. -/
structure Buffer (α : Type) where
  items : List α
  /-- The number of items there is room for. -/
  capacity : Nat

namespace Buffer

variable {α : Type}

def withCapacity (capacity : Nat) : Buffer α :=
  ⟨[], capacity⟩

instance : Inhabited (Buffer α) := ⟨withCapacity 0⟩

def size (buffer : Buffer α) : Nat :=
  buffer.items.length

def room (buffer : Buffer α) : Nat :=
  buffer.capacity - buffer.size

/-- A buffer holds no more than it has room for. -/
def Fits (buffer : Buffer α) : Prop :=
  buffer.size ≤ buffer.capacity

/-- Appends the first of the offered items, as many as fit. -/
def offer (buffer : Buffer α) (offered : List α) : Buffer α :=
  { buffer with items := buffer.items ++ offered.take buffer.room }

def overflow (buffer : Buffer α) (offered : List α) : List α :=
  offered.drop buffer.room

def clear (buffer : Buffer α) : Buffer α :=
  { buffer with items := [] }

@[simp] theorem capacity_offer (buffer : Buffer α) (offered : List α) :
    (buffer.offer offered).capacity = buffer.capacity := rfl

@[simp] theorem items_clear (buffer : Buffer α) : buffer.clear.items = [] := rfl

@[simp] theorem capacity_clear (buffer : Buffer α) : buffer.clear.capacity = buffer.capacity := rfl

@[simp] theorem offer_nil (buffer : Buffer α) : buffer.offer [] = buffer := by
  simp [offer]

/-- Offering keeps a buffer within its capacity. -/
theorem Fits.offer {buffer : Buffer α} (fits : buffer.Fits) (offered : List α) :
    (buffer.offer offered).Fits := by
  simp only [Fits, size, Buffer.offer, room, List.length_append, List.length_take] at *
  omega

/-- What a buffer holds after an offer is the first `capacity` items of all that it was offered. -/
theorem items_offer {buffer : Buffer α} (fits : buffer.Fits) (offered : List α) :
    (buffer.offer offered).items = (buffer.items ++ offered).take buffer.capacity := by
  simp only [Fits, size] at fits
  simp only [offer, room, size, List.take_append, List.take_of_length_le fits]

/-- Offering in two steps is offering all at once. -/
theorem offer_append (buffer : Buffer α) (first second : List α) :
    buffer.offer (first ++ second) = (buffer.offer first).offer second := by
  have left : buffer.room - first.length = (buffer.offer first).room := by
    simp only [room, size, offer, List.length_append, List.length_take]
    omega
  rw [offer, List.take_append, left, ← List.append_assoc]
  rfl

end Buffer

end Assay
