import Libasock.ByteBlocks
import Libasock.ReturnCodes

/-!
The growing array of `asock_vector.c`, byte for byte: `AsockVector.push` is
`asock_vector_push` and so on. As for the queue, sizes are `size_t` with its
wrap, every access checks the bounds of its block, the allocator's answer is an
argument, and `NULL` in `m_data` is the block without bytes.
-/

namespace Libasock.VectorModel
open ByteBlocks ReturnCodes

structure AsockVector where
  mSize : Nat
  mData : List Byte
  mCapacity : Nat
  mItemSize : Nat
  deriving DecidableEq, Repr

/-- `ASOCK_INVALID_VEC_INDEX` -/
def invalidVecIndex : Nat := sizeBound - 1

/-- What the two allocations of `asock_vector_create` answer. -/
structure CreateAnswers where
  structAlloc : Bool
  dataAlloc : Allocation

def AsockVector.create (answers : CreateAnswers) (itemSize capacity : Nat) : Option AsockVector :=
  if answers.structAlloc = false then none
  else
    let initSize := max (mulSize itemSize capacity) 1
    (malloc answers.dataAlloc initSize).map fun data =>
      { mSize := 0, mData := data, mCapacity := capacity, mItemSize := itemSize }

def AsockVector.size (vector : AsockVector) : Nat := vector.mSize

def AsockVector.capacity (vector : AsockVector) : Nat := vector.mCapacity

/-- The result of `realloc` goes to `m_data` before it is tested. -/
def AsockVector.reallocate (vector : AsockVector) (newCapacity : Nat) (answer : Allocation) :
    Outcome (Int × AsockVector) :=
  if vector.mCapacity < newCapacity then
    let newSize := mulSize newCapacity vector.mItemSize
    let data := (realloc answer vector.mData newSize).getD []
    .ok (if data = [] then -1 else 0, { vector with mData := data })
  else .error .assertion

def AsockVector.grow (vector : AsockVector) (answer : Allocation) :
    Outcome (AsockReturnCode × AsockVector) := do
  let reallocated ← vector.reallocate (mulSize vector.mCapacity 2) answer
  if reallocated.1 = -1 then return (asockFailure, reallocated.2)
  else return (asockSuccess,
    { reallocated.2 with mCapacity := mulSize reallocated.2.mCapacity 2 })

def AsockVector.copyIn (vector : AsockVector) (item : List Byte) : Outcome AsockVector := do
  let data ← memcpy vector.mData (mulSize vector.mSize vector.mItemSize) item 0 vector.mItemSize
  return { vector with mData := data, mSize := addSize vector.mSize 1 }

def AsockVector.push (vector : AsockVector) (item : List Byte) (answer : Allocation) :
    Outcome (AsockReturnCode × AsockVector) := do
  let grown ←
    if vector.mSize = vector.mCapacity then vector.grow answer else pure (asockSuccess, vector)
  if grown.1 = asockSuccess then
    let vector ← grown.2.copyIn item
    return (asockSuccess, vector)
  else return grown

def AsockVector.erase (vector : AsockVector) (index : Nat) :
    Outcome (AsockReturnCode × AsockVector) :=
  if vector.mSize = 0 ∨ vector.mSize ≤ index then .ok (asockFailure, vector)
  else do
    let data ← memmoveWithin vector.mData (mulSize vector.mItemSize index)
      (mulSize vector.mItemSize (addSize index 1))
      (mulSize (subSize (subSize vector.mSize 1) index) vector.mItemSize)
    return (asockSuccess, { vector with mData := data, mSize := subSize vector.mSize 1 })

def AsockVector.clear (vector : AsockVector) : AsockVector := { vector with mSize := 0 }

/-- The address that many bytes behind the start of a block; `none` is `NULL`. -/
def address (block : List Byte) (offset : Nat) : Option Nat :=
  if block = [] ∧ offset = 0 then none else some offset

/-- `asock_vector_at` -/
def AsockVector.atIndex (vector : AsockVector) (index : Nat) : Option Nat :=
  if vector.mSize ≤ index then none
  else address vector.mData (mulSize index vector.mItemSize)

/-- The item the pointer `asock_vector_at` returns leads to. -/
def AsockVector.itemAt (vector : AsockVector) (index : Nat) : Outcome (Option (List Byte)) :=
  match vector.atIndex index with
  | none => .ok none
  | some pos => (load vector.mData pos vector.mItemSize).map some

/-- The loop of `asock_vector_index_of`, with `left` items still to be compared. -/
def AsockVector.indexOfFrom (vector : AsockVector) (item : List Byte) : Nat → Nat → Outcome Nat
  | 0, _ => .ok invalidVecIndex
  | left + 1, index => do
      let here ← load vector.mData (mulSize index vector.mItemSize) vector.mItemSize
      let wanted ← load item 0 vector.mItemSize
      if here = wanted then return index else vector.indexOfFrom item left (index + 1)

def AsockVector.indexOf (vector : AsockVector) (item : List Byte) : Outcome Nat :=
  vector.indexOfFrom item vector.mSize 0

end Libasock.VectorModel
