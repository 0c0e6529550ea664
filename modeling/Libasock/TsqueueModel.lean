import Libasock.ByteBlocks
import Libasock.ReturnCodes

/-!
The ring buffer of `asock_tsqueue.c`, byte for byte: `Tsqueue.enqueue` is
`asock_tsqueue_enqueue` and so on, each call being one critical section of
`m_mutex`. Sizes are `size_t` with its wrap, copies check the bounds of their
blocks, and the allocator's answer is an argument. `m_data` is the block it
points to, so `NULL` is the block without bytes.
-/

namespace Libasock.TsqueueModel
open ByteBlocks ReturnCodes

structure Tsqueue where
  mData : List Byte
  mSize : Nat
  mCapacity : Nat
  mItemSize : Nat
  mTailPos : Nat
  mHeadPos : Nat
  deriving DecidableEq, Repr

/-- What the three calls of `asock_tsqueue_create` that can fail answer. -/
structure CreateAnswers where
  structAlloc : Bool
  mutexInit : Bool
  dataAlloc : Allocation

def Tsqueue.create (answers : CreateAnswers) (itemSize capacity : Nat) :
    Outcome (Option Tsqueue) := do
  let rightCapacity ← doubleUntil doublingFuel 1 capacity
  if answers.structAlloc = false then return none
  if answers.mutexInit = false then return none
  let initSize := max (mulSize itemSize rightCapacity) 1
  match malloc answers.dataAlloc initSize with
  | none => return none
  | some data =>
      return some
        { mData := data, mSize := 0, mCapacity := rightCapacity, mItemSize := itemSize
          mTailPos := 0, mHeadPos := 0 }

def Tsqueue.size (queue : Tsqueue) : Nat := queue.mSize

def Tsqueue.capacity (queue : Tsqueue) : Nat := queue.mCapacity

def Tsqueue.headSize (queue : Tsqueue) : Nat :=
  min queue.mSize (subSize queue.mCapacity queue.mHeadPos)

/-- The position in `m_data` the returned pointer stands for; `none` is `NULL`. -/
def Tsqueue.head (queue : Tsqueue) : Option Nat :=
  if queue.mSize = 0 then none else some (mulSize queue.mItemSize queue.mHeadPos)

def Tsqueue.clear (queue : Tsqueue) : Tsqueue :=
  { queue with mSize := 0, mTailPos := 0, mHeadPos := 0 }

def Tsqueue.reallocate (queue : Tsqueue) (newCapacity : Nat) (answer : Allocation) :
    Outcome (AsockReturnCode × Tsqueue) :=
  if queue.mCapacity < newCapacity then
    match realloc answer queue.mData (mulSize newCapacity queue.mItemSize) with
    | none => .ok (asockErrNomem, { queue with mData := [] })
    | some data => .ok (asockSuccess, { queue with mData := data })
  else .error .assertion

/-- The comment in the source: relocate head if needed. -/
def Tsqueue.relocateHead (queue : Tsqueue) : Outcome Tsqueue :=
  if queue.mTailPos ≤ queue.mHeadPos ∧ queue.mSize ≠ 0 then do
    let data ← memcpyWithin queue.mData (mulSize queue.mItemSize queue.mCapacity) 0
      (mulSize queue.mTailPos queue.mItemSize)
    return { queue with mData := data, mTailPos := addSize queue.mCapacity queue.mTailPos }
  else return queue

def Tsqueue.grow (queue : Tsqueue) (itemCount : Nat) (answer : Allocation) :
    Outcome (AsockReturnCode × Tsqueue) := do
  let newCapacity ← doubleUntil doublingFuel (mulSize queue.mCapacity 2)
    (addSize queue.mSize itemCount)
  let reallocated ← queue.reallocate newCapacity answer
  if reallocated.1 = asockSuccess then
    let relocated ← reallocated.2.relocateHead
    return (asockSuccess, { relocated with mCapacity := newCapacity })
  else return (asockErrNomem, reallocated.2)

def Tsqueue.copyIn (queue : Tsqueue) (src : List Byte) (itemCount : Nat) : Outcome Tsqueue := do
  let frontSpace := subSize queue.mCapacity queue.mTailPos
  let copied ←
    if itemCount ≤ frontSpace then do
      let data ← memcpy queue.mData (mulSize queue.mItemSize queue.mTailPos) src 0
        (mulSize queue.mItemSize itemCount)
      pure (data, addSize queue.mTailPos itemCount)
    else do
      let secondBatch := subSize itemCount frontSpace
      let data ← memcpy queue.mData (mulSize queue.mItemSize queue.mTailPos) src 0
        (mulSize queue.mItemSize frontSpace)
      let data ← memcpy data 0 src (mulSize queue.mItemSize frontSpace)
        (mulSize queue.mItemSize secondBatch)
      pure (data, secondBatch)
  return { queue with
    mData := copied.1
    mTailPos := if copied.2 = queue.mCapacity then 0 else copied.2
    mSize := addSize queue.mSize itemCount }

def Tsqueue.enqueue (queue : Tsqueue) (src : List Byte) (itemCount : Nat) (answer : Allocation) :
    Outcome (AsockReturnCode × Tsqueue) := do
  let grown ←
    if queue.mCapacity < addSize queue.mSize itemCount then queue.grow itemCount answer
    else pure (asockSuccess, queue)
  if grown.1 = asockSuccess then
    let queue ← grown.2.copyIn src itemCount
    return (asockSuccess, queue)
  else return grown

/-- One `memcpy` out of the ring; nothing is copied to a `NULL` destination. -/
def Tsqueue.copyOut (queue : Tsqueue) (dst : Option (List Byte)) (dstPos srcPos size : Nat) :
    Outcome (Option (List Byte)) :=
  match dst with
  | none => .ok none
  | some block => (memcpy block dstPos queue.mData srcPos size).map some

/-- Returns `copy_sz`, the caller's block after the copies, and the queue. -/
def Tsqueue.dequeue (queue : Tsqueue) (dst : Option (List Byte)) (dstCapacity : Nat) :
    Outcome (Nat × Option (List Byte) × Tsqueue) := do
  let copySz := min dstCapacity queue.mSize
  let copied ←
    if addSize queue.mHeadPos copySz ≤ queue.mCapacity then do
      let dst ← queue.copyOut dst 0 (mulSize queue.mItemSize queue.mHeadPos)
        (mulSize queue.mItemSize copySz)
      pure (dst, addSize queue.mHeadPos copySz)
    else do
      let firstBatch := subSize queue.mCapacity queue.mHeadPos
      let secondBatch := subSize copySz firstBatch
      let dst ← queue.copyOut dst 0 (mulSize queue.mItemSize queue.mHeadPos)
        (mulSize queue.mItemSize firstBatch)
      let dst ← queue.copyOut dst (mulSize queue.mItemSize firstBatch) 0
        (mulSize queue.mItemSize secondBatch)
      pure (dst, secondBatch)
  return (copySz, copied.1, { queue with
    mHeadPos := if copied.2 = queue.mCapacity then 0 else copied.2
    mSize := subSize queue.mSize copySz })

def Tsqueue.forEach (queue : Tsqueue) : List (List Byte × Nat) :=
  (List.range queue.mSize).map fun index =>
    (slot queue.mItemSize queue.mData (addSize queue.mHeadPos index % queue.mCapacity), index)

end Libasock.TsqueueModel
