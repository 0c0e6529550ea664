import Libasock.CapacityLaw

/-!
The copies of `asock_tsqueue_enqueue` and `asock_tsqueue_dequeue` by their
operands. `relocation`, `batchesIn` and `batchesOut` list every `memcpy` and
every subtraction in the order of the source; `copyAll` carries a list out, and
the lemmas before the bounds say that the calls do just that.
-/

namespace Libasock.RingCopies
open ByteBlocks GuardedRuns ReturnCodes RingWindows TsqueueModel TsqueueContent TsqueueRefinement
  FailedEnqueues CapacityLaw

/-- The operands of one `memcpy`: byte positions in the two blocks and a byte count. -/
structure Copy where
  dstPos : Nat
  srcPos : Nat
  size : Nat
  deriving DecidableEq, Repr

def Copy.Inside (copy : Copy) (dstBytes srcBytes : Nat) : Prop :=
  copy.dstPos + copy.size ≤ dstBytes ∧ copy.srcPos + copy.size ≤ srcBytes

/-- No byte of the item in that slot is written. -/
def Copy.Spares (copy : Copy) (width slot : Nat) : Prop :=
  copy.dstPos + copy.size ≤ width * slot ∨ width * (slot + 1) ≤ copy.dstPos

def copyAll (dst src : List Byte) : List Copy → Outcome (List Byte)
  | [] => .ok dst
  | copy :: rest => do
      let dst ← memcpy dst copy.dstPos src copy.srcPos copy.size
      copyAll dst src rest

/-- The copies of a call, and the operands of its subtractions. -/
structure Batches where
  copies : List Copy
  differences : List (Nat × Nat)
  deriving DecidableEq, Repr

def relocation (queue : Tsqueue) : List Copy :=
  if queue.mTailPos ≤ queue.mHeadPos ∧ queue.mSize ≠ 0 then
    [⟨mulSize queue.mItemSize queue.mCapacity, 0, mulSize queue.mTailPos queue.mItemSize⟩]
  else []

def batchesIn (queue : Tsqueue) (itemCount : Nat) : Batches :=
  let frontSpace := subSize queue.mCapacity queue.mTailPos
  if itemCount ≤ frontSpace then
    { copies := [⟨mulSize queue.mItemSize queue.mTailPos, 0, mulSize queue.mItemSize itemCount⟩]
      differences := [(queue.mCapacity, queue.mTailPos)] }
  else
    let secondBatch := subSize itemCount frontSpace
    { copies :=
        [⟨mulSize queue.mItemSize queue.mTailPos, 0, mulSize queue.mItemSize frontSpace⟩,
          ⟨0, mulSize queue.mItemSize frontSpace, mulSize queue.mItemSize secondBatch⟩]
      differences := [(queue.mCapacity, queue.mTailPos), (itemCount, frontSpace)] }

/-- The copies are left out for a `NULL` destination, the subtractions are not. -/
def batchesOut (queue : Tsqueue) (dst : Option (List Byte)) (dstCapacity : Nat) : Batches :=
  let copySz := min dstCapacity queue.mSize
  if addSize queue.mHeadPos copySz ≤ queue.mCapacity then
    { copies := if dst.isSome then
        [⟨0, mulSize queue.mItemSize queue.mHeadPos, mulSize queue.mItemSize copySz⟩] else []
      differences := [(queue.mSize, copySz)] }
  else
    let firstBatch := subSize queue.mCapacity queue.mHeadPos
    let secondBatch := subSize copySz firstBatch
    { copies := if dst.isSome then
        [⟨0, mulSize queue.mItemSize queue.mHeadPos, mulSize queue.mItemSize firstBatch⟩,
          ⟨mulSize queue.mItemSize firstBatch, 0, mulSize queue.mItemSize secondBatch⟩] else []
      differences :=
        [(queue.mCapacity, queue.mHeadPos), (copySz, firstBatch), (queue.mSize, copySz)] }

/-- The queue as `front_space` finds it, after a growth if there was one. -/
def prepared (queue : Tsqueue) (itemCount : Nat) (answer : Allocation) :
    Outcome (AsockReturnCode × Tsqueue) :=
  if queue.mCapacity < addSize queue.mSize itemCount then queue.grow itemCount answer
  else pure (asockSuccess, queue)

section Performed

variable {queue after : Tsqueue} {src : List Byte} {itemCount : Nat}

theorem relocateHead_copies (relocates : queue.relocateHead = .ok after) :
    copyAll queue.mData queue.mData (relocation queue) = .ok after.mData := by
  unfold Tsqueue.relocateHead at relocates
  unfold relocation
  split at relocates
  case isTrue moves =>
    obtain ⟨data, within, same⟩ := sequenced relocates
    cases same
    unfold memcpyWithin at within
    split at within
    · rw [if_pos moves, copyAll, within]
      rfl
    · cases within
  case isFalse stays =>
    cases relocates
    rw [if_neg stays, copyAll]

theorem copyIn_copies (copies : queue.copyIn src itemCount = .ok after) :
    copyAll queue.mData src (batchesIn queue itemCount).copies = .ok after.mData := by
  unfold Tsqueue.copyIn at copies
  unfold batchesIn
  dsimp only at copies ⊢
  split at copies
  case isTrue single =>
    obtain ⟨data, moved, same⟩ := sequenced copies
    cases same
    rw [if_pos single, copyAll, moved]
    rfl
  case isFalse double =>
    obtain ⟨front, moved, rest⟩ := sequenced copies
    obtain ⟨back, movedBack, same⟩ := sequenced rest
    cases same
    rw [if_neg double, copyAll, moved]
    change copyAll front src [_] = _
    rw [copyAll, movedBack]
    rfl

theorem copyOut_some {block : List Byte} {dstPos srcPos size : Nat}
    {filled : Option (List Byte)}
    (copies : queue.copyOut (some block) dstPos srcPos size = .ok filled) :
    ∃ out, filled = some out ∧ memcpy block dstPos queue.mData srcPos size = .ok out := by
  obtain ⟨out, moved, same⟩ := mapped copies
  exact ⟨out, same.symm, moved⟩

theorem dequeue_copies {block : List Byte} {dstCapacity taken : Nat} {out : Option (List Byte)}
    (dequeues : queue.dequeue (some block) dstCapacity = .ok (taken, out, after)) :
    ∃ filled, out = some filled ∧
      copyAll block queue.mData (batchesOut queue (some block) dstCapacity).copies =
        .ok filled := by
  unfold Tsqueue.dequeue at dequeues
  unfold batchesOut
  dsimp only at dequeues ⊢
  split at dequeues
  case isTrue straight =>
    obtain ⟨target, moves, same⟩ := sequenced dequeues
    obtain ⟨filled, rfl, moved⟩ := copyOut_some moves
    cases same
    refine ⟨filled, rfl, ?_⟩
    rw [if_pos straight]
    change copyAll block queue.mData [_] = _
    rw [copyAll, moved]
    rfl
  case isFalse wraps =>
    obtain ⟨target, moves, rest⟩ := sequenced dequeues
    obtain ⟨front, rfl, moved⟩ := copyOut_some moves
    obtain ⟨target, movesBack, same⟩ := sequenced rest
    obtain ⟨back, rfl, movedBack⟩ := copyOut_some movesBack
    cases same
    refine ⟨back, rfl, ?_⟩
    rw [if_neg wraps]
    change copyAll block queue.mData [_, _] = _
    rw [copyAll, moved]
    change copyAll front queue.mData [_] = _
    rw [copyAll, movedBack]
    rfl

end Performed

section Bounds

/-- A copy of whole items of one width. -/
def itemsCopy (width dstItem srcItem count : Nat) : Copy :=
  ⟨width * dstItem, width * srcItem, width * count⟩

theorem itemsCopy_inside (width : Nat) {dstItem srcItem count dstItems srcItems : Nat}
    (dstFits : dstItem + count ≤ dstItems) (srcFits : srcItem + count ≤ srcItems) :
    (itemsCopy width dstItem srcItem count).Inside (width * dstItems) (width * srcItems) := by
  unfold itemsCopy Copy.Inside
  dsimp only
  rw [← Nat.mul_add, ← Nat.mul_add]
  exact ⟨Nat.mul_le_mul_left _ dstFits, Nat.mul_le_mul_left _ srcFits⟩

theorem itemsCopy_spares (width srcItem : Nat) {dstItem count slot : Nat}
    (apart : dstItem + count ≤ slot ∨ slot < dstItem) :
    (itemsCopy width dstItem srcItem count).Spares width slot := by
  unfold itemsCopy Copy.Spares
  dsimp only
  rw [← Nat.mul_add]
  rcases apart with behind | before
  · exact .inl (Nat.mul_le_mul_left _ behind)
  · exact .inr (Nat.mul_le_mul_left _ before)

/-- The slots of the items that are in the queue. -/
def Live (queue : Tsqueue) (slot : Nat) : Prop :=
  ∃ index, index < queue.mSize ∧ slot = (queue.mHeadPos + index) % queue.mCapacity

/-- What the copies and subtractions of a call may do: their blocks hold `dstItems` and `srcItems`
items, and what is written holds none of the `live` ones. -/
structure Safe (width dstItems srcItems : Nat) (live : Nat → Prop) (batches : Batches) : Prop where
  inside : ∀ copy ∈ batches.copies, copy.Inside (width * dstItems) (width * srcItems)
  spared : ∀ copy ∈ batches.copies, ∀ slot, live slot → copy.Spares width slot
  ordered : ∀ difference ∈ batches.differences, difference.2 ≤ difference.1

variable {queue : Tsqueue} (valid : Valid queue)
include valid

/-- The part before the head goes behind the old end, where no item is. -/
theorem relocation_safe {newCapacity : Nat} (doubled : 2 * queue.mCapacity ≤ newCapacity) :
    Safe queue.mItemSize newCapacity newCapacity (Live queue) ⟨relocation queue, []⟩ ∧
      ∀ copy ∈ relocation queue, copy.srcPos + copy.size ≤ copy.dstPos := by
  have tailInside := tail_inside valid
  have items : ∀ copy ∈ relocation queue,
      copy = itemsCopy queue.mItemSize queue.mCapacity 0 queue.mTailPos := by
    intro copy member
    unfold relocation at member
    split at member
    · have tailBytes := bytes_inside valid queue.mTailPos (Nat.le_of_lt tailInside)
      rw [List.mem_singleton] at member
      rw [member, itemsCopy, mulSize_exact valid.inside, Nat.mul_zero,
        mulSize_exact (by rw [Nat.mul_comm]; exact tailBytes), Nat.mul_comm queue.mTailPos]
    · cases member
  refine ⟨⟨?_, ?_, fun _ absent => by cases absent⟩, ?_⟩
  · intro copy member
    rw [items copy member]
    exact itemsCopy_inside _ (by omega) (by omega)
  · rintro copy member slot ⟨index, _, rfl⟩
    have slotInside : (queue.mHeadPos + index) % queue.mCapacity < queue.mCapacity :=
      Nat.mod_lt _ (by omega)
    rw [items copy member]
    exact itemsCopy_spares _ _ (.inr slotInside)
  · intro copy member
    rw [items copy member]
    simp only [itemsCopy, Nat.mul_zero, Nat.zero_add]
    exact Nat.mul_le_mul_left _ (Nat.le_of_lt tailInside)

theorem batchesIn_safe {itemCount : Nat} (room : queue.mSize + itemCount ≤ queue.mCapacity) :
    Safe queue.mItemSize queue.mCapacity itemCount (Live queue) (batchesIn queue itemCount) := by
  have tailInside := tail_inside valid
  have layout := tail_layout valid
  have sized := valid.sized
  have headInside := valid.headInside
  have capacityInside := capacity_inside valid
  have front := space_exact valid (Nat.le_of_lt tailInside)
  have tailBytes := bytes_exact valid (Nat.le_of_lt tailInside)
  have countBytes := bytes_exact valid (show itemCount ≤ queue.mCapacity by omega)
  have frontBytes := bytes_exact valid (Nat.sub_le queue.mCapacity queue.mTailPos)
  have slots : ∀ slot, Live queue slot → ∃ index, index < queue.mSize ∧
      slot = if queue.mHeadPos + index < queue.mCapacity then queue.mHeadPos + index
        else queue.mHeadPos + index - queue.mCapacity := by
    rintro slot ⟨index, live, rfl⟩
    exact ⟨index, live, wrap_once headInside (by omega)⟩
  unfold batchesIn
  dsimp only
  by_cases single : itemCount ≤ queue.mCapacity - queue.mTailPos
  · have only : Safe queue.mItemSize queue.mCapacity itemCount (Live queue)
        ⟨[itemsCopy queue.mItemSize queue.mTailPos 0 itemCount],
          [(queue.mCapacity, queue.mTailPos)]⟩ := by
      refine ⟨?_, ?_, ?_⟩
      · intro copy member
        rw [List.mem_singleton.mp member]
        exact itemsCopy_inside _ (by omega) (by omega)
      · intro copy member slot live
        obtain ⟨index, inside, place⟩ := slots slot live
        rw [List.mem_singleton.mp member]
        -- a slot behind the tail is one the queue still has to reach
        exact itemsCopy_spares _ _ (by split at place <;> split at layout <;> omega)
      · intro difference member
        rw [List.mem_singleton.mp member]
        exact Nat.le_of_lt tailInside
    rw [front, if_pos single, tailBytes, countBytes]
    exact only
  · have second : subSize itemCount (queue.mCapacity - queue.mTailPos) =
        itemCount - (queue.mCapacity - queue.mTailPos) := subSize_exact (by omega) (by omega)
    have secondBytes := bytes_exact valid
      (show itemCount - (queue.mCapacity - queue.mTailPos) ≤ queue.mCapacity by omega)
    have both : Safe queue.mItemSize queue.mCapacity itemCount (Live queue)
        ⟨[itemsCopy queue.mItemSize queue.mTailPos 0 (queue.mCapacity - queue.mTailPos),
            itemsCopy queue.mItemSize 0 (queue.mCapacity - queue.mTailPos)
              (itemCount - (queue.mCapacity - queue.mTailPos))],
          [(queue.mCapacity, queue.mTailPos),
            (itemCount, queue.mCapacity - queue.mTailPos)]⟩ := by
      refine ⟨?_, ?_, ?_⟩
      · intro copy member
        rcases List.mem_pair.mp member with rfl | rfl
        · exact itemsCopy_inside _ (by omega) (by omega)
        · exact itemsCopy_inside _ (by omega) (by omega)
      · intro copy member slot live
        obtain ⟨index, inside, place⟩ := slots slot live
        rcases List.mem_pair.mp member with rfl | rfl
        · exact itemsCopy_spares _ _ (by split at place <;> split at layout <;> omega)
        · exact itemsCopy_spares _ _ (by split at place <;> split at layout <;> omega)
      · intro difference member
        rcases List.mem_pair.mp member with rfl | rfl
        · exact Nat.le_of_lt tailInside
        · dsimp only
          omega
    rw [front, if_neg single, second, tailBytes, frontBytes, secondBytes]
    exact both

theorem batchesOut_safe (dst : Option (List Byte)) (dstCapacity : Nat) :
    Safe queue.mItemSize (min dstCapacity queue.mSize) queue.mCapacity (fun _ => False)
      (batchesOut queue dst dstCapacity) := by
  have sized := valid.sized
  have headInside := valid.headInside
  have capacityInside := capacity_inside valid
  have half := capacity_half valid
  have bounded : min dstCapacity queue.mSize ≤ queue.mSize := Nat.min_le_right ..
  unfold batchesOut
  dsimp only
  generalize min dstCapacity queue.mSize = count at *
  have sum : addSize queue.mHeadPos count = queue.mHeadPos + count := addSize_exact (by omega)
  have headBytes := bytes_exact valid (Nat.le_of_lt headInside)
  have countBytes := bytes_exact valid (Nat.le_trans bounded sized)
  by_cases straightRun : queue.mHeadPos + count ≤ queue.mCapacity
  · have only : Safe queue.mItemSize count queue.mCapacity (fun _ => False)
        ⟨if dst.isSome then [itemsCopy queue.mItemSize 0 queue.mHeadPos count] else [],
          [(queue.mSize, count)]⟩ := by
      refine ⟨?_, fun _ _ _ absent => absent.elim, ?_⟩
      · intro copy member
        split at member
        · rw [List.mem_singleton.mp member]
          exact itemsCopy_inside _ (by omega) (by omega)
        · cases member
      · intro difference member
        rw [List.mem_singleton.mp member]
        exact bounded
    rw [sum, if_pos straightRun, headBytes, countBytes]
    exact only
  · have front := space_exact valid (Nat.le_of_lt headInside)
    have second : subSize count (queue.mCapacity - queue.mHeadPos) =
        count - (queue.mCapacity - queue.mHeadPos) := subSize_exact (by omega) (by omega)
    have frontBytes := bytes_exact valid (Nat.sub_le queue.mCapacity queue.mHeadPos)
    have secondBytes := bytes_exact valid
      (show count - (queue.mCapacity - queue.mHeadPos) ≤ queue.mCapacity by omega)
    have both : Safe queue.mItemSize count queue.mCapacity (fun _ => False)
        ⟨if dst.isSome then
            [itemsCopy queue.mItemSize 0 queue.mHeadPos (queue.mCapacity - queue.mHeadPos),
              itemsCopy queue.mItemSize (queue.mCapacity - queue.mHeadPos) 0
                (count - (queue.mCapacity - queue.mHeadPos))] else [],
          [(queue.mCapacity, queue.mHeadPos), (count, queue.mCapacity - queue.mHeadPos),
            (queue.mSize, count)]⟩ := by
      refine ⟨?_, fun _ _ _ absent => absent.elim, ?_⟩
      · intro copy member
        split at member
        · rcases List.mem_pair.mp member with rfl | rfl
          · exact itemsCopy_inside _ (by omega) (by omega)
          · exact itemsCopy_inside _ (by omega) (by omega)
        · cases member
      · intro difference member
        simp only [List.mem_cons, List.not_mem_nil, or_false] at member
        rcases member with rfl | rfl | rfl
        · exact Nat.le_of_lt headInside
        · dsimp only
          omega
        · exact bounded
    rw [sum, if_neg straightRun, front, second, headBytes, frontBytes, secondBytes]
    exact both

end Bounds

section Calls

/-- An enqueue by its copies: the one of a growth, and those into the ring after it. -/
structure SafeEnqueue (queue ring after : Tsqueue) (src : List Byte) (itemCount : Nat)
    (answer : Allocation) : Prop where
  ready : prepared queue itemCount answer = .ok (asockSuccess, ring)
  enqueues : queue.enqueue src itemCount answer = .ok (asockSuccess, after)
  grows : queue.mCapacity < queue.mSize + itemCount → ∃ block,
    queue.reallocate ring.mCapacity answer = .ok (asockSuccess, { queue with mData := block }) ∧
    block.length = queue.mItemSize * ring.mCapacity ∧
    copyAll block block (relocation queue) = .ok ring.mData ∧
    Safe queue.mItemSize ring.mCapacity ring.mCapacity (Live queue) ⟨relocation queue, []⟩ ∧
    ∀ copy ∈ relocation queue, copy.srcPos + copy.size ≤ copy.dstPos
  stays : queue.mSize + itemCount ≤ queue.mCapacity → ring = queue
  allocated : ring.mData.length = ring.mItemSize * ring.mCapacity
  copies : copyAll ring.mData src (batchesIn ring itemCount).copies = .ok after.mData
  safe : Safe ring.mItemSize ring.mCapacity itemCount (Live ring) (batchesIn ring itemCount)

structure SafeDequeue (queue after : Tsqueue) (dst : Option (List Byte)) (dstCapacity : Nat) :
    Prop where
  dequeues : ∃ out, queue.dequeue dst dstCapacity =
      .ok (min dstCapacity queue.mSize, out, after) ∧
    ∀ block ∈ dst, ∃ filled, out = some filled ∧
      copyAll block queue.mData (batchesOut queue dst dstCapacity).copies = .ok filled
  allocated : queue.mData.length = queue.mItemSize * queue.mCapacity
  safe : Safe queue.mItemSize (min dstCapacity queue.mSize) queue.mCapacity (fun _ => False)
    (batchesOut queue dst dstCapacity)

variable {queue : Tsqueue} (valid : Valid queue)
include valid

theorem grow_safe {itemCount : Nat} {answer : Allocation}
    (rounds : RoundsInside queue.mItemSize (queue.mSize + itemCount))
    (full : queue.mCapacity < queue.mSize + itemCount) (granted : answer.isSome) :
    ∃ ring block, queue.grow itemCount answer = .ok (asockSuccess, ring) ∧
      GrownFrom queue ring itemCount ∧
      queue.reallocate ring.mCapacity answer =
        .ok (asockSuccess, { queue with mData := block }) ∧
      block.length = queue.mItemSize * ring.mCapacity ∧
      copyAll block block (relocation queue) = .ok ring.mData ∧
      2 * queue.mCapacity ≤ ring.mCapacity := by
  obtain ⟨ring, grows, grown⟩ := grow_spec valid rounds full granted
  obtain ⟨junk, rfl⟩ := Option.isSome_iff_exists.mp granted
  obtain ⟨newCapacity, block, relocated, stops, larger, served, relocates, _, rfl⟩ :=
    grown_shape grows
  obtain ⟨sameCapacity, sameStops, doubled, _, _, bytes, _⟩ :=
    doubled_capacity valid.power rounds full
  rw [stops] at sameStops
  cases sameStops
  have size : mulSize newCapacity queue.mItemSize = queue.mItemSize * newCapacity := by
    rw [mulSize_exact (by rw [Nat.mul_comm]; exact bytes), Nat.mul_comm]
  refine ⟨_, block, grows, grown, ?_, ?_, relocateHead_copies relocates, doubled⟩
  · simp only [Tsqueue.reallocate, if_pos larger, served]
  · rw [realloc_length served, size]

theorem enqueue_safe {src : List Byte} {itemCount : Nat} {answer : Allocation}
    (supplied : Supplied queue (.enqueue src itemCount answer)) :
    ∃ ring after, SafeEnqueue queue ring after src itemCount answer := by
  obtain ⟨source, rounds, granted⟩ := supplied
  have sum := rounds.addSize
  by_cases full : queue.mCapacity < queue.mSize + itemCount
  · obtain ⟨ring, block, grows, grown, reallocates, long, relocates, doubled⟩ :=
      grow_safe valid rounds full granted
    have room : ring.mSize + itemCount ≤ ring.mCapacity := by
      rw [grown.size]
      exact grown.room
    obtain ⟨data, copies, _⟩ := copyIn_spec grown.valid (by rw [grown.itemSize]; exact source) room
    refine ⟨ring, advanced ring itemCount data, ?_, ?_, fun _ => ?_, fun fits => ?_,
      grown.valid.block, copyIn_copies copies, batchesIn_safe grown.valid room⟩
    · rw [prepared, sum, if_pos full, grows]
    · simp only [Tsqueue.enqueue, sum, if_pos full, grows, copies, bind, Except.bind, pure,
        Except.pure, if_true]
    · have safe := relocation_safe valid doubled
      exact ⟨block, reallocates, long, relocates, safe.1, safe.2⟩
    · omega
  · have room : queue.mSize + itemCount ≤ queue.mCapacity := by omega
    obtain ⟨data, copies, _⟩ := copyIn_spec valid source room
    refine ⟨queue, advanced queue itemCount data, ?_, ?_, fun grows => absurd grows full,
      fun _ => rfl, valid.block, copyIn_copies copies, batchesIn_safe valid room⟩
    · rw [prepared, sum, if_neg full]
      rfl
    · simp only [Tsqueue.enqueue, sum, if_neg full, copies, bind, Except.bind, pure, Except.pure,
        if_true]

theorem dequeue_safe {dst : Option (List Byte)} {dstCapacity : Nat}
    (supplied : Supplied queue (.dequeue dst dstCapacity)) :
    ∃ after, SafeDequeue queue after dst dstCapacity := by
  have dequeues := dequeue_spec dst dstCapacity valid supplied
  refine ⟨_, ⟨_, dequeues, ?_⟩, valid.block, batchesOut_safe valid dst dstCapacity⟩
  rintro block member
  cases member
  exact dequeue_copies dequeues

theorem step_valid {op : Op} {after : Tsqueue} (supplied : Supplied queue op)
    (stepped : step queue op = some after) : Valid after := by
  cases op with
  | enqueue src itemCount answer =>
      obtain ⟨source, rounds, granted⟩ := supplied
      obtain ⟨next, enqueues, nextValid, _⟩ := enqueue_appends valid rounds source granted
      simp only [step, perform, enqueues, bind, Except.bind, pure, Except.pure,
        Option.some.injEq] at stepped
      rw [← stepped]
      exact nextValid
  | dequeue dst dstCapacity =>
      simp only [step, perform, dequeue_spec dst dstCapacity valid supplied, bind, Except.bind,
        pure, Except.pure, Option.some.injEq] at stepped
      rw [← stepped]
      exact (shortened_spec valid (Nat.min_le_right ..)).1
  | clear =>
      cases stepped
      exact (clear_spec valid).1

end Calls

section Results

-- Both calls copy inside their blocks, from whatever state the calls before have left.
theorem ring_copies_in_bounds (itemSize capacity : Nat) (answers : CreateAnswers)
    (first queue : Tsqueue) (wide : 1 ≤ itemSize)
    (created : Tsqueue.create answers itemSize capacity = .ok (some first))
    (fits : itemSize * first.mCapacity < sizeBound) (run : GuardedRun step Supplied first queue) :
    (∀ src itemCount answer, Supplied queue (.enqueue src itemCount answer) →
      ∃ ring after, SafeEnqueue queue ring after src itemCount answer) ∧
    ∀ dst dstCapacity, Supplied queue (.dequeue dst dstCapacity) →
      ∃ after, SafeDequeue queue after dst dstCapacity := by
  have valid : Valid queue := run.invariant Valid
    (fun _ _ _ valid supplied stepped => step_valid valid supplied stepped)
    (create_spec created wide fits).1
  exact ⟨fun _ _ _ supplied => enqueue_safe valid supplied,
    fun _ _ supplied => dequeue_safe valid supplied⟩

/-- Two of four bytes have left, and two others wrap into their slots. -/
def wrappedBytes : Tsqueue := ⟨[5, 6, 3, 4], 4, 4, 1, 2, 2⟩

theorem wrapped_bytes_copied : ∃ queue ring after,
    GuardedRun step Supplied ⟨[0, 0, 0, 0], 0, 4, 1, 0, 0⟩ queue ∧
      SafeEnqueue queue ring after [7] 1 (some fun _ => 9) ∧
      relocation queue = [⟨4, 0, 2⟩] ∧ (batchesIn ring 1).copies = [⟨6, 0, 1⟩] ∧
      after.mData = [5, 6, 3, 4, 5, 6, 7, 9] := by
  have run : GuardedRun step Supplied ⟨[0, 0, 0, 0], 0, 4, 1, 0, 0⟩ wrappedBytes :=
    .next (.enqueue [5, 6] 2 (some fun _ => 9))
      (.next (.dequeue none 2)
        (.next (.enqueue [1, 2, 3, 4] 4 (some fun _ => 9)) .refl ⟨by decide, ⟨2, by decide⟩, rfl⟩
          rfl)
        (fun _ absent => by cases absent) rfl)
      ⟨by decide, ⟨2, by decide⟩, rfl⟩ rfl
  have supplied : Supplied wrappedBytes (.enqueue [7] 1 (some fun _ => 9)) :=
    ⟨by decide, ⟨3, by decide⟩, rfl⟩
  obtain ⟨ring, after, safe⟩ := (ring_copies_in_bounds 1 3 ⟨true, true, some fun _ => 0⟩
    ⟨[0, 0, 0, 0], 0, 4, 1, 0, 0⟩ wrappedBytes (by decide) rfl (by decide) run).1
    [7] 1 (some fun _ => 9) supplied
  have prepares : prepared wrappedBytes 1 (some fun _ => 9) =
      .ok (asockSuccess, ⟨[5, 6, 3, 4, 5, 6, 9, 9], 4, 8, 1, 6, 2⟩) := rfl
  have ready := safe.ready
  rw [prepares] at ready
  cases ready
  have copies := safe.copies
  have written : copyAll [5, 6, 3, 4, 5, 6, 9, 9] [7] [⟨6, 0, 1⟩] =
      .ok [5, 6, 3, 4, 5, 6, 7, 9] := rfl
  have same : after.mData = [5, 6, 3, 4, 5, 6, 7, 9] :=
    (Except.ok.inj (written.symm.trans copies)).symm
  exact ⟨wrappedBytes, _, after, run, safe, by decide, by decide, same⟩

end Results

end Libasock.RingCopies
