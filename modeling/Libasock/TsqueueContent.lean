import Libasock.RingWindows
import Libasock.TsqueueModel

/-!
The content of a ring buffer as a list of items and what each call of
`asock_tsqueue.c` does to it. `Valid` is the representation invariant: head and
size are in range, the tail is their sum on the ring, and the block has exactly
`m_capacity` items. `Addressable` says that the live items and the caller's
items lie side by side in one address space, whose user half is `2 ^ 63` bytes;
it keeps the doubled byte count of `asock_tsqueue_enqueue` inside `size_t`.
-/

namespace Libasock.TsqueueContent
open ByteBlocks ReturnCodes RingWindows TsqueueModel

structure Valid (queue : Tsqueue) : Prop where
  width : 1 ≤ queue.mItemSize
  block : queue.mData.length = queue.mItemSize * queue.mCapacity
  inside : queue.mItemSize * queue.mCapacity < sizeBound
  power : ∃ order, queue.mCapacity = 2 ^ order
  sized : queue.mSize ≤ queue.mCapacity
  headInside : queue.mHeadPos < queue.mCapacity
  tail : queue.mTailPos = (queue.mHeadPos + queue.mSize) % queue.mCapacity

def cell (queue : Tsqueue) : Nat → List Byte := slot queue.mItemSize queue.mData

def content (queue : Tsqueue) : List (List Byte) :=
  window (cell queue) queue.mCapacity queue.mHeadPos queue.mSize

def Addressable (queue : Tsqueue) (itemCount : Nat) : Prop :=
  queue.mItemSize * (queue.mSize + itemCount) ≤ 2 ^ 63

@[simp] theorem content_length (queue : Tsqueue) : (content queue).length = queue.mSize :=
  window_length ..

section Arithmetic

variable {queue : Tsqueue} (valid : Valid queue)
include valid

theorem capacity_inside : queue.mCapacity < sizeBound :=
  Nat.lt_of_le_of_lt (Nat.le_mul_of_pos_left _ valid.width) valid.inside

theorem capacity_half : 2 * queue.mCapacity ≤ sizeBound := by
  obtain ⟨order, power⟩ := valid.power
  have inside := capacity_inside valid
  rw [power] at inside ⊢
  have below : order < 64 := (Nat.pow_lt_pow_iff_right (by decide)).mp inside
  rw [← Nat.pow_succ']
  exact Nat.pow_le_pow_right (by decide) below

theorem bytes_inside (count : Nat) (bounded : count ≤ queue.mCapacity) :
    queue.mItemSize * count < sizeBound :=
  Nat.lt_of_le_of_lt (Nat.mul_le_mul_left _ bounded) valid.inside

theorem bytes_exact {count : Nat} (bounded : count ≤ queue.mCapacity) :
    mulSize queue.mItemSize count = queue.mItemSize * count :=
  mulSize_exact (bytes_inside valid count bounded)

theorem space_exact {position : Nat} (bounded : position ≤ queue.mCapacity) :
    subSize queue.mCapacity position = queue.mCapacity - position :=
  subSize_exact bounded (capacity_inside valid)

theorem tail_inside : queue.mTailPos < queue.mCapacity := by
  rw [valid.tail]
  exact Nat.mod_lt _ (Nat.lt_of_le_of_lt (Nat.zero_le _) valid.headInside)

theorem tail_layout : queue.mTailPos =
    if queue.mHeadPos + queue.mSize < queue.mCapacity then queue.mHeadPos + queue.mSize
    else queue.mHeadPos + queue.mSize - queue.mCapacity := by
  rw [valid.tail, wrap_once valid.headInside valid.sized]

end Arithmetic

theorem addressable_items {queue : Tsqueue} {itemCount : Nat} (valid : Valid queue)
    (addressable : Addressable queue itemCount) :
    2 * (queue.mSize + itemCount) ≤ sizeBound := by
  have le : queue.mSize + itemCount ≤ queue.mItemSize * (queue.mSize + itemCount) :=
    Nat.le_mul_of_pos_left _ valid.width
  unfold Addressable at addressable
  unfold sizeBound
  omega

section Growth

/-- A grown ring with the same content and room for the new items. -/
structure GrownFrom (queue grown : Tsqueue) (itemCount : Nat) : Prop where
  valid : Valid grown
  content : content grown = content queue
  itemSize : grown.mItemSize = queue.mItemSize
  size : grown.mSize = queue.mSize
  room : queue.mSize + itemCount ≤ grown.mCapacity

/-- The items in one address space leave room for rounding their number up. -/
theorem addressable_rounds {queue : Tsqueue} {itemCount : Nat} (valid : Valid queue)
    (addressable : Addressable queue itemCount) :
    RoundsInside queue.mItemSize (queue.mSize + itemCount) := by
  have half := addressable_items valid addressable
  have positive : 0 < queue.mCapacity := Nat.lt_of_le_of_lt (Nat.zero_le _) valid.headInside
  obtain ⟨power, _, covers, inside, tight⟩ := doubling_ends 64 1 (queue.mSize + itemCount)
    (by unfold sizeBound at half; omega) half (by decide)
  rw [Nat.one_mul] at covers inside tight
  refine ⟨power, (Nat.pow_lt_pow_iff_right (by decide)).mp inside, covers, ?_⟩
  rcases tight with single | tight
  · subst single
    exact Nat.lt_of_le_of_lt (Nat.mul_le_mul_left _ positive) valid.inside
  · have bytes : queue.mItemSize * 2 ^ power <
        queue.mItemSize * (2 * (queue.mSize + itemCount)) :=
      Nat.mul_lt_mul_of_pos_left tight valid.width
    have doubled : queue.mItemSize * (2 * (queue.mSize + itemCount)) =
        2 * (queue.mItemSize * (queue.mSize + itemCount)) := Nat.mul_left_comm ..
    unfold Addressable at addressable
    unfold sizeBound
    omega

/-- The doubling loop stops at a capacity whose bytes `size_t` can count. -/
theorem doubled_capacity {queue : Tsqueue} {itemCount : Nat}
    (isPower : ∃ order, queue.mCapacity = 2 ^ order)
    (rounds : RoundsInside queue.mItemSize (queue.mSize + itemCount))
    (full : queue.mCapacity < queue.mSize + itemCount) :
    ∃ newCapacity, doubleUntil doublingFuel (mulSize queue.mCapacity 2)
        (addSize queue.mSize itemCount) = .ok newCapacity ∧
      2 * queue.mCapacity ≤ newCapacity ∧ queue.mSize + itemCount ≤ newCapacity ∧
      newCapacity < 2 * (queue.mSize + itemCount) ∧
      queue.mItemSize * newCapacity < sizeBound ∧ ∃ order, newCapacity = 2 ^ order := by
  obtain ⟨order, power⟩ := isPower
  have half := rounds.half
  have next : mulSize queue.mCapacity 2 = 2 ^ (order + 1) := by
    rw [mulSize_exact (by omega), power, Nat.pow_succ]
  have twice : 2 ^ (order + 1) = 2 * queue.mCapacity := by rw [power, Nat.pow_succ']
  rw [next, addSize_exact (by omega)]
  obtain ⟨final, stops, above, _, covers, below, bytes⟩ :=
    doubling_rounds rounds (show 2 ^ (order + 1) < 2 * (queue.mSize + itemCount) by omega)
  have grown : 2 ^ (order + 1) ≤ 2 ^ final := Nat.pow_le_pow_right (by decide) above
  exact ⟨_, stops, by omega, covers, below, bytes, final, rfl⟩

theorem new_capacity {queue : Tsqueue} {itemCount : Nat} (valid : Valid queue)
    (addressable : Addressable queue itemCount) (full : queue.mCapacity < queue.mSize + itemCount) :
    ∃ newCapacity, doubleUntil doublingFuel (mulSize queue.mCapacity 2)
        (addSize queue.mSize itemCount) = .ok newCapacity ∧
      2 * queue.mCapacity ≤ newCapacity ∧ queue.mSize + itemCount ≤ newCapacity ∧
      newCapacity < 2 * (queue.mSize + itemCount) ∧
      queue.mItemSize * newCapacity < sizeBound ∧ ∃ order, newCapacity = 2 ^ order :=
  doubled_capacity valid.power (addressable_rounds valid addressable) full

/-- Relocation makes the tail the plain sum of head and size, whatever the layout was. -/
theorem relocated {queue : Tsqueue} {grown : Nat} {fresh : List Byte} (valid : Valid queue)
    (doubled : 2 * queue.mCapacity ≤ grown) (bounded : queue.mItemSize * grown < sizeBound)
    (long : (queue.mData ++ fresh).length = queue.mItemSize * grown) :
    ∃ data, Tsqueue.relocateHead { queue with mData := queue.mData ++ fresh } =
        .ok { queue with mData := data, mTailPos := queue.mHeadPos + queue.mSize } ∧
      data.length = queue.mItemSize * grown ∧
      (∀ pos, pos < queue.mCapacity → slot queue.mItemSize data pos = cell queue pos) ∧
      (∀ pos, pos + queue.mCapacity < queue.mHeadPos + queue.mSize →
        slot queue.mItemSize data (queue.mCapacity + pos) = cell queue pos) := by
  have layout := tail_layout valid
  have sized := valid.sized
  have headInside := valid.headInside
  have kept : ∀ pos, pos < queue.mCapacity →
      slot queue.mItemSize (queue.mData ++ fresh) pos = cell queue pos := by
    intro pos inside
    exact slot_append (by rw [valid.block]) inside
  -- the test of the source: a full ring and an empty one have the same tail
  by_cases wrapped : queue.mTailPos ≤ queue.mHeadPos ∧ queue.mSize ≠ 0
  · have past : queue.mCapacity ≤ queue.mHeadPos + queue.mSize := by
      by_contra short
      rw [if_pos (by omega)] at layout
      omega
    rw [if_neg (by omega)] at layout
    have tailInside := tail_inside valid
    have moveInside : queue.mItemSize * queue.mCapacity + queue.mItemSize * queue.mTailPos ≤
        queue.mItemSize * grown := by
      rw [← Nat.mul_add]
      exact Nat.mul_le_mul_left _ (by omega)
    have apart : queue.mItemSize * queue.mTailPos ≤ queue.mItemSize * queue.mCapacity :=
      Nat.mul_le_mul_left _ (by omega)
    -- the front part is copied behind the old end, where the doubled block has room for it
    obtain ⟨data, moved, copied⟩ := memcpyWithin_copied (queue.mData ++ fresh)
      (queue.mItemSize * queue.mCapacity) 0 (queue.mItemSize * queue.mTailPos)
      (.inr (by omega)) (by omega) (by omega)
    have cells := fun index => copied_slot queue.mCapacity 0
      (by simpa only [Nat.mul_zero] using copied) index
    refine ⟨data, ?_, copied.1.trans long, ?_, ?_⟩
    · have wide := Nat.le_mul_of_pos_left grown valid.width
      have newTail : addSize queue.mCapacity queue.mTailPos = queue.mHeadPos + queue.mSize := by
        rw [addSize_exact (by omega)]
        omega
      have moveBytes : mulSize queue.mTailPos queue.mItemSize =
          queue.mItemSize * queue.mTailPos := by
        rw [mulSize_exact (by rw [Nat.mul_comm]; omega), Nat.mul_comm]
      unfold Tsqueue.relocateHead
      rw [if_pos wrapped]
      simp only [mulSize_exact valid.inside, moveBytes, moved, newTail, bind, Except.bind, pure,
        Except.pure]
    · intro pos inside
      rw [cells, if_neg (by omega)]
      exact kept pos inside
    · intro pos wrappedPos
      rw [cells, if_pos (by omega), kept _ (by omega)]
      congr 1
      omega
  · have short : queue.mHeadPos + queue.mSize < queue.mCapacity ∨ queue.mSize = 0 := by
      by_contra long
      apply wrapped
      rw [if_neg (by omega)] at layout
      omega
    refine ⟨queue.mData ++ fresh, ?_, long, kept, ?_⟩
    · unfold Tsqueue.relocateHead
      rw [if_neg wrapped]
      have straight : queue.mTailPos = queue.mHeadPos + queue.mSize := by
        rw [if_pos (by omega)] at layout
        exact layout
      rw [straight]
      rfl
    · intro pos wrappedPos
      omega

theorem grow_spec {queue : Tsqueue} {itemCount : Nat} {answer : Allocation} (valid : Valid queue)
    (rounds : RoundsInside queue.mItemSize (queue.mSize + itemCount))
    (full : queue.mCapacity < queue.mSize + itemCount) (granted : answer.isSome) :
    ∃ grown, queue.grow itemCount answer = .ok (asockSuccess, grown) ∧
      GrownFrom queue grown itemCount := by
  obtain ⟨newCapacity, stops, doubled, room, _, bounded, isPower⟩ :=
    doubled_capacity valid.power rounds full
  obtain ⟨junk, rfl⟩ := Option.isSome_iff_exists.mp granted
  have headInside := valid.headInside
  have bytes : mulSize newCapacity queue.mItemSize = queue.mItemSize * newCapacity := by
    rw [Nat.mul_comm] at bounded
    rw [mulSize_exact bounded, Nat.mul_comm]
  obtain ⟨block, served⟩ : ∃ block, realloc (some junk) queue.mData
      (queue.mItemSize * newCapacity) = some block := ⟨_, rfl⟩
  have longer : queue.mData.length ≤ queue.mItemSize * newCapacity := by
    rw [valid.block]
    exact Nat.mul_le_mul_left _ (by omega)
  have length := realloc_length served
  obtain ⟨fresh, rfl⟩ := realloc_prefix served longer
  obtain ⟨data, moves, long, inPlace, moved⟩ := relocated valid doubled bounded length
  refine ⟨{ queue with mData := data, mTailPos := queue.mHeadPos + queue.mSize,
                       mCapacity := newCapacity }, ?_, ?_⟩
  · have reallocated : queue.reallocate newCapacity (some junk) =
        .ok (asockSuccess, { queue with mData := queue.mData ++ fresh }) := by
      unfold Tsqueue.reallocate
      rw [if_pos (by omega), bytes, served]
    unfold Tsqueue.grow
    rw [stops]
    simp only [bind, Except.bind, reallocated, if_pos, moves, pure, Except.pure]
  · have sized := valid.sized
    have grownContent : window (slot queue.mItemSize data) newCapacity queue.mHeadPos queue.mSize =
        content queue :=
      window_regrown headInside sized doubled (fun pos inside _ => inPlace pos inside) moved
    have sizedGrown : queue.mSize ≤ newCapacity := by omega
    have headGrown : queue.mHeadPos < newCapacity := by omega
    have sumGrown : queue.mHeadPos + queue.mSize < newCapacity := by omega
    exact ⟨⟨valid.width, long, bounded, isPower, sizedGrown, headGrown,
      (Nat.mod_eq_of_lt sumGrown).symm⟩, grownContent, rfl, rfl, room⟩

end Growth

section Enqueue

/-- The copy step writes the items behind the tail, around the end of the block
when needed, and nothing else. -/
structure WrittenBehind (queue : Tsqueue) (src : List Byte) (itemCount : Nat)
    (data : List Byte) : Prop where
  length : data.length = queue.mData.length
  written : ∀ offset, offset < itemCount →
    slot queue.mItemSize data ((queue.mTailPos + offset) % queue.mCapacity) =
      slot queue.mItemSize src offset
  kept : ∀ pos, pos < queue.mCapacity →
    (∀ offset, offset < itemCount → pos ≠ (queue.mTailPos + offset) % queue.mCapacity) →
    slot queue.mItemSize data pos = cell queue pos

theorem written_one_batch {queue : Tsqueue} {src : List Byte} {itemCount : Nat}
    (valid : Valid queue) (source : queue.mItemSize * itemCount ≤ src.length)
    (room : queue.mTailPos + itemCount ≤ queue.mCapacity) :
    ∃ data, memcpy queue.mData (queue.mItemSize * queue.mTailPos) src 0
        (queue.mItemSize * itemCount) = .ok data ∧ WrittenBehind queue src itemCount data := by
  have inside : queue.mItemSize * queue.mTailPos + queue.mItemSize * itemCount ≤
      queue.mData.length := by
    rw [valid.block, ← Nat.mul_add]
    exact Nat.mul_le_mul_left _ room
  obtain ⟨data, copies, copied⟩ := memcpy_copied _ _ src 0 _ inside (by omega)
  have cells := fun index => copied_slot queue.mTailPos 0
    (by simpa only [Nat.mul_zero] using copied) index
  refine ⟨data, copies, copied.1, ?_, ?_⟩
  · intro offset member
    rw [Nat.mod_eq_of_lt (by omega), cells, if_pos (by omega)]
    congr 1
    omega
  · intro pos bounded untouched
    rw [cells, if_neg]
    · rfl
    · intro hit
      apply untouched (pos - queue.mTailPos) (by omega)
      rw [Nat.add_sub_cancel' hit.1, Nat.mod_eq_of_lt bounded]

theorem written_two_batches {queue : Tsqueue} {src : List Byte} {itemCount : Nat}
    (valid : Valid queue) (source : queue.mItemSize * itemCount ≤ src.length)
    (once : itemCount ≤ queue.mCapacity) (wraps : queue.mCapacity < queue.mTailPos + itemCount) :
    ∃ first data, memcpy queue.mData (queue.mItemSize * queue.mTailPos) src 0
        (queue.mItemSize * (queue.mCapacity - queue.mTailPos)) = .ok first ∧
      memcpy first 0 src (queue.mItemSize * (queue.mCapacity - queue.mTailPos))
        (queue.mItemSize * (itemCount - (queue.mCapacity - queue.mTailPos))) = .ok data ∧
      WrittenBehind queue src itemCount data := by
  have tailInside := tail_inside valid
  have firstEnds : queue.mItemSize * queue.mTailPos +
      queue.mItemSize * (queue.mCapacity - queue.mTailPos) = queue.mData.length := by
    rw [valid.block, ← Nat.mul_add, Nat.add_sub_cancel' (Nat.le_of_lt tailInside)]
  have sourceSplit : queue.mItemSize * (queue.mCapacity - queue.mTailPos) +
      queue.mItemSize * (itemCount - (queue.mCapacity - queue.mTailPos)) =
      queue.mItemSize * itemCount := by
    rw [← Nat.mul_add, Nat.add_sub_cancel' (by omega)]
  obtain ⟨first, firstCopies, firstCopied⟩ := memcpy_copied
    queue.mData (queue.mItemSize * queue.mTailPos) src 0
    (queue.mItemSize * (queue.mCapacity - queue.mTailPos)) (by omega) (by omega)
  have secondInside : queue.mItemSize * (itemCount - (queue.mCapacity - queue.mTailPos)) ≤
      queue.mItemSize * queue.mCapacity := Nat.mul_le_mul_left _ (by omega)
  obtain ⟨data, secondCopies, secondCopied⟩ := memcpy_copied
    first 0 src (queue.mItemSize * (queue.mCapacity - queue.mTailPos))
    (queue.mItemSize * (itemCount - (queue.mCapacity - queue.mTailPos)))
    (by rw [firstCopied.1, valid.block]; omega) (by omega)
  have firstCells := fun index => copied_slot queue.mTailPos 0
    (by simpa only [Nat.mul_zero] using firstCopied) index
  have secondCells := fun index => copied_slot 0 (queue.mCapacity - queue.mTailPos)
    (by simpa only [Nat.mul_zero] using secondCopied) index
  refine ⟨first, data, firstCopies, secondCopies, secondCopied.1.trans firstCopied.1, ?_, ?_⟩
  · intro offset member
    rw [wrap_once tailInside (by omega), secondCells]
    split
    · rw [if_neg (by omega), firstCells, if_pos (by omega)]
      congr 1
      omega
    · rw [if_pos (by omega)]
      congr 1
      omega
  · intro pos bounded untouched
    -- a position is hit by the second batch before the tail and by the first one behind it
    have notSecond : ¬ pos < itemCount - (queue.mCapacity - queue.mTailPos) := by
      intro hit
      apply untouched (queue.mCapacity - queue.mTailPos + pos) (by omega)
      rw [show queue.mTailPos + (queue.mCapacity - queue.mTailPos + pos) = pos + queue.mCapacity
        by omega, Nat.add_mod_right, Nat.mod_eq_of_lt bounded]
    have notFirst : ¬ queue.mTailPos ≤ pos := by
      intro hit
      apply untouched (pos - queue.mTailPos) (by omega)
      rw [Nat.add_sub_cancel' hit, Nat.mod_eq_of_lt bounded]
    rw [secondCells, if_neg (by omega), firstCells, if_neg (by omega)]
    rfl

/-- The queue after the copy step, for any block written behind the tail. -/
def advanced (queue : Tsqueue) (itemCount : Nat) (data : List Byte) : Tsqueue :=
  { queue with
    mData := data
    mTailPos := (queue.mTailPos + itemCount) % queue.mCapacity
    mSize := queue.mSize + itemCount }

theorem advanced_spec {queue : Tsqueue} {src data : List Byte} {itemCount : Nat}
    (valid : Valid queue) (room : queue.mSize + itemCount ≤ queue.mCapacity)
    (written : WrittenBehind queue src itemCount data) :
    Valid (advanced queue itemCount data) ∧
      content (advanced queue itemCount data) =
        content queue ++ slots queue.mItemSize src itemCount := by
  constructor
  · refine ⟨valid.width, written.length.trans valid.block, valid.inside, valid.power, room,
      valid.headInside, ?_⟩
    simp only [advanced, valid.tail, Nat.mod_add_mod, Nat.add_assoc]
  · have added : window (slot queue.mItemSize data) queue.mCapacity queue.mTailPos itemCount =
        slots queue.mItemSize src itemCount := by
      apply List.map_congr_left
      intro offset member
      exact written.written offset (List.mem_range.mp member)
    have kept : ∀ offset, offset < queue.mSize →
        slot queue.mItemSize data ((queue.mHeadPos + offset) % queue.mCapacity) =
          cell queue ((queue.mHeadPos + offset) % queue.mCapacity) := by
      intro offset member
      apply written.kept _ (Nat.mod_lt _ (by have := valid.headInside; omega))
      intro later inside
      rw [valid.tail, Nat.mod_add_mod, Nat.add_assoc]
      exact window_cells_apart (by omega) (by omega)
    have written : window (slot queue.mItemSize data) queue.mCapacity
        ((queue.mHeadPos + queue.mSize) % queue.mCapacity)
        (slots queue.mItemSize src itemCount).length = slots queue.mItemSize src itemCount := by
      rw [slots_length, ← valid.tail]
      exact added
    have extended := window_extend kept written
    rw [slots_length] at extended
    exact extended

theorem copyIn_spec {queue : Tsqueue} {src : List Byte} {itemCount : Nat} (valid : Valid queue)
    (source : queue.mItemSize * itemCount ≤ src.length)
    (room : queue.mSize + itemCount ≤ queue.mCapacity) :
    ∃ data, queue.copyIn src itemCount = .ok (advanced queue itemCount data) ∧
      WrittenBehind queue src itemCount data := by
  have tailInside := tail_inside valid
  have capacityInside := capacity_inside valid
  have front := space_exact valid (Nat.le_of_lt tailInside)
  have tailBytes := bytes_exact valid (Nat.le_of_lt tailInside)
  have countBytes := bytes_exact valid (show itemCount ≤ queue.mCapacity by omega)
  have frontBytes := bytes_exact valid (Nat.sub_le queue.mCapacity queue.mTailPos)
  have newSize : addSize queue.mSize itemCount = queue.mSize + itemCount :=
    addSize_exact (by omega)
  by_cases single : itemCount ≤ queue.mCapacity - queue.mTailPos
  · obtain ⟨data, copies, written⟩ := written_one_batch valid source (by omega)
    have newTail : addSize queue.mTailPos itemCount = queue.mTailPos + itemCount :=
      addSize_exact (by omega)
    have wrap : (if queue.mTailPos + itemCount = queue.mCapacity then 0
        else queue.mTailPos + itemCount) = (queue.mTailPos + itemCount) % queue.mCapacity :=
      wrap_end (by omega)
    refine ⟨data, ?_, written⟩
    simp only [Tsqueue.copyIn, front, if_pos single, tailBytes, countBytes, copies, newTail,
      newSize, wrap, bind, Except.bind, pure, Except.pure, advanced]
  · obtain ⟨first, data, firstCopies, secondCopies, written⟩ :=
      written_two_batches valid source (by omega) (by omega)
    have second : subSize itemCount (queue.mCapacity - queue.mTailPos) =
        itemCount - (queue.mCapacity - queue.mTailPos) := subSize_exact (by omega) (by omega)
    have secondBytes := bytes_exact valid
      (show itemCount - (queue.mCapacity - queue.mTailPos) ≤ queue.mCapacity by omega)
    have wrap : (if itemCount - (queue.mCapacity - queue.mTailPos) = queue.mCapacity then 0
        else itemCount - (queue.mCapacity - queue.mTailPos)) =
          (queue.mTailPos + itemCount) % queue.mCapacity :=
      wrap_past tailInside (by omega) (by omega)
    refine ⟨data, ?_, written⟩
    simp only [Tsqueue.copyIn, front, if_neg single, tailBytes, frontBytes, firstCopies, second,
      secondBytes, secondCopies, newSize, wrap, bind, Except.bind, pure, Except.pure, advanced]

/-- A call whose `realloc`, if it asks for one, succeeds appends the caller's items. -/
theorem enqueue_appends {queue : Tsqueue} {src : List Byte} {itemCount : Nat} {answer : Allocation}
    (valid : Valid queue) (rounds : RoundsInside queue.mItemSize (queue.mSize + itemCount))
    (source : queue.mItemSize * itemCount ≤ src.length) (granted : answer.isSome) :
    ∃ after, queue.enqueue src itemCount answer = .ok (asockSuccess, after) ∧ Valid after ∧
      content after = content queue ++ slots queue.mItemSize src itemCount ∧
      after.mItemSize = queue.mItemSize := by
  have sum := rounds.addSize
  by_cases full : queue.mCapacity < queue.mSize + itemCount
  · obtain ⟨grown, grows, spec⟩ := grow_spec valid rounds full granted
    obtain ⟨data, copies, written⟩ := copyIn_spec spec.valid
      (by rw [spec.itemSize]; exact source) (by rw [spec.size]; exact spec.room)
    have result := advanced_spec spec.valid (by rw [spec.size]; exact spec.room) written
    rw [spec.content, spec.itemSize] at result
    refine ⟨advanced grown itemCount data, ?_, result.1, result.2, spec.itemSize⟩
    simp only [Tsqueue.enqueue, sum, if_pos full, grows, copies, bind, Except.bind, pure,
      Except.pure, if_true]
  · obtain ⟨data, copies, written⟩ := copyIn_spec valid source (by omega)
    have result := advanced_spec valid (by omega) written
    refine ⟨advanced queue itemCount data, ?_, result.1, result.2, rfl⟩
    simp only [Tsqueue.enqueue, sum, if_neg full, copies, bind, Except.bind, pure, Except.pure,
      if_true]

theorem enqueue_spec {queue : Tsqueue} {src : List Byte} {itemCount : Nat} {answer : Allocation}
    (valid : Valid queue) (addressable : Addressable queue itemCount)
    (source : queue.mItemSize * itemCount ≤ src.length) (granted : answer.isSome) :
    ∃ after, queue.enqueue src itemCount answer = .ok (asockSuccess, after) ∧ Valid after ∧
      content after = content queue ++ slots queue.mItemSize src itemCount ∧
      after.mItemSize = queue.mItemSize :=
  enqueue_appends valid (addressable_rounds valid addressable) source granted

end Enqueue

section Dequeue

/-- The bytes of the first `count` items, written over the caller's block. -/
def delivered (queue : Tsqueue) (count : Nat) (block : List Byte) : List Byte :=
  ((content queue).take count).flatten ++ block.drop (queue.mItemSize * count)

/-- The queue without its first `count` items. -/
def shortened (queue : Tsqueue) (count : Nat) : Tsqueue :=
  { queue with
    mHeadPos := (queue.mHeadPos + count) % queue.mCapacity
    mSize := queue.mSize - count }

theorem shortened_spec {queue : Tsqueue} {count : Nat} (valid : Valid queue)
    (bounded : count ≤ queue.mSize) :
    Valid (shortened queue count) ∧
      content (shortened queue count) = (content queue).drop count := by
  constructor
  · refine ⟨valid.width, valid.block, valid.inside, valid.power, ?_,
      Nat.mod_lt _ (Nat.lt_of_le_of_lt (Nat.zero_le _) valid.headInside), ?_⟩
    · exact Nat.le_trans (Nat.sub_le ..) valid.sized
    · simp only [shortened, valid.tail, Nat.mod_add_mod]
      congr 1
      omega
  · exact (window_drop (cell queue) queue.mCapacity queue.mHeadPos bounded).symm

/-- Reading a straight run of items out of the block. -/
theorem straight_bytes (queue : Tsqueue) (first count : Nat) :
    (straight (cell queue) first count).flatten =
      (queue.mData.drop (queue.mItemSize * first)).take (queue.mItemSize * count) :=
  slots_bytes ..

theorem copyOut_one_batch {queue : Tsqueue} {count : Nat} {dst : Option (List Byte)}
    (valid : Valid queue) (bounded : count ≤ queue.mSize)
    (straightRun : queue.mHeadPos + count ≤ queue.mCapacity)
    (room : ∀ block ∈ dst, queue.mItemSize * count ≤ block.length) :
    queue.copyOut dst 0 (queue.mItemSize * queue.mHeadPos) (queue.mItemSize * count) =
      .ok (dst.map (delivered queue count)) := by
  cases dst with
  | none => rfl
  | some block =>
      have fits := room block rfl
      have source : queue.mItemSize * queue.mHeadPos + queue.mItemSize * count ≤
          queue.mData.length := by
        rw [valid.block, ← Nat.mul_add]
        exact Nat.mul_le_mul_left _ straightRun
      have bytes : ((content queue).take count).flatten =
          (queue.mData.drop (queue.mItemSize * queue.mHeadPos)).take (queue.mItemSize * count) := by
        rw [content, window_take _ _ _ bounded, window_straight _ straightRun, straight_bytes]
      rw [Tsqueue.copyOut, memcpy_ok (by omega) source]
      simp [Except.map, delivered, bytes]

theorem copyOut_two_batches {queue : Tsqueue} {count : Nat} {dst : Option (List Byte)}
    (valid : Valid queue) (bounded : count ≤ queue.mSize)
    (wraps : queue.mCapacity < queue.mHeadPos + count)
    (room : ∀ block ∈ dst, queue.mItemSize * count ≤ block.length) :
    ∃ first, queue.copyOut dst 0 (queue.mItemSize * queue.mHeadPos)
        (queue.mItemSize * (queue.mCapacity - queue.mHeadPos)) = .ok first ∧
      queue.copyOut first (queue.mItemSize * (queue.mCapacity - queue.mHeadPos)) 0
        (queue.mItemSize * (count - (queue.mCapacity - queue.mHeadPos))) =
      .ok (dst.map (delivered queue count)) := by
  cases dst with
  | none => exact ⟨none, rfl, rfl⟩
  | some block =>
      have fits := room block rfl
      have sized := valid.sized
      have headInside := valid.headInside
      have firstEnds : queue.mItemSize * queue.mHeadPos +
          queue.mItemSize * (queue.mCapacity - queue.mHeadPos) = queue.mData.length := by
        rw [valid.block, ← Nat.mul_add, Nat.add_sub_cancel' (Nat.le_of_lt headInside)]
      have countSplit : queue.mItemSize * (queue.mCapacity - queue.mHeadPos) +
          queue.mItemSize * (count - (queue.mCapacity - queue.mHeadPos)) =
          queue.mItemSize * count := by
        rw [← Nat.mul_add, Nat.add_sub_cancel' (by omega)]
      have secondInside : queue.mItemSize * (count - (queue.mCapacity - queue.mHeadPos)) ≤
          queue.mData.length := by
        rw [valid.block]
        exact Nat.mul_le_mul_left _ (by omega)
      have bytes : ((content queue).take count).flatten =
          (queue.mData.drop (queue.mItemSize * queue.mHeadPos)).take
              (queue.mItemSize * (queue.mCapacity - queue.mHeadPos)) ++
            (queue.mData.drop 0).take
              (queue.mItemSize * (count - (queue.mCapacity - queue.mHeadPos))) := by
        have restCount : queue.mHeadPos + count - queue.mCapacity =
            count - (queue.mCapacity - queue.mHeadPos) := by omega
        rw [content, window_take _ _ _ bounded, window_wrapped _ headInside (by omega) (by omega),
          List.flatten_append, straight_bytes, straight_bytes, Nat.mul_zero, restCount]
      obtain ⟨middle, firstCopies, secondCopies⟩ := memcpy_consecutive
        (show _ ≤ block.length by rw [countSplit]; exact fits) (Nat.le_of_eq firstEnds)
        (show 0 + _ ≤ queue.mData.length by rw [Nat.zero_add]; exact secondInside)
      refine ⟨some middle, ?_, ?_⟩
      · rw [Tsqueue.copyOut, firstCopies]
        rfl
      · rw [Tsqueue.copyOut, secondCopies, countSplit, ← bytes]
        rfl

/-- A call returns and removes exactly the first `min dstCapacity size` items. -/
theorem dequeue_spec {queue : Tsqueue} (dst : Option (List Byte)) (dstCapacity : Nat)
    (valid : Valid queue)
    (room : ∀ block ∈ dst, queue.mItemSize * min dstCapacity queue.mSize ≤ block.length) :
    queue.dequeue dst dstCapacity =
      .ok (min dstCapacity queue.mSize,
        dst.map (delivered queue (min dstCapacity queue.mSize)),
        shortened queue (min dstCapacity queue.mSize)) := by
  have sized := valid.sized
  have headInside := valid.headInside
  have half := capacity_half valid
  have bounded : min dstCapacity queue.mSize ≤ queue.mSize := Nat.min_le_right ..
  unfold Tsqueue.dequeue
  generalize min dstCapacity queue.mSize = count at *
  have capacityInside := capacity_inside valid
  have sum : addSize queue.mHeadPos count = queue.mHeadPos + count := addSize_exact (by omega)
  have headBytes := bytes_exact valid (Nat.le_of_lt headInside)
  have countBytes := bytes_exact valid (Nat.le_trans bounded sized)
  have newSize : subSize queue.mSize count = queue.mSize - count :=
    subSize_exact bounded (by omega)
  by_cases straightRun : queue.mHeadPos + count ≤ queue.mCapacity
  · have wrap : (if queue.mHeadPos + count = queue.mCapacity then 0 else queue.mHeadPos + count) =
        (queue.mHeadPos + count) % queue.mCapacity := wrap_end straightRun
    simp only [sum, if_pos straightRun, headBytes, countBytes, newSize, wrap, shortened,
      copyOut_one_batch valid bounded straightRun room, bind, Except.bind, pure, Except.pure]
  · have front := space_exact valid (Nat.le_of_lt headInside)
    have second : subSize count (queue.mCapacity - queue.mHeadPos) =
        count - (queue.mCapacity - queue.mHeadPos) := subSize_exact (by omega) (by omega)
    have frontBytes := bytes_exact valid (Nat.sub_le queue.mCapacity queue.mHeadPos)
    have secondBytes := bytes_exact valid
      (show count - (queue.mCapacity - queue.mHeadPos) ≤ queue.mCapacity by omega)
    have wrap : (if count - (queue.mCapacity - queue.mHeadPos) = queue.mCapacity then 0
        else count - (queue.mCapacity - queue.mHeadPos)) =
          (queue.mHeadPos + count) % queue.mCapacity :=
      wrap_past headInside (Nat.le_trans bounded sized) (Nat.lt_of_not_le straightRun)
    obtain ⟨first, firstCopies, secondCopies⟩ :=
      copyOut_two_batches valid bounded (by omega) room
    simp only [sum, if_neg straightRun, front, second, headBytes, frontBytes, secondBytes,
      firstCopies, secondCopies, newSize, wrap, shortened, bind, Except.bind, pure, Except.pure]

end Dequeue

theorem create_shape {answers : CreateAnswers} {itemSize capacity : Nat} {queue : Tsqueue}
    (created : Tsqueue.create answers itemSize capacity = .ok (some queue)) :
    ∃ rightCapacity data, doubleUntil doublingFuel 1 capacity = .ok rightCapacity ∧
      malloc answers.dataAlloc (max (mulSize itemSize rightCapacity) 1) = some data ∧
      queue = ⟨data, 0, rightCapacity, itemSize, 0, 0⟩ := by
  obtain ⟨rightCapacity, stops, created⟩ := sequenced created
  split at created
  case isTrue => cases created
  split at created
  case isTrue => cases created
  cases served : malloc answers.dataAlloc (max (mulSize itemSize rightCapacity) 1) with
  | none =>
      simp only [served] at created
      cases created
  | some data =>
      simp only [served] at created
      cases created
      exact ⟨rightCapacity, data, stops, served, rfl⟩

theorem create_capacity {answers : CreateAnswers} {itemSize capacity : Nat} {queue : Tsqueue}
    (created : Tsqueue.create answers itemSize capacity = .ok (some queue)) :
    ∃ order, queue.mCapacity = 2 ^ order ∧ order < 64 ∧ capacity ≤ queue.mCapacity := by
  obtain ⟨rightCapacity, data, stops, _, rfl⟩ := create_shape created
  exact doubling_power (show 0 < 64 by decide) stops

theorem create_spec {answers : CreateAnswers} {itemSize capacity : Nat} {queue : Tsqueue}
    (created : Tsqueue.create answers itemSize capacity = .ok (some queue)) (wide : 1 ≤ itemSize)
    (fits : itemSize * queue.mCapacity < sizeBound) :
    Valid queue ∧ content queue = [] ∧ queue.mItemSize = itemSize := by
  obtain ⟨order, isPower, _, _⟩ := create_capacity created
  obtain ⟨rightCapacity, data, _, served, rfl⟩ := create_shape created
  have long := malloc_length served
  have positive : 0 < rightCapacity := by
    change rightCapacity = 2 ^ order at isPower
    rw [isPower]
    exact Nat.two_pow_pos order
  have bytes : 0 < itemSize * rightCapacity := Nat.mul_pos wide positive
  rw [mulSize_exact fits, Nat.max_eq_left bytes] at long
  exact ⟨⟨wide, long, fits, ⟨order, isPower⟩, Nat.zero_le _, positive,
    (Nat.zero_mod _).symm⟩, rfl, rfl⟩

theorem clear_spec {queue : Tsqueue} (valid : Valid queue) :
    Valid queue.clear ∧ content queue.clear = [] := by
  have positive : 0 < queue.mCapacity := Nat.lt_of_le_of_lt (Nat.zero_le _) valid.headInside
  exact ⟨⟨valid.width, valid.block, valid.inside, valid.power, Nat.zero_le _, positive,
    (Nat.zero_mod _).symm⟩, rfl⟩

theorem forEach_spec {queue : Tsqueue} (valid : Valid queue) :
    queue.forEach = (content queue).zipIdx := by
  have half := capacity_half valid
  have sized := valid.sized
  have headInside := valid.headInside
  apply List.ext_getElem
  · simp [Tsqueue.forEach]
  · intro index left right
    have inside : index < queue.mSize := by simpa [Tsqueue.forEach] using left
    have sum : addSize queue.mHeadPos index = queue.mHeadPos + index := addSize_exact (by omega)
    simp [Tsqueue.forEach, content, window, cell, sum]

section HeadPositions

variable {queue after : Tsqueue} {src : List Byte} {itemCount : Nat} {answer : Allocation}
  {code : AsockReturnCode}

/-- Relocation changes the block and the tail only. -/
theorem relocated_shape (relocates : queue.relocateHead = .ok after) :
    after = { queue with mData := after.mData, mTailPos := after.mTailPos } := by
  unfold Tsqueue.relocateHead at relocates
  split at relocates
  · obtain ⟨data, _, same⟩ := sequenced relocates
    cases same
    rfl
  · cases relocates
    rfl

/-- The stages of a growth that was granted its block. -/
theorem grown_shape {junk : Nat → Byte}
    (grows : queue.grow itemCount (some junk) = .ok (code, after)) :
    ∃ newCapacity block relocated,
      doubleUntil doublingFuel (mulSize queue.mCapacity 2) (addSize queue.mSize itemCount) =
        .ok newCapacity ∧
      queue.mCapacity < newCapacity ∧
      realloc (some junk) queue.mData (mulSize newCapacity queue.mItemSize) = some block ∧
      Tsqueue.relocateHead { queue with mData := block } = .ok relocated ∧
      code = asockSuccess ∧ after = { relocated with mCapacity := newCapacity } := by
  obtain ⟨newCapacity, stops, grows⟩ := sequenced grows
  obtain ⟨reallocated, reallocates, grows⟩ := sequenced grows
  unfold Tsqueue.reallocate at reallocates
  split at reallocates
  case isFalse => cases reallocates
  case isTrue larger =>
    cases served : realloc (some junk) queue.mData (mulSize newCapacity queue.mItemSize) with
    | none => cases served
    | some block =>
        rw [served] at reallocates
        cases reallocates
        obtain ⟨relocated, relocates, same⟩ := sequenced grows
        cases same
        exact ⟨newCapacity, block, relocated, stops, larger, served, relocates, rfl, rfl⟩

theorem refused_shape (grows : queue.grow itemCount none = .ok (code, after)) :
    code = asockErrNomem ∧ after = { queue with mData := [] } := by
  obtain ⟨newCapacity, _, grows⟩ := sequenced grows
  obtain ⟨reallocated, reallocates, grows⟩ := sequenced grows
  unfold Tsqueue.reallocate at reallocates
  split at reallocates
  case isFalse => cases reallocates
  case isTrue =>
    cases reallocates
    cases grows
    exact ⟨rfl, rfl⟩

theorem grown_headPos (grows : queue.grow itemCount answer = .ok (code, after)) :
    after.mHeadPos = queue.mHeadPos := by
  cases answer with
  | none =>
      obtain ⟨_, rfl⟩ := refused_shape grows
      rfl
  | some junk =>
      obtain ⟨newCapacity, block, relocated, _, _, _, relocates, _, rfl⟩ := grown_shape grows
      rw [relocated_shape relocates]

theorem copied_shape (copies : queue.copyIn src itemCount = .ok after) :
    after = { queue with mData := after.mData, mTailPos := after.mTailPos,
                         mSize := addSize queue.mSize itemCount } := by
  unfold Tsqueue.copyIn at copies
  dsimp only at copies
  split at copies
  · obtain ⟨data, _, same⟩ := sequenced copies
    cases same
    rfl
  · obtain ⟨first, _, rest⟩ := sequenced copies
    obtain ⟨data, _, same⟩ := sequenced rest
    cases same
    rfl

theorem copied_headPos (copies : queue.copyIn src itemCount = .ok after) :
    after.mHeadPos = queue.mHeadPos := by
  rw [copied_shape copies]

/-- An enqueue writes behind the tail, and the head stays where it is. -/
theorem enqueue_headPos (enqueues : queue.enqueue src itemCount answer = .ok (code, after)) :
    after.mHeadPos = queue.mHeadPos := by
  have stored : ∀ grown : AsockReturnCode × Tsqueue, grown.2.mHeadPos = queue.mHeadPos →
      (if grown.1 = asockSuccess then do
        let queue ← grown.2.copyIn src itemCount
        return (asockSuccess, queue)
      else return grown : Outcome (AsockReturnCode × Tsqueue)) = .ok (code, after) →
        after.mHeadPos = queue.mHeadPos := by
    intro grown kept stores
    split at stores
    · obtain ⟨copied, copies, same⟩ := sequenced stores
      cases same
      exact (copied_headPos copies).trans kept
    · cases stores
      exact kept
  unfold Tsqueue.enqueue at enqueues
  dsimp only at enqueues
  split at enqueues
  · obtain ⟨grown, grows, stores⟩ := sequenced enqueues
    exact stored grown (grown_headPos grows) stores
  · exact stored (asockSuccess, queue) rfl enqueues

end HeadPositions

section HeadChunk

variable {queue : Tsqueue} (valid : Valid queue)
include valid

theorem headSize_exact :
    queue.headSize = min queue.mSize (queue.mCapacity - queue.mHeadPos) := by
  rw [Tsqueue.headSize, subSize_exact (Nat.le_of_lt valid.headInside) (capacity_inside valid)]

theorem headSize_zero : queue.headSize = 0 ↔ queue.mSize = 0 := by
  have headInside := valid.headInside
  rw [headSize_exact valid]
  omega

/-- The bytes behind the head pointer, as many as `headSize` items, are the first items. -/
theorem head_chunk {count : Nat} (bounded : count ≤ queue.headSize) (pending : queue.mSize ≠ 0) :
    ∃ position, queue.head = some position ∧
      (queue.mData.drop position).take (queue.mItemSize * count) =
        ((content queue).take count).flatten ∧
      position + queue.mItemSize * count ≤ queue.mData.length := by
  have headInside := valid.headInside
  rw [headSize_exact valid] at bounded
  refine ⟨queue.mItemSize * queue.mHeadPos, ?_, ?_, ?_⟩
  · rw [Tsqueue.head, if_neg pending, bytes_exact valid (Nat.le_of_lt headInside)]
  · rw [content, window_take _ _ _ (by omega), window_straight _ (by omega), straight_bytes]
  · rw [valid.block, ← Nat.mul_add]
    exact Nat.mul_le_mul_left _ (by omega)

end HeadChunk

theorem content_uniform {queue : Tsqueue} (valid : Valid queue) :
    ∀ item ∈ content queue, item.length = queue.mItemSize := by
  intro item member
  obtain ⟨offset, _, same⟩ := List.mem_map.mp member
  subst same
  have positive : 0 < queue.mCapacity := Nat.lt_of_le_of_lt (Nat.zero_le _) valid.headInside
  exact slot_length (Nat.le_of_eq valid.block.symm) (Nat.mod_lt _ positive)

/-! The two queues of a connection hold single bytes. -/
section Bytes

structure HoldsBytes (queue : Tsqueue) (bytes : List Byte) : Prop where
  valid : Valid queue
  itemSize : queue.mItemSize = 1
  bytes : (content queue).flatten = bytes

variable {queue : Tsqueue} {bytes : List Byte}

theorem HoldsBytes.length (holds : HoldsBytes queue bytes) : queue.mSize = bytes.length := by
  have whole := flatten_take (content_uniform holds.valid) queue.mSize
  rw [List.take_of_length_le (Nat.le_of_eq (content_length queue)), holds.bytes, holds.itemSize,
    Nat.one_mul] at whole
  have counted : bytes.length = ((content queue).map List.length).sum := by
    rw [← holds.bytes, List.length_flatten]
  have ones : (content queue).map List.length = List.replicate queue.mSize 1 := by
    rw [List.eq_replicate_iff]
    refine ⟨by simp, ?_⟩
    intro size member
    obtain ⟨item, inside, same⟩ := List.mem_map.mp member
    rw [← same, content_uniform holds.valid item inside, holds.itemSize]
  rw [counted, ones]
  simp

theorem HoldsBytes.take (holds : HoldsBytes queue bytes) (count : Nat) :
    ((content queue).take count).flatten = bytes.take count := by
  rw [flatten_take (content_uniform holds.valid), holds.itemSize, Nat.one_mul, holds.bytes]

theorem HoldsBytes.shortened (holds : HoldsBytes queue bytes) {count : Nat}
    (bounded : count ≤ bytes.length) :
    HoldsBytes (shortened queue count) (bytes.drop count) := by
  have inside : count ≤ queue.mSize := by
    rw [holds.length]
    exact bounded
  have short := shortened_spec holds.valid inside
  refine ⟨short.1, holds.itemSize, ?_⟩
  rw [short.2, flatten_drop (content_uniform holds.valid), holds.itemSize, Nat.one_mul,
    holds.bytes]

theorem holds_created {answers : CreateAnswers} {capacity : Nat}
    (created : Tsqueue.create answers 1 capacity = .ok (some queue)) : HoldsBytes queue [] := by
  have fits : 1 * queue.mCapacity < sizeBound := by
    obtain ⟨order, power, small, _⟩ := create_capacity created
    rw [Nat.one_mul, power]
    exact Nat.pow_lt_pow_right (by decide) small
  obtain ⟨valid, empty, width⟩ := create_spec created (Nat.le_refl 1) fits
  exact ⟨valid, width, by rw [empty]; rfl⟩

theorem HoldsBytes.enqueue (holds : HoldsBytes queue bytes) {src : List Byte}
    {answer : Allocation} (addressable : bytes.length + src.length ≤ 2 ^ 63)
    (granted : answer.isSome) :
    ∃ after, queue.enqueue src src.length answer = .ok (asockSuccess, after) ∧
      HoldsBytes after (bytes ++ src) := by
  obtain ⟨after, enqueues, valid, appended, kept⟩ := enqueue_spec holds.valid
    (by rw [Addressable, holds.itemSize, holds.length, Nat.one_mul]; exact addressable)
    (by rw [holds.itemSize, Nat.one_mul]) granted
  refine ⟨after, enqueues, valid, kept.trans holds.itemSize, ?_⟩
  have single : ∀ block : List Byte, (block.map ([·])).flatten = block := by
    intro block
    induction block with
    | nil => rfl
    | cons byte rest ih => rw [List.map_cons, List.flatten_cons, ih]; rfl
  rw [appended, List.flatten_append, holds.bytes, holds.itemSize, slots_single, single]

/-- Dropping bytes at the head, with a `NULL` destination. -/
theorem HoldsBytes.pop (holds : HoldsBytes queue bytes) {count : Nat}
    (bounded : count ≤ bytes.length) :
    ∃ after, queue.dequeue none count = .ok (count, none, after) ∧
      HoldsBytes after (bytes.drop count) := by
  have dequeues := dequeue_spec none count holds.valid
    (fun _ absent => by cases absent)
  rw [holds.length, Nat.min_eq_left bounded] at dequeues
  exact ⟨_, dequeues, holds.shortened bounded⟩

theorem HoldsBytes.dequeue (holds : HoldsBytes queue bytes) {block : List Byte} {count : Nat}
    (room : count ≤ block.length) :
    ∃ after, queue.dequeue (some block) count =
        .ok (min count bytes.length, some (bytes.take count ++
          block.drop (min count bytes.length)), after) ∧
      HoldsBytes after (bytes.drop count) := by
  have size := holds.length
  have dequeues := dequeue_spec (some block) count holds.valid (by
    rintro other same
    cases same
    rw [holds.itemSize, Nat.one_mul]
    exact Nat.le_trans (Nat.min_le_left ..) room)
  have sameTake : bytes.take (min count bytes.length) = bytes.take count := by
    rw [List.take_eq_take_iff]
    omega
  have sameDrop : bytes.drop (min count bytes.length) = bytes.drop count := by
    rcases Nat.le_total count bytes.length with short | long
    · rw [Nat.min_eq_left short]
    · rw [Nat.min_eq_right long, List.drop_length, List.drop_of_length_le long]
  have short := holds.shortened (Nat.min_le_right count bytes.length)
  rw [sameDrop] at short
  refine ⟨_, ?_, short⟩
  rw [dequeues, size]
  simp only [Option.map_some, delivered, holds.itemSize, Nat.one_mul, holds.take, sameTake]

theorem HoldsBytes.head (holds : HoldsBytes queue bytes) {count : Nat}
    (bounded : count ≤ queue.headSize) (pending : bytes ≠ []) :
    ∃ position, queue.head = some position ∧
      (queue.mData.drop position).take count = bytes.take count := by
  have nonempty : queue.mSize ≠ 0 := by
    rw [holds.length]
    exact fun empty => pending (List.eq_nil_of_length_eq_zero empty)
  obtain ⟨position, points, chunk, _⟩ := head_chunk holds.valid bounded nonempty
  rw [holds.itemSize, Nat.one_mul, holds.take] at chunk
  exact ⟨position, points, chunk⟩

theorem HoldsBytes.headSize_le (holds : HoldsBytes queue bytes) :
    queue.headSize ≤ bytes.length := by
  rw [← holds.length, headSize_exact holds.valid]
  exact Nat.min_le_left ..

end Bytes

end Libasock.TsqueueContent
