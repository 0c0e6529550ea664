import Libasock.ConnectionObjects
import Libasock.GuardedRuns
import Libasock.HeadChunks
import Libasock.LockedRuns
import Libasock.QueueStatements

/-!
An enqueue whose `realloc` is refused. The histories here allow every answer of
the allocator, so a queue is either a valid ring or has lost its block, with
positions that would fit one; a later growth gives such a queue a block again,
with arbitrary bytes where the lost items were.
-/

namespace Libasock.FailedEnqueues
open ByteBlocks GuardedRuns ReturnCodes TsqueueModel TsqueueContent TsqueueRefinement HeadChunks
  ConnectionObjects
open LockedObjects QueueStatements

/-- What a caller promises, whatever the allocator answers. -/
def Promised (queue : Tsqueue) : Op → Prop
  | .enqueue src itemCount _ =>
      queue.mItemSize * itemCount ≤ src.length ∧ Addressable queue itemCount
  | .dequeue dst dstCapacity => ∀ block ∈ dst, queue.mItemSize * dstCapacity ≤ block.length
  | .clear => True

def step (queue : Tsqueue) (op : Op) : Option Tsqueue :=
  match perform queue op with
  | .ok result => some result.2
  | .error _ => none

/-- All that can be seen of a queue after some more calls. -/
def observe (queue : Tsqueue) (ops : List Op) :
    Outcome (List Reply × Nat × Nat × List Byte × List (List Byte × Nat)) := do
  let result ← performAll queue ops
  let chunk ← headChunk result.2
  return (result.1, result.2.size, result.2.capacity, chunk, result.2.forEach)

def Unchanged (before after : Tsqueue) : Prop := ∀ ops, observe after ops = observe before ops

/-- The queue whose block a refused `realloc` has replaced by `NULL`. -/
def lost (queue : Tsqueue) : Tsqueue := { queue with mData := [] }

/-- The positions are those of a valid ring over some block. -/
def Shaped (queue : Tsqueue) : Prop := ∃ data, Valid { queue with mData := data }

def Sturdy (queue : Tsqueue) : Prop := Valid queue ∨ queue.mData = [] ∧ Shaped queue

variable {queue after : Tsqueue} {src : List Byte} {itemCount : Nat}

theorem valid_shaped (valid : Valid queue) : Shaped queue := ⟨queue.mData, valid⟩

theorem sturdy_shaped (sturdy : Sturdy queue) : Shaped queue := by
  rcases sturdy with valid | ⟨_, shaped⟩
  · exact valid_shaped valid
  · exact shaped

theorem memcpy_null {size : Nat} (pos : Nat) (src : List Byte) (srcPos : Nat)
    (positive : 0 < size) :
    memcpy [] pos src srcPos size = .error .outOfBounds := by
  rw [memcpy, List.length_nil, if_neg]
  omega

section Enqueues

theorem enqueue_sum (shaped : Shaped queue) (addressable : Addressable queue itemCount) :
    addSize queue.mSize itemCount = queue.mSize + itemCount := by
  obtain ⟨data, valid⟩ := shaped
  have half := addressable_items valid addressable
  exact addSize_exact (by unfold sizeBound at *; simp only at half; omega)

/-- A queue with room asks for no memory. -/
theorem enqueue_unasked (left right : Allocation)
    (room : ¬ queue.mCapacity < addSize queue.mSize itemCount) :
    queue.enqueue src itemCount left = queue.enqueue src itemCount right := by
  simp only [Tsqueue.enqueue, if_neg room]

theorem refused_enqueue (src : List Byte) (shaped : Shaped queue) (addressable : Addressable queue itemCount)
    (full : queue.mCapacity < queue.mSize + itemCount) :
    queue.enqueue src itemCount none = .ok (asockErrNomem, lost queue) := by
  have sum := enqueue_sum shaped addressable
  obtain ⟨data, valid⟩ := shaped
  obtain ⟨newCapacity, stops, doubled, _, _, _, _⟩ := new_capacity valid addressable full
  have positive : 0 < queue.mCapacity := Nat.lt_of_le_of_lt (Nat.zero_le _) valid.headInside
  have reallocated : queue.reallocate newCapacity none = .ok (asockErrNomem, lost queue) := by
    simp only at doubled
    exact if_pos (by omega)
  have failed : ¬ asockErrNomem = asockSuccess := by decide
  simp only [sum] at stops
  simp only [Tsqueue.enqueue, sum, if_pos full, Tsqueue.grow, stops, reallocated, if_neg failed,
    bind, Except.bind, pure, Except.pure]

/-- The block a lost queue could have had for the allocator to answer as it does. -/
def regained (queue : Tsqueue) (junk : Nat → Byte) : Tsqueue :=
  { queue with mData := (List.range (queue.mItemSize * queue.mCapacity)).map junk }

theorem realloc_null (junk : Nat → Byte) {kept size : Nat} (longer : kept ≤ size) :
    realloc (some junk) [] size =
      realloc (some fun pos => junk (kept + pos)) ((List.range kept).map junk) size := by
  obtain ⟨more, rfl⟩ := Nat.exists_eq_add_of_le longer
  have whole : ((List.range kept).map junk).take (kept + more) = (List.range kept).map junk :=
    List.take_of_length_le (by simp)
  simp [realloc, whole, List.range_add, Function.comp_def]

theorem regained_valid (shaped : Shaped queue) (junk : Nat → Byte) :
    Valid (regained queue junk) := by
  obtain ⟨data, valid⟩ := shaped
  exact ⟨valid.width, by simp [regained], valid.inside, valid.power, valid.sized,
    valid.headInside, valid.tail⟩

/-- A lost queue that gets memory goes on like one with arbitrary items. -/
theorem lost_enqueue (null : queue.mData = []) (shaped : Shaped queue)
    (addressable : Addressable queue itemCount) (full : queue.mCapacity < queue.mSize + itemCount)
    (junk : Nat → Byte) :
    queue.enqueue src itemCount (some junk) =
      (regained queue junk).enqueue src itemCount
        (some fun pos => junk (queue.mItemSize * queue.mCapacity + pos)) := by
  have sum := enqueue_sum shaped addressable
  obtain ⟨data, valid⟩ := shaped
  obtain ⟨newCapacity, stops, doubled, _, _, bounded, _⟩ := new_capacity valid addressable full
  simp only at stops doubled bounded
  have bytes : mulSize newCapacity queue.mItemSize = queue.mItemSize * newCapacity := by
    rw [mulSize_exact (by rw [Nat.mul_comm]; exact bounded), Nat.mul_comm]
  have longer : queue.mItemSize * queue.mCapacity ≤ queue.mItemSize * newCapacity :=
    Nat.mul_le_mul_left _ (by omega)
  have reallocated : queue.reallocate newCapacity (some junk) =
      (regained queue junk).reallocate newCapacity
        (some fun pos => junk (queue.mItemSize * queue.mCapacity + pos)) := by
    simp only [Tsqueue.reallocate, regained, null, bytes, realloc_null junk longer]
  have grows : queue.grow itemCount (some junk) = (regained queue junk).grow itemCount
      (some fun pos => junk (queue.mItemSize * queue.mCapacity + pos)) := by
    have sameStops : doubleUntil doublingFuel (mulSize (regained queue junk).mCapacity 2)
        (addSize (regained queue junk).mSize itemCount) = .ok newCapacity := stops
    rw [Tsqueue.grow, Tsqueue.grow, stops, sameStops]
    simp only [bind, Except.bind, reallocated]
  have asks : queue.mCapacity < addSize queue.mSize itemCount := by rw [sum]; exact full
  have sameAsks : (regained queue junk).mCapacity <
      addSize (regained queue junk).mSize itemCount := asks
  rw [Tsqueue.enqueue, Tsqueue.enqueue, if_pos asks, if_pos sameAsks, grows]

/-- Without a block there is no room to copy a byte to. -/
theorem lost_copyIn (null : queue.mData = []) (shaped : Shaped queue)
    (room : queue.mSize + itemCount ≤ queue.mCapacity) (nonzero : 0 < itemCount) :
    queue.copyIn src itemCount = .error .outOfBounds := by
  obtain ⟨data, valid⟩ := shaped
  have width := valid.width
  have tailInside := tail_inside valid
  have front := space_exact valid (Nat.le_of_lt tailInside)
  have countBytes := bytes_exact valid (Nat.le_of_add_left_le room)
  have frontBytes := bytes_exact valid (Nat.sub_le queue.mCapacity queue.mTailPos)
  simp only at width tailInside front countBytes frontBytes
  unfold Tsqueue.copyIn
  by_cases single : itemCount ≤ queue.mCapacity - queue.mTailPos
  · have copies := memcpy_null (mulSize queue.mItemSize queue.mTailPos) src 0
      (Nat.mul_pos width nonzero)
    simp only [front, if_pos single, countBytes, null, copies, bind, Except.bind]
  · have positive : 0 < queue.mItemSize * (queue.mCapacity - queue.mTailPos) :=
      Nat.mul_pos width (by omega)
    have copies := memcpy_null (mulSize queue.mItemSize queue.mTailPos) src 0 positive
    simp only [front, if_neg single, frontBytes, null, copies, bind, Except.bind]

/-- Copying nothing, if it is not out of bounds, changes nothing. -/
theorem lost_copyIn_nothing (null : queue.mData = []) (shaped : Shaped queue)
    (copies : queue.copyIn src 0 = .ok after) : after = queue := by
  obtain ⟨data, valid⟩ := shaped
  have capacityInside := capacity_inside valid
  have tailInside := tail_inside valid
  have sized := valid.sized
  simp only at capacityInside tailInside sized
  have size : addSize queue.mSize 0 = queue.mSize := addSize_exact (by omega)
  have tail : addSize queue.mTailPos 0 = queue.mTailPos := addSize_exact (by omega)
  have bytes : mulSize queue.mItemSize 0 = 0 := by rw [mulSize, Nat.mul_zero, Nat.zero_mod]
  have inPlace : (if queue.mTailPos = queue.mCapacity then 0 else queue.mTailPos) =
      queue.mTailPos := if_neg (by omega)
  simp only [Tsqueue.copyIn, if_pos (Nat.zero_le _), bytes, null, bind, Except.bind, pure,
    Except.pure, size, tail, inPlace] at copies
  cases copied : memcpy [] (mulSize queue.mItemSize queue.mTailPos) src 0 0 with
  | error fault => simp [copied] at copies
  | ok block =>
      have gone : block = [] := by
        by_cases fits : mulSize queue.mItemSize queue.mTailPos + 0 ≤ ([] : List Byte).length ∧
            0 + 0 ≤ src.length
        · rw [memcpy, if_pos fits] at copied
          simpa using copied.symm
        · rw [memcpy, if_neg fits] at copied
          cases copied
      simp only [copied, gone, Except.ok.injEq] at copies
      rw [← copies, ← null]

end Enqueues

section Histories

/-- A call that copies nothing out leaves the block out of account. -/
theorem pop_any_block (data : List Byte) (count : Nat) :
    Tsqueue.dequeue { queue with mData := data } none count =
      (queue.dequeue none count).map fun result =>
        (result.1, result.2.1, { result.2.2 with mData := data }) := by
  simp only [Tsqueue.dequeue, Tsqueue.copyOut, bind, Except.bind, pure, Except.pure]
  split <;> rfl

/-- What a call copies out does not decide what it leaves. -/
theorem dequeue_leaves {dst out : Option (List Byte)} {count taken : Nat}
    (dequeues : queue.dequeue dst count = .ok (taken, out, after)) :
    queue.dequeue none count = .ok (taken, none, after) := by
  unfold Tsqueue.dequeue at dequeues ⊢
  dsimp only at dequeues ⊢
  split at dequeues
  case isTrue straight =>
    obtain ⟨block, _, same⟩ := sequenced dequeues
    cases same
    rw [if_pos straight]
    rfl
  case isFalse wraps =>
    obtain ⟨first, _, rest⟩ := sequenced dequeues
    obtain ⟨second, _, same⟩ := sequenced rest
    cases same
    rw [if_neg wraps]
    rfl

theorem lost_dequeue {dst out : Option (List Byte)} {count taken : Nat}
    (null : queue.mData = []) (shaped : Shaped queue)
    (dequeues : queue.dequeue dst count = .ok (taken, out, after)) :
    after.mData = [] ∧ Shaped after := by
  obtain ⟨data, valid⟩ := shaped
  have pops := dequeue_spec none count valid fun _ absent => by cases absent
  rw [pop_any_block, dequeue_leaves dequeues] at pops
  simp only [Except.map, Except.ok.injEq, Prod.mk.injEq] at pops
  have short := (shortened_spec valid (Nat.min_le_right count _)).1
  rw [← pops.2.2] at short
  refine ⟨?_, data, short⟩
  have left := dequeue_leaves dequeues
  simp only [Tsqueue.dequeue, Tsqueue.copyOut, bind, Except.bind, pure, Except.pure] at left
  split at left <;>
  · simp only [Except.ok.injEq, Prod.mk.injEq] at left
    rw [← left.2.2]
    exact null

theorem sturdy_enqueue {answer : Allocation} {code : AsockReturnCode} (sturdy : Sturdy queue)
    (source : queue.mItemSize * itemCount ≤ src.length)
    (addressable : Addressable queue itemCount)
    (enqueues : queue.enqueue src itemCount answer = .ok (code, after)) : Sturdy after := by
  have shaped := sturdy_shaped sturdy
  have sum := enqueue_sum shaped addressable
  by_cases full : queue.mCapacity < queue.mSize + itemCount
  · cases answer with
    | none =>
        rw [refused_enqueue src shaped addressable full] at enqueues
        cases enqueues
        exact .inr ⟨rfl, shaped⟩
    | some junk =>
        rcases sturdy with valid | ⟨null, _⟩
        · obtain ⟨next, served, nextValid, _, _⟩ :=
            enqueue_spec valid addressable source (show (some junk : Allocation).isSome from rfl)
          rw [served] at enqueues
          cases enqueues
          exact .inl nextValid
        · obtain ⟨next, served, nextValid, _, _⟩ := enqueue_spec
            (regained_valid shaped junk) addressable source
            (show (some fun pos => junk (queue.mItemSize * queue.mCapacity + pos) :
              Allocation).isSome from rfl)
          rw [lost_enqueue null shaped addressable full, served] at enqueues
          cases enqueues
          exact .inl nextValid
  · have room : ¬ queue.mCapacity < addSize queue.mSize itemCount := by rw [sum]; exact full
    rcases sturdy with valid | ⟨null, _⟩
    · obtain ⟨next, served, nextValid, _, _⟩ :=
        enqueue_spec valid addressable source (show (some fun _ => 0 : Allocation).isSome from rfl)
      rw [enqueue_unasked answer (some fun _ => 0) room, served] at enqueues
      cases enqueues
      exact .inl nextValid
    · -- only an empty copy succeeds, and it changes nothing
      have copies : ∀ next, queue.copyIn src itemCount = .ok next → Sturdy next := by
        intro next copied
        by_cases nothing : itemCount = 0
        · subst nothing
          rw [lost_copyIn_nothing null shaped copied]
          exact .inr ⟨null, shaped⟩
        · rw [lost_copyIn null shaped (by omega) (by omega)] at copied
          cases copied
      simp only [Tsqueue.enqueue, if_neg room, pure_bind, if_true] at enqueues
      obtain ⟨next, copied, same⟩ := sequenced enqueues
      cases same
      exact copies _ copied

theorem step_sturdy {op : Op} (sturdy : Sturdy queue) (promised : Promised queue op)
    (stepped : step queue op = some after) : Sturdy after := by
  cases performs : perform queue op with
  | error fault => simp [step, performs] at stepped
  | ok result =>
      have same : result.2 = after := by simpa [step, performs] using stepped
      subst same
      cases op with
      | enqueue src itemCount answer =>
          obtain ⟨served, enqueues, same⟩ := sequenced performs
          cases same
          exact sturdy_enqueue sturdy promised.1 promised.2 enqueues
      | dequeue dst dstCapacity =>
          obtain ⟨served, dequeues, same⟩ := sequenced performs
          cases same
          rcases sturdy with valid | ⟨null, shaped⟩
          · have room : ∀ block ∈ dst,
                queue.mItemSize * min dstCapacity queue.mSize ≤ block.length :=
              fun block member => Nat.le_trans
                (Nat.mul_le_mul_left _ (Nat.min_le_left ..)) (promised block member)
            rw [dequeue_spec dst dstCapacity valid room] at dequeues
            cases dequeues
            exact .inl (shortened_spec valid (Nat.min_le_right ..)).1
          · exact .inr (lost_dequeue null shaped dequeues)
      | clear =>
          cases performs
          rcases sturdy with valid | ⟨null, data, valid⟩
          · exact .inl (clear_spec valid).1
          · exact .inr ⟨null, data, (clear_spec valid).1⟩

end Histories

section Losses

theorem lost_same (null : queue.mData = []) : lost queue = queue := by rw [lost, ← null]

/-- An item that was pending cannot be read any more. -/
theorem lost_chunk (valid : Valid queue) (pending : queue.mSize ≠ 0) :
    headChunk (lost queue) = .error .outOfBounds := by
  have zero := headSize_zero valid
  have bytes := bytes_exact valid (Nat.le_trans (headSize_le valid) valid.sized)
  have positive : 0 < queue.mItemSize * queue.headSize :=
    Nat.mul_pos valid.width (by omega)
  have head : (lost queue).head = some (mulSize queue.mItemSize queue.mHeadPos) := if_neg pending
  have outside : ¬ mulSize queue.mItemSize queue.mHeadPos + queue.mItemSize * queue.headSize ≤
      ([] : List Byte).length := by
    rw [List.length_nil]
    omega
  rw [headChunk, head]
  change load [] _ (mulSize queue.mItemSize queue.headSize) = _
  rw [bytes, load, if_neg outside]

/-- Nor can an item be written without a growth. -/
theorem lost_write (valid : Valid queue) (empty : queue.mSize = 0) (answer : Allocation) :
    (lost queue).enqueue src 1 answer = .error .outOfBounds := by
  have headInside := valid.headInside
  have capacityInside := capacity_inside valid
  have sum : addSize queue.mSize 1 = queue.mSize + 1 := addSize_exact (by omega)
  have room : ¬ (lost queue).mCapacity < addSize (lost queue).mSize 1 := by
    simp only [lost, sum]
    omega
  have fails : (lost queue).copyIn src 1 = .error .outOfBounds :=
    lost_copyIn rfl ⟨queue.mData, valid⟩ (by simp only [lost]; omega) Nat.one_pos
  simp only [Tsqueue.enqueue, if_neg room, fails, bind, Except.bind, pure, Except.pure, if_true]

theorem valid_changed (valid : Valid queue) (narrow : queue.mItemSize ≤ 2 ^ 63) :
    ¬ Unchanged queue (lost queue) := by
  intro unchanged
  by_cases empty : queue.mSize = 0
  · have addressable : Addressable queue 1 := by
      rw [Addressable, empty, Nat.zero_add, Nat.mul_one]
      exact narrow
    have source : queue.mItemSize * 1 ≤ (List.replicate queue.mItemSize (0 : Byte)).length := by
      rw [Nat.mul_one, List.length_replicate]
    obtain ⟨next, enqueues, nextValid, _⟩ := enqueue_spec valid addressable source
      (show (some fun _ => 0 : Allocation).isSome from rfl)
    have same := unchanged [.enqueue (List.replicate queue.mItemSize 0) 1 (some fun _ => 0)]
    simp only [observe, performAll, perform, enqueues, lost_write valid empty,
      headChunk_spec nextValid, bind, Except.bind, pure, Except.pure] at same
    cases same
  · have same := unchanged []
    simp only [observe, performAll, headChunk_spec valid, lost_chunk valid empty, bind,
      Except.bind, pure, Except.pure] at same
    cases same

end Losses

section Results

/-- Among other threads, and at the statements of the source: whoever comes to the mutex with this
enqueue gives it back with this answer. -/
def GivesBack (queue after : Tsqueue) (src : List Byte) (itemCount : Nat) : Prop :=
  ∀ (Thread : Type) [DecidableEq Thread] (world : World Thread Tsqueue Call Frame Answer)
    (thread : Thread) (ticket : Nat), world.memory = queue → world.lock = none →
    world.place thread = .called ticket (.change (.enqueue src itemCount none)) →
      ∃ count later, exec (LockedObjects.step program) world (.acquire thread :: goes thread count) =
          some later ∧ later.lock = none ∧ later.memory = after ∧
        later.place thread = .leaving ticket (.changed (.code asockErrNomem))

theorem refused_gives_back (refused : queue.enqueue src itemCount none = .ok (asockErrNomem, after)) :
    GivesBack queue after src itemCount := by
  rintro Thread _ world thread ticket rfl unlocked waits
  obtain ⟨entered, acquires, inside, same⟩ : ∃ entered,
      LockedObjects.step program world (.acquire thread) = some entered ∧
        entered.place thread = .inside ticket (.change (.enqueue src itemCount none))
          (.testRoom src itemCount none) ∧ entered.memory = world.memory := by
    simp only [LockedObjects.step, unlocked, waits, program]
    exact ⟨_, rfl, move_here .., rfl⟩
  obtain ⟨count, later, plays, finishes⟩ := ends_executed (refused_ends refused) inside same
  refine ⟨count, later, ?_, finishes⟩
  rw [exec, acquires, Option.bind_some]
  exact plays

-- A queue that still has its block loses it, and no later call can tell its items.
theorem failed_enqueue_unchanged (itemSize capacity : Nat) (answers : CreateAnswers)
    (first queue : Tsqueue) (wide : 1 ≤ itemSize)
    (created : Tsqueue.create answers itemSize capacity = .ok (some first))
    (fits : itemSize * first.mCapacity < sizeBound) (run : GuardedRun step Promised first queue)
    (src : List Byte) (itemCount : Nat) (addressable : Addressable queue itemCount)
    (full : queue.mCapacity < queue.mSize + itemCount) :
    ∃ after, queue.enqueue src itemCount none = .ok (asockErrNomem, after) ∧
      GivesBack queue after src itemCount ∧
      after.size = queue.size ∧ after.capacity = queue.capacity ∧
      (Unchanged queue after ↔ queue.mData = []) ∧
      ∀ con : Asock, con.mOutQueue = queue → src.length = itemCount →
        con.write src none = .ok (0, { con with mOutQueue := after }) := by
  have sturdy : Sturdy queue := run.invariant Sturdy
    (fun _ _ _ sturdy promised stepped => step_sturdy sturdy promised stepped)
    (.inl (create_spec created wide fits).1)
  have refused := refused_enqueue src (sturdy_shaped sturdy) addressable full
  refine ⟨lost queue, refused, refused_gives_back refused, rfl, rfl, ?_, ?_⟩
  · rcases sturdy with valid | ⟨null, _⟩
    · have there : queue.mData ≠ [] := by
        intro null
        have block := valid.block
        have positive : 0 < queue.mItemSize * queue.mCapacity :=
          Nat.mul_pos valid.width (Nat.lt_of_le_of_lt (Nat.zero_le _) valid.headInside)
        rw [null, List.length_nil] at block
        omega
      have narrow : queue.mItemSize ≤ 2 ^ 63 := by
        have sized := valid.sized
        have one : queue.mItemSize * 1 ≤ queue.mItemSize * (queue.mSize + itemCount) :=
          Nat.mul_le_mul_left _ (by omega)
        unfold Addressable at addressable
        omega
      exact ⟨fun unchanged => absurd unchanged (valid_changed valid narrow),
        fun null => absurd null there⟩
    · rw [lost_same null]
      exact ⟨fun _ => null, fun _ _ => rfl⟩
  · rintro con rfl rfl
    have failed : ¬ asockErrNomem = asockSuccess := by decide
    simp only [Asock.write, refused, bind, Except.bind, pure, Except.pure, if_neg failed]

def oneByte : Tsqueue := ⟨[0], 0, 1, 1, 0, 0⟩

theorem second_byte_refused :
    Tsqueue.enqueue ⟨[7], 1, 1, 1, 0, 0⟩ [8] 1 none =
      .ok (asockErrNomem, ⟨[], 1, 1, 1, 0, 0⟩) := rfl

theorem first_byte_run : GuardedRun step Promised oneByte ⟨[7], 1, 1, 1, 0, 0⟩ := by
  have promised : Promised oneByte (.enqueue [7] 1 none) :=
    ⟨by decide, by unfold Addressable; decide⟩
  exact .next (.enqueue [7] 1 none) .refl promised rfl

-- One byte in a queue of capacity one; the second one gets no memory.
theorem failed_enqueue_loses : ∃ queue after,
    Tsqueue.create ⟨true, true, some fun _ => 0⟩ 1 1 = .ok (some oneByte) ∧
      GuardedRun step Promised oneByte queue ∧
      queue.enqueue [8] 1 none = .ok (asockErrNomem, after) ∧ queue.forEach = [([7], 0)] ∧
      ¬ Unchanged queue after := by
  refine ⟨⟨[7], 1, 1, 1, 0, 0⟩, ⟨[], 1, 1, 1, 0, 0⟩, rfl, first_byte_run, second_byte_refused, rfl,
    ?_⟩
  intro unchanged
  have same := unchanged []
  have before : headChunk ⟨[7], 1, 1, 1, 0, 0⟩ = .ok [7] := rfl
  have after : headChunk ⟨[], 1, 1, 1, 0, 0⟩ = .error .outOfBounds := rfl
  simp only [observe, performAll, before, after, bind, Except.bind, pure, Except.pure] at same
  cases same

-- What the failed call before it has lost is not lost again.
theorem failures_after_a_loss : ∃ queue after, GuardedRun step Promised oneByte queue ∧
    queue.enqueue [9] 1 none = .ok (asockErrNomem, after) ∧ Unchanged queue after := by
  have promised : Promised ⟨[7], 1, 1, 1, 0, 0⟩ (.enqueue [8] 1 none) :=
    ⟨by decide, by unfold Addressable; decide⟩
  have run : GuardedRun step Promised oneByte ⟨[], 1, 1, 1, 0, 0⟩ :=
    .next (.enqueue [8] 1 none) first_byte_run promised rfl
  obtain ⟨after, refused, _, _, _, unchanged, _⟩ := failed_enqueue_unchanged 1 1
    ⟨true, true, some fun _ => 0⟩ oneByte _ (Nat.le_refl 1) rfl (by decide) run [9] 1
    (by unfold Addressable; decide) (by decide)
  exact ⟨_, after, run, refused, unchanged.mpr rfl⟩

end Results

end Libasock.FailedEnqueues
