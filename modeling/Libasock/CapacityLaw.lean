import Libasock.FailedEnqueues

/-!
How the capacity of a queue moves. The histories are those whose allocations
succeed and whose sizes stay inside `size_t`; the law is that the capacity is the
least power of two a call needed so far. Items of no bytes are part of it: their
copies move nothing, and the capacity is rounded all the same.
-/

namespace Libasock.CapacityLaw
open ByteBlocks GuardedRuns ReturnCodes TsqueueModel TsqueueContent TsqueueRefinement
  FailedEnqueues

/-- The caller's blocks hold the items of the call, `realloc` succeeds, and the capacity that has
room for the items is one whose bytes `size_t` can count. -/
def Supplied (queue : Tsqueue) : Op → Prop
  | .enqueue src itemCount answer =>
      queue.mItemSize * itemCount ≤ src.length ∧
        RoundsInside queue.mItemSize (queue.mSize + itemCount) ∧ answer.isSome
  | .dequeue dst dstCapacity =>
      ∀ block ∈ dst, queue.mItemSize * min dstCapacity queue.mSize ≤ block.length
  | .clear => True

/-- What one enqueue that needs more room does to the capacity. -/
structure Doubles (queue : Tsqueue) (src : List Byte) (itemCount : Nat) (answer : Allocation)
    (newCapacity : Nat) : Prop where
  ends : doubleUntil doublingFuel (mulSize queue.mCapacity 2) (addSize queue.mSize itemCount) =
    .ok newCapacity
  asserted : queue.mCapacity < newCapacity
  covers : queue.mSize + itemCount ≤ newCapacity
  tight : newCapacity < 2 * (queue.mSize + itemCount)
  taken : ∃ after, queue.enqueue src itemCount answer = .ok (asockSuccess, after) ∧
    after.mCapacity = newCapacity

/-- The capacity law at one state of a queue that was asked to hold `requested` items at first. -/
structure Lawful (requested : Nat) (queue : Tsqueue) : Prop where
  power : ∃ order, queue.mCapacity = 2 ^ order
  requested : requested ≤ queue.mCapacity
  sized : queue.mSize ≤ queue.mCapacity
  grows : ∀ src itemCount answer, Supplied queue (.enqueue src itemCount answer) →
    queue.mCapacity < queue.mSize + itemCount →
    ∃ newCapacity, Doubles queue src itemCount answer newCapacity
  moves : ∀ op, Supplied queue op → ∃ after, step queue op = some after ∧
    queue.mCapacity ≤ after.mCapacity ∧
    (after.mCapacity ≠ queue.mCapacity → ∃ src itemCount answer,
      op = .enqueue src itemCount answer ∧ queue.mCapacity < queue.mSize + itemCount)

/-- A ring, or a queue of items without bytes, where only the numbers matter. -/
structure Sound (queue : Tsqueue) : Prop where
  power : ∃ order, queue.mCapacity = 2 ^ order ∧ order < 64
  sized : queue.mSize ≤ queue.mCapacity
  ring : Valid queue ∨ queue.mItemSize = 0

section Weightless

variable {queue after : Tsqueue} {src : List Byte} {itemCount : Nat}

theorem memcpy_nothing (dst src : List Byte) : memcpy dst 0 src 0 0 = .ok dst := by
  rw [memcpy_ok (Nat.zero_le _) (Nat.zero_le _)]
  simp

theorem mulSize_zero (count : Nat) : mulSize 0 count = 0 := by
  rw [mulSize, Nat.zero_mul, Nat.zero_mod]

theorem zero_mulSize (count : Nat) : mulSize count 0 = 0 := by
  rw [mulSize, Nat.mul_zero, Nat.zero_mod]

theorem weightless_copyIn (weightless : queue.mItemSize = 0) :
    ∃ next, queue.copyIn src itemCount = .ok next := by
  unfold Tsqueue.copyIn
  simp only [weightless, mulSize_zero, memcpy_nothing, bind, Except.bind, pure, Except.pure]
  split <;> exact ⟨_, rfl⟩

theorem weightless_relocates (weightless : queue.mItemSize = 0) :
    ∃ next, queue.relocateHead = .ok next := by
  have moves : memcpyWithin queue.mData 0 0 0 = .ok queue.mData := by
    rw [memcpyWithin, if_pos (.inl (Nat.le_refl 0)), memcpy_nothing]
  unfold Tsqueue.relocateHead
  simp only [weightless, mulSize_zero, zero_mulSize, moves, bind, Except.bind, pure, Except.pure]
  split <;> exact ⟨_, rfl⟩

theorem weightless_grows {newCapacity : Nat} {answer : Allocation}
    (weightless : queue.mItemSize = 0)
    (stops : doubleUntil doublingFuel (mulSize queue.mCapacity 2)
      (addSize queue.mSize itemCount) = .ok newCapacity)
    (larger : queue.mCapacity < newCapacity) (granted : answer.isSome) :
    ∃ grown, queue.grow itemCount answer = .ok (asockSuccess, grown) ∧ grown.mItemSize = 0 := by
  obtain ⟨junk, rfl⟩ := Option.isSome_iff_exists.mp granted
  obtain ⟨block, served⟩ : ∃ block, realloc (some junk) queue.mData
      (mulSize newCapacity queue.mItemSize) = some block := ⟨_, rfl⟩
  obtain ⟨relocated, relocates⟩ : ∃ next,
      Tsqueue.relocateHead { queue with mData := block } = .ok next :=
    weightless_relocates weightless
  have reallocates : queue.reallocate newCapacity (some junk) =
      .ok (asockSuccess, { queue with mData := block }) := by
    rw [Tsqueue.reallocate, if_pos larger, served]
  have same := relocated_shape relocates
  refine ⟨{ relocated with mCapacity := newCapacity }, ?_, ?_⟩
  · simp only [Tsqueue.grow, stops, reallocates, relocates, bind, Except.bind, pure, Except.pure,
      if_true]
  · rw [same]
    exact weightless

theorem weightless_dequeues (weightless : queue.mItemSize = 0) (dst : Option (List Byte))
    (count : Nat) : ∃ out, queue.dequeue dst count = .ok out := by
  have copies : ∀ target : Option (List Byte), queue.copyOut target 0 0 0 = .ok target := by
    intro target
    cases target with
    | none => rfl
    | some block =>
        rw [Tsqueue.copyOut, memcpy_nothing]
        rfl
  unfold Tsqueue.dequeue
  simp only [weightless, mulSize_zero, copies, bind, Except.bind, pure, Except.pure]
  split <;> exact ⟨_, rfl⟩

end Weightless

section Headers

variable {queue after : Tsqueue} {src : List Byte} {itemCount : Nat} {code : AsockReturnCode}

/-- The numbers a granted enqueue leaves, whatever its copies do. -/
theorem enqueue_header {answer : Allocation} (granted : answer.isSome)
    (enqueues : queue.enqueue src itemCount answer = .ok (code, after)) :
    code = asockSuccess ∧ after.mSize = addSize queue.mSize itemCount ∧
      (queue.mCapacity < addSize queue.mSize itemCount →
        doubleUntil doublingFuel (mulSize queue.mCapacity 2) (addSize queue.mSize itemCount) =
          .ok after.mCapacity) ∧
      (¬ queue.mCapacity < addSize queue.mSize itemCount →
        after.mCapacity = queue.mCapacity) := by
  obtain ⟨junk, rfl⟩ := Option.isSome_iff_exists.mp granted
  unfold Tsqueue.enqueue at enqueues
  dsimp only at enqueues
  split at enqueues
  case isTrue full =>
    obtain ⟨⟨grownCode, grown⟩, grows, stores⟩ := sequenced enqueues
    obtain ⟨newCapacity, block, relocated, stops, _, _, relocates, rfl, rfl⟩ := grown_shape grows
    rw [if_pos rfl] at stores
    obtain ⟨copied, copies, same⟩ := sequenced stores
    cases same
    rw [copied_shape copies, relocated_shape relocates]
    exact ⟨rfl, rfl, fun _ => stops, fun room => absurd full room⟩
  case isFalse room =>
    simp only [pure_bind, if_true] at enqueues
    obtain ⟨copied, copies, same⟩ := sequenced enqueues
    cases same
    rw [copied_shape copies]
    exact ⟨rfl, rfl, fun full => absurd full room, fun _ => rfl⟩

theorem dequeue_header {dst out : Option (List Byte)} {count taken : Nat}
    (dequeues : queue.dequeue dst count = .ok (taken, out, after)) :
    after.mSize = subSize queue.mSize (min count queue.mSize) ∧
      after.mCapacity = queue.mCapacity ∧ after.mItemSize = queue.mItemSize := by
  unfold Tsqueue.dequeue at dequeues
  dsimp only at dequeues
  split at dequeues
  · obtain ⟨block, _, same⟩ := sequenced dequeues
    cases same
    exact ⟨rfl, rfl, rfl⟩
  · obtain ⟨front, _, rest⟩ := sequenced dequeues
    obtain ⟨back, _, same⟩ := sequenced rest
    cases same
    exact ⟨rfl, rfl, rfl⟩

end Headers

section Steps

variable {queue : Tsqueue}

theorem Sound.capacity_inside (sound : Sound queue) : queue.mCapacity < sizeBound := by
  obtain ⟨order, power, small⟩ := sound.power
  rw [power]
  exact Nat.pow_lt_pow_right (by decide) small

theorem Sound.positive (sound : Sound queue) : 0 < queue.mCapacity := by
  obtain ⟨order, power, _⟩ := sound.power
  rw [power]
  exact Nat.two_pow_pos order

theorem enqueue_exists {src : List Byte} {itemCount : Nat} {answer : Allocation}
    (sound : Sound queue) (supplied : Supplied queue (.enqueue src itemCount answer)) :
    ∃ after, queue.enqueue src itemCount answer = .ok (asockSuccess, after) ∧
      (Valid after ∨ after.mItemSize = 0) := by
  obtain ⟨source, rounds, granted⟩ := supplied
  rcases sound.ring with valid | weightless
  · obtain ⟨after, enqueues, afterValid, _, _⟩ := enqueue_appends valid rounds source granted
    exact ⟨after, enqueues, .inl afterValid⟩
  -- no byte moves, so the call succeeds as soon as its capacity is found
  have stored : ∀ grown : Tsqueue, grown.mItemSize = 0 →
      ∃ after, grown.copyIn src itemCount = .ok after ∧ after.mItemSize = 0 := by
    intro grown light
    obtain ⟨after, copies⟩ := weightless_copyIn light
    refine ⟨after, copies, ?_⟩
    rw [copied_shape copies]
    exact light
  by_cases full : queue.mCapacity < addSize queue.mSize itemCount
  · have half := rounds.half
    have sum : addSize queue.mSize itemCount = queue.mSize + itemCount :=
      addSize_exact (by unfold sizeBound at *; omega)
    have positive := sound.positive
    obtain ⟨order, power, _⟩ := sound.power
    obtain ⟨newCapacity, stops, doubled, _⟩ :=
      doubled_capacity ⟨order, power⟩ rounds (by omega)
    obtain ⟨grown, grows, light⟩ := weightless_grows weightless stops (by omega) granted
    obtain ⟨after, copies, empty⟩ := stored grown light
    refine ⟨after, ?_, .inr empty⟩
    simp only [Tsqueue.enqueue, if_pos full, grows, copies, bind, Except.bind, pure, Except.pure,
      if_true]
  · obtain ⟨after, copies, empty⟩ := stored queue weightless
    refine ⟨after, ?_, .inr empty⟩
    simp only [Tsqueue.enqueue, if_neg full, copies, bind, Except.bind, pure, Except.pure,
      if_true]

/-- An enqueue doubles the capacity as often as needed, or keeps it. -/
theorem enqueue_capacity {src : List Byte} {itemCount : Nat} {answer : Allocation}
    (sound : Sound queue) (supplied : Supplied queue (.enqueue src itemCount answer)) :
    ∃ after, queue.enqueue src itemCount answer = .ok (asockSuccess, after) ∧ Sound after ∧
      (queue.mCapacity < queue.mSize + itemCount ∧
          Doubles queue src itemCount answer after.mCapacity ∨
        ¬ queue.mCapacity < queue.mSize + itemCount ∧ after.mCapacity = queue.mCapacity) := by
  obtain ⟨after, enqueues, ring⟩ := enqueue_exists sound supplied
  obtain ⟨_, rounds, granted⟩ := supplied
  have half := rounds.half
  have sum := rounds.addSize
  obtain ⟨_, size, grows, stays⟩ := enqueue_header granted enqueues
  rw [sum] at size grows stays
  obtain ⟨order, power, small⟩ := sound.power
  refine ⟨after, enqueues, ?_⟩
  by_cases full : queue.mCapacity < queue.mSize + itemCount
  · obtain ⟨newCapacity, stops, doubled, covers, tight, _, newOrder, newPower⟩ :=
      doubled_capacity ⟨order, power⟩ rounds full
    have stopped := grows full
    rw [sum, stopped] at stops
    cases stops
    have positive := sound.positive
    have below : 2 ^ newOrder < 2 ^ 64 := by
      rw [← newPower]
      unfold sizeBound at half
      omega
    have newSmall := (Nat.pow_lt_pow_iff_right (show 1 < 2 by decide)).mp below
    refine ⟨⟨⟨newOrder, newPower, newSmall⟩, by omega, ring⟩, .inl ⟨full, ?_⟩⟩
    exact ⟨by rw [sum]; exact stopped, by omega, covers, tight, after, enqueues, rfl⟩
  · have kept := stays full
    exact ⟨⟨⟨order, kept.trans power, small⟩, by omega, ring⟩, .inr ⟨full, kept⟩⟩

theorem dequeue_capacity {dst : Option (List Byte)} {dstCapacity : Nat} (sound : Sound queue)
    (supplied : Supplied queue (.dequeue dst dstCapacity)) :
    ∃ taken out after, queue.dequeue dst dstCapacity = .ok (taken, out, after) ∧ Sound after ∧
      after.mCapacity = queue.mCapacity := by
  have dequeues : ∃ result, queue.dequeue dst dstCapacity = .ok result ∧
      (Valid result.2.2 ∨ result.2.2.mItemSize = 0) := by
    rcases sound.ring with valid | weightless
    · exact ⟨_, dequeue_spec dst dstCapacity valid supplied,
        .inl (shortened_spec valid (Nat.min_le_right ..)).1⟩
    · obtain ⟨result, dequeues⟩ := weightless_dequeues weightless dst dstCapacity
      exact ⟨result, dequeues, .inr ((dequeue_header dequeues).2.2.trans weightless)⟩
  obtain ⟨⟨taken, out, after⟩, dequeues, ring⟩ := dequeues
  obtain ⟨size, capacity, _⟩ := dequeue_header dequeues
  have sized := sound.sized
  have inside := sound.capacity_inside
  rw [subSize_exact (Nat.min_le_right ..) (by omega)] at size
  obtain ⟨order, power, small⟩ := sound.power
  exact ⟨taken, out, after, dequeues,
    ⟨⟨order, capacity.trans power, small⟩, by omega, ring⟩, capacity⟩

theorem clear_sound (sound : Sound queue) : Sound queue.clear := by
  refine ⟨sound.power, Nat.zero_le _, ?_⟩
  rcases sound.ring with valid | weightless
  · exact .inl (clear_spec valid).1
  · exact .inr weightless

/-- What one call does to the capacity. -/
theorem step_sound {op : Op} (sound : Sound queue) (supplied : Supplied queue op) :
    ∃ after, step queue op = some after ∧ Sound after ∧ queue.mCapacity ≤ after.mCapacity ∧
      (after.mCapacity ≠ queue.mCapacity → ∃ src itemCount answer,
        op = .enqueue src itemCount answer ∧ queue.mCapacity < queue.mSize + itemCount) := by
  cases op with
  | enqueue src itemCount answer =>
      obtain ⟨after, enqueues, afterSound, moved⟩ := enqueue_capacity sound supplied
      refine ⟨after, ?_, afterSound, ?_⟩
      · simp only [step, perform, enqueues, bind, Except.bind, pure, Except.pure]
      · rcases moved with ⟨full, doubles⟩ | ⟨_, kept⟩
        · exact ⟨Nat.le_of_lt doubles.asserted, fun _ => ⟨src, itemCount, answer, rfl, full⟩⟩
        · exact ⟨Nat.le_of_eq kept.symm, fun changed => absurd kept changed⟩
  | dequeue dst dstCapacity =>
      obtain ⟨taken, out, after, dequeues, afterSound, kept⟩ := dequeue_capacity sound supplied
      refine ⟨after, ?_, afterSound, Nat.le_of_eq kept.symm, fun changed => absurd kept changed⟩
      simp only [step, perform, dequeues, bind, Except.bind, pure, Except.pure]
  | clear =>
      exact ⟨queue.clear, rfl, clear_sound sound, Nat.le_refl _, fun changed => absurd rfl changed⟩

theorem created_sound {answers : CreateAnswers} {itemSize capacity : Nat}
    (created : Tsqueue.create answers itemSize capacity = .ok (some queue))
    (fits : itemSize * queue.mCapacity < sizeBound) : Sound queue := by
  obtain ⟨order, power, small, _⟩ := create_capacity created
  by_cases wide : 1 ≤ itemSize
  · obtain ⟨valid, _, _⟩ := create_spec created wide fits
    exact ⟨⟨order, power, small⟩, valid.sized, .inl valid⟩
  · obtain ⟨rightCapacity, data, _, _, rfl⟩ := create_shape created
    exact ⟨⟨order, power, small⟩, Nat.zero_le _, .inr (by simp only; omega)⟩

/-- What the law asks beyond the invariant is how far the first request was. -/
theorem Sound.lawful {requested : Nat} (sound : Sound queue) (held : requested ≤ queue.mCapacity) :
    Lawful requested queue := by
  obtain ⟨order, power, _⟩ := sound.power
  refine ⟨⟨order, power⟩, held, sound.sized, ?_, ?_⟩
  · intro src itemCount answer supplied full
    obtain ⟨after, _, _, moved⟩ := enqueue_capacity sound supplied
    rcases moved with ⟨_, doubles⟩ | ⟨room, _⟩
    · exact ⟨after.mCapacity, doubles⟩
    · exact absurd full room
  · intro op supplied
    obtain ⟨after, stepped, _, moves⟩ := step_sound sound supplied
    exact ⟨after, stepped, moves⟩

/-- Along a run the capacity only rises. -/
theorem run_sound {last : Tsqueue} (run : GuardedRun step Supplied queue last)
    (sound : Sound queue) : Sound last ∧ queue.mCapacity ≤ last.mCapacity := by
  apply run.invariant (fun state => Sound state ∧ queue.mCapacity ≤ state.mCapacity) _
    ⟨sound, Nat.le_refl _⟩
  intro before op after held supplied stepped
  obtain ⟨next, steps, nextSound, rises, _⟩ := step_sound held.1 supplied
  rw [steps] at stepped
  cases stepped
  exact ⟨nextSound, Nat.le_trans held.2 rises⟩

end Steps

section Results

-- The law in every state of a history, and between any two of them the capacity rises.
theorem queue_capacity_law (itemSize capacity : Nat) (answers : CreateAnswers)
    (first queue last : Tsqueue)
    (created : Tsqueue.create answers itemSize capacity = .ok (some first))
    (fits : itemSize * first.mCapacity < sizeBound)
    (run : GuardedRun step Supplied first queue) (later : GuardedRun step Supplied queue last) :
    Lawful capacity queue ∧ queue.mCapacity ≤ last.mCapacity := by
  obtain ⟨_, _, _, requested⟩ := create_capacity created
  obtain ⟨sound, rises⟩ := run_sound run (created_sound created fits)
  exact ⟨sound.lawful (Nat.le_trans requested rises), (run_sound later sound).2⟩

/-- Three bytes into a queue of one: the loop doubles twice. -/
theorem three_bytes_law : ∃ first queue last,
    Tsqueue.create ⟨true, true, some fun _ => 0⟩ 1 1 = .ok (some first) ∧
      step first (.enqueue [1, 2, 3] 3 (some fun _ => 9)) = some queue ∧
      step queue (.dequeue none 2) = some last ∧ queue.mCapacity = 4 ∧ Lawful 1 queue := by
  have supplied : Supplied oneByte (.enqueue [1, 2, 3] 3 (some fun _ => 9)) :=
    ⟨by decide, ⟨2, by decide⟩, rfl⟩
  have run : GuardedRun step Supplied oneByte ⟨[1, 2, 3, 9], 3, 4, 1, 3, 0⟩ :=
    .next (.enqueue [1, 2, 3] 3 (some fun _ => 9)) .refl supplied rfl
  have popped : Supplied ⟨[1, 2, 3, 9], 3, 4, 1, 3, 0⟩ (.dequeue none 2) :=
    fun _ absent => by cases absent
  have later : GuardedRun step Supplied ⟨[1, 2, 3, 9], 3, 4, 1, 3, 0⟩
      ⟨[1, 2, 3, 9], 1, 4, 1, 3, 2⟩ := .next (.dequeue none 2) .refl popped rfl
  exact ⟨oneByte, _, _, rfl, rfl, rfl, rfl,
    (queue_capacity_law 1 1 ⟨true, true, some fun _ => 0⟩ oneByte _ _ rfl (by decide) run
      later).1⟩

end Results

end Libasock.CapacityLaw
