import Libasock.TsqueueContent
import Libasock.VectorModel

/-!
The block a new queue or vector gets, for every pair of arguments. The capacity
of a queue is rounded up by shifts that never end above `2 ^ 63`, and both byte
counts are products of `size_t` that nothing checks, so the exact conditions
below are the ones the two constructors do not test.
-/

namespace Libasock.CreationSizes
open ByteBlocks TsqueueModel TsqueueContent VectorModel

abbrev QueueAnswers := TsqueueModel.CreateAnswers
abbrev VectorAnswers := VectorModel.CreateAnswers

/-- The loop ends, and the call returns `NULL` or an empty queue with room for its capacity. -/
structure SizedQueue (answers : QueueAnswers) (itemSize capacity : Nat) : Prop where
  ends : ∃ fuel rightCapacity, doubleUntil fuel 1 capacity = .ok rightCapacity
  sized : ∃ result, Tsqueue.create answers itemSize capacity = .ok result ∧
    ∀ queue ∈ result, queue.mSize = 0 ∧ capacity ≤ queue.mCapacity ∧
      queue.mCapacity * itemSize ≤ queue.mData.length

def SizedVector (answers : VectorAnswers) (itemSize capacity : Nat) : Prop :=
  ∀ vector ∈ AsockVector.create answers itemSize capacity, vector.mSize = 0 ∧
    capacity ≤ vector.mCapacity ∧ vector.mCapacity * itemSize ≤ vector.mData.length

/-- One of the three calls that can fail does, and the queue is `NULL`. -/
def QueueRefused (answers : QueueAnswers) : Prop :=
  answers.structAlloc = false ∨ answers.mutexInit = false ∨ answers.dataAlloc = none

def VectorRefused (answers : VectorAnswers) : Prop :=
  answers.structAlloc = false ∨ answers.dataAlloc = none

section Rounding

variable {capacity : Nat}

theorem rounding_ends (small : capacity ≤ 2 ^ 63) :
    ∃ final, doubleUntil doublingFuel 1 capacity = .ok (2 ^ final) ∧ final < 64 ∧
      capacity ≤ 2 ^ final ∧
      ∀ width, RoundsInside width capacity ↔ width * 2 ^ final < sizeBound := by
  rcases Nat.eq_zero_or_pos capacity with rfl | positive
  · refine ⟨0, rfl, by decide, Nat.zero_le _, fun width => ⟨?_, ?_⟩⟩
    · rintro ⟨order, _, _, inside⟩
      exact Nat.lt_of_le_of_lt (Nat.mul_le_mul_left _ (Nat.two_pow_pos order)) inside
    · intro inside
      exact ⟨0, by decide, Nat.zero_le _, inside⟩
  · have weightless : RoundsInside 0 capacity :=
      ⟨63, by decide, small, by rw [Nat.zero_mul]; decide⟩
    have start : 2 ^ 0 < 2 * capacity := by omega
    obtain ⟨final, stops, _, inRange, covers, _, _⟩ := doubling_rounds weightless start
    refine ⟨final, stops, inRange, covers, fun width => ⟨?_, ?_⟩⟩
    · intro rounds
      obtain ⟨least, sameStops, _, _, _, _, inside⟩ := doubling_rounds rounds start
      rw [stops, Except.ok.injEq] at sameStops
      rw [sameStops]
      exact inside
    · intro inside
      exact ⟨final, inRange, covers, inside⟩

/-- Above half the range the shifted bit falls out before the request is reached. -/
theorem rounding_stuck (large : 2 ^ 63 < capacity) {fuel rightCapacity : Nat} :
    doubleUntil fuel 1 capacity ≠ .ok rightCapacity := by
  intro stops
  obtain ⟨power, rfl, inRange, covers⟩ := doubling_power (show 0 < 64 by decide) stops
  have top : 2 ^ power ≤ 2 ^ 63 := Nat.pow_le_pow_right (by decide) (by omega)
  omega

end Rounding

/-- The block has the bytes the exact product asks for when the product did not wrap. -/
theorem block_sized {width count : Nat} {answer : Allocation} {block : List Byte}
    (served : malloc answer (max (mulSize width count) 1) = some block) :
    count * width ≤ block.length ↔ width * count < sizeBound := by
  have bound : 1 < sizeBound := by decide
  rw [malloc_length served, Nat.mul_comm count, mulSize]
  constructor
  · intro fits
    have wrapped := Nat.mod_lt (width * count) (Nat.zero_lt_of_lt bound)
    omega
  · intro inside
    rw [Nat.mod_eq_of_lt inside]
    exact Nat.le_max_left ..

section Queues

variable {answers : QueueAnswers} {itemSize capacity rightCapacity : Nat}

theorem queue_refused (stops : doubleUntil doublingFuel 1 capacity = .ok rightCapacity)
    (refused : QueueRefused answers) :
    Tsqueue.create answers itemSize capacity = .ok none := by
  simp only [Tsqueue.create, stops, bind, Except.bind, pure, Except.pure]
  rcases refused with noStruct | noMutex | noData
  · rw [if_pos noStruct]
  · rw [if_pos noMutex]
    split <;> rfl
  · simp only [noData, malloc, Option.map_none]
    split
    · rfl
    · split <;> rfl

theorem queue_granted (itemSize : Nat)
    (stops : doubleUntil doublingFuel 1 capacity = .ok rightCapacity)
    (granted : ¬ QueueRefused answers) :
    ∃ data, malloc answers.dataAlloc (max (mulSize itemSize rightCapacity) 1) = some data ∧
      Tsqueue.create answers itemSize capacity =
        .ok (some ⟨data, 0, rightCapacity, itemSize, 0, 0⟩) := by
  simp only [QueueRefused, not_or] at granted
  obtain ⟨withStruct, withMutex, withData⟩ := granted
  obtain ⟨junk, answered⟩ := Option.ne_none_iff_exists'.mp withData
  obtain ⟨data, served⟩ : ∃ data, malloc answers.dataAlloc
      (max (mulSize itemSize rightCapacity) 1) = some data := by
    rw [answered]
    exact ⟨_, rfl⟩
  refine ⟨data, served, ?_⟩
  simp only [Tsqueue.create, stops, if_neg withStruct, if_neg withMutex, served, bind,
    Except.bind, pure, Except.pure]

theorem queue_sized : SizedQueue answers itemSize capacity ↔
    capacity ≤ 2 ^ 63 ∧ (QueueRefused answers ∨ RoundsInside itemSize capacity) := by
  constructor
  · rintro ⟨⟨fuel, rightCapacity, ends⟩, result, created, sized⟩
    have small : capacity ≤ 2 ^ 63 := by
      by_contra large
      exact rounding_stuck (Nat.lt_of_not_le large) ends
    refine ⟨small, ?_⟩
    by_cases refused : QueueRefused answers
    · exact .inl refused
    · obtain ⟨final, stops, _, _, sharp⟩ := rounding_ends small
      obtain ⟨data, served, grants⟩ := queue_granted itemSize stops refused
      rw [created, Except.ok.injEq] at grants
      subst grants
      obtain ⟨_, _, room⟩ := sized _ rfl
      exact .inr ((sharp itemSize).mpr ((block_sized served).mp room))
  · rintro ⟨small, served⟩
    obtain ⟨final, stops, _, covers, sharp⟩ := rounding_ends small
    refine ⟨⟨doublingFuel, _, stops⟩, ?_⟩
    by_cases refused : QueueRefused answers
    · exact ⟨none, queue_refused stops refused, fun _ absent => by cases absent⟩
    · have rounds := served.resolve_left refused
      obtain ⟨data, allocated, grants⟩ := queue_granted itemSize stops refused
      refine ⟨_, grants, ?_⟩
      rintro queue member
      cases member
      exact ⟨rfl, covers, (block_sized allocated).mpr ((sharp itemSize).mp rounds)⟩

end Queues

theorem vector_sized {answers : VectorAnswers} {itemSize capacity : Nat} :
    SizedVector answers itemSize capacity ↔
      VectorRefused answers ∨ itemSize * capacity < sizeBound := by
  unfold SizedVector AsockVector.create
  by_cases noStruct : answers.structAlloc = false
  · rw [if_pos noStruct]
    exact ⟨fun _ => .inl (.inl noStruct), fun _ _ absent => by cases absent⟩
  · rw [if_neg noStruct]
    dsimp only
    cases served : malloc answers.dataAlloc (max (mulSize itemSize capacity) 1) with
    | none =>
        have noData : answers.dataAlloc = none := Option.map_eq_none_iff.mp served
        exact ⟨fun _ => .inl (.inr noData), fun _ _ absent => by cases absent⟩
    | some data =>
        have withData : ¬ VectorRefused answers := by
          rintro (refused | refused)
          · exact noStruct refused
          · rw [refused] at served
            cases served
        constructor
        · intro sized
          obtain ⟨_, _, room⟩ := sized _ rfl
          exact .inr ((block_sized served).mp room)
        · rintro inside vector member
          cases member
          exact ⟨rfl, Nat.le_refl _, (block_sized served).mpr (inside.resolve_left withData)⟩

section Results

-- Both constructors, each with the exact condition on its arguments.
theorem creation_sizes (itemSize capacity : Nat) (queueAnswers : QueueAnswers)
    (vectorAnswers : VectorAnswers) :
    (SizedQueue queueAnswers itemSize capacity ↔
      capacity ≤ 2 ^ 63 ∧ (QueueRefused queueAnswers ∨ RoundsInside itemSize capacity)) ∧
    (SizedVector vectorAnswers itemSize capacity ↔
      VectorRefused vectorAnswers ∨ itemSize * capacity < sizeBound) :=
  ⟨queue_sized, vector_sized⟩

-- One item too many to round, and two-byte items whose bytes are `2 ^ 64`.
theorem wrapped_sizes :
    (∀ fuel rightCapacity, doubleUntil fuel 1 (2 ^ 63 + 1) ≠ .ok rightCapacity) ∧
    Tsqueue.create ⟨true, true, some fun _ => 0⟩ 2 (2 ^ 63) =
      .ok (some ⟨[0], 0, 2 ^ 63, 2, 0, 0⟩) ∧
    AsockVector.create ⟨true, some fun _ => 0⟩ 2 (2 ^ 63) = some ⟨0, [0], 2 ^ 63, 2⟩ ∧
    ¬ SizedQueue ⟨true, true, some fun _ => 0⟩ 1 (2 ^ 63 + 1) ∧
    ¬ SizedQueue ⟨true, true, some fun _ => 0⟩ 2 (2 ^ 63) ∧
    ¬ SizedVector ⟨true, some fun _ => 0⟩ 2 (2 ^ 63) := by
  have queue : Tsqueue.create ⟨true, true, some fun _ => 0⟩ 2 (2 ^ 63) =
      .ok (some ⟨[0], 0, 2 ^ 63, 2, 0, 0⟩) := by decide +kernel
  have vector : AsockVector.create ⟨true, some fun _ => 0⟩ 2 (2 ^ 63) =
      some ⟨0, [0], 2 ^ 63, 2⟩ := by decide +kernel
  refine ⟨fun _ _ => rounding_stuck (Nat.lt_succ_self _), queue, vector, ?_, ?_, ?_⟩
  · rintro ⟨⟨fuel, rightCapacity, ends⟩, _⟩
    exact rounding_stuck (Nat.lt_succ_self _) ends
  · rintro ⟨_, result, created, sized⟩
    rw [queue, Except.ok.injEq] at created
    subst created
    obtain ⟨_, _, room⟩ := sized _ rfl
    revert room
    decide
  · intro sized
    obtain ⟨_, _, room⟩ := sized _ vector
    revert room
    decide

end Results

end Libasock.CreationSizes
