import Libasock.TsqueueRefinement

/-!
Peeking at the head of the queue and popping what was seen, as the send passes
and "Pushing random number of items and popping from head" do it. The chunk
behind the head pointer is the first straight run of the ring; what is left
after popping it begins at cell zero, so a second round ends it.
-/

namespace Libasock.HeadChunks
open ByteBlocks ReturnCodes RingWindows TsqueueModel TsqueueContent TsqueueRefinement

/-- The bytes of `asock_tsqueue_head_size` items read from `asock_tsqueue_head` on. -/
def headChunk (queue : Tsqueue) : Outcome (List Byte) :=
  match queue.head with
  | none => .ok []
  | some position => load queue.mData position (mulSize queue.mItemSize queue.headSize)

/-- Peeks at the whole chunk and pops it. -/
def peekPop (queue : Tsqueue) : Outcome (List Byte × Tsqueue) := do
  let chunk ← headChunk queue
  let popped ← queue.dequeue none queue.headSize
  return (chunk, popped.2.2)

/-- Rounds of peek and pop while `asock_tsqueue_size` is not zero, at most so many. -/
def peekPopAll : Nat → Tsqueue → Outcome (List (List Byte) × Tsqueue)
  | 0, queue => if queue.size = 0 then .ok ([], queue) else .error .diverges
  | rounds + 1, queue =>
      if queue.size = 0 then .ok ([], queue)
      else do
        let round ← peekPop queue
        let rest ← peekPopAll rounds round.2
        return (round.1 :: rest.1, rest.2)

variable {queue : Tsqueue} (valid : Valid queue)
include valid

theorem headSize_le : queue.headSize ≤ queue.mSize := by
  rw [headSize_exact valid]
  exact Nat.min_le_left ..

theorem headChunk_spec : headChunk queue = .ok ((content queue).take queue.headSize).flatten := by
  by_cases empty : queue.mSize = 0
  · have nothing : content queue = [] := List.eq_nil_of_length_eq_zero (by simpa using empty)
    rw [headChunk, Tsqueue.head, if_pos empty, nothing, List.take_nil]
    rfl
  · obtain ⟨position, points, chunk, inside⟩ := head_chunk valid (Nat.le_refl _) empty
    have sized := valid.sized
    have shorter := headSize_le valid
    have bytes := bytes_exact valid (Nat.le_trans shorter sized)
    rw [headChunk, points]
    simp only [bytes, load, if_pos inside, chunk]

theorem peekPop_spec : peekPop queue =
    .ok (((content queue).take queue.headSize).flatten, shortened queue queue.headSize) := by
  have pops := dequeue_spec none queue.headSize valid fun _ absent => by cases absent
  rw [Nat.min_eq_left (headSize_le valid)] at pops
  simp only [peekPop, headChunk_spec valid, pops, bind, Except.bind, pure, Except.pure]

/-- A chunk that is not everything ends at the end of the block. -/
theorem next_round (more : (shortened queue queue.headSize).mSize ≠ 0) :
    (shortened queue queue.headSize).headSize = (shortened queue queue.headSize).mSize := by
  have headInside := valid.headInside
  have short := (shortened_spec valid (headSize_le valid)).1
  have sized := short.sized
  have around : (shortened queue queue.headSize).mHeadPos = 0 := by
    have size := headSize_exact valid
    simp only [shortened] at more ⊢
    have ends : queue.mHeadPos + queue.headSize = queue.mCapacity := by omega
    rw [ends, Nat.mod_self]
  rw [headSize_exact short, around]
  exact Nat.min_eq_left sized

/-- A chunk that is everything empties the queue in one round. -/
theorem last_round (rounds : Nat) (whole : queue.headSize = queue.mSize) (pending : queue.mSize ≠ 0) :
    peekPopAll (rounds + 1) queue =
      .ok ([(content queue).flatten], shortened queue queue.headSize) := by
  have gone : (shortened queue queue.headSize).size = 0 := by
    simp only [Tsqueue.size, shortened]
    omega
  have all : (content queue).take queue.headSize = content queue :=
    List.take_of_length_le (by rw [content_length, whole])
  have finished : peekPopAll rounds (shortened queue queue.headSize) =
      .ok ([], shortened queue queue.headSize) := by
    cases rounds <;> exact if_pos gone
  simp only [peekPopAll, Tsqueue.size, if_neg pending, peekPop_spec valid, finished, all, bind,
    Except.bind, pure, Except.pure]

theorem peekPopAll_spec : ∃ chunks last, peekPopAll 2 queue = .ok (chunks, last) ∧
    chunks.flatten = (content queue).flatten ∧ last.size = 0 := by
  by_cases empty : queue.mSize = 0
  · have nothing : content queue = [] := List.eq_nil_of_length_eq_zero (by simpa using empty)
    exact ⟨[], queue, if_pos empty, by rw [nothing], empty⟩
  · have short := shortened_spec valid (headSize_le valid)
    by_cases more : (shortened queue queue.headSize).mSize = 0
    · have whole : queue.headSize = queue.mSize := by
        have shorter := headSize_le valid
        simp only [shortened] at more
        omega
      exact ⟨_, _, last_round valid 1 whole empty, by simp, more⟩
    · have second := next_round valid more
      have ends := last_round short.1 0 second more
      have joined := congrArg List.flatten (List.take_append_drop queue.headSize (content queue))
      rw [List.flatten_append] at joined
      refine ⟨[((content queue).take queue.headSize).flatten,
          (content (shortened queue queue.headSize)).flatten],
        shortened (shortened queue queue.headSize)
          (shortened queue queue.headSize).headSize, ?_, ?_, ?_⟩
      · rw [peekPopAll]
        simp only [Tsqueue.size, if_neg empty, peekPop_spec valid, ends, bind, Except.bind, pure,
          Except.pure]
      · rw [short.2]
        simpa using joined
      · simp only [Tsqueue.size, second]
        simp [shortened]

omit valid

-- Every state the calls reach, with its items in the words of the list.
theorem peek_pop_exact (itemSize capacity : Nat) (answers : CreateAnswers) (first : Tsqueue)
    (ops : List Op) (wide : 1 ≤ itemSize)
    (created : Tsqueue.create answers itemSize capacity = .ok (some first))
    (fits : itemSize * first.mCapacity < sizeBound) (admissible : AdmissibleAll itemSize [] ops) :
    ∃ queue, performAll first ops = .ok ((listPerformAll itemSize [] ops).1, queue) ∧
      let items := (listPerformAll itemSize [] ops).2
      (items ≠ [] → 1 ≤ queue.headSize ∧ queue.headSize ≤ queue.size ∧
        headChunk queue = .ok (items.take queue.headSize).flatten) ∧
      (∀ count ≤ queue.headSize, ∀ block : List Byte, itemSize * count ≤ block.length →
        ∃ after, queue.dequeue none count = .ok (count, none, after) ∧
          queue.dequeue (some block) count =
            .ok (count, some (handOver itemSize items count block), after) ∧
          after.forEach = (items.drop count).zipIdx) ∧
      ∃ chunks last, peekPopAll 2 queue = .ok (chunks, last) ∧
        chunks.flatten = items.flatten ∧ last.size = 0 := by
  obtain ⟨queue, performs, rep⟩ :=
    performAll_refines ops (created_represents created wide fits) admissible
  refine ⟨queue, performs, fun pending => ⟨?_, headSize_le rep.valid, ?_⟩, ?_, ?_⟩
  · have occupied : queue.mSize ≠ 0 := by
      rw [rep.length]
      exact fun none => pending (List.eq_nil_of_length_eq_zero none)
    have zero := headSize_zero rep.valid
    omega
  · rw [headChunk_spec rep.valid, rep.items]
  · intro count bounded block room
    have inside := Nat.le_trans bounded (headSize_le rep.valid)
    have short := shortened_spec rep.valid inside
    have pops := dequeue_spec none count rep.valid fun _ absent => by cases absent
    have copies := dequeue_spec (some block) count rep.valid (by
      rintro other same
      cases same
      rw [rep.itemSize, Nat.min_eq_left inside]
      exact room)
    rw [Nat.min_eq_left inside] at pops copies
    refine ⟨_, pops, ?_, ?_⟩
    · rw [copies, Option.map_some, delivered, rep.items, rep.itemSize]
      rfl
    · rw [forEach_spec short.1, short.2, rep.items]
  · obtain ⟨chunks, last, drains, whole, empty⟩ := peekPopAll_spec rep.valid
    exact ⟨chunks, last, drains, by rw [whole, rep.items], empty⟩

/-- Five one-byte items in a ring of eight, three of them around its end. -/
def aroundTheEnd : List Op :=
  [.enqueue [0, 1, 2, 3, 4, 5] 6 (some fun _ => 9), .dequeue none 6,
    .enqueue [6, 7, 8, 9, 10] 5 (some fun _ => 9)]

theorem around_the_end_drained :
    ∃ first queue chunks last, Tsqueue.create ⟨true, true, some fun _ => 0⟩ 1 8 =
        .ok (some first) ∧
      performAll first aroundTheEnd = .ok ((listPerformAll 1 [] aroundTheEnd).1, queue) ∧
      peekPopAll 2 queue = .ok (chunks, last) ∧ chunks.flatten = [6, 7, 8, 9, 10] ∧
      last.size = 0 := by
  obtain ⟨queue, performs, _, _, chunks, last, drains, whole, empty⟩ := peek_pop_exact 1 8
    ⟨true, true, some fun _ => 0⟩ ⟨[0, 0, 0, 0, 0, 0, 0, 0], 0, 8, 1, 0, 0⟩ aroundTheEnd
    (by decide) rfl (by decide)
    (by simp [aroundTheEnd, AdmissibleAll, Admissible, listPerform, slots])
  exact ⟨_, queue, chunks, last, rfl, performs, drains, whole, empty⟩

end Libasock.HeadChunks
