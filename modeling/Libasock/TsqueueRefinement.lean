import Libasock.TsqueueContent

/-!
The ring buffer refines a list of items. `listPerform` states what the queue is
for, without positions, capacities or copies; `Tsqueue.perform` runs the calls
of `asock_tsqueue.c`. The mutex makes every call one step, so a sequence of
calls stands for every interleaving of the threads that make them.
-/

namespace Libasock.TsqueueRefinement
open ByteBlocks ReturnCodes RingWindows TsqueueModel TsqueueContent

inductive Op where
  | enqueue (src : List Byte) (itemCount : Nat) (answer : Allocation)
  | dequeue (dst : Option (List Byte)) (dstCapacity : Nat)
  | clear

inductive Reply where
  | code (result : AsockReturnCode)
  | taken (count : Nat) (dst : Option (List Byte))
  | done
  deriving DecidableEq

def perform (queue : Tsqueue) : Op → Outcome (Reply × Tsqueue)
  | .enqueue src itemCount answer => do
      let result ← queue.enqueue src itemCount answer
      return (.code result.1, result.2)
  | .dequeue dst dstCapacity => do
      let result ← queue.dequeue dst dstCapacity
      return (.taken result.1 result.2.1, result.2.2)
  | .clear => return (.done, queue.clear)

def performAll (queue : Tsqueue) : List Op → Outcome (List Reply × Tsqueue)
  | [] => return ([], queue)
  | op :: rest => do
      let first ← perform queue op
      let tail ← performAll first.2 rest
      return (first.1 :: tail.1, tail.2)

section ListQueue

/-- The first `count` items written over the start of the caller's block. -/
def handOver (itemSize : Nat) (items : List (List Byte)) (count : Nat) (block : List Byte) :
    List Byte :=
  (items.take count).flatten ++ block.drop (itemSize * count)

def listPerform (itemSize : Nat) (items : List (List Byte)) : Op → Reply × List (List Byte)
  | .enqueue src itemCount _ => (.code asockSuccess, items ++ slots itemSize src itemCount)
  | .dequeue dst dstCapacity =>
      (.taken (min dstCapacity items.length)
        (dst.map (handOver itemSize items (min dstCapacity items.length))),
        items.drop (min dstCapacity items.length))
  | .clear => (.done, [])

def listPerformAll (itemSize : Nat) (items : List (List Byte)) :
    List Op → List Reply × List (List Byte)
  | [] => ([], items)
  | op :: rest =>
      let first := listPerform itemSize items op
      let tail := listPerformAll itemSize first.2 rest
      (first.1 :: tail.1, tail.2)

/-- What a caller promises: the source holds the items it announces, lies beside
the queue's items in one address space, a destination has room for
`dstCapacity` items, and `realloc` succeeds. -/
def Admissible (itemSize : Nat) (items : List (List Byte)) : Op → Prop
  | .enqueue src itemCount answer =>
      itemSize * itemCount ≤ src.length ∧ itemSize * (items.length + itemCount) ≤ 2 ^ 63 ∧
        answer.isSome
  | .dequeue dst dstCapacity => ∀ block ∈ dst, itemSize * dstCapacity ≤ block.length
  | .clear => True

def AdmissibleAll (itemSize : Nat) (items : List (List Byte)) : List Op → Prop
  | [] => True
  | op :: rest =>
      Admissible itemSize items op ∧ AdmissibleAll itemSize (listPerform itemSize items op).2 rest

end ListQueue

structure Represents (itemSize : Nat) (items : List (List Byte)) (queue : Tsqueue) : Prop where
  valid : Valid queue
  itemSize : queue.mItemSize = itemSize
  items : content queue = items

theorem Represents.length {itemSize : Nat} {items : List (List Byte)} {queue : Tsqueue}
    (rep : Represents itemSize items queue) : queue.mSize = items.length := by
  rw [← rep.items, content_length]

theorem perform_refines {itemSize : Nat} {items : List (List Byte)} {queue : Tsqueue} {op : Op}
    (rep : Represents itemSize items queue) (admissible : Admissible itemSize items op) :
    ∃ after, perform queue op = .ok ((listPerform itemSize items op).1, after) ∧
      Represents itemSize (listPerform itemSize items op).2 after := by
  have size := rep.length
  cases op with
  | enqueue src itemCount answer =>
      obtain ⟨source, addressable, granted⟩ := admissible
      obtain ⟨after, enqueues, valid, holds, kept⟩ := enqueue_spec rep.valid
        (by rw [Addressable, rep.itemSize, size]; exact addressable)
        (by rw [rep.itemSize]; exact source) granted
      refine ⟨after, ?_, valid, kept.trans rep.itemSize, ?_⟩
      · simp only [perform, enqueues, bind, Except.bind, pure, Except.pure, listPerform]
      · rw [holds, rep.items, rep.itemSize]
        rfl
  | dequeue dst dstCapacity =>
      have room : ∀ block ∈ dst,
          queue.mItemSize * min dstCapacity queue.mSize ≤ block.length := by
        intro block member
        rw [rep.itemSize]
        exact Nat.le_trans (Nat.mul_le_mul_left _ (Nat.min_le_left ..)) (admissible block member)
      have dequeues := dequeue_spec dst dstCapacity rep.valid room
      have short := shortened_spec rep.valid (Nat.min_le_right dstCapacity queue.mSize)
      refine ⟨shortened queue (min dstCapacity queue.mSize), ?_, short.1, rep.itemSize, ?_⟩
      · simp only [perform, dequeues, bind, Except.bind, pure, Except.pure, listPerform,
          ← rep.items, ← rep.itemSize, content_length]
        rfl
      · rw [short.2, rep.items, size]
        rfl
  | clear =>
      have cleared := clear_spec rep.valid
      exact ⟨queue.clear, rfl, cleared.1, rep.itemSize, cleared.2⟩

theorem performAll_refines {itemSize : Nat} {items : List (List Byte)} {queue : Tsqueue}
    (ops : List Op) (rep : Represents itemSize items queue)
    (admissible : AdmissibleAll itemSize items ops) :
    ∃ last, performAll queue ops = .ok ((listPerformAll itemSize items ops).1, last) ∧
      Represents itemSize (listPerformAll itemSize items ops).2 last := by
  induction ops generalizing queue items with
  | nil => exact ⟨queue, rfl, rep⟩
  | cons op rest ih =>
      obtain ⟨middle, performs, middleRep⟩ := perform_refines rep admissible.1
      obtain ⟨last, finishes, lastRep⟩ := ih middleRep admissible.2
      refine ⟨last, ?_, lastRep⟩
      simp only [performAll, performs, finishes, bind, Except.bind, pure, Except.pure,
        listPerformAll]

theorem created_represents {answers : CreateAnswers} {itemSize capacity : Nat} {queue : Tsqueue}
    (created : Tsqueue.create answers itemSize capacity = .ok (some queue)) (wide : 1 ≤ itemSize)
    (fits : itemSize * queue.mCapacity < sizeBound) : Represents itemSize [] queue := by
  obtain ⟨valid, empty, width⟩ := create_spec created wide fits
  exact ⟨valid, width, empty⟩

-- Every reply is the list's reply, and the size and the visited items are those of the list.
theorem queue_refines_list (itemSize capacity : Nat) (answers : CreateAnswers) (queue : Tsqueue)
    (ops : List Op) (wide : 1 ≤ itemSize)
    (created : Tsqueue.create answers itemSize capacity = .ok (some queue))
    (fits : itemSize * queue.mCapacity < sizeBound) (admissible : AdmissibleAll itemSize [] ops) :
    ∃ last, performAll queue ops = .ok ((listPerformAll itemSize [] ops).1, last) ∧
      last.size = (listPerformAll itemSize [] ops).2.length ∧
      last.forEach = (listPerformAll itemSize [] ops).2.zipIdx := by
  obtain ⟨last, performs, rep⟩ :=
    performAll_refines ops (created_represents created wide fits) admissible
  refine ⟨last, performs, rep.length, ?_⟩
  rw [forEach_spec rep.valid, rep.items]

/-- Two-byte items in a ring of four: the second batch wraps, the third one grows the ring. -/
def wrapThenGrow : List Op :=
  [.enqueue [0, 1, 2, 3, 4, 5] 3 (some fun _ => 9), .dequeue (some [7, 7, 7, 7]) 2,
    .enqueue [6, 7, 8, 9, 10, 11] 3 (some fun _ => 9),
    .enqueue [12, 13] 1 (some fun _ => 9), .dequeue none 1]

theorem wrap_then_grow_refines :
    ∃ queue last, Tsqueue.create ⟨true, true, some fun _ => 0⟩ 2 3 = .ok (some queue) ∧
      performAll queue wrapThenGrow = .ok ((listPerformAll 2 [] wrapThenGrow).1, last) ∧
      last.size = 4 ∧ last.forEach = [([6, 7], 0), ([8, 9], 1), ([10, 11], 2), ([12, 13], 3)] := by
  obtain ⟨last, performs, size, visits⟩ := queue_refines_list 2 3 ⟨true, true, some fun _ => 0⟩
    ⟨[0, 0, 0, 0, 0, 0, 0, 0], 0, 4, 2, 0, 0⟩ wrapThenGrow (by decide) rfl (by decide)
    (by simp [wrapThenGrow, AdmissibleAll, Admissible, listPerform, slots])
  exact ⟨_, last, rfl, performs, size, visits⟩

end Libasock.TsqueueRefinement
