import Libasock.LockedRuns
import Libasock.QueueStatements

/-!
The thread-safe queue is linearizable: whichever way the statements of its calls
interleave, on any number of threads, the calls answer as the calls of a list
that happen one after another, and a thread that holds the mutex leaves it. The
mutex is taken as fair and `m_size` as read and written in one piece.
-/

namespace Libasock.QueueLinearizability
open ByteBlocks ReturnCodes GuardedRuns TsqueueModel TsqueueContent TsqueueRefinement HeadChunks
open LockedObjects QueueStatements

section ListObject

/-- What a call of the list answers and leaves. How long the chunk at the head is, the ring
decides. -/
def Answers (itemSize : Nat) (items : List (List Byte)) (call : Call) (answer : Answer)
    (next : List (List Byte)) : Prop :=
  match call with
  | .change op =>
      answer = .changed (listPerform itemSize items op).1 ∧
        next = (listPerform itemSize items op).2
  | .forEach => answer = .visited items.zipIdx ∧ next = items
  | .head =>
      (∃ count ≤ items.length, (items ≠ [] → 1 ≤ count) ∧
        answer = .chunk (items.take count).flatten) ∧ next = items
  | .size => answer = .size items.length ∧ next = items

/-- What the queue asks of a call that has the mutex. -/
def admits (queue : Tsqueue) : Call → Prop
  | .change op => Admissible queue.mItemSize (content queue) op
  | .forEach | .head | .size => True

end ListObject

section Sound
variable {itemSize : Nat} {items : List (List Byte)} {queue : Tsqueue}

theorem change_ends {op : Op} {first : Frame}
    (enters : program.entry (.change op) = .underLock first)
    (rep : Represents itemSize items queue) (admissible : Admissible itemSize items op) :
    ∃ after, Ends program first queue (.changed (listPerform itemSize items op).1) after ∧
      Represents itemSize (listPerform itemSize items op).2 after := by
  obtain ⟨after, performs, represents⟩ := perform_refines rep admissible
  refine ⟨after, ?_, represents⟩
  cases op with
  | enqueue src itemCount answer =>
      cases enters
      obtain ⟨⟨code, filled⟩, enqueues, same⟩ := sequenced performs
      obtain ⟨codes, rfl⟩ := Prod.mk.inj (Except.ok.inj same)
      cases codes
      exact enqueue_ends enqueues
  | dequeue dst dstCapacity =>
      cases enters
      obtain ⟨⟨count, block, shorter⟩, dequeues, same⟩ := sequenced performs
      obtain ⟨taken, rfl⟩ := Prod.mk.inj (Except.ok.inj same)
      rw [← taken]
      exact dequeue_ends dequeues
  | clear =>
      cases enters
      cases performs
      exact .later rfl (.later rfl (.later rfl (.here rfl)))

theorem call_ends {call : Call} {first : Frame} (enters : program.entry call = .underLock first)
    (rep : Represents itemSize items queue) (admitted : admits queue call) :
    ∃ answer after next, Ends program first queue answer after ∧
      Answers itemSize items call answer next ∧ Represents itemSize next after := by
  cases call with
  | change op =>
      have admissible : Admissible itemSize items op := by
        rw [← rep.itemSize, ← rep.items]
        exact admitted
      obtain ⟨after, ends, represents⟩ := change_ends enters rep admissible
      exact ⟨_, after, _, ends, ⟨rfl, rfl⟩, represents⟩
  | forEach =>
      cases enters
      refine ⟨_, queue, items, forEach_ends queue, ⟨?_, rfl⟩, rep⟩
      rw [forEach_spec rep.valid, rep.items]
  | head =>
      cases enters
      obtain ⟨bytes, chunk, ends⟩ := head_ends rep.valid
      refine ⟨_, queue, items, ends, ⟨⟨queue.headSize, ?_, ?_, ?_⟩, rfl⟩, rep⟩
      · rw [← rep.length]
        exact headSize_le rep.valid
      · intro pending
        refine Nat.pos_of_ne_zero fun none => pending ?_
        have empty := (headSize_zero rep.valid).mp none
        rw [rep.length] at empty
        exact List.eq_nil_of_length_eq_zero empty
      · rw [headChunk_spec rep.valid, rep.items] at chunk
        rw [Except.ok.inj chunk]
  | size => cases enters

theorem bound {Value Result : Type} {outcome : Outcome Value} {rest : Value → Option Result}
    {result : Result} (runs : (outcome.toOption >>= rest) = some result) :
    ∃ value, outcome = .ok value ∧ rest value = some result := by
  cases outcome with
  | error fault => cases runs
  | ok value => exact ⟨value, rfl, runs⟩

theorem reallocate_size {newCapacity : Nat} {answer : Allocation} {code : AsockReturnCode}
    {after : Tsqueue} (reallocates : queue.reallocate newCapacity answer = .ok (code, after)) :
    after.mSize = queue.mSize := by
  unfold Tsqueue.reallocate at reallocates
  split at reallocates
  · split at reallocates <;> cases reallocates <;> rfl
  · cases reallocates

/-- Only the statements that set `m_size` change it, and each of them is where its call happens. -/
theorem statement_hides {frame next : Frame} {after : Tsqueue}
    (advances : statement frame queue = some (next, after)) (same : decided next = decided frame) :
    after.mSize = queue.mSize := by
  cases frame with
  | testRoom src itemCount answer =>
      simp only [statement] at advances
      split at advances
      · obtain ⟨newCapacity, _, rest⟩ := bound advances
        cases rest
        rfl
      · cases advances
        rfl
  | reallocate src itemCount newCapacity answer =>
      obtain ⟨⟨code, moved⟩, reallocates, rest⟩ := bound advances
      have size := reallocate_size reallocates
      simp only at rest
      split at rest <;> cases rest <;> exact size
  | relocateHead src itemCount newCapacity =>
      simp only [statement] at advances
      split at advances
      · obtain ⟨data, _, rest⟩ := bound advances
        cases rest
        rfl
      · cases advances
        rfl
  | copyFront src itemCount =>
      simp only [statement] at advances
      split at advances <;> obtain ⟨data, _, rest⟩ := bound advances <;> cases rest <;> rfl
  | copySecond src itemCount frontSpace =>
      obtain ⟨data, _, rest⟩ := bound advances
      cases rest
      rfl
  | copyFirst dst copySz =>
      simp only [statement] at advances
      split at advances <;> obtain ⟨block, _, rest⟩ := bound advances <;> cases rest <;> rfl
  | copyRest dst copySz firstBatch =>
      obtain ⟨block, _, rest⟩ := bound advances
      cases rest
      rfl
  | visit sz index visits | readHeadSize =>
      simp only [statement] at advances
      split at advances <;> cases advances <;> rfl
  | readHead headSize =>
      obtain ⟨position, _, rest⟩ := Option.bind_eq_some_iff.mp advances
      obtain ⟨bytes, _, leaves⟩ := bound rest
      cases leaves
      rfl
  -- Here the call happens, so the two sides of `same` differ.
  | raiseSize | lowerSize | clearSize =>
      cases advances
      cases same
  | moveTail | setCapacity | raiseTail | setTail | wrapTail | boundCopy | raiseHead | setHead
  | wrapHead | clearTail | clearHead | readSize =>
      cases advances
      rfl
  | leave => cases advances

theorem statement_remains {frame next : Frame} {after : Tsqueue}
    (advances : statement frame queue = some (next, after)) (late : decided frame = true) :
    decided next = true := by
  cases frame with
  | clearTail | clearHead =>
      cases advances
      rfl
  | leave => cases advances
  | _ => cases late

theorem queue_sound (itemSize : Nat) :
    Sound program (Answers itemSize) admits (Represents itemSize) decided Tsqueue.mSize where
  runs := call_ends
  looks := by
    intro items queue sight call reads looks rep same
    cases call with
    | change op => cases op <;> cases looks
    | forEach | head => cases looks
    | size =>
        cases looks
        exact ⟨congrArg Answer.size (same.trans rep.length), rfl⟩
  enters := by
    intro call first enters
    cases call with
    | change op => cases op <;> cases enters <;> rfl
    | forEach | head => cases enters; rfl
    | size => cases enters
  remains := statement_remains
  hides := statement_hides
  stops := by
    intro frame answer ended
    cases frame <;> first | exact ⟨rfl, fun _ => rfl⟩ | cases ended

end Sound

section Results
variable {Thread : Type} [DecidableEq Thread]

-- Every history of the calls is the history of a list that answers at once.
theorem calls_linearize (itemSize capacity : Nat) (answers : CreateAnswers) (queue : Tsqueue)
    (wide : 1 ≤ itemSize)
    (created : Tsqueue.create answers itemSize capacity = .ok (some queue))
    (fits : itemSize * queue.mCapacity < sizeBound)
    {world : World Thread Tsqueue Call Frame Answer}
    (run : GuardedRun (step program) (admitted admits) (.initial queue) world) :
    ∃ order items, Linearizes (Answers itemSize) [] world.history order items ∧
      (world.lock = none → world.memory.size = items.length ∧
        world.memory.forEach = items.zipIdx) := by
  obtain ⟨order, items, explained, settled⟩ :=
    linearized (queue_sound itemSize) (created_represents created wide fits) run
  refine ⟨order, items, explained, fun unlocked => ?_⟩
  have rep := settled.free unlocked
  exact ⟨rep.length, by rw [forEach_spec rep.valid, rep.items]⟩

/-- One thread fills the ring with three items. The other asks for the size before `m_size` is set
and after it, while the first still holds the mutex. -/
def sizesMeanwhile : List (Label Bool Call) :=
  [.call true (.change (.enqueue [7, 8, 9] 3 (some fun _ => 0))), .acquire true] ++
    List.replicate 6 (.advance true) ++
    [.call false .size, .look false, .answer false, .advance true, .advance true,
      .call false .size, .look false, .answer false]

def returns (world : World Bool Tsqueue Call Frame Answer) : List (Nat × Answer) :=
  world.history.filterMap fun event =>
    match event with
    | .returned ticket answer => some (ticket, answer)
    | .called _ _ => none

instance admitsDecidable (queue : Tsqueue) (call : Call) : Decidable (admits queue call) :=
  match call with
  | .change (.enqueue src itemCount answer) =>
      inferInstanceAs (Decidable (queue.mItemSize * itemCount ≤ src.length ∧
        queue.mItemSize * ((content queue).length + itemCount) ≤ 2 ^ 63 ∧ answer.isSome))
  | .change (.dequeue dst dstCapacity) =>
      inferInstanceAs (Decidable (∀ block ∈ dst, queue.mItemSize * dstCapacity ≤ block.length))
  | .change .clear | .forEach | .head | .size => inferInstanceAs (Decidable True)

theorem meanwhile_runs :
    ∃ world, GuardedRun (step program) (admitted admits) (.initial ⟨[0, 0], 0, 2, 1, 0, 0⟩) world ∧
      returns world = [(1, .size 0), (2, .size 3)] ∧ world.lock = some true := by
  obtain ⟨world, run, tested⟩ := replayed (step program) (admitted admits)
    (.initial ⟨[0, 0], 0, 2, 1, 0, 0⟩) sizesMeanwhile
    (fun world => returns world = [(1, .size 0), (2, .size 3)] ∧ world.lock = some true)
    (by decide +kernel)
  exact ⟨world, run, of_decide_eq_true tested⟩

theorem sizes_before_return :
    ∃ world : World Bool Tsqueue Call Frame Answer,
      returns world = [(1, .size 0), (2, .size 3)] ∧
      ∃ order items, Linearizes (Answers 1) [] world.history order items := by
  obtain ⟨world, run, answered, _⟩ := meanwhile_runs
  obtain ⟨order, items, explained, _⟩ := calls_linearize 1 2 ⟨true, true, some fun _ => 0⟩
    ⟨[0, 0], 0, 2, 1, 0, 0⟩ (by decide) rfl (by decide) run
  exact ⟨world, answered, order, items, explained⟩

-- No call under the mutex waits, loops for ever or leaves its blocks.
theorem owner_unlocks (itemSize capacity : Nat) (answers : CreateAnswers) (queue : Tsqueue)
    (wide : 1 ≤ itemSize)
    (created : Tsqueue.create answers itemSize capacity = .ok (some queue))
    (fits : itemSize * queue.mCapacity < sizeBound)
    {world : World Thread Tsqueue Call Frame Answer}
    (run : GuardedRun (step program) (admitted admits) (.initial queue) world) {thread : Thread}
    (held : world.lock = some thread) :
    ∃ count later ticket answer, exec (step program) world (goes thread count) = some later ∧
      later.lock = none ∧ later.place thread = .leaving ticket answer := by
  obtain ⟨order, items, _, settled⟩ :=
    linearized (queue_sound itemSize) (created_represents created wide fits) run
  exact settled.leaves held

theorem size_set_unlocks :
    ∃ world : World Bool Tsqueue Call Frame Answer,
      returns world = [(1, .size 0), (2, .size 3)] ∧ world.lock = some true ∧
      ∃ count later ticket answer, exec (step program) world (goes true count) = some later ∧
        later.lock = none ∧ later.place true = .leaving ticket answer := by
  obtain ⟨world, run, answered, held⟩ := meanwhile_runs
  exact ⟨world, answered, held, owner_unlocks 1 2 ⟨true, true, some fun _ => 0⟩
    ⟨[0, 0], 0, 2, 1, 0, 0⟩ (by decide) rfl (by decide) run held⟩

end Results

end Libasock.QueueLinearizability
