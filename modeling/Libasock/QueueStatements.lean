import Libasock.HeadChunks
import Libasock.LockedObjects

/-!
The calls of `asock_tsqueue.c` one statement at a time, as threads interleave
them: between `pthread_mutex_lock` and `pthread_mutex_unlock` a frame says which
statement is next and holds the locals. `asock_tsqueue_size` takes no lock. Run
to their ends the statements compute what the calls of `TsqueueModel` compute.
-/

namespace Libasock.QueueStatements
open ByteBlocks ReturnCodes TsqueueModel TsqueueContent TsqueueRefinement HeadChunks LockedObjects

section Statements

inductive Call where
  | change (op : Op)
  | forEach
  | head
  | size

inductive Answer where
  | changed (reply : TsqueueRefinement.Reply)
  | visited (visits : List (List Byte × Nat))
  | chunk (bytes : List Byte)
  | size (count : Nat)
  deriving DecidableEq

inductive Frame where
  -- asock_tsqueue_enqueue
  | testRoom (src : List Byte) (itemCount : Nat) (answer : Allocation)
  | reallocate (src : List Byte) (itemCount newCapacity : Nat) (answer : Allocation)
  | relocateHead (src : List Byte) (itemCount newCapacity : Nat)
  | moveTail (src : List Byte) (itemCount newCapacity : Nat)
  | setCapacity (src : List Byte) (itemCount newCapacity : Nat)
  | copyFront (src : List Byte) (itemCount : Nat)
  | copySecond (src : List Byte) (itemCount frontSpace : Nat)
  | raiseTail (itemCount : Nat)
  | setTail (itemCount secondBatch : Nat)
  | wrapTail (itemCount : Nat)
  | raiseSize (itemCount : Nat)
  -- asock_tsqueue_dequeue
  | boundCopy (dst : Option (List Byte)) (dstCapacity : Nat)
  | copyFirst (dst : Option (List Byte)) (copySz : Nat)
  | copyRest (dst : Option (List Byte)) (copySz firstBatch : Nat)
  | raiseHead (dst : Option (List Byte)) (copySz : Nat)
  | setHead (dst : Option (List Byte)) (copySz secondBatch : Nat)
  | wrapHead (dst : Option (List Byte)) (copySz : Nat)
  | lowerSize (dst : Option (List Byte)) (copySz : Nat)
  -- asock_tsqueue_clear
  | clearSize
  | clearTail
  | clearHead
  -- asock_tsqueue_for_each
  | readSize
  | visit (sz index : Nat) (visits : List (List Byte × Nat))
  -- asock_tsqueue_head_lock, then asock_tsqueue_head_size and asock_tsqueue_head
  | readHeadSize
  | readHead (headSize : Nat)
  | leave (answer : Answer)

/-- One statement under the mutex. The source's `while` over `new_capacity` touches locals only
and is one statement here. -/
def statement (frame : Frame) (queue : Tsqueue) : Option (Frame × Tsqueue) :=
  match frame with
  | .testRoom src itemCount answer =>
      if queue.mCapacity < addSize queue.mSize itemCount then do
        let newCapacity ← (doubleUntil doublingFuel (mulSize queue.mCapacity 2)
          (addSize queue.mSize itemCount)).toOption
        return (.reallocate src itemCount newCapacity answer, queue)
      else return (.copyFront src itemCount, queue)
  | .reallocate src itemCount newCapacity answer => do
      let reallocated ← (queue.reallocate newCapacity answer).toOption
      if reallocated.1 = asockSuccess then
        return (.relocateHead src itemCount newCapacity, reallocated.2)
      else return (.leave (.changed (.code asockErrNomem)), reallocated.2)
  | .relocateHead src itemCount newCapacity =>
      if queue.mTailPos ≤ queue.mHeadPos ∧ queue.mSize ≠ 0 then do
        let data ← (memcpyWithin queue.mData (mulSize queue.mItemSize queue.mCapacity) 0
          (mulSize queue.mTailPos queue.mItemSize)).toOption
        return (.moveTail src itemCount newCapacity, { queue with mData := data })
      else return (.setCapacity src itemCount newCapacity, queue)
  | .moveTail src itemCount newCapacity =>
      return (.setCapacity src itemCount newCapacity,
        { queue with mTailPos := addSize queue.mCapacity queue.mTailPos })
  | .setCapacity src itemCount newCapacity =>
      return (.copyFront src itemCount, { queue with mCapacity := newCapacity })
  | .copyFront src itemCount =>
      let frontSpace := subSize queue.mCapacity queue.mTailPos
      if itemCount ≤ frontSpace then do
        let data ← (memcpy queue.mData (mulSize queue.mItemSize queue.mTailPos) src 0
          (mulSize queue.mItemSize itemCount)).toOption
        return (.raiseTail itemCount, { queue with mData := data })
      else do
        let data ← (memcpy queue.mData (mulSize queue.mItemSize queue.mTailPos) src 0
          (mulSize queue.mItemSize frontSpace)).toOption
        return (.copySecond src itemCount frontSpace, { queue with mData := data })
  | .copySecond src itemCount frontSpace => do
      let secondBatch := subSize itemCount frontSpace
      let data ← (memcpy queue.mData 0 src (mulSize queue.mItemSize frontSpace)
        (mulSize queue.mItemSize secondBatch)).toOption
      return (.setTail itemCount secondBatch, { queue with mData := data })
  | .raiseTail itemCount =>
      return (.wrapTail itemCount, { queue with mTailPos := addSize queue.mTailPos itemCount })
  | .setTail itemCount secondBatch =>
      return (.wrapTail itemCount, { queue with mTailPos := secondBatch })
  | .wrapTail itemCount =>
      return (.raiseSize itemCount, { queue with
        mTailPos := if queue.mTailPos = queue.mCapacity then 0 else queue.mTailPos })
  | .raiseSize itemCount =>
      return (.leave (.changed (.code asockSuccess)),
        { queue with mSize := addSize queue.mSize itemCount })
  | .boundCopy dst dstCapacity => return (.copyFirst dst (min dstCapacity queue.mSize), queue)
  | .copyFirst dst copySz =>
      if addSize queue.mHeadPos copySz ≤ queue.mCapacity then do
        let dst ← (queue.copyOut dst 0 (mulSize queue.mItemSize queue.mHeadPos)
          (mulSize queue.mItemSize copySz)).toOption
        return (.raiseHead dst copySz, queue)
      else do
        let firstBatch := subSize queue.mCapacity queue.mHeadPos
        let dst ← (queue.copyOut dst 0 (mulSize queue.mItemSize queue.mHeadPos)
          (mulSize queue.mItemSize firstBatch)).toOption
        return (.copyRest dst copySz firstBatch, queue)
  | .copyRest dst copySz firstBatch => do
      let secondBatch := subSize copySz firstBatch
      let dst ← (queue.copyOut dst (mulSize queue.mItemSize firstBatch) 0
        (mulSize queue.mItemSize secondBatch)).toOption
      return (.setHead dst copySz secondBatch, queue)
  | .raiseHead dst copySz =>
      return (.wrapHead dst copySz, { queue with mHeadPos := addSize queue.mHeadPos copySz })
  | .setHead dst copySz secondBatch =>
      return (.wrapHead dst copySz, { queue with mHeadPos := secondBatch })
  | .wrapHead dst copySz =>
      return (.lowerSize dst copySz, { queue with
        mHeadPos := if queue.mHeadPos = queue.mCapacity then 0 else queue.mHeadPos })
  | .lowerSize dst copySz =>
      return (.leave (.changed (.taken copySz dst)),
        { queue with mSize := subSize queue.mSize copySz })
  | .clearSize => return (.clearTail, { queue with mSize := 0 })
  | .clearTail => return (.clearHead, { queue with mTailPos := 0 })
  | .clearHead => return (.leave (.changed .done), { queue with mHeadPos := 0 })
  | .readSize => return (.visit queue.mSize 0 [], queue)
  | .visit sz index visits =>
      if index < sz then
        let pos := addSize queue.mHeadPos index % queue.mCapacity
        return (.visit sz (index + 1) (visits ++ [(slot queue.mItemSize queue.mData pos, index)]),
          queue)
      else return (.leave (.visited visits), queue)
  | .readHeadSize =>
      if queue.headSize = 0 then return (.leave (.chunk []), queue)
      else return (.readHead queue.headSize, queue)
  | .readHead headSize => do
      let position ← queue.head
      let bytes ← (load queue.mData position (mulSize queue.mItemSize headSize)).toOption
      return (.leave (.chunk bytes), queue)
  | .leave _ => none

def program : Program Tsqueue Call Frame Answer where
  entry
    | .change (.enqueue src itemCount answer) => .underLock (.testRoom src itemCount answer)
    | .change (.dequeue dst dstCapacity) => .underLock (.boundCopy dst dstCapacity)
    | .change .clear => .underLock .clearSize
    | .forEach => .underLock .readSize
    | .head => .underLock .readHeadSize
    | .size => .look fun queue => .size queue.size
  advance := statement
  finished
    | .leave answer => some answer
    | _ => none

/-- Past the statement that sets `m_size`, or past the last one. -/
def decided : Frame → Bool
  | .clearTail | .clearHead | .leave _ => true
  | _ => false

end Statements

section Enqueues
variable {queue after : Tsqueue} {src : List Byte} {itemCount : Nat}

theorem defined {Value : Type} {outcome : Outcome Value} {value : Value}
    (runs : outcome = .ok value) : outcome.toOption = some value := by
  rw [runs]
  rfl

theorem wrapTail_ends (queue : Tsqueue) (itemCount : Nat) :
    Ends program (.wrapTail itemCount) queue (.changed (.code asockSuccess)) { queue with
      mTailPos := if queue.mTailPos = queue.mCapacity then 0 else queue.mTailPos
      mSize := addSize queue.mSize itemCount } :=
  .later rfl (.later rfl (.here rfl))

theorem copyIn_ends (copies : queue.copyIn src itemCount = .ok after) :
    Ends program (.copyFront src itemCount) queue (.changed (.code asockSuccess)) after := by
  rw [Tsqueue.copyIn] at copies
  by_cases straight : itemCount ≤ subSize queue.mCapacity queue.mTailPos
  · rw [if_pos straight] at copies
    obtain ⟨data, copied, same⟩ := sequenced copies
    cases same
    have copies : statement (.copyFront src itemCount) queue =
        some (.raiseTail itemCount, { queue with mData := data }) := by
      simp only [statement, if_pos straight, defined copied, bind, Option.bind]
      rfl
    exact .later copies (.later rfl (wrapTail_ends ..))
  · rw [if_neg straight] at copies
    obtain ⟨front, copiedFront, copies⟩ := sequenced copies
    obtain ⟨data, copied, same⟩ := sequenced copies
    cases same
    have copiesFront : statement (.copyFront src itemCount) queue =
        some (.copySecond src itemCount (subSize queue.mCapacity queue.mTailPos),
          { queue with mData := front }) := by
      simp only [statement, if_neg straight, defined copiedFront, bind, Option.bind]
      rfl
    have copiesSecond : statement
        (.copySecond src itemCount (subSize queue.mCapacity queue.mTailPos))
          { queue with mData := front } =
        some (.setTail itemCount (subSize itemCount (subSize queue.mCapacity queue.mTailPos)),
          { queue with mData := data }) := by
      simp only [statement, defined copied, bind, Option.bind]
      rfl
    exact .later copiesFront (.later copiesSecond (.later rfl (wrapTail_ends ..)))

theorem crowded_tests {newCapacity : Nat} (src : List Byte) (answer : Allocation)
    (crowded : queue.mCapacity < addSize queue.mSize itemCount)
    (doubled : doubleUntil doublingFuel (mulSize queue.mCapacity 2)
      (addSize queue.mSize itemCount) = .ok newCapacity) :
    statement (.testRoom src itemCount answer) queue =
      some (.reallocate src itemCount newCapacity answer, queue) := by
  simp only [statement, if_pos crowded, defined doubled, bind, Option.bind]
  rfl

/-- What `grow` does before the copies. -/
theorem grow_ends {grown : Tsqueue} {answer : Allocation} {reply : Answer}
    (crowded : queue.mCapacity < addSize queue.mSize itemCount)
    (grows : queue.grow itemCount answer = .ok (asockSuccess, grown))
    (rest : Ends program (.copyFront src itemCount) grown reply after) :
    Ends program (.testRoom src itemCount answer) queue reply after := by
  rw [Tsqueue.grow] at grows
  obtain ⟨newCapacity, doubled, grows⟩ := sequenced grows
  obtain ⟨⟨result, moved⟩, reallocated, grows⟩ := sequenced grows
  have tests := crowded_tests src answer crowded doubled
  by_cases granted : result = asockSuccess
  · rw [if_pos granted] at grows
    obtain ⟨relocated, relocates, same⟩ := sequenced grows
    cases same
    have reallocates : statement (.reallocate src itemCount newCapacity answer) queue =
        some (.relocateHead src itemCount newCapacity, moved) := by
      simp only [statement, defined reallocated, bind, Option.bind, if_pos granted]
      rfl
    refine .later tests (.later reallocates ?_)
    rw [Tsqueue.relocateHead] at relocates
    by_cases wrapped : moved.mTailPos ≤ moved.mHeadPos ∧ moved.mSize ≠ 0
    · rw [if_pos wrapped] at relocates
      obtain ⟨data, copied, same⟩ := sequenced relocates
      cases same
      have copies : statement (.relocateHead src itemCount newCapacity) moved =
          some (.moveTail src itemCount newCapacity, { moved with mData := data }) := by
        simp only [statement, if_pos wrapped, defined copied, bind, Option.bind]
        rfl
      exact .later copies (.later rfl (.later rfl rest))
    · rw [if_neg wrapped] at relocates
      cases relocates
      have stays : statement (.relocateHead src itemCount newCapacity) moved =
          some (.setCapacity src itemCount newCapacity, moved) := by
        simp only [statement, if_neg wrapped]
        rfl
      exact .later stays (.later rfl rest)
  · rw [if_neg granted] at grows
    cases grows

theorem enqueue_ends {answer : Allocation}
    (enqueues : queue.enqueue src itemCount answer = .ok (asockSuccess, after)) :
    Ends program (.testRoom src itemCount answer) queue (.changed (.code asockSuccess)) after := by
  rw [Tsqueue.enqueue] at enqueues
  by_cases crowded : queue.mCapacity < addSize queue.mSize itemCount
  · rw [if_pos crowded] at enqueues
    obtain ⟨⟨result, grown⟩, grows, enqueues⟩ := sequenced enqueues
    by_cases granted : result = asockSuccess
    · subst granted
      obtain ⟨filled, copies, same⟩ := sequenced enqueues
      cases same
      exact grow_ends crowded grows (copyIn_ends copies)
    · simp only [if_neg granted] at enqueues
      cases enqueues
      exact (granted rfl).elim
  · rw [if_neg crowded] at enqueues
    have enqueues : (queue.copyIn src itemCount >>= fun filled => pure (asockSuccess, filled)) =
        .ok (asockSuccess, after) := enqueues
    obtain ⟨filled, copies, same⟩ := sequenced enqueues
    cases same
    have tests : statement (.testRoom src itemCount answer) queue =
        some (.copyFront src itemCount, queue) := by
      simp only [statement, if_neg crowded]
      rfl
    exact .later tests (copyIn_ends copies)

/-- Without memory the call comes to its unlock as well. -/
theorem refused_ends {answer : Allocation}
    (enqueues : queue.enqueue src itemCount answer = .ok (asockErrNomem, after)) :
    Ends program (.testRoom src itemCount answer) queue (.changed (.code asockErrNomem)) after := by
  rw [Tsqueue.enqueue] at enqueues
  by_cases crowded : queue.mCapacity < addSize queue.mSize itemCount
  · rw [if_pos crowded] at enqueues
    obtain ⟨grown, grows, enqueues⟩ := sequenced enqueues
    rw [Tsqueue.grow] at grows
    obtain ⟨newCapacity, doubled, grows⟩ := sequenced grows
    obtain ⟨⟨result, moved⟩, reallocated, grows⟩ := sequenced grows
    by_cases granted : result = asockSuccess
    · rw [if_pos granted] at grows
      obtain ⟨_, _, same⟩ := sequenced grows
      cases same
      obtain ⟨_, _, same⟩ := sequenced enqueues
      cases same
    · rw [if_neg granted] at grows
      cases grows
      cases enqueues
      have refuses : statement (.reallocate src itemCount newCapacity answer) queue =
          some (.leave (.changed (.code asockErrNomem)), moved) := by
        simp only [statement, defined reallocated, bind, Option.bind, if_neg granted]
        rfl
      exact .later (crowded_tests src answer crowded doubled) (.later refuses (.here rfl))
  · rw [if_neg crowded] at enqueues
    have enqueues : (queue.copyIn src itemCount >>= fun filled => pure (asockSuccess, filled)) =
        .ok (asockErrNomem, after) := enqueues
    obtain ⟨_, _, same⟩ := sequenced enqueues
    cases same

end Enqueues

section Dequeues
variable {queue after : Tsqueue} {dst block : Option (List Byte)} {dstCapacity count : Nat}

theorem wrapHead_ends (queue : Tsqueue) (dst : Option (List Byte)) (copySz : Nat) :
    Ends program (.wrapHead dst copySz) queue (.changed (.taken copySz dst)) { queue with
      mHeadPos := if queue.mHeadPos = queue.mCapacity then 0 else queue.mHeadPos
      mSize := subSize queue.mSize copySz } :=
  .later rfl (.later rfl (.here rfl))

theorem dequeue_ends (dequeues : queue.dequeue dst dstCapacity = .ok (count, block, after)) :
    Ends program (.boundCopy dst dstCapacity) queue (.changed (.taken count block)) after := by
  rw [Tsqueue.dequeue] at dequeues
  refine .later rfl ?_
  generalize min dstCapacity queue.mSize = copySz at dequeues ⊢
  by_cases straight : addSize queue.mHeadPos copySz ≤ queue.mCapacity
  · rw [if_pos straight] at dequeues
    obtain ⟨filled, copied, same⟩ := sequenced dequeues
    cases same
    have copies : statement (.copyFirst dst count) queue =
        some (.raiseHead filled count, queue) := by
      simp only [statement, if_pos straight, defined copied, bind, Option.bind]
      rfl
    exact .later copies (.later rfl (wrapHead_ends ..))
  · rw [if_neg straight] at dequeues
    obtain ⟨front, copiedFront, dequeues⟩ := sequenced dequeues
    obtain ⟨filled, copied, same⟩ := sequenced dequeues
    cases same
    have copiesFirst : statement (.copyFirst dst count) queue =
        some (.copyRest front count (subSize queue.mCapacity queue.mHeadPos), queue) := by
      simp only [statement, if_neg straight, defined copiedFront, bind, Option.bind]
      rfl
    have copiesRest : statement
        (.copyRest front count (subSize queue.mCapacity queue.mHeadPos)) queue =
        some (.setHead filled count (subSize count (subSize queue.mCapacity queue.mHeadPos)),
          queue) := by
      simp only [statement, defined copied, bind, Option.bind]
      rfl
    exact .later copiesFirst (.later copiesRest (.later rfl (wrapHead_ends ..)))

end Dequeues

section Readers
variable {queue : Tsqueue}

theorem visit_ends (queue : Tsqueue) (sz index : Nat) (visits : List (List Byte × Nat))
    (seen : visits = (List.range index).map fun index =>
      (slot queue.mItemSize queue.mData (addSize queue.mHeadPos index % queue.mCapacity), index))
    (within : index ≤ sz) :
    Ends program (.visit sz index visits) queue (.visited ((List.range sz).map fun index =>
      (slot queue.mItemSize queue.mData (addSize queue.mHeadPos index % queue.mCapacity),
        index))) queue := by
  induction left : sz - index generalizing index visits with
  | zero =>
      have last : index = sz := by omega
      subst last
      have finishes : statement (.visit index index visits) queue =
          some (.leave (.visited visits), queue) := by
        simp only [statement, Nat.lt_irrefl, if_false]
        rfl
      subst seen
      exact .later finishes (.here rfl)
  | succ left ih =>
      have below : index < sz := by omega
      have visiting : statement (.visit sz index visits) queue = some (.visit sz (index + 1)
          (visits ++ [(slot queue.mItemSize queue.mData
            (addSize queue.mHeadPos index % queue.mCapacity), index)]), queue) := by
        simp only [statement, if_pos below]
        rfl
      refine .later visiting (ih (index + 1) _ ?_ below (by omega))
      rw [seen, List.range_succ, List.map_append]
      rfl

theorem forEach_ends (queue : Tsqueue) :
    Ends program .readSize queue (.visited queue.forEach) queue :=
  .later rfl (visit_ends queue queue.mSize 0 [] rfl (Nat.zero_le _))

theorem head_ends (valid : Valid queue) : ∃ bytes, headChunk queue = .ok bytes ∧
    Ends program .readHeadSize queue (.chunk bytes) queue := by
  have whole := headChunk_spec valid
  refine ⟨_, whole, ?_⟩
  by_cases empty : queue.headSize = 0
  · have finishes : statement .readHeadSize queue = some (.leave (.chunk []), queue) := by
      simp only [statement, if_pos empty]
      rfl
    rw [empty]
    exact .later finishes (.here rfl)
  · have reads : statement .readHeadSize queue = some (.readHead queue.headSize, queue) := by
      simp only [statement, if_neg empty]
      rfl
    have pending : queue.mSize ≠ 0 := fun none => empty ((headSize_zero valid).mpr none)
    rw [headChunk, Tsqueue.head, if_neg pending] at whole
    have points : queue.head = some (mulSize queue.mItemSize queue.mHeadPos) := if_neg pending
    have loads : statement (.readHead queue.headSize) queue =
        some (.leave (.chunk ((content queue).take queue.headSize).flatten), queue) := by
      simp only [statement, points, defined whole, bind, Option.bind]
      rfl
    exact .later reads (.later loads (.here rfl))

end Readers

end Libasock.QueueStatements
