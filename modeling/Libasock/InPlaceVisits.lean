import Libasock.TsqueueRefinement

/-!
`asock_tsqueue_for_each` with a function that writes to the items it is given. The
loop runs over the block, item by item and around the end of the ring; for the
list of items it is one `mapIdx`, also in the middle of other calls.
-/

namespace Libasock.InPlaceVisits
open ByteBlocks ReturnCodes RingWindows TsqueueModel TsqueueContent TsqueueRefinement

/-- A function for `asock_tsqueue_for_each` that writes to its item and to nothing else. -/
structure Visitor where
  func : List Byte → Nat → List Byte
  inside : ∀ item index, (func item index).length = item.length

section Loop

/-- One turn: what `func` is given, and the queue after it. -/
def visitItem (visitor : Visitor) (queue : Tsqueue) (index : Nat) :
    Outcome ((List Byte × Nat) × Tsqueue) := do
  let pos := addSize queue.mHeadPos index % queue.mCapacity
  let start := mulSize pos queue.mItemSize
  let item ← load queue.mData start queue.mItemSize
  let data ← memcpy queue.mData start (visitor.func item index) 0 queue.mItemSize
  return ((item, index), { queue with mData := data })

/-- The turns that are left, from `index` on. -/
def visitFrom (visitor : Visitor) : Nat → Nat → Tsqueue →
    Outcome (List (List Byte × Nat) × Tsqueue)
  | 0, _, queue => return ([], queue)
  | left + 1, index, queue => do
      let first ← visitItem visitor queue index
      let rest ← visitFrom visitor left (index + 1) first.2
      return (first.1 :: rest.1, rest.2)

/-- `asock_tsqueue_for_each`; `m_size` is read once, before the loop. -/
def forEachWith (visitor : Visitor) (queue : Tsqueue) :
    Outcome (List (List Byte × Nat) × Tsqueue) :=
  visitFrom visitor queue.mSize 0 queue

end Loop

section Invariant
variable {visitor : Visitor} {queue now : Tsqueue} {index : Nat}

def place (queue : Tsqueue) (offset : Nat) : Nat :=
  (queue.mHeadPos + offset) % queue.mCapacity

/-- Before the turn of `index`: the items in front of it are written, the others as they were. -/
structure Visited (visitor : Visitor) (queue now : Tsqueue) (index : Nat) : Prop where
  frame : now = { queue with mData := now.mData }
  length : now.mData.length = queue.mData.length
  written : ∀ offset, offset < index →
    cell now (place queue offset) = visitor.func (cell queue (place queue offset)) offset
  waiting : ∀ offset, index ≤ offset → offset < queue.mSize →
    cell now (place queue offset) = cell queue (place queue offset)

theorem unvisited (queue : Tsqueue) : Visited visitor queue queue 0 :=
  ⟨rfl, rfl, fun _ impossible => absurd impossible (Nat.not_lt_zero _), fun _ _ _ => rfl⟩

theorem place_inside (valid : Valid queue) (offset : Nat) :
    place queue offset < queue.mCapacity :=
  Nat.mod_lt _ (Nat.lt_of_le_of_lt (Nat.zero_le _) valid.headInside)

theorem place_apart (valid : Valid queue) {left right : Nat} (apart : left ≠ right)
    (leftInside : left < queue.mSize) (rightInside : right < queue.mSize) :
    place queue left ≠ place queue right := by
  have sized := valid.sized
  rcases Nat.lt_or_gt_of_ne apart with before | after
  · exact window_cells_apart before (by omega)
  · exact (window_cells_apart after (by omega)).symm

/-- The `size_t` arithmetic of a turn is exact. -/
theorem start_exact (valid : Valid queue) (inside : index < queue.mSize) :
    mulSize (addSize queue.mHeadPos index % queue.mCapacity) queue.mItemSize =
      queue.mItemSize * place queue index := by
  have half := capacity_half valid
  have sized := valid.sized
  have headInside := valid.headInside
  have sum : addSize queue.mHeadPos index = queue.mHeadPos + index := addSize_exact (by omega)
  have within := place_inside valid index
  have product := bytes_exact valid (Nat.le_of_lt within)
  rw [sum]
  rw [mulSize, Nat.mul_comm]
  exact product

/-- A turn writes one item; no other offset of the window meets its cell. -/
theorem visit_step (valid : Valid queue) (visited : Visited visitor queue now index)
    (inside : index < queue.mSize) :
    ∃ next, visitItem visitor now index =
        .ok ((cell queue (place queue index), index), next) ∧
      Visited visitor queue next (index + 1) := by
  obtain ⟨frame, length, written, waiting⟩ := visited
  generalize now.mData = block at frame length
  subst frame
  have within := place_inside valid index
  have here := waiting index (Nat.le_refl _) inside
  have room : queue.mItemSize * queue.mCapacity ≤ block.length := by
    rw [length, valid.block]
  have loads := load_slot room within
  have width : (cell queue (place queue index)).length = queue.mItemSize :=
    slot_length (Nat.le_of_eq valid.block.symm) within
  let item := visitor.func (cell queue (place queue index)) index
  have itemWidth : item.length = queue.mItemSize := (visitor.inside _ _).trans width
  have fits : queue.mItemSize * place queue index + queue.mItemSize ≤ block.length := by
    have upper := Nat.mul_le_mul_left queue.mItemSize (Nat.succ_le_of_lt within)
    rw [Nat.mul_succ] at upper
    exact Nat.le_trans upper room
  obtain ⟨data, copies, copied⟩ := memcpy_copied block (queue.mItemSize * place queue index) item 0
    queue.mItemSize fits (by omega)
  have cells := copied_slot (place queue index) 0 (by
    simpa only [Nat.mul_zero, Nat.mul_one] using copied : Copied _ _ _ (queue.mItemSize * 0)
      (queue.mItemSize * 1) _)
  refine ⟨{ queue with mData := data }, ?_, rfl, copied.1.trans length, ?_, ?_⟩
  · have seen : slot queue.mItemSize block (place queue index) = cell queue (place queue index) :=
      here
    simp only [visitItem, start_exact valid inside, loads, seen, copies, bind, Except.bind, pure,
      Except.pure, item]
  · intro offset before
    show slot queue.mItemSize data (place queue offset) = _
    by_cases same : offset = index
    · subst same
      have whole : slot queue.mItemSize item 0 = item := by
        rw [slot, Nat.mul_zero, List.drop_zero, List.take_of_length_le (by omega)]
      rw [cells, if_pos (by omega), Nat.sub_self, Nat.add_zero, whole]
    · have apart := place_apart valid same (by omega) inside
      rw [cells, if_neg (by omega)]
      exact written offset (by omega)
  · intro offset after bounded
    have apart := place_apart valid (show offset ≠ index by omega) bounded inside
    show slot queue.mItemSize data (place queue offset) = _
    rw [cells, if_neg (by omega)]
    exact waiting offset (by omega) bounded

theorem visit_run (visitor : Visitor) (valid : Valid queue) {left : Nat}
    (visited : Visited visitor queue now index) (turns : index + left = queue.mSize) :
    ∃ last, visitFrom visitor left index now =
        .ok ((List.range' index left).map fun offset =>
          (cell queue (place queue offset), offset), last) ∧
      Visited visitor queue last queue.mSize := by
  induction left generalizing index now with
  | zero => exact ⟨now, rfl, turns ▸ visited⟩
  | succ left ih =>
      obtain ⟨next, steps, nextVisited⟩ := visit_step valid visited (by omega)
      obtain ⟨last, runs, lastVisited⟩ := ih nextVisited (by omega)
      refine ⟨last, ?_, lastVisited⟩
      simp only [visitFrom, steps, runs, bind, Except.bind, pure, Except.pure, List.range'_succ,
        List.map_cons]

theorem visited_valid (valid : Valid queue) (visited : Visited visitor queue now index) :
    Valid now := by
  rw [visited.frame]
  exact ⟨valid.width, visited.length.trans valid.block, valid.inside, valid.power, valid.sized,
    valid.headInside, valid.tail⟩

theorem visited_content (visited : Visited visitor queue now queue.mSize) :
    content now = (content queue).mapIdx fun index item => visitor.func item index := by
  have fields : now.mCapacity = queue.mCapacity ∧ now.mHeadPos = queue.mHeadPos ∧
      now.mSize = queue.mSize := by
    rw [visited.frame]
    exact ⟨rfl, rfl, rfl⟩
  apply List.ext_getElem
  · rw [List.length_mapIdx, content_length, content_length, fields.2.2]
  · intro index left right
    have inside : index < queue.mSize := by simpa using right
    have here := visited.written index inside
    simpa [content, window, fields, place] using here

theorem forEachWith_spec (visitor : Visitor) (valid : Valid queue) :
    ∃ last, forEachWith visitor queue = .ok (queue.forEach, last) ∧ Valid last ∧
      last.mItemSize = queue.mItemSize ∧
      content last = (content queue).mapIdx fun index item => visitor.func item index := by
  obtain ⟨last, runs, visited⟩ := visit_run visitor valid (unvisited queue)
    (Nat.zero_add queue.mSize)
  refine ⟨last, ?_, visited_valid valid visited, ?_, visited_content visited⟩
  · have seen : ((List.range' 0 queue.mSize).map fun offset =>
        (cell queue (place queue offset), offset)) = queue.forEach := by
      rw [forEach_spec valid]
      apply List.ext_getElem
      · simp
      · intro index left right
        simp [content, window, place]
    rw [forEachWith, runs, seen]
  · rw [visited.frame]

end Invariant

section Calls

inductive Call where
  | queue (op : Op)
  | forEach (visitor : Visitor)

inductive Answer where
  | queue (reply : Reply)
  | seen (items : List (List Byte × Nat))
  deriving DecidableEq

def answerCall (queue : Tsqueue) : Call → Outcome (Answer × Tsqueue)
  | .queue op => do
      let result ← perform queue op
      return (.queue result.1, result.2)
  | .forEach visitor => do
      let result ← forEachWith visitor queue
      return (.seen result.1, result.2)

def answerAll (queue : Tsqueue) : List Call → Outcome (List Answer × Tsqueue)
  | [] => return ([], queue)
  | call :: rest => do
      let first ← answerCall queue call
      let tail ← answerAll first.2 rest
      return (first.1 :: tail.1, tail.2)

/-- What the calls are for a list. -/
def listCall (itemSize : Nat) (items : List (List Byte)) : Call → Answer × List (List Byte)
  | .queue op => (.queue (listPerform itemSize items op).1, (listPerform itemSize items op).2)
  | .forEach visitor =>
      (.seen items.zipIdx, items.mapIdx fun index item => visitor.func item index)

def listCalls (itemSize : Nat) (items : List (List Byte)) :
    List Call → List Answer × List (List Byte)
  | [] => ([], items)
  | call :: rest =>
      let first := listCall itemSize items call
      let tail := listCalls itemSize first.2 rest
      (first.1 :: tail.1, tail.2)

def Allowed (itemSize : Nat) (items : List (List Byte)) : Call → Prop
  | .queue op => Admissible itemSize items op
  | .forEach _ => True

def AllAllowed (itemSize : Nat) (items : List (List Byte)) : List Call → Prop
  | [] => True
  | call :: rest =>
      Allowed itemSize items call ∧ AllAllowed itemSize (listCall itemSize items call).2 rest

variable {itemSize : Nat} {items : List (List Byte)} {queue : Tsqueue}

theorem answerCall_refines (call : Call) (rep : Represents itemSize items queue)
    (allowed : Allowed itemSize items call) :
    ∃ after, answerCall queue call = .ok ((listCall itemSize items call).1, after) ∧
      Represents itemSize (listCall itemSize items call).2 after := by
  cases call with
  | queue op =>
      obtain ⟨after, performs, afterRep⟩ := perform_refines rep allowed
      refine ⟨after, ?_, afterRep⟩
      simp only [answerCall, performs, bind, Except.bind, pure, Except.pure, listCall]
  | forEach visitor =>
      obtain ⟨last, visits, valid, width, holds⟩ := forEachWith_spec visitor rep.valid
      refine ⟨last, ?_, valid, width.trans rep.itemSize, ?_⟩
      · simp only [answerCall, visits, forEach_spec rep.valid, rep.items, bind, Except.bind, pure,
          Except.pure, listCall]
      · rw [holds, rep.items]
        rfl

theorem answerAll_refines (calls : List Call) (rep : Represents itemSize items queue)
    (allowed : AllAllowed itemSize items calls) :
    ∃ last, answerAll queue calls = .ok ((listCalls itemSize items calls).1, last) ∧
      Represents itemSize (listCalls itemSize items calls).2 last := by
  induction calls generalizing queue items with
  | nil => exact ⟨queue, rfl, rep⟩
  | cons call rest ih =>
      obtain ⟨middle, answers, middleRep⟩ := answerCall_refines call rep allowed.1
      obtain ⟨last, finishes, lastRep⟩ := ih middleRep allowed.2
      refine ⟨last, ?_, lastRep⟩
      simp only [answerAll, answers, finishes, bind, Except.bind, pure, Except.pure, listCalls]

end Calls

section Results

theorem visits_refine_list (itemSize capacity : Nat) (answers : CreateAnswers) (queue : Tsqueue)
    (calls : List Call) (wide : 1 ≤ itemSize)
    (created : Tsqueue.create answers itemSize capacity = .ok (some queue))
    (fits : itemSize * queue.mCapacity < sizeBound) (allowed : AllAllowed itemSize [] calls) :
    ∃ last, answerAll queue calls = .ok ((listCalls itemSize [] calls).1, last) ∧
      last.size = (listCalls itemSize [] calls).2.length ∧
      last.forEach = (listCalls itemSize [] calls).2.zipIdx := by
  obtain ⟨last, runs, rep⟩ :=
    answerAll_refines calls (created_represents created wide fits) allowed
  refine ⟨last, runs, rep.length, ?_⟩
  rw [forEach_spec rep.valid, rep.items]

/-- Writes its index into the first byte of the item. -/
def numbering : Visitor :=
  ⟨fun item index => item.set 0 (UInt8.ofNat index), fun _ _ => List.length_set⟩

-- The ring of two items has wrapped when its items are numbered.
theorem wrapped_items_numbered :
    ∃ queue last, Tsqueue.create ⟨true, true, some fun _ => 0⟩ 1 2 = .ok (some queue) ∧
      answerAll queue [.queue (.enqueue [7, 8] 2 (some fun _ => 0)), .queue (.dequeue none 1),
        .queue (.enqueue [9] 1 (some fun _ => 0)), .forEach numbering] =
          .ok ([.queue (.code asockSuccess), .queue (.taken 1 none), .queue (.code asockSuccess),
            .seen [([8], 0), ([9], 1)]], last) ∧
      last.forEach = [([0], 0), ([1], 1)] := by
  obtain ⟨last, runs, -, visits⟩ := visits_refine_list 1 2 ⟨true, true, some fun _ => 0⟩
    ⟨[0, 0], 0, 2, 1, 0, 0⟩ [.queue (.enqueue [7, 8] 2 (some fun _ => 0)),
      .queue (.dequeue none 1), .queue (.enqueue [9] 1 (some fun _ => 0)), .forEach numbering]
    (by decide) rfl (by decide) (by simp [AllAllowed, Allowed, Admissible, listCall, listPerform,
      slots])
  exact ⟨_, last, rfl, runs, visits⟩

end Results

end Libasock.InPlaceVisits
