import Libasock.UndisturbedPasses

/-!
What the send pass offers to `send()` for one connection with pending output. The
passes hold the head size as a `size_t`, and `try_send_data` takes it as a
`uint32_t`.
-/

namespace Libasock.PendingOffers
open ByteBlocks GuardedRuns NumberReuse ReturnCodes TsqueueModel TsqueueContent ConnectionObjects
  WorkerWorld SocketContents SendPass DownwardPasses
  UndisturbedPasses

section Offers

/-- The calls of `send()` on the connection's socket, by the bytes they were offered. -/
def offersTo (con : ConRef) (walk : Walk) : List (List Byte) :=
  (walk.sends.filter fun call => call.1 == con).map fun call => call.2

/-- One offer, of as many bytes as the head has; it shortens the queue when any are taken. -/
structure WholeOffer (con : ConRef) (object : Object) (answers : ConRef → SendAnswer)
    (after : Walk) : Prop where
  whole : ∃ data, offersTo con after = [data] ∧
    data.length = object.con.mOutQueue.headSize ∧ 1 ≤ data.length
  shortened : ∀ count, answers con = .took count → 1 ≤ count →
    ∃ left, after.world.objects con = some left ∧
      left.con.mOutQueue.mSize < object.con.mOutQueue.mSize

/-- The pending bytes up to the end of the block are fewer than a `uint32_t` can count to. -/
def ShortHead (queue : Tsqueue) : Prop :=
  queue.mSize < 2 ^ 32 ∨ queue.mCapacity - queue.mHeadPos < 2 ^ 32

theorem short_head {queue : Tsqueue} (valid : Valid queue) :
    ShortHead queue ↔ queue.headSize < 2 ^ 32 := by
  rw [headSize_exact valid, ShortHead]
  omega

end Offers

section Visits

variable {world : World} {con other : ConRef} {object : Object} {bytes data : List Byte}
  {status : ServiceStatus} {workerId : Int} {answers : ConRef → SendAnswer} {walk next : Walk}

theorem visited_sends (visited : SendVisited status workerId answers walk con next) :
    next.sends = walk.sends ∨ ∃ data, next.sends = walk.sends ++ [(con, data)] := by
  cases visited with
  | empty | refused => exact .inl rfl
  | closed _ data | popped _ data => exact .inr ⟨data, rfl⟩

structure Pending (world : World) (workerId : Int) (con : ConRef) (object : Object)
    (bytes : List Byte) : Prop where
  listed : con ∈ world.mConnections.items
  found : world.objects con = some object
  owned : object.con.mMasterId = workerId
  established : object.con.mState = .established
  holds : HoldsBytes object.con.mOutQueue bytes
  pending : bytes ≠ []

/-- The bytes that `try_send_data` passes to `send()`. -/
def offer (object : Object) (bytes : List Byte) : List Byte :=
  bytes.take (object.con.mOutQueue.headSize % 2 ^ 32)

def Taken (con : ConRef) (object : Object) (bytes : List Byte) (answers : ConRef → SendAnswer)
    (world : World) : Prop :=
  ∀ count, answers con = .took count → ∃ left, world.objects con = some left ∧
    left.con.mOutQueue.mSize = bytes.length - min count (offer object bytes).length

theorem trySend_established {con : Asock} {ids : List Nat} {answer : SendAnswer}
    (owned : con.mMasterId = workerId) (listed : con.mConnectionId ∈ ids)
    (established : con.mState = .established) :
    con.trySendData .running workerId ids answer ≠ .refused := by
  obtain ⟨index, indexed⟩ := index_found owned listed
  cases answer <;> simp [Asock.trySendData, indexed, established]

theorem popped_left {count : Nat} {after : Asock} (holds : HoldsBytes object.con.mOutQueue bytes)
    (inside : count ≤ bytes.length) (pops : object.con.pop count = .ok after) :
    after.mOutQueue.mSize = bytes.length - count := by
  obtain ⟨queue, dequeues, kept⟩ := holds.pop inside
  simp only [Asock.pop, dequeues, bind, Except.bind, pure, Except.pure, Except.ok.injEq] at pops
  rw [← pops, kept.length, List.length_drop]

theorem own_visit (pending : Pending walk.world workerId con object bytes)
    (visited : SendVisited .running workerId answers walk con next) :
    next.sends = walk.sends ++ [(con, offer object bytes)] ∧
      Taken con object bytes answers next.world := by
  have only : ∀ {other}, walk.world.objects con = some other → other = object := by
    intro other found
    exact Option.some.inj (found.symm.trans pending.found)
  cases visited with
  | empty other found offers =>
      rw [only found] at offers
      exact absurd (offered_none pending.holds offers) pending.pending
  -- a registered connection that is established is not refused its `send()`
  | refused other data found offers result =>
      rw [only found] at result
      exact absurd result (trySend_established pending.owned
        (listed_id pending.listed pending.found) pending.established)
  | closed other data fd found offers result remembers =>
      rw [only found] at offers
      refine ⟨by rw [offered_chunk pending.holds offers, offer], ?_⟩
      intro count took
      have failed := (trySend_closing.mp result).2.2.2
      rw [took] at failed
      cases failed
  | popped other data count after found offers result pops =>
      have same := only found
      subst same
      have chunk : data = offer other bytes := offered_chunk pending.holds offers
      refine ⟨by rw [chunk], ?_⟩
      intro accepted took
      rcases trySend_sent result with answer | ⟨answer, _⟩
      · rw [took, kernelSend, SendAnswer.took.injEq, chunk] at answer
        refine ⟨_, put_here .., ?_⟩
        rw [answer]
        refine popped_left pending.holds ?_ pops
        rw [← answer, offer, List.length_take]
        omega
      · rw [took, kernelSend] at answer
        cases answer

theorem offers_more (sends : next.sends = walk.sends ++ [(other, data)]) :
    offersTo con next = offersTo con walk ++ if other = con then [data] else [] := by
  by_cases same : other = con
  · simp [offersTo, sends, same]
  · simp [offersTo, sends, same]

theorem other_offers (different : other ≠ con)
    (visited : SendVisited status workerId answers walk other next) :
    offersTo con next = offersTo con walk := by
  rcases visited_sends visited with same | ⟨data, more⟩
  · rw [offersTo, same, offersTo]
  · rw [offers_more more, if_neg different, List.append_nil]

end Visits

section Passes

variable {world : World} {con : ConRef} {object : Object} {bytes : List Byte} {workerId : Int}
  {fuel : Nat}

structure Offered (con : ConRef) (object : Object) (bytes : List Byte)
    (answers : ConRef → SendAnswer) (done : List ConRef) (now : Walk) : Prop where
  before : con ∉ done → offersTo con now = []
  once : con ∈ done → offersTo con now = [offer object bytes]
  taken : con ∈ done → Taken con object bytes answers now.world

theorem offered_turn {answers : ConRef → SendAnswer} {gone : ConRef → Bool} {item : ConRef} {done : List ConRef}
    {now next : Walk} (pending : Pending world workerId con object bytes) (fresh : item ∉ done)
    (listed : item ∈ now.world.mConnections.items) (sofar : Sofar world gone done now)
    (visited : SendVisited .running workerId answers (now.note item) item next)
    (frame : ∀ other, other ≠ item → next.world.objects other = now.world.objects other)
    (held : Offered con object bytes answers done now) :
    Offered con object bytes answers (item :: done) next := by
  by_cases own : item = con
  -- its own visit finds the object as the pass began with it
  · subst own
    have pendingNow : Pending (now.note item).world workerId item object bytes :=
      ⟨listed, (sofar.others item fresh).trans pending.found, pending.owned,
        pending.established, pending.holds, pending.pending⟩
    obtain ⟨sends, taken⟩ := own_visit pendingNow visited
    have before : offersTo item (now.note item) = [] := held.before fresh
    constructor
    case before => exact fun absent => absurd List.mem_cons_self absent
    case once =>
      intro _
      rw [offers_more sends, if_pos rfl, before, List.nil_append]
    case taken => exact fun _ => taken
  · have offers : offersTo con next = offersTo con now :=
      (other_offers own visited).trans rfl
    have later : con ∈ item :: done → con ∈ done := List.mem_of_ne_of_mem (Ne.symm own)
    constructor
    case before =>
      intro absent
      rw [offers]
      exact held.before fun member => absent (List.mem_cons_of_mem _ member)
    case once =>
      intro member
      rw [offers]
      exact held.once (later member)
    case taken =>
      intro member count took
      rw [frame con (Ne.symm own)]
      exact held.taken (later member) count took

theorem pass_offers (answers : ConRef → SendAnswer) (fit : Fit world) (blocked : Blocked world)
    (enough : world.mConnections.items.length < fuel)
    (pending : Pending world workerId con object bytes) :
    ∃ after, sendUnsentData fuel .running workerId answers world = .ok after ∧
      offersTo con after = [offer object bytes] ∧ Taken con object bytes answers after.world := by
  have begun : Offered con object bytes answers [] ⟨world, [], []⟩ := by
    constructor
    case before => exact fun _ => rfl
    case once =>
      intro impossible
      cases impossible
    case taken =>
      intro impossible
      cases impossible
  obtain ⟨after, walks, _, _, offered⟩ :=
    pass_invariant (Offered con object bytes answers) fit (failing_keeps blocked) enough
      (fun _ _ _ _ _ fresh listed sofar visits frame held =>
        offered_turn pending fresh listed sofar (send_visited visits) frame held) begun
  exact ⟨after, walks, offered.once pending.listed, offered.taken pending.listed⟩

end Passes

section Results

/-- The offer is cut to the `uint32_t` parameter of `try_send_data`. -/
theorem pending_offered (world : World) (workerId : Int) (answers : ConRef → SendAnswer)
    (fuel : Nat) (con : ConRef) (object : Object) (bytes : List Byte) (fit : Fit world)
    (blocked : Blocked world) (enough : world.mConnections.items.length < fuel)
    (pending : Pending world workerId con object bytes) :
    ∃ after, sendUnsentData fuel .running workerId answers world = .ok after ∧
      (WholeOffer con object answers after ↔ ShortHead object.con.mOutQueue) := by
  obtain ⟨after, walks, offers, taken⟩ := pass_offers answers fit blocked enough pending
  have headSize := pending.holds.headSize_le
  have length : (offer object bytes).length = object.con.mOutQueue.headSize % 2 ^ 32 := by
    rw [offer, List.length_take]
    exact Nat.min_eq_left (Nat.le_trans (Nat.mod_le ..) headSize)
  have size := pending.holds.length
  have nonempty : 0 < bytes.length := List.length_pos_iff.mpr pending.pending
  refine ⟨after, walks, ?_⟩
  rw [short_head pending.holds.valid]
  constructor
  · intro whole
    obtain ⟨data, once, sharp, _⟩ := whole.whole
    rw [offers, List.cons.injEq] at once
    rw [← once.1, length] at sharp
    omega
  · intro short
    have filled : object.con.mOutQueue.headSize ≠ 0 := by
      intro empty
      have nil := (headSize_zero pending.holds.valid).mp empty
      omega
    rw [Nat.mod_eq_of_lt short] at length
    constructor
    case whole => exact ⟨_, offers, length, by omega⟩
    case shortened =>
      intro count took accepted
      obtain ⟨left, found, remains⟩ := taken count took
      refine ⟨left, found, ?_⟩
      omega

theorem accepted_lone : ∃ object, Lone acceptedWorld 0 object ⟨5, 1⟩ ∧
    object.con.mState = .established ∧ object.con.mMasterId = 1 ∧
      object.con.mOutQueue = emptyRing := by
  obtain ⟨object, alone⟩ :=
    lone_tested (show isLone acceptedWorld 0 ⟨5, 1⟩ = true by decide +kernel)
  have tested : (acceptedWorld.objects 0).all (fun object =>
      object.con.mState = .established ∧ object.con.mMasterId = 1) = true := by decide +kernel
  have ring : (acceptedWorld.objects 0).map (fun object => object.con.mOutQueue) =
      some emptyRing := rfl
  rw [alone.found] at tested ring
  obtain ⟨established, owned⟩ := of_decide_eq_true tested
  exact ⟨object, alone, established, owned, Option.some.inj ring⟩

theorem written (src : List Byte) (bounded : src.length ≤ 2 ^ 63) (filled : src ≠ []) :
    ∃ pass object, step (begin .running 1 acceptedWorld) (.userWrite 0 src zeroed) = some pass ∧
      Lone pass.world 0 object ⟨5, 1⟩ ∧ Pending pass.world 1 0 object src ∧
      object.con.mOutQueue.mHeadPos = 0 := by
  obtain ⟨object, alone, established, owned, ring⟩ := accepted_lone
  have empty : HoldsBytes object.con.mOutQueue [] := by
    rw [ring]
    exact emptyRing_holds
  have addressable : ([] : List Byte).length + src.length ≤ 2 ^ 63 := by
    rw [List.length_nil, Nat.zero_add]
    exact bounded
  obtain ⟨queue, enqueues, holds⟩ := empty.enqueue addressable (show zeroed.isSome from rfl)
  rw [List.nil_append] at holds
  have writes : object.con.write src zeroed =
      .ok (src.length, { object.con with mOutQueue := queue }) := by
    simp only [Asock.write, enqueues, bind, Except.bind, pure, Except.pure, if_true]
  have block : queue.mData ≠ [] := by
    intro nil
    have size := holds.valid.block
    have head := holds.valid.headInside
    rw [nil, List.length_nil, holds.itemSize] at size
    omega
  let written : Object := { object with con := { object.con with mOutQueue := queue } }
  have alone' : Lone (acceptedWorld.put 0 written) 0 written ⟨5, 1⟩ := lone_put alone block
  refine ⟨{ begin .running 1 acceptedWorld with world := acceptedWorld.put 0 written }, written, ?_,
    alone', ⟨lone_listed alone', alone'.found, owned, established, holds, filled⟩, ?_⟩
  · have held : 0 ∈ (begin .running 1 acceptedWorld).world.held := by decide +kernel
    have free : 0 ∈ (begin .running 1 acceptedWorld).world.held ∧
        lockedQueue (begin .running 1 acceptedWorld).pc ≠ some 0 := by
      refine ⟨held, ?_⟩
      intro locked
      cases locked
    rw [step, if_pos free]
    simp only [userWrite, begin, alone.found, writes, Option.bind_eq_bind, Option.bind_some]
    rfl
  · rw [show written.con.mOutQueue = queue from rfl, enqueue_headPos enqueues, ring]
    rfl

/-- Four gigabytes, which one call of `asock_write` may bring. -/
def fourGigabytes : List Byte := List.replicate (2 ^ 32) 7

-- The head size is a multiple of `2 ^ 32`: `send()` is called with no bytes and takes none.
theorem four_gigabytes_stall : ∃ pass object after,
    step (begin .running 1 acceptedWorld) (.userWrite 0 fourGigabytes zeroed) = some pass ∧
    Fit pass.world ∧ Blocked pass.world ∧ Pending pass.world 1 0 object fourGigabytes ∧
    sendUnsentData 2 .running 1 (fun _ => .took 4096) pass.world = .ok after ∧
    offersTo 0 after = [[]] ∧
    (∃ left, after.world.objects 0 = some left ∧
      left.con.mOutQueue.mSize = object.con.mOutQueue.mSize) ∧
    ¬ WholeOffer 0 object (fun _ => .took 4096) after := by
  have size : fourGigabytes.length = 2 ^ 32 := List.length_replicate
  obtain ⟨pass, object, writes, alone, pending, head⟩ := written fourGigabytes
    (by rw [size]; decide) (by intro nil; rw [nil] at size; cases size)
  have fit := lone_fit alone
  have blocked := lone_blocked alone
  have enough : pass.world.mConnections.items.length < 2 := by
    rw [alone.items]
    decide
  obtain ⟨after, walks, offers, taken⟩ := pass_offers (fun _ => .took 4096) fit blocked enough pending
  have length := pending.holds.length
  have headSize : object.con.mOutQueue.headSize = 2 ^ 32 := by
    rw [headSize_exact pending.holds.valid, head, Nat.sub_zero,
      Nat.min_eq_left pending.holds.valid.sized, length, size]
  have nothing : offer object fourGigabytes = [] := by
    rw [offer, headSize, Nat.mod_self, List.take_zero]
  rw [nothing] at offers
  obtain ⟨left, found, remains⟩ := taken 4096 rfl
  have stays : left.con.mOutQueue.mSize = object.con.mOutQueue.mSize := by
    rw [remains, nothing, List.length_nil, Nat.min_zero, Nat.sub_zero, length]
  refine ⟨pass, object, after, writes, fit, blocked, pending, walks, offers, ⟨left, found, stays⟩, ?_⟩
  intro whole
  obtain ⟨data, once, _, filled⟩ := whole.whole
  rw [offers, List.cons.injEq] at once
  rw [← once.1] at filled
  cases filled

theorem one_byte_offered : ∃ pass object after,
    step (begin .running 1 acceptedWorld) (.userWrite 0 [7] zeroed) = some pass ∧
    sendUnsentData 2 .running 1 (fun _ => .took 1) pass.world = .ok after ∧
    WholeOffer 0 object (fun _ => .took 1) after := by
  obtain ⟨pass, object, writes, alone, pending, _⟩ := written [7] (by decide) (by decide)
  have enough : pass.world.mConnections.items.length < 2 := by
    rw [alone.items]
    decide
  have short : ShortHead object.con.mOutQueue := by
    rw [ShortHead, pending.holds.length]
    exact .inl (by decide)
  obtain ⟨after, walks, offered⟩ := pending_offered pass.world 1 (fun _ => .took 1) 2 0 object [7]
    (lone_fit alone) (lone_blocked alone) enough pending
  exact ⟨pass, object, after, writes, walks, offered.mpr short⟩

end Results

end Libasock.PendingOffers
