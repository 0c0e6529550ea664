import Libasock.NumberReuse
import Libasock.TsqueueContent

/-!
The connection object of `asock_impl.h` and what `asock_impl.c` and the passes
of a worker do to one connection. A descriptor carries beside its number the
acquisition it came from, one return of `socket()` or `accept()`; no code reads
that field. `none` is the number `-1` in `m_sock_desc` and `NULL` elsewhere.
-/

namespace Libasock.ConnectionObjects
open ByteBlocks NumberReuse ReturnCodes TsqueueModel TsqueueContent

structure Asock where
  mSockDesc : Option Descriptor
  mConnectionId : Nat
  mMasterId : Int
  mState : AsockConState
  mDisconnect : Bool
  mInQueue : Tsqueue
  mOutQueue : Tsqueue
  mRefCounter : Int
  mPeerAddr : Option (List Byte)
  mPeerAddrlen : Nat
  mHostAddr : Option (List Byte)
  mHostAddrlen : Nat
  mNetNs : Option (List Byte)
  deriving DecidableEq, Repr

def asockMesBufferSize : Nat := 4096

/-- What the three allocations of `asock_fcreate_asock` answer. -/
structure ObjectAnswers where
  objectAlloc : Bool
  inQueue : CreateAnswers
  outQueue : CreateAnswers

/-- `consNumber` is the value `asock_cons_number` has before the call. -/
def fcreateAsock (answers : ObjectAnswers) (fd : Descriptor) (consNumber : Nat) :
    Outcome (Option Asock) := do
  if answers.objectAlloc = false then return none
  match ← Tsqueue.create answers.inQueue 1 asockMesBufferSize with
  | none => return none
  | some inQueue =>
      match ← Tsqueue.create answers.outQueue 1 asockMesBufferSize with
      | none => return none
      | some outQueue =>
          return some
            { mSockDesc := some fd, mConnectionId := consNumber, mMasterId := -1, mState := .idle
              mDisconnect := false, mInQueue := inQueue, mOutQueue := outQueue, mRefCounter := 1
              mPeerAddr := none, mPeerAddrlen := 0, mHostAddr := none, mHostAddrlen := 0
              mNetNs := none }

section UserCalls

/-- Returns `src_sz` or 0; the caller's block has exactly `src_sz` bytes. -/
def Asock.write (con : Asock) (src : List Byte) (answer : Allocation) : Outcome (Nat × Asock) := do
  let result ← con.mOutQueue.enqueue src src.length answer
  return (if result.1 = asockSuccess then src.length else 0, { con with mOutQueue := result.2 })

/-- Returns the count, the caller's block of `dst_sz` bytes and the connection. -/
def Asock.read (con : Asock) (dst : List Byte) : Outcome (Nat × List Byte × Asock) := do
  let result ← con.mInQueue.dequeue (some dst) dst.length
  return (result.1, result.2.1.getD dst, { con with mInQueue := result.2.2 })

def Asock.state (con : Asock) : AsockConState := con.mState

end UserCalls

section WorkerPasses

/-- `BUF_SIZE` of the read loops. -/
def bufSize : Nat := 4096

/-- `asock_server_index_of_con` and `asock_service_index_of_con`, over the
connection ids of `m_connections`. -/
def indexOfCon (workerId : Int) (ids : List Nat) (con : Asock) : Option Nat :=
  if con.mMasterId = workerId then ids.findIdx? (· == con.mConnectionId) else none

inductive SendAnswer where
  | took (count : Nat) | again | failed
  deriving DecidableEq

/-- `refused` is the result `-1` without a call of `send()`, `closing` the one after
a failed call, which has the worker close the connection. -/
inductive SendResult where
  | refused | sent (count : Nat) | closing
  deriving DecidableEq

/-- What the two `try_send_data` functions make of the answer of `send()`. -/
def Asock.trySendData (con : Asock) (status : ServiceStatus) (workerId : Int) (ids : List Nat)
    (answer : SendAnswer) : SendResult :=
  if status ≠ .running then .refused
  else match indexOfCon workerId ids con with
    | none => .refused
    | some _ =>
        match con.mState with
        | .idle | .failed | .inProgress => .refused
        | .established =>
            match answer with
            | .took count => .sent count
            | .again => .sent 0
            | .failed => .closing

/-- The bytes `send()` is offered: those at the head pointer, as many as the
`uint32_t` parameter of `try_send_data` keeps of the head size. `none` when the
pass finds the queue empty. -/
def Asock.offered (con : Asock) : Option (List Byte) :=
  if con.mOutQueue.headSize = 0 then none
  else con.mOutQueue.head.map fun position =>
    (con.mOutQueue.mData.drop position).take (con.mOutQueue.headSize % 2 ^ 32)

/-- The `NULL` dequeue that ends the visit of a send pass. -/
def Asock.pop (con : Asock) (count : Nat) : Outcome Asock := do
  let result ← con.mOutQueue.dequeue none count
  return { con with mOutQueue := result.2.2 }

/-- The read loop enqueues a chunk and ignores the code the call returns. -/
def Asock.receive (con : Asock) (chunk : List Byte) (answer : Allocation) : Outcome Asock := do
  let result ← con.mInQueue.enqueue chunk chunk.length answer
  return { con with mInQueue := result.2 }

end WorkerPasses

section Contents

def bytesOf (queue : Tsqueue) : List Byte := (content queue).flatten

/-- Both queues are well-formed rings of single bytes. -/
structure Asock.Sound (con : Asock) : Prop where
  inQueue : HoldsBytes con.mInQueue (bytesOf con.mInQueue)
  outQueue : HoldsBytes con.mOutQueue (bytesOf con.mOutQueue)

theorem bytes_held {queue : Tsqueue} {bytes : List Byte} (holds : HoldsBytes queue bytes) :
    bytesOf queue = bytes := holds.bytes

theorem held_bytes {queue : Tsqueue} {bytes : List Byte} (holds : HoldsBytes queue bytes) :
    HoldsBytes queue (bytesOf queue) := by
  rw [bytes_held holds]
  exact holds

/-- A new object is idle, has one reference, two empty queues and the given descriptor. -/
structure Fresh (con : Asock) (fd : Descriptor) : Prop where
  descriptor : con.mSockDesc = some fd
  idle : con.mState = .idle
  counted : con.mRefCounter = 1
  connected : con.mDisconnect = false
  sound : con.Sound
  emptyIn : bytesOf con.mInQueue = []
  emptyOut : bytesOf con.mOutQueue = []

theorem fcreate_fresh {answers : ObjectAnswers} {fd : Descriptor} {consNumber : Nat} {con : Asock}
    (created : fcreateAsock answers fd consNumber = .ok (some con)) : Fresh con fd := by
  unfold fcreateAsock at created
  split at created
  case isTrue => cases created
  obtain ⟨first, makesIn, created⟩ := sequenced created
  cases first with
  | none => cases created
  | some inQueue =>
      obtain ⟨second, makesOut, created⟩ := sequenced created
      cases second with
      | none => cases created
      | some outQueue =>
          cases created
          have inEmpty := holds_created makesIn
          have outEmpty := holds_created makesOut
          exact ⟨rfl, rfl, rfl, rfl, ⟨held_bytes inEmpty, held_bytes outEmpty⟩,
            bytes_held inEmpty, bytes_held outEmpty⟩

/-- The object of a call in which every allocation is granted, in zeroed memory. -/
def zeroed : Allocation := some fun _ => 0

def emptyRing : Tsqueue := ⟨(List.range asockMesBufferSize).map fun _ => 0, 0, 4096, 1, 0, 0⟩

def newObject (fd : Descriptor) (consNumber : Nat) : Asock :=
  { mSockDesc := some fd, mConnectionId := consNumber, mMasterId := -1, mState := .idle
    mDisconnect := false, mInQueue := emptyRing, mOutQueue := emptyRing, mRefCounter := 1
    mPeerAddr := none, mPeerAddrlen := 0, mHostAddr := none, mHostAddrlen := 0, mNetNs := none }

theorem fcreate_granted (fd : Descriptor) (consNumber : Nat) :
    fcreateAsock ⟨true, ⟨true, true, zeroed⟩, ⟨true, true, zeroed⟩⟩ fd consNumber =
      .ok (some (newObject fd consNumber)) := rfl

theorem newObject_fresh (fd : Descriptor) (consNumber : Nat) :
    Fresh (newObject fd consNumber) fd :=
  fcreate_fresh (fcreate_granted fd consNumber)

theorem emptyRing_holds : HoldsBytes emptyRing [] := by
  have fresh := newObject_fresh ⟨0, 0⟩ 0
  have holds := fresh.sound.outQueue
  rw [fresh.emptyOut] at holds
  exact holds

theorem write_spec {con : Asock} {src : List Byte} {answer : Allocation} (sound : con.Sound)
    (addressable : (bytesOf con.mOutQueue).length + src.length ≤ 2 ^ 63)
    (granted : answer.isSome) :
    ∃ after, con.write src answer = .ok (src.length, { con with mOutQueue := after }) ∧
      HoldsBytes after (bytesOf con.mOutQueue ++ src) := by
  obtain ⟨after, enqueues, holds⟩ := sound.outQueue.enqueue addressable granted
  refine ⟨after, ?_, holds⟩
  simp only [Asock.write, enqueues, bind, Except.bind, pure, Except.pure, if_true]

theorem read_spec {con : Asock} (dst : List Byte) (sound : con.Sound) :
    ∃ after, con.read dst = .ok (min dst.length (bytesOf con.mInQueue).length,
        (bytesOf con.mInQueue).take dst.length ++
          dst.drop (min dst.length (bytesOf con.mInQueue).length),
        { con with mInQueue := after }) ∧
      HoldsBytes after ((bytesOf con.mInQueue).drop dst.length) := by
  obtain ⟨after, dequeues, holds⟩ := sound.inQueue.dequeue (Nat.le_refl dst.length)
  refine ⟨after, ?_, holds⟩
  simp only [Asock.read, dequeues, bind, Except.bind, pure, Except.pure, Option.getD_some]

theorem receive_spec {con : Asock} {chunk : List Byte} {answer : Allocation} (sound : con.Sound)
    (addressable : (bytesOf con.mInQueue).length + chunk.length ≤ 2 ^ 63)
    (granted : answer.isSome) :
    ∃ after, con.receive chunk answer = .ok { con with mInQueue := after } ∧
      HoldsBytes after (bytesOf con.mInQueue ++ chunk) := by
  obtain ⟨after, enqueues, holds⟩ := sound.inQueue.enqueue addressable granted
  refine ⟨after, ?_, holds⟩
  simp only [Asock.receive, enqueues, bind, Except.bind, pure, Except.pure]

theorem pop_spec {con : Asock} {count : Nat} (sound : con.Sound)
    (bounded : count ≤ (bytesOf con.mOutQueue).length) :
    ∃ after, con.pop count = .ok { con with mOutQueue := after } ∧
      HoldsBytes after ((bytesOf con.mOutQueue).drop count) := by
  obtain ⟨after, dequeues, holds⟩ := sound.outQueue.pop bounded
  refine ⟨after, ?_, holds⟩
  simp only [Asock.pop, dequeues, bind, Except.bind, pure, Except.pure]

theorem receive_shape {con after : Asock} {chunk : List Byte} {answer : Allocation}
    (receives : con.receive chunk answer = .ok after) :
    ∃ queue, after = { con with mInQueue := queue } := by
  obtain ⟨result, _, same⟩ := sequenced receives
  exact ⟨result.2, (Except.ok.inj same).symm⟩

theorem read_shape {con after : Asock} {dst block : List Byte} {count : Nat}
    (reads : con.read dst = .ok (count, block, after)) :
    ∃ queue, after = { con with mInQueue := queue } := by
  obtain ⟨result, _, same⟩ := sequenced reads
  cases same
  exact ⟨result.2.2, rfl⟩

theorem index_found {con : Asock} {workerId : Int} {ids : List Nat}
    (owned : con.mMasterId = workerId) (listed : con.mConnectionId ∈ ids) :
    ∃ index, indexOfCon workerId ids con = some index := by
  rw [← Option.isSome_iff_exists, indexOfCon, if_pos owned, List.findIdx?_isSome,
    List.any_eq_true]
  exact ⟨con.mConnectionId, listed, beq_self_eq_true _⟩

theorem offered_none {con : Asock} {bytes : List Byte} (holds : HoldsBytes con.mOutQueue bytes)
    (offers : con.offered = none) : bytes = [] := by
  by_contra pending
  obtain ⟨position, points, _⟩ := holds.head (Nat.le_refl _) pending
  unfold Asock.offered at offers
  split at offers
  · rename_i empty
    have size := (headSize_zero holds.valid).mp empty
    rw [holds.length] at size
    exact pending (List.eq_nil_of_length_eq_zero size)
  · rw [points] at offers
    cases offers

theorem offered_chunk {con : Asock} {bytes data : List Byte}
    (holds : HoldsBytes con.mOutQueue bytes) (offers : con.offered = some data) :
    data = bytes.take (con.mOutQueue.headSize % 2 ^ 32) := by
  unfold Asock.offered at offers
  split at offers
  · cases offers
  · rename_i nonempty
    have pending : bytes ≠ [] := by
      rintro rfl
      exact nonempty (Nat.le_zero.mp holds.headSize_le)
    obtain ⟨position, points, chunk⟩ :=
      holds.head (Nat.mod_le con.mOutQueue.headSize (2 ^ 32)) pending
    rw [points, Option.map_some, chunk] at offers
    exact (Option.some.inj offers).symm

/-- Whatever is offered is a prefix of the pending output. -/
theorem offered_prefix {con : Asock} {data : List Byte} (sound : con.Sound)
    (offers : con.offered = some data) : data = (bytesOf con.mOutQueue).take data.length := by
  have chunk := offered_chunk sound.outQueue offers
  rw [chunk, List.take_eq_take_iff, List.length_take]
  omega

end Contents

end Libasock.ConnectionObjects
