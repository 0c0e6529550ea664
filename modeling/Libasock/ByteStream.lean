import Libasock.ConnectionObjects
import Libasock.GuardedRuns
import Mathlib.Logic.Function.Basic

/-!
Two connected ends, one run by a service and one by a server, and the kernel
between them: a reliable channel of bytes in each direction. A step is what one
thread does between two points where the others may come in: a call of the user
is one critical section of a queue, a send pass holds the head lock over its
`send()` and dequeues later, a read pass calls `read()` and enqueues later. A
worker does one thing at a time, so `worker` says where its pass stands.
`accepted` and `returned` record what the user calls took and gave.
-/

namespace Libasock.ByteStream
open ByteBlocks ReturnCodes TsqueueModel TsqueueContent ConnectionObjects GuardedRuns

inductive Side where
  | service | server
  deriving DecidableEq, Repr

def Side.peer : Side → Side
  | .service => .server
  | .server => .service

@[simp] theorem Side.peer_peer (side : Side) : side.peer.peer = side := by cases side <;> rfl

theorem Side.peer_ne (side : Side) : side.peer ≠ side := by cases side <;> decide

inductive Worker where
  | free
  | sent (count : Nat)
  | holding (buf : List Byte)
  deriving DecidableEq

/-- What the kernel took of the pending output before the dequeue that pops it. -/
def Worker.popped : Worker → Nat
  | .sent count => count
  | _ => 0

def Worker.buf : Worker → List Byte
  | .holding buf => buf
  | _ => []

structure End where
  con : Asock
  status : ServiceStatus
  workerId : Int
  registered : Bool
  worker : Worker
  accepted : List Byte
  returned : List Byte

structure Link where
  ends : Side → End
  /-- What the kernel took from the end and has not delivered yet. -/
  channel : Side → List Byte

inductive Label where
  | takeOver (side : Side)
  | establish (side : Side)
  | write (side : Side) (src : List Byte) (answer : Allocation)
  | read (side : Side) (dst : List Byte)
  | send (side : Side) (answer : SendAnswer)
  | pop (side : Side)
  | readSocket (side : Side) (count : Nat)
  | enqueueRead (side : Side) (answer : Allocation)

def End.ids (this : End) : List Nat :=
  if this.registered then [this.con.mConnectionId] else []

def Link.put (link : Link) (side : Side) (this : End) : Link :=
  { link with ends := Function.update link.ends side this }

def takeOver (this : End) : Option End :=
  if this.registered then none
  else some { this with registered := true, con := { this.con with mState := .inProgress } }

def establish (this : End) : Option End :=
  match this.worker, this.registered with
  | .free, true => some { this with con := { this.con with mState := .established } }
  | _, _ => none

def write (this : End) (src : List Byte) (answer : Allocation) : Option End :=
  match this.con.write src answer with
  | .error _ => none
  | .ok (count, con) => some { this with con := con, accepted := this.accepted ++ src.take count }

def read (this : End) (dst : List Byte) : Option End :=
  match this.con.read dst with
  | .error _ => none
  | .ok (count, block, con) =>
      some { this with con := con, returned := this.returned ++ block.take count }

/-- Returns the end and the bytes the kernel took from it. -/
def send (this : End) (answer : SendAnswer) : Option (End × List Byte) :=
  match this.worker, this.registered, this.con.offered with
  | .free, true, some data =>
      match this.con.trySendData this.status this.workerId this.ids answer with
      | .refused => some (this, [])
      | .sent count =>
          if count ≤ data.length then some ({ this with worker := .sent count }, data.take count)
          else none
      | .closing => none
  | _, _, _ => none

def pop (this : End) : Option End :=
  match this.worker with
  | .sent count =>
      match this.con.pop count with
      | .error _ => none
      | .ok con => some { this with con := con, worker := .free }
  | _ => none

/-- Returns the end and what is left of the bytes that were under way to it. -/
def readSocket (this : End) (incoming : List Byte) (count : Nat) : Option (End × List Byte) :=
  match this.worker, this.registered with
  | .free, true =>
      if 1 ≤ count ∧ count ≤ min bufSize incoming.length then
        some ({ this with worker := .holding (incoming.take count) }, incoming.drop count)
      else none
  | _, _ => none

def enqueueRead (this : End) (answer : Allocation) : Option End :=
  match this.worker with
  | .holding buf =>
      match this.con.receive buf answer with
      | .error _ => none
      | .ok con => some { this with con := con, worker := .free }
  | _ => none

def step (link : Link) : Label → Option Link
  | .takeOver side => (takeOver (link.ends side)).map (link.put side)
  | .establish side => (establish (link.ends side)).map (link.put side)
  | .write side src answer => (write (link.ends side) src answer).map (link.put side)
  | .read side dst => (read (link.ends side) dst).map (link.put side)
  | .send side answer => (send (link.ends side) answer).map fun result =>
      { link.put side result.1 with
        channel := Function.update link.channel side (link.channel side ++ result.2) }
  | .pop side => (pop (link.ends side)).map (link.put side)
  | .readSocket side count =>
      (readSocket (link.ends side) (link.channel side.peer) count).map fun result =>
        { link.put side result.1 with
          channel := Function.update link.channel side.peer result.2 }
  | .enqueueRead side answer => (enqueueRead (link.ends side) answer).map (link.put side)

/-- Every allocation succeeds and the bytes of a queue fit the address space. -/
def Served (link : Link) : Label → Prop
  | .write side src answer =>
      answer.isSome ∧ (bytesOf (link.ends side).con.mOutQueue).length + src.length ≤ 2 ^ 63
  | .enqueueRead side answer =>
      answer.isSome ∧ (bytesOf (link.ends side).con.mInQueue).length +
        (link.ends side).worker.buf.length ≤ 2 ^ 63
  | _ => True

instance (link : Link) : ∀ label, Decidable (Served link label)
  | .write .. | .enqueueRead .. => inferInstanceAs (Decidable (_ ∧ _))
  | .takeOver _ | .establish _ | .read .. | .send .. | .pop _ | .readSocket .. =>
      inferInstanceAs (Decidable True)

/-- A new connection at either end: the peer the server has accepted is registered
and established, the client's is still waiting for the take-over. -/
structure Opened (link : Link) : Prop where
  fresh : ∀ side, ∃ fd con, Fresh con fd ∧
    (link.ends side).con = { con with mMasterId := (link.ends side).workerId
                                      mState := (link.ends side).con.mState }
  free : ∀ side, (link.ends side).worker = .free
  accepted : ∀ side, (link.ends side).accepted = []
  returned : ∀ side, (link.ends side).returned = []
  channel : ∀ side, link.channel side = []

section Stream

/-- The bytes on their way from `side`: in the channel or in the buffer of the peer's read pass. -/
def inFlight (link : Link) (side : Side) : List Byte :=
  (link.ends side.peer).worker.buf ++ link.channel side

structure EndSound (this : End) : Prop where
  sound : this.con.Sound
  popped : this.worker.popped ≤ (bytesOf this.con.mOutQueue).length

/-- What an end has given to the kernel, in the order of the writes. -/
def EndSent (this : End) (wire : List Byte) : Prop :=
  wire ++ (bytesOf this.con.mOutQueue).drop this.worker.popped = this.accepted

/-- What an end has taken from the kernel. -/
def taken (this : End) : List Byte :=
  this.returned ++ bytesOf this.con.mInQueue ++ this.worker.buf

structure Carried (link : Link) : Prop where
  sound : ∀ side, EndSound (link.ends side)
  stream : ∀ side, EndSent (link.ends side)
    (taken (link.ends side.peer) ++ link.channel side)

/-- A step that changes one end keeps the stream towards it and the stream from it. -/
theorem carried_put {link : Link} {side : Side} {this : End} (channel : Side → List Byte)
    (carried : Carried link) (sound : EndSound this)
    (sends : ∀ wire, EndSent (link.ends side) (wire ++ link.channel side) →
      EndSent this (wire ++ channel side))
    (takes : taken this ++ channel side.peer =
      taken (link.ends side) ++ link.channel side.peer) :
    Carried { link.put side this with channel := channel } := by
  constructor
  · intro other
    by_cases same : other = side
    · subst same
      simpa [Link.put] using sound
    · simpa [Link.put, same] using carried.sound other
  · intro other
    by_cases same : other = side
    · subst same
      have apart := other.peer_ne
      simpa [Link.put, apart] using sends _ (carried.stream other)
    · have other_peer : other = side.peer := by
        cases other <;> cases side <;> simp_all [Side.peer]
      subst other_peer
      have whole := carried.stream side.peer
      rw [Side.peer_peer] at whole
      simpa [Link.put, side.peer_ne, takes] using whole

theorem carried_same_channel {link : Link} {side : Side} {this : End}
    (carried : Carried link) (sound : EndSound this)
    (sends : ∀ wire, EndSent (link.ends side) wire → EndSent this wire)
    (takes : taken this = taken (link.ends side)) : Carried (link.put side this) :=
  carried_put link.channel carried sound (fun _ => sends _) (by rw [takes])

theorem write_carries {this : End} {src : List Byte} {answer : Allocation} (sound : EndSound this)
    (granted : answer.isSome)
    (addressable : (bytesOf this.con.mOutQueue).length + src.length ≤ 2 ^ 63) :
    ∃ after, write this src answer = some after ∧ EndSound after ∧ taken after = taken this ∧
      ∀ wire, EndSent this wire → EndSent after wire := by
  obtain ⟨queue, writes, holds⟩ := write_spec sound.sound addressable granted
  have bytes := bytes_held holds
  refine ⟨{ this with con := { this.con with mOutQueue := queue }
                      accepted := this.accepted ++ src.take src.length },
    by simp only [write, writes], ⟨⟨sound.sound.inQueue, held_bytes holds⟩, ?_⟩, rfl, ?_⟩
  · have popped := sound.popped
    simp only [bytes, List.length_append]
    omega
  · intro wire sent
    simp only [EndSent, bytes, List.take_length] at sent ⊢
    rw [← sent, List.drop_append_of_le_length sound.popped, List.append_assoc]

theorem read_carries {this : End} (dst : List Byte) (sound : EndSound this) :
    ∃ after, read this dst = some after ∧ EndSound after ∧ taken after = taken this ∧
      ∀ wire, EndSent this wire → EndSent after wire := by
  obtain ⟨queue, reads, holds⟩ := read_spec dst sound.sound
  have bytes := bytes_held holds
  refine ⟨{ this with con := { this.con with mInQueue := queue }, returned := _ },
    by simp only [read, reads]; rfl, ⟨⟨held_bytes holds, sound.sound.outQueue⟩, sound.popped⟩, ?_,
    fun _ sent => sent⟩
  have front : ((bytesOf this.con.mInQueue).take dst.length ++
      dst.drop (min dst.length (bytesOf this.con.mInQueue).length)).take
        (min dst.length (bytesOf this.con.mInQueue).length) =
      (bytesOf this.con.mInQueue).take dst.length := by
    rw [List.take_append_of_le_length (by rw [List.length_take]), List.take_take, List.take_eq_take_iff]
    omega
  simp only [taken, bytes, front, List.append_assoc, List.take_append_drop]

theorem pop_carries {this : End} {count : Nat} (sound : EndSound this)
    (worker : this.worker = .sent count) :
    ∃ after, pop this = some after ∧ EndSound after ∧ taken after = taken this ∧
      ∀ wire, EndSent this wire → EndSent after wire := by
  have popped := sound.popped
  simp only [worker, Worker.popped] at popped
  obtain ⟨queue, pops, holds⟩ := pop_spec sound.sound popped
  have bytes := bytes_held holds
  refine ⟨{ this with con := { this.con with mOutQueue := queue }, worker := .free },
    by simp only [pop, worker, pops], ⟨⟨sound.sound.inQueue, held_bytes holds⟩,
    Nat.zero_le _⟩, ?_, ?_⟩
  · simp only [taken, worker, Worker.buf]
  · intro wire sent
    simpa only [EndSent, bytes, worker, Worker.popped, List.drop_zero] using sent

theorem enqueueRead_carries {this : End} {buf : List Byte} {answer : Allocation}
    (sound : EndSound this) (worker : this.worker = .holding buf) (granted : answer.isSome)
    (addressable : (bytesOf this.con.mInQueue).length + buf.length ≤ 2 ^ 63) :
    ∃ after, enqueueRead this answer = some after ∧ EndSound after ∧ taken after = taken this ∧
      ∀ wire, EndSent this wire → EndSent after wire := by
  obtain ⟨queue, receives, holds⟩ := receive_spec sound.sound addressable granted
  have bytes := bytes_held holds
  refine ⟨{ this with con := { this.con with mInQueue := queue }, worker := .free },
    by simp only [enqueueRead, worker, receives], ⟨⟨held_bytes holds,
    sound.sound.outQueue⟩, Nat.zero_le _⟩, ?_, ?_⟩
  · simp only [taken, bytes, worker, Worker.buf, List.append_nil, List.append_assoc]
  · intro wire sent
    simpa only [EndSent, worker, Worker.popped] using sent

theorem send_carries {this after : End} {answer : SendAnswer} {gone : List Byte}
    (sound : EndSound this) (sends : send this answer = some (after, gone)) :
    EndSound after ∧ taken after = taken this ∧
      ∀ wire, EndSent this wire → EndSent after (wire ++ gone) := by
  unfold send at sends
  split at sends
  case h_2 => cases sends
  case h_1 data worker _ offers =>
    split at sends
    case h_1 =>
      cases sends
      exact ⟨sound, rfl, fun wire sent => by rw [List.append_nil]; exact sent⟩
    case h_3 => cases sends
    case h_2 count _ =>
      split at sends
      case isFalse => cases sends
      case isTrue bounded =>
        cases sends
        have whole := offered_prefix sound.sound offers
        have short : count ≤ (bytesOf this.con.mOutQueue).length := by
          rw [whole, List.length_take] at bounded
          omega
        refine ⟨⟨sound.sound, short⟩, by simp only [taken, worker, Worker.buf], ?_⟩
        intro wire sent
        have front : data.take count = (bytesOf this.con.mOutQueue).take count := by
          rw [whole, List.take_take, Nat.min_eq_left bounded]
        simp only [EndSent, worker, Worker.popped, List.drop_zero] at sent
        simp only [EndSent, Worker.popped, front, List.append_assoc, List.take_append_drop]
        exact sent

theorem readSocket_carries {this after : End} {incoming rest : List Byte} {count : Nat}
    (sound : EndSound this) (reads : readSocket this incoming count = some (after, rest)) :
    EndSound after ∧ taken after ++ rest = taken this ++ incoming ∧
      ∀ wire, EndSent this wire → EndSent after wire := by
  unfold readSocket at reads
  split at reads
  case h_2 => cases reads
  case h_1 worker _ =>
    split at reads
    case isFalse => cases reads
    case isTrue bounded =>
      cases reads
      refine ⟨⟨sound.sound, Nat.zero_le _⟩, ?_, ?_⟩
      · simp only [taken, worker, Worker.buf, List.append_nil, List.append_assoc,
          List.take_append_drop]
      · intro wire sent
        simpa only [EndSent, worker, Worker.popped] using sent

end Stream

section Runs

theorem opened_carries {link : Link} (opened : Opened link) : Carried link := by
  have ends : ∀ side, EndSound (link.ends side) ∧ EndSent (link.ends side) [] ∧
      taken (link.ends side) = [] := by
    intro side
    obtain ⟨fd, con, fresh, same⟩ := opened.fresh side
    have inEmpty : bytesOf (link.ends side).con.mInQueue = [] := by rw [same]; exact fresh.emptyIn
    have outEmpty : bytesOf (link.ends side).con.mOutQueue = [] := by rw [same]; exact fresh.emptyOut
    have sound : (link.ends side).con.Sound := by
      rw [same]
      exact ⟨fresh.sound.inQueue, fresh.sound.outQueue⟩
    refine ⟨⟨sound, ?_⟩, ?_, ?_⟩
    · rw [opened.free]
      exact Nat.zero_le _
    · simp [EndSent, outEmpty, opened.accepted]
    · simp [taken, inEmpty, opened.free, opened.returned, Worker.buf]
  constructor
  · exact fun side => (ends side).1
  · intro side
    rw [(ends side.peer).2.2, opened.channel]
    exact (ends side).2.1

theorem step_carries {link next : Link} {label : Label} (carried : Carried link)
    (served : Served link label) (stepped : step link label = some next) : Carried next := by
  cases label with
  | takeOver side =>
      obtain ⟨after, takes, rfl⟩ := Option.map_eq_some_iff.mp stepped
      unfold takeOver at takes
      split at takes
      · cases takes
      · cases takes
        have sound := carried.sound side
        exact carried_same_channel carried
          ⟨⟨sound.sound.inQueue, sound.sound.outQueue⟩, sound.popped⟩ (fun _ sent => sent) rfl
  | establish side =>
      obtain ⟨after, establishes, rfl⟩ := Option.map_eq_some_iff.mp stepped
      unfold establish at establishes
      split at establishes
      · cases establishes
        have sound := carried.sound side
        exact carried_same_channel carried
          ⟨⟨sound.sound.inQueue, sound.sound.outQueue⟩, sound.popped⟩ (fun _ sent => sent) rfl
      · cases establishes
  | write side src answer =>
      obtain ⟨after, writes, rfl⟩ := Option.map_eq_some_iff.mp stepped
      obtain ⟨_, same, sound, takes, sends⟩ :=
        write_carries (carried.sound side) served.1 served.2
      rw [writes] at same
      cases same
      exact carried_same_channel carried sound sends takes
  | read side dst =>
      obtain ⟨after, reads, rfl⟩ := Option.map_eq_some_iff.mp stepped
      obtain ⟨_, same, sound, takes, sends⟩ := read_carries dst (carried.sound side)
      rw [reads] at same
      cases same
      exact carried_same_channel carried sound sends takes
  | send side answer =>
      obtain ⟨⟨after, gone⟩, sends, rfl⟩ := Option.map_eq_some_iff.mp stepped
      obtain ⟨sound, takes, sent⟩ := send_carries (carried.sound side) sends
      apply carried_put _ carried sound
      · intro wire before
        simpa using sent _ before
      · simp [takes, side.peer_ne]
  | pop side =>
      obtain ⟨after, pops, rfl⟩ := Option.map_eq_some_iff.mp stepped
      cases worker : (link.ends side).worker with
      | free => simp [pop, worker] at pops
      | holding buf => simp [pop, worker] at pops
      | sent count =>
          obtain ⟨_, same, sound, takes, sends⟩ := pop_carries (carried.sound side) worker
          rw [pops] at same
          cases same
          exact carried_same_channel carried sound sends takes
  | readSocket side count =>
      obtain ⟨⟨after, rest⟩, reads, rfl⟩ := Option.map_eq_some_iff.mp stepped
      obtain ⟨sound, takes, sent⟩ := readSocket_carries (carried.sound side) reads
      apply carried_put _ carried sound
      · intro wire before
        simpa [side.peer_ne.symm] using sent _ before
      · simpa using takes
  | enqueueRead side answer =>
      obtain ⟨after, enqueues, rfl⟩ := Option.map_eq_some_iff.mp stepped
      cases worker : (link.ends side).worker with
      | free => simp [enqueueRead, worker] at enqueues
      | sent count => simp [enqueueRead, worker] at enqueues
      | holding buf =>
          obtain ⟨granted, addressable⟩ := served
          rw [worker] at addressable
          obtain ⟨_, same, sound, takes, sends⟩ :=
            enqueueRead_carries (carried.sound side) worker granted addressable
          rw [enqueues] at same
          cases same
          exact carried_same_channel carried sound sends takes

theorem run_carries {first link : Link} (opened : Opened first)
    (run : GuardedRun step Served first link) : Carried link :=
  run.invariant Carried (fun _ _ _ carried served stepped => step_carries carried served stepped)
    (opened_carries opened)

-- No call of a user and no dequeue or enqueue of a worker runs into a fault on the way.
theorem calls_return {link : Link} (carried : Carried link) (side : Side) :
    (∀ src answer, Served link (.write side src answer) →
      (step link (.write side src answer)).isSome) ∧
    (∀ dst, (step link (.read side dst)).isSome) ∧
    (∀ count, (link.ends side).worker = .sent count → (step link (.pop side)).isSome) ∧
    (∀ buf answer, (link.ends side).worker = .holding buf →
      Served link (.enqueueRead side answer) → (step link (.enqueueRead side answer)).isSome) := by
  have sound := carried.sound side
  refine ⟨?_, ?_, ?_, ?_⟩
  · rintro src answer ⟨granted, addressable⟩
    obtain ⟨after, writes, _⟩ := write_carries sound granted addressable
    simp [step, writes]
  · intro dst
    obtain ⟨after, reads, _⟩ := read_carries dst sound
    simp [step, reads]
  · intro count worker
    obtain ⟨after, pops, _⟩ := pop_carries sound worker
    simp [step, pops]
  · rintro buf answer worker ⟨granted, addressable⟩
    rw [worker] at addressable
    obtain ⟨after, enqueues, _⟩ := enqueueRead_carries sound worker granted addressable
    simp [step, enqueues]

-- Both directions: `side` is the end whose writes are followed.
theorem byte_stream (first link : Link) (opened : Opened first)
    (run : GuardedRun step Served first link) (side : Side)
    (quiet : ∀ count, (link.ends side).worker ≠ .sent count) :
    (link.ends side.peer).returned ++ bytesOf (link.ends side.peer).con.mInQueue ++
        inFlight link side ++ bytesOf (link.ends side).con.mOutQueue =
      (link.ends side).accepted := by
  have stream := (run_carries opened run).stream side
  have popped : (link.ends side).worker.popped = 0 := by
    cases worker : (link.ends side).worker with
    | sent count => exact absurd worker (quiet count)
    | free => rfl
    | holding buf => rfl
  simpa [EndSent, popped, taken, inFlight, List.append_assoc] using stream

/-- Both objects have just been created; the service has not taken its one over yet. -/
def newLink : Link where
  ends
    | .service =>
        ⟨{ newObject ⟨5, 1⟩ 0 with mMasterId := 1, mState := .inProgress }, .running, 1, false,
          .free, [], []⟩
    | .server =>
        ⟨{ newObject ⟨6, 2⟩ 1 with mMasterId := 2, mState := .established }, .running, 2, true,
          .free, [], []⟩
  channel _ := []

theorem newLink_opened : Opened newLink := by
  constructor
  case fresh =>
    intro side
    cases side with
    | service => exact ⟨_, _, newObject_fresh ⟨5, 1⟩ 0, rfl⟩
    | server => exact ⟨_, _, newObject_fresh ⟨6, 2⟩ 1, rfl⟩
  all_goals
    intro side
    cases side <;> rfl

/-- A write before the connection is established, a short `send()`, and a write
between that `send()` and the dequeue. -/
def writeInsidePass : List Label :=
  [.write .service [1, 2, 3] zeroed, .takeOver .service, .establish .service,
    .send .service (.took 2), .write .service [4] zeroed, .pop .service,
    .readSocket .server 2, .enqueueRead .server zeroed, .read .server [9]]

theorem write_inside_pass_stream :
    ∃ link, GuardedRun step Served newLink link ∧ (link.ends .server).returned = [1] ∧
      (link.ends .service).accepted = [1, 2, 3, 4] ∧
      (link.ends .server).returned ++ bytesOf (link.ends .server).con.mInQueue ++
        inFlight link .service ++ bytesOf (link.ends .service).con.mOutQueue = [1, 2, 3, 4] := by
  obtain ⟨link, run, tested⟩ := replayed step Served newLink writeInsidePass
    (fun link => (link.ends .server).returned = [1] ∧
      (link.ends .service).accepted = [1, 2, 3, 4] ∧ (link.ends .service).worker = .free)
    (by decide +kernel)
  obtain ⟨returned, accepted, free⟩ := of_decide_eq_true tested
  refine ⟨link, run, returned, accepted, ?_⟩
  rw [← accepted]
  exact byte_stream newLink link newLink_opened run .service (by simp [free])

end Runs

end Libasock.ByteStream
