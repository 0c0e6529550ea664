import Libasock.ByteStream
import Libasock.MeasuredRuns

/-!
Nothing that was written stays on the way. A step is productive when it moves a
byte or ends a pass that has moved one; with both ends up and the output queues
below the four gigabytes of `try_send_data`, there is a productive step as long
as something that was accepted has not been returned.
-/

namespace Libasock.ByteDelivery
open ByteBlocks ReturnCodes TsqueueModel TsqueueContent ConnectionObjects GuardedRuns ByteStream
  MeasuredRuns

/-- The steps by which bytes get on: no writes, no idle `send()` or `asock_read`. -/
def Productive (link : Link) : Label → Prop
  | .send side answer => (send (link.ends side) answer).any (fun result => !result.2.isEmpty) = true
  | .pop _ | .readSocket .. => True
  | .enqueueRead side answer => Served link (.enqueueRead side answer)
  | .read side dst => dst ≠ [] ∧ bytesOf (link.ends side).con.mInQueue ≠ []
  | .takeOver _ | .establish _ | .write .. => False

instance (link : Link) : ∀ label, Decidable (Productive link label)
  | .send .. => inferInstanceAs (Decidable (_ = true))
  | .pop _ | .readSocket .. => .isTrue trivial
  | .enqueueRead side answer => inferInstanceAs (Decidable (Served link (.enqueueRead side answer)))
  | .read .. => inferInstanceAs (Decidable (_ ∧ _))
  | .takeOver _ | .establish _ | .write .. => .isFalse id

def productiveStep : Link → Label → Option Link := guarded step Productive

/-- The connection is established at this end and its worker sends for it. -/
structure Online (this : End) : Prop where
  running : this.status = .running
  registered : this.registered = true
  established : this.con.mState = .established
  owned : this.con.mMasterId = this.workerId

section Loads

/-- What an end still has to do, with more for a byte that has farther to go. -/
def endLoad (this : End) : Nat :=
  7 * ((bytesOf this.con.mOutQueue).length - this.worker.popped) +
    (if this.worker = .free then 0 else 1) + 2 * this.worker.buf.length +
    (bytesOf this.con.mInQueue).length

def load (link : Link) : Nat :=
  endLoad (link.ends .service) + endLoad (link.ends .server) +
    5 * ((link.channel .service).length + (link.channel .server).length)

theorem load_sides (link : Link) (side : Side) :
    load link = endLoad (link.ends side) + endLoad (link.ends side.peer) +
      5 * ((link.channel side).length + (link.channel side.peer).length) := by
  cases side
  · rfl
  · simp only [load, Side.peer]
    omega

theorem load_put (link : Link) (side : Side) (this : End) (channel : Side → List Byte) :
    load { link.put side this with channel := channel } =
      endLoad this + endLoad (link.ends side.peer) +
        5 * ((channel side).length + (channel side.peer).length) := by
  rw [load_sides _ side]
  simp [Link.put, side.peer_ne]

/-- A step at one end that leaves the channels as they are. -/
theorem load_end {link : Link} {side : Side} {this : End}
    (less : endLoad this < endLoad (link.ends side)) : load (link.put side this) < load link := by
  have after := load_put link side this link.channel
  have before := load_sides link side
  have same : load (link.put side this) =
    load { link.put side this with channel := link.channel } := rfl
  omega

end Loads

section Steps
variable {this after : End} {answer : SendAnswer} {memory : Allocation} {count : Nat}
  {gone incoming rest dst : List Byte}

/-- A step that leaves everything but the queues, the worker and the records alone. -/
structure Stays (this after : End) : Prop where
  online : Online this → Online after
  accepted : after.accepted = this.accepted
  shorter : (bytesOf after.con.mOutQueue).length ≤ (bytesOf this.con.mOutQueue).length
  buffered : this.worker.buf.length ≤ bufSize → after.worker.buf.length ≤ bufSize

theorem send_gets_on (sends : send this answer = some (after, gone)) (moves : gone ≠ [])
    (sound : EndSound this) :
    Stays this after ∧ endLoad after + 5 * gone.length < endLoad this := by
  unfold send at sends
  split at sends
  case h_2 => cases sends
  case h_1 data worker _ offers =>
    split at sends
    case h_1 =>
      cases sends
      exact absurd rfl moves
    case h_3 => cases sends
    case h_2 count _ =>
      split at sends
      case isFalse => cases sends
      case isTrue bounded =>
        cases sends
        refine ⟨⟨fun online => ⟨online.1, online.2, online.3, online.4⟩, rfl, Nat.le_refl _,
          fun _ => Nat.zero_le _⟩, ?_⟩
        have isPrefix := offered_prefix sound.sound offers
        have whole := congrArg List.length isPrefix
        have positive := List.length_pos_of_ne_nil moves
        rw [List.length_take] at whole positive
        simp only [endLoad, worker, Worker.popped, Worker.buf, List.length_take, reduceCtorEq,
          if_true, if_false, List.length_nil]
        omega

theorem pop_gets_on (pops : pop this = some after) (sound : EndSound this) :
    Stays this after ∧ endLoad after < endLoad this := by
  cases worker : this.worker with
  | free => simp [pop, worker] at pops
  | holding buf => simp [pop, worker] at pops
  | sent count =>
      have popped := sound.popped
      simp only [worker, Worker.popped] at popped
      obtain ⟨queue, dequeues, holds⟩ := pop_spec sound.sound popped
      simp only [pop, worker, dequeues, Option.some.injEq] at pops
      subst pops
      have bytes := bytes_held holds
      refine ⟨⟨fun online => ⟨online.1, online.2, online.3, online.4⟩, rfl, ?_,
        fun _ => Nat.zero_le _⟩, ?_⟩
      · simp only [bytes, List.length_drop]
        omega
      · simp only [endLoad, worker, bytes, Worker.popped, Worker.buf, List.length_drop,
          reduceCtorEq, if_true, if_false, List.length_nil]
        omega

theorem readSocket_gets_on (reads : readSocket this incoming count = some (after, rest)) :
    Stays this after ∧ rest.length < incoming.length ∧
      endLoad after + 5 * rest.length < endLoad this + 5 * incoming.length := by
  unfold readSocket at reads
  split at reads
  case h_2 => cases reads
  case h_1 worker _ =>
    split at reads
    case isFalse => cases reads
    case isTrue bounded =>
      cases reads
      have short : (incoming.take count).length ≤ bufSize := by
        rw [List.length_take]
        omega
      refine ⟨⟨fun online => ⟨online.1, online.2, online.3, online.4⟩, rfl, Nat.le_refl _,
        fun _ => short⟩, ?_, ?_⟩
      · rw [List.length_drop]
        omega
      · simp only [endLoad, worker, Worker.popped, Worker.buf, List.length_take, List.length_drop,
          reduceCtorEq, if_true, if_false, List.length_nil]
        omega

theorem enqueueRead_gets_on (enqueues : enqueueRead this memory = some after)
    (sound : EndSound this) (granted : memory.isSome)
    (addressable : (bytesOf this.con.mInQueue).length + this.worker.buf.length ≤ 2 ^ 63) :
    Stays this after ∧ endLoad after < endLoad this := by
  cases worker : this.worker with
  | free => simp [enqueueRead, worker] at enqueues
  | sent count => simp [enqueueRead, worker] at enqueues
  | holding buf =>
      simp only [worker, Worker.buf] at addressable
      obtain ⟨queue, receives, holds⟩ := receive_spec sound.sound addressable granted
      simp only [enqueueRead, worker, receives, Option.some.injEq] at enqueues
      subst enqueues
      have bytes := bytes_held holds
      refine ⟨⟨fun online => ⟨online.1, online.2, online.3, online.4⟩, rfl, Nat.le_refl _,
        fun _ => Nat.zero_le _⟩, ?_⟩
      simp only [endLoad, worker, bytes, Worker.popped, Worker.buf, List.length_append,
        reduceCtorEq, if_true, if_false, List.length_nil]
      omega

theorem read_gets_on (reads : ByteStream.read this dst = some after) (sound : EndSound this)
    (asked : dst ≠ []) (waiting : bytesOf this.con.mInQueue ≠ []) :
    Stays this after ∧ endLoad after < endLoad this := by
  obtain ⟨queue, dequeues, holds⟩ := read_spec dst sound.sound
  simp only [ByteStream.read, dequeues, Option.some.injEq] at reads
  subst reads
  have bytes := bytes_held holds
  have asks := List.length_pos_of_ne_nil asked
  have positive := List.length_pos_of_ne_nil waiting
  refine ⟨⟨fun online => ⟨online.1, online.2, online.3, online.4⟩, rfl, Nat.le_refl _, id⟩, ?_⟩
  simp only [endLoad, bytes, List.length_drop]
  omega

end Steps

section Runs
variable {first link after : Link} {label : Label}

/-- Both ends are up, with output queues whose size an `uint32_t` holds. -/
structure Flowing (link : Link) : Prop where
  carried : Carried link
  online : ∀ side, Online (link.ends side)
  small : ∀ side, (bytesOf (link.ends side).con.mOutQueue).length < 2 ^ 32
  buffered : ∀ side, (link.ends side).worker.buf.length ≤ bufSize

theorem productive_served (productive : Productive link label) : Served link label := by
  cases label with
  | enqueueRead side answer => exact productive
  | write side src answer => cases productive
  | _ => trivial

theorem put_each (holds : End → Prop) {side : Side} {this : End} (here : holds this)
    (others : ∀ other, holds (link.ends other)) (other : Side) :
    holds ((link.put side this).ends other) := by
  by_cases same : other = side
  · subst same
    simpa [Link.put] using here
  · simpa [Link.put, same] using others other

theorem put_stays {side : Side} {this : End} {channel : Side → List Byte}
    (flowing : Flowing link) (stays : Stays (link.ends side) this)
    (carried : Carried { link.put side this with channel := channel }) :
    Flowing { link.put side this with channel := channel } ∧
      ∀ other, ((link.put side this).ends other).accepted = (link.ends other).accepted := by
  refine ⟨⟨carried, ?_, ?_, ?_⟩, ?_⟩
  · exact put_each Online (stays.online (flowing.online side)) flowing.online
  · exact put_each (fun this => (bytesOf this.con.mOutQueue).length < 2 ^ 32)
      (Nat.lt_of_le_of_lt stays.shorter (flowing.small side)) flowing.small
  · exact put_each (fun this => this.worker.buf.length ≤ bufSize)
      (stays.buffered (flowing.buffered side)) flowing.buffered
  · intro other
    by_cases same : other = side
    · subst same
      simpa [Link.put] using stays.accepted
    · simp [Link.put, same]

/-- A productive step changes neither what was accepted nor that the ends are up, and leaves
less to do. -/
theorem productive_gets_on (flowing : Flowing link) (productive : Productive link label)
    (stepped : step link label = some after) :
    Flowing after ∧ (∀ side, (after.ends side).accepted = (link.ends side).accepted) ∧
      load after < load link := by
  have carried := step_carries flowing.carried (productive_served productive) stepped
  cases label with
  | send side answer =>
      obtain ⟨⟨this, gone⟩, sends, rfl⟩ := Option.map_eq_some_iff.mp stepped
      have moves : gone ≠ [] := by simpa [Productive, sends] using productive
      obtain ⟨stays, less⟩ := send_gets_on sends moves (flowing.carried.sound side)
      obtain ⟨flows, accepted⟩ := put_stays flowing stays carried
      refine ⟨flows, accepted, ?_⟩
      rw [load_put, load_sides link side]
      simp only [Function.update_self, Function.update_of_ne side.peer_ne, List.length_append]
      omega
  | pop side =>
      obtain ⟨this, pops, rfl⟩ := Option.map_eq_some_iff.mp stepped
      obtain ⟨stays, less⟩ := pop_gets_on pops (flowing.carried.sound side)
      obtain ⟨flows, accepted⟩ := put_stays flowing stays carried
      exact ⟨flows, accepted, load_end less⟩
  | readSocket side count =>
      obtain ⟨⟨this, rest⟩, reads, rfl⟩ := Option.map_eq_some_iff.mp stepped
      obtain ⟨stays, shorter, less⟩ := readSocket_gets_on reads
      obtain ⟨flows, accepted⟩ := put_stays flowing stays carried
      refine ⟨flows, accepted, ?_⟩
      rw [load_put, load_sides link side]
      simp only [Function.update_self, Function.update_of_ne side.peer_ne.symm]
      omega
  | enqueueRead side answer =>
      obtain ⟨this, enqueues, rfl⟩ := Option.map_eq_some_iff.mp stepped
      obtain ⟨granted, addressable⟩ := productive
      obtain ⟨stays, less⟩ :=
        enqueueRead_gets_on enqueues (flowing.carried.sound side) granted addressable
      obtain ⟨flows, accepted⟩ := put_stays flowing stays carried
      exact ⟨flows, accepted, load_end less⟩
  | read side dst =>
      obtain ⟨this, reads, rfl⟩ := Option.map_eq_some_iff.mp stepped
      obtain ⟨stays, less⟩ :=
        read_gets_on reads (flowing.carried.sound side) productive.1 productive.2
      obtain ⟨flows, accepted⟩ := put_stays flowing stays carried
      exact ⟨flows, accepted, load_end less⟩
  | takeOver side => cases productive
  | establish side => cases productive
  | write side src answer => cases productive

theorem productive_cases (stepped : productiveStep link label = some after) :
    Productive link label ∧ step link label = some after := by
  simpa [productiveStep, guarded] using stepped

theorem productive_consumes (accepted : Side → List Byte) :
    Consumes productiveStep
      (fun link => Flowing link ∧ ∀ side, (link.ends side).accepted = accepted side) load := by
  constructor
  · intro before label after held stepped
    obtain ⟨productive, stepped⟩ := productive_cases stepped
    obtain ⟨flows, same, _⟩ := productive_gets_on held.1 productive stepped
    exact ⟨flows, fun side => (same side).trans (held.2 side)⟩
  · intro before label after held stepped
    obtain ⟨productive, stepped⟩ := productive_cases stepped
    exact (productive_gets_on held.1 productive stepped).2.2

end Runs

section Stuck
variable {link : Link}

theorem stuck_refuses (stuck : Stuck productiveStep link) (label : Label)
    (productive : Productive link label) : step link label = none := by
  have refused := stuck label
  rwa [productiveStep, guarded, if_pos productive] at refused

theorem stuck_read (flowing : Flowing link) (stuck : Stuck productiveStep link) (side : Side) :
    bytesOf (link.ends side).con.mInQueue = [] := by
  by_contra waiting
  have refused := stuck_refuses stuck (.read side [0]) ⟨by simp, waiting⟩
  have reads := (calls_return flowing.carried side).2.1 [0]
  rw [refused] at reads
  cases reads

/-- A pass under way can go on. -/
theorem stuck_free (flowing : Flowing link) (stuck : Stuck productiveStep link) (side : Side) :
    (link.ends side).worker = .free := by
  obtain ⟨_, _, pops, enqueues⟩ := calls_return flowing.carried side
  cases worker : (link.ends side).worker with
  | free => rfl
  | sent count =>
      have enabled := pops count worker
      rw [stuck_refuses stuck (.pop side) trivial] at enabled
      cases enabled
  | holding buf =>
      have served : Served link (.enqueueRead side zeroed) := by
        refine ⟨rfl, ?_⟩
        have bounded := flowing.buffered side
        rw [stuck_read flowing stuck side, List.length_nil]
        unfold bufSize at bounded
        omega
      have enabled := enqueues buf zeroed worker served
      rw [stuck_refuses stuck (.enqueueRead side zeroed) served] at enabled
      cases enabled

/-- A kernel that takes one byte gets it. -/
theorem stuck_sent (flowing : Flowing link) (stuck : Stuck productiveStep link) (side : Side) :
    bytesOf (link.ends side).con.mOutQueue = [] := by
  obtain ⟨running, registered, established, owned⟩ := flowing.online side
  have sound := (flowing.carried.sound side).sound
  have free := stuck_free flowing stuck side
  cases offers : (link.ends side).con.offered with
  | none => exact offered_none sound.outQueue offers
  | some data =>
      have chunk := offered_chunk sound.outQueue offers
      have short := sound.outQueue.headSize_le
      have small := flowing.small side
      rw [Nat.mod_eq_of_lt (Nat.lt_of_le_of_lt short small)] at chunk
      have positive : 1 ≤ data.length := by
        have pending : (link.ends side).con.mOutQueue.headSize ≠ 0 := by
          intro empty
          simp [Asock.offered, empty] at offers
        rw [chunk, List.length_take]
        omega
      obtain ⟨index, found⟩ := index_found owned
        (show (link.ends side).con.mConnectionId ∈ (link.ends side).ids by
          simp [End.ids, registered])
      have sends : send (link.ends side) (.took 1) =
          some ({ link.ends side with worker := .sent 1 }, data.take 1) := by
        simp [send, free, registered, offers, Asock.trySendData, running, found, established, positive]
      have productive : Productive link (.send side (.took 1)) := by
        simp only [Productive, sends, Option.any_some]
        cases data with
        | nil => cases positive
        | cons byte more => rfl
      have refused := stuck_refuses stuck _ productive
      simp [step, sends] at refused

theorem stuck_channel (flowing : Flowing link) (stuck : Stuck productiveStep link) (side : Side) :
    link.channel side = [] := by
  by_contra waiting
  have positive := List.length_pos_of_ne_nil waiting
  have refused := stuck_refuses stuck (.readSocket side.peer 1) trivial
  have bounded : 1 ≤ 1 ∧ 1 ≤ min bufSize (link.channel side).length := by
    unfold bufSize
    omega
  simp [step, readSocket, stuck_free flowing stuck side.peer, (flowing.online side.peer).registered,
    bounded.2] at refused

/-- What was accepted at one end has been returned at the other. -/
theorem stuck_complete (flowing : Flowing link) (stuck : Stuck productiveStep link) (side : Side) :
    (link.ends side.peer).returned = (link.ends side).accepted := by
  have stream := flowing.carried.stream side
  simpa [EndSent, taken, Worker.popped, Worker.buf, stuck_free flowing stuck,
    stuck_read flowing stuck, stuck_sent flowing stuck side,
    stuck_channel flowing stuck side] using stream

end Stuck

section Standing
variable {this after : End} {first link next : Link} {label : Label}

/-- An end's object belongs to its worker, and a read pass holds one buffer at most. -/
structure Standing (this : End) : Prop where
  owned : this.con.mMasterId = this.workerId
  buffered : this.worker.buf.length ≤ bufSize

theorem write_standing {src : List Byte} {answer : Allocation} (standing : Standing this)
    (writes : write this src answer = some after) : Standing after := by
  unfold write at writes
  split at writes
  · cases writes
  · rename_i count con wrote
    cases writes
    obtain ⟨result, _, same⟩ := sequenced wrote
    cases same
    exact ⟨standing.owned, standing.buffered⟩

theorem read_standing {dst : List Byte} (standing : Standing this)
    (reads : ByteStream.read this dst = some after) : Standing after := by
  unfold ByteStream.read at reads
  split at reads
  · cases reads
  · rename_i count block con taken
    cases reads
    obtain ⟨queue, rfl⟩ := read_shape taken
    exact ⟨standing.owned, standing.buffered⟩

theorem send_standing {answer : SendAnswer} {gone : List Byte} (standing : Standing this)
    (sends : send this answer = some (after, gone)) : Standing after := by
  unfold send at sends
  split at sends
  · split at sends
    · cases sends
      exact standing
    · split at sends
      · cases sends
        exact ⟨standing.owned, Nat.zero_le _⟩
      · cases sends
    · cases sends
  · cases sends

theorem pop_standing (standing : Standing this) (pops : pop this = some after) :
    Standing after := by
  unfold pop at pops
  split at pops
  · split at pops
    · cases pops
    · rename_i con popped
      cases pops
      obtain ⟨result, _, same⟩ := sequenced popped
      cases same
      exact ⟨standing.owned, Nat.zero_le _⟩
  · cases pops

theorem readSocket_standing {incoming rest : List Byte} {count : Nat} (standing : Standing this)
    (reads : readSocket this incoming count = some (after, rest)) : Standing after := by
  obtain ⟨stays, _⟩ := readSocket_gets_on reads
  refine ⟨?_, stays.buffered standing.buffered⟩
  unfold readSocket at reads
  split at reads
  · split at reads
    · cases reads
      exact standing.owned
    · cases reads
  · cases reads

theorem enqueueRead_standing {answer : Allocation} (standing : Standing this)
    (enqueues : enqueueRead this answer = some after) : Standing after := by
  unfold enqueueRead at enqueues
  split at enqueues
  · split at enqueues
    · cases enqueues
    · rename_i con received
      cases enqueues
      obtain ⟨queue, rfl⟩ := receive_shape received
      exact ⟨standing.owned, Nat.zero_le _⟩
  · cases enqueues

theorem step_standing (standing : ∀ side, Standing (link.ends side))
    (stepped : step link label = some next) (side : Side) : Standing (next.ends side) := by
  cases label with
  | takeOver actor =>
      obtain ⟨this, takes, rfl⟩ := Option.map_eq_some_iff.mp stepped
      refine put_each Standing ?_ standing side
      unfold takeOver at takes
      split at takes
      · cases takes
      · cases takes
        exact ⟨(standing actor).owned, (standing actor).buffered⟩
  | establish actor =>
      obtain ⟨this, establishes, rfl⟩ := Option.map_eq_some_iff.mp stepped
      refine put_each Standing ?_ standing side
      unfold establish at establishes
      split at establishes
      · cases establishes
        exact ⟨(standing actor).owned, (standing actor).buffered⟩
      · cases establishes
  | write actor src answer =>
      obtain ⟨this, writes, rfl⟩ := Option.map_eq_some_iff.mp stepped
      exact put_each Standing (write_standing (standing actor) writes) standing side
  | read actor dst =>
      obtain ⟨this, reads, rfl⟩ := Option.map_eq_some_iff.mp stepped
      exact put_each Standing (read_standing (standing actor) reads) standing side
  | send actor answer =>
      obtain ⟨⟨this, gone⟩, sends, rfl⟩ := Option.map_eq_some_iff.mp stepped
      exact put_each Standing (send_standing (standing actor) sends) standing side
  | pop actor =>
      obtain ⟨this, pops, rfl⟩ := Option.map_eq_some_iff.mp stepped
      exact put_each Standing (pop_standing (standing actor) pops) standing side
  | readSocket actor count =>
      obtain ⟨⟨this, rest⟩, reads, rfl⟩ := Option.map_eq_some_iff.mp stepped
      exact put_each Standing (readSocket_standing (standing actor) reads) standing side
  | enqueueRead actor answer =>
      obtain ⟨this, enqueues, rfl⟩ := Option.map_eq_some_iff.mp stepped
      exact put_each Standing (enqueueRead_standing (standing actor) enqueues) standing side

theorem run_standing (opened : Opened first) (run : GuardedRun step Served first link) :
    ∀ side, Standing (link.ends side) := by
  refine run.invariant (fun link => ∀ side, Standing (link.ends side))
    (fun _ _ _ standing _ stepped => step_standing standing stepped) ?_
  intro side
  obtain ⟨fd, con, _, same⟩ := opened.fresh side
  refine ⟨by rw [same], ?_⟩
  rw [opened.free side]
  exact Nat.zero_le _

end Standing

section Results

/-- An established connection, registered with a worker that runs. -/
structure Up (this : End) : Prop where
  running : this.status = .running
  registered : this.registered = true
  established : this.con.mState = .established

/-- Productive steps come to an end, and there everything accepted has been returned. -/
structure Delivers (link : Link) : Prop where
  bounded : ∀ labels later, exec productiveStep link labels = some later →
    labels.length ≤ load link
  finishes : ∃ labels later, exec productiveStep link labels = some later ∧
    Stuck productiveStep later
  complete : ∀ labels later, exec productiveStep link labels = some later →
    Stuck productiveStep later → ∀ side,
      (later.ends side.peer).returned = (link.ends side).accepted

theorem everything_delivered (first link : Link) (opened : Opened first)
    (run : GuardedRun step Served first link) (up : ∀ side, Up (link.ends side))
    (small : ∀ side, (bytesOf (link.ends side).con.mOutQueue).length < 2 ^ 32) :
    Delivers link := by
  have standing := run_standing opened run
  have flowing : Flowing link := ⟨run_carries opened run,
    fun side => ⟨(up side).running, (up side).registered, (up side).established,
      (standing side).owned⟩,
    small, fun side => (standing side).buffered⟩
  have consumes := productive_consumes fun side => (link.ends side).accepted
  have held : Flowing link ∧ ∀ side, (link.ends side).accepted = (link.ends side).accepted :=
    ⟨flowing, fun _ => rfl⟩
  refine ⟨?_, ends_stuck consumes held, ?_⟩
  · intro labels later played
    have used := exec_bounded consumes held played
    omega
  · intro labels later played stuck side
    obtain ⟨flows, accepted⟩ := exec_kept consumes held played
    rw [← accepted side]
    exact stuck_complete flows stuck side

/-- Four bytes are written, two of them sent and one returned. -/
theorem everything_delivered_written : ∃ link, GuardedRun step Served newLink link ∧
    (link.ends .service).accepted = [1, 2, 3, 4] ∧ (link.ends .server).returned = [1] ∧
      Delivers link := by
  obtain ⟨link, run, tested⟩ := replayed step Served newLink writeInsidePass
    (fun link => (link.ends .service).accepted = [1, 2, 3, 4] ∧
      (link.ends .server).returned = [1] ∧
      ∀ side ∈ [Side.service, .server], (link.ends side).status = .running ∧
        (link.ends side).registered = true ∧ (link.ends side).con.mState = .established ∧
          (bytesOf (link.ends side).con.mOutQueue).length < 2 ^ 32)
    (by decide +kernel)
  obtain ⟨accepted, returned, each⟩ := of_decide_eq_true tested
  have both : ∀ side, side ∈ [Side.service, .server] := by
    intro side
    cases side <;> simp
  exact ⟨link, run, accepted, returned, everything_delivered newLink link newLink_opened run
    (fun side => ⟨(each side (both side)).1, (each side (both side)).2.1,
      (each side (both side)).2.2.1⟩)
    (fun side => (each side (both side)).2.2.2)⟩

end Results

end Libasock.ByteDelivery
