import Libasock.ConnectionObjects
import Libasock.GuardedRuns

/-!
One established connection of a running server, from its output queue to the close
of its descriptor. The worker's update visits the connection once in the send pass,
tests `m_disconnect` in a pass of its own, and then handles events; the user writes
and gives the connection up at any moment in between. The send pass holds the
queue's lock from the size to the end of `send()`, and dequeues after that.
-/

namespace Libasock.LastWrites
open ByteBlocks GuardedRuns NumberReuse ReturnCodes TsqueueModel TsqueueContent ConnectionObjects

inductive Pc where
  | passing
  | dequeuing (count : Nat)
  | visited
  | events
  | closed
  deriving DecidableEq

/-- What `send()` took of the queue before the dequeue that drops it. -/
def Pc.popped : Pc → Nat
  | .dequeuing count => count
  | _ => 0

/-- No other `send()` of this update is to come for the connection. -/
def Pc.served : Pc → Bool
  | .passing | .events => false
  | .dequeuing _ | .visited | .closed => true

/-- `accepted` is what was pending at the start and what `asock_write` took since;
`sent` is what `send()` took since. -/
structure Session where
  con : Asock
  pc : Pc
  status : ServiceStatus
  workerId : Int
  ids : List Nat
  held : Bool
  accepted : List Byte
  sent : List Byte

inductive Label where
  | visit (answer : SendAnswer)
  | dequeue
  | test
  | event (chunk : List Byte) (answer : Allocation)
  /-- `EPOLLERR`, `EPOLLHUP`, the end of the stream or a failed `read()`. -/
  | hangUp
  | endEvents
  /-- The worker registers or closes other connections. -/
  | others (ids : List Nat)
  | userWrite (src : List Byte) (answer : Allocation)
  | userDestroy

/-- What `asock_destroy_asock` writes while another reference keeps the object. -/
def destroyAsock (con : Asock) : Asock :=
  { con with mDisconnect := true, mRefCounter := con.mRefCounter - 1 }

/-- `asock_server_close_connection` -/
def Session.closeConnection (session : Session) : Session :=
  { session with con := destroyAsock { session.con with mState := .failed }, pc := .closed }

/-- The visit of `asock_server_send_unsent_data` up to its dequeue. -/
def visit (session : Session) (answer : SendAnswer) : Option Session :=
  match session.con.offered with
  | none => some { session with pc := .visited }
  | some data =>
      match session.con.trySendData session.status session.workerId session.ids answer with
      | .refused => some { session with pc := .visited }
      | .sent count =>
          if count ≤ data.length then
            some { session with pc := .dequeuing count, sent := session.sent ++ data.take count }
          else none
      | .closing => some session.closeConnection

def dequeue (session : Session) (count : Nat) : Option Session :=
  match session.con.pop count with
  | .error _ => none
  | .ok con => some { session with con := con, pc := .visited }

/-- The visit of `asock_server_check_for_connections_to_close`. -/
def test (session : Session) : Session :=
  if session.con.mDisconnect then session.closeConnection else { session with pc := .events }

def readData (session : Session) (chunk : List Byte) (answer : Allocation) : Option Session :=
  match session.con.receive chunk answer with
  | .error _ => none
  | .ok con => some { session with con := con }

def userWrite (session : Session) (src : List Byte) (answer : Allocation) : Option Session :=
  match session.con.write src answer with
  | .error _ => none
  | .ok (count, con) =>
      some { session with con := con, accepted := session.accepted ++ src.take count }

def userDestroy (session : Session) : Session :=
  { session with con := destroyAsock session.con, held := false }

def step (session : Session) : Label → Option Session
  | .visit answer => if session.pc = .passing then visit session answer else none
  | .dequeue =>
      match session.pc with
      | .dequeuing count => dequeue session count
      | _ => none
  | .test => if session.pc = .visited then some (test session) else none
  | .event chunk answer =>
      if session.pc = .events ∧ 1 ≤ chunk.length ∧ chunk.length ≤ bufSize then
        readData session chunk answer
      else none
  | .hangUp => if session.pc = .events then some session.closeConnection else none
  | .endEvents => if session.pc = .events then some { session with pc := .passing } else none
  | .others ids =>
      if session.pc ≠ .closed ∧ session.con.mConnectionId ∈ ids then
        some { session with ids := ids }
      else none
  | .userWrite src answer => if session.held then userWrite session src answer else none
  | .userDestroy => if session.held then some (userDestroy session) else none

section Conditions

/-- `send()` takes every byte it is offered and no event closes the connection. -/
def Undisturbed (session : Session) : Label → Prop
  | .visit answer => ∀ data ∈ session.con.offered, answer = .took data.length
  | .hangUp => False
  | _ => True

def Stored (session : Session) : Label → Prop
  | .userWrite src answer =>
      session.con.mOutQueue.mSize + src.length ≤ 2 ^ 63 ∧
        (session.con.mOutQueue.mSize + src.length ≤ session.con.mOutQueue.mCapacity ∨
          answer.isSome)
  | _ => True

/-- The items do not go round the end of the ring, and `uint32_t` can count them. -/
def InOnePiece (queue : Tsqueue) : Prop :=
  queue.mHeadPos + queue.mSize ≤ queue.mCapacity ∧ queue.mSize < 2 ^ 32

/-- A connection given up is visited in one piece, and it is not given up between the
visit of the send pass and the test with bytes in it that this visit has not sent. -/
def Prompt (session : Session) : Label → Prop
  | .visit _ => session.con.mDisconnect = true → InOnePiece session.con.mOutQueue
  | .userDestroy =>
      session.pc.served = true → session.con.mOutQueue.mSize ≤ session.pc.popped
  | _ => True

def Delivering (session : Session) (label : Label) : Prop :=
  Undisturbed session label ∧ Stored session label ∧ Prompt session label

instance (queue : Tsqueue) : Decidable (InOnePiece queue) := inferInstanceAs (Decidable (_ ∧ _))

instance (session : Session) : ∀ label, Decidable (Undisturbed session label)
  | .visit _ => inferInstanceAs (Decidable (∀ data ∈ session.con.offered, _))
  | .hangUp => inferInstanceAs (Decidable False)
  | .dequeue | .test | .event .. | .endEvents | .others _ | .userWrite .. | .userDestroy =>
      inferInstanceAs (Decidable True)

instance (session : Session) : ∀ label, Decidable (Stored session label)
  | .userWrite .. => inferInstanceAs (Decidable (_ ∧ (_ ∨ _)))
  | .visit _ | .dequeue | .test | .event .. | .hangUp | .endEvents | .others _ | .userDestroy =>
      inferInstanceAs (Decidable True)

instance (session : Session) : ∀ label, Decidable (Prompt session label)
  | .visit _ => inferInstanceAs (Decidable (_ → InOnePiece _))
  | .userDestroy => inferInstanceAs (Decidable (_ = true → _ ≤ _))
  | .dequeue | .test | .event .. | .hangUp | .endEvents | .others _ | .userWrite .. =>
      inferInstanceAs (Decidable True)

instance (session : Session) (label : Label) : Decidable (Delivering session label) :=
  inferInstanceAs (Decidable (_ ∧ _ ∧ _))

end Conditions

def pending (session : Session) : List Byte :=
  (bytesOf session.con.mOutQueue).drop session.pc.popped

/-- An established connection of a running server, with any content and layout of its
output queue and at any point of the worker's update. -/
structure Ready (session : Session) : Prop where
  queue : HoldsBytes session.con.mOutQueue (bytesOf session.con.mOutQueue)
  popped : session.pc.popped ≤ (bytesOf session.con.mOutQueue).length
  running : session.status = .running
  owned : session.con.mMasterId = session.workerId
  listed : session.con.mConnectionId ∈ session.ids
  established : session.con.mState = .established
  connected : session.con.mDisconnect = false
  opened : session.pc ≠ .closed
  accepted : session.accepted = pending session
  sent : session.sent = []

section Steps

/-- What every run keeps: each accepted byte is sent or pending. -/
structure Flowing (session : Session) : Prop where
  queue : HoldsBytes session.con.mOutQueue (bytesOf session.con.mOutQueue)
  popped : session.pc.popped ≤ (bytesOf session.con.mOutQueue).length
  running : session.status = .running
  owned : session.con.mMasterId = session.workerId
  listed : session.con.mConnectionId ∈ session.ids
  established : session.pc ≠ .closed → session.con.mState = .established
  ledger : session.accepted = session.sent ++ pending session
  parted : session.con.mDisconnect = true → session.held = false
  disconnected : session.pc = .closed → session.con.mDisconnect = true

theorem ready_flows {session : Session} (ready : Ready session) : Flowing session := by
  constructor
  case established => exact fun _ => ready.established
  case ledger => rw [ready.sent, ready.accepted, List.nil_append]
  case parted =>
    intro disconnected
    rw [ready.connected] at disconnected
    cases disconnected
  case disconnected => exact fun closed => absurd closed ready.opened
  case queue => exact ready.queue
  case popped => exact ready.popped
  case running => exact ready.running
  case owned => exact ready.owned
  case listed => exact ready.listed

/-- The head chunk is the whole queue exactly when the queue is in one piece. -/
theorem head_chunk_whole {queue : Tsqueue} {bytes : List Byte} (holds : HoldsBytes queue bytes) :
    bytes.length ≤ queue.headSize % 2 ^ 32 ↔ InOnePiece queue := by
  have headInside := holds.valid.headInside
  have headSize := headSize_exact holds.valid
  have below : queue.headSize % 2 ^ 32 < 2 ^ 32 := Nat.mod_lt _ (by decide)
  have under : queue.headSize % 2 ^ 32 ≤ queue.headSize := Nat.mod_le _ _
  rw [← holds.length, InOnePiece]
  constructor
  · intro whole
    omega
  · rintro ⟨straight, counted⟩
    have same : queue.headSize = queue.mSize := by omega
    rw [same, Nat.mod_eq_of_lt counted]

theorem stored_write {session : Session} {src : List Byte} {answer : Allocation}
    (flowing : Flowing session) (stored : Stored session (.userWrite src answer)) :
    ∃ queue, session.con.write src answer =
        .ok (src.length, { session.con with mOutQueue := queue }) ∧
      HoldsBytes queue (bytesOf session.con.mOutQueue ++ src) := by
  obtain ⟨addressable, room⟩ := stored
  have bounded : (bytesOf session.con.mOutQueue).length + src.length ≤ 2 ^ 63 := by
    rw [← flowing.queue.length]
    exact addressable
  have writes : ∀ granted : Allocation, granted.isSome →
      session.con.mOutQueue.enqueue src src.length answer =
        session.con.mOutQueue.enqueue src src.length granted →
      ∃ queue, session.con.write src answer =
          .ok (src.length, { session.con with mOutQueue := queue }) ∧
        HoldsBytes queue (bytesOf session.con.mOutQueue ++ src) := by
    intro granted grants same
    obtain ⟨after, enqueues, holds⟩ := flowing.queue.enqueue bounded grants
    refine ⟨after, ?_, holds⟩
    simp only [Asock.write, same, enqueues, bind, Except.bind, pure, Except.pure, if_true]
  -- where the items fit, the answer of the allocator is not asked for
  rcases room with fits | granted
  · apply writes zeroed rfl
    have inside : ¬ session.con.mOutQueue.mCapacity <
        addSize session.con.mOutQueue.mSize src.length := by
      rw [addSize_exact (by unfold sizeBound; omega)]
      omega
    simp only [Tsqueue.enqueue, if_neg inside]
  · exact writes answer granted rfl

theorem visit_cases {session next : Session} {answer : SendAnswer} (flowing : Flowing session)
    (passing : session.pc = .passing) (undisturbed : Undisturbed session (.visit answer))
    (visits : visit session answer = some next) :
    (bytesOf session.con.mOutQueue = [] ∧ next = { session with pc := .visited }) ∨
      ∃ count, count = min (session.con.mOutQueue.headSize % 2 ^ 32)
          (bytesOf session.con.mOutQueue).length ∧
        next = { session with
          pc := .dequeuing count
          sent := session.sent ++ (bytesOf session.con.mOutQueue).take count } := by
  unfold visit at visits
  split at visits
  case h_1 offers =>
    cases visits
    exact .inl ⟨offered_none flowing.queue offers, rfl⟩
  case h_2 data offers =>
    have chunk := offered_chunk flowing.queue offers
    have took : answer = .took data.length := undisturbed data offers
    obtain ⟨index, found⟩ := index_found flowing.owned flowing.listed
    have established := flowing.established (by rw [passing]; decide)
    have sends : session.con.trySendData session.status session.workerId session.ids answer =
        .sent data.length := by
      simp [Asock.trySendData, flowing.running, found, established, took]
    rw [sends] at visits
    simp only [Nat.le_refl, if_true, List.take_length] at visits
    cases visits
    refine .inr ⟨data.length, by rw [chunk, List.length_take], ?_⟩
    have prefixed : (bytesOf session.con.mOutQueue).take data.length = data := by
      rw [chunk, List.length_take, List.take_eq_take_iff]
      omega
    rw [prefixed]

theorem visit_flows {session next : Session} {answer : SendAnswer} (flowing : Flowing session)
    (passing : session.pc = .passing) (undisturbed : Undisturbed session (.visit answer))
    (visits : visit session answer = some next) : Flowing next := by
  have whole : pending session = bytesOf session.con.mOutQueue := by
    rw [pending, passing]
    rfl
  have ledger := flowing.ledger
  rw [whole] at ledger
  have established := flowing.established (by rw [passing]; decide)
  rcases visit_cases flowing passing undisturbed visits with
    ⟨_, rfl⟩ | ⟨count, counted, rfl⟩
  · exact ⟨flowing.queue, Nat.zero_le _, flowing.running, flowing.owned, flowing.listed,
      fun _ => established, ledger, flowing.parted, fun closed => by cases closed⟩
  · refine ⟨flowing.queue, ?_, flowing.running, flowing.owned, flowing.listed,
      fun _ => established, ?_, flowing.parted, fun closed => by cases closed⟩
    · rw [counted]
      exact Nat.min_le_right ..
    · simpa only [pending, Pc.popped, List.append_assoc, List.take_append_drop] using ledger

theorem dequeue_taken {before after : Session} (stepped : step before .dequeue = some after) :
    ∃ count, before.pc = .dequeuing count ∧ dequeue before count = some after := by
  cases pc : before.pc with
  | dequeuing count => exact ⟨count, rfl, by simpa only [step, pc] using stepped⟩
  | passing | visited | events | closed => simp [step, pc] at stepped

theorem dequeue_cases {session next : Session} {count : Nat} (flowing : Flowing session)
    (dequeuing : session.pc = .dequeuing count) (dequeues : dequeue session count = some next) :
    ∃ queue, HoldsBytes queue (pending session) ∧
      next = { session with con := { session.con with mOutQueue := queue }, pc := .visited } := by
  have popped : count ≤ (bytesOf session.con.mOutQueue).length := by
    simpa only [dequeuing, Pc.popped] using flowing.popped
  obtain ⟨queue, pops, holds⟩ := flowing.queue.pop popped
  refine ⟨queue, by rw [pending, dequeuing]; exact holds, ?_⟩
  simp only [dequeue, Asock.pop, pops, bind, Except.bind, pure, Except.pure] at dequeues
  exact (Option.some.inj dequeues).symm

theorem dequeue_flows {session next : Session} {count : Nat} (flowing : Flowing session)
    (dequeuing : session.pc = .dequeuing count) (dequeues : dequeue session count = some next) :
    Flowing next ∧ pending next = pending session := by
  have established := flowing.established (by rw [dequeuing]; exact fun same => by cases same)
  obtain ⟨queue, holds, rfl⟩ := dequeue_cases flowing dequeuing dequeues
  have kept : bytesOf queue = pending session := bytes_held holds
  refine ⟨⟨held_bytes holds, Nat.zero_le _, flowing.running, flowing.owned, flowing.listed,
    fun _ => established, ?_, flowing.parted, fun closed => by cases closed⟩, ?_⟩
  · simpa only [pending, Pc.popped, List.drop_zero, kept] using flowing.ledger
  · simpa only [Pc.popped, List.drop_zero, pending] using kept

theorem close_flows {session : Session} (flowing : Flowing session)
    (settled : session.pc.popped = 0) (parted : session.held = false) :
    Flowing session.closeConnection ∧ pending session.closeConnection = pending session := by
  have same : pending session.closeConnection = pending session := by
    rw [pending, pending, settled]
    rfl
  refine ⟨⟨flowing.queue, Nat.zero_le _, flowing.running, flowing.owned, flowing.listed,
    fun opened => absurd rfl opened, ?_, fun _ => parted, fun _ => rfl⟩, same⟩
  rw [same]
  exact flowing.ledger

theorem write_flows {session next : Session} {src : List Byte} {answer : Allocation}
    (flowing : Flowing session) (stored : Stored session (.userWrite src answer))
    (writes : userWrite session src answer = some next) :
    Flowing next ∧ next.con.mDisconnect = session.con.mDisconnect := by
  obtain ⟨queue, enqueues, holds⟩ := stored_write flowing stored
  have bytes := bytes_held holds
  have popped := flowing.popped
  simp only [userWrite, enqueues, List.take_length, Option.some.injEq] at writes
  subst writes
  refine ⟨⟨held_bytes holds, ?_, flowing.running, flowing.owned, flowing.listed,
    flowing.established, ?_, flowing.parted, flowing.disconnected⟩, rfl⟩
  · simp only [bytes, List.length_append]
    omega
  · have ledger := flowing.ledger
    simp only [pending] at ledger ⊢
    rw [bytes, List.drop_append_of_le_length popped, ← List.append_assoc, ← ledger]

theorem step_flows {before after : Session} {label : Label} (flowing : Flowing before)
    (undisturbed : Undisturbed before label) (stored : Stored before label)
    (stepped : step before label = some after) : Flowing after := by
  cases label with
  | visit answer =>
      obtain ⟨passing, visits⟩ := Option.ite_none_right_eq_some.mp stepped
      exact visit_flows flowing passing undisturbed visits
  | dequeue =>
      obtain ⟨count, pc, dequeues⟩ := dequeue_taken stepped
      exact (dequeue_flows flowing pc dequeues).1
  | test =>
      obtain ⟨visited, tests⟩ := Option.ite_none_right_eq_some.mp stepped
      cases tests
      unfold test
      split
      case isTrue given =>
        exact (close_flows flowing (by rw [visited]; rfl) (flowing.parted given)).1
      case isFalse =>
        have established := flowing.established (by rw [visited]; decide)
        have ledger := flowing.ledger
        rw [pending, visited] at ledger
        exact ⟨flowing.queue, Nat.zero_le _, flowing.running, flowing.owned, flowing.listed,
          fun _ => established, ledger, flowing.parted, fun closed => by cases closed⟩
  | event chunk answer =>
      obtain ⟨_, reads⟩ := Option.ite_none_right_eq_some.mp stepped
      unfold readData at reads
      split at reads
      · cases reads
      · rename_i con receives
        cases reads
        obtain ⟨queue, rfl⟩ := receive_shape receives
        exact ⟨flowing.queue, flowing.popped, flowing.running, flowing.owned, flowing.listed,
          flowing.established, flowing.ledger, flowing.parted, flowing.disconnected⟩
  | hangUp => exact undisturbed.elim
  | endEvents =>
      obtain ⟨events, ends⟩ := Option.ite_none_right_eq_some.mp stepped
      cases ends
      have established := flowing.established (by rw [events]; decide)
      have ledger := flowing.ledger
      rw [pending, events] at ledger
      exact ⟨flowing.queue, Nat.zero_le _, flowing.running, flowing.owned, flowing.listed,
        fun _ => established, ledger, flowing.parted, fun closed => by cases closed⟩
  | others ids =>
      obtain ⟨⟨_, listed⟩, changes⟩ := Option.ite_none_right_eq_some.mp stepped
      cases changes
      exact ⟨flowing.queue, flowing.popped, flowing.running, flowing.owned, listed,
        flowing.established, flowing.ledger, flowing.parted, flowing.disconnected⟩
  | userWrite src answer =>
      obtain ⟨_, writes⟩ := Option.ite_none_right_eq_some.mp stepped
      exact (write_flows flowing stored writes).1
  | userDestroy =>
      obtain ⟨_, destroys⟩ := Option.ite_none_right_eq_some.mp stepped
      cases destroys
      exact ⟨flowing.queue, flowing.popped, flowing.running, flowing.owned, flowing.listed,
        flowing.established, flowing.ledger, fun _ => rfl, fun _ => rfl⟩

end Steps

section GivenUp

/-- The user has given the connection up, and the worker closes it before its next visit. -/
def Settled (session : Session) : Prop :=
  session.con.mDisconnect = true ∧ session.pc.served = true

theorem visit_settles {session next : Session} {answer : SendAnswer} (flowing : Flowing session)
    (passing : session.pc = .passing) (undisturbed : Undisturbed session (.visit answer))
    (given : session.con.mDisconnect = true) (visits : visit session answer = some next) :
    Settled next ∧ (pending next = [] ↔ InOnePiece session.con.mOutQueue) := by
  rw [← head_chunk_whole flowing.queue]
  rcases visit_cases flowing passing undisturbed visits with
    ⟨empty, rfl⟩ | ⟨count, counted, rfl⟩
  · exact ⟨⟨given, rfl⟩, by simp [pending, empty]⟩
  · refine ⟨⟨given, rfl⟩, ?_⟩
    rw [pending, List.drop_eq_nil_iff]
    simp only [Pc.popped, counted, Nat.le_min, Nat.le_refl, and_true]

theorem destroy_settles {session : Session} (flowing : Flowing session)
    (served : session.pc.served = true) :
    Settled (userDestroy session) ∧
      (pending (userDestroy session) = [] ↔ session.con.mOutQueue.mSize ≤ session.pc.popped) := by
  refine ⟨⟨rfl, served⟩, ?_⟩
  rw [pending, List.drop_eq_nil_iff, flowing.queue.length]
  rfl

theorem settled_step {before after : Session} {label : Label} (flowing : Flowing before)
    (undisturbed : Undisturbed before label) (settled : Settled before)
    (stepped : step before label = some after) :
    Flowing after ∧ Settled after ∧ pending after = pending before := by
  obtain ⟨given, served⟩ := settled
  -- the user is gone, so the steps left are the worker's
  have parted := flowing.parted given
  have flows : Stored before label → Flowing after :=
    fun stored => step_flows flowing undisturbed stored stepped
  cases label with
  | visit answer =>
      obtain ⟨passing, _⟩ := Option.ite_none_right_eq_some.mp stepped
      rw [passing] at served
      cases served
  | dequeue =>
      obtain ⟨count, pc, dequeues⟩ := dequeue_taken stepped
      obtain ⟨queue, _, rfl⟩ := dequeue_cases flowing pc dequeues
      exact ⟨flows trivial, ⟨given, rfl⟩, (dequeue_flows flowing pc dequeues).2⟩
  | test =>
      obtain ⟨visited, tests⟩ := Option.ite_none_right_eq_some.mp stepped
      rw [test, if_pos given] at tests
      cases tests
      exact ⟨flows trivial, ⟨rfl, rfl⟩, (close_flows flowing (by rw [visited]; rfl) parted).2⟩
  | event chunk answer =>
      obtain ⟨⟨events, _⟩, _⟩ := Option.ite_none_right_eq_some.mp stepped
      rw [events] at served
      cases served
  | hangUp => exact undisturbed.elim
  | endEvents =>
      obtain ⟨events, _⟩ := Option.ite_none_right_eq_some.mp stepped
      rw [events] at served
      cases served
  | others ids =>
      obtain ⟨_, changes⟩ := Option.ite_none_right_eq_some.mp stepped
      cases changes
      exact ⟨flows trivial, ⟨given, served⟩, rfl⟩
  | userWrite src answer | userDestroy => simp [step, parted] at stepped

theorem settled_before {before after : Session} {label : Label} (flowing : Flowing before)
    (undisturbed : Undisturbed before label) (stored : Stored before label)
    (stepped : step before label = some after) (settled : Settled after)
    (noVisit : ∀ answer, label ≠ .visit answer) (noDestroy : label ≠ .userDestroy) :
    Settled before := by
  obtain ⟨given, served⟩ := settled
  cases label with
  | visit answer => exact absurd rfl (noVisit answer)
  | userDestroy => exact absurd rfl noDestroy
  | hangUp => exact undisturbed.elim
  | dequeue =>
      obtain ⟨count, pc, dequeues⟩ := dequeue_taken stepped
      obtain ⟨queue, _, rfl⟩ := dequeue_cases flowing pc dequeues
      exact ⟨given, by rw [pc]; rfl⟩
  | test =>
      obtain ⟨visited, tests⟩ := Option.ite_none_right_eq_some.mp stepped
      by_cases givenBefore : before.con.mDisconnect = true
      · exact ⟨givenBefore, by rw [visited]; rfl⟩
      · rw [test, if_neg givenBefore] at tests
        cases tests
        cases served
  | event chunk answer =>
      obtain ⟨⟨events, _⟩, reads⟩ := Option.ite_none_right_eq_some.mp stepped
      unfold readData at reads
      split at reads
      · cases reads
      · cases reads
        rw [events] at served
        cases served
  | endEvents =>
      obtain ⟨_, ends⟩ := Option.ite_none_right_eq_some.mp stepped
      cases ends
      cases served
  | others ids =>
      obtain ⟨_, changes⟩ := Option.ite_none_right_eq_some.mp stepped
      cases changes
      exact ⟨given, served⟩
  | userWrite src answer =>
      obtain ⟨_, writes⟩ := Option.ite_none_right_eq_some.mp stepped
      obtain ⟨queue, enqueues, _⟩ := stored_write flowing stored
      rw [userWrite, enqueues] at writes
      cases writes
      exact ⟨given, served⟩

/-- A connection settles with an empty queue when the step is prompt, and only then. -/
theorem settling_step {before after : Session} {label : Label} (flowing : Flowing before)
    (undisturbed : Undisturbed before label) (stored : Stored before label)
    (stepped : step before label = some after) (unsettled : ¬ Settled before) :
    (Settled after → Prompt before label → pending after = []) ∧
      (¬ Prompt before label → Settled after ∧ pending after ≠ []) := by
  cases label with
  | visit answer =>
      obtain ⟨passing, visits⟩ := Option.ite_none_right_eq_some.mp stepped
      constructor
      · rintro ⟨given, _⟩ prompt
        -- the visit itself does not touch the flag
        have givenBefore : before.con.mDisconnect = true := by
          rcases visit_cases flowing passing undisturbed visits with ⟨_, rfl⟩ | ⟨_, _, rfl⟩
          · exact given
          · exact given
        exact (visit_settles flowing passing undisturbed givenBefore visits).2.mpr
          (prompt givenBefore)
      · intro late
        simp only [Prompt, Classical.not_imp] at late
        obtain ⟨settles, sent⟩ := visit_settles flowing passing undisturbed late.1 visits
        exact ⟨settles, fun empty => late.2 (sent.mp empty)⟩
  | userDestroy =>
      obtain ⟨held, destroys⟩ := Option.ite_none_right_eq_some.mp stepped
      cases destroys
      constructor
      · rintro ⟨_, served⟩ prompt
        exact (destroy_settles flowing served).2.mpr (prompt served)
      · intro late
        simp only [Prompt, Classical.not_imp] at late
        obtain ⟨settles, sent⟩ := destroy_settles flowing late.1
        exact ⟨settles, fun empty => late.2 (sent.mp empty)⟩
  | hangUp => exact undisturbed.elim
  | dequeue | test | event | endEvents | others | userWrite =>
      refine ⟨fun settled => ?_, fun late => absurd trivial late⟩
      exact absurd (settled_before flowing undisturbed stored stepped settled
        (fun _ => nofun) nofun) unsettled

theorem settled_prompt {before after : Session} {label : Label} (flowing : Flowing before)
    (settled : Settled before) (stepped : step before label = some after) :
    Prompt before label := by
  obtain ⟨given, served⟩ := settled
  cases label with
  | visit answer =>
      obtain ⟨passing, _⟩ := Option.ite_none_right_eq_some.mp stepped
      rw [passing] at served
      cases served
  | userDestroy => simp [step, flowing.parted given] at stepped
  | _ => trivial

end GivenUp

section Runs

def Drained (session : Session) : Prop := Settled session → pending session = []

theorem step_drains {before after : Session} {label : Label} (flowing : Flowing before)
    (drained : Drained before) (delivering : Delivering before label)
    (stepped : step before label = some after) : Drained after := by
  obtain ⟨undisturbed, stored, prompt⟩ := delivering
  intro settled
  by_cases settledBefore : Settled before
  · rw [(settled_step flowing undisturbed settledBefore stepped).2.2]
    exact drained settledBefore
  · exact (settling_step flowing undisturbed stored stepped settledBefore).1 settled prompt

theorem run_drains {first last : Session} (ready : Ready first)
    (run : GuardedRun step Delivering first last) : Flowing last ∧ Drained last := by
  apply run.invariant_with Flowing Drained
    (fun _ _ _ flowing delivering => step_flows flowing delivering.1 delivering.2.1)
    (fun _ _ _ flowing drained => step_drains flowing drained) (ready_flows ready)
  rintro ⟨given, _⟩
  rw [ready.connected] at given
  cases given

theorem closed_settled {session : Session} (flowing : Flowing session)
    (closed : session.pc = .closed) : Settled session :=
  ⟨flowing.disconnected closed, by rw [closed]; rfl⟩

/-- Bytes that are pending when the connection settles are never sent. -/
theorem run_keeps_lost {first last : Session} (flowing : Flowing first) (settled : Settled first)
    (lost : pending first ≠ []) (run : GuardedRun step Undisturbed first last) :
    Flowing last ∧ pending last ≠ [] := by
  have held := run.invariant
    (fun session => Flowing session ∧ Settled session ∧ pending session ≠ [])
    (fun before label after held undisturbed stepped => by
      obtain ⟨flows, settles, same⟩ := settled_step held.1 undisturbed held.2.1 stepped
      exact ⟨flows, settles, by rw [same]; exact held.2.2⟩)
    ⟨flowing, settled, lost⟩
  exact ⟨held.1, held.2.2⟩

def Alone (session : Session) (label : Label) : Prop :=
  Undisturbed session label ∧ match label with
    | .visit _ | .dequeue | .test | .endEvents => True
    | .event .. | .hangUp | .others _ | .userWrite .. | .userDestroy => False

def Closes (session : Session) : Prop :=
  ∃ last, GuardedRun step Alone session last ∧ last.pc = .closed

theorem closes_before {session next : Session} (label : Label)
    (stepped : step session label = some next) (alone : Alone session label)
    (closes : Closes next) : Closes session := by
  obtain ⟨last, run, closed⟩ := closes
  exact ⟨last, .trans (.next label .refl alone stepped) run, closed⟩

theorem visited_closes {session : Session} (given : session.con.mDisconnect = true)
    (visited : session.pc = .visited) : Closes session := by
  have stepped : step session .test = some session.closeConnection := by
    simp only [step, visited, if_true, test, given]
  have alone : Alone session .test := ⟨trivial, trivial⟩
  exact closes_before .test stepped alone ⟨session.closeConnection, .refl, rfl⟩

theorem dequeuing_closes {session : Session} {count : Nat} (flowing : Flowing session)
    (given : session.con.mDisconnect = true) (dequeuing : session.pc = .dequeuing count) :
    Closes session := by
  have popped : count ≤ (bytesOf session.con.mOutQueue).length := by
    simpa only [dequeuing, Pc.popped] using flowing.popped
  obtain ⟨queue, pops, _⟩ := flowing.queue.pop popped
  have stepped : step session .dequeue = some
      { session with con := { session.con with mOutQueue := queue }, pc := .visited } := by
    simp only [step, dequeuing, dequeue, Asock.pop, pops, bind, Except.bind, pure, Except.pure]
  exact closes_before .dequeue stepped ⟨trivial, trivial⟩ (visited_closes given rfl)

theorem passing_closes {session : Session} (flowing : Flowing session)
    (given : session.con.mDisconnect = true) (passing : session.pc = .passing) :
    Closes session := by
  have established := flowing.established (by rw [passing]; decide)
  obtain ⟨index, found⟩ := index_found flowing.owned flowing.listed
  cases offers : session.con.offered with
  | none =>
      have undisturbed : Undisturbed session (.visit .again) := by simp [Undisturbed, offers]
      have stepped : step session (.visit .again) = some { session with pc := .visited } := by
        simp only [step, passing, if_true, visit, offers]
      exact closes_before _ stepped ⟨undisturbed, trivial⟩ (visited_closes given rfl)
  | some data =>
      have undisturbed : Undisturbed session (.visit (.took data.length)) := by
        simp [Undisturbed, offers]
      have stepped : step session (.visit (.took data.length)) = some { session with
          pc := .dequeuing data.length
          sent := session.sent ++ data.take data.length } := by
        simp [step, passing, visit, offers, Asock.trySendData, flowing.running, found, established]
      have flows := step_flows flowing undisturbed trivial stepped
      exact closes_before _ stepped ⟨undisturbed, trivial⟩ (dequeuing_closes flows given rfl)

theorem given_closes {session : Session} (flowing : Flowing session)
    (given : session.con.mDisconnect = true) : Closes session := by
  cases pc : session.pc with
  | passing => exact passing_closes flowing given pc
  | dequeuing count => exact dequeuing_closes flowing given pc
  | visited => exact visited_closes given pc
  | events =>
      have stepped : step session .endEvents = some { session with pc := .passing } := by
        simp only [step, pc, if_true]
      have undisturbed : Undisturbed session .endEvents := trivial
      have flows := step_flows flowing undisturbed trivial stepped
      exact closes_before _ stepped ⟨undisturbed, trivial⟩ (passing_closes flows given rfl)
  | closed => exact ⟨session, .refl, pc⟩

def turned (queue : Tsqueue) (head : Nat) : Tsqueue :=
  { queue with mTailPos := head, mHeadPos := head }

theorem turned_holds {queue : Tsqueue} {head : Nat} (holds : HoldsBytes queue [])
    (inside : head < queue.mCapacity) : HoldsBytes (turned queue head) [] := by
  have valid := holds.valid
  have size : queue.mSize = 0 := holds.length
  refine ⟨⟨valid.width, valid.block, valid.inside, valid.power, valid.sized, inside, ?_⟩,
    holds.itemSize, ?_⟩
  · simp only [turned, size, Nat.add_zero]
    exact (Nat.mod_eq_of_lt inside).symm
  · have empty : content (turned queue head) = [] := by
      rw [← List.length_eq_zero_iff, content_length]
      exact size
    rw [empty, List.flatten_nil]

def acceptedSession (head : Nat) : Session where
  con :=
    { newObject ⟨6, 2⟩ 1 with
      mMasterId := 2, mState := .established, mRefCounter := 2, mOutQueue := turned emptyRing head }
  pc := .passing
  status := .running
  workerId := 2
  ids := [1]
  held := true
  accepted := []
  sent := []

theorem acceptedSession_ready {head : Nat} (inside : head < asockMesBufferSize) :
    Ready (acceptedSession head) := by
  have turns := turned_holds emptyRing_holds inside
  have empty : bytesOf (turned emptyRing head) = [] := bytes_held turns
  constructor
  case queue => exact held_bytes turns
  case popped => exact Nat.zero_le _
  case accepted => exact empty.symm
  case opened => exact fun closed => by cases closed
  case listed => exact List.mem_singleton.mpr rfl
  all_goals rfl

def writeBeforePass : List Label :=
  [.userWrite [1, 2, 3, 4] zeroed, .userDestroy, .visit (.took 4), .dequeue, .test]

def writeRoundTheEnd : List Label :=
  [.userWrite [1, 2, 3, 4] zeroed, .userDestroy, .visit (.took 2), .dequeue, .test]

def writeAfterVisit : List Label :=
  [.visit .again, .userWrite [1, 2, 3] zeroed, .userDestroy, .test]

end Runs

end Libasock.LastWrites
