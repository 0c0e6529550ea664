import Libasock.ConnectionObjects

/-!
What a server and a service share: the connection objects, the two lists of
`asock_connections.c`, the kernel's descriptor table and the functions that both
`asock_server.c` and `asock_service.c` have in the same words. Each function is
one step; the locks they take are held inside the step only.

Objects keep their last content after `free`, with `released` set, so that a
dangling pointer in a list can be told from a live one. `returned`, `consumed`
and `stateLog` record what `asock_read` gave, what `read()` took out of a socket
and every write to `m_state` after creation.
-/

namespace Libasock.WorkerWorld
open ByteBlocks NumberReuse ReturnCodes ConnectionObjects

abbrev ConRef := Nat

structure Object where
  con : Asock
  released : Bool
  returned : List Byte

/-- The receiving side of a kernel socket: what `read()` has not and has returned. -/
structure Socket where
  buffered : List Byte
  consumed : List Byte
  deriving DecidableEq

structure StateWrite where
  con : ConRef
  old : AsockConState
  new : AsockConState
  deriving DecidableEq

/-- The bits of `events` the code tests. -/
structure EventMask where
  epollin : Bool
  epollout : Bool
  epollpri : Bool
  epollerr : Bool
  epollhup : Bool
  deriving DecidableEq

section Lists

/-- A vector of connections. A failed `realloc` leaves `NULL` in `m_data`: the
items are `lost` and the next access to one ends the process. -/
structure Connections where
  items : List ConRef
  mCapacity : Nat
  lost : Bool

def conInitCapacity : Nat := 10

def Connections.create : Connections := ⟨[], conInitCapacity, false⟩

def Connections.push (list : Connections) (con : ConRef) (granted : Bool) :
    AsockReturnCode × Connections :=
  if list.items.length = list.mCapacity then
    if granted then
      (asockSuccess, { list with items := list.items ++ [con], mCapacity := list.mCapacity * 2 })
    else (asockFailure, { list with lost := true })
  else (asockSuccess, { list with items := list.items ++ [con] })

def Connections.erase (list : Connections) (index : Nat) : Connections :=
  { list with items := list.items.eraseIdx index }

def Connections.clear (list : Connections) : Connections := { list with items := [] }

theorem push_cases (list : Connections) (con : ConRef) (granted : Bool) :
    ((list.push con granted).1 = asockSuccess ∧
      (list.push con granted).2.items = list.items ++ [con] ∧
      (list.push con granted).2.lost = list.lost) ∨
    ((list.push con granted).1 = asockFailure ∧ (list.push con granted).2.items = list.items ∧
      (list.push con granted).2.lost = true ∧ granted = false) := by
  unfold Connections.push
  split
  · cases granted
    · exact .inr ⟨rfl, rfl, rfl, rfl⟩
    · exact .inl ⟨rfl, rfl, rfl⟩
  · exact .inl ⟨rfl, rfl, rfl⟩

/-- A push asks for memory only when the list is full. -/
def PushRefused (list : Connections) (granted : Bool) : Prop :=
  list.items.length = list.mCapacity ∧ granted = false

theorem push_refused {list : Connections} {granted : Bool} (con : ConRef)
    (refused : PushRefused list granted) : (list.push con granted).1 = asockFailure := by
  simp [Connections.push, refused.1, refused.2]

theorem push_granted {list : Connections} {granted : Bool} (con : ConRef)
    (room : ¬ PushRefused list granted) :
    ¬ (list.push con granted).1 = asockFailure ∧ (list.push con granted).2.lost = list.lost := by
  have failed : ¬ asockSuccess = asockFailure := by decide
  rcases push_cases list con granted with ⟨code, _, same⟩ | ⟨_, _, _, refused⟩
  · rw [code]
    exact ⟨failed, same⟩
  · by_cases full : list.items.length = list.mCapacity
    · exact absurd ⟨full, refused⟩ room
    · rw [Connections.push, if_neg full]
      exact ⟨failed, rfl⟩

/-- A list that is usable after a push has the connection. -/
theorem push_usable {list : Connections} {granted : Bool} (con : ConRef) :
    (list.push con granted).2.lost = false ↔ list.lost = false ∧ ¬ PushRefused list granted := by
  by_cases refused : PushRefused list granted
  · obtain ⟨full, rfl⟩ := refused
    simp [Connections.push, full, PushRefused]
  · simp [(push_granted con refused).2, refused]

theorem pushed_member {list : Connections} {granted : Bool} (con : ConRef)
    (room : ¬ PushRefused list granted) :
    (list.push con granted).2.items = list.items ++ [con] := by
  rcases push_cases list con granted with ⟨_, more, _⟩ | ⟨code, _⟩
  · exact more
  · exact absurd code (push_granted con room).1

theorem pushed_items (list : Connections) (con : ConRef) (granted : Bool) :
    (list.push con granted).2.items = list.items ++ [con] ∨
      (list.push con granted).2.items = list.items := by
  rcases push_cases list con granted with ⟨_, more, _⟩ | ⟨_, same, _⟩
  · exact .inl more
  · exact .inr same

end Lists

structure World where
  objects : ConRef → Option Object
  created : Nat
  table : Table
  sockets : Nat → Socket
  mConnections : Connections
  mNewConnections : Connections
  /-- The connections the user may still pass to a call. -/
  held : List ConRef
  asockConsNumber : Nat
  stateLog : List StateWrite

def World.setConnections (world : World) (list : Connections) : World :=
  { world with mConnections := list }

def World.setNew (world : World) (list : Connections) : World :=
  { world with mNewConnections := list }

def World.setHeld (world : World) (held : List ConRef) : World := { world with held := held }

def World.put (world : World) (con : ConRef) (object : Object) : World :=
  { world with objects := Function.update world.objects con (some object) }

def World.setSocket (world : World) (acquisition : Nat) (socket : Socket) : World :=
  { world with sockets := Function.update world.sockets acquisition socket }

/-- Every write to `m_state`. -/
def World.setState (world : World) (con : ConRef) (state : AsockConState) : World :=
  match world.objects con with
  | none => world
  | some object =>
      { world.put con { object with con := { object.con with mState := state } } with
        stateLog := world.stateLog ++ [⟨con, object.con.mState, state⟩] }

/-- `close()` on a descriptor field, which does nothing for `-1`. -/
def World.close (world : World) (fd : Option Descriptor) : World :=
  match fd with
  | none => world
  | some fd => { world with table := world.table.close fd }

section References

def Object.dropped (object : Object) : Object :=
  { object with con := { object.con with
      mDisconnect := true, mRefCounter := object.con.mRefCounter - 1 } }

/-- `asock_destroy_asock`: the last reference closes the descriptor and frees the object. -/
def World.destroyAsock (world : World) (con : ConRef) : World :=
  match world.objects con with
  | none => world
  | some object =>
      if object.dropped.con.mRefCounter = 0 then
        (world.put con { object.dropped with released := true }).close object.con.mSockDesc
      else world.put con object.dropped

/-- `asock_con_counter_incr` -/
def World.counterIncr (world : World) (con : ConRef) : World :=
  match world.objects con with
  | none => world
  | some object => world.put con { object with con := { object.con with
      mRefCounter := object.con.mRefCounter + 1 } }

end References

section Lookup

def World.hasSockDesc (world : World) (sockd : Nat) (con : ConRef) : Bool :=
  (world.objects con).any fun object => object.con.mSockDesc.any fun fd => fd.number == sockd

/-- `asock_server_index_of_con_by_sock_desc` and its twin of the service: the first match. -/
def World.indexOfConBySockDesc (world : World) (sockd : Nat) : Option Nat :=
  world.mConnections.items.findIdx? (world.hasSockDesc sockd)

def World.conBySockDesc (world : World) (sockd : Nat) : Option ConRef :=
  (world.indexOfConBySockDesc sockd).bind fun index => world.mConnections.items[index]?

end Lookup

section Closing

/-- The first connection with the number leaves `m_new_connections`. -/
def World.forgetNew (world : World) (sockd : Nat) : World :=
  match world.mNewConnections.items.findIdx? (world.hasSockDesc sockd) with
  | none => world
  | some index => world.setNew (world.mNewConnections.erase index)

/-- What happens to a connection found at an index of `m_connections`. -/
def World.closeAt (world : World) (con : ConRef) (index : Nat) : World :=
  let failed := world.setState con .failed
  let closed := failed.close ((world.objects con).bind fun object => object.con.mSockDesc)
  let dropped := closed.destroyAsock con
  dropped.setConnections (dropped.mConnections.erase index)

/-- `asock_server_close_connection` and `asock_service_close_connection` -/
def World.closeConnection (world : World) (sockd : Nat) : AsockReturnCode × World :=
  let world := world.forgetNew sockd
  match world.indexOfConBySockDesc sockd with
  | none => (asockErrInval, world)
  | some index =>
      match world.mConnections.items[index]? with
      | none => (asockErrInval, world)
      | some con => (asockSuccess, world.closeAt con index)

/-- What a close does to the connection it found before it drops the list's reference. No lock is
held there, so a user's call may come in between. -/
def World.shutAt (world : World) (con : ConRef) : World :=
  (world.setState con .failed).close ((world.objects con).bind fun object => object.con.mSockDesc)

/-- `asock_destroy_asock` and the erasure after it, which no user's call can tell apart: the list
is the worker's own. -/
def World.dropAt (world : World) (con : ConRef) (index : Nat) : World :=
  let dropped := world.destroyAsock con
  dropped.setConnections (dropped.mConnections.erase index)

/-- A close up to `close()`, and the connection and the index it found. -/
def World.shut (world : World) (sockd : Nat) : Option (ConRef × Nat) × World :=
  let world := world.forgetNew sockd
  match world.indexOfConBySockDesc sockd with
  | none => (none, world)
  | some index =>
      match world.mConnections.items[index]? with
      | none => (none, world)
      | some con => (some (con, index), world.shutAt con)

/-- The rest of that close. -/
def World.finish (world : World) : Option (ConRef × Nat) → World
  | none => world
  | some (con, index) => world.dropAt con index

/-- The world without the entry that a close has still to erase. -/
def World.unlisted (world : World) : Option (ConRef × Nat) → World
  | none => world
  | some (_, index) => world.setConnections (world.mConnections.erase index)

/-- The loops of the stop paths: one reference of each entry, from the last to the first. -/
def World.destroyAll (world : World) (cons : List ConRef) : World :=
  cons.reverse.foldl World.destroyAsock world

end Closing

section Receiving

/-- One turn of a read loop in which `read()` returns `count` bytes. A chunk whose
number no registered connection has is thrown away. -/
def World.readData (world : World) (number count : Nat) (answer : Allocation) : Option World :=
  match world.table.opened number with
  | none => none
  | some acquisition =>
      let socket := world.sockets acquisition
      if 1 ≤ count ∧ count ≤ min bufSize socket.buffered.length then
        let buf := socket.buffered.take count
        let taken := world.setSocket acquisition
          ⟨socket.buffered.drop count, socket.consumed ++ buf⟩
        match taken.conBySockDesc number with
        | none => some taken
        | some con =>
            match taken.objects con with
            | none => none
            | some object =>
                match object.con.receive buf answer with
                | .error _ => none
                | .ok received => some (taken.put con { object with con := received })
      else none

/-- Bytes of the peer reach an open socket. -/
def World.arrive (world : World) (number : Nat) (bytes : List Byte) : Option World :=
  (world.table.opened number).map fun acquisition =>
    world.setSocket acquisition { world.sockets acquisition with
      buffered := (world.sockets acquisition).buffered ++ bytes }

def World.isOpen (world : World) (number : Nat) : Bool := (world.table.opened number).isSome

/-- `read()` reports the end only when the socket is open and has nothing buffered. -/
def World.atEnd (world : World) (number : Nat) : Bool :=
  (world.table.opened number).any fun acquisition => (world.sockets acquisition).buffered.isEmpty

/-- `asock_read` on a connection the user holds. -/
def World.userRead (world : World) (con : ConRef) (dst : List Byte) : Option World :=
  if con ∈ world.held then
    match world.objects con with
    | none => none
    | some object =>
        match object.con.read dst with
        | .error _ => none
        | .ok (count, block, after) => some (world.put con
            { object with con := after, returned := object.returned ++ block.take count })
  else none

/-- `asock_destroy`: the user gives the connection up. -/
def World.userDestroy (world : World) (con : ConRef) : Option World :=
  if con ∈ world.held then
    some ((world.setHeld (world.held.erase con)).destroyAsock con)
  else none

end Receiving

/-- `socket()` or `accept()` returned a descriptor: a number that was not open, an empty socket. -/
def World.acquire (world : World) (number : Nat) : Option (Descriptor × World) :=
  (world.table.acquire number).map fun result => (result.1,
    { world with table := result.2 }.setSocket result.1.acquisition ⟨[], []⟩)

/-- `asock_fcreate_asock` and the writes to fields that follow it: the object gets the next place. -/
def World.add (world : World) (con : Asock) : World :=
  { world.put world.created ⟨con, false, []⟩ with
    created := world.created + 1
    asockConsNumber := world.asockConsNumber + 1 }

section Fields

variable (world : World) (list : Connections) (held : List ConRef)

@[simp] theorem setConnections_objects :
    (world.setConnections list).objects = world.objects := rfl
@[simp] theorem setConnections_items : (world.setConnections list).mConnections = list := rfl
@[simp] theorem setConnections_new :
    (world.setConnections list).mNewConnections = world.mNewConnections := rfl
@[simp] theorem setConnections_held : (world.setConnections list).held = world.held := rfl
@[simp] theorem setConnections_created :
    (world.setConnections list).created = world.created := rfl

@[simp] theorem setNew_objects : (world.setNew list).objects = world.objects := rfl
@[simp] theorem setNew_connections :
    (world.setNew list).mConnections = world.mConnections := rfl
@[simp] theorem setNew_items : (world.setNew list).mNewConnections = list := rfl
@[simp] theorem setNew_held : (world.setNew list).held = world.held := rfl
@[simp] theorem setNew_created : (world.setNew list).created = world.created := rfl

@[simp] theorem setHeld_objects : (world.setHeld held).objects = world.objects := rfl
@[simp] theorem setHeld_connections :
    (world.setHeld held).mConnections = world.mConnections := rfl
@[simp] theorem setHeld_new :
    (world.setHeld held).mNewConnections = world.mNewConnections := rfl
@[simp] theorem setHeld_items : (world.setHeld held).held = held := rfl
@[simp] theorem setHeld_created : (world.setHeld held).created = world.created := rfl

end Fields

section Cases

variable (world : World)

@[simp] theorem forgetNew_objects (sockd : Nat) :
    (world.forgetNew sockd).objects = world.objects := by
  unfold World.forgetNew
  split <;> rfl

@[simp] theorem forgetNew_connections (sockd : Nat) :
    (world.forgetNew sockd).mConnections = world.mConnections := by
  unfold World.forgetNew
  split <;> rfl

@[simp] theorem forgetNew_hasSockDesc (sockd : Nat) :
    (world.forgetNew sockd).hasSockDesc = world.hasSockDesc := by
  funext other con
  simp only [World.hasSockDesc, forgetNew_objects]

theorem unborn_absent {world : World}
    (placed : ∀ con, (world.objects con).isSome ↔ con < world.created) :
    world.objects world.created = none := by
  have known := (placed world.created).not.mpr (Nat.lt_irrefl _)
  simpa using known

theorem lookup_cases (sockd : Nat) :
    (world.indexOfConBySockDesc sockd = none ∧ world.conBySockDesc sockd = none) ∨
    ∃ con index, world.indexOfConBySockDesc sockd = some index ∧
      world.conBySockDesc sockd = some con ∧ world.mConnections.items[index]? = some con ∧
      world.hasSockDesc sockd con = true := by
  unfold World.conBySockDesc
  cases found : world.indexOfConBySockDesc sockd with
  | none => exact .inl ⟨rfl, rfl⟩
  | some index =>
      obtain ⟨inside, hit, _⟩ := List.findIdx?_eq_some_iff_getElem.mp found
      have here := List.getElem?_eq_getElem inside
      exact .inr ⟨_, index, rfl, here, here, hit⟩

theorem found_listed {number : Nat} {con : ConRef} {world : World}
    (known : world.conBySockDesc number = some con) : con ∈ world.mConnections.items := by
  rcases lookup_cases world number with ⟨_, unknown⟩ | ⟨_, _, _, known', here, _⟩
  · rw [unknown] at known
    cases known
  · rw [known, Option.some.injEq] at known'
    rw [known']
    exact List.mem_of_getElem? here

/-- Either no registered connection has the number, or the first that has it is closed. -/
theorem close_cases (sockd : Nat) :
    (world.conBySockDesc sockd = none ∧
      (world.closeConnection sockd).2 = world.forgetNew sockd) ∨
    ∃ con index, world.conBySockDesc sockd = some con ∧
      world.mConnections.items[index]? = some con ∧ world.hasSockDesc sockd con = true ∧
      (world.closeConnection sockd).2 = (world.forgetNew sockd).closeAt con index := by
  have sameIndex : (world.forgetNew sockd).indexOfConBySockDesc sockd =
      world.indexOfConBySockDesc sockd := by
    simp only [World.indexOfConBySockDesc, forgetNew_hasSockDesc, forgetNew_connections]
  rcases lookup_cases world sockd with ⟨absent, unknown⟩ | ⟨con, index, found, known, here, has⟩
  · refine .inl ⟨unknown, ?_⟩
    simp only [World.closeConnection, sameIndex, absent]
  · refine .inr ⟨con, index, known, here, has, ?_⟩
    simp only [World.closeConnection, sameIndex, found, forgetNew_connections, here]

/-- The two halves of a close, when nothing comes in between. -/
theorem close_halves (sockd : Nat) :
    (world.closeConnection sockd).2 = (world.shut sockd).2.finish (world.shut sockd).1 := by
  unfold World.closeConnection World.shut
  cases found : (world.forgetNew sockd).indexOfConBySockDesc sockd with
  | none => simp only [found, World.finish]
  | some index =>
      cases here : (world.forgetNew sockd).mConnections.items[index]? with
      | none => simp only [found, here, World.finish]
      | some con =>
          simp only [found, here, World.finish]
          rfl

/-- Either the first half finds no registered connection, or the first that has the number. -/
theorem shut_cases (sockd : Nat) :
    (world.conBySockDesc sockd = none ∧ world.shut sockd = (none, world.forgetNew sockd)) ∨
    ∃ con index, world.conBySockDesc sockd = some con ∧
      world.mConnections.items[index]? = some con ∧ world.hasSockDesc sockd con = true ∧
      world.shut sockd = (some (con, index), (world.forgetNew sockd).shutAt con) := by
  have sameIndex : (world.forgetNew sockd).indexOfConBySockDesc sockd =
      world.indexOfConBySockDesc sockd := by
    simp only [World.indexOfConBySockDesc, forgetNew_hasSockDesc, forgetNew_connections]
  rcases lookup_cases world sockd with ⟨absent, unknown⟩ | ⟨con, index, found, known, here, has⟩
  · refine .inl ⟨unknown, ?_⟩
    simp only [World.shut, sameIndex, absent]
  · refine .inr ⟨con, index, known, here, has, ?_⟩
    simp only [World.shut, sameIndex, found, forgetNew_connections, here]

/-- A read takes bytes from the socket open under the number; they go to the first
registered connection that has the number, or nowhere. -/
theorem readData_cases {number count : Nat} {answer : Allocation} {after : World}
    (reads : world.readData number count answer = some after) :
    ∃ acquisition, world.table.opened number = some acquisition ∧
      count ≤ (world.sockets acquisition).buffered.length ∧
      let buf := (world.sockets acquisition).buffered.take count
      let taken := world.setSocket acquisition
        ⟨(world.sockets acquisition).buffered.drop count,
          (world.sockets acquisition).consumed ++ buf⟩
      (world.conBySockDesc number = none ∧ after = taken) ∨
      ∃ con object queue, world.conBySockDesc number = some con ∧
        world.objects con = some object ∧
        object.con.receive buf answer = .ok { object.con with mInQueue := queue } ∧
        after = taken.put con { object with con := { object.con with mInQueue := queue } } := by
  unfold World.readData at reads
  cases isOpen : world.table.opened number with
  | none => simp [isOpen] at reads
  | some acquisition =>
      simp only [isOpen] at reads
      split at reads
      case isFalse => cases reads
      case isTrue bounded =>
        refine ⟨acquisition, rfl, by omega, ?_⟩
        split at reads
        case h_1 absent =>
          cases reads
          exact .inl ⟨absent, rfl⟩
        case h_2 con found =>
          split at reads
          case h_1 => cases reads
          case h_2 object here =>
            split at reads
            case h_1 => cases reads
            case h_2 received receives =>
              cases reads
              obtain ⟨queue, rfl⟩ := receive_shape receives
              exact .inr ⟨con, object, queue, found, here, receives, rfl⟩

theorem userDestroy_cases {con : ConRef} {after : World}
    (destroys : world.userDestroy con = some after) :
    con ∈ world.held ∧ after = (world.setHeld (world.held.erase con)).destroyAsock con := by
  unfold World.userDestroy at destroys
  split at destroys
  case isFalse => cases destroys
  case isTrue holds => exact ⟨holds, (Option.some.inj destroys).symm⟩

theorem userRead_cases {con : ConRef} {dst : List Byte} {after : World}
    (reads : world.userRead con dst = some after) :
    ∃ object count block queue, con ∈ world.held ∧ world.objects con = some object ∧
      object.con.read dst = .ok (count, block, { object.con with mInQueue := queue }) ∧
      after = world.put con { object with
        con := { object.con with mInQueue := queue }
        returned := object.returned ++ block.take count } := by
  unfold World.userRead at reads
  split at reads
  case isFalse => cases reads
  case isTrue held =>
    split at reads
    case h_1 => cases reads
    case h_2 object found =>
      split at reads
      case h_1 => cases reads
      case h_2 count block received receives =>
        cases reads
        obtain ⟨queue, rfl⟩ := read_shape receives
        exact ⟨object, count, block, queue, held, found, receives, rfl⟩

theorem has_object {sockd : Nat} {con : ConRef} (has : world.hasSockDesc sockd con = true) :
    ∃ object fd, world.objects con = some object ∧ object.con.mSockDesc = some fd ∧
      fd.number = sockd := by
  unfold World.hasSockDesc at has
  cases found : world.objects con with
  | none => simp [found] at has
  | some object =>
      cases remembers : object.con.mSockDesc with
      | none => simp [found, remembers] at has
      | some fd => exact ⟨object, fd, rfl, remembers, by simpa [found, remembers] using has⟩

theorem object_has {sockd : Nat} {con : ConRef} {object : Object} {fd : Descriptor}
    (found : world.objects con = some object) (remembers : object.con.mSockDesc = some fd)
    (same : fd.number = sockd) : world.hasSockDesc sockd con = true := by
  simp [World.hasSockDesc, found, remembers, same]

end Cases

end Libasock.WorkerWorld
