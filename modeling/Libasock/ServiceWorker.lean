import Libasock.GuardedRuns
import Libasock.ReferenceCounts

/-!
A service: the worker of `asock_service.c` from its configuration on, the users
of its connections, the peers and the kernel. `step` is one move of one of them,
cut as for the server: `asock_connect` between the increment and the push, the
takeover of new connections after each of them, an event after its `EPOLLOUT`
part. While the worker takes connections over it holds the mutex of
`m_new_connections`, so that no push comes in between. What is written and sent
is left out, only that a `send()` may fail.
-/

namespace Libasock.ServiceWorker
open ByteBlocks GuardedRuns NumberReuse ReturnCodes TsqueueModel ConnectionObjects WorkerWorld
  ReferenceCounts

/-- Where the worker stands; a turn of the event loop keeps `event_fd` and `event`. -/
inductive Pc where
  | configuring
  | ready
  | takingOver (index : Nat)
  | writable (number : Nat) (mask : EventMask)
  | handling (number : Nat) (mask : EventMask)
  | reading (number : Nat)
  | stopped
  deriving DecidableEq

structure Service where
  world : World
  pc : Pc
  mServiceId : Int
  /-- Calls of `asock_connect` that have counted their reference and not pushed yet. -/
  connecting : List ConRef
  /-- Connections closed for an end of file, `EPOLLHUP` or `EPOLLERR`. -/
  closedByPeer : List ConRef

inductive Attempt where
  | nonBlockingFailed
  | connectFailed
  | started (established watched : Bool)
  deriving DecidableEq

inductive ConnectOutcome where
  | socketFailed
  | opened (number : Nat) (attempt : Attempt)
  deriving DecidableEq

inductive SockError where
  | unreadable | noError | error
  deriving DecidableEq

inductive Label where
  | start
  | createAsock (number : Nat) (answers : ObjectAnswers)
  | beginPass
  | takeOver (outcome : ConnectOutcome) (granted : Bool)
  | endPass
  | event (number : Nat) (mask : EventMask)
  | sockError (answer : SockError)
  | handle
  | readData (count : Nat) (answer : Allocation)
  | readAgain
  | readFailed
  | readEnd
  | sendFailed (con : ConRef)
  | disconnect (con : ConRef)
  | stop
  | userConnect (con : ConRef) (addr : List Byte)
  | userConnectPush (con : ConRef) (granted : Bool)
  | userRead (con : ConRef) (dst : List Byte)
  | userDestroy (con : ConRef)
  | arrive (number : Nat) (bytes : List Byte)

section Connecting

def setSockDesc (world : World) (con : ConRef) (fd : Option Descriptor) : World :=
  match world.objects con with
  | none => world
  | some object => world.put con { object with con := { object.con with mSockDesc := fd } }

def giveUp (world : World) (con : ConRef) (fd : Descriptor) : World :=
  setSockDesc ((world.close (some fd)).setState con .failed) con none

def tryConnectToPeer (world : World) (con : ConRef) (outcome : ConnectOutcome) : Option World :=
  let world := world.setState con .inProgress
  match outcome with
  | .socketFailed => some (setSockDesc (world.setState con .failed) con none)
  | .opened number attempt => do
      let (fd, world) ← world.acquire number
      let world := setSockDesc world con (some fd)
      match attempt with
      | .nonBlockingFailed | .connectFailed => some (giveUp world con fd)
      | .started established watched =>
          let world := if established then world.setState con .established else world
          if watched then some world else some (giveUp world con fd)

/-- `asock_create_asock`, done by the worker for a user, after `socket()` succeeded. -/
def createAsockStep (service : Service) (number : Nat) (answers : ObjectAnswers) :
    Option Service := do
  let (fd, world) ← service.world.acquire number
  match fcreateAsock answers fd world.asockConsNumber with
  | .error _ => none
  | .ok none => some { service with world := world.close (some fd) }
  | .ok (some con) =>
      some { service with world := (world.add con).setHeld (world.created :: world.held) }

/-- One turn of the first loop of `asock_service_update_state`, which ignores what the push returns. -/
def takeOverStep (service : Service) (index : Nat) (outcome : ConnectOutcome) (granted : Bool) :
    Option Service := do
  let con ← service.world.mNewConnections.items[index]?
  let world ← tryConnectToPeer service.world con outcome
  let object ← world.objects con
  if object.con.mState = .failed then
    some { service with world := world.destroyAsock con, pc := .takingOver (index + 1) }
  else
    some { service with
      world := world.setConnections (world.mConnections.push con granted).2
      pc := .takingOver (index + 1) }

def addressed (object : Object) (addr : List Byte) (serviceId : Int) : Object :=
  { object with con := { object.con with
      mPeerAddr := some addr, mPeerAddrlen := addr.length, mMasterId := serviceId } }

/-- `asock_service_connect` up to the increment, with an address and memory for its copy. -/
def connectBegin (service : Service) (con : ConRef) (addr : List Byte) : Option Service := do
  let object ← service.world.objects con
  let world := service.world.put con (addressed object addr service.mServiceId)
  some { service with
    world := (world.setState con .inProgress).counterIncr con
    connecting := con :: service.connecting }

/-- Its push, whose result it ignores. -/
def connectPush (service : Service) (con : ConRef) (granted : Bool) : Service :=
  { service with
    world := service.world.setNew (service.world.mNewConnections.push con granted).2
    connecting := service.connecting.erase con }

end Connecting

section Events

def closeNumber (service : Service) (number : Nat) (peer : Bool) (pc : Pc) : Service :=
  { service with
    world := (service.world.closeConnection number).2
    pc := pc
    closedByPeer :=
      if peer then service.closedByPeer ++ (service.world.conBySockDesc number).toList
      else service.closedByPeer }

def eventStep (service : Service) (number : Nat) (mask : EventMask) : Service :=
  if mask.epollout then { service with pc := .writable number mask }
  else { service with pc := .handling number mask }

/-- The `EPOLLOUT` part of a turn. Without `getsockopt` the turn goes on after the close. -/
def sockErrorStep (service : Service) (number : Nat) (mask : EventMask) (answer : SockError) :
    Service :=
  match service.world.conBySockDesc number with
  | none => { service with pc := .handling number mask }
  | some con =>
      match answer with
      | .unreadable =>
          closeNumber service number (mask.epollerr || mask.epollhup) (.handling number mask)
      | .noError => { service with
          world := service.world.setState con .established
          pc := .handling number mask }
      | .error => closeNumber service number (mask.epollerr || mask.epollhup) .ready

def handleStep (service : Service) (number : Nat) (mask : EventMask) : Service :=
  if mask.epollerr ∨ mask.epollhup then closeNumber service number true .ready
  else if mask.epollin ∨ mask.epollpri then { service with pc := .reading number }
  else { service with pc := .ready }

def closeRegistered (service : Service) (con : ConRef) (cause : Object → Bool) :
    Option Service := do
  let object ← service.world.objects con
  let fd ← object.con.mSockDesc
  if con ∈ service.world.mConnections.items ∧ cause object then
    some (closeNumber service fd.number false .ready)
  else none

/-- The end of `asock_service_thread_loop`, after `DirectStop`. -/
def stopStep (service : Service) : Service :=
  { service with
    world := (service.world.destroyAll service.world.mNewConnections.items).destroyAll
      service.world.mConnections.items
    pc := .stopped }

end Events

/-- A vector without its data ends the process at the next access. -/
def Service.broken (service : Service) : Bool :=
  service.world.mConnections.lost || service.world.mNewConnections.lost

def workerStep (service : Service) (label : Label) : Option Service :=
  match service.pc, label with
  | .configuring, .start => some { service with pc := .ready }
  | .configuring, .createAsock number answers => createAsockStep service number answers
  | .ready, .createAsock number answers => createAsockStep service number answers
  | .ready, .beginPass => some { service with pc := .takingOver 0 }
  | .takingOver index, .takeOver outcome granted => takeOverStep service index outcome granted
  | .takingOver index, .endPass =>
      if index = service.world.mNewConnections.items.length then
        some { service with
          world := service.world.setNew service.world.mNewConnections.clear
          pc := .ready }
      else none
  | .ready, .event number mask => some (eventStep service number mask)
  | .writable number mask, .sockError answer => some (sockErrorStep service number mask answer)
  | .handling number mask, .handle => some (handleStep service number mask)
  | .reading number, .readData count answer =>
      (service.world.readData number count answer).map fun world => { service with world := world }
  | .reading _, .readAgain => some { service with pc := .ready }
  | .reading number, .readFailed => some (closeNumber service number false .ready)
  | .reading number, .readEnd =>
      if service.world.atEnd number then some (closeNumber service number true .ready) else none
  | .ready, .sendFailed con =>
      closeRegistered service con fun object => object.con.mState == .established
  | .ready, .disconnect con => closeRegistered service con fun object => object.con.mDisconnect
  | .ready, .stop => some (stopStep service)
  | _, _ => none

def locked : Pc → Bool
  | .takingOver _ => true
  | _ => false

def userStep (service : Service) (label : Label) : Option Service :=
  match label with
  | .userConnect con addr =>
      if con ∈ service.world.held then connectBegin service con addr else none
  | .userConnectPush con granted =>
      if con ∈ service.connecting ∧ locked service.pc = false ∧
          service.world.mNewConnections.lost = false then some (connectPush service con granted)
      else none
  | .userRead con dst =>
      (service.world.userRead con dst).map fun world => { service with world := world }
  | .userDestroy con =>
      (service.world.userDestroy con).map fun world => { service with world := world }
  | .arrive number bytes =>
      (service.world.arrive number bytes).map fun world => { service with world := world }
  | _ => none

def Label.byUser : Label → Bool
  | .userConnect .. | .userConnectPush .. | .userRead .. | .userDestroy _ | .arrive .. => true
  | _ => false

def step (service : Service) (label : Label) : Option Service :=
  if label.byUser then userStep service label
  else if service.broken then none
  else workerStep service label

def Service.configured (mServiceId : Int) : Service where
  world :=
    { objects := fun _ => none
      created := 0
      table := ⟨fun _ => none, 0, []⟩
      sockets := fun _ => ⟨[], []⟩
      mConnections := .create
      mNewConnections := .create
      held := []
      asockConsNumber := 0
      stateLog := [] }
  pc := .configuring
  mServiceId := mServiceId
  connecting := []
  closedByPeer := []

section Labels

def Label.destroyed : Label → Option ConRef
  | .userDestroy con => some con
  | _ => none

def Label.connected : Label → Option ConRef
  | .userConnect con _ => some con
  | _ => none

/-- The number the worker passes to `asock_service_close_connection`, if it does. -/
def closedNumber (service : Service) : Label → Option Nat
  | .sockError answer =>
      match service.pc with
      | .writable number _ =>
          if answer = .noError ∨ service.world.conBySockDesc number = none then none
          else some number
      | _ => none
  | .handle =>
      match service.pc with
      | .handling number mask => if mask.epollerr ∨ mask.epollhup then some number else none
      | _ => none
  | .readFailed | .readEnd =>
      match service.pc with
      | .reading number => some number
      | _ => none
  | .sendFailed con | .disconnect con =>
      (service.world.objects con).bind fun object =>
        object.con.mSockDesc.map fun fd => fd.number
  | _ => none

def hangsUp (service : Service) : Label → Option Nat
  | .sockError answer =>
      match service.pc with
      | .writable number mask =>
          if answer ≠ .noError ∧ (mask.epollerr ∨ mask.epollhup) then some number else none
      | _ => none
  | .handle =>
      match service.pc with
      | .handling number mask => if mask.epollerr ∨ mask.epollhup then some number else none
      | _ => none
  | _ => none

end Labels

section Connects

variable {world after : World} {con : ConRef} {object : Object}

def attempted (object : Object) (state : AsockConState) (fd : Option Descriptor) : Object :=
  { object with con := { object.con with mState := state, mSockDesc := fd } }

/-- How `tryConnectToPeer` leaves the connection: `Failed` without a descriptor, with the one it
opened closed again, or in progress or established with a descriptor of its own. -/
inductive Tried (world after : World) (con : ConRef) (object : Object) : Prop where
  | refused
      (objects : after.objects = (world.put con (attempted object .failed none)).objects)
      (table : after.table = world.table) (sockets : after.sockets = world.sockets)
  | abandoned {number : Nat} {fd : Descriptor} {acquired : World}
      (acquires : world.acquire number = some (fd, acquired))
      (objects : after.objects = (world.put con (attempted object .failed none)).objects)
      (table : after.table = (acquired.close (some fd)).table)
      (sockets : after.sockets = acquired.sockets)
  | started {number : Nat} {fd : Descriptor} {acquired : World} (state : AsockConState)
      (acquires : world.acquire number = some (fd, acquired))
      (begun : state = .inProgress ∨ state = .established)
      (objects : after.objects = (world.put con (attempted object state (some fd))).objects)
      (table : after.table = acquired.table) (sockets : after.sockets = acquired.sockets)

theorem created_cases {service after : Service} {number : Nat} {answers : ObjectAnswers}
    (creates : createAsockStep service number answers = some after) :
    ∃ fd world, service.world.acquire number = some (fd, world) ∧
      (after = { service with world := world.close (some fd) } ∨
      ∃ made, Fresh made fd ∧ after =
        { service with world := (world.add made).setHeld (world.created :: world.held) }) := by
  unfold createAsockStep at creates
  cases acquires : service.world.acquire number with
  | none => simp [acquires] at creates
  | some result =>
      obtain ⟨fd, world⟩ := result
      refine ⟨fd, world, rfl, ?_⟩
      simp only [acquires, Option.bind_eq_bind, Option.bind_some] at creates
      split at creates
      case h_1 => cases creates
      case h_2 => exact .inl (Option.some.inj creates).symm
      case h_3 made created => exact .inr ⟨made, fcreate_fresh created, (Option.some.inj creates).symm⟩

theorem tries_cases {outcome : ConnectOutcome} (found : world.objects con = some object)
    (tries : tryConnectToPeer world con outcome = some after) :
    Tried world after con object ∧ SameLists world after := by
  cases outcome with
  | socketFailed =>
      simp [tryConnectToPeer, World.setState, setSockDesc, found, World.put] at tries
      subst tries
      exact ⟨.refused rfl rfl rfl, ⟨rfl, rfl, rfl, rfl⟩⟩
  | opened number attempt =>
      cases acquires : world.table.acquire number with
      | none => simp [tryConnectToPeer, World.setState, World.acquire, found, World.put, acquires] at tries
      | some result =>
          obtain ⟨fd, table⟩ := result
          have given : world.acquire number = some (fd, { world with table := table }.setSocket
              fd.acquisition ⟨[], []⟩) := by
            simp [World.acquire, acquires]
          rcases attempt with _ | _ | ⟨established, watched⟩
          · simp [tryConnectToPeer, giveUp, World.setState, setSockDesc, World.acquire, World.close,
              World.setSocket, found, World.put, acquires] at tries
            subst tries
            exact ⟨.abandoned given rfl rfl rfl, ⟨rfl, rfl, rfl, rfl⟩⟩
          · simp [tryConnectToPeer, giveUp, World.setState, setSockDesc, World.acquire, World.close,
              World.setSocket, found, World.put, acquires] at tries
            subst tries
            exact ⟨.abandoned given rfl rfl rfl, ⟨rfl, rfl, rfl, rfl⟩⟩
          · cases established <;> cases watched <;>
              simp [tryConnectToPeer, giveUp, World.setState, setSockDesc, World.acquire, World.close,
                World.setSocket, found, World.put, acquires] at tries <;> subst tries
            · exact ⟨.abandoned given rfl rfl rfl, ⟨rfl, rfl, rfl, rfl⟩⟩
            · exact ⟨.started .inProgress given (.inl rfl) rfl rfl rfl, ⟨rfl, rfl, rfl, rfl⟩⟩
            · exact ⟨.abandoned given rfl rfl rfl, ⟨rfl, rfl, rfl, rfl⟩⟩
            · exact ⟨.started .established given (.inr rfl) rfl rfl rfl, ⟨rfl, rfl, rfl, rfl⟩⟩

end Connects

section Moves

/-- The program points at which the worker works on no list and holds no mutex. -/
def still : Pc → Bool
  | .configuring | .ready | .writable .. | .handling .. | .reading _ => true
  | _ => false

def mayClose : Pc → Bool
  | .ready | .writable .. | .handling .. | .reading _ => true
  | _ => false

theorem mayClose_still {pc : Pc} (closing : mayClose pc = true) : still pc = true := by
  cases pc <;> simp_all [mayClose, still]

/-- Why the worker takes a close to come from the peer. -/
def PeerCause (service : Service) (label : Label) (number : Nat) : Prop :=
  hangsUp service label = some number ∨ (label = .readEnd ∧ service.world.atEnd number = true)

inductive Moved (service : Service) : Label → Service → Prop where
  | closed {label : Label} (number : Nat) (peer : Bool) (pc : Pc)
      (closing : mayClose service.pc = true) (isStill : still pc = true)
      (asked : closedNumber service label = some number)
      (cause : peer = true → PeerCause service label number) :
      Moved service label (closeNumber service number peer pc)
  | turned {label : Label} (pc : Pc) (before : still service.pc = true) (isStill : still pc = true)
      (harmless : closedNumber service label = none) :
      Moved service label { service with pc := pc }
  | created {number : Nat} {answers : ObjectAnswers} {after : Service}
      (isStill : still service.pc = true)
      (creates : createAsockStep service number answers = some after) :
      Moved service (.createAsock number answers) after
  | began (pc : service.pc = .ready) : Moved service .beginPass { service with pc := .takingOver 0 }
  | gaveUp {outcome : ConnectOutcome} {granted : Bool} (index : Nat) (con : ConRef)
      (middle : World) (object : Object) (pc : service.pc = .takingOver index)
      (here : service.world.mNewConnections.items[index]? = some con)
      (tries : tryConnectToPeer service.world con outcome = some middle)
      (found : middle.objects con = some object) (failed : object.con.mState = .failed) :
      Moved service (.takeOver outcome granted)
        { service with world := middle.destroyAsock con, pc := .takingOver (index + 1) }
  | tookOver {outcome : ConnectOutcome} {granted : Bool} (index : Nat) (con : ConRef)
      (middle : World) (object : Object) (pc : service.pc = .takingOver index)
      (here : service.world.mNewConnections.items[index]? = some con)
      (tries : tryConnectToPeer service.world con outcome = some middle)
      (found : middle.objects con = some object) (unfailed : object.con.mState ≠ .failed) :
      Moved service (.takeOver outcome granted)
        { service with
          world := middle.setConnections (middle.mConnections.push con granted).2
          pc := .takingOver (index + 1) }
  | cleared (index : Nat) (pc : service.pc = .takingOver index)
      (finished : index = service.world.mNewConnections.items.length) :
      Moved service .endPass
        { service with
          world := service.world.setNew service.world.mNewConnections.clear
          pc := .ready }
  | established (con : ConRef) (number : Nat) (mask : EventMask)
      (pc : service.pc = .writable number mask)
      (known : service.world.conBySockDesc number = some con) :
      Moved service (.sockError .noError)
        { service with
          world := service.world.setState con .established
          pc := .handling number mask }
  | read {count : Nat} {answer : Allocation} (number : Nat) (world : World)
      (pc : service.pc = .reading number)
      (reads : service.world.readData number count answer = some world) :
      Moved service (.readData count answer) { service with world := world }
  | stopped (pc : service.pc = .ready) : Moved service .stop (stopStep service)
  | connectBegun {con : ConRef} {addr : List Byte} {after : Service}
      (holds : con ∈ service.world.held) (begins : connectBegin service con addr = some after) :
      Moved service (.userConnect con addr) after
  | connectPushed {con : ConRef} {granted : Bool} (begun : con ∈ service.connecting)
      (unlocked : locked service.pc = false) :
      Moved service (.userConnectPush con granted) (connectPush service con granted)
  | userRead {con : ConRef} {dst : List Byte} (world : World)
      (reads : service.world.userRead con dst = some world) :
      Moved service (.userRead con dst) { service with world := world }
  | userDestroyed {con : ConRef} (world : World)
      (destroys : service.world.userDestroy con = some world) :
      Moved service (.userDestroy con) { service with world := world }
  | arrived {number : Nat} {bytes : List Byte} (world : World)
      (arrives : service.world.arrive number bytes = some world) :
      Moved service (.arrive number bytes) { service with world := world }

variable {service after : Service} {label : Label}

theorem takeOver_moved {index : Nat} {outcome : ConnectOutcome} {granted : Bool}
    (pc : service.pc = .takingOver index)
    (takes : takeOverStep service index outcome granted = some after) :
    Moved service (.takeOver outcome granted) after := by
  simp only [takeOverStep, Option.bind_eq_bind, Option.bind_eq_some_iff] at takes
  obtain ⟨con, here, middle, tries, object, found, result⟩ := takes
  split at result
  case isTrue failed =>
    cases result
    exact .gaveUp index con middle object pc here tries found failed
  case isFalse unfailed =>
    cases result
    exact .tookOver index con middle object pc here tries found unfailed

theorem sockError_moved {number : Nat} {mask : EventMask} {answer : SockError}
    (pc : service.pc = .writable number mask) :
    Moved service (.sockError answer) (sockErrorStep service number mask answer) := by
  have closing : mayClose service.pc = true := by rw [pc]; rfl
  unfold sockErrorStep
  split
  case h_1 absent =>
    exact .turned _ (mayClose_still closing) rfl (by simp [closedNumber, pc, absent])
  case h_2 con known =>
    have cause : answer ≠ .noError → (mask.epollerr || mask.epollhup) = true →
        PeerCause service (.sockError answer) number := by
      intro bad hung
      refine .inl ?_
      simp only [hangsUp, pc]
      exact if_pos ⟨bad, by simpa using hung⟩
    cases answer with
    | unreadable =>
        exact .closed number _ _ closing rfl (by simp [closedNumber, pc, known])
          (cause (by decide))
    | noError => exact .established con number mask pc known
    | error =>
        exact .closed number _ _ closing rfl (by simp [closedNumber, pc, known])
          (cause (by decide))

theorem handle_moved {number : Nat} {mask : EventMask} (pc : service.pc = .handling number mask) :
    Moved service .handle (handleStep service number mask) := by
  have closing : mayClose service.pc = true := by rw [pc]; rfl
  unfold handleStep
  split
  · rename_i hung
    refine .closed number true .ready closing rfl ?_ fun _ => .inl ?_
    · simp only [closedNumber, pc]
      exact if_pos hung
    · simp only [hangsUp, pc]
      exact if_pos hung
  · rename_i stays
    have harmless : closedNumber service .handle = none := by
      simp only [closedNumber, pc]
      exact if_neg stays
    split
    · exact .turned _ (mayClose_still closing) rfl harmless
    · exact .turned _ (mayClose_still closing) rfl harmless

theorem closeRegistered_moved {con : ConRef} {cause : Object → Bool} (pc : service.pc = .ready)
    (asked : closedNumber service label = (service.world.objects con).bind fun object =>
      object.con.mSockDesc.map fun fd => fd.number)
    (closes : closeRegistered service con cause = some after) : Moved service label after := by
  simp only [closeRegistered, Option.bind_eq_bind, Option.bind_eq_some_iff] at closes
  obtain ⟨object, found, fd, remembers, result⟩ := closes
  split at result
  · cases result
    refine .closed fd.number false .ready (by rw [pc]; rfl) rfl ?_
      (fun impossible => by cases impossible)
    rw [asked, found]
    simp [remembers]
  · cases result

theorem worker_moved (worked : workerStep service label = some after) :
    Moved service label after := by
  unfold workerStep at worked
  split at worked
  case h_1 pc =>
    cases worked
    exact .turned .ready (by rw [pc]; rfl) rfl rfl
  case h_2 pc => exact .created (by rw [pc]; rfl) worked
  case h_3 pc => exact .created (by rw [pc]; rfl) worked
  case h_4 pc =>
    cases worked
    exact .began pc
  case h_5 index outcome granted pc => exact takeOver_moved pc worked
  case h_6 index pc =>
    split at worked
    · rename_i finished
      cases worked
      exact .cleared index pc finished
    · cases worked
  case h_7 number mask pc =>
    cases worked
    unfold eventStep
    split
    · exact .turned _ (by rw [pc]; rfl) rfl rfl
    · exact .turned _ (by rw [pc]; rfl) rfl rfl
  case h_8 number mask answer pc =>
    cases worked
    exact sockError_moved pc
  case h_9 number mask pc =>
    cases worked
    exact handle_moved pc
  case h_10 number count answer pc =>
    obtain ⟨world, reads, rfl⟩ := Option.map_eq_some_iff.mp worked
    exact .read number world pc reads
  case h_11 number pc =>
    cases worked
    exact .turned .ready (by rw [pc]; rfl) rfl rfl
  case h_12 number pc =>
    cases worked
    exact .closed number false .ready (by rw [pc]; rfl) rfl (by simp [closedNumber, pc])
      (fun impossible => by cases impossible)
  case h_13 number pc =>
    split at worked
    · rename_i ended
      cases worked
      exact .closed number true .ready (by rw [pc]; rfl) rfl (by simp [closedNumber, pc])
        (fun _ => .inr ⟨rfl, ended⟩)
    · cases worked
  case h_14 con pc => exact closeRegistered_moved pc rfl worked
  case h_15 con pc => exact closeRegistered_moved pc rfl worked
  case h_16 pc =>
    cases worked
    exact .stopped pc
  case h_17 => cases worked

theorem user_moved (used : userStep service label = some after) : Moved service label after := by
  unfold userStep at used
  split at used
  case h_1 con addr =>
    split at used
    · rename_i holds
      exact .connectBegun holds used
    · cases used
  case h_2 con granted =>
    split at used
    · rename_i met
      cases used
      exact .connectPushed met.1 met.2.1
    · cases used
  case h_3 con dst =>
    obtain ⟨world, reads, rfl⟩ := Option.map_eq_some_iff.mp used
    exact .userRead world reads
  case h_4 con =>
    obtain ⟨world, destroys, rfl⟩ := Option.map_eq_some_iff.mp used
    exact .userDestroyed world destroys
  case h_5 number bytes =>
    obtain ⟨world, arrives, rfl⟩ := Option.map_eq_some_iff.mp used
    exact .arrived world arrives
  case h_6 => cases used

theorem user_pc (used : userStep service label = some after) : after.pc = service.pc := by
  unfold userStep at used
  split at used
  case h_1 con addr =>
    split at used
    · simp only [connectBegin, Option.bind_eq_bind, Option.bind_eq_some_iff] at used
      obtain ⟨object, _, result⟩ := used
      cases result
      rfl
    · cases used
  case h_2 con granted =>
    split at used
    · cases used
      rfl
    · cases used
  case h_3 | h_4 | h_5 =>
    obtain ⟨world, _, rfl⟩ := Option.map_eq_some_iff.mp used
    rfl
  case h_6 => cases used

theorem step_sides (stepped : step service label = some after) :
    label.byUser = true ∧ userStep service label = some after ∨
      ¬ label.byUser = true ∧ workerStep service label = some after :=
  side_cases stepped

theorem step_moved (stepped : step service label = some after) : Moved service label after := by
  rcases step_sides stepped with ⟨_, used⟩ | ⟨_, worked⟩
  · exact user_moved used
  · exact worker_moved worked

theorem event_step {number : Nat} {mask : EventMask}
    (stepped : step service (.event number mask) = some after) :
    service.pc = .ready ∧ after = eventStep service number mask := by
  rcases step_sides stepped with ⟨_, used⟩ | ⟨_, worked⟩
  · cases used
  · cases pc : service.pc with
    | ready =>
        simp only [workerStep, pc, Option.some.injEq] at worked
        exact ⟨rfl, worked.symm⟩
    | _ => simp [workerStep, pc] at worked

end Moves

end Libasock.ServiceWorker
