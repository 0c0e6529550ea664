import Libasock.GuardedRuns
import Libasock.WorkerWorld

/-!
A running server: the worker of `asock_server.c` past its configuration, the
users of its connections, the peers and the kernel. `step` is one move of one of
them. An accept iteration is cut where other threads may come in, that is after
the object is made, after each of the two pushes and after the increment; a
close and the turn of a read loop are one step each. The send, close and event
passes visit connections in a fixed order; here any visit may come next. What is
written and sent is left out, only that a `send()` may fail.

`make_socket_non_blocking` and `epoll_ctl` end the process when they fail for an
accepted descriptor, so they succeed here.
-/

namespace Libasock.ServerWorker
open ByteBlocks GuardedRuns NumberReuse ReturnCodes TsqueueModel ConnectionObjects WorkerWorld

inductive Pc where
  | ready
  | accepting
  | created (con : ConRef) (infd : Descriptor)
  | registered (con : ConRef) (infd : Descriptor)
  | announced (con : ConRef)
  | reading (number : Nat)
  | stopped
  | destroyed
  deriving DecidableEq

structure Server where
  world : World
  pc : Pc
  mServerSocket : Descriptor
  mServerId : Int
  /-- Connections closed for an end of file, `EPOLLHUP` or `EPOLLERR`. -/
  closedByPeer : List ConRef
  /-- Connections whose counter was incremented after their release. -/
  raisedReleased : List ConRef

structure AcceptAnswers where
  object : ObjectAnswers
  peerAddr : Bool

inductive Label where
  | event (number : Nat) (mask : EventMask)
  | accept (number : Nat) (peer : List Byte) (answers : AcceptAnswers)
  | acceptEnd
  | register (granted : Bool)
  | announce (granted : Bool)
  | raise
  | readData (count : Nat) (answer : Allocation)
  | readAgain
  | readFailed
  | readEnd
  | sendFailed (con : ConRef)
  | disconnect (con : ConRef)
  | stop
  | destroyServer
  | userAccept
  | userRead (con : ConRef) (dst : List Byte)
  | userDestroy (con : ConRef)
  | arrive (number : Nat) (bytes : List Byte)

section Accepting

/-- `CLEARING_AFTER_FAILURE` once the object exists. -/
def clearAfterFailure (server : Server) (world : World) (con : ConRef) (infd : Descriptor) :
    Server :=
  { server with world := (world.destroyAsock con).close (some infd), pc := .accepting }

def acceptStep (server : Server) (number : Nat) (peer : List Byte) (answers : AcceptAnswers) :
    Option Server := do
  let (infd, world) ← server.world.acquire number
  match fcreateAsock answers.object infd world.asockConsNumber with
  | .error _ => none
  | .ok none => some { server with world := world.close (some infd), pc := .accepting }
  | .ok (some con) =>
      let con := { con with mMasterId := server.mServerId, mState := .established }
      if answers.peerAddr then
        some { server with
          world := world.add { con with mPeerAddr := some peer, mPeerAddrlen := peer.length }
          pc := .created world.created infd }
      else some (clearAfterFailure server (world.add con) world.created infd)

def registerStep (server : Server) (con : ConRef) (infd : Descriptor) (granted : Bool) : Server :=
  let pushed := server.world.mConnections.push con granted
  let world := server.world.setConnections pushed.2
  if pushed.1 = asockFailure then clearAfterFailure server world con infd
  else { server with world := world, pc := .registered con infd }

/-- The failing branch leaves `m_new_connections_mutex` locked; the list it guards is lost. -/
def announceStep (server : Server) (con : ConRef) (infd : Descriptor) (granted : Bool) : Server :=
  let pushed := server.world.mNewConnections.push con granted
  let world := server.world.setNew pushed.2
  if pushed.1 = asockFailure then
    let erased := world.mConnections.erase (world.mConnections.items.length - 1)
    clearAfterFailure server (world.setConnections erased) con infd
  else { server with world := world, pc := .announced con }

def raiseStep (server : Server) (con : ConRef) : Server :=
  { server with
    world := server.world.counterIncr con
    pc := .accepting
    raisedReleased :=
      if (server.world.objects con).any (·.released) then server.raisedReleased ++ [con]
      else server.raisedReleased }

end Accepting

section Events

/-- Closing for an event; `peer` says that the event came from the peer. -/
def closeNumber (server : Server) (number : Nat) (peer : Bool) : Server :=
  { server with
    world := (server.world.closeConnection number).2
    pc := .ready
    closedByPeer :=
      if peer then server.closedByPeer ++ (server.world.conBySockDesc number).toList
      else server.closedByPeer }

/-- One turn of the event loop of `asock_server_update_state`, up to the inner loops. -/
def eventStep (server : Server) (number : Nat) (mask : EventMask) : Server :=
  if mask.epollerr ∨ mask.epollhup ∨ ¬ mask.epollin then
    closeNumber server number (mask.epollerr || mask.epollhup)
  else if number = server.mServerSocket.number then { server with pc := .accepting }
  else { server with pc := .reading number }

def closeRegistered (server : Server) (con : ConRef) (cause : Object → Bool) : Option Server := do
  let object ← server.world.objects con
  let fd ← object.con.mSockDesc
  if con ∈ server.world.mConnections.items ∧ cause object then
    some (closeNumber server fd.number false)
  else none

/-- The end of `asock_server_thread_loop`, after `DirectStop`. -/
def stopStep (server : Server) : Server :=
  { server with
    world := (server.world.destroyAll server.world.mConnections.items).close
      (some server.mServerSocket)
    pc := .stopped }

/-- `asock_server_destroy` after the worker has ended: both vectors are freed. -/
def destroyServerStep (server : Server) : Server :=
  { server with
    world := (server.world.setConnections server.world.mConnections.clear).setNew
      server.world.mNewConnections.clear
    pc := .destroyed }

def userAcceptStep (server : Server) : Server :=
  match server.world.mNewConnections.items with
  | [] => server
  | con :: _ =>
      { server with
        world := (server.world.setNew (server.world.mNewConnections.erase 0)).setHeld
          (con :: server.world.held) }

end Events

/-- A vector without its data ends the process at the worker's next access. -/
def Server.broken (server : Server) : Bool :=
  server.world.mConnections.lost || server.world.mNewConnections.lost

def workerStep (server : Server) (label : Label) : Option Server :=
  match server.pc, label with
  | .ready, .event number mask => some (eventStep server number mask)
  | .accepting, .accept number peer answers => acceptStep server number peer answers
  | .accepting, .acceptEnd => some { server with pc := .ready }
  | .created con infd, .register granted => some (registerStep server con infd granted)
  | .registered con infd, .announce granted => some (announceStep server con infd granted)
  | .announced con, .raise => some (raiseStep server con)
  | .reading number, .readData count answer =>
      (server.world.readData number count answer).map fun world => { server with world := world }
  | .reading _, .readAgain => some { server with pc := .ready }
  | .reading number, .readFailed => some (closeNumber server number false)
  | .reading number, .readEnd =>
      if server.world.atEnd number then some (closeNumber server number true) else none
  | .ready, .sendFailed con =>
      closeRegistered server con fun object => object.con.mState == .established
  | .ready, .disconnect con => closeRegistered server con fun object => object.con.mDisconnect
  | .ready, .stop => some (stopStep server)
  | _, _ => none

def userStep (server : Server) (label : Label) : Option Server :=
  match label with
  | .destroyServer => if server.pc = .stopped then some (destroyServerStep server) else none
  | .userAccept =>
      if server.pc = .destroyed ∨ server.world.mNewConnections.lost then none
      else some (userAcceptStep server)
  | .userRead con dst =>
      (server.world.userRead con dst).map fun world => { server with world := world }
  | .userDestroy con =>
      (server.world.userDestroy con).map fun world => { server with world := world }
  | .arrive number bytes =>
      (server.world.arrive number bytes).map fun world => { server with world := world }
  | _ => none

def Label.byUser : Label → Bool
  | .destroyServer | .userAccept | .userRead .. | .userDestroy _ | .arrive .. => true
  | _ => false

def step (server : Server) (label : Label) : Option Server :=
  if label.byUser then userStep server label
  else if server.broken then none
  else workerStep server label

def Server.listening (mServerId : Int) (number : Nat) : Server where
  world :=
    { objects := fun _ => none
      created := 0
      table := ⟨fun other => if other = number then some 0 else none, 1, []⟩
      sockets := fun _ => ⟨[], []⟩
      mConnections := .create
      mNewConnections := .create
      held := []
      asockConsNumber := 0
      stateLog := [] }
  pc := .ready
  mServerSocket := ⟨number, 0⟩
  mServerId := mServerId
  closedByPeer := []
  raisedReleased := []

section Labels

def Label.destroyed : Label → Option ConRef
  | .userDestroy con => some con
  | _ => none

def Label.endsServer : Label → Bool
  | .destroyServer => true
  | _ => false

/-- The number the worker passes to `asock_server_close_connection`, if it does. -/
def closedNumber (server : Server) : Label → Option Nat
  | .event number mask =>
      if mask.epollerr ∨ mask.epollhup ∨ ¬ mask.epollin then some number else none
  | .readFailed | .readEnd =>
      match server.pc with
      | .reading number => some number
      | _ => none
  | .sendFailed con | .disconnect con =>
      (server.world.objects con).bind fun object =>
        object.con.mSockDesc.map fun fd => fd.number
  | _ => none

end Labels

section Cases

/-- The object of an accept iteration before it is shown to anyone. -/
structure Arrived (con : Asock) (infd : Descriptor) : Prop where
  descriptor : con.mSockDesc = some infd
  established : con.mState = .established
  counted : con.mRefCounter = 1
  sound : con.Sound
  emptyIn : bytesOf con.mInQueue = []

theorem accept_cases {server after : Server} {number : Nat} {peer : List Byte}
    {answers : AcceptAnswers} (accepts : acceptStep server number peer answers = some after) :
    ∃ infd world, server.world.acquire number = some (infd, world) ∧
      (after = { server with world := world.close (some infd), pc := .accepting } ∨
      ∃ con, Arrived con infd ∧
        (after = { server with world := world.add con, pc := .created world.created infd } ∨
          (answers.peerAddr = false ∧
            after = clearAfterFailure server (world.add con) world.created infd))) := by
  unfold acceptStep at accepts
  cases acquires : server.world.acquire number with
  | none => simp [acquires] at accepts
  | some result =>
      obtain ⟨infd, world⟩ := result
      refine ⟨infd, world, rfl, ?_⟩
      simp only [acquires, Option.bind_eq_bind, Option.bind_some] at accepts
      split at accepts
      case h_1 => cases accepts
      case h_2 => exact .inl (Option.some.inj accepts).symm
      case h_3 con created =>
        have fresh := fcreate_fresh created
        split at accepts
        case isTrue =>
          refine .inr ⟨_, ?_, .inl (Option.some.inj accepts).symm⟩
          exact ⟨fresh.descriptor, rfl, fresh.counted,
            ⟨fresh.sound.inQueue, fresh.sound.outQueue⟩, fresh.emptyIn⟩
        case isFalse refused =>
          refine .inr ⟨_, ?_, .inr ⟨by simpa using refused, (Option.some.inj accepts).symm⟩⟩
          exact ⟨fresh.descriptor, rfl, fresh.counted,
            ⟨fresh.sound.inQueue, fresh.sound.outQueue⟩, fresh.emptyIn⟩

theorem register_cases (server : Server) (con : ConRef) (infd : Descriptor) (granted : Bool) :
    ((server.world.mConnections.push con granted).2.items =
        server.world.mConnections.items ++ [con] ∧
      registerStep server con infd granted = { server with
        world := server.world.setConnections (server.world.mConnections.push con granted).2
        pc := .registered con infd }) ∨
    (granted = false ∧
      (server.world.mConnections.push con granted).2.items = server.world.mConnections.items ∧
      registerStep server con infd granted = clearAfterFailure server
        (server.world.setConnections (server.world.mConnections.push con granted).2) con infd) := by
  rcases push_cases server.world.mConnections con granted with
    ⟨code, items, _⟩ | ⟨code, items, _, refused⟩
  · exact .inl ⟨items, if_neg (by rw [code]; decide)⟩
  · exact .inr ⟨refused, items, if_pos code⟩

theorem announce_cases (server : Server) (con : ConRef) (infd : Descriptor) (granted : Bool) :
    ((server.world.mNewConnections.push con granted).2.items =
        server.world.mNewConnections.items ++ [con] ∧
      announceStep server con infd granted = { server with
        world := server.world.setNew (server.world.mNewConnections.push con granted).2
        pc := .announced con }) ∨
    (granted = false ∧
      (server.world.mNewConnections.push con granted).2.items = server.world.mNewConnections.items ∧
      announceStep server con infd granted = clearAfterFailure server
        ((server.world.setNew (server.world.mNewConnections.push con granted).2).setConnections
          (server.world.mConnections.erase (server.world.mConnections.items.length - 1)))
        con infd) := by
  rcases push_cases server.world.mNewConnections con granted with
    ⟨code, items, _⟩ | ⟨code, items, _, refused⟩
  · exact .inl ⟨items, if_neg (by rw [code]; decide)⟩
  · exact .inr ⟨refused, items, if_pos code⟩

theorem erase_last {list : Connections} {front : List ConRef} {con : ConRef}
    (last : list.items = front ++ [con]) : (list.erase (list.items.length - 1)).items = front := by
  simp [Connections.erase, last, List.eraseIdx_append_of_length_le]

theorem closeRegistered_cases {server after : Server} {con : ConRef} {cause : Object → Bool}
    (closes : closeRegistered server con cause = some after) :
    ∃ object fd, server.world.objects con = some object ∧ object.con.mSockDesc = some fd ∧
      con ∈ server.world.mConnections.items ∧ after = closeNumber server fd.number false := by
  unfold closeRegistered at closes
  cases found : server.world.objects con with
  | none => simp [found] at closes
  | some object =>
      cases remembers : object.con.mSockDesc with
      | none => simp [found, remembers] at closes
      | some fd =>
          simp only [found, remembers, Option.bind_eq_bind, Option.bind_some] at closes
          split at closes
          · rename_i met
            exact ⟨object, fd, rfl, remembers, met.1, (Option.some.inj closes).symm⟩
          · cases closes

end Cases

section Moves

def quiet : Pc → Bool
  | .ready | .accepting | .reading _ => true
  | _ => false

def mayClose : Pc → Bool
  | .ready | .reading _ => true
  | _ => false

theorem mayClose_quiet {pc : Pc} (closing : mayClose pc = true) : quiet pc = true := by
  cases pc <;> simp_all [mayClose, quiet]

/-- Why the worker takes a close to come from the peer. -/
def PeerCause (server : Server) (label : Label) (number : Nat) : Prop :=
  (∃ mask, label = .event number mask ∧ (mask.epollerr = true ∨ mask.epollhup = true)) ∨
    (label = .readEnd ∧ server.world.atEnd number = true)

inductive Moved (server : Server) : Label → Server → Prop where
  | closed {label : Label} (number : Nat) (peer : Bool) (closing : mayClose server.pc = true)
      (asked : closedNumber server label = some number)
      (cause : peer = true → PeerCause server label number) :
      Moved server label (closeNumber server number peer)
  | turned {label : Label} (pc : Pc) (before : quiet server.pc = true) (isQuiet : quiet pc = true)
      (harmless : closedNumber server label = none) :
      Moved server label { server with pc := pc }
  | accepted {number : Nat} {peer : List Byte} {answers : AcceptAnswers} {after : Server}
      (pc : server.pc = .accepting)
      (accepts : acceptStep server number peer answers = some after) :
      Moved server (.accept number peer answers) after
  | registered {granted : Bool} (con : ConRef) (infd : Descriptor)
      (pc : server.pc = .created con infd) :
      Moved server (.register granted) (registerStep server con infd granted)
  | announced {granted : Bool} (con : ConRef) (infd : Descriptor)
      (pc : server.pc = .registered con infd) :
      Moved server (.announce granted) (announceStep server con infd granted)
  | raised (con : ConRef) (pc : server.pc = .announced con) :
      Moved server .raise (raiseStep server con)
  | read {count : Nat} {answer : Allocation} (number : Nat) (world : World)
      (pc : server.pc = .reading number)
      (reads : server.world.readData number count answer = some world) :
      Moved server (.readData count answer) { server with world := world }
  | stopped (pc : server.pc = .ready) : Moved server .stop (stopStep server)
  | destroyed (pc : server.pc = .stopped) :
      Moved server .destroyServer (destroyServerStep server)
  | userAccepted : Moved server .userAccept (userAcceptStep server)
  | userRead {con : ConRef} {dst : List Byte} (world : World)
      (reads : server.world.userRead con dst = some world) :
      Moved server (.userRead con dst) { server with world := world }
  | userDestroyed {con : ConRef} (world : World)
      (destroys : server.world.userDestroy con = some world) :
      Moved server (.userDestroy con) { server with world := world }
  | arrived {number : Nat} {bytes : List Byte} (world : World)
      (arrives : server.world.arrive number bytes = some world) :
      Moved server (.arrive number bytes) { server with world := world }

variable {server after : Server} {label : Label}

theorem event_moved {number : Nat} {mask : EventMask} (pc : server.pc = .ready) :
    Moved server (.event number mask) (eventStep server number mask) := by
  have isQuiet : quiet server.pc = true := by rw [pc]; rfl
  unfold eventStep
  split
  · rename_i closes
    refine .closed number _ (by rw [pc]; rfl) (if_pos closes) ?_
    intro peer
    exact .inl ⟨mask, rfl, by simpa using peer⟩
  · rename_i stays
    split
    · exact .turned .accepting isQuiet rfl (if_neg stays)
    · exact .turned (.reading number) isQuiet rfl (if_neg stays)

theorem closeRegistered_moved {con : ConRef} {cause : Object → Bool} (pc : server.pc = .ready)
    (asked : closedNumber server label = (server.world.objects con).bind fun object =>
      object.con.mSockDesc.map fun fd => fd.number)
    (closes : closeRegistered server con cause = some after) : Moved server label after := by
  obtain ⟨object, fd, found, remembers, _, rfl⟩ := closeRegistered_cases closes
  refine .closed fd.number false (by rw [pc]; rfl) ?_ (fun impossible => by cases impossible)
  rw [asked, found]
  simp [remembers]

theorem worker_moved (worked : workerStep server label = some after) :
    Moved server label after := by
  unfold workerStep at worked
  split at worked
  case h_1 number mask pc =>
    cases worked
    exact event_moved pc
  case h_2 number peer answers pc => exact .accepted pc worked
  case h_3 pc =>
    cases worked
    exact .turned .ready (by rw [pc]; rfl) rfl rfl
  case h_4 con infd granted pc =>
    cases worked
    exact .registered con infd pc
  case h_5 con infd granted pc =>
    cases worked
    exact .announced con infd pc
  case h_6 con pc =>
    cases worked
    exact .raised con pc
  case h_7 number count answer pc =>
    obtain ⟨world, reads, rfl⟩ := Option.map_eq_some_iff.mp worked
    exact .read number world pc reads
  case h_8 number pc =>
    cases worked
    exact .turned .ready (by rw [pc]; rfl) rfl rfl
  case h_9 number pc =>
    cases worked
    exact .closed number false (by rw [pc]; rfl) (by simp [closedNumber, pc])
      (fun impossible => by cases impossible)
  case h_10 number pc =>
    split at worked
    · rename_i ended
      cases worked
      exact .closed number true (by rw [pc]; rfl) (by simp [closedNumber, pc])
        (fun _ => .inr ⟨rfl, ended⟩)
    · cases worked
  case h_11 con pc => exact closeRegistered_moved pc rfl worked
  case h_12 con pc => exact closeRegistered_moved pc rfl worked
  case h_13 pc =>
    cases worked
    exact .stopped pc
  case h_14 => cases worked

theorem user_moved (used : userStep server label = some after) : Moved server label after := by
  unfold userStep at used
  split at used
  case h_1 =>
    split at used
    · rename_i pc
      cases used
      exact .destroyed pc
    · cases used
  case h_2 =>
    split at used
    · cases used
    · cases used
      exact .userAccepted
  case h_3 con dst =>
    obtain ⟨world, reads, rfl⟩ := Option.map_eq_some_iff.mp used
    exact .userRead world reads
  case h_4 con =>
    obtain ⟨world, destroys, rfl⟩ := Option.map_eq_some_iff.mp used
    exact .userDestroyed world destroys
  case h_5 number bytes =>
    obtain ⟨world, arrives, rfl⟩ := Option.map_eq_some_iff.mp used
    exact .arrived world arrives
  case h_6 => cases used

theorem user_pc (used : userStep server label = some after) :
    after.pc = server.pc ∨ after.pc = .destroyed := by
  unfold userStep at used
  split at used
  case h_1 =>
    split at used
    · cases used
      exact .inr rfl
    · cases used
  case h_2 =>
    split at used
    · cases used
    · cases used
      left
      unfold userAcceptStep
      split <;> rfl
  case h_3 | h_4 | h_5 =>
    obtain ⟨world, _, rfl⟩ := Option.map_eq_some_iff.mp used
    exact .inl rfl
  case h_6 => cases used

theorem step_sides (stepped : step server label = some after) :
    label.byUser = true ∧ userStep server label = some after ∨
      ¬ label.byUser = true ∧ workerStep server label = some after :=
  side_cases stepped

theorem step_moved (stepped : step server label = some after) : Moved server label after := by
  rcases step_sides stepped with ⟨_, used⟩ | ⟨_, worked⟩
  · exact user_moved used
  · exact worker_moved worked

theorem event_step {number : Nat} {mask : EventMask}
    (stepped : step server (.event number mask) = some after) :
    server.pc = .ready ∧ after = eventStep server number mask := by
  rcases step_sides stepped with ⟨_, used⟩ | ⟨_, worked⟩
  · cases used
  · cases pc : server.pc with
    | ready =>
        simp only [workerStep, pc, Option.some.injEq] at worked
        exact ⟨rfl, worked.symm⟩
    | _ => simp [workerStep, pc] at worked

end Moves

end Libasock.ServerWorker
