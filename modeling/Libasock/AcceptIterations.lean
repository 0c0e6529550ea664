import Libasock.ReferenceCounts
import Libasock.ServerWorker

/-!
One turn of the `accept()` loop of `asock_server_update_state` from the call of
`accept()` to the label `SUCCESS`, with every allocation it asks for and with
the bytes of the peer's address. `iteration_steps` takes it apart into the steps
of a running server, which let other threads in between.

The address family of the server is not read in the loop: the buffer is a
`struct sockaddr` for every family.
-/

namespace Libasock.AcceptIterations
open ByteBlocks GuardedRuns NumberReuse ReturnCodes TsqueueModel ConnectionObjects WorkerWorld
  ReferenceCounts ServerWorker

section Addresses

/-- `sizeof(struct sockaddr)` -/
def sockaddrSize : Nat := 16

structure Sockaddr where
  bytes : List Byte
  sized : bytes.length = sockaddrSize

/-- The buffer and the length after `accept()`, which has stored `written` bytes. -/
structure Accepted where
  inAddr : Sockaddr
  inLen : Nat
  written : Nat

/-- `accept()` stores what fits into `in_len` bytes and reports the whole length. -/
def acceptPeer (inAddr : Sockaddr) (peer : List Byte) : Accepted where
  inAddr :=
    { bytes := peer.take sockaddrSize ++ inAddr.bytes.drop (min sockaddrSize peer.length)
      sized := by
        rw [List.length_append, List.length_take, List.length_drop, inAddr.sized]
        omega }
  inLen := peer.length
  written := min sockaddrSize peer.length

/-- `malloc(in_len)` and the `memcpy` from the local buffer. -/
def copyPeerAddr (answer : Allocation) (accepted : Accepted) : Outcome (Option (List Byte)) :=
  match malloc answer accepted.inLen with
  | none => .ok none
  | some block => (memcpy block 0 accepted.inAddr.bytes 0 accepted.inLen).map some

theorem copy_refused (accepted : Accepted) : copyPeerAddr none accepted = .ok none := rfl

theorem copy_granted (junk : Nat → Byte) (accepted : Accepted) :
    copyPeerAddr (some junk) accepted =
      (memcpy ((List.range accepted.inLen).map junk) 0 accepted.inAddr.bytes 0
        accepted.inLen).map some := rfl

theorem copy_short {peer : List Byte} (inAddr : Sockaddr) (junk : Nat → Byte)
    (short : peer.length ≤ sockaddrSize) :
    copyPeerAddr (some junk) (acceptPeer inAddr peer) = .ok (some peer) := by
  have inside : 0 + peer.length ≤ (acceptPeer inAddr peer).inAddr.bytes.length := by
    rw [(acceptPeer inAddr peer).inAddr.sized, Nat.zero_add]
    exact short
  have copies : memcpy ((List.range peer.length).map junk) 0 (acceptPeer inAddr peer).inAddr.bytes 0
      peer.length = .ok peer := by
    rw [memcpy_ok (by simp) inside]
    simp [acceptPeer, List.take_of_length_le short]
  rw [copy_granted]
  exact congrArg (Except.map some) copies

theorem copy_long {peer : List Byte} (inAddr : Sockaddr) (junk : Nat → Byte)
    (long : sockaddrSize < peer.length) :
    copyPeerAddr (some junk) (acceptPeer inAddr peer) = .error .outOfBounds := by
  have outside : ¬ 0 + (acceptPeer inAddr peer).inLen ≤
      (acceptPeer inAddr peer).inAddr.bytes.length := by
    rw [(acceptPeer inAddr peer).inAddr.sized, Nat.zero_add]
    exact Nat.not_le_of_lt long
  rw [copy_granted, memcpy, if_neg (fun inside => outside inside.2)]
  rfl

end Addresses

section Iteration

structure IterationAnswers where
  object : ObjectAnswers
  peerAddr : Allocation
  connections : Bool
  newConnections : Bool

structure Iterated where
  server : Server
  /-- Whether the worker still holds `m_new_connections_mutex`. -/
  mutexLocked : Bool

/-- The two pushes and the increment. The `goto` out of the locked region skips the unlock. -/
def enlist (server : Server) (con : ConRef) (infd : Descriptor) (answers : IterationAnswers) :
    Iterated :=
  let registered := registerStep server con infd answers.connections
  if registered.pc = .accepting then ⟨registered, false⟩
  else
    let announced := announceStep registered con infd answers.newConnections
    if announced.pc = .accepting then ⟨announced, true⟩ else ⟨raiseStep announced con, false⟩

/-- The rest of the turn once the object exists. -/
def fillAndEnlist (server : Server) (world : World) (infd : Descriptor) (newCon : Asock)
    (accepted : Accepted) (answers : IterationAnswers) : Outcome Iterated :=
  let newCon := { newCon with mMasterId := server.mServerId, mState := .established }
  match copyPeerAddr answers.peerAddr accepted with
  | .error fault => .error fault
  | .ok none => .ok ⟨clearAfterFailure server (world.add newCon) world.created infd, false⟩
  | .ok (some addr) =>
      let newCon := { newCon with mPeerAddr := some addr, mPeerAddrlen := accepted.inLen }
      .ok (enlist { server with world := world.add newCon, pc := .created world.created infd }
        world.created infd answers)

/-- `none` when the kernel would hand out a number that is open. -/
def acceptIteration (server : Server) (number : Nat) (inAddr : Sockaddr) (peer : List Byte)
    (answers : IterationAnswers) : Option (Outcome Iterated) := do
  let (infd, world) ← server.world.acquire number
  match fcreateAsock answers.object infd world.asockConsNumber with
  | .error fault => some (.error fault)
  | .ok none => some (.ok
      ⟨{ server with world := world.close (some infd), pc := .accepting }, false⟩)
  | .ok (some newCon) =>
      some (fillAndEnlist server world infd newCon (acceptPeer inAddr peer) answers)

end Iteration

section Refusals

/-- `asock_tsqueue_create` returns `NULL`. -/
def QueueRefused (answers : CreateAnswers) : Prop :=
  answers.structAlloc = false ∨ answers.mutexInit = false ∨ answers.dataAlloc = none

def ObjectRefused (answers : ObjectAnswers) : Prop :=
  answers.objectAlloc = false ∨ QueueRefused answers.inQueue ∨ QueueRefused answers.outQueue

def Refused (server : Server) (answers : IterationAnswers) : Prop :=
  ObjectRefused answers.object ∨ answers.peerAddr = none ∨
    PushRefused server.world.mConnections answers.connections ∨
    PushRefused server.world.mNewConnections answers.newConnections

theorem queue_created (answers : CreateAnswers) :
    (QueueRefused answers ∧ Tsqueue.create answers 1 asockMesBufferSize = .ok none) ∨
      (¬ QueueRefused answers ∧
        ∃ queue, Tsqueue.create answers 1 asockMesBufferSize = .ok (some queue)) := by
  have rounded : doubleUntil doublingFuel 1 asockMesBufferSize = .ok 4096 := rfl
  obtain ⟨structAlloc, mutexInit, dataAlloc⟩ := answers
  cases structAlloc
  · exact .inl ⟨.inl rfl, rfl⟩
  · cases mutexInit
    · exact .inl ⟨.inr (.inl rfl), rfl⟩
    · cases dataAlloc with
      | none => exact .inl ⟨.inr (.inr rfl), rfl⟩
      | some junk => exact .inr ⟨by simp [QueueRefused], _, rfl⟩

theorem object_created (answers : ObjectAnswers) (fd : Descriptor) (consNumber : Nat) :
    (ObjectRefused answers ∧ fcreateAsock answers fd consNumber = .ok none) ∨
      (¬ ObjectRefused answers ∧
        ∃ con, fcreateAsock answers fd consNumber = .ok (some con) ∧ Fresh con fd) := by
  cases granted : answers.objectAlloc with
  | false => exact .inl ⟨.inl granted, by simp [fcreateAsock, granted, pure, Except.pure]⟩
  | true =>
      rcases queue_created answers.inQueue with ⟨refused, fails⟩ | ⟨grantedIn, inQueue, makesIn⟩
      · exact .inl ⟨.inr (.inl refused), by
          simp [fcreateAsock, granted, fails, bind, Except.bind, pure, Except.pure]⟩
      · rcases queue_created answers.outQueue with
          ⟨refused, fails⟩ | ⟨grantedOut, outQueue, makesOut⟩
        · exact .inl ⟨.inr (.inr refused), by
            simp [fcreateAsock, granted, makesIn, fails, bind, Except.bind, pure, Except.pure]⟩
        · have makes : ∃ con, fcreateAsock answers fd consNumber = .ok (some con) := by
            simp [fcreateAsock, granted, makesIn, makesOut, bind, Except.bind, pure, Except.pure]
          obtain ⟨con, makes⟩ := makes
          refine .inr ⟨?_, con, makes, fcreate_fresh makes⟩
          rintro (refused | refused | refused)
          · rw [granted] at refused
            cases refused
          · exact grantedIn refused
          · exact grantedOut refused

end Refusals

section Clearing

/-- Nothing is left of the turn but one close of the descriptor it got. -/
structure Undone (server : Server) (infd : Descriptor) (done : Iterated) : Prop where
  connections : done.server.world.mConnections.items = server.world.mConnections.items
  newConnections : done.server.world.mNewConnections.items = server.world.mNewConnections.items
  usable : done.server.broken = false
  unlocked : done.mutexLocked = false
  released : server.world.created < done.server.world.created →
    ∃ object, done.server.world.objects server.world.created = some object ∧
      object.released = true ∧ object.con.mRefCounter = 0
  closed : done.server.world.table.closes =
    server.world.table.closes ++ [⟨infd, some infd.acquisition⟩]

variable {server : Server} {number : Nat} {infd : Descriptor} {world : World}

theorem acquired_table (acquires : server.world.acquire number = some (infd, world)) :
    world.table.closes = server.world.table.closes ∧
      world.table.opened infd.number = some infd.acquisition ∧
      SameLists server.world world := by
  obtain ⟨⟨fd, table⟩, gets, same⟩ := Option.map_eq_some_iff.mp acquires
  obtain ⟨_, shape, tableShape⟩ := acquire_shape gets
  cases same
  subst shape tableShape
  exact ⟨rfl, Function.update_self .., rfl, rfl, rfl, rfl⟩

theorem closed_acquired (acquires : server.world.acquire number = some (infd, world)) :
    (world.close (some infd)).table.closes =
      server.world.table.closes ++ [⟨infd, some infd.acquisition⟩] := by
  obtain ⟨closes, opened, _⟩ := acquired_table acquires
  simp only [World.close, Table.close, closes, opened]

/-- The destructor has closed the descriptor already when the cleanup closes it. -/
theorem cleared_twice {con : ConRef} {object : Object} (server : Server)
    (found : world.objects con = some object) (counted : object.con.mRefCounter = 1)
    (remembers : object.con.mSockDesc = some infd) :
    (clearAfterFailure server world con infd).world.table.closes.length =
      world.table.closes.length + 2 := by
  have last : object.dropped.con.mRefCounter = 0 := by simp [Object.dropped, counted]
  simp only [clearAfterFailure, World.destroyAsock, found, if_pos last, remembers, World.close,
    Table.close, World.put, List.length_append, List.length_singleton]

theorem cleared_not_undone {start : Server} {con : ConRef} {object : Object} {after : World}
    (locked : Bool) (acquires : start.world.acquire number = some (infd, world))
    (found : after.objects con = some object) (counted : object.con.mRefCounter = 1)
    (remembers : object.con.mSockDesc = some infd)
    (closes : after.table.closes = world.table.closes) :
    ¬ Undone start infd ⟨clearAfterFailure server after con infd, locked⟩ := by
  intro undone
  have twice := cleared_twice server found counted remembers
  have once := congrArg List.length undone.closed
  rw [List.length_append, List.length_singleton] at once
  rw [closes, (acquired_table acquires).1, once] at twice
  omega

end Clearing

section Turns

variable {server : Server} {number : Nat} {infd : Descriptor} {world : World} {inAddr : Sockaddr}
  {peer : List Byte} {answers : IterationAnswers}

theorem iteration_cases (inAddr : Sockaddr) (peer : List Byte) (answers : IterationAnswers)
    (acquires : server.world.acquire number = some (infd, world)) :
    (ObjectRefused answers.object ∧ acceptIteration server number inAddr peer answers =
      some (.ok ⟨{ server with world := world.close (some infd), pc := .accepting }, false⟩)) ∨
    (¬ ObjectRefused answers.object ∧ ∃ newCon, Fresh newCon infd ∧
      acceptIteration server number inAddr peer answers =
        some (fillAndEnlist server world infd newCon (acceptPeer inAddr peer) answers)) := by
  rcases object_created answers.object infd world.asockConsNumber with
    ⟨refused, fails⟩ | ⟨granted, newCon, makes, fresh⟩
  · refine .inl ⟨refused, ?_⟩
    simp only [acceptIteration, acquires, Option.bind_eq_bind, Option.bind_some, fails]
  · refine .inr ⟨granted, newCon, fresh, ?_⟩
    simp only [acceptIteration, acquires, Option.bind_eq_bind, Option.bind_some, makes]

def registered (server : Server) (con : ConRef) (infd : Descriptor) (granted : Bool) : Server :=
  { server with
    world := server.world.setConnections (server.world.mConnections.push con granted).2
    pc := .registered con infd }

def announced (server : Server) (con : ConRef) (granted : Bool) : Server :=
  { server with
    world := server.world.setNew (server.world.mNewConnections.push con granted).2
    pc := .announced con }

theorem register_granted {con : ConRef} {granted : Bool}
    (room : ¬ PushRefused server.world.mConnections granted) :
    registerStep server con infd granted = registered server con infd granted :=
  if_neg (push_granted con room).1

theorem announce_granted {con : ConRef} {granted : Bool}
    (room : ¬ PushRefused server.world.mNewConnections granted) :
    announceStep server con infd granted = announced server con granted :=
  if_neg (push_granted con room).1

/-- After a refused push the worker comes to the cleanup with the object. -/
structure Cleared (server after : Server) (con : ConRef) (infd : Descriptor) : Prop where
  stops : after.pc = .accepting
  cleared : ∃ world, world.objects = server.world.objects ∧ world.table = server.world.table ∧
    after = clearAfterFailure server world con infd

theorem register_refused {granted : Bool} (con : ConRef) (infd : Descriptor)
    (refused : PushRefused server.world.mConnections granted) :
    Cleared server (registerStep server con infd granted) con infd := by
  let world := server.world.setConnections (server.world.mConnections.push con granted).2
  have clears : registerStep server con infd granted = clearAfterFailure server world con infd :=
    if_pos (push_refused con refused)
  exact ⟨by rw [clears]; rfl, world, rfl, rfl, clears⟩

theorem announce_refused {con : ConRef} {granted : Bool}
    (refused : PushRefused server.world.mNewConnections granted) :
    Cleared server (announceStep server con infd granted) con infd := by
  let pushed := server.world.setNew (server.world.mNewConnections.push con granted).2
  let world := pushed.setConnections
    (pushed.mConnections.erase (pushed.mConnections.items.length - 1))
  have clears : announceStep server con infd granted = clearAfterFailure server world con infd :=
    if_pos (push_refused con refused)
  exact ⟨by rw [clears]; rfl, world, rfl, rfl, clears⟩

theorem registered_goes (con : ConRef) (granted : Bool) :
    ¬ (registered server con infd granted).pc = .accepting := by
  intro impossible
  cases impossible

theorem announced_goes (con : ConRef) (granted : Bool) :
    ¬ (announced server con granted).pc = .accepting := by
  intro impossible
  cases impossible

theorem enlist_cases (server : Server) (con : ConRef) (infd : Descriptor)
    (answers : IterationAnswers) :
    (PushRefused server.world.mConnections answers.connections ∧
      enlist server con infd answers =
        ⟨registerStep server con infd answers.connections, false⟩) ∨
    (¬ PushRefused server.world.mConnections answers.connections ∧
      PushRefused server.world.mNewConnections answers.newConnections ∧
      enlist server con infd answers =
        ⟨announceStep (registered server con infd answers.connections) con infd
          answers.newConnections, true⟩) ∨
    (¬ PushRefused server.world.mConnections answers.connections ∧
      ¬ PushRefused server.world.mNewConnections answers.newConnections ∧
      enlist server con infd answers =
        ⟨raiseStep (announced (registered server con infd answers.connections) con
          answers.newConnections) con, false⟩) := by
  by_cases first : PushRefused server.world.mConnections answers.connections
  · refine .inl ⟨first, ?_⟩
    simp only [enlist, if_pos (register_refused con infd first).stops]
  · by_cases second : PushRefused server.world.mNewConnections answers.newConnections
    · refine .inr (.inl ⟨first, second, ?_⟩)
      have cleared : Cleared (registered server con infd answers.connections) _ con infd :=
        announce_refused second
      simp only [enlist, register_granted first, if_neg (registered_goes con answers.connections),
        if_pos cleared.stops]
    · refine .inr (.inr ⟨first, second, ?_⟩)
      have announces : announceStep (registered server con infd answers.connections) con infd
          answers.newConnections = _ := announce_granted second
      simp only [enlist, register_granted first, if_neg (registered_goes con answers.connections),
        announces, if_neg (announced_goes con answers.newConnections)]

theorem enlist_refused {start : Server} {con : ConRef} {object : Object}
    (acquires : start.world.acquire number = some (infd, world))
    (found : server.world.objects con = some object) (counted : object.con.mRefCounter = 1)
    (remembers : object.con.mSockDesc = some infd)
    (closes : server.world.table.closes = world.table.closes)
    (refused : PushRefused server.world.mConnections answers.connections ∨
      PushRefused server.world.mNewConnections answers.newConnections) :
    ¬ Undone start infd (enlist server con infd answers) := by
  rcases enlist_cases server con infd answers with
    ⟨first, enlists⟩ | ⟨_, second, enlists⟩ | ⟨first, second, _⟩
  · obtain ⟨after, objects, table, clears⟩ :=
      (register_refused con infd first).cleared
    rw [enlists, clears]
    exact cleared_not_undone false acquires (objects ▸ found) counted remembers
      ((congrArg Table.closes table).trans closes)
  · have cleared : Cleared (registered server con infd answers.connections) _ con infd :=
      announce_refused second
    obtain ⟨after, objects, table, clears⟩ := cleared.cleared
    rw [enlists, clears]
    exact cleared_not_undone true acquires (objects ▸ found) counted remembers
      ((congrArg Table.closes table).trans closes)
  · rcases refused with refused | refused
    · exact absurd refused first
    · exact absurd refused second

theorem added_object (world : World) (made : Asock) :
    (world.add made).objects world.created = some ⟨made, false, []⟩ := by
  simp [World.add, World.put]

theorem filled_not_undone {newCon : Asock} {done : Iterated}
    (acquires : server.world.acquire number = some (infd, world)) (fresh : Fresh newCon infd)
    (late : ¬ ObjectRefused answers.object) (refused : Refused server answers)
    (fills : fillAndEnlist server world infd newCon (acceptPeer inAddr peer) answers = .ok done) :
    ¬ Undone server infd done := by
  obtain ⟨_, _, lists⟩ := acquired_table acquires
  unfold fillAndEnlist at fills
  cases copies : copyPeerAddr answers.peerAddr (acceptPeer inAddr peer) with
  | error fault =>
      simp only [copies] at fills
      cases fills
  | ok copied =>
      cases copied with
      | none =>
          simp only [copies] at fills
          cases fills
          exact cleared_not_undone false acquires (added_object world _) fresh.counted
            fresh.descriptor rfl
      | some addr =>
          simp only [copies] at fills
          cases fills
          refine enlist_refused acquires (added_object world _) fresh.counted fresh.descriptor rfl ?_
          rcases refused with early | noAddr | pushes
          · exact absurd early late
          · rw [noAddr, copy_refused] at copies
            cases copies
          · simpa only [World.add, World.put, lists.connections, lists.new] using pushes

end Turns

section Steps

variable {server : Server} {con : ConRef} {infd : Descriptor}

theorem worker_steps {label : Label} (usable : server.broken = false)
    (worker : label.byUser = false) : step server label = workerStep server label := by
  simp [step, usable, worker]

theorem registered_usable {granted : Bool} (usable : server.broken = false)
    (room : ¬ PushRefused server.world.mConnections granted) :
    (registered server con infd granted).broken = false := by
  have same := (push_granted con room).2
  simpa only [registered, Server.broken, setConnections_items, setConnections_new, same] using usable

theorem announced_usable {granted : Bool} (usable : server.broken = false)
    (room : ¬ PushRefused server.world.mNewConnections granted) :
    (announced server con granted).broken = false := by
  have same := (push_granted con room).2
  simpa only [announced, Server.broken, setNew_connections, setNew_items, same] using usable

/-- Nothing comes between the steps of the turn when no other thread moves. -/
theorem enlist_steps (answers : IterationAnswers) (pc : server.pc = .created con infd)
    (usable : server.broken = false) : Run step server (enlist server con infd answers).server := by
  have registers : step server (.register answers.connections) =
      some (registerStep server con infd answers.connections) := by
    rw [worker_steps usable rfl]
    simp only [workerStep, pc]
  have announces : ¬ PushRefused server.world.mConnections answers.connections →
      step (registered server con infd answers.connections) (.announce answers.newConnections) =
        some (announceStep (registered server con infd answers.connections) con infd
          answers.newConnections) := by
    intro first
    rw [worker_steps (registered_usable usable first) rfl]
    rfl
  rcases enlist_cases server con infd answers with
    ⟨first, enlists⟩ | ⟨first, second, enlists⟩ | ⟨first, second, enlists⟩
  · rw [enlists]
    exact .next _ .refl trivial registers
  · rw [enlists]
    rw [register_granted first] at registers
    exact .next _ (.next _ .refl trivial registers) trivial (announces first)
  · have room : ¬ PushRefused (registered server con infd answers.connections).world.mNewConnections
        answers.newConnections := second
    have raises : step (announced (registered server con infd answers.connections) con
        answers.newConnections) .raise = some (raiseStep (announced (registered server con infd
          answers.connections) con answers.newConnections) con) := by
      rw [worker_steps (announced_usable (registered_usable usable first) room) rfl]
      rfl
    have announced := announces first
    rw [announce_granted room] at announced
    rw [register_granted first] at registers
    rw [enlists]
    exact .next _ (.next _ (.next _ .refl trivial registers) trivial announced) trivial raises

/-- What a copy without a fault gives is what the peer's address is. -/
theorem copy_cases {inAddr : Sockaddr} {peer : List Byte} {answer : Allocation}
    {copied : Option (List Byte)}
    (copies : copyPeerAddr answer (acceptPeer inAddr peer) = .ok copied) :
    (answer = none ∧ copied = none) ∨ (answer.isSome = true ∧ copied = some peer) := by
  cases answer with
  | none =>
      cases copies
      exact .inl ⟨rfl, rfl⟩
  | some junk =>
      by_cases short : peer.length ≤ sockaddrSize
      · rw [copy_short inAddr junk short] at copies
        cases copies
        exact .inr ⟨rfl, rfl⟩
      · rw [copy_long inAddr junk (Nat.lt_of_not_le short)] at copies
        cases copies

/-- The turn is a run of the server's own steps, with the copied bytes as the address. -/
theorem iteration_steps {number : Nat} {inAddr : Sockaddr} {peer : List Byte}
    {answers : IterationAnswers} {done : Iterated} (pc : server.pc = .accepting)
    (usable : server.broken = false)
    (iterates : acceptIteration server number inAddr peer answers = some (.ok done)) :
    Run step server done.server := by
  let accepts : Label := .accept number peer ⟨answers.object, answers.peerAddr.isSome⟩
  have stepped : step server accepts = acceptStep server number peer
      ⟨answers.object, answers.peerAddr.isSome⟩ := by
    rw [worker_steps usable rfl]
    simp only [workerStep, pc, accepts]
  cases acquires : server.world.acquire number with
  | none => simp [acceptIteration, acquires] at iterates
  | some result =>
      obtain ⟨infd, world⟩ := result
      obtain ⟨_, _, lists⟩ := acquired_table acquires
      rcases object_created answers.object infd world.asockConsNumber with
        ⟨_, fails⟩ | ⟨_, newCon, makes, _⟩
      · simp only [acceptIteration, acquires, Option.bind_eq_bind, Option.bind_some, fails] at iterates
        cases iterates
        refine .next accepts .refl trivial ?_
        simp [stepped, acceptStep, acquires, fails]
      · simp only [acceptIteration, acquires, Option.bind_eq_bind, Option.bind_some, makes,
          Option.some.injEq, fillAndEnlist] at iterates
        cases copies : copyPeerAddr answers.peerAddr (acceptPeer inAddr peer) with
        | error fault =>
            simp only [copies] at iterates
            cases iterates
        | ok copied =>
            rcases copy_cases copies with ⟨refused, rfl⟩ | ⟨granted, rfl⟩
            · simp only [copies] at iterates
              cases iterates
              refine .next accepts .refl trivial ?_
              simp [stepped, acceptStep, acquires, makes, refused]
            · simp only [copies, Except.ok.injEq] at iterates
              let start : Server :=
                { server with
                  world := world.add { newCon with
                    mMasterId := server.mServerId, mState := .established
                    mPeerAddr := some peer, mPeerAddrlen := peer.length }
                  pc := .created world.created infd }
              have startUsable : start.broken = false := by
                simpa only [start, Server.broken, World.add, World.put, lists.connections,
                  lists.new] using usable
              have startPc : start.pc = .created world.created infd := rfl
              have begins : step server accepts = some start := by
                simp [stepped, acceptStep, acquires, makes, granted, start]
              rw [← iterates]
              exact GuardedRun.trans (.next accepts .refl trivial begins)
                (enlist_steps answers startPc startUsable)

end Steps

section Results

-- The cleanup closes the descriptor of an object that its destructor has closed.
theorem failed_iteration_undone (server : Server) (number : Nat) (inAddr : Sockaddr)
    (peer : List Byte) (answers : IterationAnswers) (infd : Descriptor) (world : World)
    (acquires : server.world.acquire number = some (infd, world))
    (refused : Refused server answers) :
    (∃ done, acceptIteration server number inAddr peer answers = some (.ok done) ∧
      Undone server infd done) ↔ ObjectRefused answers.object ∧ server.broken = false := by
  obtain ⟨_, _, lists⟩ := acquired_table acquires
  rcases iteration_cases inAddr peer answers acquires with
    ⟨early, iterates⟩ | ⟨late, newCon, fresh, iterates⟩
  · constructor
    · rintro ⟨done, same, undone⟩
      rw [iterates] at same
      cases same
      have usable := undone.usable
      simp only [Server.broken, (close_lists world (some infd)).connections,
        (close_lists world (some infd)).new, lists.connections, lists.new] at usable
      exact ⟨early, usable⟩
    · rintro ⟨_, usable⟩
      have kept := lists.trans (close_lists world (some infd))
      refine ⟨_, iterates, ?_⟩
      constructor
      case connections => exact congrArg Connections.items kept.connections
      case newConnections => exact congrArg Connections.items kept.new
      case usable => simpa only [Server.broken, kept.connections, kept.new] using usable
      case unlocked => rfl
      case released =>
        intro more
        exact absurd kept.created (Nat.ne_of_gt more)
      case closed => exact closed_acquired acquires
  · constructor
    · rintro ⟨done, same, undone⟩
      rw [iterates] at same
      exact absurd undone (filled_not_undone acquires fresh late refused (Option.some.inj same))
    · rintro ⟨early, _⟩
      exact absurd early late

def localBuffer : Sockaddr := ⟨List.replicate sockaddrSize 0, rfl⟩

def allGranted : IterationAnswers :=
  ⟨⟨true, ⟨true, true, zeroed⟩, ⟨true, true, zeroed⟩⟩, zeroed, true, true⟩

-- No memory for the peer's address: the number 5 is closed twice.
theorem refused_address_closes_twice :
    Refused (Server.listening 1 3) { allGranted with peerAddr := none } ∧
    ∃ done, acceptIteration (Server.listening 1 3) 5 localBuffer [2, 0, 31, 144]
        { allGranted with peerAddr := none } = some (.ok done) ∧
      done.server.world.table.closes = [⟨⟨5, 1⟩, some 1⟩, ⟨⟨5, 1⟩, none⟩] ∧
      ¬ Undone (Server.listening 1 3) ⟨5, 1⟩ done := by
  refine ⟨.inr (.inl rfl), _, rfl, rfl, ?_⟩
  intro undone
  have once := congrArg List.length undone.closed
  cases once

theorem refused_object_undone :
    ∃ done, acceptIteration (Server.listening 1 3) 5 localBuffer [2, 0, 31, 144]
        { allGranted with object.objectAlloc := false } = some (.ok done) ∧
      Undone (Server.listening 1 3) ⟨5, 1⟩ done :=
  (failed_iteration_undone (Server.listening 1 3) 5 localBuffer [2, 0, 31, 144]
    { allGranted with object.objectAlloc := false } ⟨5, 1⟩ _ rfl (.inl (.inl rfl))).mpr
    ⟨.inl rfl, rfl⟩

def RecordsPeer (world : World) (con : ConRef) (peer : List Byte) : Prop :=
  ∃ object, world.objects con = some object ∧ object.con.mPeerAddr = some peer ∧
    object.con.mPeerAddrlen = peer.length

theorem enlist_records {server : Server} {con : ConRef} {infd : Descriptor}
    {answers : IterationAnswers} {peer : List Byte} (recorded : RecordsPeer server.world con peer)
    (first : ¬ PushRefused server.world.mConnections answers.connections)
    (second : ¬ PushRefused server.world.mNewConnections answers.newConnections) :
    RecordsPeer (enlist server con infd answers).server.world con peer := by
  obtain ⟨object, found, addr, addrlen⟩ := recorded
  rcases enlist_cases server con infd answers with
    ⟨refused, _⟩ | ⟨_, refused, _⟩ | ⟨_, _, enlists⟩
  · exact absurd refused first
  · exact absurd refused second
  · let raised : Object :=
      { object with con := { object.con with mRefCounter := object.con.mRefCounter + 1 } }
    refine ⟨raised, ?_, addr, addrlen⟩
    rw [enlists]
    simp [raiseStep, announced, registered, World.counterIncr, found, World.put, raised]

-- The buffer has room for the addresses of one family only.
theorem peer_recorded (server : Server) (number : Nat) (inAddr : Sockaddr) (peer : List Byte)
    (answers : IterationAnswers) (infd : Descriptor) (world : World)
    (acquires : server.world.acquire number = some (infd, world))
    (granted : ¬ Refused server answers) :
    ((∃ done, acceptIteration server number inAddr peer answers = some (.ok done) ∧
        RecordsPeer done.server.world world.created peer) ∧
      (acceptPeer inAddr peer).inLen ≤ (acceptPeer inAddr peer).written) ↔
        peer.length ≤ sockaddrSize := by
  constructor
  · rintro ⟨_, copied⟩
    exact Nat.le_trans copied (Nat.min_le_left ..)
  · intro short
    refine ⟨?_, Nat.le_min.mpr ⟨short, Nat.le_refl _⟩⟩
    obtain ⟨early, addr, first, second⟩ : ¬ ObjectRefused answers.object ∧
        answers.peerAddr ≠ none ∧
        ¬ PushRefused server.world.mConnections answers.connections ∧
        ¬ PushRefused server.world.mNewConnections answers.newConnections := by
      simpa [Refused, not_or] using granted
    obtain ⟨junk, given⟩ := Option.ne_none_iff_exists'.mp addr
    rcases iteration_cases inAddr peer answers acquires with
      ⟨refused, _⟩ | ⟨_, newCon, fresh, iterates⟩
    · exact absurd refused early
    · have copies := copy_short inAddr junk short
      rw [← given] at copies
      obtain ⟨_, _, lists⟩ := acquired_table acquires
      simp only [fillAndEnlist, copies] at iterates
      refine ⟨_, iterates, ?_⟩
      have recorded := added_object world { newCon with
        mMasterId := server.mServerId, mState := .established, mPeerAddr := some peer
        mPeerAddrlen := (acceptPeer inAddr peer).inLen }
      apply enlist_records ⟨_, recorded, rfl, rfl⟩
      · rw [← lists.connections] at first
        exact first
      · rw [← lists.new] at second
        exact second

theorem nothing_refused : ¬ Refused (Server.listening 1 3) allGranted := by
  simp [Refused, ObjectRefused, QueueRefused, PushRefused, allGranted, zeroed, Server.listening,
    Connections.create, conInitCapacity]

-- The addresses of `AF_INET6` have 28 bytes.
theorem long_address_overrun :
    ¬ Refused (Server.listening 1 3) allGranted ∧
      acceptIteration (Server.listening 1 3) 5 localBuffer (List.replicate 28 10) allGranted =
        some (.error .outOfBounds) ∧
      (acceptPeer localBuffer (List.replicate 28 10)).written = 16 ∧
      (acceptPeer localBuffer (List.replicate 28 10)).inLen = 28 :=
  ⟨nothing_refused, rfl, rfl, rfl⟩

theorem short_address_recorded :
    (∃ done, acceptIteration (Server.listening 1 3) 5 localBuffer (List.replicate 16 7) allGranted =
        some (.ok done) ∧ RecordsPeer done.server.world 0 (List.replicate 16 7)) ∧
      (acceptPeer localBuffer (List.replicate 16 7)).inLen ≤
        (acceptPeer localBuffer (List.replicate 16 7)).written :=
  (peer_recorded (Server.listening 1 3) 5 localBuffer (List.replicate 16 7) allGranted ⟨5, 1⟩ _ rfl
    nothing_refused).mpr (Nat.le_refl 16)

end Results

end Libasock.AcceptIterations
