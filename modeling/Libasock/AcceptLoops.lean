import Libasock.AcceptIterations
import Libasock.ServerReferences

/-!
The whole `accept()` loop of `asock_server_update_state` for one event on the
listening socket, as the worker runs it when nobody comes in between. The backlog
lists what `accept()` will report, in its order; behind it there is `EAGAIN`. The
listening socket is registered with `EPOLLET`, so what the loop leaves in the
backlog is not reported again.
-/

namespace Libasock.AcceptLoops
open ByteBlocks GuardedRuns NumberReuse ConnectionObjects WorkerWorld ReferenceCounts ServerWorker
  AcceptIterations

/-- Errors of one connection, which say nothing about the next one. -/
inductive TransientError where
  | econnaborted | eintr | eproto
  deriving DecidableEq, Repr

inductive Pending where
  | connection (number : Nat) (peer : List Byte) (answers : AcceptAnswers)
  | failure (errno : TransientError)

def Pending.delivers : Pending → Bool
  | .connection .. => true
  | .failure _ => false

/-- What the loop leaves behind, and whether `EAGAIN` was the reason. -/
structure Accepted where
  server : Server
  sawAgain : Bool

/-- One turn whose pushes get their memory. -/
def acceptTurn (server : Server) (number : Nat) (peer : List Byte) (answers : AcceptAnswers) :
    Option Server :=
  exec step server [.accept number peer answers, .register true, .announce true, .raise]

/-- Both branches for `infd == -1` leave the loop, the second one after a `perror`. -/
def acceptLoop (server : Server) : List Pending → Option Accepted
  | [] => (step server .acceptEnd).map fun after => ⟨after, true⟩
  | .failure _ :: _ => (step server .acceptEnd).map fun after => ⟨after, false⟩
  | .connection number peer answers :: rest =>
      (acceptTurn server number peer answers).bind fun next => acceptLoop next rest

def acceptEvent (server : Server) (mask : EventMask) (backlog : List Pending) : Option Accepted :=
  (step server (.event server.mServerSocket.number mask)).bind fun next => acceptLoop next backlog

/-- The numbers `accept()` gives to the connections it delivers, with their peers. -/
def deliverable : List Pending → List (Nat × List Byte)
  | [] => []
  | .connection number peer _ :: rest => (number, peer) :: deliverable rest
  | .failure _ :: rest => deliverable rest

def granted : Pending → Prop
  | .connection _ _ answers => ¬ ObjectRefused answers.object ∧ answers.peerAddr = true
  | .failure _ => True

/-- Allocations succeed, and there are free numbers for all connections. -/
structure Supplied (server : Server) (backlog : List Pending) : Prop where
  memory : ∀ pending ∈ backlog, granted pending
  unused : ∀ entry ∈ deliverable backlog, server.world.table.opened entry.1 = none
  apart : ((deliverable backlog).map Prod.fst).Nodup

def described (world : World) (con : ConRef) : Option (Nat × List Byte) :=
  (world.objects con).bind fun object =>
    object.con.mSockDesc.bind fun fd => object.con.mPeerAddr.map fun peer => (fd.number, peer)

def places (server : Server) (count : Nat) : List ConRef := List.range' server.world.created count

/-- Both lists have got the delivered connections behind what they had, in the order of arrival. -/
structure Appended (server after : Server) (entries : List (Nat × List Byte)) : Prop where
  connections : after.world.mConnections.items =
    server.world.mConnections.items ++ places server entries.length
  newConnections : after.world.mNewConnections.items =
    server.world.mNewConnections.items ++ places server entries.length
  described : (places server entries.length).map (described after.world) = entries.map some

structure Drained (server : Server) (backlog : List Pending) (accepted : Accepted) : Prop where
  again : accepted.sawAgain = true
  appended : Appended server accepted.server (deliverable backlog)

section Turns

variable {server after : Server} {number : Nat} {peer : List Byte} {answers : AcceptAnswers}

structure Taken (server after : Server) (number : Nat) (peer : List Byte) : Prop where
  stays : after.pc = .accepting
  usable : after.broken = false
  created : after.world.created = server.world.created + 1
  connections : after.world.mConnections.items =
    server.world.mConnections.items ++ [server.world.created]
  newConnections : after.world.mNewConnections.items =
    server.world.mNewConnections.items ++ [server.world.created]
  described : described after.world server.world.created = some (number, peer)
  others : ∀ con, con ≠ server.world.created →
    after.world.objects con = server.world.objects con
  opened : ∀ other, other ≠ number →
    after.world.table.opened other = server.world.table.opened other

theorem push_free (list : Connections) : ¬ PushRefused list true := by
  intro refused
  cases refused.2

theorem acquired (unused : server.world.table.opened number = none) :
    ∃ infd world, server.world.acquire number = some (infd, world) ∧ infd.number = number ∧
      SameLists server.world world ∧ world.objects = server.world.objects ∧
      ∀ other, other ≠ number → world.table.opened other = server.world.table.opened other := by
  obtain ⟨infd, world, acquires⟩ : ∃ infd world,
      server.world.acquire number = some (infd, world) := by
    simp only [World.acquire, Table.acquire, unused, Option.map_some]
    exact ⟨_, _, rfl⟩
  obtain ⟨⟨fd, table⟩, gets, same⟩ := Option.map_eq_some_iff.mp acquires
  obtain ⟨_, shape, tableShape⟩ := acquire_shape gets
  have others : ∀ other, other ≠ number →
      world.table.opened other = server.world.table.opened other := by
    intro other different
    cases same
    rw [tableShape]
    exact Function.update_of_ne different _ _
  cases same
  subst shape
  exact ⟨_, _, acquires, rfl, ⟨rfl, rfl, rfl, rfl⟩, rfl, others⟩

theorem worker_runs {label : Label} (worker : label.byUser = false)
    (usable : server.broken = false) : step server label = workerStep server label := by
  simp only [step, worker, usable, Bool.false_eq_true, if_false]

def enlisted (server : Server) (world : World) (infd : Descriptor) (con : Asock) : Server :=
  let created : Server := { server with world := world.add con, pc := .created world.created infd }
  raiseStep (announced (registered created world.created infd true) world.created true)
    world.created

theorem enlisted_taken {world : World} {infd : Descriptor} {con : Asock}
    (usable : server.broken = false) (lists : SameLists server.world world)
    (objects : world.objects = server.world.objects)
    (opened : ∀ other, other ≠ number →
      world.table.opened other = server.world.table.opened other)
    (fd : con.mSockDesc = some infd) (sameNumber : infd.number = number)
    (addr : con.mPeerAddr = some peer) :
    Taken server (enlisted server world infd con) number peer := by
  have counted : ∀ other, other ≠ world.created →
      (enlisted server world infd con).world.objects other = world.objects other := by
    intro other different
    simp [enlisted, raiseStep, announced, registered, World.counterIncr, World.add, World.put,
      different]
  have made : (enlisted server world infd con).world.objects world.created =
      some ⟨{ con with mRefCounter := con.mRefCounter + 1 }, false, []⟩ := by
    simp [enlisted, raiseStep, announced, registered, World.counterIncr, World.add, World.put]
  have rest : (enlisted server world infd con).world.table = world.table ∧
      (enlisted server world infd con).world.created = world.created + 1 ∧
      (enlisted server world infd con).world.mConnections =
        (world.mConnections.push world.created true).2 ∧
      (enlisted server world infd con).world.mNewConnections =
        (world.mNewConnections.push world.created true).2 := by
    simp [enlisted, raiseStep, announced, registered, World.counterIncr, World.add, World.put,
      World.setConnections, World.setNew]
  obtain ⟨table, created, connections, newConnections⟩ := rest
  constructor
  case stays => rfl
  case usable =>
    have kept := usable
    simp only [Server.broken, ← lists.connections, ← lists.new] at kept
    simp only [Server.broken, connections, newConnections, (push_granted _ (push_free _)).2, kept]
  case created => rw [created, lists.created]
  case connections =>
    rw [connections, pushed_member _ (push_free _), lists.connections, lists.created]
  case newConnections =>
    rw [newConnections, pushed_member _ (push_free _), lists.new, lists.created]
  case described =>
    rw [← lists.created]
    simp [described, made, fd, addr, sameNumber]
  case others =>
    intro other different
    rw [counted other (by rw [lists.created]; exact different), objects]
  case opened =>
    intro other different
    rw [table, opened other different]

theorem turn_taken (pc : server.pc = .accepting) (usable : server.broken = false)
    (unused : server.world.table.opened number = none)
    (object : ¬ ObjectRefused answers.object) (peerAddr : answers.peerAddr = true) :
    ∃ after, acceptTurn server number peer answers = some after ∧
      Taken server after number peer := by
  obtain ⟨infd, world, acquires, sameNumber, lists, objects, opened⟩ := acquired unused
  rcases object_created answers.object infd world.asockConsNumber with
    ⟨refused, _⟩ | ⟨_, made, makes, fresh⟩
  · exact absurd refused object
  let con : Asock := { made with
    mMasterId := server.mServerId, mState := .established,
    mPeerAddr := some peer, mPeerAddrlen := peer.length }
  have taken : Taken server (enlisted server world infd con) number peer :=
    enlisted_taken usable lists objects opened fresh.descriptor sameNumber rfl
  refine ⟨_, ?_, taken⟩
  let created : Server := { server with world := world.add con, pc := .created world.created infd }
  let listed := registered created world.created infd true
  have accepts : step server (.accept number peer answers) = some created := by
    rw [worker_runs rfl usable]
    simp only [workerStep, pc, acceptStep, acquires, makes, Option.bind_eq_bind, Option.bind_some,
      peerAddr, if_true]
    rfl
  have createdUsable : created.broken = false := by
    simpa [Server.broken, created, World.add, World.put, lists.connections, lists.new] using usable
  have listedUsable : listed.broken = false := by
    simpa [Server.broken, listed, registered, (push_granted _ (push_free _)).2] using createdUsable
  have announcedUsable : (announced listed world.created true).broken = false := by
    simpa [Server.broken, announced, (push_granted _ (push_free _)).2] using listedUsable
  have registers : step created (.register true) = some listed := by
    rw [worker_runs rfl createdUsable]
    exact congrArg some (register_granted (push_free _))
  have announces : step listed (.announce true) = some (announced listed world.created true) := by
    rw [worker_runs rfl listedUsable]
    exact congrArg some (announce_granted (push_free _))
  have raises : step (announced listed world.created true) .raise =
      some (enlisted server world infd con) := worker_runs rfl announcedUsable
  simp only [acceptTurn, exec, accepts, registers, announces, raises, Option.bind_some]

end Turns

section Loops

variable {server : Server} {backlog : List Pending}

theorem supplied_rest {next : Server} {number : Nat} {peer : List Byte} {answers : AcceptAnswers}
    (supplied : Supplied server (.connection number peer answers :: backlog))
    (taken : Taken server next number peer) : Supplied next backlog := by
  have apart := supplied.apart
  rw [deliverable, List.map_cons, List.nodup_cons] at apart
  refine ⟨fun pending member => supplied.memory pending (List.mem_cons_of_mem _ member), ?_,
    apart.2⟩
  intro entry member
  have different : entry.1 ≠ number := by
    intro same
    exact apart.1 (List.mem_map.mpr ⟨entry, member, same⟩)
  rw [taken.opened entry.1 different]
  exact supplied.unused entry (List.mem_cons_of_mem _ member)

theorem first_taken {number : Nat} {peer : List Byte} {answers : AcceptAnswers}
    (pc : server.pc = .accepting) (usable : server.broken = false)
    (supplied : Supplied server (.connection number peer answers :: backlog)) :
    ∃ next, acceptTurn server number peer answers = some next ∧
      Taken server next number peer ∧ Supplied next backlog := by
  obtain ⟨object, peerAddr⟩ := supplied.memory _ List.mem_cons_self
  have unused := supplied.unused (number, peer) List.mem_cons_self
  obtain ⟨next, turns, taken⟩ := turn_taken pc usable unused object peerAddr
  exact ⟨next, turns, taken, supplied_rest supplied taken⟩

theorem acceptEnd_step (pc : server.pc = .accepting) (usable : server.broken = false) :
    step server .acceptEnd = some { server with pc := .ready } := by
  rw [worker_runs rfl usable]
  simp only [workerStep, pc]

theorem loop_appends (pc : server.pc = .accepting) (usable : server.broken = false)
    (supplied : Supplied server backlog)
    (delivers : ∀ pending ∈ backlog, pending.delivers = true) :
    ∃ after, acceptLoop server backlog = some ⟨after, true⟩ ∧
      Appended server after (deliverable backlog) ∧
      ∀ con, con < server.world.created →
        after.world.objects con = server.world.objects con := by
  induction backlog generalizing server with
  | nil =>
      refine ⟨{ server with pc := .ready }, ?_, ⟨?_, ?_, rfl⟩, fun _ _ => rfl⟩
      · rw [acceptLoop, acceptEnd_step pc usable]
        rfl
      · exact (List.append_nil _).symm
      · exact (List.append_nil _).symm
  | cons pending rest ih =>
      cases pending with
      | failure errno => cases delivers _ List.mem_cons_self
      | connection number peer answers =>
          obtain ⟨next, turns, taken, restSupplied⟩ := first_taken pc usable supplied
          obtain ⟨after, loops, appended, older⟩ := ih taken.stays taken.usable restSupplied
            fun pending member => delivers pending (List.mem_cons_of_mem _ member)
          have spread : places server (deliverable rest).length.succ =
              server.world.created :: places next (deliverable rest).length := by
            rw [places, List.range'_succ, places, taken.created]
          have mine : described after.world server.world.created = some (number, peer) := by
            rw [← taken.described, described, described,
              older server.world.created (by rw [taken.created]; exact Nat.lt_succ_self _)]
          refine ⟨after, ?_, ⟨?_, ?_, ?_⟩, ?_⟩
          · rw [acceptLoop, turns, Option.bind_some, loops]
          · rw [appended.connections, taken.connections, List.append_assoc]
            exact congrArg _ spread.symm
          · rw [appended.newConnections, taken.newConnections, List.append_assoc]
            exact congrArg _ spread.symm
          · change (places server (deliverable rest).length.succ).map _ = _
            rw [spread, List.map_cons, mine, appended.described]
            rfl
          · intro con below
            rw [older con (by rw [taken.created]; exact Nat.lt_succ_of_lt below),
              taken.others con (Nat.ne_of_lt below)]

/-- The first failure ends the loop, whatever is behind it. -/
theorem loop_leaves (pc : server.pc = .accepting) (usable : server.broken = false)
    (supplied : Supplied server backlog)
    (fails : ¬ ∀ pending ∈ backlog, pending.delivers = true) :
    ∃ after, acceptLoop server backlog = some ⟨after, false⟩ := by
  induction backlog generalizing server with
  | nil => exact absurd (fun _ absent => by cases absent) fails
  | cons pending rest ih =>
      cases pending with
      | failure errno =>
          refine ⟨{ server with pc := .ready }, ?_⟩
          rw [acceptLoop, acceptEnd_step pc usable]
          rfl
      | connection number peer answers =>
          obtain ⟨next, turns, taken, restSupplied⟩ := first_taken pc usable supplied
          have later : ¬ ∀ pending ∈ rest, pending.delivers = true := by
            intro delivers
            apply fails
            intro pending member
            rcases List.mem_cons.mp member with rfl | member
            · rfl
            · exact delivers pending member
          obtain ⟨after, loops⟩ := ih taken.stays taken.usable restSupplied later
          exact ⟨after, by rw [acceptLoop, turns, Option.bind_some, loops]⟩

end Loops

section Results

-- One event drains the backlog exactly when `accept()` reports no error but `EAGAIN`.
theorem accept_event_drains (server : Server) (mask : EventMask) (backlog : List Pending)
    (pc : server.pc = .ready) (usable : server.broken = false)
    (readable : mask.epollin = true ∧ mask.epollerr = false ∧ mask.epollhup = false)
    (supplied : Supplied server backlog) :
    ∃ accepted, acceptEvent server mask backlog = some accepted ∧
      (Drained server backlog accepted ↔
        ∀ pending ∈ backlog, pending.delivers = true) := by
  obtain ⟨epollin, epollerr, epollhup⟩ := readable
  let accepting : Server := { server with pc := .accepting }
  have turns : step server (.event server.mServerSocket.number mask) = some accepting := by
    rw [worker_runs rfl usable]
    simp [workerStep, pc, eventStep, epollin, epollerr, epollhup, accepting]
  have begins : accepting.pc = .accepting := rfl
  have same : Supplied accepting backlog := ⟨supplied.memory, supplied.unused, supplied.apart⟩
  by_cases delivers : ∀ pending ∈ backlog, pending.delivers = true
  · obtain ⟨after, loops, appended, _⟩ := loop_appends begins usable same delivers
    refine ⟨⟨after, true⟩, ?_, fun _ => delivers, fun _ => ⟨rfl, ?_⟩⟩
    · rw [acceptEvent, turns, Option.bind_some, loops]
    · exact ⟨appended.connections, appended.newConnections, appended.described⟩
  · obtain ⟨after, loops⟩ := loop_leaves begins usable same delivers
    refine ⟨⟨after, false⟩, ?_, fun drained => ?_, fun all => absurd all delivers⟩
    · rw [acceptEvent, turns, Option.bind_some, loops]
    · cases drained.again

open ServerReferences

-- A client that gives up before `accept()` keeps the one behind it out.
theorem aborted_client_strands : ∃ accepted,
    acceptEvent (.listening 1 3) readable
      [.failure .econnaborted, .connection 5 [2, 0, 31, 144] served] = some accepted ∧
    accepted.server.pc = .ready ∧ accepted.server.world.mConnections.items = [] ∧
    accepted.server.world.mNewConnections.items = [] ∧
    ¬ Drained (.listening 1 3)
      [.failure .econnaborted, .connection 5 [2, 0, 31, 144] served] accepted := by
  refine ⟨_, rfl, rfl, rfl, rfl, ?_⟩
  intro drained
  cases drained.again

theorem two_clients_drained : ∃ accepted,
    acceptEvent (.listening 1 3) readable
      [.connection 5 [2, 0, 31, 144] served, .connection 6 [2, 0, 31, 145] served] =
        some accepted ∧
    accepted.server.world.mNewConnections.items = [0, 1] ∧
    Drained (.listening 1 3)
      [.connection 5 [2, 0, 31, 144] served, .connection 6 [2, 0, 31, 145] served] accepted := by
  have memory : ¬ ObjectRefused served.object := by
    simp [ObjectRefused, QueueRefused, served, zeroed]
  have supplied : Supplied (.listening 1 3)
      [.connection 5 [2, 0, 31, 144] served, .connection 6 [2, 0, 31, 145] served] := by
    refine ⟨?_, ?_, by decide⟩
    · intro pending member
      rcases List.mem_pair.mp member with rfl | rfl
      · exact ⟨memory, rfl⟩
      · exact ⟨memory, rfl⟩
    · intro entry member
      rcases List.mem_pair.mp member with rfl | rfl
      · rfl
      · rfl
  obtain ⟨accepted, accepts, drains⟩ := accept_event_drains (.listening 1 3) readable
    [.connection 5 [2, 0, 31, 144] served, .connection 6 [2, 0, 31, 145] served] rfl rfl
    ⟨rfl, rfl, rfl⟩ supplied
  have drained := drains.mpr (by
    intro pending member
    rcases List.mem_pair.mp member with rfl | rfl
    · rfl
    · rfl)
  exact ⟨accepted, accepts, drained.appended.newConnections, drained⟩

end Results

end Libasock.AcceptLoops
