import Libasock.DownwardPasses

/-!
What a visit of either pass can do, and the passes as runs of the step relations:
the send pass is a run of `SendPass` in which no user comes in between, and the
close pass one of the server or of the service that it belongs to.
-/

namespace Libasock.UndisturbedPasses
open ByteBlocks GuardedRuns NumberReuse ReturnCodes TsqueueModel ConnectionObjects WorkerWorld
  RegisteredConnections SendPass DownwardLoops DownwardPasses

section Visits

variable {status : ServiceStatus} {workerId : Int} {answers : ConRef → SendAnswer}
  {walk next : Walk} {con : ConRef}

/-- Everything one visit of the send pass can do. -/
inductive SendVisited (status : ServiceStatus) (workerId : Int) (answers : ConRef → SendAnswer)
    (walk : Walk) (con : ConRef) : Walk → Prop where
  | empty (object : Object) (found : walk.world.objects con = some object)
      (offers : object.con.offered = none) : SendVisited status workerId answers walk con walk
  | refused (object : Object) (data : List Byte) (found : walk.world.objects con = some object)
      (offers : object.con.offered = some data)
      (result : object.con.trySendData status workerId (connectionIds walk.world)
        (kernelSend (answers con) data) = .refused) :
      SendVisited status workerId answers walk con walk
  | closed (object : Object) (data : List Byte) (fd : Descriptor)
      (found : walk.world.objects con = some object) (offers : object.con.offered = some data)
      (result : object.con.trySendData status workerId (connectionIds walk.world)
        (kernelSend (answers con) data) = .closing) (remembers : object.con.mSockDesc = some fd) :
      SendVisited status workerId answers walk con
        { walk with
          world := (walk.world.closeConnection fd.number).2
          sends := walk.sends ++ [(con, data)] }
  | popped (object : Object) (data : List Byte) (count : Nat) (after : Asock)
      (found : walk.world.objects con = some object) (offers : object.con.offered = some data)
      (result : object.con.trySendData status workerId (connectionIds walk.world)
        (kernelSend (answers con) data) = .sent count)
      (pops : object.con.pop count = .ok after) :
      SendVisited status workerId answers walk con
        { walk with
          world := walk.world.put con { object with con := after }
          sends := walk.sends ++ [(con, data)] }

theorem closed_own {world after : World} {con : Asock} (closes : closeOwn world con = .ok after) :
    ∃ fd, con.mSockDesc = some fd ∧ after = (world.closeConnection fd.number).2 := by
  unfold closeOwn at closes
  cases remembers : con.mSockDesc with
  | none => simp [remembers] at closes
  | some fd =>
      simp only [remembers, Except.ok.injEq] at closes
      exact ⟨fd, rfl, closes.symm⟩

theorem send_visited (visits : sendVisit status workerId answers walk con = .ok next) :
    SendVisited status workerId answers walk con next := by
  unfold sendVisit at visits
  cases found : walk.world.objects con with
  | none => simp [found] at visits
  | some object =>
      simp only [found] at visits
      cases offers : object.con.offered with
      | none =>
          simp only [offers] at visits
          cases visits
          exact .empty object found offers
      | some data =>
          simp only [offers] at visits
          split at visits
          case isTrue => cases visits
          cases result : object.con.trySendData status workerId (connectionIds walk.world)
              (kernelSend (answers con) data) with
          | refused =>
              simp only [result] at visits
              cases visits
              exact .refused object data found offers result
          | closing =>
              simp only [result] at visits
              obtain ⟨after, closes, same⟩ := mapped visits
              subst same
              obtain ⟨fd, remembers, same⟩ := closed_own closes
              subst same
              exact .closed object data fd found offers result remembers
          | sent count =>
              simp only [result] at visits
              split at visits
              case isFalse => cases visits
              obtain ⟨after, pops, same⟩ := mapped visits
              subst same
              exact .popped object data count after found offers result pops

/-- A visit of the close pass closes the connection or does nothing. -/
theorem close_visited (visits : closeVisit walk con = .ok next) :
    next = walk ∨ ∃ object fd, walk.world.objects con = some object ∧
      object.con.mDisconnect = true ∧ object.con.mSockDesc = some fd ∧
      next = { walk with world := (walk.world.closeConnection fd.number).2 } := by
  unfold closeVisit at visits
  cases found : walk.world.objects con with
  | none => simp [found] at visits
  | some object =>
      simp only [found] at visits
      split at visits
      case isTrue disconnected =>
        obtain ⟨world, closes, same⟩ := mapped visits
        obtain ⟨fd, remembers, closed⟩ := closed_own closes
        rw [closed] at same
        exact .inr ⟨object, fd, rfl, disconnected, remembers, same.symm⟩
      case isFalse => exact .inl (Except.ok.inj visits).symm

theorem visited_item {list : Connections} {index : Nat}
    (fetched : connectionsAt list index = .ok con) :
    list.lost = false ∧ list.items[index]? = some con := by
  unfold connectionsAt at fetched
  split at fetched
  case isTrue => cases fetched
  case isFalse usable =>
    cases here : list.items[index]? with
    | none => simp [here] at fetched
    | some other =>
        simp only [here, Except.ok.injEq] at fetched
        rw [fetched]
        exact ⟨eq_false_of_ne_true usable, rfl⟩

end Visits

section SendRuns

/-- Where the pass is; what it has touched by then does not matter. -/
structure Stands (status : ServiceStatus) (workerId : Int) (world : World) (pc : Pc)
    (pass : Pass) : Prop where
  status : pass.status = status
  workerId : pass.workerId = workerId
  world : pass.world = world
  pc : pass.pc = pc

variable {status : ServiceStatus} {workerId : Int} {world : World} {left : Nat} {con : ConRef}
  {object : Object} {data : List Byte} {pass : Pass}

/-- The next operation of the worker leads there. -/
def Leads (pass : Pass) (status : ServiceStatus) (workerId : Int) (world : World) (pc : Pc) : Prop :=
  ∃ later answer, step pass (.turn answer) = some later ∧ Stands status workerId world pc later

theorem lock_turn (stands : Stands status workerId world (.visiting (left + 1)) pass)
    (here : world.mConnections.items[left]? = some con) :
    Leads pass status workerId world (.measuring left con) := by
  obtain ⟨rfl, rfl, rfl, pc⟩ := stands
  refine ⟨(pass.touch con .headLock).goto (.measuring left con), .again, ?_, rfl, rfl, rfl, rfl⟩
  simp [step, turn, pc, here]

theorem empty_turn (stands : Stands status workerId world (.measuring left con) pass)
    (found : world.objects con = some object) (offers : object.con.offered = none) :
    Leads pass status workerId world (.unlocking left con none) := by
  obtain ⟨rfl, rfl, rfl, pc⟩ := stands
  refine ⟨(pass.touch con .headSize).goto (.unlocking left con none), .again, ?_, rfl, rfl, rfl, rfl⟩
  simp [step, turn, pc, found, offers]

theorem head_turn (stands : Stands status workerId world (.measuring left con) pass)
    (found : world.objects con = some object) (offers : object.con.offered = some data) :
    Leads pass status workerId world (.trying left con data) := by
  obtain ⟨rfl, rfl, rfl, pc⟩ := stands
  refine ⟨((pass.touch con .headSize).touch con .head).goto (.trying left con data), .again, ?_, rfl,
    rfl, rfl, rfl⟩
  simp [step, turn, pc, found, offers]

theorem looked_stands (pass : Pass) (con : ConRef) (object : Object) (pc : Pc) :
    Stands pass.status pass.workerId pass.world pc
      (((pass.touch con .read).search object).goto pc) := by
  obtain ⟨cons, _, searches⟩ := searched (pass.touch con .read) object
  rw [searches]
  exact ⟨rfl, rfl, rfl, rfl⟩

theorem refused_turn {answer : SendAnswer}
    (stands : Stands status workerId world (.trying left con data) pass)
    (found : world.objects con = some object)
    (result : object.con.trySendData status workerId (connectionIds world) answer = .refused) :
    Leads pass status workerId world (.unlocking left con none) := by
  obtain ⟨rfl, rfl, rfl, pc⟩ := stands
  refine ⟨_, answer, ?_, looked_stands pass con object _⟩
  simp [step, turn, pc, found, result]

theorem took_turn {answer : SendAnswer} {count : Nat}
    (stands : Stands status workerId world (.trying left con data) pass)
    (found : world.objects con = some object)
    (result : object.con.trySendData status workerId (connectionIds world) answer = .sent count)
    (within : count ≤ data.length) :
    Leads pass status workerId world (.unlocking left con (some count)) := by
  obtain ⟨rfl, rfl, rfl, pc⟩ := stands
  refine ⟨_, answer, ?_, looked_stands pass con object _⟩
  simp [step, turn, pc, found, result, within]

theorem failed_turn {answer : SendAnswer}
    (stands : Stands status workerId world (.trying left con data) pass)
    (found : world.objects con = some object)
    (result : object.con.trySendData status workerId (connectionIds world) answer = .closing) :
    Leads pass status workerId world (.closing left con) := by
  obtain ⟨rfl, rfl, rfl, pc⟩ := stands
  refine ⟨_, answer, ?_, looked_stands pass con object _⟩
  simp [step, turn, pc, found, result]

theorem shut_turn {fd : Descriptor} (stands : Stands status workerId world (.closing left con) pass)
    (found : world.objects con = some object) (remembers : object.con.mSockDesc = some fd) :
    Leads pass status workerId (world.shut fd.number).2
      (afterShut left con (world.shut fd.number).1) := by
  obtain ⟨rfl, rfl, rfl, pc⟩ := stands
  refine ⟨{ pass.touch con .read with world := (pass.world.shut fd.number).2 }.goto
    (afterShut left con (pass.world.shut fd.number).1), .again, ?_, rfl, rfl, rfl, rfl⟩
  simp [step, turn, pc, found, remembers]

theorem drop_turn {target : ConRef} {index : Nat}
    (stands : Stands status workerId world (.dropping left con target index) pass) :
    Leads pass status workerId (world.dropAt target index) (.unlocking left con none) := by
  obtain ⟨rfl, rfl, rfl, pc⟩ := stands
  refine ⟨(pass.drop (pass.world.dropAt target index)).goto (.unlocking left con none), .again, ?_,
    rfl, rfl, rfl, rfl⟩
  simp [step, turn, pc]

theorem unlock_turn (stands : Stands status workerId world (.unlocking left con none) pass) :
    Leads pass status workerId world (.visiting left) := by
  obtain ⟨rfl, rfl, rfl, pc⟩ := stands
  refine ⟨(pass.touch con .headUnlock).goto (.visiting left), .again, ?_, rfl, rfl, rfl, rfl⟩
  simp [step, turn, pc]

theorem sent_turn {count : Nat}
    (stands : Stands status workerId world (.unlocking left con (some count)) pass) :
    Leads pass status workerId world (.dequeuing left con count) := by
  obtain ⟨rfl, rfl, rfl, pc⟩ := stands
  refine ⟨(pass.touch con .headUnlock).goto (.dequeuing left con count), .again, ?_, rfl, rfl, rfl,
    rfl⟩
  simp [step, turn, pc]

theorem pop_turn {count : Nat} {after : Asock}
    (stands : Stands status workerId world (.dequeuing left con count) pass)
    (found : world.objects con = some object) (pops : object.con.pop count = .ok after) :
    Leads pass status workerId (world.put con { object with con := after }) (.visiting left) := by
  obtain ⟨rfl, rfl, rfl, pc⟩ := stands
  refine ⟨{ pass.touch con .dequeue with
    world := pass.world.put con { object with con := after } }.goto (.visiting left), .again, ?_, rfl,
    rfl, rfl, rfl⟩
  simp [step, turn, pc, found, pops]

def Reaches (first : Pass) (status : ServiceStatus) (workerId : Int) (world : World) (pc : Pc) :
    Prop :=
  ∃ pass, Run step first pass ∧ Stands status workerId world pc pass

theorem reaches_next {first : Pass} {after : World} {pc next : Pc}
    (reaches : Reaches first status workerId world pc)
    (turns : ∀ pass, Stands status workerId world pc pass →
      Leads pass status workerId after next) : Reaches first status workerId after next := by
  obtain ⟨pass, runs, stands⟩ := reaches
  obtain ⟨later, answer, steps, there⟩ := turns pass stands
  exact ⟨later, .next (.turn answer) runs trivial steps, there⟩

/-- Both halves of a close, with no user in between. -/
theorem close_reaches {first : Pass} {fd : Descriptor}
    (reaches : Reaches first status workerId world (.closing left con))
    (found : world.objects con = some object) (remembers : object.con.mSockDesc = some fd) :
    Reaches first status workerId (world.closeConnection fd.number).2 (.unlocking left con none) := by
  have shut := reaches_next reaches fun _ stands => shut_turn stands found remembers
  rw [close_halves]
  cases half : (world.shut fd.number).1 with
  | none =>
      rw [half] at shut
      exact shut
  | some target =>
      rw [half] at shut
      exact reaches_next shut fun _ stands => drop_turn stands

/-- A visit is two to six operations of the worker. -/
theorem visit_reaches {first : Pass} {answers : ConRef → SendAnswer} {walk next : Walk}
    (visited : SendVisited status workerId answers walk con next)
    (reaches : Reaches first status workerId walk.world (.visiting (left + 1)))
    (here : walk.world.mConnections.items[left]? = some con) :
    Reaches first status workerId next.world (.visiting left) := by
  -- the queue is locked and measured whatever comes after
  have measuring := reaches_next reaches fun _ stands => lock_turn stands here
  cases visited with
  | empty object found offers =>
      have unlocking := reaches_next measuring fun _ stands => empty_turn stands found offers
      exact reaches_next unlocking fun _ stands => unlock_turn stands
  | refused object data found offers result =>
      have trying := reaches_next measuring fun _ stands => head_turn stands found offers
      have unlocking := reaches_next trying fun _ stands => refused_turn stands found result
      exact reaches_next unlocking fun _ stands => unlock_turn stands
  | closed object data fd found offers result remembers =>
      have trying := reaches_next measuring fun _ stands => head_turn stands found offers
      have closing := reaches_next trying fun _ stands => failed_turn stands found result
      have unlocking := close_reaches closing found remembers
      exact reaches_next unlocking fun _ stands => unlock_turn stands
  | popped object data count after found offers result pops =>
      have within : count ≤ data.length := by
        rcases trySend_sent result with took | ⟨_, rfl⟩
        · exact kernelSend_took took
        · exact Nat.zero_le _
      have trying := reaches_next measuring fun _ stands => head_turn stands found offers
      have unlocking := reaches_next trying fun _ stands => took_turn stands found result within
      have dequeuing := reaches_next unlocking fun _ stands => sent_turn stands
      exact reaches_next dequeuing fun _ stands => pop_turn stands found pops

/-- The send pass without users is a run of the one with users. -/
theorem send_pass_reaches {answers : ConRef → SendAnswer} {fuel : Nat} {after : Walk}
    (sized : world.mConnections.items.length < sizeBound)
    (passes : sendUnsentData fuel status workerId answers world = .ok after) :
    Reaches (begin status workerId world) status workerId after.world (.visiting 0) := by
  refine walkFrom_carries
    (fun left walk => Reaches (begin status workerId world) status workerId walk.world
      (.visiting left)) sized ?_ (Nat.le_refl _) passes ?_
  · intro index _ walk next turns reaches
    obtain ⟨con, fetched, visits⟩ := sequenced turns
    exact visit_reaches (send_visited visits) reaches (visited_item fetched).2
  · exact ⟨begin status workerId world, .refl, rfl, rfl, rfl, rfl⟩

end SendRuns

section CloseRuns

variable {world : World} {fuel : Nat} {after : Walk}

theorem close_new_usable (world : World) (number : Nat) :
    (world.closeConnection number).2.mNewConnections.lost = world.mNewConnections.lost := by
  have forgets : (world.forgetNew number).mNewConnections.lost = world.mNewConnections.lost := by
    unfold World.forgetNew
    split <;> rfl
  rcases close_cases world number with ⟨_, same⟩ | ⟨con, index, _, _, _, same⟩
  · rw [same, forgets]
  · rw [same, (closeAt_lists _ con index).2, forgets]

/-- A close that the pass makes of a usable world. -/
structure Closable (world : World) (con : ConRef) (object : Object) (fd : Descriptor) : Prop where
  connections : world.mConnections.lost = false
  newConnections : world.mNewConnections.lost = false
  listed : con ∈ world.mConnections.items
  found : world.objects con = some object
  disconnected : object.con.mDisconnect = true
  remembers : object.con.mSockDesc = some fd

/-- The close pass of a worker, seen as what its step does to a world. -/
theorem close_pass_runs {State Label : Type} {step : State → Label → Option State}
    (within : World → State) (disconnect : ConRef → Label)
    (closes : ∀ {world con object fd}, Closable world con object fd →
      step (within world) (disconnect con) = some (within (world.closeConnection fd.number).2))
    (sized : world.mConnections.items.length < sizeBound)
    (usable : world.mNewConnections.lost = false)
    (passes : checkForConnectionsToClose fuel world = .ok after) :
    Run step (within world) (within after.world) := by
  have carried := walkFrom_carries
    (fun _ walk => walk.world.mNewConnections.lost = false ∧
      Run step (within world) (within walk.world)) sized ?_ (Nat.le_refl _) passes ⟨usable, .refl⟩
  · exact carried.2
  · rintro index _ walk next turns ⟨newUsable, runs⟩
    obtain ⟨con, fetched, visits⟩ := sequenced turns
    obtain ⟨connections, here⟩ := visited_item fetched
    rcases close_visited visits with same | ⟨object, fd, found, disconnected, remembers, same⟩
    · rw [same]
      exact ⟨newUsable, runs⟩
    · have closable : Closable walk.world con object fd :=
        ⟨connections, newUsable, List.mem_of_getElem? here, found, disconnected, remembers⟩
      rw [same]
      exact ⟨(close_new_usable walk.world fd.number).trans newUsable,
        .next (disconnect con) runs trivial (closes closable)⟩

/-- `asock_server_check_for_connections_to_close` between two updates of a server. -/
theorem close_pass_server {server : ServerWorker.Server} (ready : server.pc = .ready)
    (sized : server.world.mConnections.items.length < sizeBound)
    (usable : server.world.mNewConnections.lost = false)
    (passes : checkForConnectionsToClose fuel server.world = .ok after) :
    Run ServerWorker.step server { server with world := after.world } := by
  refine close_pass_runs (fun world => { server with world := world })
    ServerWorker.Label.disconnect (fun closable => ?_) sized usable passes
  simp [ServerWorker.step, ServerWorker.Label.byUser, ServerWorker.Server.broken,
    ServerWorker.workerStep, ServerWorker.closeRegistered, ServerWorker.closeNumber, ready,
    closable.connections, closable.newConnections, closable.listed, closable.found,
    closable.disconnected, closable.remembers]

theorem close_pass_service {service : ServiceWorker.Service} (ready : service.pc = .ready)
    (sized : service.world.mConnections.items.length < sizeBound)
    (usable : service.world.mNewConnections.lost = false)
    (passes : checkForConnectionsToClose fuel service.world = .ok after) :
    Run ServiceWorker.step service { service with world := after.world } := by
  refine close_pass_runs (fun world => { service with world := world })
    ServiceWorker.Label.disconnect (fun closable => ?_) sized usable passes
  simp [ServiceWorker.step, ServiceWorker.Label.byUser, ServiceWorker.Service.broken,
    ServiceWorker.workerStep, ServiceWorker.closeRegistered, ServiceWorker.closeNumber, ready,
    closable.connections, closable.newConnections, closable.listed, closable.found,
    closable.disconnected, closable.remembers]

end CloseRuns

end Libasock.UndisturbedPasses
