import Libasock.LockPrograms

/-!
The mutexes of the library in the order in which its code nests them: the
directive slot, the queues, the offered connections of a worker, the reference
counters, the two counters of the process, the log. Each function is written as
what it does to mutexes; the numbers of connections and workers it meets are left
open. Branches that end the process (`abort`, `assert`) are left out.
-/

namespace Libasock.MutexOrder
open GuardedRuns LockPrograms LockPrograms.Program

inductive Queue where
  | mInQueue (con : Nat)
  | mOutQueue (con : Nat)
  deriving DecidableEq

inductive Mutex where
  | mDirectMutex (worker : Nat)
  | mMutex (queue : Queue)
  | mNewConnectionsMutex (worker : Nat)
  | mRefCounterMutex (con : Nat)
  | asockConsNumberMutex
  | sServicesCreatedMutex
  | sMutex
  deriving DecidableEq

open Mutex

def rank : Mutex → Nat
  | mDirectMutex _ => 0
  | mMutex _ => 1
  | mNewConnectionsMutex _ => 2
  | mRefCounterMutex _ => 3
  | asockConsNumberMutex => 4
  | sServicesCreatedMutex => 4
  | sMutex => 5

theorem rank_lt (mutex : Mutex) : rank mutex < 6 := by
  cases mutex <;> simp [rank]

/-- A critical section that does nothing but read and write its data. -/
theorem section_nested (mutex : Mutex) : Nested rank (rank mutex) (holding mutex skip) :=
  Nested.skip.holding (Nat.le_refl _)

section Log

/-- `trace_event`; the level decides whether anything is written. -/
def traceEvent : Program Mutex := optional (holding sMutex skip)

theorem log_nested {floor : Nat} (le : floor ≤ 5) : Nested rank floor traceEvent :=
  (section_nested sMutex).optional.lower le

theorem maybe_log_nested {floor : Nat} (le : floor ≤ 5) :
    Nested rank floor (optional traceEvent) :=
  (log_nested le).optional

end Log

section Containers

def asockVectorCreate : Program Mutex := optional traceEvent

def asockTsqueueCreate : Program Mutex := optional traceEvent

def asockTsqueueHeadLock (queue : Queue) : Program Mutex := lock (mMutex queue)

def asockTsqueueHeadUnlock (queue : Queue) : Program Mutex := unlock (mMutex queue)

/-- A failed `reallocate` is reported with the queue's mutex held. -/
def asockTsqueueEnqueue (queue : Queue) : Program Mutex :=
  holding (mMutex queue) (optional traceEvent)

def asockTsqueueDequeue (queue : Queue) : Program Mutex := holding (mMutex queue) skip

theorem asockTsqueueEnqueue_nested (queue : Queue) :
    Nested rank 1 (asockTsqueueEnqueue queue) :=
  (maybe_log_nested (Nat.le_of_ble_eq_true rfl)).holding (Nat.le_refl _)

theorem asockTsqueueDequeue_nested (queue : Queue) :
    Nested rank 1 (asockTsqueueDequeue queue) :=
  section_nested (mMutex queue)

end Containers

section Objects

def asockGetUniqueServiceId : Program Mutex := holding sServicesCreatedMutex skip

def asockFcreateAsock : Program Mutex :=
  either traceEvent
    (seq asockTsqueueCreate
      (either traceEvent
        (seq asockTsqueueCreate
          (either traceEvent (holding asockConsNumberMutex skip)))))

def asockCreateAsock : Program Mutex := either traceEvent asockFcreateAsock

/-- `NULL` is accepted. -/
def asockDestroyAsock (con : Nat) : Program Mutex :=
  optional (holding (mRefCounterMutex con) skip)

def asockConCounterIncr (con : Nat) : Program Mutex := holding (mRefCounterMutex con) skip

def asockWrite (con : Nat) : Program Mutex := asockTsqueueEnqueue (.mOutQueue con)

def asockRead (con : Nat) : Program Mutex := asockTsqueueDequeue (.mInQueue con)

def asockBind : Program Mutex := optional traceEvent

theorem asockFcreateAsock_nested : Nested rank 4 asockFcreateAsock := by
  have log : Nested rank 4 traceEvent := log_nested (by decide)
  have create : Nested rank 4 asockTsqueueCreate := maybe_log_nested (by decide)
  have number : Nested rank 4 (holding asockConsNumberMutex skip) :=
    section_nested asockConsNumberMutex
  exact log.either (create.seq (log.either (create.seq (log.either number))))

theorem asockCreateAsock_nested : Nested rank 4 asockCreateAsock :=
  (log_nested (by decide)).either asockFcreateAsock_nested

theorem asockDestroyAsock_nested (con : Nat) : Nested rank 3 (asockDestroyAsock con) :=
  (section_nested (mRefCounterMutex con)).optional

theorem asockConCounterIncr_nested (con : Nat) : Nested rank 3 (asockConCounterIncr con) :=
  section_nested (mRefCounterMutex con)

end Objects

section Directives

def asockSendDirective (worker : Nat) : Program Mutex :=
  holding (mDirectMutex worker) (awaiting (mDirectMutex worker))

def asockWaitForDirective (worker : Nat) : Program Mutex :=
  holding (mDirectMutex worker) (awaiting (mDirectMutex worker))

def asockGetDirectiveType (worker : Nat) : Program Mutex := holding (mDirectMutex worker) skip

def asockSetDirectiveResult (worker : Nat) : Program Mutex := holding (mDirectMutex worker) skip

theorem asockGetDirectiveType_nested (worker : Nat) :
    Nested rank 0 (asockGetDirectiveType worker) :=
  section_nested (mDirectMutex worker)

theorem asockSetDirectiveResult_nested (worker : Nat) :
    Nested rank 0 (asockSetDirectiveResult worker) :=
  section_nested (mDirectMutex worker)

end Directives

section Sockets

def makeSocketNonBlocking : Program Mutex := optional traceEvent

def addSocketToEpoll : Program Mutex := optional traceEvent

def addSocketToEpollServer : Program Mutex := optional traceEvent

end Sockets

/-! The passes are the same code in `asock_server.c` and `asock_service.c`. -/

section Passes

/-- `asock_server_close_connection`, `asock_service_close_connection`. -/
def closeConnection (worker : Nat) : Program Mutex :=
  seq (holding (mNewConnectionsMutex worker) skip)
    (optional (choose fun con => seq (optional traceEvent) (asockDestroyAsock con)))

def trySendData (worker : Nat) : Program Mutex :=
  optional (seq traceEvent (closeConnection worker))

/-- The queue stays locked while its head is sent and, on an error, the connection closed. -/
def sendVisit (worker con : Nat) : Program Mutex :=
  seq (asockTsqueueHeadLock (.mOutQueue con))
    (either
      (seq (trySendData worker)
        (seq (asockTsqueueHeadUnlock (.mOutQueue con))
          (optional (asockTsqueueDequeue (.mOutQueue con)))))
      (asockTsqueueHeadUnlock (.mOutQueue con)))

def sendUnsentData (worker : Nat) : Program Mutex :=
  loop (choose fun con => sendVisit worker con)

def checkForConnectionsToClose (worker : Nat) : Program Mutex :=
  loop (optional (closeConnection worker))

def readEvent (worker : Nat) : Program Mutex :=
  seq (loop (optional (choose fun con => asockTsqueueEnqueue (.mInQueue con))))
    (optional (closeConnection worker))

theorem closeConnection_nested (worker : Nat) : Nested rank 2 (closeConnection worker) := by
  have erase : Nested rank 2 (holding (mNewConnectionsMutex worker) skip) :=
    section_nested (mNewConnectionsMutex worker)
  have each : ∀ con, Nested rank 2 (seq (optional traceEvent) (asockDestroyAsock con)) :=
    fun con => (maybe_log_nested (by decide)).seq ((asockDestroyAsock_nested con).lower (by decide))
  exact erase.seq (Nested.choose each).optional

theorem trySendData_nested (worker : Nat) : Nested rank 2 (trySendData worker) :=
  ((log_nested (by decide)).seq (closeConnection_nested worker)).optional

theorem sendVisit_whole (worker con : Nat) : Whole rank (sendVisit worker con) := by
  let out := mMutex (.mOutQueue con)
  have locked : Passes rank (asockTsqueueHeadLock (.mOutQueue con)) [] [out] := by
    refine ⟨?_, rfl⟩
    intro other impossible
    cases impossible
  have inside : Passes rank (trySendData worker) [out] [out] := by
    apply trySendData_nested
    intro other mem
    rw [List.mem_singleton.mp mem]
    exact Nat.lt_succ_self 1
  have unlocked : Passes rank (asockTsqueueHeadUnlock (.mOutQueue con)) [out] [] := rfl
  have dequeued : Whole rank (optional (asockTsqueueDequeue (.mOutQueue con))) :=
    (asockTsqueueDequeue_nested _).optional.whole
  refine ⟨[out], locked, Passes.either ?_ unlocked⟩
  exact ⟨[out], inside, [], unlocked, dequeued⟩

theorem sendUnsentData_whole (worker : Nat) : Whole rank (sendUnsentData worker) :=
  (Whole.choose (sendVisit_whole worker)).loop

theorem checkForConnectionsToClose_nested (worker : Nat) :
    Nested rank 2 (checkForConnectionsToClose worker) :=
  (closeConnection_nested worker).optional.loop

theorem readEvent_nested (worker : Nat) : Nested rank 1 (readEvent worker) := by
  have each : Nested rank 1 (choose fun con => asockTsqueueEnqueue (.mInQueue con)) :=
    Nested.choose fun con => asockTsqueueEnqueue_nested (.mInQueue con)
  exact each.optional.loop.seq ((closeConnection_nested worker).lower (by decide)).optional

end Passes

section Server

/-- The last push of an accept iteration; `refusable` says whether `m_new_connections` may be
out of memory. The refused push goes to its clearing with the mutex still locked. -/
def announce (refusable : Bool) (worker con : Nat) : Program Mutex :=
  let announced := seq (holding (mNewConnectionsMutex worker) skip) (asockConCounterIncr con)
  let refused := seq (lock (mNewConnectionsMutex worker)) (seq traceEvent (asockDestroyAsock con))
  if refusable then either announced refused else announced

def acceptIteration (refusable : Bool) (worker con : Nat) : Program Mutex :=
  let clearing := asockDestroyAsock con
  all [traceEvent, makeSocketNonBlocking, addSocketToEpollServer, asockFcreateAsock,
    either clearing
      (either (seq traceEvent clearing)
        (either (seq traceEvent clearing) (announce refusable worker con)))]

def serverEvent (refusable : Bool) (worker : Nat) : Program Mutex :=
  either (seq traceEvent (closeConnection worker))
    (either (loop (choose fun con => acceptIteration refusable worker con)) (readEvent worker))

def asockServerUpdateState (refusable : Bool) (worker : Nat) : Program Mutex :=
  all [sendUnsentData worker, checkForConnectionsToClose worker, pause, optional traceEvent,
    loop (serverEvent refusable worker)]

def asockServerProcessBindDirective (worker : Nat) : Program Mutex :=
  holding (mDirectMutex worker) (optional traceEvent)

def asockServerChangeNamespace : Program Mutex := optional traceEvent

def asockServerStartServer : Program Mutex :=
  seq makeSocketNonBlocking (optional addSocketToEpollServer)

/-- One turn of the main loop. -/
def serverTurn (refusable : Bool) (worker : Nat) : Program Mutex :=
  all [asockGetDirectiveType worker, optional (asockSetDirectiveResult worker),
    asockServerUpdateState refusable worker]

/-- What follows the `break` of the main loop. -/
def serverStopped (worker : Nat) : Program Mutex :=
  all [asockGetDirectiveType worker, loop (choose fun con => asockDestroyAsock con),
    optional traceEvent, optional traceEvent, asockSetDirectiveResult worker]

def asockServerThreadLoop (refusable : Bool) (worker : Nat) : Program Mutex :=
  seq (optional asockServerChangeNamespace)
    (either traceEvent
      (all [
        loop (all [asockWaitForDirective worker, asockGetDirectiveType worker,
          asockServerProcessBindDirective worker, asockSetDirectiveResult worker]),
        asockWaitForDirective worker, asockGetDirectiveType worker,
        either (asockSetDirectiveResult worker)
          (seq asockServerStartServer
            (either (asockSetDirectiveResult worker)
              (seq (asockSetDirectiveResult worker)
                (seq (loop (serverTurn refusable worker)) (serverStopped worker)))))]))

def asockServerCreateNs : Program Mutex :=
  either traceEvent
    (seq asockVectorCreate
      (optional
        (seq asockVectorCreate
          (optional (seq asockGetUniqueServiceId (either traceEvent (loop pause)))))))

def asockServerBind (worker : Nat) : Program Mutex := optional (asockSendDirective worker)

def asockServerListen (worker : Nat) : Program Mutex := optional (asockSendDirective worker)

/-- The pause is `pthread_join`. -/
def asockServerStop (worker : Nat) : Program Mutex :=
  optional (all [asockSendDirective worker, pause, traceEvent])

def asockServerDestroy (worker : Nat) : Program Mutex :=
  all [optional (asockServerStop worker), optional traceEvent, optional traceEvent]

def asockServerAccept (worker : Nat) : Program Mutex :=
  holding (mNewConnectionsMutex worker) skip

end Server

section Service

def asockServiceTryConnectToPeer : Program Mutex :=
  either traceEvent
    (seq makeSocketNonBlocking
      (either (seq traceEvent (optional traceEvent))
        (either (seq traceEvent (optional traceEvent))
          (seq addSocketToEpoll (optional traceEvent)))))

/-- The offered connections are taken over, and the failed ones destroyed, under the mutex. -/
def takeNewConnections (worker : Nat) : Program Mutex :=
  holding (mNewConnectionsMutex worker)
    (loop (seq asockServiceTryConnectToPeer (optional (choose fun con => asockDestroyAsock con))))

def serviceEvent (worker : Nat) : Program Mutex :=
  either (seq traceEvent (closeConnection worker))
    (seq (optional (closeConnection worker))
      (either (seq traceEvent (closeConnection worker)) (optional (readEvent worker))))

def asockServiceUpdateState (worker : Nat) : Program Mutex :=
  all [takeNewConnections worker, sendUnsentData worker, checkForConnectionsToClose worker, pause,
    optional traceEvent, loop (serviceEvent worker)]

def asockServiceProcessCreateAsockDirective (worker : Nat) : Program Mutex :=
  holding (mDirectMutex worker) asockCreateAsock

def serviceRunning (worker : Nat) : Program Mutex :=
  all [
    loop (all [asockGetDirectiveType worker,
      optional (asockServiceProcessCreateAsockDirective worker),
      optional (asockSetDirectiveResult worker), asockServiceUpdateState worker]),
    asockGetDirectiveType worker,
    holding (mNewConnectionsMutex worker) (loop (choose fun con => asockDestroyAsock con)),
    loop (choose fun con => asockDestroyAsock con),
    optional traceEvent, asockSetDirectiveResult worker]

def asockServiceThreadLoop (worker : Nat) : Program Mutex :=
  all [
    loop (all [asockWaitForDirective worker, asockGetDirectiveType worker,
      optional (seq (asockServiceProcessCreateAsockDirective worker)
        (asockSetDirectiveResult worker))]),
    asockWaitForDirective worker, asockGetDirectiveType worker, asockSetDirectiveResult worker,
    optional (serviceRunning worker)]

def asockServiceCreateNs : Program Mutex :=
  either traceEvent
    (seq asockVectorCreate
      (optional
        (seq asockVectorCreate
          (optional (seq asockGetUniqueServiceId (either traceEvent (loop pause)))))))

def asockServiceStart (worker : Nat) : Program Mutex := optional (asockSendDirective worker)

def asockServiceStop (worker : Nat) : Program Mutex :=
  optional (all [asockSendDirective worker, pause, traceEvent])

def asockServiceDestroy (worker : Nat) : Program Mutex :=
  seq (optional (asockServiceStop worker)) (optional traceEvent)

def asockServiceCreateAsock (worker : Nat) : Program Mutex :=
  optional (seq (asockSendDirective worker) (optional traceEvent))

def asockServiceConnect (worker con : Nat) : Program Mutex :=
  optional
    (either traceEvent
      (seq (asockConCounterIncr con) (holding (mNewConnectionsMutex worker) skip)))

end Service

section Library

def asockServiceMgrGetServiceForNmsp : Program Mutex :=
  optional
    (seq asockServiceCreateNs
      (optional (choose fun worker =>
        seq (asockServiceStart worker) (optional (asockServiceDestroy worker)))))

def asockServiceMgrFreeResources : Program Mutex :=
  loop (choose fun worker => asockServiceDestroy worker)

def asockCreateNs : Program Mutex :=
  seq asockServiceMgrGetServiceForNmsp
    (optional (choose fun worker => asockServiceCreateAsock worker))

def asockConnect (con : Nat) : Program Mutex :=
  seq asockServiceMgrGetServiceForNmsp
    (optional (choose fun worker => asockServiceConnect worker con))

/-- What threads run: the loops of the workers and the calls of `asock.h`. -/
inductive LibraryCall (refusable : Bool) : Program Mutex → Prop where
  | serverThread (worker : Nat) : LibraryCall refusable (asockServerThreadLoop refusable worker)
  | serviceThread (worker : Nat) : LibraryCall refusable (asockServiceThreadLoop worker)
  | deinit : LibraryCall refusable asockServiceMgrFreeResources
  | create : LibraryCall refusable asockCreateNs
  | destroy (con : Nat) : LibraryCall refusable (asockDestroyAsock con)
  | write (con : Nat) : LibraryCall refusable (asockWrite con)
  | read (con : Nat) : LibraryCall refusable (asockRead con)
  | connect (con : Nat) : LibraryCall refusable (asockConnect con)
  | bind : LibraryCall refusable asockBind
  | serverCreate : LibraryCall refusable asockServerCreateNs
  | serverDestroy (worker : Nat) : LibraryCall refusable (asockServerDestroy worker)
  | serverBind (worker : Nat) : LibraryCall refusable (asockServerBind worker)
  | serverListen (worker : Nat) : LibraryCall refusable (asockServerListen worker)
  | serverStop (worker : Nat) : LibraryCall refusable (asockServerStop worker)
  | serverAccept (worker : Nat) : LibraryCall refusable (asockServerAccept worker)

end Library

section Wholes

theorem maybe_log_whole : Whole rank (optional traceEvent) :=
  (maybe_log_nested (Nat.le_refl 5)).whole

theorem log_whole : Whole rank traceEvent := (log_nested (Nat.le_refl 5)).whole

theorem destroy_whole (con : Nat) : Whole rank (asockDestroyAsock con) :=
  (asockDestroyAsock_nested con).whole

theorem asockSendDirective_whole (worker : Nat) : Whole rank (asockSendDirective worker) :=
  Whole.awaiting (mDirectMutex worker)

theorem asockWaitForDirective_whole (worker : Nat) : Whole rank (asockWaitForDirective worker) :=
  Whole.awaiting (mDirectMutex worker)

theorem asockGetDirectiveType_whole (worker : Nat) : Whole rank (asockGetDirectiveType worker) :=
  (asockGetDirectiveType_nested worker).whole

theorem asockSetDirectiveResult_whole (worker : Nat) :
    Whole rank (asockSetDirectiveResult worker) :=
  (asockSetDirectiveResult_nested worker).whole

theorem announce_whole (worker con : Nat) : Whole rank (announce false worker con) :=
  (section_nested (mNewConnectionsMutex worker)).whole.seq (asockConCounterIncr_nested con).whole

theorem acceptIteration_whole (worker con : Nat) :
    Whole rank (acceptIteration false worker con) := by
  have clearing := destroy_whole con
  have logged := log_whole.seq clearing
  have ends := clearing.either (logged.either (logged.either (announce_whole worker con)))
  exact log_whole.followed (maybe_log_whole.followed (maybe_log_whole.followed
    (asockFcreateAsock_nested.whole.followed (ends.followed Whole.done))))

theorem serverEvent_whole (worker : Nat) : Whole rank (serverEvent false worker) := by
  have close := log_whole.seq (closeConnection_nested worker).whole
  have accept := (Whole.choose (acceptIteration_whole worker)).loop
  exact close.either (accept.either (readEvent_nested worker).whole)

theorem asockServerUpdateState_whole (worker : Nat) :
    Whole rank (asockServerUpdateState false worker) :=
  (sendUnsentData_whole worker).followed
    ((checkForConnectionsToClose_nested worker).whole.followed
      (Whole.pause.followed (maybe_log_whole.followed
        ((serverEvent_whole worker).loop.followed Whole.done))))

theorem serverTurn_whole (worker : Nat) : Whole rank (serverTurn false worker) :=
  (asockGetDirectiveType_whole worker).followed
    ((asockSetDirectiveResult_whole worker).optional.followed
      ((asockServerUpdateState_whole worker).followed Whole.done))

theorem serverStopped_whole (worker : Nat) : Whole rank (serverStopped worker) :=
  (asockGetDirectiveType_whole worker).followed ((Whole.choose destroy_whole).loop.followed
    (maybe_log_whole.followed (maybe_log_whole.followed
      ((asockSetDirectiveResult_whole worker).followed Whole.done))))

theorem asockServerProcessBindDirective_whole (worker : Nat) :
    Whole rank (asockServerProcessBindDirective worker) :=
  ((maybe_log_nested (Nat.le_of_ble_eq_true rfl)).holding (Nat.le_refl 0)).whole

theorem asockServerThreadLoop_whole (worker : Nat) :
    Whole rank (asockServerThreadLoop false worker) := by
  have wait := asockWaitForDirective_whole worker
  have type := asockGetDirectiveType_whole worker
  have result := asockSetDirectiveResult_whole worker
  have bind := asockServerProcessBindDirective_whole worker
  have turn := wait.followed (type.followed (bind.followed (result.followed Whole.done)))
  have running := (serverTurn_whole worker).loop.seq (serverStopped_whole worker)
  have started := (maybe_log_whole.seq maybe_log_whole.optional).seq (result.either
    (result.seq running))
  exact maybe_log_whole.optional.seq (log_whole.either
    (turn.loop.followed (wait.followed (type.followed
      ((result.either started).followed Whole.done)))))

theorem asockServiceTryConnectToPeer_nested :
    Nested rank 3 asockServiceTryConnectToPeer := by
  have log : Nested rank 3 traceEvent := log_nested (by decide)
  have maybe : Nested rank 3 (optional traceEvent) := maybe_log_nested (by decide)
  have failed := log.seq maybe
  exact log.either (maybe.seq (failed.either (failed.either (maybe.seq maybe))))

theorem takeNewConnections_nested (worker : Nat) :
    Nested rank 2 (takeNewConnections worker) := by
  have destroyed := Nested.choose asockDestroyAsock_nested
  exact (asockServiceTryConnectToPeer_nested.seq destroyed.optional).loop.holding (Nat.le_refl 2)

theorem serviceEvent_whole (worker : Nat) : Whole rank (serviceEvent worker) := by
  have close := (closeConnection_nested worker).whole
  have logged := log_whole.seq close
  exact logged.either
    (close.optional.seq (logged.either (readEvent_nested worker).whole.optional))

theorem asockServiceUpdateState_whole (worker : Nat) :
    Whole rank (asockServiceUpdateState worker) :=
  (takeNewConnections_nested worker).whole.followed
    ((sendUnsentData_whole worker).followed
      ((checkForConnectionsToClose_nested worker).whole.followed
        (Whole.pause.followed (maybe_log_whole.followed
          ((serviceEvent_whole worker).loop.followed Whole.done)))))

theorem asockServiceProcessCreateAsockDirective_whole (worker : Nat) :
    Whole rank (asockServiceProcessCreateAsockDirective worker) :=
  ((asockCreateAsock_nested.lower (Nat.le_of_ble_eq_true rfl)).holding (Nat.le_refl 0)).whole

theorem serviceRunning_whole (worker : Nat) : Whole rank (serviceRunning worker) := by
  have type := asockGetDirectiveType_whole worker
  have result := asockSetDirectiveResult_whole worker
  have turn := type.followed
    ((asockServiceProcessCreateAsockDirective_whole worker).optional.followed
      (result.optional.followed ((asockServiceUpdateState_whole worker).followed Whole.done)))
  have offered : Nested rank 2 (holding (mNewConnectionsMutex worker)
      (loop (choose fun con => asockDestroyAsock con))) :=
    (Nested.choose asockDestroyAsock_nested).loop.holding (Nat.le_refl 2)
  exact turn.loop.followed (type.followed (offered.whole.followed
    ((Whole.choose destroy_whole).loop.followed
      (maybe_log_whole.followed (result.followed Whole.done)))))

theorem asockServiceThreadLoop_whole (worker : Nat) :
    Whole rank (asockServiceThreadLoop worker) := by
  have wait := asockWaitForDirective_whole worker
  have type := asockGetDirectiveType_whole worker
  have result := asockSetDirectiveResult_whole worker
  have turn := wait.followed (type.followed
    (((asockServiceProcessCreateAsockDirective_whole worker).seq result).optional.followed
      Whole.done))
  exact turn.loop.followed (wait.followed (type.followed (result.followed
    ((serviceRunning_whole worker).optional.followed Whole.done))))

/-- The two constructors of workers take the same mutexes. -/
theorem create_whole : Whole rank asockServiceCreateNs := by
  have vector := maybe_log_whole
  have number := (section_nested sServicesCreatedMutex).whole
  have threads := log_whole.either Whole.pause.loop
  exact log_whole.either
    (vector.seq (vector.seq (number.seq threads).optional).optional)

theorem stop_whole (worker : Nat) : Whole rank (asockServiceStop worker) :=
  ((asockSendDirective_whole worker).followed
    (Whole.pause.followed (log_whole.followed Whole.done))).optional

theorem asockServiceDestroy_whole (worker : Nat) : Whole rank (asockServiceDestroy worker) :=
  (stop_whole worker).optional.seq maybe_log_whole

theorem getService_whole : Whole rank asockServiceMgrGetServiceForNmsp := by
  have each : ∀ worker, Whole rank
      (seq (asockServiceStart worker) (optional (asockServiceDestroy worker))) :=
    fun worker => (asockSendDirective_whole worker).optional.seq
      (asockServiceDestroy_whole worker).optional
  exact (create_whole.seq (Whole.choose each).optional).optional

theorem asockServiceCreateAsock_whole (worker : Nat) :
    Whole rank (asockServiceCreateAsock worker) :=
  ((asockSendDirective_whole worker).seq maybe_log_whole).optional

theorem asockServiceConnect_whole (con worker : Nat) :
    Whole rank (asockServiceConnect worker con) := by
  have offered := (section_nested (mNewConnectionsMutex worker)).whole
  exact (log_whole.either ((asockConCounterIncr_nested con).whole.seq offered)).optional

/-- Every function keeps to the order, if no push on `m_new_connections` is refused. -/
theorem library_whole (program : Program Mutex) (called : LibraryCall false program) :
    Whole rank program := by
  cases called with
  | serverThread worker => exact asockServerThreadLoop_whole worker
  | serviceThread worker => exact asockServiceThreadLoop_whole worker
  | deinit => exact (Whole.choose asockServiceDestroy_whole).loop
  | create => exact getService_whole.seq (Whole.choose asockServiceCreateAsock_whole).optional
  | destroy con => exact destroy_whole con
  | write con => exact (asockTsqueueEnqueue_nested (.mOutQueue con)).whole
  | read con => exact (asockTsqueueDequeue_nested (.mInQueue con)).whole
  | connect con =>
      exact getService_whole.seq (Whole.choose (asockServiceConnect_whole con)).optional
  | bind => exact maybe_log_whole
  | serverCreate => exact create_whole
  | serverDestroy worker =>
      exact (stop_whole worker).optional.followed
        (maybe_log_whole.followed (maybe_log_whole.followed Whole.done))
  | serverBind worker => exact (asockSendDirective_whole worker).optional
  | serverListen worker => exact (asockSendDirective_whole worker).optional
  | serverStop worker => exact stop_whole worker
  | serverAccept worker => exact (section_nested (mNewConnectionsMutex worker)).whole

end Wholes

section RefusedPushes
variable {mutex : Mutex}

theorem announce_keeps (refusable : Bool) (worker con : Nat) :
    Keeps mutex (announce refusable worker con) := by
  have announced : Keeps mutex
      (seq (holding (mNewConnectionsMutex worker) skip) (asockConCounterIncr con)) :=
    (announce_whole worker con).keeps mutex
  have refused : Keeps mutex (seq (lock (mNewConnectionsMutex worker))
      (seq traceEvent (asockDestroyAsock con))) :=
    Keeps.seq trivial ((log_whole.seq (destroy_whole con)).keeps mutex)
  cases refusable with
  | false => exact announced
  | true => exact announced.either refused

theorem acceptIteration_keeps (refusable : Bool) (worker con : Nat) :
    Keeps mutex (acceptIteration refusable worker con) := by
  have clearing := (destroy_whole con).keeps mutex
  have log := log_whole.keeps mutex
  have maybe := maybe_log_whole.keeps mutex
  have ends := clearing.either ((log.seq clearing).either
    ((log.seq clearing).either (announce_keeps refusable worker con)))
  exact log.followed (maybe.followed (maybe.followed
    ((asockFcreateAsock_nested.whole.keeps mutex).followed (ends.followed Keeps.done))))

theorem serverEvent_keeps (refusable : Bool) (worker : Nat) :
    Keeps mutex (serverEvent refusable worker) := by
  have close := (log_whole.seq (closeConnection_nested worker).whole).keeps mutex
  have read := (readEvent_nested worker).whole.keeps mutex
  have accept : Keeps mutex
      (loop (choose fun con => acceptIteration refusable worker con)) :=
    fun con => acceptIteration_keeps refusable worker con
  exact close.either (accept.either read)

theorem asockServerUpdateState_keeps (refusable : Bool) (worker : Nat) :
    Keeps mutex (asockServerUpdateState refusable worker) := by
  have events : Keeps mutex (loop (serverEvent refusable worker)) :=
    serverEvent_keeps refusable worker
  exact ((sendUnsentData_whole worker).keeps mutex).followed
    (((checkForConnectionsToClose_nested worker).whole.keeps mutex).followed
      (Keeps.followed trivial ((maybe_log_whole.keeps mutex).followed
        (events.followed Keeps.done))))

theorem serverTurn_keeps (refusable : Bool) (worker : Nat) :
    Keeps mutex (serverTurn refusable worker) :=
  ((asockGetDirectiveType_whole worker).keeps mutex).followed
    (((asockSetDirectiveResult_whole worker).keeps mutex).optional.followed
      ((asockServerUpdateState_keeps refusable worker).followed Keeps.done))

theorem asockServerThreadLoop_keeps (refusable : Bool) (worker : Nat) :
    Keeps mutex (asockServerThreadLoop refusable worker) := by
  have log := log_whole.keeps mutex
  have maybe := maybe_log_whole.keeps mutex
  have wait := (asockWaitForDirective_whole worker).keeps mutex
  have type := (asockGetDirectiveType_whole worker).keeps mutex
  have result := (asockSetDirectiveResult_whole worker).keeps mutex
  have turn := ((asockWaitForDirective_whole worker).followed
    ((asockGetDirectiveType_whole worker).followed
      ((asockServerProcessBindDirective_whole worker).followed
        ((asockSetDirectiveResult_whole worker).followed Whole.done)))).loop.keeps mutex
  have turns : Keeps mutex (loop (serverTurn refusable worker)) :=
    serverTurn_keeps refusable worker
  have running := turns.seq ((serverStopped_whole worker).keeps mutex)
  have started := ((maybe_log_whole.seq maybe_log_whole.optional).keeps mutex).seq
    (result.either (result.seq running))
  exact maybe.optional.seq (log.either (turn.followed (wait.followed (type.followed
    ((result.either started).followed Keeps.done)))))

/-- No function, refused pushes or not, gives a mutex back without taking it. -/
theorem library_keeps (refusable : Bool) (mutex : Mutex) (program : Program Mutex)
    (called : LibraryCall refusable program) : Keeps mutex program := by
  cases called with
  | serverThread worker => exact asockServerThreadLoop_keeps refusable worker
  | serviceThread worker => exact (library_whole _ (.serviceThread worker)).keeps mutex
  | deinit => exact (library_whole _ .deinit).keeps mutex
  | create => exact (library_whole _ .create).keeps mutex
  | destroy con => exact (library_whole _ (.destroy con)).keeps mutex
  | write con => exact (library_whole _ (.write con)).keeps mutex
  | read con => exact (library_whole _ (.read con)).keeps mutex
  | connect con => exact (library_whole _ (.connect con)).keeps mutex
  | bind => exact (library_whole _ .bind).keeps mutex
  | serverCreate => exact (library_whole _ .serverCreate).keeps mutex
  | serverDestroy worker => exact (library_whole _ (.serverDestroy worker)).keeps mutex
  | serverBind worker => exact (library_whole _ (.serverBind worker)).keeps mutex
  | serverListen worker => exact (library_whole _ (.serverListen worker)).keeps mutex
  | serverStop worker => exact (library_whole _ (.serverStop worker)).keeps mutex
  | serverAccept worker => exact (library_whole _ (.serverAccept worker)).keeps mutex

/-- What a server's thread has left to do when the push on `m_new_connections` was refused: the
clearing, the accept loop, the events, the main loop. -/
def afterRefusedPush (worker con : Nat) : List (Program Mutex) :=
  [seq traceEvent (asockDestroyAsock con), all [],
    loop (choose fun other => acceptIteration true worker other),
    loop (serverEvent true worker), all [], all [],
    loop (serverTurn true worker), serverStopped worker, all []]

theorem afterRefusedPush_retakes (worker con : Nat) :
    Retakes mutex (afterRefusedPush worker con) := by
  have accept : Keeps mutex (loop (choose fun other => acceptIteration true worker other)) :=
    fun other => acceptIteration_keeps true worker other
  have events : Keeps mutex (loop (serverEvent true worker)) := serverEvent_keeps true worker
  have turns : Keeps mutex (loop (serverTurn true worker)) := serverTurn_keeps true worker
  have clearing := (log_whole.seq (destroy_whole con)).keeps mutex
  have stopped := (serverStopped_whole worker).keeps mutex
  exact ⟨clearing, .inr ⟨trivial, .inr ⟨accept, .inr ⟨events, .inr ⟨trivial, .inr ⟨trivial,
    .inr ⟨turns, .inr ⟨stopped, .inr ⟨trivial, .inr trivial⟩⟩⟩⟩⟩⟩⟩⟩⟩

end RefusedPushes

section Results

/-- Any number of threads of users and workers, calling one function of the library after
another, in any order and with any data, while no push on `m_new_connections` is refused. -/
theorem library_locks_safe {threads : List (Thread Mutex)}
    (run : GuardedRun step (Calls (LibraryCall false)) [] threads) : Safe rank threads :=
  run_safe rank_lt library_whole run

theorem library_locks_safe_writing :
    Safe rank [⟨[mMutex (.mOutQueue 3)],
      [seq (optional traceEvent) (unlock (mMutex (.mOutQueue 3)))]⟩,
      ⟨[], [asockWrite 3]⟩] :=
  library_locks_safe
    (.next (.turn 0 0)
      (.next (.turn 0 0)
        (.next (.call 1 (asockWrite 3))
          (.next (.call 0 (asockWrite 3))
            (.next .spawn (.next .spawn .refl trivial rfl) trivial rfl) (.write 3) rfl)
          (.write 3) rfl)
        trivial rfl)
      trivial rfl)

/-- Once a server's thread is past a refused push, nothing unlocks `m_new_connections_mutex`
again: it stays with that thread, and no thread that comes to lock it, this one included,
ever gets it. -/
theorem refused_push_never_unlocked {worker con index : Nat} {first last : List (Thread Mutex)}
    (start : GuardedRun step (Calls (LibraryCall true)) [] first)
    (refused : first[index]? =
      some ⟨[mNewConnectionsMutex worker], afterRefusedPush worker con⟩)
    (run : GuardedRun step (Calls (LibraryCall true)) first last) :
    (∃ thread, last[index]? = some thread ∧ mNewConnectionsMutex worker ∈ thread.held) ∧
      (∀ (other : Nat) (thread : Thread Mutex), last[other]? = some thread →
        mNewConnectionsMutex worker ∈ thread.held → other = index) ∧
      ∀ (other : Nat) (thread : Thread Mutex) (choice : Nat), last[other]? = some thread →
        thread.wants = some (mNewConnectionsMutex worker) →
          step last (.turn other choice) = none := by
  obtain ⟨now, here, has⟩ := held_for_ever (library_keeps true _) run refused
    List.mem_cons_self (afterRefusedPush_retakes worker con)
  have exclusive : Exclusive last := run_exclusive (start.trans run)
  refine ⟨⟨now, here, has⟩, ?_, ?_⟩
  · intro other thread there held
    exact exclusive other index thread now there here _ held has
  · intro other thread choice there wants
    obtain ⟨later, head⟩ := wants_some wants
    have taken : ¬ Free last (mNewConnectionsMutex worker) :=
      fun free => free now (List.mem_of_getElem? here) has
    simp [step, there, advance, head, taken]

/-- The turns of a server's thread from its start to a refused push. -/
def turnsToRefusedPush : List Nat :=
  [0, 0, 0, 1, 0, 0, 0, 0, 0, 0, 0, 0, 0, 0, 0, 0, 0, 0, 0, 1, 0, 0, 0, 0, 0, 0, 1, 0, 0, 0,
    0, 0, 0, 0, 1, 0, 0, 0, 0, 0, 0, 0, 0, 0, 0, 0, 0, 0, 0, 0, 0, 0, 0, 0, 0, 1, 1, 0, 1, 3,
    0, 0, 0, 0, 0, 0, 0, 0, 0, 0, 1, 0, 0, 0, 1, 0, 0, 0, 1, 0, 0, 0, 0, 0, 0, 1, 1, 1, 1, 0,
    0]

theorem refused_push_reached :
    GuardedRun step (Calls (LibraryCall true)) []
      [⟨[mNewConnectionsMutex 2], afterRefusedPush 2 3⟩] := by
  have played : exec step [⟨[], [asockServerThreadLoop true 2]⟩]
      (turnsToRefusedPush.map (Label.turn 0)) =
        some [⟨[mNewConnectionsMutex 2], afterRefusedPush 2 3⟩] := rfl
  have started : GuardedRun step (Calls (LibraryCall true)) []
      [⟨[], [asockServerThreadLoop true 2]⟩] :=
    .next (.call 0 _) (.next .spawn .refl trivial rfl) (.serverThread 2) rfl
  exact started.trans (turns_run played)

theorem refused_push_never_unlocked_accept :
    step [⟨[mNewConnectionsMutex 2], afterRefusedPush 2 3⟩,
      ⟨[], [lock (mNewConnectionsMutex 2), seq skip (unlock (mNewConnectionsMutex 2))]⟩]
        (.turn 1 0) = none :=
  (@refused_push_never_unlocked 2 3 0 _ _ refused_push_reached rfl
    (.next (.turn 1 0)
      (.next (.call 1 (asockServerAccept 2)) (.next .spawn .refl trivial rfl)
        (.serverAccept 2) rfl)
      trivial rfl)).2.2 1 _ 0 rfl rfl

end Results

end Libasock.MutexOrder
