import Libasock.BlockLedger
import Libasock.GuardedRuns
import Libasock.ConnectionVectors
import Libasock.DirectiveSlot

/-!
The memory, the descriptors and the threads of servers and services, from
`asock_server_create_ns` and `asock_service_create_ns` with every branch that fails
to `asock_server_destroy` and `asock_service_destroy`. What a branch has acquired
and no longer knows goes to the `lost` list of its ledger.
-/

namespace Libasock.HostResources
open GuardedRuns BlockLedger
open DirectiveSlot (Role)
open VectorModel (CreateAnswers)

structure Process where
  memory : Ledger
  descs : Ledger
  /-- Threads that are to be joined. -/
  threads : Ledger

structure VectorCell where
  self : Block
  mData : Option Block
  deriving DecidableEq

inductive Stage where
  | configuring | running
  /-- The listening socket could not be set up; the worker has ended. -/
  | failed
  | stopped | destroyed
  deriving DecidableEq

/-- A server or a service. -/
structure HostCell where
  role : Role
  self : Block
  mConnections : VectorCell
  mNewConnections : VectorCell
  mEpollDesc : Block
  mServerSocket : Option Block
  mNetNs : Option Block
  mNetNsFd : Option Block
  mThread : Option Block
  stage : Stage
  deriving DecidableEq

/-- `open()` on the namespace's file and `setns()`. -/
structure NamespaceAnswers where
  opened : Bool
  entered : Bool

structure HostAnswers where
  objectAlloc : Bool
  mutexInit : Bool
  epollCreate : Bool
  connections : CreateAnswers
  newConnections : CreateAnswers
  strdup : Bool
  pthreadCreate : Bool
  nms : NamespaceAnswers
  socket : Bool
  setsockopt : Bool

section Lists

/-- `asock_connections_create` -/
def createVector (answers : CreateAnswers) (memory : Ledger) : Option VectorCell × Ledger :=
  if answers.structAlloc = false then (none, memory)
  else
    let self := memory.fresh
    let memory := memory.take
    if answers.dataAlloc.isNone then (none, memory.release (some self))
    else (some ⟨self, some memory.fresh⟩, memory.take)

/-- `asock_connections_destroy` -/
def destroyVector (memory : Ledger) (vector : VectorCell) : Ledger :=
  ((memory.touch (some vector.self)).release vector.mData).release (some vector.self)

/-- A push that needs a larger block; `reallocate` stores what `realloc` returns. -/
def growVector (memory : Ledger) (vector : VectorCell) (granted : Bool) : VectorCell × Ledger :=
  let memory := memory.touch (some vector.self)
  if granted then
    let memory := memory.release vector.mData
    ({ vector with mData := some memory.fresh }, memory.take)
  else ({ vector with mData := none }, memory.drop vector.mData)

end Lists

section Creation

/-- Both functions begin so: the object, its `epoll` descriptor and its two lists. -/
def allocate (role : Role) (answers : HostAnswers) (process : Process) :
    Option HostCell × Process :=
  if answers.objectAlloc = false then (none, process)
  else
    let self := process.memory.fresh
    let memory := process.memory.take
    if answers.mutexInit = false ∨ answers.epollCreate = false then
      (none, { process with memory := memory.release (some self) })
    else
      let epoll := process.descs.fresh
      let descs := process.descs.take
      match createVector answers.connections memory with
      | (none, memory) =>
          (none, ⟨memory.release (some self), descs.drop (some epoll), process.threads⟩)
      | (some connections, memory) =>
          match createVector answers.newConnections memory with
          | (none, memory) =>
              (none, ⟨(destroyVector memory connections).release (some self),
                descs.drop (some epoll), process.threads⟩)
          | (some newConnections, memory) =>
              (some ⟨role, self, connections, newConnections, epoll, none, none, none, none,
                .configuring⟩, ⟨memory, descs, process.threads⟩)

/-- The lists and the object itself are freed. -/
def freeHost (cell : HostCell) (memory : Ledger) : Ledger :=
  (destroyVector (destroyVector memory cell.mNewConnections) cell.mConnections).release
    (some cell.self)

/-- After `pthread_create` has failed or the worker has given up: the name, the descriptor of
the namespace and the thread are not thought of. -/
def abandon (cell : HostCell) (process : Process) : Process :=
  ⟨(freeHost cell process.memory).drop cell.mNetNs,
    (process.descs.release (some cell.mEpollDesc)).drop cell.mNetNsFd,
    process.threads.drop cell.mThread⟩

/-- `asock_server_change_namespace` -/
def changeNamespace (netNs : String) (answers : NamespaceAnswers) (cell : HostCell)
    (process : Process) : HostCell × Process :=
  if netNs ≠ "" then
    if answers.opened = false then
      ({ cell with mNetNs := none },
        { process with memory := process.memory.release cell.mNetNs })
    else
      let nms := process.descs.fresh
      let descs := process.descs.take
      if answers.entered = false then
        ({ cell with mNetNs := none },
          { process with
            memory := process.memory.release cell.mNetNs
            descs := descs.release (some nms) })
      else ({ cell with mNetNsFd := some nms }, { process with descs := descs })
  else ({ cell with mNetNsFd := none }, process)

/-- `asock_server_thread_loop` up to the status it sets: whether that is `Configuration`. -/
def threadBegin (netNs : Option String) (answers : HostAnswers) (cell : HostCell)
    (process : Process) : Bool × HostCell × Process :=
  let (cell, process) :=
    match netNs with
    | none => (cell, process)
    | some netNs => changeNamespace netNs answers.nms cell process
  if answers.socket = false then (false, cell, process)
  else
    let sockD := process.descs.fresh
    let descs := process.descs.take
    if answers.setsockopt = false then
      (false, cell, { process with descs := descs.release (some sockD) })
    else (true, { cell with mServerSocket := some sockD }, { process with descs := descs })

/-- The worker of a service sets `Configuration` at once. -/
def roleBegin (netNs : Option String) (answers : HostAnswers) (cell : HostCell)
    (process : Process) : Bool × HostCell × Process :=
  match cell.role with
  | .server => threadBegin netNs answers cell process
  | .service => (true, cell, process)

/-- From `pthread_create` to the end. -/
def launch (netNs : Option String) (answers : HostAnswers) (cell : HostCell) (process : Process) :
    Option HostCell × Process :=
  if answers.pthreadCreate = false then (none, abandon cell process)
  else
    let cell := { cell with mThread := some process.threads.fresh }
    let process := { process with threads := process.threads.take }
    let (configured, cell, process) := roleBegin netNs answers cell process
    if configured then (some cell, process) else (none, abandon cell process)

/-- `asock_server_create_ns`, `asock_service_create_ns`. Without a copy of the name only the
server closes its `epoll` descriptor. -/
def createNs (role : Role) (netNs : Option String) (answers : HostAnswers) (process : Process) :
    Option HostCell × Process :=
  match allocate role answers process with
  | (none, process) => (none, process)
  | (some cell, process) =>
      if netNs.isNone then launch netNs answers cell process
      else if answers.strdup = false then
        let memory := freeHost cell process.memory
        match role with
        | .server => (none, { process with
            memory := memory, descs := process.descs.release (some cell.mEpollDesc) })
        | .service => (none, { process with
            memory := memory, descs := process.descs.drop (some cell.mEpollDesc) })
      else
        launch netNs answers { cell with mNetNs := some process.memory.fresh }
          { process with memory := process.memory.take }

end Creation

section Lifetime

/-- `asock_server_listen`, `asock_service_start`; the worker of a service always starts. -/
def start (cell : HostCell) (started : Bool) : Option HostCell :=
  if cell.stage ≠ .configuring then none
  else if started then some { cell with stage := .running }
  else
    match cell.role with
    | .server => some { cell with stage := .failed }
    | .service => none

/-- `asock_server_stop`, `asock_service_stop`: the worker gives back what it has, and is joined. -/
def stop (cell : HostCell) (process : Process) : HostCell × Process :=
  if cell.stage = .running then
    ({ cell with
        mServerSocket := none
        mNetNsFd := none
        mNetNs := none
        mThread := none
        stage := .stopped },
      ⟨process.memory.release cell.mNetNs,
        (process.descs.release cell.mServerSocket).release cell.mNetNsFd,
        process.threads.release cell.mThread⟩)
  else (cell, process)

/-- The rest of a destroy, once the worker has ended. A server whose start failed has a listening
socket and a thread that nobody remembers. -/
def giveBack (cell : HostCell) (process : Process) : Process :=
  let memory := destroyVector (destroyVector process.memory cell.mNewConnections)
    cell.mConnections
  let descs := (process.descs.release (some cell.mEpollDesc)).release cell.mNetNsFd
  ⟨(memory.release cell.mNetNs).release (some cell.self),
    descs.drop cell.mServerSocket, process.threads.drop cell.mThread⟩

/-- `asock_server_destroy`, `asock_service_destroy` -/
def destroy (cell : HostCell) (process : Process) : HostCell × Process :=
  let process := { process with memory := process.memory.touch (some cell.self) }
  let (cell, process) := stop cell process
  ({ cell with stage := .destroyed }, giveBack cell process)

/-- A call or a turn of the worker that acquires nothing. -/
def use (cell : HostCell) (process : Process) : Process :=
  let memory := process.memory.touch (some cell.self)
  { process with
    memory := (memory.touch (some cell.mConnections.self)).touch
      (some cell.mNewConnections.self) }

inductive Which where
  | mConnections | mNewConnections
  deriving DecidableEq

def HostCell.vector (cell : HostCell) : Which → VectorCell
  | .mConnections => cell.mConnections
  | .mNewConnections => cell.mNewConnections

def HostCell.setVector (cell : HostCell) (which : Which) (vector : VectorCell) : HostCell :=
  match which with
  | .mConnections => { cell with mConnections := vector }
  | .mNewConnections => { cell with mNewConnections := vector }

def grow (cell : HostCell) (which : Which) (granted : Bool) (process : Process) :
    HostCell × Process :=
  let memory := process.memory.touch (some cell.self)
  let (vector, memory) := growVector memory (cell.vector which) granted
  (cell.setVector which vector, { process with memory := memory })

end Lifetime

section World

/-- Lost memory blocks, descriptors and threads. -/
structure Waste where
  blocks : Nat
  descs : Nat
  threads : Nat
  deriving DecidableEq

def Waste.nothing : Waste := ⟨0, 0, 0⟩

def Waste.plus (first second : Waste) : Waste :=
  ⟨first.blocks + second.blocks, first.descs + second.descs, first.threads + second.threads⟩

structure World where
  process : Process
  hosts : List HostCell
  wasted : Waste

def World.empty : World := ⟨⟨.empty, .empty, .empty⟩, [], .nothing⟩

inductive Label where
  | create (role : Role) (netNs : Option String) (answers : HostAnswers)
  | start (host : Nat) (started : Bool)
  | use (host : Nat)
  | grow (host : Nat) (which : Which) (granted : Bool)
  | stop (host : Nat)
  | destroy (host : Nat)

def World.update (world : World) (host : Nat) (result : HostCell × Process) : World :=
  { world with process := result.2, hosts := world.hosts.set host result.1 }

def perform (world : World) : Label → Option World
  | .create role netNs answers =>
      let (made, process) := createNs role netNs answers world.process
      some { world with process := process, hosts := world.hosts ++ made.toList }
  | .start host started => (world.hosts[host]?).bind fun cell =>
      (start cell started).map fun next => world.update host (next, world.process)
  | .use host => world.hosts[host]?.map fun cell =>
      { world with process := use cell world.process }
  | .grow host which granted => world.hosts[host]?.map fun cell =>
      world.update host (grow cell which granted world.process)
  | .stop host => world.hosts[host]?.map fun cell =>
      world.update host (stop cell world.process)
  | .destroy host => world.hosts[host]?.map fun cell =>
      world.update host (destroy cell world.process)

/-- Where a creation ends. -/
inductive Ending where
  | early | noLists | noName | noThread | noSocket | created
  deriving DecidableEq

def vectorGranted (answers : CreateAnswers) : Bool :=
  answers.structAlloc && answers.dataAlloc.isSome

def begun (answers : HostAnswers) : Bool :=
  answers.objectAlloc && answers.mutexInit && answers.epollCreate

def listed (answers : HostAnswers) : Bool :=
  vectorGranted answers.connections && vectorGranted answers.newConnections

def ending (role : Role) (netNs : Option String) (answers : HostAnswers) : Ending :=
  if begun answers = false then .early
  else if listed answers = false then .noLists
  else if netNs.isSome ∧ answers.strdup = false then .noName
  else if answers.pthreadCreate = false then .noThread
  else if role = .server ∧ (answers.socket && answers.setsockopt) = false then .noSocket
  else .created

/-- The worker has entered the namespace and keeps its descriptor. -/
def entersNamespace (netNs : Option String) (answers : HostAnswers) : Bool :=
  netNs.any fun netNs => netNs ≠ "" && answers.nms.opened && answers.nms.entered

/-- The copy of the name outlives the worker's attempt to enter the namespace. -/
def keepsName (netNs : Option String) (answers : HostAnswers) : Bool :=
  netNs.any fun netNs => netNs = "" || (answers.nms.opened && answers.nms.entered)

def creationWaste (role : Role) (netNs : Option String) (answers : HostAnswers) : Waste :=
  match ending role netNs answers with
  | .noLists => ⟨0, 1, 0⟩
  | .noName =>
      match role with
      | .server => .nothing
      | .service => ⟨0, 1, 0⟩
  | .noThread => ⟨netNs.isSome.toNat, 0, 0⟩
  | .noSocket => ⟨(keepsName netNs answers).toNat, (entersNamespace netNs answers).toNat, 1⟩
  | .early | .created => .nothing

def stepWaste (world : World) : Label → Waste
  | .create role netNs answers => creationWaste role netNs answers
  | .grow host which granted =>
      if !granted && world.hosts[host]?.any fun cell => (cell.vector which).mData.isSome then
        ⟨1, 0, 0⟩
      else .nothing
  | .destroy host =>
      if world.hosts[host]?.any fun cell => cell.stage = .failed then ⟨0, 1, 1⟩ else .nothing
  | .start .. | .use _ | .stop _ => .nothing

def step (world : World) (label : Label) : Option World :=
  (perform world label).map fun after =>
    { after with wasted := after.wasted.plus (stepWaste world label) }

def Label.host : Label → Option Nat
  | .create .. => none
  | .start host _ | .use host | .grow host .. | .stop host | .destroy host => some host

def Label.destroys : Label → Bool
  | .destroy _ => true
  | _ => false

/-- Nothing is done with a host that has been destroyed, and none is destroyed before it has been
started. -/
def Managed (world : World) (label : Label) : Prop :=
  ∀ host ∈ label.host, ∀ cell ∈ world.hosts[host]?,
    cell.stage ≠ .destroyed ∧ (label.destroys = true → cell.stage ≠ .configuring)

instance (world : World) (label : Label) : Decidable (Managed world label) :=
  inferInstanceAs (Decidable (∀ host ∈ label.host, ∀ cell ∈ world.hosts[host]?,
    cell.stage ≠ .destroyed ∧ (label.destroys = true → cell.stage ≠ .configuring)))

end World

section Owning

def VectorCell.blocks (vector : VectorCell) : List Block := vector.self :: vector.mData.toList

namespace HostCell

def blocks (cell : HostCell) : List Block :=
  if cell.stage = .destroyed then []
  else
    cell.self :: (cell.mConnections.blocks ++ (cell.mNewConnections.blocks ++ cell.mNetNs.toList))

def descs (cell : HostCell) : List Block :=
  if cell.stage = .destroyed then []
  else cell.mEpollDesc :: (cell.mServerSocket.toList ++ cell.mNetNsFd.toList)

def threads (cell : HostCell) : List Block :=
  if cell.stage = .destroyed then [] else cell.mThread.toList

end HostCell

def Process.losses (process : Process) : Waste :=
  ⟨process.memory.lost.length, process.descs.lost.length, process.threads.lost.length⟩

end Owning

end Libasock.HostResources
