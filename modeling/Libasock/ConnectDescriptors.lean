import Libasock.ServiceCounts

/-!
The descriptors of a service's connections with what the kernel knows of them:
what `socket()` was called with, the local address `bind()` gave, and which
descriptor `connect()` was called on. `asock_create_asock` opens a socket and
`asock_bind` binds it; the attempt to connect opens another one.
-/

namespace Libasock.ConnectDescriptors
open ByteBlocks GuardedRuns NumberReuse ReturnCodes ConnectionObjects WorkerWorld ReferenceCounts
  DescriptorOwnership SocketContents ServiceWorker ServiceReferences ServiceStates
  ServiceDescriptors ServiceCounts

/-- The arguments of `socket()`. -/
structure SocketKind where
  domain : Int
  type : Int
  protocol : Int
  deriving DecidableEq

/-- `socket(AF_INET, SOCK_STREAM, 0)` -/
def streamSocket : SocketKind := ⟨2, 1, 0⟩

/-- A call of `connect()`, with the local address of the socket and `m_host_addr` at that moment. -/
structure ConnectCall where
  con : ConRef
  fd : Descriptor
  address : Option (List Byte)
  mHostAddr : Option (List Byte)
  deriving DecidableEq

structure Endpoint where
  service : Service
  /-- By acquisition, what the socket was opened with. -/
  kinds : Nat → Option SocketKind
  /-- By acquisition, the local address of the socket. -/
  bound : Nat → Option (List Byte)
  /-- The descriptor `asock_create_asock` opened for the connection. -/
  opened : ConRef → Option Descriptor
  connects : List ConnectCall

/-- What `malloc` and `bind()` answer `asock_bind`. -/
inductive BindAnswer where
  | noMemory | refused | accepted
  deriving DecidableEq

inductive Label where
  | create (kind : SocketKind) (number : Nat) (answers : ObjectAnswers)
  | bind (con : ConRef) (addr : List Byte) (answer : BindAnswer)
  | other (label : ServiceWorker.Label)

def hosted (object : Object) (addr : List Byte) : Object :=
  { object with con := { object.con with mHostAddr := some addr, mHostAddrlen := addr.length } }

/-- `asock_bind` on a connection the user holds; the kernel binds the socket open under the number. -/
def asockBind (endpoint : Endpoint) (con : ConRef) (addr : List Byte) (answer : BindAnswer) :
    Option (AsockReturnCode × Endpoint) := do
  let object ← endpoint.service.world.objects con
  match answer with
  | .noMemory => some (asockErrNomem, endpoint)
  | .refused => some (asockFailure, endpoint)
  | .accepted => do
      let fd ← object.con.mSockDesc
      let acquisition ← endpoint.service.world.table.opened fd.number
      some (asockSuccess, { endpoint with
        service := { endpoint.service with
          world := endpoint.service.world.put con (hosted object addr) }
        bound := Function.update endpoint.bound acquisition (some addr) })

/-- The descriptor an attempt calls `connect()` on, if it gets that far. -/
def connecting (service : Service) : ConnectOutcome → Option Descriptor
  | .socketFailed | .opened _ .nonBlockingFailed => none
  | .opened number _ => (service.world.table.acquire number).map fun result => result.1

/-- The connection whose turn in the takeover it is. -/
def taken (service : Service) : Option ConRef :=
  match service.pc with
  | .takingOver index => service.world.mNewConnections.items[index]?
  | _ => none

def connectCall (endpoint : Endpoint) (con : ConRef) (fd : Descriptor) : ConnectCall where
  con := con
  fd := fd
  address := endpoint.bound fd.acquisition
  mHostAddr := (endpoint.service.world.objects con).bind fun object => object.con.mHostAddr

/-- Every attempt opens the same kind of socket. -/
def openedBy (endpoint : Endpoint) : ConnectOutcome → Nat → Option SocketKind
  | .socketFailed => endpoint.kinds
  | .opened .. => Function.update endpoint.kinds endpoint.service.world.table.acquired
      (some streamSocket)

def step (endpoint : Endpoint) : Label → Option Endpoint
  | .create kind number answers => do
      let after ← ServiceWorker.step endpoint.service (.createAsock number answers)
      let con := endpoint.service.world.created
      some { endpoint with
        service := after
        kinds := Function.update endpoint.kinds endpoint.service.world.table.acquired (some kind)
        opened := Function.update endpoint.opened con (assigned after.world none (some con)) }
  | .bind con addr answer =>
      if con ∈ endpoint.service.world.held then
        (asockBind endpoint con addr answer).map fun result => result.2
      else none
  | .other (.createAsock ..) => none
  | .other (.takeOver outcome granted) => do
      let after ← ServiceWorker.step endpoint.service (.takeOver outcome granted)
      let con ← taken endpoint.service
      some { endpoint with
        service := after
        kinds := openedBy endpoint outcome
        connects := endpoint.connects ++
          ((connecting endpoint.service outcome).map (connectCall endpoint con)).toList }
  | .other label => do
      let after ← ServiceWorker.step endpoint.service label
      some { endpoint with service := after }

def Endpoint.configured (mServiceId : Int) : Endpoint :=
  ⟨.configured mServiceId, fun _ => none, fun _ => none, fun _ => none, []⟩

/-- `connect()` was called on the socket that was created and bound for the connection. -/
structure OwnDescriptor (endpoint : Endpoint) (call : ConnectCall) : Prop where
  opened : endpoint.opened call.con = some call.fd
  hosted : call.address = call.mHostAddr

section Tables

variable {world next : World} {con : ConRef} {service after : Service}
  {label : ServiceWorker.Label}

theorem same_grown (same : next.table = world.table) : Grown world.table next.table := by
  rw [same]
  exact .refl _

theorem close_grown (world : World) (fd : Option Descriptor) :
    Grown world.table (world.close fd).table := by
  cases fd with
  | none => exact .refl _
  | some fd => exact .close world.table fd

theorem acquire_grown {number : Nat} {fd : Descriptor}
    (acquires : world.acquire number = some (fd, next)) : Grown world.table next.table :=
  .acquire (acquire_effect acquires).2.1

theorem destroy_grown (world : World) (con : ConRef) :
    Grown world.table (world.destroyAsock con).table := by
  unfold World.destroyAsock
  split
  · exact .refl _
  · rename_i object _
    have put : (world.put con { object.dropped with released := true }).table = world.table := rfl
    split
    · exact (same_grown put).trans (close_grown _ _)
    · exact .refl _

theorem destroyAll_grown (world : World) (cons : List ConRef) :
    Grown world.table (world.destroyAll cons).table := by
  induction cons with
  | nil => exact .refl _
  | cons con rest ih =>
      rw [destroyAll_cons]
      exact ih.trans (destroy_grown _ con)

theorem closeConnection_grown (world : World) (number : Nat) :
    Grown world.table (world.closeConnection number).2.table := by
  rcases close_cases world number with ⟨_, same⟩ | ⟨con, index, _, _, _, same⟩
  · rw [same]
    exact same_grown (forgetNew_table number)
  · rw [same]
    have failed : ((world.forgetNew number).setState con .failed).table = world.table := by
      rw [setState_table, forgetNew_table]
    exact (same_grown failed).trans ((close_grown _ _).trans (destroy_grown _ con))

theorem tried_grown {object : Object} (tried : Tried world next con object) :
    Grown world.table next.table := by
  cases tried with
  | refused _ table => exact same_grown table
  | abandoned acquires _ table =>
      rw [table]
      exact (acquire_grown acquires).trans (close_grown _ _)
  | started _ acquires _ _ table =>
      rw [table]
      exact acquire_grown acquires

theorem step_grown (covered : Covered service)
    (stepped : ServiceWorker.step service label = some after) :
    Grown service.world.table after.world.table := by
  cases step_moved stepped with
  | closed number => exact closeConnection_grown service.world number
  | turned | began | cleared | connectPushed => exact .refl _
  | created _ creates =>
      obtain ⟨fd, world, acquires, rfl | ⟨made, _, rfl⟩⟩ := created_cases creates
      · exact (acquire_grown acquires).trans (close_grown world (some fd))
      · have grown := acquire_grown acquires
        exact grown
  | gaveUp index con middle object pc here tries =>
      obtain ⟨before, known⟩ := taken_object covered pc here
      exact (tried_grown (tries_cases known tries).1).trans (destroy_grown middle con)
  | tookOver index con middle object pc here tries =>
      obtain ⟨before, known⟩ := taken_object covered pc here
      have grown := tried_grown (tries_cases known tries).1
      exact grown
  | established con => exact same_grown (setState_table _ _ _)
  | read number world pc reads => exact same_grown (neutral_readData reads).table
  | stopped => exact (destroyAll_grown _ _).trans (destroyAll_grown _ _)
  | connectBegun _ begins =>
      obtain ⟨_, _, _, _, table, _⟩ := connectBegin_shape begins
      exact same_grown table
  | userRead world reads => exact same_grown (neutral_userRead reads).table
  | @userDestroyed con world destroys =>
      obtain ⟨_, rfl⟩ := userDestroy_cases _ destroys
      have grown := destroy_grown (service.world.setHeld (service.world.held.erase con)) con
      exact grown
  | arrived world arrives => exact same_grown (neutral_arrive arrives).table

theorem close_acquired (fd : Option Descriptor) :
    (world.close fd).table.acquired = world.table.acquired := by
  cases fd <;> rfl

theorem destroy_acquired (world : World) (con : ConRef) :
    (world.destroyAsock con).table.acquired = world.table.acquired := by
  unfold World.destroyAsock
  split
  · rfl
  · split
    · exact close_acquired _
    · rfl

theorem acquire_acquired {number : Nat} {fd : Descriptor}
    (acquires : world.acquire number = some (fd, next)) :
    fd.acquisition = world.table.acquired ∧ next.table.acquired = world.table.acquired + 1 := by
  obtain ⟨_, table, _⟩ := acquire_effect acquires
  obtain ⟨_, rfl, same⟩ := acquire_shape table
  rw [same]
  exact ⟨rfl, rfl⟩

theorem setSockDesc_table (world : World) (con : ConRef) (fd : Option Descriptor) :
    (setSockDesc world con fd).table = world.table := by
  unfold setSockDesc
  split <;> rfl

theorem giveUp_acquired (world : World) (con : ConRef) (fd : Descriptor) :
    (giveUp world con fd).table.acquired = world.table.acquired := by
  rw [giveUp, setSockDesc_table, setState_table, close_acquired]

/-- An attempt that gets a socket gets the next acquisition. -/
theorem tries_opened {number : Nat} {attempt : Attempt}
    (tries : tryConnectToPeer world con (.opened number attempt) = some next) :
    ∃ table, world.table.acquire number = some (⟨number, world.table.acquired⟩, table) ∧
      next.table.acquired = world.table.acquired + 1 := by
  simp only [tryConnectToPeer, Option.bind_eq_bind, Option.bind_eq_some_iff] at tries
  obtain ⟨⟨fd, given⟩, acquires, result⟩ := tries
  have grown := (acquire_acquired acquires).2
  obtain ⟨_, table, _⟩ := acquire_effect acquires
  rw [setState_table] at grown table
  obtain ⟨_, rfl, _⟩ := acquire_shape table
  refine ⟨given.table, table, ?_⟩
  cases attempt with
  | nonBlockingFailed | connectFailed =>
      cases result
      rw [giveUp_acquired, setSockDesc_table, grown]
  | started isEstablished watched =>
      have begun : (if isEstablished = true then
          (setSockDesc given con (some ⟨number, world.table.acquired⟩)).setState con .established
          else setSockDesc given con (some ⟨number, world.table.acquired⟩)).table.acquired =
          world.table.acquired + 1 := by
        split
        · rw [setState_table, setSockDesc_table, grown]
        · rw [setSockDesc_table, grown]
      cases watched <;> cases result
      · rw [giveUp_acquired, begun]
      · exact begun

end Tables

section Moves

variable {endpoint after : Endpoint}

/-- Everything one step can do. -/
inductive Moved (endpoint : Endpoint) : Label → Endpoint → Prop where
  | created {kind : SocketKind} {number : Nat} {answers : ObjectAnswers} {service : Service}
      (stepped : ServiceWorker.step endpoint.service (.createAsock number answers) = some service) :
      Moved endpoint (.create kind number answers) { endpoint with
        service := service
        kinds := Function.update endpoint.kinds endpoint.service.world.table.acquired (some kind)
        opened := Function.update endpoint.opened endpoint.service.world.created
          (assigned service.world none (some endpoint.service.world.created)) }
  | unbound {con : ConRef} {addr : List Byte} {answer : BindAnswer} :
      Moved endpoint (.bind con addr answer) endpoint
  | bound {con : ConRef} {addr : List Byte} {answer : BindAnswer} {object : Object}
      (number acquisition : Nat) (found : endpoint.service.world.objects con = some object)
      (isOpen : endpoint.service.world.table.opened number = some acquisition) :
      Moved endpoint (.bind con addr answer) { endpoint with
        service := { endpoint.service with
          world := endpoint.service.world.put con (hosted object addr) }
        bound := Function.update endpoint.bound acquisition (some addr) }
  | tookOver {outcome : ConnectOutcome} {granted : Bool} {service : Service} {con : ConRef}
      (turn : taken endpoint.service = some con)
      (stepped : ServiceWorker.step endpoint.service (.takeOver outcome granted) = some service) :
      Moved endpoint (.other (.takeOver outcome granted)) { endpoint with
        service := service
        kinds := openedBy endpoint outcome
        connects := endpoint.connects ++
          ((connecting endpoint.service outcome).map (connectCall endpoint con)).toList }
  | other {label : ServiceWorker.Label} {service : Service}
      (stepped : ServiceWorker.step endpoint.service label = some service) :
      Moved endpoint (.other label) { endpoint with service := service }

theorem bind_moved {con : ConRef} {addr : List Byte} {answer : BindAnswer}
    {code : AsockReturnCode} (binds : asockBind endpoint con addr answer = some (code, after)) :
    Moved endpoint (.bind con addr answer) after := by
  simp only [asockBind, Option.bind_eq_bind, Option.bind_eq_some_iff] at binds
  obtain ⟨object, found, result⟩ := binds
  cases answer with
  | noMemory | refused =>
      cases result
      exact .unbound
  | accepted =>
      obtain ⟨fd, _, acquisition, isOpen, same⟩ := by
        simpa only [Option.bind_eq_some_iff] using result
      cases same
      exact .bound fd.number acquisition found isOpen

theorem step_moved {label : Label} (stepped : step endpoint label = some after) :
    Moved endpoint label after := by
  unfold step at stepped
  split at stepped
  case h_1 =>
      obtain ⟨service, turned, same⟩ := by
        simpa only [Option.bind_eq_bind, Option.bind_eq_some_iff] using stepped
      cases same
      exact .created turned
  case h_2 =>
      split at stepped
      · obtain ⟨⟨code, next⟩, binds, same⟩ := Option.map_eq_some_iff.mp stepped
        cases same
        exact bind_moved binds
      · cases stepped
  case h_3 => cases stepped
  case h_4 =>
      obtain ⟨service, turned, con, turn, same⟩ := by
        simpa only [Option.bind_eq_bind, Option.bind_eq_some_iff] using stepped
      cases same
      exact .tookOver turn turned
  case h_5 =>
      obtain ⟨service, turned, same⟩ := by
        simpa only [Option.bind_eq_bind, Option.bind_eq_some_iff] using stepped
      cases same
      exact .other turned

theorem step_covered {label : Label} (covered : Covered endpoint.service)
    (stepped : step endpoint label = some after) : Covered after.service := by
  cases step_moved stepped with
  | created turned | tookOver _ turned | other turned =>
      exact ServiceReferences.step_covered covered turned
  | unbound => exact covered
  | @bound con addr _ object _ _ found =>
      have same : SameReferences endpoint.service.world
          (endpoint.service.world.put con (hosted object addr)) := same_put found rfl rfl
      exact (@same_place endpoint.service { endpoint.service with
        world := endpoint.service.world.put con (hosted object addr) } covered same rfl rfl).1

end Moves

section Apart

variable {endpoint after : Endpoint} {label : Label}

/-- No socket opened for an object is one `connect()` was called on, and none of these was bound
before the call. -/
structure Apart (endpoint : Endpoint) : Prop where
  bounded : ∀ number acquisition,
    endpoint.service.world.table.opened number = some acquisition →
      acquisition < endpoint.service.world.table.acquired
  unbound : ∀ acquisition, endpoint.service.world.table.acquired ≤ acquisition →
    endpoint.bound acquisition = none
  known : ∀ con fd, endpoint.opened con = some fd →
    fd.acquisition < endpoint.service.world.table.acquired
  called : ∀ call ∈ endpoint.connects,
    call.fd.acquisition < endpoint.service.world.table.acquired
  apart : ∀ call ∈ endpoint.connects, ∀ con fd, endpoint.opened con = some fd →
    fd.acquisition ≠ call.fd.acquisition
  stream : ∀ call ∈ endpoint.connects,
    endpoint.kinds call.fd.acquisition = some streamSocket
  nowhere : ∀ call ∈ endpoint.connects, call.address = none

theorem grown_bounded {before later : Table} (grown : Grown before later)
    (bounded : ∀ number acquisition, before.opened number = some acquisition →
      acquisition < before.acquired) :
    ∀ number acquisition, later.opened number = some acquisition →
      acquisition < later.acquired := by
  intro number acquisition isOpen
  rcases grown.opened number acquisition isOpen with old | ⟨_, below⟩
  · exact Nat.lt_of_lt_of_le (bounded number acquisition old) grown.acquired
  · exact below

theorem older_kind {acquired acquisition : Nat} (kind : SocketKind)
    (older : acquisition < acquired) :
    Function.update endpoint.kinds acquired (some kind) acquisition =
      endpoint.kinds acquisition :=
  Function.update_of_ne (Nat.ne_of_lt older) _ _

/-- What `asock_create_asock` leaves at the new place is the next acquisition. -/
theorem created_descriptor {number : Nat} {answers : ObjectAnswers} {service : Service}
    {fd : Descriptor} (covered : Covered endpoint.service)
    (stepped : ServiceWorker.step endpoint.service (.createAsock number answers) = some service)
    (given : assigned service.world none (some endpoint.service.world.created) = some fd) :
    fd.acquisition = endpoint.service.world.table.acquired ∧
      service.world.table.acquired = endpoint.service.world.table.acquired + 1 := by
  have worked := worker_step rfl stepped
  have creates : createAsockStep endpoint.service number answers = some service := by
    cases pc : endpoint.service.pc <;> simp only [workerStep, pc, reduceCtorEq] at worked
    · exact worked
    · exact worked
  obtain ⟨own, world, acquires, made⟩ := created_cases creates
  obtain ⟨next, grown⟩ := acquire_acquired acquires
  have objects := (acquire_effect acquires).1
  have created : world.created = endpoint.service.world.created :=
    (acquire_references acquires).lists.created
  rcases made with rfl | ⟨made, fresh, rfl⟩
  · simp [assigned, close_objects, objects, unborn_absent covered.placed] at given
  · have remembers : assigned ((world.add made).setHeld (world.created :: world.held)) none
        (some world.created) = some own :=
      assigned_some (added_here world made) fresh.descriptor
    rw [created] at remembers
    cases given.symm.trans remembers
    exact ⟨next, grown⟩

theorem created_apart {kind : SocketKind} {number : Nat} {answers : ObjectAnswers}
    {service : Service} (covered : Covered endpoint.service) (apart : Apart endpoint)
    (stepped : ServiceWorker.step endpoint.service (.createAsock number answers) = some service) :
    Apart { endpoint with
      service := service
      kinds := Function.update endpoint.kinds endpoint.service.world.table.acquired (some kind)
      opened := Function.update endpoint.opened endpoint.service.world.created
        (assigned service.world none (some endpoint.service.world.created)) } := by
  have grown := step_grown covered stepped
  have more := grown.acquired
  have given : ∀ con fd, Function.update endpoint.opened endpoint.service.world.created
      (assigned service.world none (some endpoint.service.world.created)) con = some fd →
      (fd.acquisition = endpoint.service.world.table.acquired ∧
        service.world.table.acquired = endpoint.service.world.table.acquired + 1) ∨
      endpoint.opened con = some fd := by
    intro con fd remembers
    by_cases new : con = endpoint.service.world.created
    · subst new
      rw [Function.update_self] at remembers
      exact .inl (created_descriptor covered stepped remembers)
    · rw [Function.update_of_ne new] at remembers
      exact .inr remembers
  refine ⟨grown_bounded grown apart.bounded,
    fun acquisition later => apart.unbound acquisition (Nat.le_trans more later),
    fun con fd remembers => ?_, fun call member => ?_, fun call member con fd remembers => ?_,
    fun call member => ?_, apart.nowhere⟩
  · rcases given con fd remembers with ⟨next, count⟩ | old
    · simp only [next, count]
      exact Nat.lt_succ_self _
    · exact Nat.lt_of_lt_of_le (apart.known con fd old) more
  · exact Nat.lt_of_lt_of_le (apart.called call member) more
  · rcases given con fd remembers with ⟨next, _⟩ | old
    · rw [next]
      exact (Nat.ne_of_lt (apart.called call member)).symm
    · exact apart.apart call member con fd old
  · simp only
    rw [older_kind kind (apart.called call member)]
    exact apart.stream call member

theorem takeOver_step {service next : Service} {outcome : ConnectOutcome} {granted : Bool}
    (stepped : ServiceWorker.step service (.takeOver outcome granted) = some next) :
    ∃ index, service.pc = .takingOver index ∧
      takeOverStep service index outcome granted = some next := by
  have worked := worker_step rfl stepped
  cases pc : service.pc <;> simp only [workerStep, pc, reduceCtorEq] at worked
  exact ⟨_, rfl, worked⟩

/-- `connect()` is called on the socket the attempt has just opened. -/
theorem takeOver_connects {outcome : ConnectOutcome} {granted : Bool} {service : Service}
    {fd : Descriptor}
    (stepped : ServiceWorker.step endpoint.service (.takeOver outcome granted) = some service)
    (connects : connecting endpoint.service outcome = some fd) :
    fd.acquisition = endpoint.service.world.table.acquired ∧
      service.world.table.acquired = endpoint.service.world.table.acquired + 1 ∧
      openedBy endpoint outcome = Function.update endpoint.kinds fd.acquisition
        (some streamSocket) := by
  have tried : ∃ con middle, tryConnectToPeer endpoint.service.world con outcome = some middle ∧
      service.world.table.acquired = middle.table.acquired := by
    obtain ⟨index, _, takes⟩ := takeOver_step stepped
    simp only [takeOverStep, Option.bind_eq_bind, Option.bind_eq_some_iff] at takes
    obtain ⟨con, _, middle, tries, _, _, result⟩ := takes
    refine ⟨con, middle, tries, ?_⟩
    split at result <;> cases result
    · exact destroy_acquired middle con
    · rfl
  obtain ⟨con, middle, tries, same⟩ := tried
  cases outcome with
  | socketFailed => cases connects
  | opened number attempt =>
      obtain ⟨table, acquires, grown⟩ := tries_opened tries
      have own : fd = ⟨number, endpoint.service.world.table.acquired⟩ := by
        cases attempt <;> simp only [connecting, acquires, Option.map_some, reduceCtorEq,
          Option.some.injEq] at connects
        · exact connects.symm
        · exact connects.symm
      rw [own]
      exact ⟨rfl, same.trans grown, rfl⟩

theorem openedBy_older {outcome : ConnectOutcome} {acquisition : Nat}
    (older : acquisition < endpoint.service.world.table.acquired) :
    openedBy endpoint outcome acquisition = endpoint.kinds acquisition := by
  cases outcome with
  | socketFailed => rfl
  | opened => exact older_kind streamSocket older

/-- A step that calls neither `socket()` for an object nor `connect()`. -/
theorem apart_later (apart : Apart endpoint) (opened : after.opened = endpoint.opened)
    (connects : after.connects = endpoint.connects) (bound : after.bound = endpoint.bound)
    (kinds : ∀ acquisition < endpoint.service.world.table.acquired,
      after.kinds acquisition = endpoint.kinds acquisition)
    (grown : Grown endpoint.service.world.table after.service.world.table) : Apart after := by
  refine ⟨grown_bounded grown apart.bounded, fun acquisition later => ?_, fun con fd given => ?_,
    fun call member => ?_, fun call member con fd given => ?_, fun call member => ?_,
    fun call member => ?_⟩
  · rw [bound]
    exact apart.unbound acquisition (Nat.le_trans grown.acquired later)
  · exact Nat.lt_of_lt_of_le (apart.known con fd (opened ▸ given)) grown.acquired
  · exact Nat.lt_of_lt_of_le (apart.called call (connects ▸ member)) grown.acquired
  · exact apart.apart call (connects ▸ member) con fd (opened ▸ given)
  · rw [connects] at member
    rw [kinds _ (apart.called call member)]
    exact apart.stream call member
  · exact apart.nowhere call (connects ▸ member)

theorem bound_apart {con : ConRef} {object : Object} {addr : List Byte} {number acquisition : Nat}
    (apart : Apart endpoint)
    (isOpen : endpoint.service.world.table.opened number = some acquisition) :
    Apart { endpoint with
      service := { endpoint.service with
        world := endpoint.service.world.put con (hosted object addr) }
      bound := Function.update endpoint.bound acquisition (some addr) } := by
  refine ⟨apart.bounded, fun other later => ?_, apart.known, apart.called, apart.apart,
    apart.stream, apart.nowhere⟩
  have different : other ≠ acquisition :=
    Nat.ne_of_gt (Nat.lt_of_lt_of_le (apart.bounded number acquisition isOpen) later)
  simp only [Function.update_of_ne different]
  exact apart.unbound other later

theorem tookOver_apart {outcome : ConnectOutcome} {granted : Bool} {service : Service}
    {con : ConRef} (covered : Covered endpoint.service) (apart : Apart endpoint)
    (stepped : ServiceWorker.step endpoint.service (.takeOver outcome granted) = some service) :
    Apart { endpoint with
      service := service
      kinds := openedBy endpoint outcome
      connects := endpoint.connects ++
        ((connecting endpoint.service outcome).map (connectCall endpoint con)).toList } := by
  have grown := step_grown covered stepped
  cases connects : connecting endpoint.service outcome with
  | none =>
      exact apart_later apart rfl (List.append_nil _) rfl (fun _ older => openedBy_older older)
        grown
  | some fd =>
      obtain ⟨next, count, kinds⟩ := takeOver_connects stepped connects
      refine ⟨grown_bounded grown apart.bounded,
        fun acquisition later => apart.unbound acquisition (Nat.le_trans grown.acquired later),
        fun con fd remembers => ?_, ?_, ?_, ?_, ?_⟩
      · exact Nat.lt_of_lt_of_le (apart.known con fd remembers) grown.acquired
      · intro call member
        rcases List.mem_append.mp member with old | new
        · exact Nat.lt_of_lt_of_le (apart.called call old) grown.acquired
        · cases List.mem_singleton.mp new
          simp only [connectCall, next, count]
          exact Nat.lt_succ_self _
      · intro call member con other remembers
        rcases List.mem_append.mp member with old | new
        · exact apart.apart call old con other remembers
        · cases List.mem_singleton.mp new
          simp only [connectCall, next]
          exact Nat.ne_of_lt (apart.known con other remembers)
      · intro call member
        rcases List.mem_append.mp member with old | new
        · simp only
          rw [openedBy_older (apart.called call old)]
          exact apart.stream call old
        · cases List.mem_singleton.mp new
          simp only [connectCall, kinds, Function.update_self]
      · intro call member
        rcases List.mem_append.mp member with old | new
        · exact apart.nowhere call old
        · cases List.mem_singleton.mp new
          exact apart.unbound fd.acquisition (Nat.le_of_eq next.symm)

theorem step_apart (covered : Covered endpoint.service) (apart : Apart endpoint)
    (stepped : step endpoint label = some after) : Apart after := by
  cases step_moved stepped with
  | created turned => exact created_apart covered apart turned
  | unbound => exact apart
  | bound _ _ _ isOpen => exact bound_apart apart isOpen
  | tookOver _ turned => exact tookOver_apart covered apart turned
  | other turned =>
      exact apart_later apart rfl rfl rfl (fun _ _ => rfl) (step_grown covered turned)

theorem configured_apart (mServiceId : Int) : Apart (.configured mServiceId) := by
  refine ⟨?_, fun _ _ => rfl, ?_, ?_, ?_, ?_, ?_⟩
  · intro number acquisition isOpen
    cases isOpen
  · intro con fd given
    cases given
  all_goals
    intro call member
    cases member

end Apart

section Overwriting

variable {service after : Service} {con : ConRef} {fd : Descriptor}

/-- The socket is still open and the connection no longer remembers it. -/
structure Overwritten (service : Service) (con : ConRef) (fd : Descriptor) : Prop where
  stillOpen : service.world.table.opened fd.number = some fd.acquisition
  forgotten : assigned service.world none (some con) ≠ some fd

theorem taken_here (turn : taken service = some con) : ∃ index,
    service.pc = .takingOver index ∧ service.world.mNewConnections.items[index]? = some con := by
  cases pc : service.pc <;> simp only [taken, pc, reduceCtorEq] at turn
  exact ⟨_, rfl, turn⟩

/-- An attempt leaves an open socket open and the connection with another one or with none. -/
theorem tried_overwrites {world next : World} {object : Object}
    (tried : Tried world next con object)
    (isOpen : world.table.opened fd.number = some fd.acquisition) :
    next.table.opened fd.number = some fd.acquisition ∧
      assigned next none (some con) ≠ some fd := by
  have remembers : ∀ state own,
      next.objects = (world.put con (attempted object state own)).objects →
      assigned next none (some con) = own := by
    intro state own objects
    simp [assigned, objects, World.put, attempted]
  have elsewhere : ∀ {number own acquired}, world.acquire number = some (own, acquired) →
      fd.number ≠ number ∧ own.number = number ∧
        acquired.table.opened fd.number = some fd.acquisition := by
    intro number own acquired acquires
    obtain ⟨free, rfl, table⟩ := acquire_shape (acquire_effect acquires).2.1
    have different : fd.number ≠ number := by
      rintro rfl
      rw [isOpen] at free
      cases free
    refine ⟨different, rfl, ?_⟩
    rw [table]
    simp only [Function.update_of_ne different]
    exact isOpen
  cases tried with
  | refused objects table =>
      rw [table, remembers _ _ objects]
      exact ⟨isOpen, fun impossible => by cases impossible⟩
  | abandoned acquires objects table =>
      obtain ⟨different, own, stays⟩ := elsewhere acquires
      rw [table, remembers _ _ objects]
      refine ⟨?_, fun impossible => by cases impossible⟩
      simp only [World.close, Table.close]
      rw [Function.update_of_ne (own ▸ different)]
      exact stays
  | started _ acquires _ objects table =>
      obtain ⟨different, own, stays⟩ := elsewhere acquires
      rw [table, remembers _ _ objects]
      refine ⟨stays, fun same => different ?_⟩
      cases same
      exact own

theorem takeOver_overwrites {outcome : ConnectOutcome} {granted : Bool}
    (covered : Covered service) (turn : taken service = some con)
    (isOpen : service.world.table.opened fd.number = some fd.acquisition)
    (stepped : ServiceWorker.step service (.takeOver outcome granted) = some after) :
    Overwritten after con fd := by
  obtain ⟨index, pc, here⟩ := taken_here turn
  obtain ⟨before, known⟩ := taken_object covered pc here
  obtain ⟨_, found, takes⟩ := takeOver_step stepped
  rw [pc] at found
  cases found
  simp only [takeOverStep, here, Option.bind_eq_bind, Option.bind_some,
    Option.bind_eq_some_iff] at takes
  obtain ⟨middle, tries, object, tried, result⟩ := takes
  obtain ⟨stays, forgotten⟩ := tried_overwrites (tries_cases known tries).1 isOpen
  split at result
  case isTrue failed =>
    cases result
    -- A failed attempt has left no descriptor that the release could close.
    have nothing := (tried_here (tries_cases known tries).1 tried).1 failed
    have table : (middle.destroyAsock con).table = middle.table := by
      rcases (destroy_effect tried).2 with ⟨_, same⟩ | ⟨_, _, same⟩
      · exact same
      · rw [same, nothing]
        rfl
    refine ⟨by rw [table]; exact stays, ?_⟩
    rw [(destroy_keeps middle con).assigned]
    exact forgotten
  case isFalse =>
    cases result
    exact ⟨stays, forgotten⟩

end Overwriting

section Results

variable {endpoint : Endpoint}

theorem runs_apart {mServiceId : Int} (runs : Run step (.configured mServiceId) endpoint) :
    Covered endpoint.service ∧ Apart endpoint :=
  runs.invariant_with (fun endpoint => Covered endpoint.service) Apart
    (fun _ _ _ covered _ stepped => step_covered covered stepped)
    (fun _ _ _ covered apart _ stepped => step_apart covered apart stepped)
    (configured_covered mServiceId) (configured_apart mServiceId)

theorem step_service {inner : ServiceWorker.Label} {after : Endpoint}
    (stepped : step endpoint (.other inner) = some after) :
    ServiceWorker.step endpoint.service inner = some after.service := by
  cases step_moved stepped with
  | tookOver _ turned | other turned => exact turned

/-- Whatever was created and bound, `connect()` is called on another socket, of the one kind an
attempt opens and without a local address; a descriptor that is open before the attempt stays
open and is forgotten. -/
theorem connects_elsewhere (mServiceId : Int) (endpoint : Endpoint)
    (runs : Run step (.configured mServiceId) endpoint) :
    (∀ call ∈ endpoint.connects, ¬ OwnDescriptor endpoint call ∧ call.address = none ∧
      endpoint.kinds call.fd.acquisition = some streamSocket) ∧
    ∀ (con : ConRef) (fd : Descriptor) (outcome : ConnectOutcome) (granted : Bool)
      (after : Endpoint), taken endpoint.service = some con →
      assigned endpoint.service.world none (some con) = some fd →
      endpoint.service.world.table.opened fd.number = some fd.acquisition →
      step endpoint (.other (.takeOver outcome granted)) = some after →
      Overwritten after.service con fd := by
  obtain ⟨covered, apart⟩ := runs_apart runs
  refine ⟨fun call member => ⟨fun own => ?_, apart.nowhere call member, apart.stream call member⟩,
    fun con fd outcome granted after turn _ isOpen stepped => ?_⟩
  · exact apart.apart call member call.con call.fd own.opened rfl
  · exact takeOver_overwrites covered turn isOpen (step_service stepped)

/-- A connection for another domain and type is created, bound, connected and taken over. -/
def bindAndConnect : List Label :=
  [.create ⟨10, 2, 17⟩ 4 granted, .bind 0 [7, 7] .accepted, .other .start,
    .other (.userConnect 0 [1]), .other (.userConnectPush 0 true), .other .beginPass,
    .other (.takeOver (.opened 5 (.started true true)) true)]

-- The bound datagram socket 4 stays open, `connect()` goes to the stream socket 5.
theorem bound_socket_left : ∃ endpoint, Run step (.configured 1) endpoint ∧
    (∃ call ∈ endpoint.connects, ¬ OwnDescriptor endpoint call ∧
      call.mHostAddr = some [7, 7] ∧ call.address = none) ∧
    endpoint.opened 0 = some ⟨4, 0⟩ ∧ endpoint.kinds 0 = some ⟨10, 2, 17⟩ ∧
    endpoint.bound 0 = some [7, 7] ∧ Overwritten endpoint.service 0 ⟨4, 0⟩ := by
  obtain ⟨endpoint, run, tested⟩ := replayed step (fun _ _ => True) (.configured 1) bindAndConnect
    (fun endpoint => endpoint.connects = [⟨0, ⟨5, 1⟩, none, some [7, 7]⟩] ∧
      endpoint.opened 0 = some ⟨4, 0⟩ ∧ endpoint.kinds 0 = some ⟨10, 2, 17⟩ ∧
      endpoint.bound 0 = some [7, 7] ∧ endpoint.service.world.table.opened 4 = some 0 ∧
      assigned endpoint.service.world none (some 0) = some ⟨5, 1⟩) (by decide +kernel)
  obtain ⟨connects, opened, kind, bound, isOpen, remembers⟩ := of_decide_eq_true tested
  refine ⟨endpoint, run, ⟨⟨0, ⟨5, 1⟩, none, some [7, 7]⟩, ?_, fun own => ?_, rfl, rfl⟩, opened,
    kind, bound, isOpen, ?_⟩
  · rw [connects]
    exact List.mem_singleton.mpr rfl
  · cases own.hosted
  · rw [remembers]
    decide

theorem connected_elsewhere : ∃ endpoint, Run step (.configured 1) endpoint ∧
    endpoint.connects = [⟨0, ⟨5, 1⟩, none, some [7, 7]⟩] ∧
    ∀ call ∈ endpoint.connects, ¬ OwnDescriptor endpoint call := by
  obtain ⟨endpoint, run, tested⟩ := replayed step (fun _ _ => True) (.configured 1) bindAndConnect
    (fun endpoint => endpoint.connects = [⟨0, ⟨5, 1⟩, none, some [7, 7]⟩]) (by decide +kernel)
  exact ⟨endpoint, run, of_decide_eq_true tested, fun call member =>
    ((connects_elsewhere 1 endpoint run).1 call member).1⟩

end Results

end Libasock.ConnectDescriptors
