import Libasock.ServiceManager
import Libasock.ReturnCodes

/-!
On whose thread the library opens sockets, and which network namespace that
thread is in. A namespace string goes from `asock_create_ns` to the table of
services and from there to the worker of the service the table gives; from
`asock_server_create_ns` it goes to the worker of the server. Every socket is
recorded with the namespace that was asked for and the one its thread is in.
-/

namespace Libasock.NamespaceWorkers
open GuardedRuns ReturnCodes

abbrev ServiceRef := ServiceManager.ServiceRef

inductive Worker where
  | service (service : ServiceRef)
  | server (place : Nat)
  deriving DecidableEq

structure ServerConfig where
  mNetNs : Option String
  mNetNsFd : Option Nat
  deriving DecidableEq

/-- `open()` on the namespace's file and `setns()` on what it gives. -/
structure NamespaceAnswers where
  opened : Option Nat
  entered : Bool
  deriving DecidableEq

/-- `made` is everything before `strdup`: the object, its mutex, `epoll_create1` and the lists. -/
structure ServerAnswers where
  made : Bool
  duplicated : Bool
  started : Bool
  nms : NamespaceAnswers
  socket : Bool
  reused : Bool
  deriving DecidableEq

structure Opened where
  worker : Worker
  netNs : Option String
  inside : Option String
  deriving DecidableEq

structure ServerCreation where
  netNs : Option String
  answers : ServerAnswers
  /-- Whether the caller gets a server and not `NULL`. -/
  returned : Bool
  deriving DecidableEq

section Server

/-- `asock_server_change_namespace`, with the namespace the thread is in. -/
def changeNamespace (config : ServerConfig) (inside : Option String) (answers : NamespaceAnswers) :
    Option (AsockReturnCode × ServerConfig × Option String) := do
  let netNs ← config.mNetNs
  if netNs ≠ "" then
    match answers.opened with
    | none => some (asockFailure, { config with mNetNs := none }, inside)
    | some fd =>
        if answers.entered then
          some (asockSuccess, { config with mNetNsFd := some fd }, some netNs)
        else some (asockFailure, { config with mNetNs := none }, inside)
  else some (asockSuccess, { config with mNetNsFd := none }, inside)

/-- The worker asks for its namespace and ignores what comes of it. -/
def threadEnter (config : ServerConfig) (answers : NamespaceAnswers) : Option (Option String) :=
  match config.mNetNs with
  | none => some none
  | some _ => (changeNamespace config none answers).map fun result => result.2.2

/-- `asock_server_thread_loop` up to its configuration: the namespace the thread is in when it
asks for the socket, whether it got one and whether it goes on. -/
def threadBegin (config : ServerConfig) (answers : ServerAnswers) :
    Option (Option String × Bool × Bool) :=
  (threadEnter config answers.nms).map fun inside =>
    (inside, answers.socket, answers.socket && answers.reused)

/-- `asock_server_create_ns`: what it returns, and what its worker had entered and opened. -/
def serverCreateNs (netNs : Option String) (answers : ServerAnswers) :
    Option (Bool × Option String × Bool) :=
  if answers.made = false then some (false, none, false)
  else if netNs.isSome ∧ answers.duplicated = false then some (false, none, false)
  else if answers.started = false then some (false, none, false)
  else (threadBegin ⟨netNs, none⟩ answers).map fun result => (result.2.2, result.1, result.2.1)

end Server

/-- A call of `asock_create_ns`, or of `asock_connect` for the given asock, that has asked the
table for the service. -/
structure Request where
  netNs : String
  place : Nat
  con : Option Nat
  deriving DecidableEq

structure GivenAsock where
  mNetNs : String
  service : ServiceRef
  deriving DecidableEq

structure Connecting where
  con : Nat
  service : ServiceRef
  deriving DecidableEq

structure Hosts where
  table : ServiceManager.System
  requests : List Request
  asocks : List GivenAsock
  /-- The entries of the services' `m_new_connections`. -/
  connecting : List Connecting
  inside : Worker → Option String
  servers : List ServerCreation
  opened : List Opened

def Hosts.init : Hosts := ⟨.init, [], [], [], fun _ => none, [], []⟩

/-- `socket()` in `asock_create_asock` and whether `asock_fcreate_asock` then gives an object. -/
inductive SocketAnswer where
  | failed
  | opened (made : Bool)
  deriving DecidableEq

inductive Label where
  | create (netNs : String) (duplicated : Bool)
  | connect (con : Nat)
  | turn (place : Nat) (granted : Bool)
  | finish (index : Nat) (socket : SocketAnswer)
  | attempt (index : Nat) (opened : Bool)
  | createServer (netNs : Option String) (answers : ServerAnswers)

def answered (hosts : Hosts) (request : Request) : Option (Option ServiceRef) :=
  (hosts.table.calls[request.place]?).bind fun call =>
    match call.pc with
    | .returned service => some service
    | _ => none

def ask (hosts : Hosts) (netNs : String) (con : Option Nat) : Option Hosts :=
  (ServiceManager.step hosts.table (.enter netNs)).map fun table => { hosts with
    table := table
    requests := hosts.requests ++ [⟨netNs, hosts.table.calls.length, con⟩] }

def openSocket (hosts : Hosts) (worker : Worker) (netNs : Option String) : Hosts :=
  { hosts with opened := hosts.opened ++ [⟨worker, netNs, hosts.inside worker⟩] }

/-- The rest of `asock_create_ns`: the worker of the service opens the socket. -/
def createAsock (hosts : Hosts) (netNs : String) (service : ServiceRef) : SocketAnswer → Hosts
  | .failed => hosts
  | .opened made =>
      let opened := openSocket hosts (.service service) (some netNs)
      if made then { opened with asocks := opened.asocks ++ [⟨netNs, service⟩] } else opened

def finish (hosts : Hosts) (index : Nat) (socket : SocketAnswer) : Option Hosts := do
  let request ← hosts.requests[index]?
  let service ← answered hosts request
  let hosts := { hosts with requests := hosts.requests.eraseIdx index }
  match service, request.con with
  | none, _ => some hosts
  | some service, none => some (createAsock hosts request.netNs service socket)
  | some service, some con =>
      some { hosts with connecting := hosts.connecting ++ [⟨con, service⟩] }

def attempt (hosts : Hosts) (index : Nat) (opened : Bool) : Option Hosts := do
  let entry ← hosts.connecting[index]?
  let asock ← hosts.asocks[entry.con]?
  let hosts := { hosts with connecting := hosts.connecting.eraseIdx index }
  some (if opened then openSocket hosts (.service entry.service) (some asock.mNetNs) else hosts)

def createServer (hosts : Hosts) (netNs : Option String) (answers : ServerAnswers) :
    Option Hosts := do
  let (returned, inside, opened) ← serverCreateNs netNs answers
  let worker := Worker.server hosts.servers.length
  let hosts := { hosts with
    servers := hosts.servers ++ [⟨netNs, answers, returned⟩]
    inside := Function.update hosts.inside worker inside }
  some (if opened then openSocket hosts worker netNs else hosts)

def step (hosts : Hosts) : Label → Option Hosts
  | .create netNs duplicated => if duplicated then ask hosts netNs none else some hosts
  | .connect con => (hosts.asocks[con]?).bind fun asock => ask hosts asock.mNetNs (some con)
  | .turn place granted =>
      (ServiceManager.step hosts.table (.turn place granted)).map fun table =>
        { hosts with table := table }
  | .finish index socket => finish hosts index socket
  | .attempt index opened => attempt hosts index opened
  | .createServer netNs answers => createServer hosts netNs answers

/-- Every socket asked for in a namespace was opened by a thread that had entered it, and an asock
or a server whose worker did not enter is not given to the caller. -/
structure InNamespace (hosts : Hosts) : Prop where
  entered : ∀ opened ∈ hosts.opened, ∀ netNs, opened.netNs = some netNs → netNs ≠ "" →
    opened.inside = some netNs
  withheld : ∀ asock ∈ hosts.asocks, asock.mNetNs ≠ "" →
    hosts.inside (.service asock.service) = some asock.mNetNs
  refused : ∀ (place : Nat) (creation : ServerCreation) (netNs : String),
    hosts.servers[place]? = some creation → creation.netNs = some netNs → netNs ≠ "" →
      hosts.inside (.server place) ≠ some netNs → creation.returned = false

section Conditions

def given (hosts : Hosts) (request : Request) : Option ServiceRef :=
  (answered hosts request).bind fun service => service

def ServerAnswers.enters (answers : ServerAnswers) : Bool :=
  answers.nms.opened.isSome && answers.nms.entered

def ServerAnswers.reaches (answers : ServerAnswers) (netNs : Option String) : Bool :=
  answers.made && (answers.duplicated || netNs.isNone) && answers.started && answers.socket

/-- No socket is opened for an asock with a namespace, and the worker of a server with one enters
it or opens no socket. -/
def Entering (hosts : Hosts) : Label → Prop
  | .finish index socket => ∀ request ∈ hosts.requests[index]?, (given hosts request).isSome →
      request.con = none → request.netNs ≠ "" → socket = .failed
  | .attempt index opened => ∀ entry ∈ hosts.connecting[index]?,
      ∀ asock ∈ hosts.asocks[entry.con]?, asock.mNetNs ≠ "" → opened = false
  | .createServer netNs answers => ∀ name ∈ netNs, name ≠ "" →
      answers.enters = true ∨ answers.reaches netNs = false
  | _ => True

instance (hosts : Hosts) (label : Label) : Decidable (Entering hosts label) :=
  match label with
  | .finish index socket => inferInstanceAs (Decidable (∀ request ∈ hosts.requests[index]?,
      (given hosts request).isSome → request.con = none → request.netNs ≠ "" → socket = .failed))
  | .attempt index opened => inferInstanceAs (Decidable (∀ entry ∈ hosts.connecting[index]?,
      ∀ asock ∈ hosts.asocks[entry.con]?, asock.mNetNs ≠ "" → opened = false))
  | .createServer netNs answers => inferInstanceAs (Decidable (∀ name ∈ netNs, name ≠ "" →
      answers.enters = true ∨ answers.reaches netNs = false))
  | .create .. | .connect _ | .turn .. => inferInstanceAs (Decidable True)

end Conditions

section Creating

variable {netNs : Option String} {answers : ServerAnswers} {returned opened : Bool}
  {inside : Option String}

theorem change_spec {name : String} {fd : Option Nat} {asked : NamespaceAnswers}
    {code : AsockReturnCode} {config : ServerConfig} (named : name ≠ "")
    (changes : changeNamespace ⟨some name, fd⟩ none asked = some (code, config, inside)) :
    inside = some name ↔ (asked.opened.isSome && asked.entered) = true := by
  simp only [changeNamespace, Option.bind_eq_bind, Option.bind_some, if_pos named] at changes
  split at changes
  case h_1 unopened =>
    cases changes
    simp [unopened]
  case h_2 fd opened =>
    split at changes <;> rename_i entered <;> cases changes
    · simp [opened, entered]
    · simp [entered]

theorem begin_spec {there : Option String} {socket goes : Bool}
    (begins : threadBegin ⟨netNs, none⟩ answers = some (there, socket, goes)) :
    socket = answers.socket ∧ goes = (answers.socket && answers.reused) ∧
      ∀ name, netNs = some name → name ≠ "" → (there = some name ↔ answers.enters = true) := by
  obtain ⟨inside, enters, same⟩ := Option.map_eq_some_iff.mp begins
  cases same
  refine ⟨rfl, rfl, fun name asked named => ?_⟩
  subst asked
  obtain ⟨⟨code, config, entered⟩, changes, rfl⟩ := Option.map_eq_some_iff.mp enters
  exact change_spec named changes

theorem server_spec
    (creates : serverCreateNs netNs answers = some (returned, inside, opened)) :
    opened = answers.reaches netNs ∧ returned = (answers.reaches netNs && answers.reused) ∧
      ∀ name, netNs = some name → name ≠ "" → opened = true →
        (inside = some name ↔ answers.enters = true) := by
  unfold serverCreateNs at creates
  split at creates
  case isTrue unmade =>
    cases creates
    simp [ServerAnswers.reaches, unmade]
  case isFalse made =>
    split at creates
    case isTrue uncopied =>
      cases creates
      have named : netNs.isNone = false := by cases netNs <;> simp_all
      simp [ServerAnswers.reaches, uncopied.2, named]
    case isFalse copied =>
      split at creates
      case isTrue unstarted =>
        cases creates
        simp [ServerAnswers.reaches, unstarted]
      case isFalse started =>
        obtain ⟨⟨there, socket, goes⟩, begins, same⟩ := Option.map_eq_some_iff.mp creates
        cases same
        obtain ⟨rfl, rfl, enters⟩ := begin_spec begins
        have reaches : answers.reaches netNs = answers.socket := by
          cases netNs <;> simp_all [ServerAnswers.reaches]
        rw [reaches]
        exact ⟨rfl, rfl, fun name asked named _ => enters name asked named⟩

end Creating

section Steps

variable {hosts after : Hosts} {label : Label}

inductive Moved (hosts : Hosts) : Label → Hosts → Prop where
  | silent {label : Label} {after : Hosts} (entering : Entering hosts label)
      (opened : after.opened = hosts.opened) (asocks : after.asocks = hosts.asocks)
      (servers : after.servers = hosts.servers) (inside : after.inside = hosts.inside) :
      Moved hosts label after
  | asock {label : Label} {after : Hosts} (service : ServiceRef) (netNs : String)
      (entering : Entering hosts label ↔ netNs = "")
      (opened : after.opened = hosts.opened ++
        [⟨.service service, some netNs, hosts.inside (.service service)⟩])
      (asocks : after.asocks = hosts.asocks ∨ after.asocks = hosts.asocks ++ [⟨netNs, service⟩])
      (servers : after.servers = hosts.servers) (inside : after.inside = hosts.inside) :
      Moved hosts label after
  | server {netNs : Option String} {answers : ServerAnswers} {after : Hosts}
      {returned socket : Bool} (there : Option String)
      (creates : serverCreateNs netNs answers = some (returned, there, socket))
      (opened : after.opened = hosts.opened ++
        if socket then [⟨.server hosts.servers.length, netNs, there⟩] else [])
      (asocks : after.asocks = hosts.asocks)
      (servers : after.servers = hosts.servers ++ [⟨netNs, answers, returned⟩])
      (inside : after.inside =
        Function.update hosts.inside (.server hosts.servers.length) there) :
      Moved hosts (.createServer netNs answers) after

theorem ask_moved {netNs : String} {con : Option Nat} (entering : Entering hosts label)
    (asks : ask hosts netNs con = some after) : Moved hosts label after := by
  obtain ⟨table, _, rfl⟩ := Option.map_eq_some_iff.mp asks
  exact .silent entering rfl rfl rfl rfl

theorem finish_moved {index : Nat} {socket : SocketAnswer}
    (finishes : finish hosts index socket = some after) :
    Moved hosts (.finish index socket) after := by
  simp only [finish, Option.bind_eq_bind, Option.bind_eq_some_iff] at finishes
  obtain ⟨request, here, service, answers, result⟩ := finishes
  have only : ∀ other ∈ hosts.requests[index]?, other = request := by
    intro other same
    rw [here] at same
    exact (Option.some.inj same).symm
  split at result
  case h_1 =>
    cases result
    refine .silent (fun other there got => ?_) rfl rfl rfl rfl
    rw [only other there] at got
    simp [given, answers] at got
  case h_2 place created =>
    cases result
    cases socket with
    | failed => exact .silent (fun _ _ _ _ _ => rfl) rfl rfl rfl rfl
    | opened made =>
        refine .asock place request.netNs ?_ ?_ ?_ ?_ ?_
        · constructor
          · intro entering
            by_contra named
            cases entering request here (by simp [given, answers]) created named
          · intro unnamed other there _ _ named
            rw [only other there] at named
            exact absurd unnamed named
        · cases made <;> rfl
        · cases made
          · exact .inl rfl
          · exact .inr rfl
        · cases made <;> rfl
        · cases made <;> rfl
  case h_3 place con connects =>
    cases result
    refine .silent (fun other there _ created => ?_) rfl rfl rfl rfl
    rw [only other there, connects] at created
    cases created

theorem attempt_moved {index : Nat} {opened : Bool} (attempts : attempt hosts index opened = some after) :
    Moved hosts (.attempt index opened) after := by
  simp only [attempt, Option.bind_eq_bind, Option.bind_eq_some_iff] at attempts
  obtain ⟨entry, here, asock, asked, result⟩ := attempts
  cases opened with
  | false =>
      cases result
      exact .silent (fun _ _ _ _ _ => rfl) rfl rfl rfl rfl
  | true =>
      cases result
      refine .asock entry.service asock.mNetNs ⟨fun entering => ?_, fun unnamed => ?_⟩ rfl
        (.inl rfl) rfl rfl
      · by_contra named
        cases entering entry here asock asked named
      · intro other there found known named
        rw [here] at there
        cases there
        rw [asked] at known
        cases known
        exact absurd unnamed named

theorem server_moved {netNs : Option String} {answers : ServerAnswers}
    (creates : createServer hosts netNs answers = some after) :
    Moved hosts (.createServer netNs answers) after := by
  simp only [createServer, Option.bind_eq_bind, Option.bind_eq_some_iff] at creates
  obtain ⟨⟨returned, there, socket⟩, made, result⟩ := creates
  cases result
  refine .server there made ?_ ?_ ?_ ?_
  · cases socket
    · exact (List.append_nil _).symm
    · simp [openSocket]
  · cases socket <;> rfl
  · cases socket <;> rfl
  · cases socket <;> rfl

theorem step_moved (stepped : step hosts label = some after) : Moved hosts label after := by
  cases label with
  | create netNs duplicated =>
      simp only [step] at stepped
      split at stepped
      · exact ask_moved trivial stepped
      · cases stepped
        exact .silent trivial rfl rfl rfl rfl
  | connect con =>
      obtain ⟨netNs, _, asks⟩ := Option.bind_eq_some_iff.mp stepped
      exact ask_moved trivial asks
  | turn place granted =>
      obtain ⟨table, _, rfl⟩ := Option.map_eq_some_iff.mp stepped
      exact .silent trivial rfl rfl rfl rfl
  | finish index socket => exact finish_moved stepped
  | attempt index opened => exact attempt_moved stepped
  | createServer netNs answers => exact server_moved stepped

def Outside (hosts : Hosts) : Prop := ∀ service, hosts.inside (.service service) = none

theorem step_outside (outside : Outside hosts) (stepped : step hosts label = some after) :
    Outside after := by
  intro service
  cases step_moved stepped with
  | silent _ _ _ _ inside | asock _ _ _ _ _ _ inside =>
      rw [inside]
      exact outside service
  | server _ _ _ _ _ inside =>
      rw [inside, Function.update_of_ne (fun impossible => by cases impossible)]
      exact outside service

theorem asock_namespace {service : ServiceRef} {netNs : String} (outside : Outside hosts)
    (opened : after.opened = hosts.opened ++
      [⟨.service service, some netNs, hosts.inside (.service service)⟩])
    (asocks : after.asocks = hosts.asocks ∨ after.asocks = hosts.asocks ++ [⟨netNs, service⟩])
    (servers : after.servers = hosts.servers) (inside : after.inside = hosts.inside) :
    InNamespace after ↔ InNamespace hosts ∧ netNs = "" := by
  constructor
  · intro placed
    have old : ∀ socket ∈ hosts.opened, socket ∈ after.opened := fun socket member =>
      opened ▸ List.mem_append_left _ member
    have oldAsock : ∀ asock ∈ hosts.asocks, asock ∈ after.asocks := by
      intro asock member
      rcases asocks with same | more
      · rw [same]
        exact member
      · rw [more]
        exact List.mem_append_left _ member
    refine ⟨⟨fun socket member => placed.entered socket (old socket member), ?_, ?_⟩, ?_⟩
    · intro asock member named
      rw [← inside]
      exact placed.withheld asock (oldAsock asock member) named
    · rw [← servers, ← inside]
      exact placed.refused
    · by_contra named
      -- a service's worker never leaves the namespace of the process
      have entered := placed.entered ⟨.service service, some netNs, hosts.inside (.service service)⟩
        (by rw [opened]; simp) netNs rfl named
      rw [outside service] at entered
      cases entered
  · rintro ⟨placed, rfl⟩
    refine ⟨fun socket member name asked named => ?_, fun asock member named => ?_, ?_⟩
    · rw [opened] at member
      rcases List.mem_append.mp member with old | new
      · exact placed.entered socket old name asked named
      · cases List.mem_singleton.mp new
        cases asked
        exact absurd rfl named
    · rw [inside]
      rcases asocks with same | more
      · exact placed.withheld asock (same ▸ member) named
      · rw [more] at member
        rcases List.mem_append.mp member with old | new
        · exact placed.withheld asock old named
        · cases List.mem_singleton.mp new
          exact absurd rfl named
    · rw [servers, inside]
      exact placed.refused

theorem server_namespace {netNs : Option String} {answers : ServerAnswers} {returned socket : Bool}
    {there : Option String} (creates : serverCreateNs netNs answers = some (returned, there, socket))
    (opened : after.opened = hosts.opened ++
      if socket then [⟨.server hosts.servers.length, netNs, there⟩] else [])
    (asocks : after.asocks = hosts.asocks)
    (servers : after.servers = hosts.servers ++ [⟨netNs, answers, returned⟩])
    (inside : after.inside = Function.update hosts.inside (.server hosts.servers.length) there) :
    InNamespace after ↔ InNamespace hosts ∧ Entering hosts (.createServer netNs answers) := by
  obtain ⟨reaches, result, enters⟩ := server_spec creates
  have elsewhere : ∀ {place creation}, hosts.servers[place]? = some creation →
      after.inside (.server place) = hosts.inside (.server place) := by
    intro place creation known
    have within := (List.getElem?_eq_some_iff.mp known).1
    rw [inside]
    refine Function.update_of_ne (fun same => ?_) _ _
    cases same
    exact Nat.lt_irrefl _ within
  have service : ∀ place, after.inside (.service place) = hosts.inside (.service place) := by
    intro place
    rw [inside]
    exact Function.update_of_ne (fun impossible => by cases impossible) _ _
  constructor
  · intro placed
    refine ⟨⟨fun other member => placed.entered other (opened ▸ List.mem_append_left _ member),
      fun asock member named => (service _).symm.trans
        (placed.withheld asock (asocks ▸ member) named),
        fun place creation name known asked named away => ?_⟩, fun name asked named => ?_⟩
    · have kept : after.servers[place]? = some creation := by
        rw [servers, List.getElem?_append_left (List.getElem?_eq_some_iff.mp known).1]
        exact known
      exact placed.refused place creation name kept asked named (elsewhere known ▸ away)
    · cases got : answers.reaches netNs with
      | false => exact .inr rfl
      | true =>
          refine .inl ((enters name asked named (reaches.trans got)).mp ?_)
          refine placed.entered ⟨.server hosts.servers.length, netNs, there⟩ ?_ name asked named
          rw [opened, reaches, got]
          simp
  · rintro ⟨placed, entering⟩
    refine ⟨fun other member name asked named => ?_,
      fun asock member named => (service _).trans (placed.withheld asock (asocks ▸ member) named),
      fun place creation name known asked named away => ?_⟩
    · rw [opened] at member
      rcases List.mem_append.mp member with old | new
      · exact placed.entered other old name asked named
      · cases socket with
        | false => cases new
        | true =>
            cases List.mem_singleton.mp new
            rcases entering name asked named with isIn | nowhere
            · exact (enters name asked named rfl).mpr isIn
            · rw [nowhere] at reaches
              cases reaches
    · rw [servers] at known
      by_cases old : place < hosts.servers.length
      · rw [List.getElem?_append_left old] at known
        exact placed.refused place creation name known asked named (elsewhere known ▸ away)
      · rw [List.getElem?_append_right (Nat.le_of_not_lt old)] at known
        have last : place = hosts.servers.length := by
          have short := (List.getElem?_eq_some_iff.mp known).1
          simp only [List.length_singleton] at short
          omega
        subst last
        cases List.mem_singleton.mp (List.mem_of_getElem? known)
        rcases entering name asked named with isIn | nowhere
        · cases got : answers.reaches netNs with
          | false => rw [result, got]; rfl
          | true =>
              rw [inside, Function.update_self] at away
              exact absurd ((enters name asked named (reaches.trans got)).mpr isIn) away
        · rw [result, nowhere]
          rfl

theorem step_namespace (outside : Outside hosts) (stepped : step hosts label = some after) :
    InNamespace after ↔ InNamespace hosts ∧ Entering hosts label := by
  cases step_moved stepped with
  | silent entering opened asocks servers inside =>
      refine ⟨fun placed => ⟨⟨?_, ?_, ?_⟩, entering⟩, fun ⟨placed, _⟩ => ⟨?_, ?_, ?_⟩⟩
      · rw [← opened]
        exact placed.entered
      · rw [← asocks, ← inside]
        exact placed.withheld
      · rw [← servers, ← inside]
        exact placed.refused
      · rw [opened]
        exact placed.entered
      · rw [asocks, inside]
        exact placed.withheld
      · rw [servers, inside]
        exact placed.refused
  | asock service netNs entering opened asocks servers inside =>
      rw [entering]
      exact asock_namespace outside opened asocks servers inside
  | server there creates opened asocks servers inside =>
      exact server_namespace creates opened asocks servers inside

end Steps

section Results

variable {hosts : Hosts}

theorem init_namespace : InNamespace .init := by
  refine ⟨?_, ?_, ?_⟩
  · intro opened member
    cases member
  · intro asock member
    cases member
  · intro place creation netNs known
    simp [Hosts.init] at known

theorem runs_outside (runs : Run step .init hosts) : Outside hosts :=
  runs.invariant Outside (fun _ _ _ outside _ stepped => step_outside outside stepped)
    fun _ => rfl

/-- In a run whose steps all meet the condition every socket is in its namespace, and a step that
does not meet it puts one elsewhere, whatever came before. -/
theorem sockets_in_namespace (hosts : Hosts) (runs : Run step .init hosts) :
    (GuardedRun step Entering .init hosts → InNamespace hosts) ∧
    ∀ label after, step hosts label = some after →
      (InNamespace after ↔ InNamespace hosts ∧ Entering hosts label) := by
  refine ⟨fun guarded => ?_, fun label after stepped =>
    step_namespace (runs_outside runs) stepped⟩
  exact (guarded.invariant_with Outside InNamespace
    (fun _ _ _ outside _ stepped => step_outside outside stepped)
    (fun _ _ _ outside placed entering stepped =>
      (step_namespace outside stepped).mpr ⟨placed, entering⟩)
    (fun _ => rfl) init_namespace).2

/-- `asock_create_ns` in a namespace whose service is created for it. -/
def createInBlue : List Label :=
  [.create "blue" true] ++ List.replicate 19 (.turn 0 true) ++ [.finish 0 (.opened true)]

def granted : ServerAnswers := ⟨true, true, true, ⟨some 9, true⟩, true, true⟩

-- An asock for "blue" from a thread that never entered it, and a server although `open()` failed.
theorem sockets_elsewhere :
    (∃ hosts, Run step .init hosts ∧ ¬ InNamespace hosts ∧ hosts.asocks = [⟨"blue", 0⟩] ∧
      hosts.opened = [⟨.service 0, some "blue", none⟩]) ∧
    ∃ hosts, Run step .init hosts ∧ ¬ InNamespace hosts ∧
      hosts.opened = [⟨.server 0, some "blue", none⟩] ∧
      hosts.servers = [⟨some "blue", { granted with nms := ⟨none, true⟩ }, true⟩] := by
  constructor
  · obtain ⟨hosts, run, tested⟩ := replayed step (fun _ _ => True) .init createInBlue
      (fun hosts => hosts.asocks = [⟨"blue", 0⟩] ∧
        hosts.opened = [⟨.service 0, some "blue", none⟩]) (by decide +kernel)
    obtain ⟨asocks, opened⟩ := of_decide_eq_true tested
    refine ⟨hosts, run, fun placed => ?_, asocks, opened⟩
    cases placed.entered _ (opened ▸ List.mem_singleton.mpr rfl) "blue" rfl (by decide)
  · obtain ⟨hosts, run, tested⟩ := replayed step (fun _ _ => True) .init
      [.createServer (some "blue") { granted with nms := ⟨none, true⟩ }]
      (fun hosts => hosts.opened = [⟨.server 0, some "blue", none⟩] ∧
        hosts.servers = [⟨some "blue", { granted with nms := ⟨none, true⟩ }, true⟩])
      (by decide +kernel)
    obtain ⟨opened, servers⟩ := of_decide_eq_true tested
    refine ⟨hosts, run, fun placed => ?_, opened, servers⟩
    cases placed.entered _ (opened ▸ List.mem_singleton.mpr rfl) "blue" rfl (by decide)

-- A server in "blue" and an asock without a namespace.
theorem server_in_namespace : ∃ hosts, GuardedRun step Entering .init hosts ∧
    hosts.opened = [⟨.server 0, some "blue", some "blue"⟩, ⟨.service 0, some "", none⟩] ∧
    InNamespace hosts := by
  obtain ⟨hosts, run, tested⟩ := replayed step Entering .init
    ([.createServer (some "blue") granted, .create "" true] ++
      List.replicate 19 (.turn 0 true) ++ [.finish 0 (.opened true)])
    (fun hosts => hosts.opened =
      [⟨.server 0, some "blue", some "blue"⟩, ⟨.service 0, some "", none⟩]) (by decide +kernel)
  exact ⟨hosts, run, of_decide_eq_true tested,
    (sockets_in_namespace hosts (run.weaken fun _ _ _ => trivial)).1 run⟩

end Results

end Libasock.NamespaceWorkers
